import Mathlib.Logic.Function.Basic
import Subleq.Memory

/-!
# The view of a memory

What the writes of a memory do to its view `get`. The length of the buffer does not show in it: a
buffer that is extended with zeros has the same view.
-/

namespace Subleq

/-- A block of values laid over a view, from an address on. -/
def overlay (width base : Nat) (values : List Int) (view : Nat → Int) (address : Nat) : Int :=
  if base ≤ address then
    match values[address - base]? with
    | some value => wrap width value
    | none => view address
  else view address

@[simp] theorem overlay_nil (width base : Nat) (view : Nat → Int) :
    overlay width base [] view = view := by
  funext address
  simp [overlay]

theorem overlay_cons (width base : Nat) (value : Int) (values : List Int) (view : Nat → Int) :
    overlay width base (value :: values) view =
      overlay width (base + 1) values (Function.update view base (wrap width value)) := by
  funext address
  unfold overlay
  by_cases before : address < base
  · rw [if_neg (by omega), if_neg (by omega), Function.update_of_ne (by omega)]
  · by_cases first : address = base
    · subst first
      rw [if_pos (Nat.le_refl _), if_neg (by omega)]
      simp
    · obtain ⟨distance, rfl⟩ : ∃ distance, address = base + 1 + distance :=
        ⟨address - (base + 1), by omega⟩
      rw [if_pos (by omega), if_pos (by omega), Function.update_of_ne (by omega)]
      rw [show base + 1 + distance - base = distance + 1 by omega,
        show base + 1 + distance - (base + 1) = distance by omega]
      simp

namespace Memory

theorem size_extend (cells : Array Int) (size : Nat) :
    (extend cells size).size = max cells.size size := by
  unfold extend
  split
  next enough => omega
  next short =>
    rw [Array.size_append, Array.size_replicate]
    omega

theorem getD_append_zeros (cells : Array Int) (count address : Nat) :
    (cells ++ Array.replicate count 0).getD address 0 = cells.getD address 0 := by
  simp only [Array.getD_eq_getD_getElem?, Array.getElem?_append]
  split
  next inside => rfl
  next outside =>
    rw [Array.getElem?_eq_none (Nat.le_of_not_lt outside), Array.getElem?_replicate]
    split <;> rfl

theorem getD_extend (cells : Array Int) (size address : Nat) :
    (extend cells size).getD address 0 = cells.getD address 0 := by
  unfold extend
  split
  · rfl
  · exact getD_append_zeros cells _ address

theorem getD_setIfInBounds (cells : Array Int) {location : Nat} (inside : location < cells.size)
    (value : Int) (address : Nat) :
    (cells.setIfInBounds location value).getD address 0 =
      Function.update (fun address => cells.getD address 0) location value address := by
  simp only [Array.getD_eq_getD_getElem?]
  by_cases same : address = location
  · subst same
    simp [Array.getElem?_setIfInBounds_self_of_lt inside]
  · rw [Array.getElem?_setIfInBounds_ne (Ne.symm same), Function.update_of_ne same]

/-- Writing inside the bounds of a buffer is laying a block over its view. -/
theorem getD_overwrite (width base : Nat) (values : List Int) (cells : Array Int)
    (inside : base + values.length ≤ cells.size) (address : Nat) :
    (overwrite width cells base values).getD address 0 =
      overlay width base values (fun address => cells.getD address 0) address := by
  induction values generalizing cells base with
  | nil => simp [overwrite]
  | cons value values ih =>
      rw [List.length_cons] at inside
      rw [overwrite, overlay_cons]
      rw [ih (base + 1) _ (by rw [Array.size_setIfInBounds]; omega)]
      congr 1
      funext other
      exact getD_setIfInBounds cells (by omega) _ other

/-- A written cell holds what was written to it, wrapped; every other cell is as before. -/
theorem get_set (memory : Memory) (location : Nat) (value : Int) :
    (memory.set location value).get =
      Function.update memory.get location (wrap memory.width value) := by
  funext address
  have inside : location < (extend memory.cells (location + 1)).size := by
    rw [size_extend]
    omega
  calc (memory.set location value).get address
      = Function.update (fun address => (extend memory.cells (location + 1)).getD address 0)
          location (wrap memory.width value) address :=
        getD_setIfInBounds _ inside _ address
    _ = Function.update memory.get location (wrap memory.width value) address := by
        congr 1
        funext other
        exact getD_extend memory.cells (location + 1) other

/-- A written block stands where it was written; every other cell is as before. -/
theorem get_setBlock (memory : Memory) (base : Nat) (values : List Int) :
    (memory.setBlock base values).get = overlay memory.width base values memory.get := by
  funext address
  have inside : base + values.length ≤ (extend memory.cells (base + values.length)).size := by
    rw [size_extend]
    omega
  calc (memory.setBlock base values).get address
      = overlay memory.width base values
          (fun address => (extend memory.cells (base + values.length)).getD address 0) address :=
        getD_overwrite memory.width base values _ inside address
    _ = overlay memory.width base values memory.get address := by
        congr 1
        funext other
        exact getD_extend memory.cells (base + values.length) other

theorem size_overwrite (width address : Nat) (values : List Int) (cells : Array Int) :
    (overwrite width cells address values).size = cells.size := by
  induction values generalizing cells address with
  | nil => rfl
  | cons value values ih => rw [overwrite, ih, Array.size_setIfInBounds]

/-- A written block makes the buffer as long as it has to be. -/
theorem size_setBlock (memory : Memory) (base : Nat) (values : List Int) :
    (memory.setBlock base values).size = max memory.size (base + values.length) := by
  change (overwrite _ _ _ _).size = _
  rw [size_overwrite, size_extend]
  rfl

/-- A written cell makes the buffer as long as it has to be. -/
theorem size_set (memory : Memory) (location : Nat) (value : Int) :
    (memory.set location value).size = max memory.size (location + 1) := by
  change ((extend memory.cells (location + 1)).setIfInBounds location _).size = _
  rw [Array.size_setIfInBounds, size_extend]
  rfl

example : ((empty 16).set 10 7).size = 11 ∧ ((empty 16).set 10 7).get 9 = 0 := by decide

theorem store_eq_of_ne_error {memory : Memory} {location : Nat} {value : Int}
    (fits : ∀ tight, (memory.store location value).1 ≠ .error tight) :
    memory.store location value = (.ok (), memory.set location value) := by
  unfold store at fits ⊢
  cases growing : memory.room.growthFault? (location + 1 - memory.size) with
  | some tight =>
      rw [growing] at fits
      exact absurd rfl (fits tight)
  | none =>
      rw [growing] at fits
      cases widening : memory.widthFault? with
      | some tight =>
          rw [widening] at fits
          exact absurd rfl (fits tight)
      | none => rfl

theorem storeBlock_eq_of_ne_error {memory : Memory} {base : Nat} {values : List Int}
    (fits : ∀ tight, (memory.storeBlock base values).1 ≠ .error tight) :
    memory.storeBlock base values = (.ok values.length, memory.setBlock base values) := by
  unfold storeBlock at fits ⊢
  cases growing : memory.room.growthFault? (base + values.length - memory.size) with
  | some tight =>
      rw [growing] at fits
      exact absurd rfl (fits tight)
  | none =>
      rw [growing] at fits
      dsimp only at fits ⊢
      split at fits
      next tight _ => exact absurd rfl (fits tight)
      next widening => rfl

@[simp] theorem room_store (memory : Memory) (location : Nat) (value : Int) :
    (memory.store location value).2.room = memory.room := by
  unfold store
  split
  · rfl
  · split <;> rfl

@[simp] theorem room_storeBlock (memory : Memory) (base : Nat) (values : List Int) :
    (memory.storeBlock base values).2.room = memory.room := by
  unfold storeBlock
  split
  · rfl
  · split <;> rfl

@[simp] theorem size_clear (memory : Memory) : memory.clear.size = 0 := rfl

@[simp] theorem get_clear (memory : Memory) : memory.clear.get = fun _ => 0 := by
  funext address
  simp [clear, get]

@[simp] theorem width_clear (memory : Memory) : memory.clear.width = memory.width := rfl

@[simp] theorem room_clear (memory : Memory) : memory.clear.room = memory.room := rfl

end Memory

end Subleq
