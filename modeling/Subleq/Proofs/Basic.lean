import Mathlib.Data.List.Forall2
import Mathlib.Data.List.Nodup

/-!
# Results, tables and lists

Facts about results that may be errors, about tables of values under keys, and about lists that are
put together, which the rest of the theory shares.
-/

namespace Subleq

/-! ## Results -/

section Results

variable {ε δ α β : Type}

@[simp] theorem mapError_ok (change : ε → δ) (value : α) :
    (Except.ok value).mapError change = .ok value := rfl

@[simp] theorem mapError_error (change : ε → δ) (fault : ε) :
    (Except.error fault : Except ε α).mapError change = .error (change fault) := rfl

theorem exists_of_map_eq_ok {result : Except ε α} {f : α → β} {value : β}
    (mapped : result.map f = .ok value) : ∃ inner, result = .ok inner ∧ f inner = value := by
  cases result with
  | error fault => simp [Except.map] at mapped
  | ok inner => exact ⟨inner, rfl, by simpa [Except.map] using mapped⟩

theorem exists_of_bind_eq_ok {result : Except ε α} {next : α → Except ε β} {value : β}
    (bound : result >>= next = .ok value) :
    ∃ inner, result = .ok inner ∧ next inner = .ok value := by
  cases result with
  | error fault => cases bound
  | ok inner => exact ⟨inner, rfl, bound⟩

theorem error_of_bind {result : Except ε α} {next : α → Except ε β} {fault : ε}
    (failed : result >>= next = .error fault) :
    result = .error fault ∨ ∃ value, result = .ok value ∧ next value = .error fault := by
  cases result with
  | error other =>
      cases failed
      exact Or.inl rfl
  | ok value => exact Or.inr ⟨value, rfl, failed⟩

end Results

/-! ## Tables -/

section Tables

variable {κ α β : Type} [BEq κ] [LawfulBEq κ] {table : List (κ × α)} {key : κ} {value : α}

theorem mem_of_lookup (found : table.lookup key = some value) : (key, value) ∈ table := by
  obtain ⟨before, behind, rfl, _⟩ := List.lookup_eq_some_iff.mp found
  exact List.mem_append_right before List.mem_cons_self

/-- In a table without repeated keys every entry is found. -/
theorem lookup_of_mem (distinct : (table.map Prod.fst).Nodup) (member : (key, value) ∈ table) :
    table.lookup key = some value := by
  obtain ⟨before, behind, rfl⟩ := List.append_of_mem member
  refine List.lookup_eq_some_iff.mpr ⟨before, behind, rfl, ?_⟩
  intro entry earlier
  apply bne_iff_ne.mpr
  rintro rfl
  rw [List.map_append, List.map_cons, List.nodup_append] at distinct
  exact distinct.2.2 entry.1 (List.mem_map_of_mem earlier) entry.1 List.mem_cons_self rfl

theorem exists_lookup_of_mem (member : key ∈ table.map Prod.fst) :
    ∃ value, table.lookup key = some value := by
  rw [← Option.ne_none_iff_exists', Ne, List.lookup_eq_none_iff]
  intro absent
  obtain ⟨entry, inside, rfl⟩ := List.mem_map.mp member
  simpa using absent entry inside

/-- In a part of a table that has all entries of a key, the key is found as in the table. -/
theorem lookup_filter (keeps : κ → Bool) (kept : keeps key = true) (table : List (κ × α)) :
    (table.filter fun entry => keeps entry.1).lookup key = table.lookup key := by
  induction table with
  | nil => rfl
  | cons entry table ih =>
      obtain ⟨other, value⟩ := entry
      rw [List.filter_cons, List.lookup_cons]
      by_cases same : key = other
      · subst same
        simp [kept]
      · cases keeps other with
        | true => simp [List.lookup_cons, beq_false_of_ne same, ih]
        | false => simp [beq_false_of_ne same, ih]

omit [LawfulBEq κ] in
theorem lookup_map_snd (f : α → β) (key : κ) (table : List (κ × α)) :
    (table.map fun entry => (entry.1, f entry.2)).lookup key = (table.lookup key).map f := by
  induction table with
  | nil => rfl
  | cons entry table ih =>
      obtain ⟨other, value⟩ := entry
      rw [List.map_cons, List.lookup_cons, List.lookup_cons, ih]
      cases key == other <;> rfl

end Tables

/-! ## Lists -/

section Lists

variable {α β : Type}

theorem exists_of_forall₂_append {related : α → β → Prop} {first second : List α} {all : List β}
    (each : List.Forall₂ related (first ++ second) all) :
    ∃ before behind, List.Forall₂ related first before ∧ List.Forall₂ related second behind ∧
      all = before ++ behind := by
  refine ⟨all.take first.length, all.drop first.length, ?_, ?_, (List.take_append_drop _ _).symm⟩
  · simpa using List.forall₂_take first.length each
  · simpa using List.forall₂_drop first.length each

theorem mem_intercalate {separator : List α} {parts : List (List α)} {element : α}
    (member : element ∈ List.intercalate separator parts) :
    element ∈ separator ∨ ∃ part ∈ parts, element ∈ part := by
  induction parts with
  | nil => cases member
  | cons part parts ih =>
      cases parts with
      | nil => exact Or.inr ⟨part, List.mem_cons_self, by simpa using member⟩
      | cons next parts =>
          rw [List.intercalate_cons_cons, List.append_assoc, List.mem_append,
            List.mem_append] at member
          rcases member with first | between | behind
          · exact Or.inr ⟨part, List.mem_cons_self, first⟩
          · exact Or.inl between
          · refine (ih behind).imp_right ?_
            rintro ⟨other, inside, held⟩
            exact ⟨other, List.mem_cons_of_mem part inside, held⟩

/-- A list without the separator stands before it or behind it. -/
theorem infix_of_separated {part before behind : List α} {separator : α} (solid : separator ∉ part)
    (stands : part <:+: before ++ separator :: behind) : part <:+: before ∨ part <:+: behind := by
  obtain ⟨lead, tail, split⟩ := stands
  rw [List.append_assoc, List.append_eq_append_iff] at split
  rcases split with ⟨others, rfl, split⟩ | ⟨others, rfl, split⟩
  · rw [List.append_eq_append_iff] at split
    rcases split with ⟨rest, rfl, rfl⟩ | ⟨rest, rfl, split⟩
    · exact Or.inl ⟨lead, rest, List.append_assoc ..⟩
    · cases rest with
      | nil => exact Or.inl ⟨lead, [], by simp⟩
      | cons element rest =>
          obtain ⟨rfl, rfl⟩ := List.cons.inj split
          exact absurd (by simp) solid
  · cases others with
    | nil =>
        cases part with
        | nil => exact Or.inl List.nil_infix
        | cons element part =>
            obtain ⟨rfl, rfl⟩ := List.cons.inj split
            exact absurd List.mem_cons_self solid
    | cons element others =>
        obtain ⟨rfl, rfl⟩ := List.cons.inj split
        exact Or.inr ⟨others, tail, List.append_assoc ..⟩

end Lists

end Subleq
