import Subleq.Proofs.Monitor.Letters

/-!
# Listing the words

What `words` does. The word list stands behind the cells of the monitor. An instruction that emits
is moved along the list: its operand is set to the address of the next code before it is executed,
up to the end of the list.
-/

namespace Subleq.Monitor

open Assembly

/-! ## The word list -/

theorem wordList_eq (words : List String) :
    wordList words =
      [label "wlist", does (.data ((wordCodes words).map .literal)), label "wlend"] := by
  simp [wordList, wordCodes, codesOf, List.map_flatMap, Function.comp_def]

theorem size_wordList (words : List String) :
    (wordList words).size = (wordCodes words).length := by
  simp [wordList_eq, Listing.size, Line.size, Statement.size, label, does]

/-- The codes of the word list are plain data behind the cells. -/
theorem datum?_wordList {words : List String} {index : Nat} {code : Int}
    (found : (wordCodes words)[index]? = some code) :
    (programWith words).datum? (listPlace + index) = some (.literal code) := by
  obtain ⟨inside, rfl⟩ := List.getElem?_eq_some_iff.mp found
  have place : listPlace = (routines ++ storage).size := by
    rw [Listing.size_append, size_routines, size_storage]
  rw [programWith_eq, cellsWith, ← List.append_assoc, place, Listing.datum?_append, wordList_eq]
  simp [Listing.datum?, Line.size, Statement.size, label, does, inside]

theorem initialCells_wordList {words : List String} {index : Nat} {code : Int} (width : Nat)
    (found : (wordCodes words)[index]? = some code) :
    (programWith words).initialCells width (listPlace + index) = wrap width code := by
  rw [Listing.initialCells, datum?_wordList found]
  rfl

theorem writable_wordList {words : List String} {index : Nat}
    (inside : index < (wordCodes words).length) : Writable words (listPlace + index) := by
  refine Or.inl ?_
  rw [Listing.IsDatum, datum?_wordList (List.getElem?_eq_getElem inside)]
  rfl

/-! ## The loop -/

theorem exists_emitter (words : List String) :
    ∃ before, programWith words = before ++ does emitter :: increase "ptr" (number 1) ::
      goTo "wloop" :: routine words "done" ∧ Listing.size before = emitterPlace := by
  obtain ⟨there, sizes⟩ := labelled?_emitter words
  obtain ⟨before, split, -⟩ := Listing.position?_ofListing (unreserved words) there
  rw [split, Listing.size_append, Nat.add_right_cancel_iff] at sizes
  refine ⟨before ++ [label "wout"], ?_, ?_⟩
  · rw [split, show routine words "wout" = _ from Passage.wout.routine_eq words,
      List.append_assoc]
    rfl
  · rw [Listing.size_append, sizes]
    rfl

theorem counter_emitter (words : List String) :
    (programWith words).counter (some (does emitter :: increase "ptr" (number 1) ::
      goTo "wloop" :: routine words "done")) = emitterPlace := by
  obtain ⟨before, split, size⟩ := exists_emitter words
  rw [split, Listing.counter_append, size]

theorem getElem?_image_emitter {words : List String} {image : List Int}
    (assembled : (programWith words).image (.ofListing (programWith words)) 0 = .ok image) :
    image[emitterPlace]? = some 0 := by
  obtain ⟨before, split, size⟩ := exists_emitter words
  have parts : Listing.image (before ++ does emitter :: increase "ptr" (number 1) ::
      goTo "wloop" :: routine words "done") (.ofListing (programWith words)) 0 = .ok image := by
    rw [← split]
    exact assembled
  have term : (emitter.terms (Listing.size before))[0]? = some (.value 0) := rfl
  obtain ⟨value, resolved, held⟩ := Listing.getElem?_image_statement parts rfl term
  cases resolved
  rw [size] at held
  exact held

section Words

variable {σ : Type} {words : List String} {width : Nat} {ports : Ports σ} {store : Store}
  {staged : List Int} {env : σ} {rest : Listing}

theorem leads_patch :
    Leads words width ports (stand words width (move "wout" (cell "ptr") :: rest) store staged) env
      (stand words width rest { store with pointer := store.value .ptr } staged) env := by
  have address : (programWith words).address (cell "wout") = emitterPlace := by
    rw [Listing.address, address?_emitter, Option.getD_some]
  have value : (programWith words).value width (store.cells words width) (cell "ptr") =
      store.value .ptr := value_operand (.of .ptr)
  refine .step rfl (by decide) (fun _ same => Statement.noConfusion same) ?_ (.refl _ env)
  simp only [Listing.execute, stand, address, value, Execution.write, Execution.goOn,
    Store.update_cells_emitterPlace]

theorem leads_emitter (accepts : Accepts ports) {index : Nat} {code : Int}
    (found : (wordCodes words)[index]? = some code) (fits : wrap width code = code)
    (pointing : store.pointer = (listPlace + index : Nat)) :
    Leads words width ports (stand words width (routine words "wout") store staged) env
      (stand words width (increase "ptr" (number 1) :: goTo "wloop" :: routine words "done") store
        staged) (deliver ports [code] env) := by
  have inside : index < (wordCodes words).length := (List.getElem?_eq_some_iff.mp found).1
  have held : store.cells words width (listPlace + index) = code := by
    rw [Store.cells_of_le store (Nat.le_add_right _ _), initialCells_wordList width found, fits]
  refine (leads_enter .wout).trans ?_
  refine .emit (counter_emitter words) ?_ (writable_wordList inside) ?_ (.refl _ _)
  · rw [Store.cells_emitterPlace, pointing]
  · rw [held, accepts.sink_eq]

/-- The pointer is compared with the end of the word list. -/
theorem leads_listTest (wide : 16 ≤ width)
    (small : ((programWith words).size : Int) < cellBound width) {index : Nat}
    (inside : index ≤ (wordCodes words).length)
    (heldPtr : store.value .ptr = (listPlace + index : Nat))
    (heldEnd : store.value .wle = (programWith words).size) :
    Leads words width ports (stand words width (routine words "wloop") store staged) env
      (stand words width
        (if index = (wordCodes words).length then routine words "endword"
          else move "wout" (cell "ptr") :: routine words "wout") store staged) env := by
  have size := size_programWith words
  rw [size_wordList] at size
  have tested := @leads_jeq σ words width ports store staged env
    (move "wout" (cell "ptr") :: routine words "wout") (.of .ptr) (.of .wle) "endword" (by decide)
  have equal : LooksEqual width (listPlace + index : Nat) (programWith words).size ↔
      index = (wordCodes words).length := by
    rw [looksEqual_of_nonneg (by omega) (by omega) (by omega) (by omega) small]
    omega
  simp only [Source.value, heldPtr, heldEnd] at tested
  rw [if_congr equal rfl rfl] at tested
  exact (leads_enter .wloop).trans tested

/-- A code of the word list is emitted, and the pointer is moved on. -/
theorem leads_listStep (wide : 16 ≤ width) (accepts : Accepts ports)
    (small : ((programWith words).size : Int) < cellBound width) {index : Nat} {code : Int}
    (found : (wordCodes words)[index]? = some code) (fits : wrap width code = code)
    (heldPtr : store.value .ptr = (listPlace + index : Nat))
    (heldEnd : store.value .wle = (programWith words).size) :
    Leads words width ports (stand words width (routine words "wloop") store staged) env
      (stand words width (routine words "wloop")
        (Store.set { store with pointer := store.value .ptr } .ptr (listPlace + (index + 1) : Nat))
        staged) (deliver ports [code] env) := by
  have inside : index < (wordCodes words).length := (List.getElem?_eq_some_iff.mp found).1
  have size := size_programWith words
  rw [size_wordList] at size
  have tested := @leads_listTest σ words width ports store staged env wide small index inside.le
    heldPtr heldEnd
  rw [if_neg (by omega)] at tested
  have patched : Store.value { store with pointer := store.value .ptr } .ptr =
      (listPlace + index : Nat) := heldPtr
  refine tested.trans (leads_patch.trans ((leads_emitter accepts found fits heldPtr).trans ?_))
  refine (leads_increaseNumber wide .ptr 1 patched ⟨by omega, by omega⟩).trans ?_
  rw [show ((listPlace + index : Nat) : Int) + 1 = (listPlace + (index + 1) : Nat) by omega]
  exact leads_goTo (by decide)

/-- The codes from a position of the word list on are emitted. -/
theorem leads_list (wide : 16 ≤ width) (accepts : Accepts ports)
    (small : ((programWith words).size : Int) < cellBound width)
    (fits : ∀ code ∈ wordCodes words, wrap width code = code) (index : Nat)
    (inside : index ≤ (wordCodes words).length)
    (heldPtr : store.value .ptr = (listPlace + index : Nat))
    (heldEnd : store.value .wle = (programWith words).size) :
    ∃ after,
      Leads words width ports (stand words width (routine words "wloop") store staged) env
        (stand words width (routine words "endword") after staged)
        (deliver ports ((wordCodes words).drop index) env) ∧
      ∀ slot, slot ≠ .ptr → after.value slot = store.value slot := by
  induction remaining : (wordCodes words).length - index generalizing index store env with
  | zero =>
      have tested := @leads_listTest σ words width ports store staged env wide small index inside
        heldPtr heldEnd
      rw [if_pos (by omega)] at tested
      refine ⟨store, ?_, fun _ _ => rfl⟩
      rw [List.drop_of_length_le (by omega)]
      exact tested
  | succ remaining ih =>
      have more : index < (wordCodes words).length := by omega
      have found : (wordCodes words)[index]? = some (wordCodes words)[index] :=
        List.getElem?_eq_getElem more
      have step := @leads_listStep σ words width ports store staged env wide accepts small index _
        found (fits _ (List.getElem_mem more)) heldPtr heldEnd
      obtain ⟨after, others, frame⟩ := @ih
        (Store.set { store with pointer := store.value .ptr } .ptr (listPlace + (index + 1) : Nat))
        (deliver ports [(wordCodes words)[index]] env) (index + 1) (by omega)
        (Store.value_set_self ..) ((Store.value_set_of_ne _ (by decide) _).trans heldEnd) (by omega)
      refine ⟨after, ?_, ?_⟩
      · rw [← deliver_append] at others
        rw [List.drop_eq_getElem_cons more]
        exact step.trans others
      · intro slot other
        rw [frame slot other]
        simp [other]

theorem leads_words (wide : 16 ≤ width) (accepts : Accepts ports)
    (small : ((programWith words).size : Int) < cellBound width)
    (fits : ∀ code ∈ wordCodes words, wrap width code = code)
    (heldStart : store.value .wlb = listPlace)
    (heldEnd : store.value .wle = (programWith words).size) :
    ∃ after,
      Leads words width ports (stand words width (routine words "words") store staged) env
        (stand words width (routine words "endword") after staged)
        (deliver ports (wordCodes words) env) ∧
      ∀ slot, slot ≠ .ptr → after.value slot = store.value slot := by
  obtain ⟨after, listed, frame⟩ := @leads_list σ words width ports (store.set .ptr listPlace) staged
    env wide accepts small fits 0 (Nat.zero_le _) (Store.value_set_self ..)
    ((Store.value_set_of_ne _ (by decide) _).trans heldEnd)
  refine ⟨after, ?_, ?_⟩
  · have moved := @leads_move σ words width ports store staged env (routine words "wloop") .ptr
      (.of .wlb) (by decide)
    rw [Source.value, heldStart] at moved
    exact (leads_enter .words).trans (moved.trans listed)
  · intro slot other
    rw [frame slot other]
    simp [other]

end Words

end Subleq.Monitor
