import Subleq.Proofs.Monitor.Evaluation
import Subleq.Proofs.Monitor.Source

/-!
# Any word list

The monitor can be built with any word list, and `words` lists it, time and again. The address after
the image may then be greater than any number that `u.` prints, so nothing is said here of the other
words; `words` needs only that the addresses and the codes of the list are values of cells.
-/

namespace Subleq.Monitor

open Assembly

section Spelling

variable {σ : Type} {words : List String} {here width : Nat} {ports : Ports σ} {store : Store}
  {staged : List Int} {env : σ}

/-- Letters take the monitor on from where it has read others. -/
theorem leads_spelling (wide : 16 ≤ width) {codes : List Int}
    (solid : ∀ code ∈ codes, 32 < code ∧ code < 256) (letters : List Int) :
    ∃ after,
      Leads words width ports (stand words width (standby words letters) store (codes ++ staged))
        env
        (stand words width (standby words (letters ++ codes.map lowerCode)) after staged) env ∧
      ∀ slot, slot ≠ .ch → after.value slot = store.value slot := by
  have bound := cellBound_of_wide wide
  induction codes generalizing letters store with
  | nil =>
      refine ⟨store, ?_, fun _ _ => rfl⟩
      rw [List.map_nil, List.append_nil, List.nil_append]
      exact .refl _ env
  | cons code codes ih =>
      obtain ⟨lower, upper⟩ := solid code List.mem_cons_self
      have inRange : InRange width code := ⟨by omega, by omega⟩
      have turned := @leads_turn σ words width ports store (codes ++ staged) env code wide letters
      rw [hear_of_inRange wide inRange, turn_of_inRange, if_neg (by omega)] at turned
      obtain ⟨after, others, frame⟩ := @ih (store.set .ch (wrap width code))
        (fun other member => solid other (List.mem_cons_of_mem _ member))
        (letters ++ [lowerCode code])
      refine ⟨after, ?_, ?_⟩
      · rw [List.append_assoc, List.singleton_append] at others
        exact turned.trans others
      · intro slot other
        rw [frame slot other]
        exact Store.value_set_of_ne _ other _

theorem leads_wordsLine (wide : 16 ≤ width) (accepts : Accepts ports)
    (small : ((programWith words).size : Int) < cellBound width)
    (fits : ∀ code ∈ wordCodes words, wrap width code = code) {session : Session}
    (running : session.halted = false) (between : session.reading = .word [])
    (agrees : Agrees words here width session store) :
    ∃ after,
      Leads words width ports
        (point words width session store (codesOf (Machine.terminated "\n" "words"))) env
        (point words width session after []) (deliver ports (wordCodes words) env) ∧
      Agrees words here width session after := by
  have bound := cellBound_of_wide wide
  have codes : codesOf (Machine.terminated "\n" "words") = codesOf "words" ++ [10] := by decide
  have solid : ∀ code ∈ codesOf "words", 32 < code ∧ code < 256 := by decide
  have lowered : (codesOf "words").map lowerCode = codesOf "words" := by decide
  have acts : ending (codesOf "words") = "words" := by decide
  have heard := hear_of_inRange wide (show InRange width 10 from ⟨by decide, by omega⟩)
  have same : (session.goOn (.word [])).haltIf false = session := by
    rw [Session.haltIf_false, Session.goOn, ← between]
  obtain ⟨spelled, spells, frame⟩ := @leads_spelling σ words width ports store [10] env wide _
    solid []
  have turned := @leads_turn σ words width ports spelled [] env 10 wide (codesOf "words")
  rw [List.nil_append, lowered] at spells
  rw [heard, turn_of_inRange, if_pos (by decide), Turn.lines, acts] at turned
  have kept : Agrees words here width session (spelled.set .ch (wrap width 10)) := by
    apply Agrees.set_ch
    apply agrees.frame
    · exact frame .tos (by decide)
    · exact frame .endp (by decide)
    · exact frame .wlb (by decide)
    · exact frame .wle (by decide)
  obtain ⟨after, listed, agreesAfter⟩ := performs_wordList wide accepts small fits running _ [] env
    kept (Store.value_set_self ..)
  rw [heard, same] at listed agreesAfter
  refine ⟨after, ?_, agreesAfter⟩
  rw [codes, point_of_active running, between]
  exact spells.trans (turned.trans listed)

end Spelling

section Tables

variable {σ : Type} {words : List String} {here width : Nat} {ports : Ports σ} {image : List Int}
  {assembled : (programWith words).image (.ofListing (programWith words)) 0 = .ok image}
  {small : (image.length : Int) ≤ cellBound width} {session : Session} {machine : Machine}

/-- Between words, `words` lists the words and leaves the monitor between words. -/
theorem Mirrors.eval_words
    (mirrors : Mirrors words here width image assembled small session machine)
    (wide : 16 ≤ width) (accepts : Accepts ports)
    (fits : ∀ code ∈ wordCodes words, wrap width code = code)
    (running : session.halted = false) (between : session.reading = .word []) (env : σ) :
    ∃ bound, ∀ fuel, bound ≤ fuel →
      let progress := machine.eval ports fuel "\n" "words" env
      progress.ending = .stopped ∧ progress.env = deliver ports (wordCodes words) env ∧
        Mirrors words here width image assembled small session progress.machine := by
  have below : ((programWith words).size : Int) < cellBound width := by
    have length := length_image_eq assembled
    omega
  apply mirrors.evalCodes_of_leads running _ fun _ => rfl
  intro store agrees
  rw [Machine.terminatedCodes_codesOf]
  exact leads_wordsLine wide accepts below fits running between agrees

theorem Mirrors.evalAll_words
    (mirrors : Mirrors words here width image assembled small session machine)
    (wide : 16 ≤ width) (accepts : Accepts ports)
    (fits : ∀ code ∈ wordCodes words, wrap width code = code)
    (running : session.halted = false) (between : session.reading = .word []) (count : Nat)
    (env : σ) :
    ∃ bound, ∀ fuel, bound ≤ fuel →
      let progress := machine.evalAll ports fuel "\n" (List.replicate count "words") env
      progress.ending = .stopped ∧
        progress.env = deliver ports (List.replicate count (wordCodes words)).flatten env ∧
        Mirrors words here width image assembled small session progress.machine := by
  induction count generalizing machine env with
  | zero => exact ⟨0, fun _ _ => ⟨rfl, rfl, mirrors⟩⟩
  | succ count ih =>
      obtain ⟨first, evaluates⟩ := mirrors.eval_words wide accepts fits running between env
      obtain ⟨stopped, delivered, next⟩ := evaluates first (le_refl first)
      obtain ⟨rest, others⟩ := ih next (machine.eval ports first "\n" "words" env).env
      refine ⟨max first rest, fun fuel enough => ?_⟩
      have same := Machine.eval_of_le ports ((le_max_left first rest).trans enough) "\n" "words"
        machine env (by rw [stopped]; exact Machine.Ending.noConfusion)
      obtain ⟨returned, emitted, mirrored⟩ := others fuel ((le_max_right first rest).trans enough)
      rw [List.replicate_succ, Machine.evalAll_cons, same, stopped]
      refine ⟨returned, ?_, mirrored⟩
      rw [List.replicate_succ, List.flatten_cons, deliver_append, ← delivered]
      exact emitted

end Tables

/-- The codes of words are values of cells when those of their letters are. -/
theorem wrap_wordCodes {words : List String} {width : Nat} (wide : 16 ≤ width)
    (letters : ∀ word ∈ words, ∀ c ∈ word.toList, (c.toNat : Int) ≤ cellBound width - 1) :
    ∀ code ∈ wordCodes words, wrap width code = code := by
  have bound := cellBound_of_wide wide
  intro code member
  obtain ⟨word, inside, held⟩ := List.mem_flatMap.mp member
  rcases List.mem_cons.mp held with rfl | spelled
  · exact wrap_of_wide wide (by decide) (by decide)
  · obtain ⟨c, letter, rfl⟩ := List.mem_map.mp spelled
    have upper := letters word inside c letter
    exact wrap_of_fitsCell (by omega) ⟨by omega, by omega⟩

/-- `words` lists any word list. For cells of at least 16 bits and words with letters whose codes
are values of such cells, the source of the monitor with these words assembles. If its image is not
larger than the cells can address, then on a machine that is loaded with it, with a sink that
accepts every code, `words` can be evaluated any number of times: every evaluation returns and emits
a blank and the codes of the letters for each of the words in turn. -/
theorem evalAll_load_lists_words {σ : Type} {width : Nat} (wide : 16 ≤ width) {ports : Ports σ}
    (accepts : Accepts ports) {words : List String} (nonempty : words ≠ [])
    (letters : ∀ word ∈ words, ∀ c ∈ word.toList, (c.toNat : Int) ≤ cellBound width - 1) :
    ∃ image sizes, assemble (sourceWith words) 0 = .ok (image, sizes) ∧
      ((image.length : Int) ≤ cellBound width → ∀ (count : Nat) (env : σ),
        ∃ bound, ∀ fuel, bound ≤ fuel →
          let machine := ((Machine.ofWidth width).load image 0).2
          let progress := machine.evalAll ports fuel "\n" (List.replicate count "words") env
          progress.ending = .stopped ∧ progress.machine.halted = false ∧
            progress.env = deliver ports
              (List.replicate count (words.flatMap fun word => 32 :: codesOf word)).flatten
              env) := by
  obtain ⟨image, sizes, accepted, assembled⟩ := assemble_sourceWith nonempty
  refine ⟨image, sizes, accepted, fun small count env => ?_⟩
  have mirrors := @mirrors_load words width image assembled small wide
  obtain ⟨bound, evaluates⟩ := mirrors.evalAll_words wide accepts (wrap_wordCodes wide letters) rfl
    rfl count env
  refine ⟨bound, fun fuel enough => ?_⟩
  obtain ⟨stopped, emitted, after⟩ := evaluates fuel enough
  exact ⟨stopped, after.halted_eq, emitted⟩

/-- Two words, one of them empty and one with a letter of another script, listed twice. -/
theorem evalAll_load_lists_words_twice :
    ∃ image sizes, assemble (sourceWith ["", "aλ"]) 0 = .ok (image, sizes) ∧
      (image.length : Int) ≤ cellBound 16 ∧
      ∃ bound, ∀ fuel, bound ≤ fuel →
        let machine := ((Machine.ofWidth 16).load image 0).2
        let progress := machine.evalAll recorder fuel "\n" ["words", "words"] []
        progress.ending = .stopped ∧ progress.machine.halted = false ∧
          progress.env = [32, 32, 97, 955, 32, 32, 97, 955] := by
  have letters : ∀ word ∈ ["", "aλ"], ∀ c ∈ word.toList, (c.toNat : Int) ≤ cellBound 16 - 1 := by
    have checked : (["", "aλ"].all fun word => word.toList.all fun c =>
        decide ((c.toNat : Int) ≤ cellBound 16 - 1)) = true := by decide
    simpa only [List.all_eq_true, decide_eq_true_eq] using checked
  obtain ⟨image, sizes, accepted, lists⟩ := evalAll_load_lists_words (le_refl 16)
    (show Accepts recorder from fun _ _ => rfl) (show ["", "aλ"] ≠ [] by decide) letters
  obtain ⟨other, otherSizes, same, assembled⟩ :=
    assemble_sourceWith (show ["", "aλ"] ≠ [] by decide)
  obtain ⟨rfl, rfl⟩ : image = other ∧ sizes = otherSizes := by
    simpa using accepted.symm.trans same
  have small : (image.length : Int) ≤ cellBound 16 := by
    have parts : (programWith ["", "aλ"]).size = 2151 ∧
        ((programWith ["", "aλ"]).poolFrom []).length = 36 := by
      decide +kernel
    rw [length_image_eq assembled, parts.1, parts.2]
    decide
  exact ⟨image, sizes, accepted, small, lists small 2 []⟩

end Subleq.Monitor
