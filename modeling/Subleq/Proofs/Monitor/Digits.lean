import Subleq.Proofs.Monitor.Letters

/-!
# Printing a number

What `u.` does: it emits a blank and the decimal digits of the one cell of the stack, read as an
unsigned number of 16 bits. The digits are found from the highest down, by counting how often a
power of ten can be taken off, and they are shown to be those of the number as it is written.
-/

namespace Subleq.Monitor

open Assembly

/-! ## Digits from the highest down -/

/-- What is emitted for a digit: a zero is left out until another digit has been emitted. -/
def shown (started : Bool) (digit : Nat) : List Int :=
  if digit = 0 ∧ started = false then [] else [(digit : Int) + 48]

/-- The digits of a number from a power of ten down; the last is always emitted. -/
def numeral : (power : Nat) → (started : Bool) → (value : Nat) → List Int
  | 0, _, value => [(value : Int) + 48]
  | power + 1, started, value =>
      shown started (value / 10 ^ (power + 1)) ++
        numeral power (started || value / 10 ^ (power + 1) != 0) (value % 10 ^ (power + 1))

theorem numeral_true_succ (power value : Nat) :
    numeral (power + 1) true value =
      numeral power true (value / 10) ++ [((value % 10 : Nat) : Int) + 48] := by
  induction power generalizing value with
  | zero => simp [numeral, shown]
  | succ power ih =>
      have high : value / 10 / 10 ^ (power + 1) = value / 10 ^ (power + 2) := by
        rw [Nat.div_div_eq_div_mul, Nat.pow_succ' (n := power + 1)]
      have middle : value % 10 ^ (power + 2) / 10 = value / 10 % 10 ^ (power + 1) := by
        rw [Nat.pow_succ, Nat.mod_mul_left_div_self]
      have low : value % 10 ^ (power + 2) % 10 = value % 10 :=
        Nat.mod_mod_of_dvd value (Dvd.intro_left (10 ^ (power + 1)) rfl)
      have unfolded : ∀ power value : Nat, numeral (power + 1) true value =
          ((value / 10 ^ (power + 1) : Nat) + 48 : Int) ::
            numeral power true (value % 10 ^ (power + 1)) := by
        intro power value
        simp [numeral, shown]
      rw [unfolded (power + 1), ih, middle, low, unfolded power, high, List.cons_append]

theorem codesOf_toString (value : Nat) :
    codesOf (toString value) = (Nat.toDigits 10 value).map fun c => (c.toNat : Int) := by
  rw [codesOf, Nat.toString_eq_repr, Nat.toList_repr]

theorem numeral_true (power value : Nat) (lower : power = 0 ∨ 10 ^ power ≤ value)
    (upper : value < 10 ^ (power + 1)) :
    numeral power true value = codesOf (toString value) := by
  rw [codesOf_toString]
  induction power generalizing value with
  | zero =>
      have small : value < 10 := upper
      rw [Nat.toDigits_of_lt_base small, List.map_singleton,
        Nat.toNat_digitChar_of_lt_ten small, numeral]
      simp [add_comm]
  | succ power ih =>
      have atLeast : 10 ^ (power + 1) ≤ value := lower.resolve_left (Nat.succ_ne_zero power)
      rw [Nat.pow_succ] at atLeast upper
      have positive : 0 < 10 ^ power := Nat.pow_pos (by decide)
      have last : Nat.toDigits 10 value =
          Nat.toDigits 10 (value / 10) ++ [(value % 10).digitChar] :=
        Nat.toDigits_of_base_le (by decide) (by omega)
      rw [numeral_true_succ, ih (value / 10) (Or.inr (by omega)) (by omega), last, List.map_append,
        List.map_singleton, Nat.toNat_digitChar_of_lt_ten (by omega)]
      simp [add_comm]

/-- The digits of a number are those it is written with. -/
theorem numeral_false (power value : Nat) (upper : value < 10 ^ (power + 1)) :
    numeral power false value = codesOf (toString value) := by
  induction power with
  | zero => exact numeral_true 0 value (Or.inl rfl) upper
  | succ power ih =>
      by_cases leading : value < 10 ^ (power + 1)
      · have zero : value / 10 ^ (power + 1) = 0 := Nat.div_eq_of_lt leading
        rw [numeral, zero, Nat.mod_eq_of_lt leading]
        exact ih leading
      · have positive : value / 10 ^ (power + 1) ≠ 0 :=
          (Nat.div_pos (by omega) (Nat.pow_pos (by decide))).ne'
        rw [← numeral_true (power + 1) value (Or.inr (by omega)) upper]
        simp [numeral, shown, bne_iff_ne.mpr positive, positive]

/-! ## The loops -/

section Print

variable {σ : Type} {words : List String} {width : Nat} {ports : Ports σ} {store : Store}
  {staged : List Int} {env : σ} {rest : Listing}

theorem leads_count (wide : 16 ≤ width) {power : Nat} (positive : 0 < power)
    (small : power ≤ 10000) (value digit : Nat) (fits : (value : Int) < cellBound width)
    (few : digit + value / power < 100) (heldPower : store.value .p1 = power)
    (heldLess : store.value .pm1 = power - 1) (heldTos : store.value .tos = value)
    (heldDig : store.value .dig = digit) :
    Leads words width ports (stand words width (routine words "ucount") store staged) env
      (stand words width (routine words "uemit")
        ((store.set .tos (value % power : Nat)).set .dig (digit + value / power : Nat)) staged)
      env := by
  have bound := cellBound_of_wide wide
  -- Each round takes the power off the value, so the value itself is the measure.
  induction value using Nat.strongRecOn generalizing digit store with
  | ind value ih =>
      refine (leads_enter .ucount).trans ((leads_jle (.of .tos) (.of .pm1) (by decide)).trans ?_)
      simp only [Source.value, heldTos, heldLess]
      rw [wrap_of_fitsCell (by omega) ⟨by omega, by omega⟩]
      by_cases done : value < power
      · rw [if_pos (by omega), Nat.mod_eq_of_lt done, Nat.div_eq_of_lt done, Nat.add_zero,
          Store.set_of_eq heldTos, Store.set_of_eq heldDig]
        exact .refl _ env
      · have quotient : value / power = (value - power) / power + 1 :=
          Nat.div_eq_sub_div positive (by omega)
        rw [if_neg (by omega)]
        refine (leads_decrease .tos (.of .p1)).trans ?_
        simp only [Source.value, heldTos, heldPower]
        rw [wrap_of_fitsCell (by omega) ⟨by omega, by omega⟩]
        have digitSmall : digit < 100 := lt_of_le_of_lt (Nat.le_add_right _ _) few
        have sameDig : (store.set .tos (value - power)).value .dig = digit := by
          simpa using heldDig
        refine (leads_increaseNumber wide .dig 1 sameDig ⟨by omega, by omega⟩).trans ?_
        refine (leads_goTo (by decide)).trans ?_
        have counted := @ih (value - power) (by omega)
          ((store.set .tos (value - power)).set .dig (digit + 1)) (digit + 1) (by omega) (by omega)
          (by simpa using heldPower) (by simpa using heldLess) (by simp; omega) (by simp)
        rw [Store.set_pair_set_pair (by decide), ← Nat.mod_eq_sub_mod (by omega),
          show digit + 1 + (value - power) / power = digit + value / power by omega] at counted
        exact counted

theorem leads_emitDigit (wide : 16 ≤ width) (accepts : Accepts ports) (source : Source)
    (distinct : source ≠ .of .dch) {digit : Nat} (few : digit < 100)
    (held : source.value width store = digit) :
    Leads words width ports
      (stand words width (move "dch" source.operand :: increase "dch" (number 48) ::
        emit (cell "dch") :: rest) store staged) env
      (stand words width rest (store.set .dch (digit + 48)) staged)
      (deliver ports [(digit : Int) + 48] env) := by
  have bound := cellBound_of_wide wide
  refine (leads_move .dch source distinct).trans ?_
  rw [held]
  refine (leads_increaseNumber wide .dch 48 (Store.value_set_self ..)
    ⟨by omega, by omega⟩).trans ?_
  rw [Store.set_set]
  have emitted := @leads_emit σ words width ports (store.set .dch (digit + 48)) staged env rest
    accepts (.of .dch)
  rw [Source.value, Store.value_set_self] at emitted
  exact emitted

theorem leads_put (wide : 16 ≤ width) (accepts : Accepts ports) {digit : Nat} (few : digit < 100)
    (heldDig : store.value .dig = digit) :
    Leads words width ports (stand words width (routine words "uput") store staged) env
      (stand words width (routine words "unext")
        ((store.set .started 1).set .dch (digit + 48)) staged)
      (deliver ports [(digit : Int) + 48] env) := by
  have moved : Source.value width (store.set .started 1) (.of .dig) = digit := by
    simpa [Source.value] using heldDig
  refine (leads_enter .uput).trans ?_
  refine (leads_moveNumber wide .started (by decide) (by decide)).trans ?_
  exact leads_emitDigit wide accepts (.of .dig) (by decide) few moved

theorem leads_show (wide : 16 ≤ width) (accepts : Accepts ports) {started : Bool} {digit : Nat}
    (few : digit < 100) (heldDig : store.value .dig = digit)
    (heldStarted : store.value .started = if started then 1 else 0) :
    ∃ after,
      Leads words width ports (stand words width (routine words "uemit") store staged) env
        (stand words width (routine words "unext") after staged)
        (deliver ports (shown started digit) env) ∧
      after.value .started = (if started || digit != 0 then 1 else 0) ∧
      ∀ slot, slot ∉ [Slot.started, .dch] → after.value slot = store.value slot := by
  have tested := @leads_unlessPositive σ words width ports store staged env
    (goTo "uput" :: routine words "uzero") .dig "uzero" (by decide)
  have put := @leads_put σ words width ports store staged env wide accepts digit few heldDig
  have frame : ∀ slot, slot ∉ [Slot.started, .dch] →
      ((store.set .started 1).set .dch (digit + 48)).value slot = store.value slot := by
    intro slot outside
    simp only [List.mem_cons, List.not_mem_nil, or_false, not_or] at outside
    simp [outside]
  by_cases zero : digit = 0
  · rw [if_pos (by omega)] at tested
    have checked := @leads_unlessPositive σ words width ports store staged env
      (routine words "uput") .started "unext" (by decide)
    have there := (leads_enter .uemit).trans (tested.trans ((leads_enter .uzero).trans checked))
    cases started with
    | false =>
        rw [if_pos (by simp [heldStarted])] at there
        refine ⟨store, ?_, ?_, fun _ _ => rfl⟩
        · rw [shown, if_pos ⟨zero, rfl⟩]
          exact there
        · simp [heldStarted, zero]
    | true =>
        rw [if_neg (by simp [heldStarted])] at there
        refine ⟨_, ?_, ?_, frame⟩
        · rw [shown, if_neg (by simp)]
          exact there.trans put
        · simp
  · rw [if_neg (by omega)] at tested
    refine ⟨_, ?_, ?_, frame⟩
    · rw [shown, if_neg fun both => zero both.1]
      exact (leads_enter .uemit).trans (tested.trans ((leads_goTo (by decide)).trans put))
    · simp [zero]

/-- The cells that `u.` works with. -/
def printCells : List Slot := [.tos, .started, .dig, .dch, .p1, .p2, .p3, .p4, .pm1]

/-- The state of `u.` when it looks for a digit: the powers of ten from here down, what has been
counted of the digit, and the number that is left. -/
structure Prints (power : Nat) (started : Bool) (digit value : Nat) (store : Store) : Prop where
  first : store.value .p1 = (10 ^ power : Nat)
  second : store.value .p2 = (10 ^ (power - 1) : Nat)
  third : store.value .p3 = (10 ^ (power - 2) : Nat)
  fourth : store.value .p4 = (10 ^ (power - 3) : Nat)
  started : store.value .started = if started then 1 else 0
  digit : store.value .dig = digit
  value : store.value .tos = value

/-- The next digit is looked for with the next power of ten. -/
theorem leads_shift (wide : 16 ≤ width) :
    Leads words width ports (stand words width (routine words "unext") store staged) env
      (stand words width (routine words "udig")
        (((((store.set .dig 0).set .p1 (store.value .p2)).set .p2 (store.value .p3)).set .p3
          (store.value .p4)).set .p4 1) staged) env := by
  refine (leads_enter .unext).trans ((leads_clear .dig).trans ?_)
  refine (leads_move .p1 (.of .p2) (by decide)).trans ?_
  refine (leads_move .p2 (.of .p3) (by decide)).trans ?_
  refine (leads_move .p3 (.of .p4) (by decide)).trans ?_
  refine (leads_moveNumber wide .p4 (by decide) (by decide)).trans ?_
  refine (leads_goTo (by decide)).trans ?_
  simp only [Source.value, Store.value_set, reduceCtorEq, if_false]
  exact .refl _ env

/-- A digit is counted, if the power of ten is not the last. -/
theorem leads_search (wide : 16 ≤ width) {power : Nat} (large : 1 < power) (small : power ≤ 10000)
    {value digit : Nat} (fits : (value : Int) < cellBound width)
    (few : digit + value / power < 100) (heldPower : store.value .p1 = power)
    (heldTos : store.value .tos = value) (heldDig : store.value .dig = digit) :
    Leads words width ports (stand words width (routine words "udig") store staged) env
      (stand words width (routine words "uemit")
        (((store.set .pm1 (power - 1)).set .tos (value % power : Nat)).set .dig
          (digit + value / power : Nat)) staged) env := by
  have bound := cellBound_of_wide wide
  have inRange : InRange width power := ⟨by omega, by omega⟩
  have tested := @leads_jeq σ words width ports store staged env
    (move "pm1" (cell "p1") :: decrease "pm1" (number 1) :: routine words "ucount") (.of .p1)
    (.number 1) "ulast" (by decide)
  simp only [Source.value, heldPower] at tested
  rw [if_neg ((looksEqual_iff_eq wide inRange (by decide) (by decide)).not.mpr (by omega))]
    at tested
  refine (leads_enter .udig).trans (tested.trans ?_)
  refine (leads_move .pm1 (.of .p1) (by decide)).trans ?_
  refine (leads_decreaseNumber wide .pm1 1 (Store.value_set_self ..) ?_).trans ?_
  · rw [Source.value, heldPower]
    exact ⟨by omega, by omega⟩
  · rw [Store.set_set, Source.value, heldPower]
    apply leads_count wide (by omega) small value digit fits few
    · simpa using heldPower
    · simp
    · simpa using heldTos
    · simpa using heldDig

theorem leads_round (wide : 16 ≤ width) (accepts : Accepts ports) {power : Nat} (high : power < 4)
    {started : Bool} {digit value : Nat} (prints : Prints (power + 1) started digit value store)
    (fits : (value : Int) < cellBound width) (few : digit + value / 10 ^ (power + 1) < 100) :
    ∃ after,
      Leads words width ports (stand words width (routine words "udig") store staged) env
        (stand words width (routine words "udig") after staged)
        (deliver ports (shown started (digit + value / 10 ^ (power + 1))) env) ∧
      Prints power (started || digit + value / 10 ^ (power + 1) != 0) 0
        (value % 10 ^ (power + 1)) after ∧
      ∀ slot, slot ∉ printCells → after.value slot = store.value slot := by
  have large : 1 < 10 ^ (power + 1) := Nat.one_lt_pow (by omega) (by decide)
  have small : 10 ^ (power + 1) ≤ 10 ^ 4 := Nat.pow_le_pow_right (by decide) (by omega)
  have searched := @leads_search σ words width ports store staged env wide (10 ^ (power + 1)) large
    small value digit fits few prints.first prints.value prints.digit
  obtain ⟨middle, showing, begun, same⟩ := @leads_show σ words width ports
    (((store.set .pm1 ((10 ^ (power + 1) : Nat) - 1)).set .tos (value % 10 ^ (power + 1) : Nat)).set
      .dig (digit + value / 10 ^ (power + 1) : Nat)) staged env wide accepts started
    (digit + value / 10 ^ (power + 1)) few (by simp) (by simpa using prints.started)
  refine ⟨_, searched.trans (showing.trans (leads_shift wide)), ?_, ?_⟩
  · have second := (same .p2 (by decide)).trans prints.second
    have third := (same .p3 (by decide)).trans prints.third
    have fourth := (same .p4 (by decide)).trans prints.fourth
    have rest := same .tos (by decide)
    constructor
    · simpa using second
    · simpa using third
    · simpa using fourth
    · have last : power - 3 = 0 := by omega
      simp [last]
    · simpa using begun
    · simp
    · simpa using rest
  · intro slot outside
    have unchanged := same slot
    simp only [printCells, List.mem_cons, List.not_mem_nil, or_false, not_or] at outside unchanged
    simpa [outside] using unchanged

theorem leads_lastDigit (wide : 16 ≤ width) (accepts : Accepts ports) {started : Bool}
    {digit value : Nat} (prints : Prints 0 started digit value store) (small : value < 10) :
    Leads words width ports (stand words width (routine words "udig") store staged) env
      (stand words width (routine words "endword") (store.set .dch (value + 48)) staged)
      (deliver ports [(value : Int) + 48] env) := by
  have bound := cellBound_of_wide wide
  have inRange : InRange width 1 := ⟨by omega, by omega⟩
  have one : store.value .p1 = 1 := prints.first
  have tested := @leads_jeq σ words width ports store staged env
    (move "pm1" (cell "p1") :: decrease "pm1" (number 1) :: routine words "ucount") (.of .p1)
    (.number 1) "ulast" (by decide)
  simp only [Source.value, one] at tested
  rw [if_pos ((looksEqual_iff_eq wide inRange (by decide) (by decide)).mpr rfl)] at tested
  refine (leads_enter .udig).trans (tested.trans ((leads_enter .ulast).trans ?_))
  refine (leads_emitDigit wide accepts (.of .tos) (by decide) (by omega) prints.value).trans ?_
  exact leads_goTo (by decide)

/-- All digits are emitted. What was counted of the first digit belongs to the number. -/
theorem leads_digits (wide : 16 ≤ width) (accepts : Accepts ports) {power : Nat} (low : power ≤ 4)
    {started : Bool} {digit value : Nat} (prints : Prints power started digit value store)
    (settled : power = 0 → digit = 0) (fits : (value : Int) < cellBound width)
    (small : digit * 10 ^ power + value < 10 ^ (power + 1)) :
    ∃ after,
      Leads words width ports (stand words width (routine words "udig") store staged) env
        (stand words width (routine words "endword") after staged)
        (deliver ports (numeral power started (digit * 10 ^ power + value)) env) ∧
      after.value .tos = ((digit * 10 ^ power + value) % 10 : Nat) ∧
      ∀ slot, slot ∉ printCells → after.value slot = store.value slot := by
  induction power generalizing started digit value store env with
  | zero =>
      obtain rfl := settled rfl
      rw [Nat.zero_mul, Nat.zero_add] at small ⊢
      refine ⟨_, leads_lastDigit wide accepts prints small, ?_, ?_⟩
      · have last : value % 10 = value := Nat.mod_eq_of_lt small
        simpa [last] using prints.value
      · intro slot outside
        simp only [printCells, List.mem_cons, List.not_mem_nil, or_false, not_or] at outside
        simp [outside]
  | succ power ih =>
      have positive : 0 < 10 ^ (power + 1) := Nat.pow_pos (by decide)
      have quotient : (digit * 10 ^ (power + 1) + value) / 10 ^ (power + 1) =
          digit + value / 10 ^ (power + 1) := by
        rw [Nat.mul_comm, Nat.mul_add_div positive]
      have remainder : (digit * 10 ^ (power + 1) + value) % 10 ^ (power + 1) =
          value % 10 ^ (power + 1) := Nat.mul_add_mod_self_right digit _ value
      have few : digit + value / 10 ^ (power + 1) < 10 := by
        rw [← quotient]
        exact Nat.div_lt_of_lt_mul small
      obtain ⟨middle, round, next, frame⟩ := @leads_round σ words width ports store staged env wide
        accepts power (by omega) started digit value prints fits (by omega)
      have less : value % 10 ^ (power + 1) ≤ value := Nat.mod_le _ _
      have below : value % 10 ^ (power + 1) < 10 ^ (power + 1) := Nat.mod_lt _ positive
      obtain ⟨after, others, left, frameAfter⟩ := ih (by omega) next (fun _ => rfl) (by omega)
        (by rw [Nat.zero_mul, Nat.zero_add]; exact below)
      rw [Nat.zero_mul, Nat.zero_add] at others left
      refine ⟨after, ?_, ?_, ?_⟩
      · rw [numeral, quotient, remainder, deliver_append]
        exact round.trans others
      · have ten : 10 ∣ 10 ^ (power + 1) := Dvd.intro_left (10 ^ power) rfl
        rw [left, ← remainder, Nat.mod_mod_of_dvd _ ten]
      · intro slot outside
        rw [frameAfter slot outside, frame slot outside]

/-- Takes thirty thousand off the value, which counts as three in the first digit. -/
theorem leads_lift {digit : Nat} (few : digit < 100) (heldDig : store.value .dig = digit)
    {value : Int} (wrapped : wrap 16 (store.value .tos - 30000) = value) :
    Leads words 16 ports
      (stand words 16 (decrease "tos" (number 30000) :: increase "dig" (number 3) :: rest) store
        staged) env
      (stand words 16 rest ((store.set .tos value).set .dig (digit + 3 : Nat)) staged) env := by
  have bound := cellBound_of_wide (le_refl 16)
  refine (leads_decrease .tos (.number 30000)).trans ?_
  rw [Source.value, wrap_sub_wrap, wrapped]
  have sameDig : (store.set .tos value).value .dig = digit := by
    simpa using heldDig
  exact leads_increaseNumber (le_refl 16) .dig 3 sameDig ⟨by omega, by omega⟩

/-- A value above the range of a cell of 16 bits stands in it as a negative one; some of it is put
into the first digit. -/
theorem leads_negative {value : Nat} (lower : 32768 ≤ value) (upper : value < 65536)
    (heldTos : store.value .tos = (value : Int) - 65536) (heldDig : store.value .dig = 0) :
    ∃ digit rest : Nat, digit * 10 ^ 4 + rest = value ∧ rest < 32768 ∧
      Leads words 16 ports (stand words 16 (routine words "uneg1") store staged) env
        (stand words 16 (routine words "udig") ((store.set .tos rest).set .dig digit) staged)
        env := by
  have bound : cellBound 16 = 32768 := by decide
  have wraps : ∀ value : Int, -98304 ≤ value → value < -32768 →
      wrap 16 value = value + 65536 := by
    intro value lower upper
    rw [← wrap_add_modulus (by decide), bound]
    exact wrap_of_fitsCell (by decide) ⟨by omega, by omega⟩
  -- From this value on the first subtraction does not wrap, and a second one is needed.
  by_cases once : value < 62768
  · have wrapped : wrap 16 (store.value .tos - 30000) = ((value - 30000 : Nat) : Int) := by
      rw [heldTos, wraps _ (by omega) (by omega)]
      omega
    refine ⟨3, value - 30000, by omega, by omega, ?_⟩
    refine (leads_enter .uneg1).trans ((leads_lift (by decide) heldDig wrapped).trans ?_)
    refine (leads_unlessPositive .tos (by decide)).trans ?_
    rw [Store.value_set_of_ne _ (by decide), Store.value_set_self, if_neg (by omega)]
    exact leads_goTo (by decide)
  · have negative : wrap 16 (store.value .tos - 30000) = (value : Int) - 95536 := by
      rw [heldTos, wrap_of_fitsCell (by decide) ⟨by omega, by omega⟩]
      omega
    have wrapped : wrap 16 ((value : Int) - 95536 - 30000) = ((value - 60000 : Nat) : Int) := by
      rw [wraps _ (by omega) (by omega)]
      omega
    refine ⟨6, value - 60000, by omega, by omega, ?_⟩
    refine (leads_enter .uneg1).trans ((leads_lift (by decide) heldDig negative).trans ?_)
    refine (leads_unlessPositive .tos (by decide)).trans ?_
    have left : ((store.set .tos ((value : Int) - 95536)).set .dig (0 + 3 : Nat)).value .tos =
        (value : Int) - 95536 := by
      rw [Store.value_set_of_ne _ (by decide), Store.value_set_self]
    rw [left, if_pos (by omega)]
    refine (leads_enter .uneg2).trans ?_
    rw [← left] at wrapped
    have lifted := @leads_lift σ words ports
      ((store.set .tos ((value : Int) - 95536)).set .dig (0 + 3 : Nat)) staged env
      (routine words "udig") 3 (by decide) (Store.value_set_self ..) _ wrapped
    rw [Store.set_pair_set_pair (by decide)] at lifted
    exact lifted

/-- The cells as `u.` sets them up. -/
def Store.prepared (store : Store) : Store :=
  (((((store.set .started 0).set .dig 0).set .p1 10000).set .p2 1000).set .p3 100).set .p4 10

/-- The value is left as it is, or what does not fit a cell of 16 bits goes into the first digit. -/
theorem leads_begin (wide : 16 ≤ width) {value : Nat} (small : value < 65536)
    (heldTos : store.value .tos = wrap width value) (heldDig : store.value .dig = 0) :
    ∃ digit rest : Nat, digit * 10 ^ 4 + rest = value ∧ (rest : Int) < cellBound width ∧
      Leads words width ports
        (stand words width (unlessPositive "tos" "uneg" :: goTo "udig" :: routine words "uneg")
          store staged) env
        (stand words width (routine words "udig") ((store.set .tos rest).set .dig digit) staged)
        env := by
  have bound := cellBound_of_wide wide
  have tested := @leads_unlessPositive σ words width ports store staged env
    (goTo "udig" :: routine words "uneg") .tos "uneg" (by decide)
  have signed := @leads_jle σ words width ports store staged env
    (goTo "udig" :: routine words "uneg1") (.of .tos) (.number (-1)) "uneg1" (by decide)
  simp only [Source.value, wrap_sub_wrap] at signed
  by_cases fits : (value : Int) < cellBound width
  · rw [wrap_of_fitsCell (by omega) ⟨by omega, fits⟩] at heldTos
    refine ⟨0, value, by omega, fits, ?_⟩
    rw [Store.set_of_eq heldTos, Nat.cast_zero, Store.set_of_eq heldDig]
    by_cases zero : value = 0
    · rw [if_pos (by omega)] at tested
      rw [heldTos, zero, wrap_of_wide wide (by decide) (by decide), if_neg (by decide)] at signed
      exact tested.trans ((leads_enter .uneg).trans (signed.trans (leads_goTo (by decide))))
    · rw [if_neg (by omega)] at tested
      exact tested.trans (leads_goTo (by decide))
  · -- Only a cell of exactly 16 bits is too small for an unsigned number of 16 bits.
    have narrow : width = 16 := by
      by_contra other
      have wider : cellBound 17 ≤ cellBound width := cellBound_le_cellBound (by omega)
      have bound17 : cellBound 17 = 65536 := by decide
      omega
    subst narrow
    have bound16 : cellBound 16 = 32768 := by decide
    have negative : store.value .tos = (value : Int) - 65536 := by
      have shifted := @wrap_add_modulus 16 (by decide) ((value : Int) - 65536)
      rw [bound16, show (value : Int) - 65536 + 2 * 32768 = value by omega] at shifted
      rw [heldTos, shifted]
      exact wrap_of_fitsCell (by decide) ⟨by omega, by omega⟩
    rw [if_pos (by omega)] at tested
    rw [negative, wrap_of_fitsCell (by decide) ⟨by omega, by omega⟩, if_pos (by omega)] at signed
    obtain ⟨digit, rest, sum, below, lifted⟩ := @leads_negative σ words ports store staged env value
      (by omega) small negative heldDig
    exact ⟨digit, rest, sum, by omega,
      tested.trans ((leads_enter .uneg).trans (signed.trans lifted))⟩

theorem leads_prepare (wide : 16 ≤ width) (accepts : Accepts ports) :
    Leads words width ports (stand words width (routine words "udot") store staged) env
      (stand words width (unlessPositive "tos" "uneg" :: goTo "udig" :: routine words "uneg")
        store.prepared staged) (deliver ports [32] env) := by
  refine (leads_enter .udot).trans ?_
  refine (leads_emitNumber wide accepts (by decide) (by decide)).trans ?_
  refine (leads_clear .started).trans ((leads_clear .dig).trans ?_)
  refine (leads_moveNumber wide .p1 (by decide) (by decide)).trans ?_
  refine (leads_moveNumber wide .p2 (by decide) (by decide)).trans ?_
  refine (leads_moveNumber wide .p3 (by decide) (by decide)).trans ?_
  exact leads_moveNumber wide .p4 (by decide) (by decide)

/-- What `u.` does: a blank and the number are emitted, and the last digit stays. -/
theorem leads_udot (wide : 16 ≤ width) (accepts : Accepts ports) {value : Nat}
    (small : value < 65536) (held : store.value .tos = wrap width value) :
    ∃ after,
      Leads words width ports (stand words width (routine words "udot") store staged) env
        (stand words width (routine words "endword") after staged)
        (deliver ports (32 :: codesOf (toString value)) env) ∧
      after.value .tos = (value % 10 : Nat) ∧
      ∀ slot, slot ∉ printCells → after.value slot = store.value slot := by
  obtain ⟨digit, rest, sum, fits, begins⟩ := @leads_begin σ words width ports store.prepared staged
    (deliver ports [32] env) wide value small (by simpa [Store.prepared] using held)
    (by simp [Store.prepared])
  have prints : Prints 4 false digit rest ((store.prepared.set .tos rest).set .dig digit) := by
    constructor <;> simp [Store.prepared]
  obtain ⟨after, printed, left, frame⟩ := @leads_digits σ words width ports _ staged
    (deliver ports [32] env) wide accepts 4 (le_refl 4) false digit rest prints (by simp) fits
    (by omega)
  rw [sum, numeral_false 4 value (by omega), ← deliver_append] at printed
  rw [sum] at left
  refine ⟨after, (leads_prepare wide accepts).trans (begins.trans printed), left, ?_⟩
  intro slot outside
  rw [frame slot outside]
  simp only [printCells, List.mem_cons, List.not_mem_nil, or_false, not_or] at outside
  simp [Store.prepared, outside]

end Print

end Subleq.Monitor
