import Subleq.Proofs.Monitor.Statements

/-!
# Passages

The program of the monitor, label by label: what stands between one label and the next, for all of
it but the places that wait for a letter of a word. That the program consists of these passages is
checked once; a path that gets to a label then enters the lines of its passage.
-/

namespace Subleq.Monitor

open Assembly

/-- The lines of a listing from a label on begin with a block. -/
theorem exists_routine {name : String} {block : Listing}
    (begins : (routines.labelled? name).any (fun lines => block.isPrefixOf lines) = true)
    (words : List String) : ∃ rest, routine words name = block ++ rest := by
  obtain ⟨lines, found, isPrefix⟩ := (Option.any_eq_true _ _).mp begins
  obtain ⟨rest, rfl⟩ := List.isPrefixOf_iff_prefix.mp isPrefix
  refine ⟨rest ++ cellsWith words, ?_⟩
  rw [routine, found, Option.getD_some, List.append_assoc]

/-- The lines of a listing from a label on are a block and the lines from another label on. -/
theorem routine_eq_append {name next : String} {block : Listing}
    (begins : (routines.labelled? next).any
      (fun lines => routines.labelled? name = some (block ++ lines)) = true)
    (words : List String) : routine words name = block ++ routine words next := by
  obtain ⟨lines, found, same⟩ := (Option.any_eq_true _ _).mp begins
  rw [routine, routine, found, of_decide_eq_true same, Option.getD_some, Option.getD_some,
    List.append_assoc]

/-- The passages of the monitor, by their labels. -/
inductive Passage where
  | rest
  | unknown
  | endword
  | echo
  | comment
  | linecomment
  | cr3
  | here
  | udot
  | uneg
  | uneg1
  | uneg2
  | udig
  | ucount
  | uemit
  | uzero
  | uput
  | unext
  | ulast
  | words
  | wloop
  | wout
  deriving Repr, DecidableEq

namespace Passage

/-- All passages, in the order of the program. -/
def all : List Passage :=
  [rest, unknown, endword, echo, comment, linecomment, cr3, here, udot, uneg, uneg1, uneg2, udig,
    ucount, uemit, uzero, uput, unext, ulast, words, wloop, wout]

theorem mem_all (passage : Passage) : passage ∈ all := by
  cases passage <;> decide

def name : Passage → String
  | rest => "rest"
  | unknown => "unknown"
  | endword => "endword"
  | echo => "echo"
  | comment => "comment"
  | linecomment => "linecomment"
  | cr3 => "cr3"
  | here => "here"
  | udot => "udot"
  | uneg => "uneg"
  | uneg1 => "uneg1"
  | uneg2 => "uneg2"
  | udig => "udig"
  | ucount => "ucount"
  | uemit => "uemit"
  | uzero => "uzero"
  | uput => "uput"
  | unext => "unext"
  | ulast => "ulast"
  | words => "words"
  | wloop => "wloop"
  | wout => "wout"

/-- The lines of a passage behind its label. -/
def lines : Passage → Listing
  | rest => [onBlank "unknown", readChar, goTo "rest"]
  | unknown => [emit (number 32), emit (code '?'), emit (number 10)]
  | endword => [onEnd "done", goTo "next"]
  | echo => [readChar, onCode 41 "next", onEnd "done", emit (cell "ch"), goTo "echo"]
  | comment => [readChar, onCode 41 "next", onEnd "done", goTo "comment"]
  | linecomment => [onCode 10 "next", onEnd "done", readChar, goTo "linecomment"]
  | cr3 => [emit (number 10), goTo "endword"]
  | here => [move "tos" (cell "endp"), goTo "endword"]
  | udot =>
      [emit (number 32), clear "started", clear "dig", move "p1" (number 10000),
        move "p2" (number 1000), move "p3" (number 100), move "p4" (number 10),
        unlessPositive "tos" "uneg", goTo "udig"]
  | uneg => [does (.jle (cell "tos") (number (-1)) (cell "uneg1")), goTo "udig"]
  | uneg1 =>
      [decrease "tos" (number 30000), increase "dig" (number 3), unlessPositive "tos" "uneg2",
        goTo "udig"]
  | uneg2 => [decrease "tos" (number 30000), increase "dig" (number 3)]
  | udig =>
      [does (.jeq (cell "p1") (number 1) (cell "ulast")), move "pm1" (cell "p1"),
        decrease "pm1" (number 1)]
  | ucount =>
      [does (.jle (cell "tos") (cell "pm1") (cell "uemit")), decrease "tos" (cell "p1"),
        increase "dig" (number 1), goTo "ucount"]
  | uemit => [unlessPositive "dig" "uzero", goTo "uput"]
  | uzero => [unlessPositive "started" "unext"]
  | uput =>
      [move "started" (number 1), move "dch" (cell "dig"), increase "dch" (number 48),
        emit (cell "dch")]
  | unext =>
      [clear "dig", move "p1" (cell "p2"), move "p2" (cell "p3"), move "p3" (cell "p4"),
        move "p4" (number 1), goTo "udig"]
  | ulast =>
      [move "dch" (cell "tos"), increase "dch" (number 48), emit (cell "dch"), goTo "endword"]
  | words => [move "ptr" (cell "wlb")]
  | wloop => [does (.jeq (cell "ptr") (cell "wle") (cell "endword")), move "wout" (cell "ptr")]
  | wout => [does emitter, increase "ptr" (number 1), goTo "wloop"]

/-- The label behind a passage. -/
def following : Passage → String
  | rest => "unknown"
  | unknown => "endword"
  | endword => "dot"
  | echo => "paren"
  | comment => "backslash"
  | linecomment => "cr1"
  | cr3 => "bye1"
  | here => "udot1"
  | udot => "uneg"
  | uneg => "uneg1"
  | uneg1 => "uneg2"
  | uneg2 => "udig"
  | udig => "ucount"
  | ucount => "uemit"
  | uemit => "uzero"
  | uzero => "uput"
  | uput => "unext"
  | unext => "ulast"
  | ulast => "words1"
  | words => "wloop"
  | wloop => "wout"
  | wout => "done"

theorem routine_eq (passage : Passage) (words : List String) :
    routine words passage.name =
      label passage.name :: (passage.lines ++ routine words passage.following) := by
  have checked : ∀ passage ∈ all, ((routines.labelled? passage.following).any fun lines =>
      routines.labelled? passage.name =
        some ((label passage.name :: passage.lines) ++ lines)) = true := by
    decide +kernel
  exact routine_eq_append (checked passage passage.mem_all) words

end Passage

/-- A path to a label goes on with the lines of its passage. -/
theorem leads_enter {σ : Type} {words : List String} {width : Nat} {ports : Ports σ} {store : Store}
    {staged : List Int} {env : σ} (passage : Passage) :
    Leads words width ports (stand words width (routine words passage.name) store staged) env
      (stand words width (passage.lines ++ routine words passage.following) store staged) env := by
  rw [passage.routine_eq]
  exact leads_label passage.name

end Subleq.Monitor
