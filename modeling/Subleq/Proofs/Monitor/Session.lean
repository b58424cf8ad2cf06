import Mathlib.Tactic.SplitIfs
import Subleq.Machine.Basic
import Subleq.Monitor.Program

/-!
# Sessions of the monitor

What the monitor does, told in words and without its program. Codes up to 32 are blanks; a word is a
run of other codes, and it is acted on when the blank behind it is read. A session is what the
monitor is reading, the one cell of its stack, and whether it has halted; reading a code gives the
next session and the codes that are emitted.
-/

namespace Subleq.Monitor

/-- What the monitor is reading: the letters of a word so far, or a text up to its end. -/
inductive Reading where
  | word (letters : List Int)
  /-- The text of `.(`. -/
  | echo
  /-- The text of `(`. -/
  | comment
  /-- The text of `\`. -/
  | lineComment
  deriving Repr, DecidableEq

/-- The state of a session. -/
structure Session where
  reading : Reading := .word []
  tos : Nat := 0
  halted : Bool := false
  deriving Repr, DecidableEq

/-- The code of a letter in lower case; other codes stay as they are. -/
def lowerCode (code : Int) : Int := if 65 ≤ code ∧ code ≤ 90 then code + 32 else code

/-- Whether letters spell a word, in any mix of case. -/
def Spells (letters : List Int) (word : String) : Prop := letters.map lowerCode = codesOf word

instance (letters : List Int) (word : String) : Decidable (Spells letters word) :=
  inferInstanceAs (Decidable (letters.map lowerCode = codesOf word))

/-- The word list as it is emitted: a blank before each word. -/
def wordCodes (words : List String) : List Int :=
  words.flatMap fun word => 32 :: codesOf word

namespace Session

/-- Goes on to read something else. -/
def goOn (session : Session) (reading : Reading) : Session := { session with reading }

section Read

-- The word list, and the address after the image.
variable (words : List String) (here : Nat)

/-- Acts on a word when the blank behind it is read. -/
def act (session : Session) (letters : List Int) (blank : Int) : Session × List Int :=
  if letters = [] then (session, [])
  else if Spells letters ".(" then (session.goOn .echo, [])
  else if Spells letters "(" then (session.goOn .comment, [])
  else if Spells letters "\\" then
    (session.goOn (if blank = 10 then .word [] else .lineComment), [])
  else
    let session := session.goOn (.word [])
    if Spells letters "cr" then (session, [10])
    else if Spells letters "bye" then ({ session with halted := true }, [])
    else if Spells letters "here" then ({ session with tos := here }, [])
    else if Spells letters "u." then
      ({ session with tos := session.tos % 10 }, 32 :: codesOf (toString session.tos))
    else if Spells letters "words" then (session, wordCodes words)
    else (session, [32, 63, 10])

/-- Reads a code, and gives the codes that are emitted. -/
def read (session : Session) (code : Int) : Session × List Int :=
  if session.halted then (session, [])
  else match session.reading with
    | .word letters =>
        if code ≤ 32 then session.act words here letters code
        else (session.goOn (.word (letters ++ [code])), [])
    | .echo => if code = 41 then (session.goOn (.word []), []) else (session, [code])
    | .comment => if code = 41 then (session.goOn (.word []), []) else (session, [])
    | .lineComment => if code = 10 then (session.goOn (.word []), []) else (session, [])

/-- Reads codes, and gives all codes that are emitted. -/
def readAll : List Int → Session → Session × List Int
  | [], session => (session, [])
  | code :: codes, session =>
      let (next, emitted) := session.read words here code
      let (last, others) := readAll codes next
      (last, emitted ++ others)

/-- Reads a text, with a line feed behind it unless it ends with one. -/
def evaluate (text : String) (session : Session) : Session × List Int :=
  let codes := codesOf text
  session.readAll words here (if codes.getLast? = some 10 then codes else codes ++ [10])

/-- The stack holds nothing above a limit if the address after the image is not above it. -/
theorem tos_act_le {limit : Nat} (near : here ≤ limit) {session : Session}
    (low : session.tos ≤ limit) (letters : List Int) (blank : Int) :
    (session.act words here letters blank).1.tos ≤ limit := by
  have digit : session.tos % 10 ≤ session.tos := Nat.mod_le _ _
  unfold act
  split_ifs <;> simp only [goOn] <;> omega

theorem tos_read_le {limit : Nat} (near : here ≤ limit) {session : Session}
    (low : session.tos ≤ limit) (code : Int) :
    (session.read words here code).1.tos ≤ limit := by
  unfold read
  split
  · exact low
  · split
    · split
      · exact tos_act_le words here near low _ _
      · exact low
    · split <;> exact low
    · split <;> exact low
    · split <;> exact low

theorem tos_readAll_le {limit : Nat} (near : here ≤ limit) (codes : List Int) {session : Session}
    (low : session.tos ≤ limit) : (session.readAll words here codes).1.tos ≤ limit := by
  induction codes generalizing session with
  | nil => exact low
  | cons code codes ih => exact ih (tos_read_le words here near low code)

theorem readAll_of_halted {session : Session} (halt : session.halted = true) (codes : List Int) :
    session.readAll words here codes = (session, []) := by
  induction codes with
  | nil => rfl
  | cons code codes ih => simp [readAll, read, halt, ih]

end Read

end Session

end Subleq.Monitor
