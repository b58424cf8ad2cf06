import Subleq.Text.Numeral
import Subleq.Text.Quoted

/-!
# Program texts

A program is written as signed decimal integers separated by blanks. Reading a text gives its values
in order, or the first token that is none, with its place: the number of its line and its number
among all tokens, both counted from one. Nothing is returned of a text that holds a bad token.
-/

namespace Subleq.Program

/-- How a program text fails to be read. -/
inductive Fault where
  /-- A token that is no signed decimal integer. -/
  | token (text : String) (line index : Nat)
  /-- A token with too many digits. -/
  | tooLong (fault : Text.TooLong)
  deriving Repr, DecidableEq

def Fault.message : Fault → String
  | .token text line index =>
      "jeton invalide " ++ Text.quoted text ++ " (ligne " ++ toString line ++ ", jeton " ++
        toString index ++ ")"
  | .tooLong fault => fault.message

/-- Reads one token, which stands at the given place. -/
def readToken (token : List Char) (line index : Nat) : Except Fault Int :=
  match Text.Numeral.ofStrict? token with
  | none => .error (.token (String.ofList token) line index)
  | some numeral => numeral.value.mapError .tooLong

/-- Reads the tokens of a line, the first of which has the number `index`; `done` holds the values
read before, last one first. -/
def readLine (line index : Nat) (done : List Int) : List (List Char) → Except Fault (List Int)
  | [] => .ok done
  | token :: tokens =>
      match readToken token line index with
      | .error fault => .error fault
      | .ok value => readLine line (index + 1) (value :: done) tokens

/-- Reads lines, the first of which has the number `line`. -/
def readLines (line : Nat) (done : List Int) : List (List Char) → Except Fault (List Int)
  | [] => .ok done
  | text :: texts =>
      match readLine line (done.length + 1) done (Text.words text) with
      | .error fault => .error fault
      | .ok done => readLines (line + 1) done texts

def read (text : String) : Except Fault (List Int) :=
  (readLines 1 [] (Text.lines text.toList)).map List.reverse

end Subleq.Program
