import Subleq.Assembly.Statement
import Subleq.Text.Blank

/-!
# Listings

A listing is a program of the assembly language: lines with an optional label and an optional
statement. Reading a source text gives its listing, or the first line that is refused. A label is
judged before the statement behind it; it must not be one of the assembler's own names, nor be
defined on an earlier line. Whether the labels that are referred to exist is not judged here.
-/

namespace Subleq.Assembly

/-- A line of a listing. -/
structure Line where
  label : Option String := none
  statement : Option Statement := none
  deriving Repr, DecidableEq

/-- A program of the assembly language. -/
abbrev Listing := List Line

/-- A complaint about a line. The lines of a source count from one. -/
structure LineFault where
  line : Int
  reason : Reason
  deriving Repr, DecidableEq

namespace Line

/-- Reads the statement that tokens spell, if there are any. -/
def readStatement : List String → Except Reason (Option Statement)
  | [] => .ok none
  | token :: arguments =>
      match Mnemonic.ofToken? token with
      | none => .error (.unknownMnemonic token)
      | some mnemonic => (Statement.parse mnemonic token arguments).map some

/-- Judges a label, where `defined` holds those of earlier lines. -/
def checkLabel (defined : List String) (name : String) : Except Reason Unit :=
  if isReserved name then .error (.reservedLabel name)
  else if defined.contains name then .error (.duplicateLabel name)
  else .ok ()

/-- Reads the tokens of a line, where `defined` holds the labels of earlier lines. -/
def read (defined : List String) : List String → Except Reason Line
  | [] => .ok {}
  | token :: tokens =>
      match labelName? token with
      | none => (readStatement (token :: tokens)).map fun statement => { statement }
      | some name =>
          match checkLabel defined name with
          | .error reason => .error reason
          | .ok () =>
              (readStatement tokens).map fun statement => { label := some name, statement }

/-- The tokens of a line up to a comment, which starts with a semicolon. -/
def tokens (line : List Char) : List String :=
  ((Text.words line).takeWhile fun token => token.head? != some ';').map String.ofList

end Line

namespace Listing

/-- Reads lines, the first of which has the given number, where `defined` holds the labels of
earlier lines. -/
def readFrom (defined : List String) (number : Nat) : List (List Char) → Except LineFault Listing
  | [] => .ok []
  | text :: texts =>
      match Line.read defined (Line.tokens text) with
      | .error reason => .error ⟨number, reason⟩
      | .ok line =>
          (readFrom (line.label.toList ++ defined) (number + 1) texts).map (line :: ·)

def read (source : String) : Except LineFault Listing :=
  readFrom [] 1 (Text.lines source.toList)

end Listing

/-- The text of a complaint, after the number of its line. -/
def Reason.message : Reason → String
  | .duplicateLabel name => "label en double: " ++ name
  | .reservedLabel name => "label réservé: " ++ name
  | .badConstant token => "constante invalide: " ++ token
  | .badOperand token => "opérande invalide: " ++ token
  | .unknownMnemonic token => "instruction inconnue: " ++ token
  | .operandCount mnemonic _ count =>
      mnemonic ++ ": nombre d'opérandes invalide (" ++ toString count ++ ")"
  | .sameOperands destination source =>
      "MOV " ++ destination ++ " " ++ source ++ ": source et destination identiques"
  | .unknownLabel name => "label inconnu: " ++ name
  | .tooLong fault => fault.message

def Reason.token : Reason → String
  | .duplicateLabel name => name
  | .reservedLabel name => name
  | .badConstant token => token
  | .badOperand token => token
  | .unknownMnemonic token => token
  | .operandCount _ token _ => token
  | .sameOperands _ _ => ""
  | .unknownLabel name => name
  | .tooLong _ => ""

/-- The text of a complaint about a line. A numeral that is too long is reported without its
line. -/
def LineFault.message (fault : LineFault) : String :=
  match fault.reason with
  | .tooLong reason => reason.message
  | reason => "ligne " ++ Text.decimal fault.line ++ ": " ++ reason.message

end Subleq.Assembly
