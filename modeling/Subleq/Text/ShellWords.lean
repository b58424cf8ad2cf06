/-!
# Shell words

The words of a command line. Spaces, tabs and line ends separate words. Between single quotes every
character stands for itself; between double quotes a backslash escapes a double quote or a backslash
and otherwise stands for itself; outside quotes a backslash escapes any character. Quotes may stand
inside a word, and an empty pair of quotes is an empty word.
-/

namespace Subleq.Text.ShellWords

/-- How a command line fails to be cut into words. -/
inductive Fault where
  | openQuote
  | openEscape
  deriving Repr, DecidableEq

def Fault.message : Fault → String
  | .openQuote => "No closing quotation"
  | .openEscape => "No escaped character"

/-- Whether a character separates words. -/
def isSeparator (c : Char) : Bool := c == ' ' || c == '\t' || c == '\r' || c == '\n'

/-- Where a scan stands: outside quotes, after a backslash outside quotes, between single quotes,
between double quotes, or after a backslash between double quotes. -/
inductive Mode where
  | plain
  | escape
  | single
  | double
  | doubleEscape
  deriving Repr, DecidableEq

/-- What was read of the word at hand, last character first, if a word has begun. -/
abbrev Carry := Option (List Char)

/-- The word at hand with one more character. -/
def Carry.push (carry : Carry) (c : Char) : Carry := some (c :: carry.getD [])

/-- The word at hand, begun if it was not. -/
def Carry.begin (carry : Carry) : Carry := some (carry.getD [])

/-- The word at hand, as a list of at most one word. -/
def Carry.close : Carry → List String
  | none => []
  | some carry => [String.ofList carry.reverse]

/-- The words of a text that is scanned from the given mode with the given word at hand. -/
def scan : Mode → Carry → List Char → Except Fault (List String)
  | .plain, carry, [] => .ok (Carry.close carry)
  | .escape, _, [] => .error .openEscape
  | .single, _, [] => .error .openQuote
  | .double, _, [] => .error .openQuote
  | .doubleEscape, _, [] => .error .openEscape
  | .plain, carry, c :: rest =>
      if isSeparator c then (scan .plain none rest).map (Carry.close carry ++ ·)
      else if c == '\x5c' then scan .escape carry rest
      else if c == '\x27' then scan .single carry.begin rest
      else if c == '\x22' then scan .double carry.begin rest
      else scan .plain (carry.push c) rest
  | .escape, carry, c :: rest => scan .plain (carry.push c) rest
  | .single, carry, c :: rest =>
      if c == '\x27' then scan .plain carry rest else scan .single (carry.push c) rest
  | .double, carry, c :: rest =>
      if c == '\x22' then scan .plain carry rest
      else if c == '\x5c' then scan .doubleEscape carry rest
      else scan .double (carry.push c) rest
  | .doubleEscape, carry, c :: rest =>
      if c == '\x22' || c == '\x5c' then scan .double (carry.push c) rest
      else scan .double ((carry.push '\x5c').push c) rest

def split (text : List Char) : Except Fault (List String) := scan .plain none text

end Subleq.Text.ShellWords
