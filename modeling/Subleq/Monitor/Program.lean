import Subleq.Assembly.Listing

/-!
# The monitor's program

The monitor is a small interpreter of words, written in the assembly language. It reads characters,
cuts them into words at codes up to 32, and acts on the words it knows:

* `.( text)` emits the text, `( text)` and `\ text` are comments;
* `cr` emits a line feed, `bye` halts, `words` lists the words;
* `here` sets the one cell of the stack to the address after the image, `u.` prints that cell as an
  unsigned number of 16 bits after a blank.

Any other word is answered by ` ?` and a line feed, and the end of input halts the machine. Each
routine below is a list of lines; `rest` skips to the end of a word that is not known, and `endword`
goes on after a word.
-/

namespace Subleq.Monitor

open Assembly

def wordNames : List String := [".(", "(", "\\", "cr", "bye", "here", "u.", "words"]

/-- The operand that refers to a label. -/
def cell (name : String) : Operand := .reference { text := name, name, offset := "" }

def number (value : Int) : Operand := .constant value

/-- The constant operand of a character's code. -/
def code (c : Char) : Operand := .constant c.toNat

def label (name : String) : Line := { label := some name }

def does (statement : Statement) : Line := { statement := some statement }

def readChar : Line := does (.inp (cell "ch"))

def goTo (target : String) : Line := does (.jmp (cell target))

/-- Jumps if the character read has the given code. -/
def onCode (value : Int) (target : String) : Line :=
  does (.jeq (cell "ch") (number value) (cell target))

/-- Jumps if the character read is a blank or the end of input. -/
def onBlank (target : String) : Line := does (.jle (cell "ch") (number 32) (cell target))

/-- Jumps at the end of input. -/
def onEnd (target : String) : Line := onCode (-1) target

/-- Jumps if the character read is a given one, in either case if it is a letter. -/
def onLetter (c : Char) (target : String) : Listing :=
  if c.isLower then [onCode c.toNat target, onCode c.toUpper.toNat target]
  else [onCode c.toNat target]

def move (destination : String) (source : Operand) : Line :=
  does (.mov (cell destination) source)

def increase (destination : String) (source : Operand) : Line :=
  does (.add (cell destination) source)

def decrease (destination : String) (source : Operand) : Line :=
  does (.sub (cell destination) source)

def clear (destination : String) : Line := does (.clr (cell destination))

/-- Emits a cell or a constant. -/
def emit (source : Operand) : Line := does (.out source)

def unlessPositive (name target : String) : Line := does (.jlez (cell name) (cell target))

/-- Reserves a cell under a name. -/
def holds (name : String) (value : Operand) : Listing := [label name, does (.data [value])]

/-- Reads the remaining letters of a word, one state for each, and passes control to `action` if a
blank follows them; at the first other character the word is not known. -/
def spelling (stem action : String) : (state : Nat) → List Char → Listing
  | state, [] =>
      [label (stem ++ toString state), readChar, onBlank action, goTo "rest"]
  | state, c :: letters =>
      label (stem ++ toString state) :: readChar ::
        onLetter c (stem ++ toString (state + 1)) ++
        goTo "rest" :: spelling stem action (state + 1) letters

/-- Skips blanks and branches on the first character of a word. -/
def dispatch : Listing :=
  [label "next", readChar, onEnd "done", onBlank "next",
    onCode '.'.toNat "dot", onCode '('.toNat "paren", onCode '\x5c'.toNat "backslash"] ++
  onLetter 'c' "cr1" ++ onLetter 'b' "bye1" ++ onLetter 'h' "here1" ++ onLetter 'u' "udot1" ++
  onLetter 'w' "words1"

/-- Skips a word that is not known and answers it, and the common end of all words. -/
def unknownWord : Listing :=
  [label "rest", onBlank "unknown", readChar, goTo "rest",
    label "unknown", emit (number 32), emit (code '?'), emit (number 10),
    label "endword", onEnd "done", goTo "next"]

/-- `.( text)`: emits what follows up to a closing parenthesis. -/
def echo : Listing :=
  [label "dot", readChar, onCode '('.toNat "dotparen", goTo "rest",
    label "dotparen", readChar, onEnd "done", onBlank "echo", goTo "rest",
    label "echo", readChar, onCode ')'.toNat "next", onEnd "done", emit (cell "ch"), goTo "echo"]

/-- `( text)`: skips what follows up to a closing parenthesis. -/
def comment : Listing :=
  [label "paren", readChar, onEnd "done", onBlank "comment", goTo "rest",
    label "comment", readChar, onCode ')'.toNat "next", onEnd "done", goTo "comment"]

/-- `\ text`: skips the rest of the line. -/
def lineComment : Listing :=
  [label "backslash", readChar, onEnd "done", onBlank "linecomment", goTo "rest",
    label "linecomment", onCode 10 "next", onEnd "done", readChar, goTo "linecomment"]

/-- `cr`: emits a line feed. -/
def lineFeed : Listing :=
  spelling "cr" "cr3" 1 ['r'] ++ [label "cr3", emit (number 10), goTo "endword"]

/-- `bye`: halts. -/
def bye : Listing := spelling "bye" "done" 1 ['y', 'e']

/-- `here`: the address after the image. -/
def here : Listing :=
  spelling "here" "here" 1 ['e', 'r', 'e'] ++
  [label "here", move "tos" (cell "endp"), goTo "endword"]

/-- `u.`, first part: prepares the powers of ten. A value above 32767 is negative as a cell of 16
bits; 30000 is taken off it once or twice, which counts as three or six in the first digit. -/
def printStart : Listing :=
  spelling "udot" "udot" 1 ['.'] ++
  [label "udot", emit (number 32), clear "started", clear "dig",
    move "p1" (number 10000), move "p2" (number 1000), move "p3" (number 100),
    move "p4" (number 10),
    unlessPositive "tos" "uneg", goTo "udig",
    label "uneg", does (.jle (cell "tos") (number (-1)) (cell "uneg1")), goTo "udig",
    label "uneg1", decrease "tos" (number 30000), increase "dig" (number 3),
    unlessPositive "tos" "uneg2", goTo "udig",
    label "uneg2", decrease "tos" (number 30000), increase "dig" (number 3)]

/-- `u.`, second part: counts how often each power goes into the value, and emits the digits but for
leading zeros; the last digit is what is left. -/
def printDigits : Listing :=
  [label "udig", does (.jeq (cell "p1") (number 1) (cell "ulast")),
    move "pm1" (cell "p1"), decrease "pm1" (number 1),
    label "ucount", does (.jle (cell "tos") (cell "pm1") (cell "uemit")),
    decrease "tos" (cell "p1"), increase "dig" (number 1), goTo "ucount",
    label "uemit", unlessPositive "dig" "uzero", goTo "uput",
    label "uzero", unlessPositive "started" "unext",
    label "uput", move "started" (number 1), move "dch" (cell "dig"),
    increase "dch" (number 48), emit (cell "dch"),
    label "unext", clear "dig", move "p1" (cell "p2"), move "p2" (cell "p3"),
    move "p3" (cell "p4"), move "p4" (number 1), goTo "udig",
    label "ulast", move "dch" (cell "tos"), increase "dch" (number 48), emit (cell "dch"),
    goTo "endword"]

/-- `words`: emits the word list, by an instruction whose operand is moved along the list. -/
def listWords : Listing :=
  spelling "words" "words" 1 ['o', 'r', 'd', 's'] ++
  [label "words", move "ptr" (cell "wlb"),
    label "wloop", does (.jeq (cell "ptr") (cell "wle") (cell "endword")),
    move "wout" (cell "ptr"),
    label "wout", emit (.literal 0), increase "ptr" (number 1), goTo "wloop"]

/-- The halt. -/
def done : Listing := [label "done", does .halt]

def storage : Listing :=
  holds "ch" (.literal 0) ++ holds "tos" (.literal 0) ++ holds "endp" (cell endName) ++
  (["started", "dig", "dch", "p1", "p2", "p3", "p4", "pm1", "ptr"].flatMap
    (holds · (.literal 0))) ++
  holds "wlb" (cell "wlist") ++ holds "wle" (cell "wlend")

/-- The word list: a blank before each word. -/
def wordList (words : List String) : Listing :=
  let codes := words.flatMap fun word => (' ' :: word.toList).map fun c => Operand.literal c.toNat
  [label "wlist", does (.data codes), label "wlend"]

/-- The monitor with a given word list. -/
def programWith (words : List String) : Listing :=
  dispatch ++ unknownWord ++ echo ++ comment ++ lineComment ++ lineFeed ++ bye ++ here ++
  printStart ++ printDigits ++ listWords ++ done ++ storage ++ wordList words

def program : Listing := programWith wordNames

end Subleq.Monitor
