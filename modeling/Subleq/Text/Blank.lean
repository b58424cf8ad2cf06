/-!
# Blanks and line ends

The blank characters, those of them that end a line, and the cuts of a text at either: `lines` and
`words`. Every line end is a blank (`isBlank_of_isLineEnd`), so cutting a text into lines and each
line into words finds the same words as cutting the whole text.
-/

namespace Subleq.Text

/-- Whether a character ends a line. A carriage return followed by a line feed ends one line. -/
def isLineEnd (c : Char) : Bool :=
  let point := c.toNat
  (0x0a ≤ point && point ≤ 0x0d) || (0x1c ≤ point && point ≤ 0x1e) ||
    point == 0x85 || point == 0x2028 || point == 0x2029

/-- Whether a character is blank: a line end, a tab, or a space of any width. -/
def isBlank (c : Char) : Bool :=
  let point := c.toNat
  isLineEnd c || point == 0x09 || point == 0x1f || point == 0x20 || point == 0xa0 ||
    point == 0x1680 || (0x2000 ≤ point && point ≤ 0x200a) || point == 0x202f ||
    point == 0x205f || point == 0x3000

theorem isBlank_of_isLineEnd {c : Char} (lineEnd : isLineEnd c = true) : isBlank c = true := by
  simp [isBlank, lineEnd]

def trimLeft (text : List Char) : List Char := text.dropWhile isBlank

def trimRight (text : List Char) : List Char := (text.reverse.dropWhile isBlank).reverse

/-- A text without its leading and trailing blanks. -/
def trim (text : List Char) : List Char := trimRight (trimLeft text)

/-- The lines of a text, where `carry` holds, last character first, what is already read of the
line at hand. -/
def linesFrom (carry : List Char) : List Char → List (List Char)
  | [] => if carry.isEmpty then [] else [carry.reverse]
  | '\r' :: '\n' :: rest => carry.reverse :: linesFrom [] rest
  | c :: rest =>
      if isLineEnd c then carry.reverse :: linesFrom [] rest else linesFrom (c :: carry) rest

/-- The lines of a text without their line ends. A text that ends with a line end has no empty line
after it. -/
def lines (text : List Char) : List (List Char) := linesFrom [] text

/-- The words of a text, where `carry` holds, last character first, what is already read of the
word at hand. -/
def wordsFrom (carry : List Char) : List Char → List (List Char)
  | [] => if carry.isEmpty then [] else [carry.reverse]
  | c :: rest =>
      if isBlank c then
        if carry.isEmpty then wordsFrom [] rest else carry.reverse :: wordsFrom [] rest
      else wordsFrom (c :: carry) rest

/-- The words of a text: its maximal runs of characters that are not blank. -/
def words (text : List Char) : List (List Char) := wordsFrom [] text

@[simp] theorem lines_nil : lines [] = [] := rfl

@[simp] theorem words_nil : words [] = [] := rfl

end Subleq.Text
