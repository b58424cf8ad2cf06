import Subleq.Monitor.Program

/-!
# The monitor's source

The monitor as it is written in the assembly language, line by line and routine by routine. The
lines of its word list come last: its codes depend on the words, and so does the place where it
ends.
-/

namespace Subleq.Monitor

def dispatchLines : List String := [
  "",
  "; ---------------------------------------------------------------",
  "; boucle principale : sauter les blancs, aiguiller sur le 1er caractère",
  "; ---------------------------------------------------------------",
  "next:", "    IN ch", "    JEQ ch #-1 done", "    JLE ch #32 next", "    JEQ ch #'.' dot",
    "    JEQ ch #'(' paren", "    JEQ ch #92 backslash", "    JEQ ch #'c' cr1",
    "    JEQ ch #'C' cr1", "    JEQ ch #'b' bye1", "    JEQ ch #'B' bye1", "    JEQ ch #'h' here1",
    "    JEQ ch #'H' here1", "    JEQ ch #'u' udot1", "    JEQ ch #'U' udot1",
    "    JEQ ch #'w' words1", "    JEQ ch #'W' words1"]

def unknownWordLines : List String := [
  "",
  "; mot non reconnu : consommer jusqu'au délimiteur",
  "rest:", "    JLE ch #32 unknown", "    IN ch", "    JMP rest",
  "unknown:", "    OUT #32", "    OUT #'?'", "    OUT #10",
  "endword:", "    JEQ ch #-1 done", "    JMP next"]

def echoLines : List String := [
  "",
  "; .( texte)",
  "dot:", "    IN ch", "    JEQ ch #'(' dotparen", "    JMP rest",
  "dotparen:", "    IN ch", "    JEQ ch #-1 done", "    JLE ch #32 echo", "    JMP rest",
  "echo:", "    IN ch", "    JEQ ch #')' next", "    JEQ ch #-1 done", "    OUT ch", "    JMP echo"]

def commentLines : List String := [
  "",
  "; ( commentaire)",
  "paren:", "    IN ch", "    JEQ ch #-1 done", "    JLE ch #32 comment", "    JMP rest",
  "comment:", "    IN ch", "    JEQ ch #')' next", "    JEQ ch #-1 done", "    JMP comment"]

def lineCommentLines : List String := [
  "",
  "; \\ commentaire de ligne",
  "backslash:", "    IN ch", "    JEQ ch #-1 done", "    JLE ch #32 linecomment", "    JMP rest",
  "linecomment:", "    JEQ ch #10 next", "    JEQ ch #-1 done", "    IN ch", "    JMP linecomment"]

def lineFeedLines : List String := [
  "",
  "; cr",
  "cr1:", "    IN ch", "    JEQ ch #'r' cr2", "    JEQ ch #'R' cr2", "    JMP rest",
  "cr2:", "    IN ch", "    JLE ch #32 cr3", "    JMP rest",
  "cr3:", "    OUT #10", "    JMP endword"]

def byeLines : List String := [
  "",
  "; bye",
  "bye1:", "    IN ch", "    JEQ ch #'y' bye2", "    JEQ ch #'Y' bye2", "    JMP rest",
  "bye2:", "    IN ch", "    JEQ ch #'e' bye3", "    JEQ ch #'E' bye3", "    JMP rest",
  "bye3:", "    IN ch", "    JLE ch #32 done", "    JMP rest"]

def hereLines : List String := [
  "",
  "; here",
  "here1:", "    IN ch", "    JEQ ch #'e' here2", "    JEQ ch #'E' here2", "    JMP rest",
  "here2:", "    IN ch", "    JEQ ch #'r' here3", "    JEQ ch #'R' here3", "    JMP rest",
  "here3:", "    IN ch", "    JEQ ch #'e' here4", "    JEQ ch #'E' here4", "    JMP rest",
  "here4:", "    IN ch", "    JLE ch #32 here", "    JMP rest",
  "here:", "    MOV tos endp", "    JMP endword"]

def printStartLines : List String := [
  "",
  "; u.",
  "udot1:", "    IN ch", "    JEQ ch #'.' udot2", "    JMP rest",
  "udot2:", "    IN ch", "    JLE ch #32 udot", "    JMP rest",
  "udot:", "    OUT #32", "    CLR started", "    CLR dig", "    MOV p1 #10000", "    MOV p2 #1000",
    "    MOV p3 #100", "    MOV p4 #10",
    "    ; >= 32768 : négatif en 16 bits, on retire 30000 une ou deux fois", "    JLEZ tos uneg",
    "    JMP udig",
  "uneg:", "    JLE tos #-1 uneg1", "    JMP udig",
  "uneg1:", "    SUB tos #30000", "    ADD dig #3", "    JLEZ tos uneg2", "    JMP udig",
  "uneg2:", "    SUB tos #30000", "    ADD dig #3"]

def printDigitsLines : List String := [
  "udig:", "    JEQ p1 #1 ulast", "    MOV pm1 p1", "    SUB pm1 #1",
  "ucount:", "    JLE tos pm1 uemit", "    SUB tos p1", "    ADD dig #1", "    JMP ucount",
  "uemit:", "    JLEZ dig uzero", "    JMP uput",
  "uzero:", "    JLEZ started unext",
  "uput:", "    MOV started #1", "    MOV dch dig", "    ADD dch #48", "    OUT dch",
  "unext:", "    CLR dig", "    MOV p1 p2", "    MOV p2 p3", "    MOV p3 p4", "    MOV p4 #1",
    "    JMP udig",
  "ulast:", "    MOV dch tos", "    ADD dch #48", "    OUT dch", "    JMP endword"]

def listWordsLines : List String := [
  "",
  "; words",
  "words1:", "    IN ch", "    JEQ ch #'o' words2", "    JEQ ch #'O' words2", "    JMP rest",
  "words2:", "    IN ch", "    JEQ ch #'r' words3", "    JEQ ch #'R' words3", "    JMP rest",
  "words3:", "    IN ch", "    JEQ ch #'d' words4", "    JEQ ch #'D' words4", "    JMP rest",
  "words4:", "    IN ch", "    JEQ ch #'s' words5", "    JEQ ch #'S' words5", "    JMP rest",
  "words5:", "    IN ch", "    JLE ch #32 words", "    JMP rest",
  "words:", "    MOV ptr wlb",
  "wloop:", "    JEQ ptr wle endword", "    MOV wout ptr",
  "wout:", "    OUT 0", "    ADD ptr #1", "    JMP wloop"]

def doneLines : List String := [
  "",
  "done:", "    HALT"]

def storageLines : List String := [
  "",
  "ch:", "    DATA 0",
  "tos:", "    DATA 0",
  "endp:", "    DATA __END",
  "started:", "    DATA 0",
  "dig:", "    DATA 0",
  "dch:", "    DATA 0",
  "p1:", "    DATA 0",
  "p2:", "    DATA 0",
  "p3:", "    DATA 0",
  "p4:", "    DATA 0",
  "pm1:", "    DATA 0",
  "ptr:", "    DATA 0",
  "wlb:", "    DATA wlist",
  "wle:", "    DATA wlend"]

/-- The lines of the source before those of the word list. -/
def sourceLines : List String :=
  dispatchLines ++ unknownWordLines ++ echoLines ++ commentLines ++ lineCommentLines ++
  lineFeedLines ++ byeLines ++ hereLines ++ printStartLines ++ printDigitsLines ++
  listWordsLines ++ doneLines ++ storageLines

/-- The lines of a word list: the codes of its words, with a blank before each word. -/
def wordListLines (words : List String) : List String :=
  let codes := words.flatMap fun word => (' ' :: word.toList).map fun c => toString c.toNat
  ["wlist:", "    DATA " ++ String.intercalate " " codes, "wlend:"]

/-- A text of lines, each with a line feed behind it. -/
def textOf (lines : List String) : String := String.join (lines.map (· ++ "\n"))

/-- The source of the monitor with a given word list. -/
def sourceWith (words : List String) : String := textOf (sourceLines ++ wordListLines words)

end Subleq.Monitor
