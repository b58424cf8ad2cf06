import Subleq.Files.Tree
import Subleq.Session.Command
import Subleq.Text.Upper

/-!
# Completion

What may follow the text before the cursor. On a command line these are the names of commands, and
paths after a command that takes a file; on other lines the words of the monitor, in which case does
not matter.
-/

namespace Subleq.Completion

/-- A proposal: the text to insert, and how many characters before the cursor it replaces. -/
structure Proposal where
  text : String
  replaces : Nat
  deriving Repr, DecidableEq

/-- Where directories are listed; a path that is no directory has no list. -/
abbrev Listing := String → Option (List String)

/-- The directory and the beginning of a name that a path ends with. -/
def splitPath (path : List Char) : List Char × List Char :=
  let name := (path.reverse.takeWhile (· != '/')).reverse
  (path.take (path.length - name.length), name)

/-- Whether a path starts in the home of a user, which is outside of every listing. -/
def startsAtHome : List Char → Bool
  | ['~'] => true
  | '~' :: '/' :: _ => true
  | _ => false

/-- The rests of the names in a directory that begin as the path ends, sorted by name. -/
def paths (listing : Listing) (path : List Char) : List Proposal :=
  if startsAtHome path then []
  else
    let (directory, beginning) := splitPath path
    let names := (listing (if directory.isEmpty then "." else String.ofList directory)).getD []
    let fitting := names.filter fun name => beginning.isPrefixOf name.toList
    (fitting.mergeSort fun left right => !decide (right < left)).map fun name =>
      { text := String.ofList (name.toList.drop beginning.length), replaces := 0 }

/-- The commands that begin with a fragment. -/
def commands (fragment : List Char) : List Proposal :=
  (Command.names.filter fun name => fragment.isPrefixOf name.toList).map fun name =>
    { text := name, replaces := fragment.length }

/-- Proposals on a command line, for what follows its mark. -/
def afterMark (listing : Listing) (after : List Char) : List Proposal :=
  match Text.words after with
  | [] => commands []
  | [fragment] =>
      if after.getLast? == some ' ' then fileArgument fragment else commands fragment
  | word :: _ => fileArgument word
where
  /-- Paths, if the command takes a file. -/
  fileArgument (word : List Char) : List Proposal :=
    if Command.fileNames.contains (String.ofList word) then
      paths listing (Text.trimLeft (after.drop word.length))
    else []

/-- The run of characters before the cursor that are not blank. -/
def wordBefore (text : List Char) : List Char :=
  (text.reverse.takeWhile fun c => !Text.isBlank c).reverse

/-- The words that begin like the word before the cursor. -/
def monitorWords (words : List String) (text : List Char) : List Proposal :=
  let fragment := wordBefore text
  if fragment.isEmpty then []
  else
    (words.filter fun word =>
      (Text.upper fragment).isPrefixOf (Text.upper word.toList)).map fun word =>
        { text := word, replaces := fragment.length }

/-- The proposals for a text before the cursor. -/
def proposals (listing : Listing) (words : List String) (text : String) : List Proposal :=
  let stripped := Text.trimLeft text.toList
  if Command.mark.toList.isPrefixOf stripped then
    afterMark listing (Text.trimLeft (stripped.drop Command.mark.length))
  else monitorWords words text.toList

end Subleq.Completion
