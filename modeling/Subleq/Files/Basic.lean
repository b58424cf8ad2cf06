import Subleq.Text.Quoted
import Subleq.Text.Utf8

/-!
# Reading files

A disk answers the request for a file with its bytes, with a refusal, or with nothing, when the
outer layer has not fetched the file yet. File texts are UTF-8, and every line end reads as one line
feed.
-/

namespace Subleq

/-- Why a file is refused. -/
inductive FileFault where
  | missing (path : String)
  | notDirectory (path : String)
  | isDirectory (path : String)
  | nameTooLong (path : String)
  /-- Any other refusal, with its number and its text. -/
  | other (number : Nat) (text path : String)
  deriving Repr, DecidableEq

namespace FileFault

/-- The number of a refusal. -/
def number : FileFault → Nat
  | missing _ => 2
  | notDirectory _ => 20
  | isDirectory _ => 21
  | nameTooLong _ => 36
  | other number _ _ => number

/-- A refusal in words. -/
def reason : FileFault → String
  | missing _ => "No such file or directory"
  | notDirectory _ => "Not a directory"
  | isDirectory _ => "Is a directory"
  | nameTooLong _ => "File name too long"
  | other _ text _ => text

def path : FileFault → String
  | missing path => path
  | notDirectory path => path
  | isDirectory path => path
  | nameTooLong path => path
  | other _ _ path => path

def message (fault : FileFault) : String :=
  "[Errno " ++ toString fault.number ++ "] " ++ fault.reason ++ ": " ++ Text.quoted fault.path

end FileFault

/-- How a file text fails to be read. -/
inductive ReadFault where
  | refused (fault : FileFault)
  | encoding (fault : Text.Utf8.Fault)
  /-- The path holds a null character. -/
  | nullPath
  /-- The outer layer has not fetched the file. -/
  | unfetched (path : String)
  deriving Repr, DecidableEq

def ReadFault.message : ReadFault → String
  | .refused fault => fault.message
  | .encoding fault => fault.message
  | .nullPath => "embedded null byte"
  | .unfetched path => "not fetched: " ++ Text.quoted path

/-- The answers to requests for files. -/
abbrev Disk := String → Option (Except FileFault (List UInt8))

namespace Disk

def bytes (disk : Disk) (path : String) : Except ReadFault (List UInt8) :=
  if path.toList.contains '\x00' then .error .nullPath
  else match disk path with
    | none => .error (.unfetched path)
    | some (.error fault) => .error (.refused fault)
    | some (.ok bytes) => .ok bytes

/-- The text of a file, read at once. -/
def readText (disk : Disk) (path : String) : Except ReadFault String :=
  match disk.bytes path with
  | .error fault => .error fault
  | .ok bytes =>
      match Text.Utf8.decode bytes with
      | .error fault => .error (.encoding fault)
      | .ok text => .ok (String.ofList (Text.Utf8.unifyLineEnds text))

/-- How many bytes are read at a time where a file is read line by line. -/
def blockSize : Nat := 8192

/-- Cuts a text after every line feed, where `carry` holds, last character first, what is already
read of the line at hand. -/
def linesFrom (carry : List Char) : List Char → List String
  | [] => if carry.isEmpty then [] else [String.ofList carry.reverse]
  | '\n' :: rest => String.ofList ('\n' :: carry).reverse :: linesFrom [] rest
  | c :: rest => linesFrom (c :: carry) rest

/-- The lines of a file, each with its line feed. -/
def readLines (disk : Disk) (path : String) : Except ReadFault (List String) :=
  match disk.bytes path with
  | .error fault => .error fault
  | .ok bytes =>
      match Text.Utf8.decodeBlocks blockSize bytes with
      | .error fault => .error (.encoding fault)
      | .ok text => .ok (linesFrom [] (Text.Utf8.unifyLineEnds text))

end Disk

end Subleq
