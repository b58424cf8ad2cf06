import Subleq.Files.Basic
import Subleq.Files.Path

/-!
# File trees

A tree of files and directories that a session can be given in place of a real disk. Paths are
relative to the root of the tree, their parts divided by slashes; empty parts and single dots stand
for the directory reached, double dots for the one above it. Outside of the tree there are
directories, but nothing is known of what they hold.
-/

namespace Subleq

/-- A file with its bytes, or a directory with its entries. -/
inductive FileTree where
  | file (bytes : List UInt8)
  | directory (entries : List (String × FileTree))

namespace FileTree

def empty : FileTree := .directory []

/-- The longest name of an entry, in bytes. -/
def nameLimit : Nat := 255

/-- The longest path, in bytes. -/
def pathLimit : Nat := 4095

/-- Why a path leads nowhere. -/
inductive WalkFault where
  | missing
  | notDirectory
  | nameTooLong
  deriving Repr, DecidableEq

def parts (path : String) : List String := path.splitOn "/"

/-- Follows the parts of a path, where `above` holds the directories passed, nearest first. Above
all of them there are directories in which nothing is found. -/
def walk (node : FileTree) (above : List FileTree) : List String → Except WalkFault FileTree
  | [] => .ok node
  | part :: parts =>
      match node with
      | .file _ => .error .notDirectory
      | .directory entries =>
          if part == "" || part == "." then walk node above parts
          else if part == ".." then
            match above with
            | [] => walk empty [] parts
            | parent :: above => walk parent above parts
          else if part.utf8ByteSize > nameLimit then .error .nameTooLong
          else match entries.lookup part with
            | none => .error .missing
            | some child => walk child (node :: above) parts

/-- Where a path starts: in the tree, or outside of it. -/
def startOf (tree : FileTree) (path : String) : FileTree :=
  if Path.isRooted path then empty else tree

/-- What stands at a path. The empty path leads nowhere, and a path that starts with a slash starts
outside of the tree. -/
def find (tree : FileTree) (path : String) : Except WalkFault FileTree :=
  if path.isEmpty then .error .missing
  else if path.utf8ByteSize > pathLimit then .error .nameTooLong
  else (tree.startOf path).walk [] (parts path)

def read (tree : FileTree) (path : String) : Except FileFault (List UInt8) :=
  match tree.find path with
  | .error .missing => .error (.missing path)
  | .error .notDirectory => .error (.notDirectory path)
  | .error .nameTooLong => .error (.nameTooLong path)
  | .ok (.directory _) => .error (.isDirectory path)
  | .ok (.file bytes) => .ok bytes

/-- The disk that answers from a tree. -/
def disk (tree : FileTree) : Disk := fun path => some (tree.read path)

/-- The names in the directory at a path, if it is one. -/
def list? (tree : FileTree) (path : String) : Option (List String) :=
  match tree.find path with
  | .ok (.directory entries) => some (entries.map (·.1))
  | _ => none

/-- Puts an entry into a list of entries, in the place of one of its name. -/
def putEntry (entries : List (String × FileTree)) (name : String) (node : FileTree) :
    List (String × FileTree) :=
  if entries.any (·.1 == name) then
    entries.map fun entry => if entry.1 == name then (name, node) else entry
  else entries ++ [(name, node)]

/-- The entries of a directory; a file has none. -/
def entries : FileTree → List (String × FileTree)
  | .file _ => []
  | .directory entries => entries

/-- Puts a node at the end of a list of names, with directories on the way; a directory that is
already there keeps its entries. -/
def put (node : FileTree) : (names : List String) → (tree : FileTree) → FileTree
  | [], tree =>
      match node, tree with
      | .directory [], .directory entries => .directory entries
      | node, _ => node
  | name :: names, tree =>
      let child := (tree.entries.lookup name).getD empty
      .directory (putEntry tree.entries name (put node names child))

def names (path : String) : List String :=
  (parts path).filter fun part => part != "" && part != "."

/-- Writes a file, with the directories on its path. -/
def write (tree : FileTree) (path : String) (bytes : List UInt8) : FileTree :=
  put (.file bytes) (names path) tree

/-- Why a file cannot be written: its directory is not there, or it is a directory itself. -/
def writeFault? (tree : FileTree) (path : String) : Option FileFault :=
  match tree.find path with
  | .ok (.file _) => none
  | .ok (.directory _) => some (.isDirectory path)
  | .error .notDirectory => some (.notDirectory path)
  | .error .nameTooLong => some (.nameTooLong path)
  | .error .missing =>
      match (tree.startOf path).walk [] ((parts path).dropLast) with
      | .ok (.directory _) => none
      | _ => some (.missing path)

/-- Puts bytes into the file at a path without detours, which must stand in a directory that is
there. A file outside of the tree is written without a trace. -/
def replace (tree : FileTree) (path : String) (bytes : List UInt8) : Except ReadFault FileTree :=
  if path.toList.contains '\x00' then .error .nullPath
  else match tree.writeFault? path with
    | some fault => .error (.refused fault)
    | none => .ok (if Path.leadsOut path then tree else tree.write path bytes)

/-- Makes a directory, with the directories on its path. -/
def makeDirectory (tree : FileTree) (path : String) : FileTree := put empty (names path) tree

/-- Removes the entry at the end of a list of names. -/
def removeAt : (names : List String) → (tree : FileTree) → FileTree
  | [], tree => tree
  | [name], tree => .directory (tree.entries.filter (·.1 != name))
  | name :: names, tree =>
      match tree.entries.lookup name with
      | none => tree
      | some child => .directory (putEntry tree.entries name (removeAt names child))

def remove (tree : FileTree) (path : String) : FileTree := removeAt (names path) tree

end FileTree

end Subleq
