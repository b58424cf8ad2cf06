import Subleq.Text.Blank
import Subleq.Text.Numeral
import Subleq.Text.Quoted
import Subleq.Text.ShellWords

/-!
# Host commands

Lines that start with `:host` are commands to the host; all other lines are input for the current
machine. A command is a word with arguments, cut as shell words.
-/

namespace Subleq

/-- What a host command asks for. -/
inductive Command where
  | help
  | unknown (word : String)
  | badLine (fault : Text.ShellWords.Fault)
  /-- Arguments that do not fit; the text says what would. -/
  | usage (text : String)
  | create (name : String)
  | current
  | switch (pid : Int)
  | list
  | kill (pid : Int)
  | logs (pid : Option Int)
  | load (path : String)
  | image (path : String)
  | run
  | counter
  /-- A start and a count, or what is wrong with them. -/
  | dump (range : Except String (Int × Int))
  | script (path : String)
  | quit

namespace Command

def mark : String := ":host"

/-- The words that are offered as commands. -/
def names : List String :=
  ["new", "vm", "ps", "kill", "logs", "load", "image", "run", "pc", "dump", "read-from", "quit",
    "help"]

/-- The commands that take a file. -/
def fileNames : List String := ["load", "image", "read-from"]

def marks (line : String) : Bool := mark.toList.isPrefixOf (Text.trim line.toList)

/-- How much of a quoted argument a complaint about it shows. -/
def shownLength : Nat := 200

/-- An integer argument, or the complaint about it. -/
def integer (argument : String) : Except String Int :=
  match Text.Numeral.ofLenient argument.toList with
  | .ok value => .ok value
  | .error .malformed =>
      .error ("invalid literal for int() with base 10: " ++
        String.ofList ((Text.quoted argument).toList.take shownLength))
  | .error (.tooLong digits) => .error (Text.TooLong.message ⟨digits⟩)

/-- The start and the count of a dump. -/
def range : List String → Except String (Int × Int)
  | [] => .ok (0, 16)
  | [start] => do return (← integer start, 16)
  | start :: count :: _ => do return (← integer start, ← integer count)

def ofWords : List String → Command
  | [] => .help
  | "new" :: arguments => .create (arguments.headD "vm")
  | "vm" :: [] => .current
  | "vm" :: argument :: _ =>
      match integer argument with
      | .ok pid => .switch pid
      | .error _ => .usage ":host vm PID"
  | "ps" :: _ => .list
  | "kill" :: [] => .usage ":host kill PID"
  | "kill" :: argument :: _ =>
      match integer argument with
      | .ok pid => .kill pid
      | .error _ => .usage ":host kill PID"
  | "logs" :: [] => .logs none
  | "logs" :: argument :: _ =>
      match integer argument with
      | .ok pid => .logs (some pid)
      | .error _ => .usage ":host logs [PID]"
  | "load" :: [] => .usage ":host load FILE"
  | "load" :: path :: _ => .load path
  | "image" :: [] => .usage ":host image FILE"
  | "image" :: path :: _ => .image path
  | "run" :: _ => .run
  | "pc" :: _ => .counter
  | "dump" :: arguments => .dump (range arguments)
  | "read-from" :: [] => .usage ":host read-from \"filename\""
  | "read-from" :: path :: _ => .script path
  | "quit" :: _ => .quit
  | "exit" :: _ => .quit
  | "help" :: _ => .help
  | "?" :: _ => .help
  | word :: _ => .unknown word

/-- The words of a command line after its mark. -/
def words (line : String) : Except Text.ShellWords.Fault (List String) :=
  Text.ShellWords.split (Text.trim ((Text.trim line.toList).drop mark.length))

def ofLine (line : String) : Command :=
  match words line with
  | .error fault => .badLine fault
  | .ok words => ofWords words

def helpLines : List String :=
  ["Host commands (prefix with :host):",
    "  :host new [name]           - create machine with the boot image",
    "  :host vm PID               - switch current machine",
    "  :host ps                   - list machines",
    "  :host kill PID             - remove machine",
    "  :host logs [PID]           - show output of PID (or current)",
    "  :host load FILE            - load program text (reset, pc=0)",
    "  :host image FILE           - load an image file",
    "  :host run                  - run current machine until halt",
    "  :host pc                   - show program counter",
    "  :host dump [START] [N]     - show memory cells",
    "  :host read-from \"file\"     - execute host+text lines from file",
    "  :host quit                 - exit REPL"]

end Command

end Subleq
