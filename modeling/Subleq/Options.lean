import Subleq.Cell
import Subleq.Text.Numeral
import Subleq.Text.Quoted

/-!
# Command-line options

Reads the arguments of the program. An option may be shortened as long as no other begins alike, and
its value may follow it or stand behind an equals sign. An argument that begins with a dash is an
option, unless it is a negative number or holds a space; two dashes alone end the options. Ambiguous
options are found before anything else, other faults in the order of the arguments.
-/

namespace Subleq

/-- What the arguments ask for. -/
structure Options where
  image : Option String := none
  bits : Int := defaultWidth
  demo : Bool := false
  debug : Bool := false
  logFile : Option String := none
  test : Bool := false
  deriving Repr

namespace Options

/-- The options. -/
inductive Flag where
  | help
  | image
  | bits
  | demo
  | debug
  | logFile
  | test
  deriving Repr, DecidableEq

/-- The names of options, in the order of their description. -/
def flagNames : List (String × Flag) :=
  [("-h", .help), ("--help", .help), ("--image", .image), ("--cell-bits", .bits),
    ("--demo", .demo), ("--debug", .debug), ("--log-file", .logFile), ("--test", .test)]

def Flag.takesValue : Flag → Bool
  | .image | .bits | .logFile => true
  | .help | .demo | .debug | .test => false

/-- An option as complaints name it. -/
def Flag.title : Flag → String
  | .help => "-h/--help"
  | .image => "--image"
  | .bits => "--cell-bits"
  | .demo => "--demo"
  | .debug => "--debug"
  | .logFile => "--log-file"
  | .test => "--test"

/-- What an argument is. -/
inductive Mark where
  | argument
  | unknownOption
  /-- An option with the value behind its equals sign. -/
  | option (flag : Flag) (value : Option String)
  /-- The short option with letters attached to it, with or without an equals sign before them. -/
  | cluster (letters : List Char)
  deriving Repr

/-- Whether a text is a dash and a decimal number. -/
def isNegativeNumber (text : List Char) : Bool :=
  let isDigit (c : Char) : Bool := (Text.digitValue? c).isSome
  let body := match text.reverse with
    | '\n' :: rest => rest.reverse
    | _ => text
  match body with
  | '-' :: number =>
      let fraction := number.dropWhile isDigit
      match fraction with
      | [] => !number.isEmpty
      | '.' :: digits => !digits.isEmpty && digits.all isDigit
      | _ => false
  | _ => false

/-- The text before the first equals sign and, if there is one, the text behind it. -/
def splitEquals (text : String) : String × Option String :=
  let before := text.toList.takeWhile (· != '=')
  match text.toList.drop before.length with
  | [] => (text, none)
  | _ :: after => (String.ofList before, some (String.ofList after))

/-- An argument that is no option: dashed words are unknown options, all else is an argument. -/
def markOther (text : String) : Mark :=
  if isNegativeNumber text.toList || text.toList.contains ' ' then .argument else .unknownOption

/-- Judges an argument that begins with a dash and is longer than one character. -/
def markDashed (text : String) : Except String Mark :=
  let (name, value) := splitEquals text
  match flagNames.lookup text, flagNames.lookup name, text.toList with
  | some flag, _, _ => .ok (.option flag none)
  | none, some flag, '-' :: '-' :: _ => .ok (.option flag value)
  | none, some flag, _ =>
      match value with
      | none | some "" => .ok (.option flag value)
      | some letters => .ok (.cluster letters.toList)
  | none, none, '-' :: '-' :: _ =>
      match flagNames.filter fun (other, _) => name.toList.isPrefixOf other.toList with
      | [] => .ok (markOther text)
      | [(_, flag)] => .ok (.option flag value)
      | several =>
          .error ("ambiguous option: " ++ text ++ " could match " ++
            String.intercalate ", " (several.map (·.1)))
  | none, none, '-' :: 'h' :: letters => .ok (.cluster letters)
  | none, none, _ => .ok (markOther text)

def markOne (text : String) : Except String Mark :=
  match text.toList with
  | '-' :: _ :: _ => markDashed text
  | _ => .ok .argument

/-- Judges arguments up to two dashes; from there on none is an option. -/
def markAll : List String → Except String (List (String × Mark))
  | [] => .ok []
  | "--" :: rest => .ok (("--", .unknownOption) :: rest.map (·, .argument))
  | text :: rest => do
      let mark ← markOne text
      return (text, mark) :: (← markAll rest)

/-- What comes of reading arguments. -/
inductive Reading where
  | options (options : Options)
  | help
  | refused (reason : String)
  deriving Repr

def refuse (flag : Flag) (reason : String) : Reading :=
  .refused ("argument " ++ flag.title ++ ": " ++ reason)

/-- A complaint about a value that an option does not take. -/
def refuseValue (flag : Flag) (value : String) : Reading :=
  refuse flag ("ignored explicit argument " ++ Text.quoted value)

/-- The options after one that takes a value. -/
def withValue (options : Options) (flag : Flag) (value : String) : Except Reading Options :=
  match flag with
  | .image => .ok { options with image := some value }
  | .logFile => .ok { options with logFile := some value }
  | .bits =>
      match Text.Numeral.ofLenient value.toList with
      | .ok bits => .ok { options with bits }
      | .error _ => .error (refuse flag ("invalid int value: " ++ Text.quoted value))
  | _ => .error (refuseValue flag value)

/-- The options after one that takes no value. -/
def withFlag (options : Options) (flag : Flag) : Except Reading Options :=
  match flag with
  | .demo => .ok { options with demo := true }
  | .debug => .ok { options with debug := true }
  | .test => .ok { options with test := true }
  | .help => .error .help
  | _ => .error (refuse flag "expected one argument")

/-- The help option with letters attached to it: each of them is the option again, up to the first
letter that is none. -/
def readCluster : List Char → Reading
  | [] => .help
  | 'h' :: letters => readCluster letters
  | letters => refuseValue .help (String.ofList letters)

/-- Reads judged arguments, where `extras` are those that nothing takes. -/
def readMarked (options : Options) (extras : List String) : List (String × Mark) → Reading
  | [] =>
      if extras.isEmpty then .options options
      else .refused ("unrecognized arguments: " ++ String.intercalate " " extras)
  | (text, .argument) :: rest => readMarked options (extras ++ [text]) rest
  | (text, .unknownOption) :: rest => readMarked options (extras ++ [text]) rest
  | (_, .cluster letters) :: _ => readCluster letters
  | (_, .option flag (some value)) :: rest =>
      match options.withValue flag value with
      | .ok options => readMarked options extras rest
      | .error reading => reading
  | (_, .option flag none) :: (value, .argument) :: rest =>
      if flag.takesValue then
        match options.withValue flag value with
        | .ok options => readMarked options extras rest
        | .error reading => reading
      else match options.withFlag flag with
        | .ok options => readMarked options extras ((value, .argument) :: rest)
        | .error reading => reading
  | (_, .option flag none) :: rest =>
      match options.withFlag flag with
      | .ok options => readMarked options extras rest
      | .error reading => reading

def read (arguments : List String) : Reading :=
  match markAll arguments with
  | .error reason => .refused reason
  | .ok marked => readMarked {} [] marked

def unlines (lines : List String) : String := String.join (lines.map (· ++ "\n"))

/-- How the program is called. -/
def usage : String := unlines
  ["usage: subleq [-h] [--image FILE] [--cell-bits CELL_BITS] [--demo] [--debug]",
    "              [--log-file FILE] [--test]"]

def helpText : String :=
  usage ++ unlines
    ["",
      "SUBLEQ machine host REPL",
      "",
      "options:",
      "  -h, --help            show this help message and exit",
      "  --image FILE          image to boot instead of the bundled monitor",
      "  --cell-bits CELL_BITS",
      "                        cell width in bits (default: " ++ toString defaultWidth ++ ")",
      "  --demo                replay the demo session and exit",
      "  --debug               enable DEBUG logging",
      "  --log-file FILE       write logs to FILE",
      "  --test                run the embedded tests"]

/-- What is printed when the arguments are refused. -/
def refusal (reason : String) : String := usage ++ "subleq: error: " ++ reason ++ "\n"

end Options

end Subleq
