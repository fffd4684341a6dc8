import NotebookKernels.Decimal.Digits

/- The command line: its commands, and how they are read from arguments.

   An option is written with one or two dashes, its value after it or after an
   equals sign; an option may stand before or after the positional arguments, and
   at most once. All that follows two lone dashes is positional. -/
namespace NotebookKernels

/-- What a kernel can be asked on the command line. -/
inductive Question where
  | complete
  | inspect
  deriving DecidableEq, Repr

/-- A command. -/
inductive Command where
  /-- Runs a script, cell by cell. -/
  | run (script kernel : String) (keepGoing vars : Bool)
  /-- Shows how directives are expanded. -/
  | preprocess (input : String)
  /-- Lists the directives. -/
  | list
  /-- Asks a kernel about code. -/
  | ask (question : Question) (code : String) (cursor : Option Nat) (kernel : String)
  /-- Explains the commands. -/
  | help
  /-- Tells the version. -/
  | version
  deriving DecidableEq, Repr

/-- Why arguments are no command. -/
inductive ArgumentError where
  | noCommand
  | unknownCommand (name : String)
  | unexpected (argument : String)
  | missing (name : String)
  | noValue (name : String)
  | repeated (name : String)
  | invalid (name value : String)
  deriving DecidableEq, Repr

/-- An option that a command takes. -/
structure OptionForm where
  long : String
  short : Option Char
  hasValue : Bool

/-- An argument that has been read. -/
inductive Argument where
  | flag (name : String)
  | value (name value : String)
  | positional (text : String)
  deriving DecidableEq, Repr

namespace ArgumentError

def message : ArgumentError → String
  | .noCommand => "a command is required"
  | .unknownCommand name => "unrecognized command '" ++ name ++ "'"
  | .unexpected argument => "unexpected argument '" ++ argument ++ "'"
  | .missing name => "a required argument was not given: " ++ name
  | .noValue name => "a value is required for '--" ++ name ++ "'"
  | .repeated name => "the argument '--" ++ name ++ "' cannot be used multiple times"
  | .invalid name value => "invalid value '" ++ value ++ "' for '--" ++ name ++ "'"

end ArgumentError

namespace Arguments

def common : List OptionForm := [⟨"verbose", some 'v', false⟩, ⟨"help", some 'h', false⟩]

def isOption (argument : String) : Bool :=
  match argument.toList with
  | '-' :: _ :: _ => true
  | _ => false

def cutEquals (t : List Char) : List Char × Option (List Char) :=
  match t.dropWhile (· ≠ '=') with
  | [] => (t, none)
  | _ :: value => (t.takeWhile (· ≠ '='), some value)

/-- Reads an option in its long form; tells whether its value is the next argument. -/
def readLong (forms : List OptionForm) (argument : String) (t : List Char) :
    Except ArgumentError (List Argument × Option String) :=
  let (name, value) := cutEquals t
  match forms.find? (·.long.toList = name), value with
  | none, _ => .error (.unexpected argument)
  | some f, none => .ok (if f.hasValue then ([], some f.long) else ([.flag f.long], none))
  | some f, some v =>
    if f.hasValue then .ok ([.value f.long (String.ofList v)], none)
    else .error (.unexpected argument)

/-- Reads options in their short form, several after one dash; tells whether the value of the last
one is the next argument. -/
def readShort (forms : List OptionForm) (argument : String) :
    List Char → Except ArgumentError (List Argument × Option String)
  | [] => .ok ([], none)
  | c :: rest => match forms.find? (·.short = some c) with
    | none => .error (.unexpected argument)
    | some f =>
      if f.hasValue then match rest with
        | [] => .ok ([], some f.long)
        | '=' :: value => .ok ([.value f.long (String.ofList value)], none)
        | value => .ok ([.value f.long (String.ofList value)], none)
      else (readShort forms argument rest).map fun (found, next) => (.flag f.long :: found, next)

/-- Reads the arguments of a command. -/
def read (forms : List OptionForm) : List String → Except ArgumentError (List Argument)
  | [] => .ok []
  | "--" :: rest => .ok (rest.map .positional)
  | argument :: rest =>
    if isOption argument then
      match match argument.toList with
        | '-' :: '-' :: t => readLong forms argument t
        | t => readShort forms argument (t.drop 1) with
      | .error e => .error e
      | .ok (found, none) => (read forms rest).map (found ++ ·)
      | .ok (found, some name) => match rest with
        | [] => .error (.noValue name)
        | value :: rest =>
          if isOption value then .error (.noValue name)
          else (read forms rest).map (found ++ .value name value :: ·)
    else (read forms rest).map (.positional argument :: ·)

/-- The names of the options, as often as they are given. -/
def names (found : List Argument) : List String :=
  found.filterMap fun
    | .flag name | .value name _ => some name
    | .positional _ => none

def repeated? : List String → Option String
  | [] => none
  | n :: rest => if n ∈ rest then some n else repeated? rest

/-- The positional arguments. -/
def positionals (found : List Argument) : List String :=
  found.filterMap fun
    | .positional t => some t
    | _ => none

def hasFlag (found : List Argument) (name : String) : Bool := found.contains (.flag name)

def value? (found : List Argument) (name : String) : Option String :=
  found.findSome? fun
    | .value n v => if n = name then some v else none
    | _ => none

/-- The position that the options give, if they give one. -/
def cursorOf (found : List Argument) : Except ArgumentError (Option Nat) :=
  match value? found "cursor" with
  | none => .ok none
  | some v => match Decimal.word? v.toList with
    | some n => .ok (some n)
    | none => .error (.invalid "cursor" v)

def single (found : List Argument) (name : String) : Except ArgumentError String :=
  match positionals found with
  | [] => .error (.missing name)
  | [t] => .ok t
  | _ :: extra :: _ => .error (.unexpected extra)

def kernelOf (found : List Argument) : String := (value? found "kernel").getD "python3"

def kernelForm : OptionForm := ⟨"kernel", some 'k', true⟩

def readFor (forms : List OptionForm) (arguments : List String)
    (command : List Argument → Except ArgumentError Command) : Except ArgumentError Command :=
  match read (common ++ forms) arguments with
  | .error e => .error e
  | .ok found =>
    if hasFlag found "help" then .ok .help
    else match repeated? (names found) with
      | some name => .error (.repeated name)
      | none => command found

def readQuestion (question : Question) (arguments : List String) : Except ArgumentError Command :=
  readFor [kernelForm, ⟨"cursor", none, true⟩] arguments fun found => do
    let code ← single found "code"
    let cursor ← cursorOf found
    return .ask question code cursor (kernelOf found)

def commandNames : List String := ["run", "preprocess", "complete", "inspect", "help"]

def readCommand (name : String) (arguments : List String) : Except ArgumentError Command :=
  match name with
  | "run" =>
    readFor [kernelForm, ⟨"keep-going", none, false⟩, ⟨"vars", none, false⟩] arguments fun found => do
      let script ← single found "script"
      return .run script (kernelOf found) (hasFlag found "keep-going") (hasFlag found "vars")
  | "preprocess" =>
    readFor [⟨"list", none, false⟩] arguments fun found =>
      if hasFlag found "list" then
        match positionals found with
        | _ :: extra :: _ => .error (.unexpected extra)
        | _ => .ok .list
      else (single found "input").map .preprocess
  | "complete" => readQuestion .complete arguments
  | "inspect" => readQuestion .inspect arguments
  | "help" => match arguments with
    | [] => .ok .help
    | [topic] => if commandNames.contains topic then .ok .help else .error (.unknownCommand topic)
    | _ :: extra :: _ => .error (.unknownCommand extra)
  | _ => .error (.unknownCommand name)

/-- Reads a command, and the options before its name; `verbose` says whether that one has been
given. -/
def readFrom (verbose : Bool) : List String → Except ArgumentError Command
  | [] => .error .noCommand
  | argument :: rest =>
    if isOption argument then
      if argument = "-v" ∨ argument = "--verbose" then
        if verbose then .error (.repeated "verbose") else readFrom true rest
      else if argument = "-h" ∨ argument = "--help" then .ok .help
      else if argument = "-V" ∨ argument = "--version" then .ok .version
      else .error (.unexpected argument)
    else readCommand argument rest

end Arguments

def Command.ofArguments (arguments : List String) : Except ArgumentError Command :=
  Arguments.readFrom false arguments

end NotebookKernels
