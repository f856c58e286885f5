import DialogModel.Text.Basic

/-!
# Command lines

A command line names a subcommand and the file that it works on.  Flags are written `--flag`, and
a value follows behind `=` or as the next word.  The flags of the whole command may stand before
or after the subcommand, and what stands after it wins; every other flag belongs behind it.  No
flag may be given twice in one place, and `--` ends the flags.
-/

namespace DialogModel.Command

/-- What to do with a file. -/
inductive Action
  /-- Write out the model. -/
  | parse
  /-- Report whether the file can be compiled. -/
  | check
  deriving DecidableEq, Repr, Inhabited

/-- The forms of reports. -/
inductive Format
  | text
  | json
  deriving DecidableEq, Repr, Inhabited

/-- The parts of the model that can be written out. -/
inductive Part
  | luis
  | qna
  | all
  deriving DecidableEq, Repr, Inhabited

/-- The flags. -/
inductive Flag
  | output
  | quiet
  | culture
  | verbose
  | config
  | offline
  | kind
  deriving DecidableEq, Repr, Inhabited

namespace Flag

/-- The written name of a flag. -/
def name : Flag → String
  | .output => "output"
  | .quiet => "quiet"
  | .culture => "culture"
  | .verbose => "verbose"
  | .config => "config"
  | .offline => "offline"
  | .kind => "kind"

/-- All flags. -/
def all : List Flag :=
  [.output, .quiet, .culture, .verbose, .config, .offline, .kind]

/-- Whether a value belongs to a flag. -/
def takesValue : Flag → Bool
  | .output | .culture | .config | .kind => true
  | .quiet | .verbose | .offline => false

/-- Whether a flag may stand behind a subcommand, or before it. -/
def allowedIn : Option Action → Flag → Bool
  | _, .output | _, .quiet => true
  | none, _ => false
  | some .parse, _ => true
  | some .check, f => f != .kind

/-- Whether a flag takes a value. -/
def accepts (value : String) : Flag → Bool
  | .output => value == "text" || value == "json"
  | .kind => value == "luis" || value == "qna" || value == "all"
  | .config => value != ""
  | _ => true

end Flag

/-- The flags given in one place, with their values. -/
abbrev Given : Type := List (Flag × String)

/-- What a command line has said so far. -/
structure State where
  action : Option Action := none
  /-- The flags before the subcommand. -/
  outer : Given := []
  /-- The flags behind it. -/
  inner : Given := []
  file : Option String := none
  /-- The flag whose value is the next word. -/
  pending : Option Flag := none
  /-- Whether the flags have ended. -/
  flagsEnded : Bool := false
  deriving DecidableEq, Repr, Inhabited

namespace State

/-- Takes a flag with its value. -/
def give? (s : State) (flag : Flag) (value : String) : Option State :=
  let given := if s.action.isSome then s.inner else s.outer
  if (given.lookup flag).isSome || !flag.accepts value then none
  else
    let given := given ++ [(flag, value)]
    some { s with
      pending := none
      outer := if s.action.isSome then s.outer else given
      inner := if s.action.isSome then given else s.inner }

/-- Takes a word that is no flag. -/
def word? (s : State) (word : String) : Option State :=
  match s.action, s.file with
  | none, _ =>
    if s.flagsEnded then none
    else if word = "parse" then some { s with action := some .parse }
    else if word = "check" then some { s with action := some .check }
    else none
  | some _, none => if word = "" then none else some { s with file := some word }
  | some _, some _ => none

/-- Takes a flag, of which `text` follows the dashes. -/
def flag? (s : State) (text : List Char) : Option State :=
  let (name, value) := match Chars.breakAt? '=' text with
    | some (name, value) => (String.ofList name, some (String.ofList value))
    | none => (String.ofList text, none)
  match Flag.all.find? fun f => f.name == name && f.allowedIn s.action with
  | none => none
  | some flag =>
    match flag.takesValue, value with
    | true, some value => s.give? flag value
    | true, none => some { s with pending := some flag }
    | false, some _ => none
    | false, none => s.give? flag ""

/-- Takes an argument. -/
def step? (s : State) (argument : String) : Option State :=
  match s.pending, argument.toList with
  | some _, '-' :: _ :: _ => none
  | some flag, _ => s.give? flag argument
  | none, cs =>
    if s.flagsEnded then s.word? argument
    else
      match cs with
      | ['-', '-'] => if s.action.isSome then some { s with flagsEnded := true } else none
      | '-' :: '-' :: text => s.flag? text
      | '-' :: _ :: _ => none
      | _ => s.word? argument

end State

/-- What a command line asks for. -/
structure Invocation where
  action : Action
  file : String
  format : Format := .text
  quiet : Bool := false
  part : Part := .all
  culture : Option String := none
  verbose : Bool := false
  config : Option String := none
  deriving DecidableEq, Repr, Inhabited

namespace Invocation

/-- The form of reports that the flags ask for. -/
def formatOf (outer inner : Given) : Format :=
  let value := match inner.lookup .output with
    | some value => some value
    | none => outer.lookup .output
  if value = some "json" then .json else .text

/-- The part of the model that the flags ask for. -/
def partOf (inner : Given) : Part :=
  match inner.lookup .kind with
  | some value => if value = "luis" then .luis else if value = "qna" then .qna else .all
  | none => .all

/-- What the arguments of a command line ask for, if they can be understood. -/
def read? (arguments : List String) : Option Invocation := do
  let s ← arguments.foldlM State.step? {}
  let action ← s.action
  let file ← s.file
  if s.pending.isSome then none
  else
    some {
      action
      file
      format := formatOf s.outer s.inner
      quiet := (s.inner.lookup .quiet).isSome || (s.outer.lookup .quiet).isSome
      part := partOf s.inner
      culture := s.inner.lookup .culture
      verbose := (s.inner.lookup .verbose).isSome
      config := s.inner.lookup .config }

end Invocation

end DialogModel.Command
