import DialogModel.Command.Arguments
import DialogModel.Compile
import DialogModel.Config
import DialogModel.Export

/-!
# Running a command

What a command prints, as a function of what it was asked and of the files that it reads: the
configuration, if one is named, and the source.  A quiet command prints no reports; a model that
was asked for is printed all the same, and so is a failure in JSON.
-/

namespace DialogModel.Command

/-- What a command leaves behind. -/
structure Outcome where
  exitCode : Nat := 0
  stdout : String := ""
  stderr : String := ""
  deriving DecidableEq, Repr, Inhabited

/-- A text on a line of its own. -/
def line (s : String) : String :=
  s ++ "\n"

/-- A JSON value printed over several lines. -/
def printed (j : Json) : String :=
  line (j.pretty 0)

/-! ## Options -/

/-- The options in a configuration file, or the words for why there are none. -/
def configOptions (path : String) (content : Except String String) : Except String Options :=
  match content with
  | .error reason => .error s!"could not read '{path}': {reason}"
  | .ok text =>
    match Config.read? text with
    | some options => .ok options
    | none => .error s!"could not parse '{path}': TOML parse error"

namespace Invocation

/-- The options of a command: those of its configuration, changed by its flags. -/
def options (inv : Invocation) (config : Except String String) : Except String Options := do
  let base ← match inv.config with
    | some path => configOptions path config
    | none => .ok {}
  .ok { base with
    culture := inv.culture <|> base.culture
    verbose := inv.verbose || base.verbose }

/-! ## Reports -/

/-- The report of a configuration that cannot be used. -/
def reportConfig (inv : Invocation) (message : String) : Outcome where
  exitCode := 1
  stderr :=
    if inv.quiet then ""
    else
      match inv.format with
      | .text => line message
      | .json => line (Json.object [("error", .str message)]).compact

/-- The report of a failure. -/
def reportFailure (inv : Invocation) (f : Failure) : Outcome where
  exitCode := 1
  stderr :=
    match inv.format with
    | .json => printed f.toJson
    | .text => if inv.quiet then "" else line s!"{f.file}: [{f.code.name}] {f.render}"

/-- The part of a model that a command writes out. -/
def modelJson (inv : Invocation) (m : Model) : Json :=
  match inv.part with
  | .luis => m.app.toJson
  | .qna => m.kb.toJson.withField "wordAlterations" m.kb.wordAlterationsJson
  | .all =>
    .object [("luis", m.app.toJson), ("qna", m.kb.toJson), ("alterations", m.kb.alterationsJson),
      ("additionalFiles", .strings m.additionalFiles)]

/-- The report in JSON that a file can be compiled. -/
def checkJson (inv : Invocation) (c : Compilation) : Json :=
  let app := c.model.app
  .object [("status", .str "ok"), ("file", .str inv.file), ("intents", .num app.intents.size),
    ("entities", .num app.registry.size), ("utterances", .num app.utterances.length),
    ("patterns", .num app.patterns.length), ("qnaPairs", .num c.model.kb.pairs.length),
    ("warnings", .arr (c.warnings.map Diagnostic.toJson))]

/-- The report in words that a file can be compiled. -/
def checkText (inv : Invocation) (c : Compilation) : String :=
  let app := c.model.app
  line (s!"ok: {inv.file} ({app.intents.size} intents, {app.registry.size} entities, " ++
      s!"{app.utterances.length} utterances, {app.patterns.length} patterns, " ++
      s!"{c.model.kb.pairs.length} QnA pairs)") ++
    String.join (c.warnings.map fun w => line s!"  warning: {w.display}")

/-- What a command prints about a file that has been compiled. -/
def report (inv : Invocation) (c : Compilation) : String :=
  match inv.action with
  | .parse => printed (inv.modelJson c.model)
  | .check =>
    if inv.quiet then ""
    else
      match inv.format with
      | .json => printed (inv.checkJson c)
      | .text => inv.checkText c

/-- Runs a command on the content of its configuration and of its source. -/
def run (inv : Invocation) (config source : Except String String) : Outcome :=
  match inv.options config with
  | .error message => inv.reportConfig message
  | .ok options =>
    match compileFile inv.file source options Probe.offline with
    | .error failure => inv.reportFailure failure
    | .ok c => { stdout := inv.report c }

end Invocation

end DialogModel.Command
