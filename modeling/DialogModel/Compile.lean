import DialogModel.Declaration.Forms
import DialogModel.Directive
import DialogModel.Document
import DialogModel.Import
import DialogModel.Labelling
import DialogModel.Question

/-!
# Compiling a source file

A document is compiled in four passes, each over the sections of its own kinds in source order:
directives, imported documents, intents with entities, and questions.  The directives come first
since they may set the locale; the entities and the intents share a pass since a declaration reads
what the lines before it registered.  The first failure ends the compilation, and a document with
errors is not compiled at all.
-/

namespace DialogModel

/-- The passes in their order. -/
inductive Pass
  | directives
  | imports
  | entities
  | questions
  deriving DecidableEq, Repr, Inhabited

namespace Pass

/-- All passes in their order. -/
def all : List Pass :=
  [.directives, .imports, .entities, .questions]

/-- The number of a pass, from one. -/
def number : Pass → Nat
  | .directives => 1
  | .imports => 2
  | .entities => 3
  | .questions => 4

end Pass

namespace Section

/-- The pass that handles a section. -/
def pass : Section → Pass
  | .modelInfo _ => .directives
  | .importLink _ => .imports
  | .intent _ | .newEntity _ | .legacyEntity _ => .entities
  | .question _ => .questions

/-- What a section does to the model. -/
def apply (ctx : Context) (m : Model) : Section → Except Failure Model
  | .modelInfo s => s.apply m
  | .importLink s => s.apply ctx.probe m
  | .intent s => s.apply ctx.options m
  | .newEntity s => s.apply ctx m
  | .legacyEntity s => s.apply ctx m
  | .question s => .ok (s.apply m)

/-- The warnings about a section.  They do not depend on the model. -/
def warnings (ctx : Context) : Section → List Diagnostic
  | .modelInfo s => s.warnings
  | .newEntity s => s.warnings ctx
  | .legacyEntity s => s.warnings ctx
  | .importLink _ | .intent _ | .question _ => []

end Section

/-- The outcome of a successful compilation. -/
structure Compilation where
  model : Model
  /-- The warnings of the front end, then those of each pass in source order. -/
  warnings : List Diagnostic := []
  deriving DecidableEq, Inhabited

namespace Compile

/-- The sections of a pass. -/
def sectionsOf (pass : Pass) (sections : List Section) : List Section :=
  sections.filter fun s => decide (s.pass = pass)

/-- Runs a pass over a document. -/
def runPass (ctx : Context) (sections : List Section) (m : Model) (pass : Pass) :
    Except Failure Model :=
  (sectionsOf pass sections).foldlM (Section.apply ctx) m

/-- The warnings of the passes over a document. -/
def passWarnings (ctx : Context) (sections : List Section) : List Diagnostic :=
  Pass.all.flatMap fun pass => (sectionsOf pass sections).flatMap (Section.warnings ctx)

/-- The locale for prebuilt types: the one that the options name, else the one that the source
sets, else that of the catalog. -/
def locale (options : Options) (app : App) : String :=
  let named := match options.culture with
    | some culture => culture
    | none => (app.settings.get? "culture").getD Entity.Catalog.defaultLocale.name
  Text.lower named

/-- The circumstances of the passes after the directives have been carried out. -/
def contextAfter (options : Options) (probe : Probe) (m : Model) : Context :=
  { locale := locale options m.app, options, probe }

/-- Compiles the sections of a document. -/
def runPasses (options : Options) (probe : Probe) (sections : List Section) :
    Except Failure (Context × Model) := do
  let m ← runPass (contextAfter options probe {}) sections {} .directives
  let ctx := contextAfter options probe m
  let m ← runPass ctx sections m .imports
  let m ← runPass ctx sections m .entities
  let m ← runPass ctx sections m .questions
  .ok (ctx, m)

end Compile

/-- Compiles the text of a file. -/
def compile (file source : String) (options : Options) (probe : Probe) :
    Except Failure Compilation :=
  let doc := Document.read file source
  if doc.hasErrors then .error (Failure.ofDiagnostics file doc.errors)
  else do
    let (ctx, model) ← Compile.runPasses options probe doc.sections
    .ok { model, warnings := doc.warnings ++ Compile.passWarnings ctx doc.sections }

/-- The failure to read a file. -/
def Failure.unreadable (path reason : String) : Failure where
  code := .invalidInput
  file := path
  line := 0
  message := s!"cannot read file: {reason}"

/-- Compiles the file at a path.  `content` is its text, or why it cannot be read. -/
def compileFile (path : String) (content : Except String String) (options : Options)
    (probe : Probe) : Except Failure Compilation :=
  match content with
  | .ok source => compile path source options probe
  | .error reason => .error (.unreadable path reason)

end DialogModel
