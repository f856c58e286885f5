import DialogModel.Compile

/-!
# A compilation step by step

The same run as `Compile.runPasses`, section by section and with the model after each, under a
locale that is fixed from the start.  It stops after the first failure.
-/

namespace DialogModel.Trace

/-- What one section does in the pass that handles it. -/
structure Step where
  pass : Pass
  /-- The position of the section in the document. -/
  index : Nat
  line : Nat
  /-- The warnings about the section, also when it fails. -/
  warnings : List Diagnostic
  outcome : Except Failure Model

/-- The sections in the order in which they are handled, with their positions. -/
def schedule (sections : List Section) : List (Section × Nat) :=
  Pass.all.flatMap fun pass => sections.zipIdx.filter fun s => decide (s.1.pass = pass)

/-- The steps from a model on. -/
def steps (ctx : Context) (m : Model) : List (Section × Nat) → List Step
  | [] => []
  | (s, index) :: rest =>
    let step (outcome : Except Failure Model) : Step :=
      { pass := s.pass, index, line := s.prov.line, warnings := s.warnings ctx, outcome }
    match s.apply ctx m with
    | .ok m => step (.ok m) :: steps ctx m rest
    | .error failure => [step (.error failure)]

/-- The steps of a document. -/
def run (ctx : Context) (sections : List Section) : List Step :=
  steps ctx {} (schedule sections)

end DialogModel.Trace
