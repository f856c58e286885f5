import DialogModel.App
import DialogModel.KnowledgeBase
import DialogModel.Options

/-!
# The model under construction

What a compilation builds, and the circumstances it builds it in.  Every section of a document
changes the model by a function `Model → Except Failure Model` of its own; these functions are in
`Directive`, `Import`, `Declaration`, `Labelling` and `Question`, and `Compile` runs them in order.
-/

namespace DialogModel

/-- The application, the knowledge base, and the local files that the source refers to. -/
structure Model where
  app : App := {}
  kb : KnowledgeBase := {}
  additionalFiles : List String := []
  deriving DecidableEq, Inhabited

/-- Asks for the content type of an address; the answer may be why it cannot be reached. -/
abbrev Probe : Type := String → Except String String

namespace Probe

/-- The probe that reaches nothing. -/
def offline : Probe := fun uri =>
  .error s!"network access is disabled, cannot reach {uri}"

/-- The probe that knows the given answers only. -/
def ofAnswers (answers : List (String × Except String String)) : Probe := fun uri =>
  (answers.lookup uri).getD (.error s!"no response registered for {uri}")

end Probe

/-- The circumstances of a compilation. -/
structure Context where
  /-- The locale that prebuilt types are checked against. -/
  locale : String
  options : Options := {}
  probe : Probe := Probe.offline

/-- A warning about the declaration or directive at a line. -/
def Provenance.warning (p : Provenance) (message : String) : Diagnostic :=
  ⟨.warn, .invalidInput, p.line, message⟩

/-- Gives the cause of an error its place in the source. -/
def Provenance.locate {ε α : Type} [Cause ε] (p : Provenance) (x : Except ε α) :
    Except Failure α :=
  match x with
  | .ok a => .ok a
  | .error cause => .error (p.failure cause)

end DialogModel
