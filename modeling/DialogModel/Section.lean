import DialogModel.Diagnostic
import DialogModel.Utterance.Basic

/-!
# Sections of a source file

What the front end recognises: a file is a list of sections in source order.  Their order matters,
since later stages read each section in the light of those before it.  Nothing here is checked
beyond its form: whether an entity may be declared or a label resolved is decided later.
-/

namespace DialogModel

/-- A line of an intent: an utterance and where it stands. -/
structure UtteranceLine where
  nodes : List Utterance.Node
  prov : Provenance
  deriving DecidableEq, Repr, Inhabited

/-- A bullet in the body of an entity. -/
structure BodyLine where
  text : String
  prov : Provenance
  deriving DecidableEq, Repr, Inhabited

/-- What defines an entity: the text behind `=` and the bullets below. -/
structure Definition where
  inline : String
  lines : List BodyLine := []
  deriving DecidableEq, Repr, Inhabited

/-- A directive about the whole model. -/
structure ModelInfo where
  directive : String
  prov : Provenance
  deriving DecidableEq, Repr, Inhabited

/-- A link to another document. -/
structure ImportLink where
  description : String
  path : String
  prov : Provenance
  deriving DecidableEq, Repr, Inhabited

/-- An intent with the utterances that express it. -/
structure IntentSection where
  name : String
  utterances : List UtteranceLine := []
  prov : Provenance
  deriving DecidableEq, Repr, Inhabited

/-- An entity declared with `@`. -/
structure NewEntity where
  type : String
  name : String
  roles : List String := []
  interchangeable : Bool := false
  definition : Option Definition := none
  prov : Provenance
  deriving DecidableEq, Repr, Inhabited

/-- An entity declared with `$`. -/
structure LegacyEntity where
  name : String
  typeString : String
  lines : List BodyLine := []
  prov : Provenance
  deriving DecidableEq, Repr, Inhabited

/-- A question, its other wordings, the filters of its answer and the answer. -/
structure QuestionSection where
  questions : List String
  filters : List (String × String) := []
  answer : String := ""
  prov : Provenance
  deriving DecidableEq, Repr, Inhabited

/-- A section of a source file. -/
inductive Section
  | modelInfo (info : ModelInfo)
  | importLink (link : ImportLink)
  | intent (intent : IntentSection)
  | newEntity (entity : NewEntity)
  | legacyEntity (entity : LegacyEntity)
  | question (question : QuestionSection)
  deriving DecidableEq, Repr, Inhabited

namespace Section

/-- Where the section starts. -/
def prov : Section → Provenance
  | .modelInfo s => s.prov
  | .importLink s => s.prov
  | .intent s => s.prov
  | .newEntity s => s.prov
  | .legacyEntity s => s.prov
  | .question s => s.prov

/-! ## Growing a section

Each operation adds one line to a section of the kind that can hold it and leaves every other
section as it is. -/

/-- Adds an utterance to an intent. -/
def addUtterance (line : UtteranceLine) : Section → Section
  | .intent s => .intent { s with utterances := s.utterances ++ [line] }
  | s => s

/-- Adds a bullet to the body of an entity that has one. -/
def addBodyLine (line : BodyLine) : Section → Section
  | .newEntity s =>
    .newEntity { s with
      definition := s.definition.map fun d => { d with lines := d.lines ++ [line] } }
  | .legacyEntity s => .legacyEntity { s with lines := s.lines ++ [line] }
  | s => s

/-- Adds another wording to a question. -/
def addQuestion (text : String) : Section → Section
  | .question s => .question { s with questions := s.questions ++ [text] }
  | s => s

/-- Adds a filter to a question. -/
def addFilter (filter : String × String) : Section → Section
  | .question s => .question { s with filters := s.filters ++ [filter] }
  | s => s

/-- Gives a question its answer. -/
def setAnswer (answer : String) : Section → Section
  | .question s => .question { s with answer := answer }
  | s => s

/-- Changes the last section of a list. -/
def onLast (f : Section → Section) : List Section → List Section
  | [] => []
  | [s] => [f s]
  | s :: t :: rest => s :: onLast f (t :: rest)

end Section

end DialogModel
