import DialogModel.Line
import DialogModel.Entity.Header
import DialogModel.Utterance.Reader

/-!
# Documents

A document is what the front end makes of a source file: its sections and its diagnostics.  The
front end reads line by line and recovers at every line, so that one run reports every line that
cannot be read.

Two things decide where a line goes.  `Place` says what the next bullet belongs to, and a bullet
is added to the last section.  A model-info line is a section, and it does not change the place:
a bullet, filter or answer after it finds a last section that cannot hold it and is left out.
-/

namespace DialogModel.Document

/-- Why a line cannot be read. -/
inductive Fault
  /-- A line of no known kind. -/
  | invalidLine (text : String)
  /-- A bullet that belongs to nothing. -/
  | strayBullet (text : String)
  /-- A heading of filters outside a question. -/
  | strayFilters
  /-- A fence where no answer is expected. -/
  | strayFence
  /-- A fence that is never closed. -/
  | unterminatedAnswer
  /-- A question whose section ends without an answer. -/
  | noAnswer (question : String)
  /-- A bullet behind the answer of a question. -/
  | bulletAfterAnswer
  /-- A filter that is not a key and a value. -/
  | invalidFilter (text : String)
  /-- A bullet of an intent that is no utterance. -/
  | utterance (fault : Utterance.Fault)
  /-- An entity declaration without a readable header. -/
  | header (fault : Entity.HeaderFault)
  deriving DecidableEq, Repr

/-- The wording of a fault. -/
def Fault.message : Fault → String
  | .invalidLine text => "invalid line '" ++ text ++ "'"
  | .strayBullet text => "'" ++ text ++ "' is not part of an intent, entity or QnA section"
  | .strayFilters => "'**Filters:**' outside of a QnA section"
  | .strayFence => "code fence outside of a QnA answer"
  | .unterminatedAnswer => "unterminated answer block"
  | .noAnswer question => "no answer found for question '" ++ question ++ "'"
  | .bulletAfterAnswer => "unexpected line after the answer of a QnA pair"
  | .invalidFilter text => "invalid filter '" ++ text ++ "': expected 'key = value'"
  | .utterance fault => fault.message
  | .header fault => fault.message

/-- What the next bullet belongs to. -/
inductive Place
  | nowhere
  | intent
  | entityBody
  /-- A question; `filters` after the heading of its filters, `answered` after its answer. -/
  | question (filters answered : Bool)
  deriving DecidableEq, Repr, Inhabited

/-- An answer that is being read. -/
structure OpenAnswer where
  /-- The number of the line with the opening fence. -/
  fence : Nat
  /-- The lines read so far, as written. -/
  lines : List String := []
  deriving DecidableEq, Repr, Inhabited

/-- The front end between two lines. -/
structure State where
  place : Place := .nowhere
  /-- The answer whose lines are being read; inside it a line has no kind. -/
  answer : Option OpenAnswer := none
  sections : List Section := []
  diagnostics : List Diagnostic := []
  deriving DecidableEq, Repr, Inhabited

namespace State

/-- Reports a fault at a line. -/
def fault (s : State) (line : Nat) (f : Fault) : State :=
  { s with diagnostics := s.diagnostics ++ [⟨.error, .invalidLine, line, f.message⟩] }

/-- Reports a warning at a line. -/
def warn (s : State) (line : Nat) (message : String) : State :=
  { s with diagnostics := s.diagnostics ++ [⟨.warn, .invalidLine, line, message⟩] }

/-- Appends a section. -/
def push (s : State) (sec : Section) : State :=
  { s with sections := s.sections ++ [sec] }

/-- Changes the last section. -/
def attach (s : State) (f : Section → Section) : State :=
  { s with sections := Section.onLast f s.sections }

/-- Reports a question that is left without an answer. -/
def closeQuestion (s : State) : State :=
  match s.place, s.sections.getLast? with
  | .question _ false, some (.question q) =>
    s.fault q.prov.line (.noAnswer (q.questions.headD ""))
  | _, _ => s

/-- Leaves the current section for a new place. -/
def enter (s : State) (place : Place) : State :=
  { s.closeQuestion with place }

/-- Takes the header of an entity. -/
def newEntity (s : State) (prov : Provenance) (text : String) : State :=
  match Entity.Header.read text with
  | .ok header =>
    let s := match header.ignored with
      | some clause => s.warn prov.line clause.message
      | none => s
    let place := if header.inline.isSome then .entityBody else .nowhere
    (s.enter place).push (.newEntity (header.toSection prov))
  | .error fault => (s.enter .nowhere).fault prov.line (.header fault)

/-- Takes a filter of a question. -/
def filter (s : State) (line : Nat) (text : String) : State :=
  match Chars.breakAt? '=' text.toList with
  | some (key, value) =>
    let key := Chars.trim key
    let value := Chars.trim value
    if key.isEmpty || value.isEmpty then s.fault line (.invalidFilter text)
    else s.attach (Section.addFilter (String.ofList key, String.ofList value))
  | none => s.fault line (.invalidFilter text)

/-- Takes a bullet. -/
def bullet (s : State) (prov : Provenance) (text : String) : State :=
  match s.place with
  | .nowhere => s.fault prov.line (.strayBullet (Text.trim prov.text))
  | .intent =>
    match Utterance.read text with
    | .ok nodes => s.attach (Section.addUtterance { nodes, prov })
    | .error fault => s.fault prov.line (.utterance fault)
  | .entityBody => s.attach (Section.addBodyLine { text, prov })
  | .question _ true => s.fault prov.line .bulletAfterAnswer
  | .question true false => s.filter prov.line text
  | .question false false => s.attach (Section.addQuestion text)

/-- Takes a fence outside an answer. -/
def openAnswer (s : State) (line : Nat) : State :=
  match s.place with
  | .question _ false => { s with answer := some { fence := line } }
  | _ => s.fault line .strayFence

/-- Ends the answer of the current question. -/
def closeAnswer (s : State) (answer : OpenAnswer) : State :=
  let text := Text.trim (String.intercalate "\n" answer.lines)
  let place := match s.place with
    | .question filters _ => .question filters true
    | place => place
  { s.attach (Section.setAnswer text) with place, answer := none }

/-- Takes a line outside an answer. -/
def stepOutside (file : String) (s : State) (l : Line) : State :=
  let prov : Provenance := { file, line := l.number, text := l.raw }
  match l.kind with
  | .blank => s
  | .comment => s
  | .modelInfo directive => s.push (.modelInfo { directive, prov })
  | .intentHeader name => (s.enter .intent).push (.intent { name, prov })
  | .questionHeader question =>
    (s.enter (.question false false)).push (.question { questions := [question], prov })
  | .newEntity text => s.newEntity prov text
  | .legacyEntity name typeString =>
    (s.enter .entityBody).push (.legacyEntity { name, typeString, prov })
  | .importLink description path =>
    (s.enter .nowhere).push (.importLink { description, path, prov })
  | .bullet text => s.bullet prov text
  | .filterHeader =>
    match s.place with
    | .question _ answered => { s with place := .question true answered }
    | _ => s.fault l.number .strayFilters
  | .fence => s.openAnswer l.number
  | .other => s.fault l.number (.invalidLine (Text.trim l.raw))

/-- Takes a line. -/
def step (file : String) (s : State) (l : Line) : State :=
  match s.answer with
  | none => s.stepOutside file l
  | some answer =>
    if l.kind = .fence then s.closeAnswer answer
    else { s with answer := some { answer with lines := answer.lines ++ [l.raw] } }

/-- Ends the file: an answer that is still open is closed and reported. -/
def finish (s : State) : State :=
  let s := match s.answer with
    | some answer => (s.fault answer.fence .unterminatedAnswer).closeAnswer answer
    | none => s
  s.enter .nowhere

end State

/-- The warning about an intent without utterances. -/
def emptyIntent? : Section → Option Diagnostic
  | .intent s =>
    if s.utterances.isEmpty then
      some ⟨.warn, .invalidLine, s.prov.line,
        "no utterances found for intent definition '# " ++ s.name ++ "'"⟩
    else none
  | _ => none

end Document

/-- What the front end makes of a source file. -/
structure Document where
  sections : List Section
  /-- In the order in which they were found, the warnings about empty intents last. -/
  diagnostics : List Diagnostic
  deriving DecidableEq, Repr, Inhabited

namespace Document

/-- The document of a list of lines. -/
def ofLines (file : String) (lines : List Line) : Document :=
  let s := (lines.foldl (State.step file) {}).finish
  { sections := s.sections
    diagnostics := s.diagnostics ++ s.sections.filterMap emptyIntent? }

/-- The document written as a text. -/
def read (file source : String) : Document :=
  ofLines file (Line.scan source)

/-- The errors among the diagnostics. -/
def errors (d : Document) : List Diagnostic :=
  d.diagnostics.filter Diagnostic.isError

/-- The warnings among the diagnostics. -/
def warnings (d : Document) : List Diagnostic :=
  d.diagnostics.filter (!·.isError)

/-- Whether a line could not be read. -/
def hasErrors (d : Document) : Bool :=
  d.diagnostics.any Diagnostic.isError

end Document

end DialogModel
