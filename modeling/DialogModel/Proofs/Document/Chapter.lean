import Mathlib.Data.List.Basic
import Mathlib.Data.List.Induction
import Mathlib.Tactic.Common
import DialogModel.Document
import DialogModel.Proofs.Document.Items

/-!
# The chapters of a document

The front end decides where a line goes by the state it has come to.  This file says the same of a
source as it stands, without a run: a source falls into *chapters*, each a header and the lines up
to the next header, and what a line of a chapter is depends on its header and the lines between the
two.  Inside the answer of a question no line is a header, so an answer never ends a chapter.

`Chapter.reading` says what a line is: it gives an item to the section of its chapter, or it is a
section of its own, or it is at fault, or it says nothing.  Neither the sections nor the diagnostics
of the front end occur in the definition.  An item reaches its section unless a model-info line has
come between (`Chapter.interrupted`); that is a defect of the front end, and the only place where
it departs from the readings.
-/

namespace DialogModel

/-- Whether a line of this kind ends the section before it. -/
def LineKind.isHeader : LineKind → Bool
  | .intentHeader _ | .questionHeader _ | .newEntity _ | .legacyEntity .. | .importLink .. => true
  | _ => false

/-- Whether a line of this kind is a directive. -/
def LineKind.isModelInfo : LineKind → Bool
  | .modelInfo _ => true
  | _ => false

/-- Where a line stands. -/
def Line.prov (file : String) (l : Line) : Provenance :=
  { file, line := l.number, text := l.raw }

namespace Document

open Section (Item)

/-- A header and the lines below it.  The lines before the first header are a chapter without
one. -/
structure Chapter where
  header : Option Line := none
  body : List Line := []
  deriving DecidableEq, Repr

/-- What a line of a chapter is. -/
inductive Reading
  | silent
  | info (info : ModelInfo)
  | item (item : Item)
  | fault (fault : Fault)
  deriving DecidableEq, Repr

namespace Chapter

/-- The lines of a chapter. -/
def lines (c : Chapter) : List Line :=
  c.header.toList ++ c.body

/-- The chapter with one more line. -/
def add (c : Chapter) (l : Line) : Chapter :=
  { c with body := c.body ++ [l] }

/-- Whether the header is a question. -/
def isQuestion (c : Chapter) : Bool :=
  match c.header.map Line.kind with
  | some (.questionHeader _) => true
  | _ => false

/-- The number of fences below the header. -/
def fences (c : Chapter) : Nat :=
  c.body.countP fun l => decide (l.kind = .fence)

/-- Whether the next line stands inside an answer: the first fence below a question opens it and
the second closes it. -/
def inAnswer (c : Chapter) : Bool :=
  c.isQuestion && c.fences == 1

/-- The lines `ls` that follow a chapter, each with the chapter as it stands before the line. -/
def trailFrom (c : Chapter) : List Line → List (Chapter × Line)
  | [] => []
  | l :: ls => (c, l) :: trailFrom (c.add l) ls

/-- The lines below the header, each with the chapter as it stands before the line. -/
def trail (c : Chapter) : List (Chapter × Line) :=
  trailFrom { header := c.header } c.body

/-! ## What decides the reading of a line -/

/-- Whether the heading of the filters stands below the header. -/
def filtering (c : Chapter) : Bool :=
  c.trail.any fun (before, l) => !before.inAnswer && decide (l.kind = .filterHeader)

/-- Whether a directive stands below the header. -/
def interrupted (c : Chapter) : Bool :=
  c.trail.any fun (before, l) => !before.inAnswer && l.kind.isModelInfo

/-- The lines of the answer as written. -/
def answerLines (c : Chapter) : List String :=
  c.trail.filterMap fun (before, l) =>
    if before.inAnswer && decide (l.kind ≠ .fence) then some l.raw else none

/-- The text of the answer. -/
def answerText (c : Chapter) : String :=
  Text.trim (String.intercalate "\n" c.answerLines)

/-- What the header makes of the bullets below it. -/
def opens (c : Chapter) : Place :=
  match c.header.map Line.kind with
  | some (.intentHeader _) => .intent
  | some (.questionHeader _) => .question false false
  | some (.newEntity text) =>
    match Entity.Header.read text with
    | .ok header => if header.inline.isSome then .entityBody else .nowhere
    | .error _ => .nowhere
  | some (.legacyEntity ..) => .entityBody
  | _ => .nowhere

/-- What the next bullet belongs to. -/
def place (c : Chapter) : Place :=
  match c.opens with
  | .question .. => .question c.filtering (decide (2 ≤ c.fences))
  | place => place

/-! ## The reading of a line -/

/-- The reading of a bullet in the filters of a question. -/
def filterReading (text : String) : Reading :=
  match Chars.breakAt? '=' text.toList with
  | some (key, value) =>
    if (Chars.trim key).isEmpty || (Chars.trim value).isEmpty then .fault (.invalidFilter text)
    else .item (.filter (String.ofList (Chars.trim key), String.ofList (Chars.trim value)))
  | none => .fault (.invalidFilter text)

/-- The reading of a bullet below a chapter. -/
def bulletReading (file : String) (c : Chapter) (l : Line) (text : String) : Reading :=
  match c.place with
  | .nowhere => .fault (.strayBullet (Text.trim l.raw))
  | .intent =>
    match Utterance.read text with
    | .ok nodes => .item (.utterance { nodes, prov := l.prov file })
    | .error fault => .fault (.utterance fault)
  | .entityBody => .item (.bodyLine { text, prov := l.prov file })
  | .question _ true => .fault .bulletAfterAnswer
  | .question true false => filterReading text
  | .question false false => .item (.wording text)

/-- The reading of a line below a chapter. -/
def reading (file : String) (c : Chapter) (l : Line) : Reading :=
  if c.inAnswer then
    if l.kind = .fence then .item (.answer c.answerText) else .silent
  else
    match l.kind with
    | .modelInfo directive => .info { directive, prov := l.prov file }
    | .bullet text => c.bulletReading file l text
    | .filterHeader => if c.isQuestion then .silent else .fault .strayFilters
    | .fence => if c.isQuestion && c.fences == 0 then .silent else .fault .strayFence
    | .other => .fault (.invalidLine (Text.trim l.raw))
    | _ => .silent

end Chapter

namespace Reading

/-- The directive that a line is. -/
def info? : Reading → Option Section
  | .info i => some (.modelInfo i)
  | _ => none

/-- The item that a line gives, unless the chapter has been interrupted. -/
def kept? (interrupted : Bool) : Reading → Option Item
  | .item i => if interrupted then none else some i
  | _ => none

/-- The diagnostic about a line. -/
def report? (number : Nat) : Reading → Option Diagnostic
  | .fault f => some ⟨.error, .invalidLine, number, f.message⟩
  | _ => none

end Reading

namespace Chapter

/-! ## What a chapter amounts to -/

/-- The section that the header opens, as it is before the lines below it. -/
def blank (file : String) (c : Chapter) : Option Section :=
  c.header.bind fun h =>
    match h.kind with
    | .intentHeader name => some (.intent { name, prov := h.prov file })
    | .questionHeader question =>
      some (.question { questions := [question], prov := h.prov file })
    | .newEntity text =>
      match Entity.Header.read text with
      | .ok header => some (.newEntity (header.toSection (h.prov file)))
      | .error _ => none
    | .legacyEntity name typeString =>
      some (.legacyEntity { name, typeString, prov := h.prov file })
    | .importLink description path => some (.importLink { description, path, prov := h.prov file })
    | _ => none

/-- The items that the lines give to the section of the chapter and that reach it. -/
def items (file : String) (c : Chapter) : List Item :=
  c.trail.filterMap fun (before, l) => (before.reading file l).kept? before.interrupted

/-- The directives below the header. -/
def infos (file : String) (c : Chapter) : List Section :=
  c.trail.filterMap fun (before, l) => (before.reading file l).info?

/-- The section that the header opens, with the items that reach it. -/
def opened (file : String) (c : Chapter) : Option Section :=
  (c.blank file).map fun s => (c.items file).foldl Section.add s

/-- The sections of a chapter: that of its header, and its directives. -/
def sections (file : String) (c : Chapter) : List Section :=
  (c.opened file).toList ++ c.infos file

/-- The diagnostic about the header. -/
def headerReport? (c : Chapter) : Option Diagnostic :=
  c.header.bind fun h =>
    match h.kind with
    | .newEntity text =>
      match Entity.Header.read text with
      | .ok _ => none
      | .error fault => some ⟨.error, .invalidLine, h.number, (Fault.header fault).message⟩
    | _ => none

/-- The errors in the lines of a chapter. -/
def lineErrors (file : String) (c : Chapter) : List Diagnostic :=
  c.headerReport?.toList ++
    c.trail.filterMap fun (before, l) => (before.reading file l).report? l.number

/-- The number of the line that opens the answer. -/
def fenceNumber (c : Chapter) : Nat :=
  ((c.body.find? fun l => decide (l.kind = .fence)).map Line.number).getD 0

/-- The error at the end of a chapter: an answer is not closed, or a question has none.  The lack of
an answer goes unnoticed in a chapter that has been interrupted. -/
def endError? (c : Chapter) : Option Diagnostic :=
  match c.header with
  | some ⟨.questionHeader question, number, _⟩ =>
    if c.fences = 0 then
      if c.interrupted then none
      else some ⟨.error, .invalidLine, number, (Fault.noAnswer question).message⟩
    else if c.fences = 1 then
      some ⟨.error, .invalidLine, c.fenceNumber, Fault.unterminatedAnswer.message⟩
    else none
  | _ => none

/-- The errors of a chapter. -/
def errors (file : String) (c : Chapter) : List Diagnostic :=
  c.lineErrors file ++ c.endError?.toList

/-- The fence that the end of the source stands for. -/
def endFence : Line where
  kind := .fence
  number := 0
  raw := ""

/-- A chapter at the end of the source: an answer that is still open ends there, as if a fence
followed. -/
def ended (c : Chapter) : Chapter :=
  if c.inAnswer then c.add endFence else c

end Chapter

/-! ## Cutting a source into chapters -/

/-- The chapters of the lines read so far, of which the last is open. -/
structure Outline where
  closed : List Chapter := []
  current : Chapter := {}
  deriving DecidableEq, Repr

/-- Takes a line: a header outside an answer opens a chapter. -/
def Outline.step (o : Outline) (l : Line) : Outline :=
  if l.kind.isHeader && !o.current.inAnswer then
    { closed := o.closed ++ [o.current], current := { header := some l } }
  else { o with current := o.current.add l }

/-- The outline of a list of lines. -/
def outline (lines : List Line) : Outline :=
  lines.foldl Outline.step {}

/-- The chapters of a list of lines. -/
def chapters (lines : List Line) : List Chapter :=
  (outline lines).closed ++ [(outline lines).current]

/-! ## One more line

Everything about a chapter is a fold over its trail, so it is enough to know what one more line
changes.  The lemmas below are all that the theory uses of the definitions by trail. -/

namespace Chapter

variable {file : String} {c : Chapter} {l : Line}

/-- What holds of a header alone and is kept by every line holds of a chapter. -/
lemma induction {motive : Chapter → Prop} (hheader : ∀ h, motive { header := h })
    (hadd : ∀ c l, motive c → motive (c.add l)) (c : Chapter) : motive c := by
  obtain ⟨h, body⟩ := c
  induction body using List.reverseRecOn with
  | nil => exact hheader h
  | append_singleton body l ih => exact hadd ⟨h, body⟩ l ih

lemma trailFrom_append (c : Chapter) (ls ms : List Line) :
    c.trailFrom (ls ++ ms) =
      c.trailFrom ls ++ trailFrom { c with body := c.body ++ ls } ms := by
  induction ls generalizing c with
  | nil => simp [trailFrom]
  | cons l ls ih => simp [trailFrom, ih, add]

lemma trail_add (c : Chapter) (l : Line) : (c.add l).trail = c.trail ++ [(c, l)] := by
  simp [trail, add, trailFrom_append, trailFrom]

lemma trail_header (h : Option Line) : ({ header := h } : Chapter).trail = [] := rfl

@[simp] lemma header_add : (c.add l).header = c.header := rfl

@[simp] lemma isQuestion_add : (c.add l).isQuestion = c.isQuestion := rfl

@[simp] lemma opens_add : (c.add l).opens = c.opens := rfl

@[simp] lemma blank_add : (c.add l).blank file = c.blank file := rfl

@[simp] lemma headerReport?_add : (c.add l).headerReport? = c.headerReport? := rfl

lemma fences_add : (c.add l).fences = c.fences + if l.kind = .fence then 1 else 0 := by
  simp [fences, add, List.countP_cons]

lemma filtering_add :
    (c.add l).filtering = (c.filtering || (!c.inAnswer && decide (l.kind = .filterHeader))) := by
  simp [filtering, trail_add]

lemma interrupted_add :
    (c.add l).interrupted = (c.interrupted || (!c.inAnswer && l.kind.isModelInfo)) := by
  simp [interrupted, trail_add]

lemma answerLines_add :
    (c.add l).answerLines =
      c.answerLines ++ if c.inAnswer ∧ l.kind ≠ .fence then [l.raw] else [] := by
  by_cases h : c.inAnswer = true ∧ l.kind ≠ .fence
  · simp [answerLines, trail_add, h]
  · simp only [answerLines, trail_add, List.filterMap_append, if_neg h]
    congr 1
    simpa using h

lemma items_add :
    (c.add l).items file =
      c.items file ++ ((c.reading file l).kept? c.interrupted).toList := by
  simp [items, trail_add, List.filterMap_eq_flatMap_toList]

lemma infos_add :
    (c.add l).infos file = c.infos file ++ (c.reading file l).info?.toList := by
  simp [infos, trail_add, List.filterMap_eq_flatMap_toList]

lemma lineErrors_add :
    (c.add l).lineErrors file =
      c.lineErrors file ++ ((c.reading file l).report? l.number).toList := by
  simp [lineErrors, trail_add, List.filterMap_eq_flatMap_toList]

lemma fences_eq_zero_iff :
    c.fences = 0 ↔ c.body.find? (fun l => decide (l.kind = .fence)) = none := by
  simp [fences, List.countP_eq_zero]

/-- Only the first fence below a header gives the number. -/
lemma fenceNumber_add :
    (c.add l).fenceNumber =
      if c.fences = 0 ∧ l.kind = .fence then l.number else c.fenceNumber := by
  simp only [fences_eq_zero_iff]
  cases hfind : c.body.find? (fun l => decide (l.kind = .fence)) with
  | none =>
      by_cases hl : l.kind = .fence
      · simp [fenceNumber, add, List.find?_append, hfind, hl]
      · simp [fenceNumber, add, List.find?_append, hfind, hl]
  | some x => simp [fenceNumber, add, List.find?_append, hfind]

end Chapter

/-! ## The cut -/

/-- A list of lines cut into chapters: every header outside an answer opens one, and no other line
does. -/
structure IsCut (lines : List Line) (cs : List Chapter) : Prop where
  lines_eq : cs.flatMap Chapter.lines = lines
  header_isSome : ∀ c ∈ cs.tail, c.header.isSome
  isHeader : ∀ c ∈ cs, ∀ h ∈ c.header, h.kind.isHeader
  inAnswer_of_isHeader : ∀ c ∈ cs, ∀ p ∈ c.trail, p.2.kind.isHeader → p.1.inAnswer
  not_inAnswer : ∀ c ∈ cs.dropLast, c.inAnswer = false

namespace IsCut

variable {lines : List Line} {cs : List Chapter} {c : Chapter} {l : Line}

/-- A header outside an answer opens a chapter. -/
lemma opening (h : IsCut lines (cs ++ [c])) (hheader : l.kind.isHeader)
    (hout : c.inAnswer = false) : IsCut (lines ++ [l]) (cs ++ [c] ++ [{ header := some l }]) where
  lines_eq := by
    rw [List.flatMap_append, h.lines_eq]
    simp [Chapter.lines]
  header_isSome := by
    intro d hd
    rw [List.tail_append_of_ne_nil (by simp)] at hd
    rcases List.mem_append.mp hd with hd | hd
    · exact h.header_isSome d hd
    · simp_all
  isHeader := by
    intro d hd
    rcases List.mem_append.mp hd with hd | hd
    · exact h.isHeader d hd
    · simp_all
  inAnswer_of_isHeader := by
    intro d hd
    rcases List.mem_append.mp hd with hd | hd
    · exact h.inAnswer_of_isHeader d hd
    · simp_all [Chapter.trail_header]
  not_inAnswer := by
    intro d hd
    rw [List.dropLast_concat] at hd
    rcases List.mem_append.mp hd with hd | hd
    · exact h.not_inAnswer d (by rwa [List.dropLast_concat])
    · simp_all

/-- Every other line goes to the last chapter. -/
lemma extension (h : IsCut lines (cs ++ [c])) (hline : l.kind.isHeader → c.inAnswer) :
    IsCut (lines ++ [l]) (cs ++ [c.add l]) where
  lines_eq := by
    rw [← h.lines_eq]
    simp [Chapter.lines, Chapter.add]
  header_isSome := by
    intro d hd
    have hsome := h.header_isSome
    cases cs with
    | nil => simp at hd
    | cons b cs =>
        rcases List.mem_append.mp hd with hd | hd
        · exact hsome d (by simp [hd])
        · obtain rfl := List.mem_singleton.mp hd
          exact hsome c (by simp)
  isHeader := by
    intro d hd
    rcases List.mem_append.mp hd with hd | hd
    · exact h.isHeader d (by simp [hd])
    · obtain rfl := List.mem_singleton.mp hd
      exact h.isHeader c (by simp)
  inAnswer_of_isHeader := by
    intro d hd
    rcases List.mem_append.mp hd with hd | hd
    · exact h.inAnswer_of_isHeader d (by simp [hd])
    · obtain rfl := List.mem_singleton.mp hd
      intro p hp
      rw [Chapter.trail_add] at hp
      rcases List.mem_append.mp hp with hp | hp
      · exact h.inAnswer_of_isHeader c (by simp) p hp
      · obtain rfl := List.mem_singleton.mp hp
        exact hline
  not_inAnswer := by
    intro d hd
    rw [List.dropLast_concat] at hd
    exact h.not_inAnswer d (by rwa [List.dropLast_concat])

end IsCut

lemma outline_concat (lines : List Line) (l : Line) :
    outline (lines ++ [l]) = (outline lines).step l := by
  simp [outline]

lemma isCut_chapters (lines : List Line) : IsCut lines (chapters lines) := by
  induction lines using List.reverseRecOn with
  | nil => constructor <;> simp [chapters, outline, Chapter.lines, Chapter.trail_header]
  | append_singleton lines l ih =>
      rw [chapters, outline_concat, Outline.step]
      split_ifs with hopen
      · simp only [Bool.and_eq_true, Bool.not_eq_true'] at hopen
        exact ih.opening hopen.1 hopen.2
      · simp only [Bool.and_eq_true, Bool.not_eq_true', not_and, Bool.not_eq_false] at hopen
        exact ih.extension hopen

end Document

end DialogModel
