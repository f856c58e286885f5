import Mathlib.Data.List.Flatten
import DialogModel.Proofs.Document.FrontEnd

/-!
# Joining two sources

A header ends everything that stands above it: the lines from a header on are read as if they were
a source of their own.  Of the state that the front end carries from line to line, a header outside
an answer keeps the sections and the diagnostics only, and both are by chapters.  The chapters of
two sources in a row are therefore those of the first and then those of the second
(`exists_chapters_append`), as long as the first ends outside an answer and the second starts with a
header.

Sections and errors follow from `ofLines_sections` and `ofLines_errors`.  Warnings come from two
places, from a header with a clause that is ignored and from the end of the file, which looks for
empty intents; this is why their order is not kept.
-/

namespace DialogModel.Document

/-! ## Chapters -/

/-- The chapters that are closed do not matter to the lines that follow. -/
lemma Outline.foldl_step_closed (lines : List Line) (before : List Chapter) (o : Outline) :
    lines.foldl Outline.step { o with closed := before ++ o.closed } =
      { lines.foldl Outline.step o with
        closed := before ++ (lines.foldl Outline.step o).closed } := by
  induction lines generalizing o with
  | nil => rfl
  | cons l lines ih =>
      have hstep : Outline.step { o with closed := before ++ o.closed } l =
          { o.step l with closed := before ++ (o.step l).closed } := by
        unfold Outline.step
        split_ifs
        · simp
        · rfl
      rw [List.foldl_cons, hstep, ih, List.foldl_cons]

lemma Outline.step_header {o : Outline} {l : Line} (hheader : l.kind.isHeader)
    (hout : o.current.inAnswer = false) :
    o.step l = { closed := o.closed ++ [o.current], current := { header := some l } } := by
  simp [Outline.step, hheader, hout]

/-- **A header outside an answer opens the chapters of a new source.** -/
lemma exists_chapters_append {first second : List Line}
    (hout : (outline first).current.inAnswer = false)
    (hheader : ∃ l ∈ second.head?, l.kind.isHeader) :
    ∃ cs, chapters second = {} :: cs ∧ chapters (first ++ second) = chapters first ++ cs := by
  obtain ⟨l, hl, hkind⟩ := hheader
  obtain ⟨rest, rfl⟩ : ∃ rest, second = l :: rest := by
    cases second with
    | nil => cases hl
    | cons l' rest => exact ⟨rest, by rw [Option.some.inj hl]⟩
  -- What the lines below the header come to, whatever has been closed before.
  set o := rest.foldl Outline.step { closed := [], current := { header := some l } }
  have hfrom (before : List Chapter) :
      rest.foldl Outline.step { closed := before, current := { header := some l } } =
        { o with closed := before ++ o.closed } := by
    simpa using Outline.foldl_step_closed rest before
      { closed := [], current := { header := some l } }
  have hsecond : outline (l :: rest) = { o with closed := [{}] ++ o.closed } := by
    rw [outline, List.foldl_cons, Outline.step_header hkind rfl]
    exact hfrom [{}]
  have hboth : outline (first ++ l :: rest) = { o with closed := chapters first ++ o.closed } := by
    rw [outline, List.foldl_append, List.foldl_cons, ← outline, Outline.step_header hkind hout]
    exact hfrom (chapters first)
  refine ⟨o.closed ++ [o.current], ?_, ?_⟩
  · rw [chapters, hsecond]
    rfl
  · rw [chapters, hboth, List.append_assoc]

/-! ## Warnings -/

/-- The warning about the header of a chapter: it has a clause that is ignored. -/
def Chapter.headerNotice? (c : Chapter) : Option Diagnostic :=
  c.header.bind fun h =>
    match h.kind with
    | .newEntity text =>
      match Entity.Header.read text with
      | .ok header =>
        header.ignored.map fun clause => ⟨.warn, .invalidLine, h.number, clause.message⟩
      | .error _ => none
    | _ => none

namespace State

/-- The warnings reported so far. -/
def warnings (s : State) : List Diagnostic :=
  s.diagnostics.filter (!·.isError)

variable {file : String} {s : State} {c : Chapter} {l : Line}

@[simp]
lemma warnings_fault (s : State) (line : Nat) (f : Fault) :
    (s.fault line f).warnings = s.warnings := by
  simp [warnings, fault, Diagnostic.isError]

@[simp]
lemma warnings_warn (s : State) (line : Nat) (message : String) :
    (s.warn line message).warnings = s.warnings ++ [⟨.warn, .invalidLine, line, message⟩] := by
  simp [warnings, warn, Diagnostic.isError]

@[simp]
lemma warnings_push (s : State) (sec : Section) : (s.push sec).warnings = s.warnings :=
  rfl

/-- Leaving a section may report an error and no warning. -/
@[simp]
lemma warnings_enter (s : State) (place : Place) : (s.enter place).warnings = s.warnings := by
  have hclose : s.closeQuestion.warnings = s.warnings := by
    unfold closeQuestion
    split
    · exact warnings_fault s _ _
    · rfl
  exact hclose

lemma warnings_advance (file : String) (s : State) (c : Chapter) (l : Line) :
    (s.advance file c l).warnings = s.warnings := by
  have htake : (s.take l.number (c.reading file l)).warnings = s.warnings := by
    cases c.reading file l with
    | silent => rfl
    | info i => rfl
    | item i => rfl
    | fault f => exact warnings_fault s l.number f
  exact htake

/-- A header gives the warning about itself. -/
lemma warnings_step_header (hnone : s.answer = none) (hheader : l.kind.isHeader) :
    (s.step file l).warnings =
      s.warnings ++ (Chapter.headerNotice? { header := some l }).toList := by
  simp only [step, hnone, stepOutside]
  cases hkind : l.kind with
  | blank | comment | modelInfo | bullet | filterHeader | fence | other =>
      simp [hkind, LineKind.isHeader] at hheader
  | intentHeader | questionHeader | legacyEntity | importLink =>
      simp [Chapter.headerNotice?, hkind]
  | newEntity text =>
      cases hread : Entity.Header.read text with
      | error fault => simp [newEntity, hread, Chapter.headerNotice?, hkind]
      | ok header =>
          cases hignored : header.ignored with
          | none => simp [newEntity, hread, Chapter.headerNotice?, hkind, hignored]
          | some clause => simp [newEntity, hread, Chapter.headerNotice?, hkind, hignored]

end State

namespace Follows

variable {file : String} {o : Outline} {s : State} {l : Line}

/-- A line adds the warning about a chapter if it opens one. -/
lemma warnings_step (h : Follows file o s)
    (hs : s.warnings = (o.closed ++ [o.current]).filterMap Chapter.headerNotice?) (l : Line) :
    (s.step file l).warnings =
      ((o.step l).closed ++ [(o.step l).current]).filterMap Chapter.headerNotice? := by
  rw [Outline.step]
  split_ifs with hopen
  · simp only [Bool.and_eq_true, Bool.not_eq_true'] at hopen
    have hnone : s.answer = none := by rw [h.answer, Chapter.openAnswer_eq_none hopen.2]
    rw [State.warnings_step_header hnone hopen.1, hs]
    simp [List.filterMap_eq_flatMap_toList]
  · have hline : l.kind.isHeader → o.current.inAnswer := by simpa using hopen
    have hsame : (o.current.add l).headerNotice? = o.current.headerNotice? := rfl
    rw [State.step_eq_advance h.place h.answer hline, State.warnings_advance, hs]
    simp only [List.filterMap_append, List.filterMap_cons, hsame]

end Follows

lemma warnings_run (file : String) (lines : List Line) :
    (lines.foldl (State.step file) {}).warnings =
      (chapters lines).filterMap Chapter.headerNotice? := by
  induction lines using List.reverseRecOn with
  | nil => rfl
  | append_singleton lines l ih =>
      rw [List.foldl_concat, (Follows.run file lines).warnings_step ih, chapters, outline_concat]

lemma State.warnings_finish (s : State) : s.finish.warnings = s.warnings := by
  unfold State.finish
  cases s.answer with
  | none => simp
  | some answer =>
      rw [State.warnings_enter]
      exact State.warnings_fault s answer.fence .unterminatedAnswer

/-- **The warnings of a document are those about its headers and then those about its empty
intents.** -/
lemma ofLines_warnings (file : String) (lines : List Line) :
    (ofLines file lines).warnings =
      (chapters lines).filterMap Chapter.headerNotice? ++
        (ofLines file lines).sections.filterMap emptyIntent? := by
  have hempty (ss : List Section) :
      (ss.filterMap emptyIntent?).filter (!·.isError) = ss.filterMap emptyIntent? := by
    rw [List.filter_eq_self]
    intro d hd
    simp [isError_of_mem_emptyIntents hd]
  rw [← warnings_run file lines, ← State.warnings_finish, warnings, ofLines, List.filter_append,
    hempty]
  rfl

/-! ## Two sources in a row -/

lemma inAnswer_of_answer {file : String} {lines : List Line}
    (h : (lines.foldl (State.step file) {}).answer = none) :
    (outline lines).current.inAnswer = false := by
  have hanswer := (Follows.run file lines).answer
  rw [h, Chapter.openAnswer] at hanswer
  split_ifs at hanswer with hin
  simpa using hin

/-- **Sections are read independently of each other.**  If the first source does not end inside an
answer and the second starts with a header, the two in a row have the sections of the first and then
those of the second, and likewise the errors.  The warnings are those of both, in some order. -/
theorem joined_read_apart (file : String) (first second : List Line)
    (hclosed : (first.foldl (State.step file) {}).answer = none)
    (hheader : ∃ l ∈ second.head?, l.kind.isHeader) :
    (ofLines file (first ++ second)).sections =
        (ofLines file first).sections ++ (ofLines file second).sections ∧
      (ofLines file (first ++ second)).errors =
        (ofLines file first).errors ++ (ofLines file second).errors ∧
      (ofLines file (first ++ second)).warnings.Perm
        ((ofLines file first).warnings ++ (ofLines file second).warnings) := by
  obtain ⟨cs, hsecond, hboth⟩ := exists_chapters_append (inAnswer_of_answer hclosed) hheader
  have hsections : (ofLines file (first ++ second)).sections =
      (ofLines file first).sections ++ (ofLines file second).sections := by
    simp only [ofLines_sections, hsecond, hboth, List.flatMap_append, List.flatMap_cons]
    rfl
  refine ⟨hsections, ?_, ?_⟩
  · simp only [ofLines_errors, hsecond, hboth, List.flatMap_append, List.flatMap_cons]
    rfl
  · have hnone : Chapter.headerNotice? {} = none := rfl
    rw [ofLines_warnings, ofLines_warnings, ofLines_warnings, hsections, hsecond, hboth,
      List.filterMap_append, List.filterMap_append, List.filterMap_cons_none hnone,
      List.append_assoc, List.append_assoc]
    refine List.Perm.append_left _ ?_
    rw [← List.append_assoc, ← List.append_assoc]
    exact List.Perm.append_right _ List.perm_append_comm

/-- A source with an empty intent that ends in a question without an answer. -/
def openSource : String :=
  "# greet\n# ? who are you\n- what are you\n"

/-- A source that starts with an entity whose header has a clause that is ignored. -/
def headedSource : String :=
  "@ simple city usesFeature places\n- stray\n# leave\n"

theorem joined_read_apart_openSource :
    ((ofLines "f" (Line.scan openSource ++ Line.scan headedSource)).sections =
        (ofLines "f" (Line.scan openSource)).sections ++
          (ofLines "f" (Line.scan headedSource)).sections ∧
      (ofLines "f" (Line.scan openSource ++ Line.scan headedSource)).errors =
        (ofLines "f" (Line.scan openSource)).errors ++
          (ofLines "f" (Line.scan headedSource)).errors ∧
      (ofLines "f" (Line.scan openSource ++ Line.scan headedSource)).warnings.Perm
        ((ofLines "f" (Line.scan openSource)).warnings ++
          (ofLines "f" (Line.scan headedSource)).warnings)) ∧
    (ofLines "f" (Line.scan openSource)).errors.map Diagnostic.line = [2] ∧
    (ofLines "f" (Line.scan headedSource)).errors.map Diagnostic.line = [2] ∧
    (ofLines "f" (Line.scan headedSource)).warnings.map Diagnostic.line = [1, 3] := by
  refine ⟨joined_read_apart _ _ _ (by decide +kernel) ?_, by decide +kernel⟩
  exact ⟨⟨.newEntity "simple city usesFeature places", 1, "@ simple city usesFeature places"⟩,
    by decide +kernel, rfl⟩

end DialogModel.Document
