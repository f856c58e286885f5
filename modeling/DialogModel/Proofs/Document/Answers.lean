import Mathlib.Data.List.Forall2
import DialogModel.Proofs.Document.FrontEnd

/-!
# The answers of a document

The first fence below a question opens its answer and the second closes it; what stands between the
two is the answer, as written.  This file finds the block in the chapter of a question and compares
it with what the section of the chapter stores.  In a document without errors every question has its
block, and the section stores it, unless a directive stands above the block (`Chapter.hindered`):
the block is then read and thrown away, or there need not be one at all.
-/

namespace DialogModel

/-- The question that a section is. -/
def Section.question? : Section → Option QuestionSection
  | .question q => some q
  | _ => none

lemma Section.isSome_question?_foldl_add (items : List Section.Item) (s : Section) :
    (items.foldl Section.add s).question?.isSome = s.question?.isSome := by
  induction items generalizing s with
  | nil => rfl
  | cons i items ih =>
      rw [List.foldl_cons, ih]
      cases i <;> cases s <;> rfl

namespace Document

open Section (Item)

namespace Chapter

variable {file : String} {c : Chapter} {l : Line} {n : Nat}

/-- The lines below the header with `n` fences above them, without the fences. -/
def segment (n : Nat) (c : Chapter) : List Line :=
  c.trail.filterMap fun (before, l) =>
    if before.fences = n ∧ l.kind ≠ .fence then some l else none

/-- Whether a directive stands above the first fence. -/
def hindered (c : Chapter) : Bool :=
  (c.segment 0).any fun l => l.kind.isModelInfo

/-- The text of an answer, given its lines. -/
def answerOf (block : List Line) : String :=
  Text.trim (String.intercalate "\n" (block.map Line.raw))

/-- A block has been opened and closed below the header, and its text is the answer. -/
def Answered (c : Chapter) (q : QuestionSection) : Prop :=
  ∃ above opening block closing below,
    c.body = above ++ opening :: (block ++ closing :: below) ∧
    (∀ l ∈ above, l.kind ≠ .fence) ∧ opening.kind = .fence ∧
    (∀ l ∈ block, l.kind ≠ .fence) ∧ closing.kind = .fence ∧
    q.answer = answerOf block

/-! ## The block -/

lemma segment_add :
    (c.add l).segment n =
      c.segment n ++ if c.fences = n ∧ l.kind ≠ .fence then [l] else [] := by
  rw [segment, trail_add, List.filterMap_append]
  congr 1
  split_ifs with h
  · simp [h]
  · simpa using h

lemma not_fence_of_mem_segment (h : l ∈ c.segment n) : l.kind ≠ .fence := by
  obtain ⟨⟨before, l'⟩, -, hl⟩ := List.mem_filterMap.mp h
  dsimp only at hl
  split_ifs at hl with hcond
  obtain rfl := Option.some.inj hl
  exact hcond.2

lemma segment_eq_nil (h : c.fences < n) : c.segment n = [] := by
  induction c using Chapter.induction with
  | hheader hh => rfl
  | hadd c l ih =>
      rw [fences_add] at h
      have hlt : c.fences < n := by omega
      have hne : c.fences ≠ n := by omega
      simp [segment_add, ih hlt, hne]

/-- The fences divide a chapter. -/
lemma body_eq (c : Chapter) :
    (c.fences = 0 → c.body = c.segment 0) ∧
    (c.fences = 1 → ∃ opening, opening.kind = .fence ∧
      c.body = c.segment 0 ++ opening :: c.segment 1) ∧
    (2 ≤ c.fences → ∃ opening closing below, opening.kind = .fence ∧ closing.kind = .fence ∧
      c.body = c.segment 0 ++ opening :: (c.segment 1 ++ closing :: below)) := by
  induction c using Chapter.induction with
  | hheader hh =>
      refine ⟨fun _ => rfl, ?_, ?_⟩ <;> intro h <;> simp [fences] at h
  | hadd c l ih =>
      obtain ⟨hzero, hone, htwo⟩ := ih
      have hbody : (c.add l).body = c.body ++ [l] := rfl
      by_cases hl : l.kind = .fence
      · have hkeep (n : Nat) : (c.add l).segment n = c.segment n := by simp [segment_add, hl]
        simp only [fences_add, hl, if_true, hkeep, hbody]
        refine ⟨by omega, ?_, ?_⟩
        · intro h
          have hc : c.fences = 0 := by omega
          refine ⟨l, hl, ?_⟩
          rw [hzero hc, segment_eq_nil (n := 1) (by omega)]
        · intro h
          by_cases hc : c.fences = 1
          · obtain ⟨opening, hopening, heq⟩ := hone hc
            exact ⟨opening, l, [], hopening, hl, by simp [heq]⟩
          · obtain ⟨opening, closing, below, hopening, hclosing, heq⟩ := htwo (by omega)
            exact ⟨opening, closing, below ++ [l], hopening, hclosing, by simp [heq]⟩
      · simp only [fences_add, hl, if_false, Nat.add_zero, segment_add, hbody]
        refine ⟨?_, ?_, ?_⟩
        · intro h
          simp [h, hl, ← hzero h]
        · intro h
          obtain ⟨opening, hopening, heq⟩ := hone h
          exact ⟨opening, hopening, by simp [h, hl, heq]⟩
        · intro h
          obtain ⟨opening, closing, below, hopening, hclosing, heq⟩ := htwo h
          refine ⟨opening, closing, below ++ [l], hopening, hclosing, ?_⟩
          have hne : c.fences ≠ 0 ∧ c.fences ≠ 1 := by omega
          simp [hne, heq]

/-! ## The answer -/

lemma inAnswer_eq_of_isQuestion (hq : c.isQuestion) : c.inAnswer = decide (c.fences = 1) := by
  simp [inAnswer, hq, Bool.beq_eq_decide_eq]

/-- The answer that is read is the block. -/
lemma answerLines_eq (hq : c.isQuestion) : c.answerLines = (c.segment 1).map Line.raw := by
  induction c using Chapter.induction with
  | hheader hh => rfl
  | hadd c l ih =>
      rw [isQuestion_add] at hq
      rw [answerLines_add, segment_add, ih hq, inAnswer_eq_of_isQuestion hq, List.map_append]
      congr 1
      split_ifs <;> simp_all

/-- Up to the end of the answer a directive is one above the block. -/
lemma interrupted_eq_hindered (hq : c.isQuestion) (h : c.fences ≤ 1) :
    c.interrupted = c.hindered := by
  induction c using Chapter.induction with
  | hheader hh => rfl
  | hadd c l ih =>
      rw [isQuestion_add] at hq
      rw [fences_add] at h
      have hc : c.fences ≤ 1 := by omega
      rw [interrupted_add, ih hq hc, inAnswer_eq_of_isQuestion hq]
      by_cases hone : c.fences = 1
      · simp [hindered, segment_add, hone]
      · have hzero : c.fences = 0 := by omega
        by_cases hl : l.kind = .fence
        · simp [hindered, segment_add, hl, LineKind.isModelInfo]
        · simp [hindered, segment_add, hzero, hl]

lemma hindered_add_of_fences (h : c.fences ≠ 0) : (c.add l).hindered = c.hindered := by
  simp [hindered, segment_add, h]

/-- Outside an answer no line gives one. -/
lemma filterMap_answer?_kept (hin : c.inAnswer = false) :
    ((c.reading file l).kept? c.interrupted).toList.filterMap Item.answer? = [] := by
  cases hr : c.reading file l with
  | silent | info | fault => rfl
  | item i =>
      obtain ⟨hin', -, -⟩ | ⟨-, text, -, hbullet⟩ := reading_eq_item hr
      · simp [hin] at hin'
      · obtain ⟨-, nodes, rfl⟩ | ⟨-, rfl⟩ | ⟨-, rfl⟩ | ⟨-, filter, rfl⟩ :=
          bulletReading_eq_item hbullet <;> cases c.interrupted <;> rfl

/-- **The section of a question is given its block, unless the block is hindered.** -/
lemma answers_eq (file : String) (hq : c.isQuestion) :
    (c.items file).filterMap Item.answer? =
      if 2 ≤ c.fences ∧ c.hindered = false then [answerOf (c.segment 1)] else [] := by
  induction c using Chapter.induction with
  | hheader hh => rfl
  | hadd c l ih =>
      rw [isQuestion_add] at hq
      rw [items_add, List.filterMap_append, ih hq]
      cases hin : c.inAnswer with
      | true =>
          have hone : c.fences = 1 := (inAnswer_iff.mp hin).2
          have hint : c.interrupted = c.hindered := interrupted_eq_hindered hq (by omega)
          have htext : c.answerText = answerOf (c.segment 1) := by
            rw [answerText, answerOf, answerLines_eq hq]
          have hhindered : (c.add l).hindered = c.hindered :=
            hindered_add_of_fences (by omega)
          by_cases hl : l.kind = .fence
          · cases hh : c.hindered <;>
              simp [reading, hin, hl, hone, htext, hint, hhindered, hh, Reading.kept?, Item.answer?,
                fences_add, segment_add]
          · simp [reading, hin, hl, hone, Reading.kept?, fences_add]
      | false =>
          have hne : c.fences ≠ 1 := by
            simpa [inAnswer_eq_of_isQuestion hq] using hin
          rw [filterMap_answer?_kept hin, List.append_nil, fences_add]
          by_cases hzero : c.fences = 0
          · have hlt : ¬ 2 ≤ c.fences := by omega
            have hlt' : ¬ 2 ≤ c.fences + if l.kind = .fence then 1 else 0 := by
              split_ifs <;> omega
            rw [if_neg fun h => hlt h.1, if_neg fun h => hlt' h.1]
          · have hle : 2 ≤ c.fences := by omega
            have hle' : 2 ≤ c.fences + if l.kind = .fence then 1 else 0 := by omega
            simp [hle, hle', hne, segment_add, hindered_add_of_fences hzero]

/-! ## The questions of a document -/

/-- The question of a chapter. -/
def question? (file : String) (c : Chapter) : Option QuestionSection :=
  (c.ended.opened file).bind Section.question?

lemma filterMap_question?_infos : (c.infos file).filterMap Section.question? = [] := by
  rw [List.filterMap_eq_nil_iff]
  intro x hx
  obtain ⟨info, rfl⟩ := exists_modelInfo_of_mem_infos hx
  rfl

lemma filterMap_question?_sections :
    (c.ended.sections file).filterMap Section.question? = (c.question? file).toList := by
  rw [sections, List.filterMap_append, filterMap_question?_infos, List.append_nil, question?]
  cases c.ended.opened file with
  | none => rfl
  | some s => cases s <;> rfl

lemma question?_of_not_isQuestion (h : c.isQuestion = false) : c.question? file = none := by
  have hended : c.ended = c := by simp [ended, inAnswer, h]
  rw [question?, hended, opened]
  cases hblank : c.blank file with
  | none => rfl
  | some s =>
      have hnone : s.question? = none := by
        obtain ⟨hh, hheader, hs⟩ := Option.bind_eq_some_iff.mp hblank
        cases s with
        | question q =>
            cases hkind : hh.kind with
            | questionHeader question => simp [isQuestion, hheader, hkind] at h
            | newEntity text => cases hread : Entity.Header.read text <;> simp [hkind, hread] at hs
            | _ => simp [hkind] at hs
        | modelInfo | importLink | intent | newEntity | legacyEntity => rfl
      rw [Option.map_some, Option.bind_some, ← Option.not_isSome_iff_eq_none,
        Section.isSome_question?_foldl_add, hnone]
      simp

/-- In a chapter without errors the question stores its block, unless it is hindered. -/
lemma exists_question (hq : c.isQuestion) (herrors : c.errors file = []) :
    ∃ q, c.question? file = some q ∧
      (∃ hh ∈ c.header, q.prov = hh.prov file ∧
        hh.kind = .questionHeader (q.questions.headD "")) ∧
      (c.hindered = false → c.Answered q) ∧ (c.hindered → q.answer = "") := by
  obtain ⟨question, number, raw, hheader⟩ := exists_question_of_isQuestion hq
  have hend : c.endError? = none := by simpa [errors] using (List.append_eq_nil_iff.mp herrors).2
  simp only [endError?, hheader] at hend
  have hone : c.fences ≠ 1 := by
    intro hone
    simp [hone] at hend
  have hended : c.ended = c := by simp [ended, inAnswer, hone]
  refine ⟨_, by rw [question?, hended, opened_of_questionHeader hheader]; rfl,
    ⟨_, hheader, rfl, rfl⟩, ?_, ?_⟩
  · intro hfree
    have htwo : 2 ≤ c.fences := by
      by_contra hlt
      have hzero : c.fences = 0 := by omega
      have hint := interrupted_eq_hindered hq (by omega)
      simp [hzero, hint, hfree] at hend
    obtain ⟨opening, closing, below, hopening, hclosing, hbody⟩ := (body_eq c).2.2 htwo
    refine ⟨_, opening, _, closing, below, hbody, fun l hl => not_fence_of_mem_segment hl, hopening,
      fun l hl => not_fence_of_mem_segment hl, hclosing, ?_⟩
    simp [answers_eq file hq, htwo, hfree]
  · intro hhindered
    simp [answers_eq file hq, hhindered]

end Chapter

variable {file : String} {lines : List Line}

lemma errors_eq_nil_iff {d : Document} : d.errors = [] ↔ d.hasErrors = false := by
  simp [errors, hasErrors, List.filter_eq_nil_iff]

lemma filterMap_question?_ofLines :
    (ofLines file lines).sections.filterMap Section.question? =
      (chapters lines).filterMap (Chapter.question? file) := by
  rw [ofLines_sections, List.filterMap_flatMap, List.filterMap_eq_flatMap_toList]
  exact List.flatMap_congr fun c _ => Chapter.filterMap_question?_sections

/-- The k-th question below belongs to the k-th header of a question, and stores its answer. -/
lemma forall₂_questions (h : (ofLines file lines).hasErrors = false) :
    List.Forall₂ (fun c q =>
        (∃ hh ∈ c.header, q.prov = hh.prov file ∧
          hh.kind = .questionHeader (q.questions.headD "")) ∧
        (c.hindered = false → Chapter.Answered c q) ∧ (c.hindered → q.answer = ""))
      ((chapters lines).filter Chapter.isQuestion)
      ((ofLines file lines).sections.filterMap Section.question?) := by
  rw [← errors_eq_nil_iff, ofLines_errors, List.flatMap_eq_nil_iff] at h
  rw [filterMap_question?_ofLines]
  revert h
  induction chapters lines with
  | nil => exact fun _ => .nil
  | cons c cs ih =>
      intro h
      have hcs := ih fun c' hc' => h c' (List.mem_cons_of_mem _ hc')
      cases hq : c.isQuestion with
      | false =>
          rw [List.filter_cons_of_neg (by simp [hq]),
            List.filterMap_cons_none (Chapter.question?_of_not_isQuestion hq)]
          exact hcs
      | true =>
          obtain ⟨q, hsome, hspec⟩ := Chapter.exists_question hq (h c List.mem_cons_self)
          rw [List.filter_cons_of_pos hq, List.filterMap_cons_some hsome]
          exact .cons hspec hcs

end Document

end DialogModel
