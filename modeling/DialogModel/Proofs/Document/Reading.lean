import DialogModel.Proofs.Document.Chapter

/-!
# Readings and places

How a line of a chapter is read depends on the place that the header and the lines before it have
come to.  The lemmas here say when the place changes (`Chapter.place_add`), and that the place and
the section of a chapter go together: a line that reads as an item belongs to a chapter whose
section has room for it (`Chapter.exists_blank_of_reading`).
-/

namespace DialogModel.Document

open Section (Item)

/-! ## The place and the answer -/

namespace Chapter

variable {file : String} {c : Chapter} {l : Line}

/-- The answer that is being read. -/
def openAnswer (c : Chapter) : Option OpenAnswer :=
  if c.inAnswer then some { fence := c.fenceNumber, lines := c.answerLines } else none

lemma inAnswer_iff : c.inAnswer ↔ c.isQuestion ∧ c.fences = 1 := by
  simp [inAnswer]

lemma exists_question_of_isQuestion (h : c.isQuestion) :
    ∃ question number raw, c.header = some ⟨.questionHeader question, number, raw⟩ := by
  simp only [isQuestion] at h
  split at h
  · next heq =>
      obtain ⟨⟨kind, number, raw⟩, hheader, hkind⟩ := Option.map_eq_some_iff.mp heq
      exact ⟨_, number, raw, by rw [hheader, ← hkind]⟩
  · cases h

lemma place_of_isQuestion (h : c.isQuestion) :
    c.place = .question c.filtering (decide (2 ≤ c.fences)) := by
  obtain ⟨question, number, raw, hheader⟩ := exists_question_of_isQuestion h
  simp [place, opens, hheader]

/-- Outside a question the place is that of the header, and it is not in a question. -/
lemma place_of_not_isQuestion (h : c.isQuestion = false) :
    c.place = c.opens ∧ ∀ filters answered, c.opens ≠ .question filters answered := by
  have hopens : ∀ filters answered, c.opens ≠ .question filters answered := by
    intro filters answered
    simp only [isQuestion] at h
    simp only [opens]
    split at h
    · cases h
    · split <;> try simp
      · simp_all
      · split
        · split_ifs <;> simp
        · simp
  exact ⟨by simp only [place], hopens⟩

/-- The place changes at the heading of the filters and at the end of the answer. -/
lemma place_add (hfence : c.inAnswer → l.kind ≠ .fence)
    (hfilters : c.inAnswer = false → l.kind ≠ .filterHeader) : (c.add l).place = c.place := by
  cases hq : c.isQuestion with
  | false =>
      have hadd : (c.add l).isQuestion = false := by simpa using hq
      rw [(place_of_not_isQuestion hq).1, (place_of_not_isQuestion hadd).1, opens_add]
  | true =>
      have hadd : (c.add l).isQuestion = true := by simpa using hq
      rw [place_of_isQuestion hq, place_of_isQuestion hadd, filtering_add, fences_add]
      cases hin : c.inAnswer with
      | false =>
          have hone : c.fences ≠ 1 := by simpa [inAnswer, hq] using hin
          have htwo : (2 ≤ c.fences + if l.kind = .fence then 1 else 0) ↔ 2 ≤ c.fences := by
            split_ifs <;> omega
          simp [hfilters hin, htwo]
      | true => simp [hfence hin]

lemma place_ne_question (h : c.isQuestion = false) (filters answered : Bool) :
    c.place ≠ .question filters answered := by
  obtain ⟨hplace, hopens⟩ := place_of_not_isQuestion h
  rw [hplace]
  exact hopens filters answered

lemma openAnswer_eq_none (h : c.inAnswer = false) : c.openAnswer = none := by
  simp [openAnswer, h]

lemma openAnswer_add_of_ne (hin : c.inAnswer = false) (hfence : l.kind ≠ .fence) :
    (c.add l).openAnswer = c.openAnswer := by
  have hadd : (c.add l).inAnswer = false := by
    simpa [inAnswer, fences_add, hfence] using hin
  rw [openAnswer_eq_none hin, openAnswer_eq_none hadd]

/-- An answer has no lines before its fence. -/
lemma answerLines_eq_nil (hnone : c.fences = 0) : c.answerLines = [] := by
  induction c using Chapter.induction with
  | hheader h => rfl
  | hadd c l ih =>
      rw [fences_add] at hnone
      have hzero : c.fences = 0 := by omega
      have hin : c.inAnswer = false := by simp [inAnswer, hzero]
      simp [answerLines_add, ih hzero, hin]

/-! ## The section of a chapter and its items -/

variable {i : Item}

lemma reading_info?_isSome (file : String) :
    (c.reading file l).info?.isSome = (!c.inAnswer && l.kind.isModelInfo) := by
  cases hin : c.inAnswer with
  | true =>
      simp only [reading, hin, if_true, Bool.not_true, Bool.false_and]
      split_ifs <;> rfl
  | false =>
      simp only [reading, hin, Bool.false_eq_true, if_false]
      cases l.kind with
      | bullet text =>
          simp only [bulletReading, filterReading]
          repeat' split
          all_goals rfl
      | filterHeader | fence =>
          dsimp only
          split_ifs <;> rfl
      | _ => rfl

lemma infos_eq_nil_iff : c.infos file = [] ↔ c.interrupted = false := by
  induction c using Chapter.induction with
  | hheader h => simp [infos, interrupted, trail_header]
  | hadd c l ih =>
      rw [infos_add, interrupted_add, ← reading_info?_isSome file]
      simp [ih]

lemma exists_modelInfo_of_mem_infos {x : Section} (h : x ∈ c.infos file) :
    ∃ info, x = .modelInfo info := by
  obtain ⟨⟨before, l⟩, -, hx⟩ := List.mem_filterMap.mp h
  dsimp only at hx
  cases hr : before.reading file l with
  | info i =>
      rw [hr] at hx
      exact ⟨i, (Option.some.inj hx).symm⟩
  | silent | item | fault => simp [hr, Reading.info?] at hx

lemma blank_of_questionHeader {question raw : String} {number : Nat}
    (h : c.header = some ⟨.questionHeader question, number, raw⟩) :
    c.blank file = some (.question
      { questions := [question], prov := { file, line := number, text := raw } }) := by
  simp [blank, h, Line.prov]

lemma isQuestion_of_place {filters answered : Bool} (h : c.place = .question filters answered) :
    c.isQuestion := by
  by_contra hq
  exact place_ne_question (Bool.not_eq_true _ ▸ hq) _ _ h

lemma opens_of_place {p : Place} (h : c.place = p)
    (hp : ∀ filters answered, p ≠ .question filters answered) : c.opens = p := by
  cases hq : c.isQuestion with
  | false => rw [← (place_of_not_isQuestion hq).1, h]
  | true => exact absurd (h ▸ place_of_isQuestion hq) (hp _ _)

/-- The place and the section of a chapter are of one kind: the section has room for what a bullet
at the place may be. -/
lemma exists_blank_of_place (file : String) (h : c.place ≠ .nowhere) :
    ∃ s, c.blank file = some s ∧
      match c.place with
      | .nowhere => False
      | .intent => ∀ line, s.accepts (.utterance line)
      | .entityBody => ∀ line, s.accepts (.bodyLine line)
      | .question .. => ∀ text filter, s.accepts (.wording text) ∧ s.accepts (.filter filter) := by
  cases hplace : c.place with
  | nowhere => exact absurd hplace h
  | question filters answered =>
      obtain ⟨question, number, raw, hheader⟩ :=
        exists_question_of_isQuestion (isQuestion_of_place hplace)
      exact ⟨_, blank_of_questionHeader hheader, fun text filter => ⟨rfl, rfl⟩⟩
  | intent =>
      have hopens := opens_of_place hplace (by simp)
      simp only [opens] at hopens
      split at hopens <;> try cases hopens
      · next name heq =>
          obtain ⟨h, hheader, hkind⟩ := Option.map_eq_some_iff.mp heq
          refine ⟨.intent { name, prov := h.prov file }, ?_, fun _ => rfl⟩
          simp only [blank, hheader, Option.bind_some, hkind]
      · split at hopens
        · split_ifs at hopens
        · cases hopens
  | entityBody =>
      have hopens := opens_of_place hplace (by simp)
      simp only [opens] at hopens
      split at hopens <;> try cases hopens
      · next text heq =>
          obtain ⟨h, hheader, hkind⟩ := Option.map_eq_some_iff.mp heq
          split at hopens
          · next header hread =>
              split_ifs at hopens with hinline
              refine ⟨.newEntity (header.toSection (h.prov file)), ?_, fun line => ?_⟩
              · simp only [blank, hheader, Option.bind_some, hkind, hread]
              · simpa [Section.accepts, Entity.Header.toSection] using hinline
          · cases hopens
      · next name definition heq =>
          obtain ⟨h, hheader, hkind⟩ := Option.map_eq_some_iff.mp heq
          refine ⟨.legacyEntity { name, typeString := definition, prov := h.prov file }, ?_,
            fun _ => rfl⟩
          simp only [blank, hheader, Option.bind_some, hkind]

/-! ## Items -/

lemma bulletReading_eq_item {text : String} (h : c.bulletReading file l text = .item i) :
    (c.place = .intent ∧ ∃ nodes, i = .utterance { nodes, prov := l.prov file }) ∨
    (c.place = .entityBody ∧ i = .bodyLine { text, prov := l.prov file }) ∨
    (c.place = .question false false ∧ i = .wording text) ∨
    (c.place = .question true false ∧ ∃ filter, i = .filter filter) := by
  simp only [bulletReading] at h
  split at h
  · cases h
  · next hplace =>
      split at h
      · exact .inl ⟨hplace, _, (Reading.item.inj h).symm⟩
      · cases h
  · next hplace => exact .inr (.inl ⟨hplace, (Reading.item.inj h).symm⟩)
  · cases h
  · next hplace =>
      simp only [filterReading] at h
      split at h
      · split_ifs at h
        exact .inr (.inr (.inr ⟨hplace, _, (Reading.item.inj h).symm⟩))
      · cases h
  · next hplace => exact .inr (.inr (.inl ⟨hplace, (Reading.item.inj h).symm⟩))

/-- An item comes from the fence that ends an answer or from a bullet outside answers. -/
lemma reading_eq_item (h : c.reading file l = .item i) :
    (c.inAnswer ∧ l.kind = .fence ∧ i = .answer c.answerText) ∨
    (c.inAnswer = false ∧ ∃ text, l.kind = .bullet text ∧
      c.bulletReading file l text = .item i) := by
  cases hin : c.inAnswer with
  | true =>
      simp only [reading, hin, if_true] at h
      split_ifs at h with hfence
      exact .inl ⟨rfl, hfence, (Reading.item.inj h).symm⟩
  | false =>
      simp only [reading, hin, Bool.false_eq_true, if_false] at h
      refine .inr ⟨rfl, ?_⟩
      cases hkind : l.kind with
      | bullet text =>
          rw [hkind] at h
          exact ⟨text, rfl, h⟩
      | filterHeader | fence =>
          rw [hkind] at h
          dsimp only at h
          split_ifs at h
      | _ =>
          rw [hkind] at h
          cases h

/-- A chapter with a line that gives an item has a section with room for it. -/
lemma exists_blank_of_reading (h : c.reading file l = .item i) :
    ∃ s, c.blank file = some s ∧ s.accepts i := by
  obtain ⟨hin, -, rfl⟩ | ⟨-, text, -, hbullet⟩ := reading_eq_item h
  · obtain ⟨question, number, raw, hheader⟩ :=
      exists_question_of_isQuestion (inAnswer_iff.mp hin).1
    exact ⟨_, blank_of_questionHeader hheader, rfl⟩
  · have hcases := bulletReading_eq_item hbullet
    have hplace : c.place ≠ .nowhere := by
      rintro hnowhere
      simp [hnowhere] at hcases
    obtain ⟨s, hblank, hroom⟩ := exists_blank_of_place file hplace
    refine ⟨s, hblank, ?_⟩
    obtain ⟨hp, nodes, rfl⟩ | ⟨hp, rfl⟩ | ⟨hp, rfl⟩ | ⟨hp, filter, rfl⟩ := hcases
    · rw [hp] at hroom
      exact hroom _
    · rw [hp] at hroom
      exact hroom _
    · rw [hp] at hroom
      exact (hroom text default).1
    · rw [hp] at hroom
      exact (hroom text filter).2

end Chapter

end DialogModel.Document
