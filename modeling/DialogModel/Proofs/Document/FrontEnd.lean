import DialogModel.Proofs.Document.Reading

/-!
# The front end reads by chapters

The front end carries a place, an answer that is being read, the sections and the diagnostics from
line to line.  `Follows` ties this state to the outline of the lines read so far: every part of it
is what the open chapter and the closed ones say.  A line keeps the tie (`Follows.step`), so a run
does, and the document of a list of lines is read off its chapters: `ofLines_sections` and
`ofLines_errors`.

What one line does is said once.  Below a header it does what its reading says
(`State.step_eq_advance`); a header closes one chapter and opens the next.
-/

namespace DialogModel.Document

open Section (Item)

/-! ## A line below a header -/

namespace State

/-- The errors reported so far. -/
def errors (s : State) : List Diagnostic :=
  s.diagnostics.filter Diagnostic.isError

/-- What a line does to the sections and the diagnostics by its reading. -/
def take (s : State) (number : Nat) : Reading → State
  | .silent => s
  | .info i => s.push (.modelInfo i)
  | .item i => s.attach (·.add i)
  | .fault f => s.fault number f

/-- The state after a line below a header, as the chapter has it. -/
def advance (file : String) (s : State) (c : Chapter) (l : Line) : State :=
  { s.take l.number (c.reading file l) with
    place := (c.add l).place
    answer := (c.add l).openAnswer }

variable {file : String} {s : State} {c : Chapter} {l : Line}

lemma advance_eq_take (hplace : (c.add l).place = s.place)
    (hanswer : (c.add l).openAnswer = s.answer) :
    s.advance file c l = s.take l.number (c.reading file l) := by
  rw [advance, hplace, hanswer]
  cases c.reading file l <;> rfl

lemma step_inside (hplace : s.place = c.place) (hanswer : s.answer = c.openAnswer)
    (hin : c.inAnswer) : s.step file l = s.advance file c l := by
  obtain ⟨hq, hone⟩ := Chapter.inAnswer_iff.mp hin
  rw [Chapter.openAnswer, if_pos hin] at hanswer
  by_cases hfence : l.kind = .fence
  · have hadd : (c.add l).isQuestion := by simpa using hq
    have hout : (c.add l).openAnswer = none :=
      Chapter.openAnswer_eq_none (by simp [Chapter.inAnswer, Chapter.fences_add, hfence, hone])
    rw [Chapter.place_of_isQuestion hq] at hplace
    rw [advance, Chapter.place_of_isQuestion hadd, hout, Chapter.filtering_add, Chapter.fences_add]
    simp [step, hanswer, hfence, closeAnswer, hplace, hone, Chapter.reading, hin, take, attach,
      Section.add, Chapter.answerText]
  · have hadd : (c.add l).openAnswer =
        some { fence := c.fenceNumber, lines := c.answerLines ++ [l.raw] } := by
      simp [Chapter.openAnswer, Chapter.inAnswer, Chapter.fences_add, Chapter.fenceNumber_add,
        Chapter.answerLines_add, hfence, hone, hq]
    rw [advance, Chapter.place_add (fun _ => hfence) (by simp [hin]), ← hplace, hadd]
    simp [step, hanswer, hfence, Chapter.reading, hin, take]

/-- A bullet does what its reading says, given the place. -/
lemma bullet_eq_take (hplace : s.place = c.place) (text : String) :
    s.bullet (l.prov file) text = s.take l.number (c.bulletReading file l text) := by
  rw [bullet, hplace, Chapter.bulletReading]
  cases c.place with
  | nowhere => rfl
  | intent => cases Utterance.read text <;> rfl
  | entityBody => rfl
  | question filters answered =>
      cases answered with
      | true => cases filters <;> rfl
      | false =>
          cases filters with
          | false => rfl
          | true =>
              simp only [filter, Chapter.filterReading]
              cases Chars.breakAt? '=' text.toList with
              | none => rfl
              | some parts =>
                  dsimp only
                  split_ifs <;> rfl

lemma step_filterHeader (hplace : s.place = c.place) (hanswer : s.answer = c.openAnswer)
    (hin : c.inAnswer = false) (hkind : l.kind = .filterHeader) :
    s.step file l = s.advance file c l := by
  have hnone : s.answer = none := by rw [hanswer, Chapter.openAnswer_eq_none hin]
  have ha : (c.add l).openAnswer = s.answer := by
    rw [Chapter.openAnswer_add_of_ne hin (by simp [hkind]), hanswer]
  cases hq : c.isQuestion with
  | false =>
      have hs : ∀ filters answered, s.place ≠ .question filters answered := by
        rw [hplace]
        exact Chapter.place_ne_question hq
      have hp : (c.add l).place = s.place := by
        rw [hplace, (Chapter.place_of_not_isQuestion hq).1,
          (Chapter.place_of_not_isQuestion (c := c.add l) hq).1, Chapter.opens_add]
      rw [advance_eq_take hp ha]
      simp [step, hnone, stepOutside, hkind, Chapter.reading, hin, hq, take]
  | true =>
      rw [advance, Chapter.place_of_isQuestion (by simpa using hq), ha]
      rw [Chapter.place_of_isQuestion hq] at hplace
      simp [step, hnone, stepOutside, hkind, Chapter.reading, hin, hplace, hq, take,
        Chapter.filtering_add, Chapter.fences_add]

lemma step_fence (hplace : s.place = c.place) (hanswer : s.answer = c.openAnswer)
    (hin : c.inAnswer = false) (hkind : l.kind = .fence) :
    s.step file l = s.advance file c l := by
  have hnone : s.answer = none := by rw [hanswer, Chapter.openAnswer_eq_none hin]
  have hp : (c.add l).place = s.place := by
    rw [Chapter.place_add (by simp [hin]) (by simp [hkind]), hplace]
  cases hq : c.isQuestion with
  | false =>
      have hs : ∀ filters answered, s.place ≠ .question filters answered := by
        rw [hplace]
        exact Chapter.place_ne_question hq
      have ha : (c.add l).openAnswer = s.answer := by
        rw [hnone, Chapter.openAnswer_eq_none (by simp [Chapter.inAnswer, hq])]
      rw [advance_eq_take hp ha]
      simp [step, hnone, stepOutside, hkind, openAnswer, hs, Chapter.reading, hin, hq, take]
  | true =>
      rw [Chapter.place_of_isQuestion hq] at hplace
      have hone : c.fences ≠ 1 := by simpa [Chapter.inAnswer, hq] using hin
      by_cases hzero : c.fences = 0
      · have ha : (c.add l).openAnswer = some { fence := l.number } := by
          simp [Chapter.openAnswer, Chapter.inAnswer, hq, Chapter.fences_add, hkind, hzero,
            Chapter.fenceNumber_add, Chapter.answerLines_add, Chapter.answerLines_eq_nil hzero]
        rw [advance, hp, ha]
        simp [step, hnone, stepOutside, hkind, openAnswer, hplace, hzero, Chapter.reading, hin, hq,
          take]
      · have htwo : 2 ≤ c.fences := by omega
        have hout : (c.add l).inAnswer = false := by
          simp [Chapter.inAnswer, Chapter.fences_add, hkind, hzero]
        have ha : (c.add l).openAnswer = s.answer := by
          rw [hnone, Chapter.openAnswer_eq_none hout]
        rw [advance_eq_take hp ha]
        simp [step, hnone, stepOutside, hkind, openAnswer, hplace, htwo, hzero, Chapter.reading,
          hin, take]

/-- A line below a header does what its reading says. -/
lemma step_eq_advance (hplace : s.place = c.place) (hanswer : s.answer = c.openAnswer)
    (hline : l.kind.isHeader → c.inAnswer) : s.step file l = s.advance file c l := by
  cases hin : c.inAnswer with
  | true => exact step_inside hplace hanswer hin
  | false =>
      have hnone : s.answer = none := by rw [hanswer, Chapter.openAnswer_eq_none hin]
      -- Only a fence and the heading of the filters change the place or open an answer.
      have hkeep (hfence : l.kind ≠ .fence) (hfilters : l.kind ≠ .filterHeader) :
          s.advance file c l = s.take l.number (c.reading file l) := by
        apply advance_eq_take
        · rw [Chapter.place_add (by simp [hin]) (fun _ => hfilters), hplace]
        · rw [Chapter.openAnswer_add_of_ne hin hfence, hanswer]
      cases hkind : l.kind with
      | blank | comment | modelInfo | other =>
          rw [hkeep (by simp [hkind]) (by simp [hkind])]
          simp [step, hnone, stepOutside, hkind, Chapter.reading, hin, take, Line.prov]
      | bullet text =>
          rw [hkeep (by simp [hkind]) (by simp [hkind])]
          simp only [step, hnone, stepOutside, hkind, Chapter.reading, hin, Bool.false_eq_true,
            if_false]
          exact bullet_eq_take hplace text
      | filterHeader => exact step_filterHeader hplace hanswer hin hkind
      | fence => exact step_fence hplace hanswer hin hkind
      | intentHeader | questionHeader | newEntity | legacyEntity | importLink =>
          simp [hkind, LineKind.isHeader, hin] at hline

end State

/-! ## What a reading adds -/

namespace Chapter

variable {file : String} {c : Chapter} {l : Line}

/-- **The last section takes the item or a directive stands in its way.** -/
lemma onLast_sections {i : Item} (h : c.reading file l = .item i) (before : List Section) :
    Section.onLast (·.add i) (before ++ c.sections file) = before ++ (c.add l).sections file := by
  obtain ⟨s, hblank, -⟩ := exists_blank_of_reading h
  cases hint : c.interrupted with
  | false =>
      have hinfos : c.infos file = [] := infos_eq_nil_iff.mpr hint
      simp [sections, opened, hblank, infos_add, items_add, hinfos, h, Reading.kept?, hint,
        Reading.info?, Section.onLast_concat]
  | true =>
      have hne : c.infos file ≠ [] := by simp [infos_eq_nil_iff, hint]
      obtain ⟨infos, last, hinfos⟩ := List.eq_nil_or_concat (c.infos file) |>.resolve_left hne
      have hlast : last ∈ c.infos file := by simp [hinfos]
      obtain ⟨info, rfl⟩ := exists_modelInfo_of_mem_infos hlast
      have hsame : (c.add l).sections file = c.sections file := by
        simp [sections, opened, infos_add, items_add, h, Reading.kept?, hint, Reading.info?]
      rw [hsame, sections, hinfos, List.concat_eq_append, ← List.append_assoc, ← List.append_assoc,
        Section.onLast_concat, Section.add_modelInfo]

lemma advance_sections {s : State} {before : List Section}
    (h : s.sections = before ++ c.sections file) :
    (s.advance file c l).sections = before ++ (c.add l).sections file := by
  rw [State.advance]
  cases hr : c.reading file l with
  | silent | fault =>
      simp [State.take, State.fault, h, sections, opened, infos_add, items_add, hr, Reading.kept?,
        Reading.info?]
  | info i =>
      simp [State.take, State.push, h, sections, opened, infos_add, items_add, hr, Reading.kept?,
        Reading.info?]
  | item i =>
      rw [State.take, State.attach, h]
      exact onLast_sections hr before

lemma advance_errors {s : State} {before : List Diagnostic}
    (h : s.errors = before ++ c.lineErrors file) :
    (s.advance file c l).errors = before ++ (c.add l).lineErrors file := by
  rw [lineErrors_add, ← List.append_assoc, ← h, State.advance]
  cases c.reading file l with
  | silent | info | item =>
      simp [State.take, State.push, State.attach, State.errors, Reading.report?]
  | fault f =>
      simp [State.take, State.fault, State.errors, Reading.report?, Diagnostic.isError]

/-! ## The end of a chapter -/

lemma opened_of_questionHeader {question raw : String} {number : Nat}
    (h : c.header = some ⟨.questionHeader question, number, raw⟩) :
    c.opened file = some (.question {
      questions := question :: (c.items file).filterMap Item.wording?
      filters := (c.items file).filterMap Item.filter?
      answer := ((c.items file).filterMap Item.answer?).getLastD ""
      prov := { file, line := number, text := raw } }) := by
  simp [opened, blank_of_questionHeader h, Section.foldl_add_question]

lemma endError?_of_not_isQuestion (h : c.isQuestion = false) : c.endError? = none := by
  simp only [endError?]
  split
  · next hheader => simp [isQuestion, hheader] at h
  · rfl

lemma getLast?_sections_of_interrupted (file : String) (h : c.interrupted) (before : List Section) :
    ∃ info, (before ++ c.sections file).getLast? = some (.modelInfo info) := by
  have hne : c.infos file ≠ [] := by simp [infos_eq_nil_iff, h]
  obtain ⟨info, hinfo⟩ := exists_modelInfo_of_mem_infos (List.getLast_mem hne)
  refine ⟨info, ?_⟩
  rw [sections, List.getLast?_append_of_ne_nil, List.getLast?_append_of_ne_nil _ hne,
    List.getLast?_eq_some_getLast hne, hinfo]
  exact fun hnil => hne (List.append_eq_nil_iff.mp hnil).2

/-- Leaving a chapter outside an answer reports what its end lacks. -/
lemma closeQuestion_eq {s : State} {before : List Section} (hplace : s.place = c.place)
    (hsections : s.sections = before ++ c.sections file) (hin : c.inAnswer = false) :
    s.closeQuestion = { s with diagnostics := s.diagnostics ++ c.endError?.toList } := by
  cases hq : c.isQuestion with
  | false =>
      have hs : ∀ filters answered, s.place ≠ .question filters answered := by
        rw [hplace]
        exact place_ne_question hq
      rw [endError?_of_not_isQuestion hq]
      simp [State.closeQuestion, hs]
  | true =>
      obtain ⟨question, number, raw, hheader⟩ := exists_question_of_isQuestion hq
      have hone : c.fences ≠ 1 := by simpa [inAnswer, hq] using hin
      rw [place_of_isQuestion hq] at hplace
      by_cases hzero : c.fences = 0
      · cases hint : c.interrupted with
        | true =>
            obtain ⟨info, hlast⟩ := getLast?_sections_of_interrupted file hint before
            have hsame : s.closeQuestion = s := by
              simp [State.closeQuestion, hplace, hsections, hlast]
            simp [hsame, endError?, hheader, hzero, hint]
        | false =>
            have hinfos : c.infos file = [] := infos_eq_nil_iff.mpr hint
            simp [State.closeQuestion, hplace, hsections, sections,
              opened_of_questionHeader hheader, hinfos, endError?, hheader, hzero, hint, State.fault]
      · have htwo : 2 ≤ c.fences := by omega
        have hsame : s.closeQuestion = s := by
          simp [State.closeQuestion, hplace, htwo]
        simp [hsame, endError?, hheader, hzero, hone]

lemma place_header (hh : Option Line) :
    ({ header := hh } : Chapter).place = Chapter.opens { header := hh } := by
  cases hq : ({ header := hh } : Chapter).isQuestion with
  | false => exact (place_of_not_isQuestion hq).1
  | true =>
      obtain ⟨question, number, raw, hheader⟩ := exists_question_of_isQuestion hq
      obtain rfl : hh = _ := hheader
      rfl

lemma filter_endError? : c.endError?.toList.filter Diagnostic.isError = c.endError?.toList := by
  simp only [endError?]
  repeat' split
  all_goals rfl

lemma enter_eq {s : State} {before : List Section} (hplace : s.place = c.place)
    (hsections : s.sections = before ++ c.sections file) (hin : c.inAnswer = false) (p : Place) :
    (s.enter p).place = p ∧ (s.enter p).answer = s.answer ∧ (s.enter p).sections = s.sections ∧
      (s.enter p).errors = s.errors ++ c.endError?.toList := by
  rw [State.enter, closeQuestion_eq hplace hsections hin]
  exact ⟨rfl, rfl, rfl, by simp [State.errors, filter_endError?]⟩

end Chapter

/-! ## The run -/

/-- The state of the front end is what the chapters say of the lines read so far. -/
structure Follows (file : String) (o : Outline) (s : State) : Prop where
  place : s.place = o.current.place
  answer : s.answer = o.current.openAnswer
  sections :
    s.sections = o.closed.flatMap (Chapter.sections file) ++ o.current.sections file
  errors :
    s.errors = o.closed.flatMap (Chapter.errors file) ++ o.current.lineErrors file

namespace Follows

variable {file : String} {o : Outline} {s : State} {l : Line}

lemma opening (h : Follows file o s) {s' : State} (hh : Option Line)
    (hplace : s'.place = Chapter.opens { header := hh }) (hanswer : s'.answer = none)
    (hsections : s'.sections = s.sections ++ (Chapter.blank file { header := hh }).toList)
    (herrors : s'.errors = s.errors ++ o.current.endError?.toList ++
      (Chapter.headerReport? { header := hh }).toList) :
    Follows file { closed := o.closed ++ [o.current], current := { header := hh } } s' where
  place := by rw [hplace, Chapter.place_header]
  answer := by simp [hanswer, Chapter.openAnswer, Chapter.inAnswer, Chapter.fences]
  sections := by
    rw [hsections, h.sections]
    simp [Chapter.sections, Chapter.opened, Chapter.items, Chapter.infos, Chapter.trail_header]
  errors := by
    rw [herrors, h.errors]
    simp [Chapter.errors, Chapter.lineErrors, Chapter.trail_header]

lemma newEntity {text : String} (h : Follows file o s) (hkind : l.kind = .newEntity text)
    (hin : o.current.inAnswer = false) (hnone : s.answer = none) :
    Follows file { closed := o.closed ++ [o.current], current := { header := some l } }
      (s.newEntity (l.prov file) text) := by
  cases hread : Entity.Header.read text with
  | error fault =>
      obtain ⟨hp, ha, hs, he⟩ := Chapter.enter_eq h.place h.sections hin .nowhere
      simp only [State.newEntity, hread]
      apply h.opening
      · simp [Chapter.opens, hkind, hread, State.fault, hp]
      · simp [State.fault, ha, hnone]
      · simp [Chapter.blank, hkind, hread, State.fault, hs]
      · rw [← he]
        simp [State.errors, State.fault, Chapter.headerReport?, hkind, hread, Line.prov,
          Diagnostic.isError]
  | ok header =>
      -- A warning about the header comes before the end of the chapter, but is no error.
      have hwarned (t : State) (hplace : t.place = s.place) (hanswer : t.answer = none)
          (hsections : t.sections = s.sections) (herrors : t.errors = s.errors) :
          Follows file { closed := o.closed ++ [o.current], current := { header := some l } }
            ((t.enter (if header.inline.isSome then .entityBody else .nowhere)).push
              (.newEntity (header.toSection (l.prov file)))) := by
        obtain ⟨hp, ha, hs, he⟩ := Chapter.enter_eq (hplace.trans h.place)
          (hsections.trans h.sections) hin (if header.inline.isSome then .entityBody else .nowhere)
        apply h.opening
        · simp [Chapter.opens, hkind, hread, State.push, hp]
        · simp [State.push, ha, hanswer]
        · simp [Chapter.blank, hkind, hread, State.push, hs, hsections]
        · rw [herrors] at he
          simpa [State.errors, State.push, Chapter.headerReport?, hkind, hread] using he
      simp only [State.newEntity, hread]
      cases header.ignored with
      | none => exact hwarned s rfl hnone rfl rfl
      | some clause =>
          refine hwarned (s.warn _ _) rfl hnone rfl ?_
          simp [State.errors, State.warn, Diagnostic.isError]

/-- A header closes a chapter and opens the next. -/
lemma header (h : Follows file o s) (hheader : l.kind.isHeader) (hin : o.current.inAnswer = false) :
    Follows file { closed := o.closed ++ [o.current], current := { header := some l } }
      (s.step file l) := by
  have hnone : s.answer = none := by rw [h.answer, Chapter.openAnswer_eq_none hin]
  cases hkind : l.kind with
  | blank | comment | modelInfo | bullet | filterHeader | fence | other =>
      simp [hkind, LineKind.isHeader] at hheader
  | intentHeader | questionHeader | legacyEntity | importLink =>
      simp only [State.step, hnone, State.stepOutside, hkind]
      obtain ⟨hp, ha, hs, he⟩ := Chapter.enter_eq h.place h.sections hin
        (Chapter.opens { header := some l })
      simp only [Chapter.opens, Option.map_some, hkind] at hp ha hs he
      apply h.opening
      · simp [Chapter.opens, hkind, State.push, hp]
      · simp [State.push, ha, hnone]
      · simp [Chapter.blank, hkind, State.push, hs, Line.prov]
      · simpa [State.errors, State.push, Chapter.headerReport?, hkind] using he
  | newEntity text =>
      simp only [State.step, hnone, State.stepOutside, hkind]
      exact h.newEntity hkind hin hnone

/-- **A line keeps the state in step with the chapters.** -/
lemma step (h : Follows file o s) (l : Line) : Follows file (o.step l) (s.step file l) := by
  rw [Outline.step]
  split_ifs with hopen
  · simp only [Bool.and_eq_true, Bool.not_eq_true'] at hopen
    exact h.header hopen.1 hopen.2
  · have hline : l.kind.isHeader → o.current.inAnswer := by simpa using hopen
    rw [State.step_eq_advance h.place h.answer hline]
    exact ⟨rfl, rfl, Chapter.advance_sections h.sections, Chapter.advance_errors h.errors⟩

lemma run (file : String) (lines : List Line) :
    Follows file (outline lines) (lines.foldl (State.step file) {}) := by
  induction lines using List.reverseRecOn with
  | nil => constructor <;> rfl
  | append_singleton lines l ih =>
      rw [outline_concat, List.foldl_concat]
      exact ih.step l

lemma finish_of_not_inAnswer (h : Follows file o s) (hin : o.current.inAnswer = false) :
    s.finish.sections =
        o.closed.flatMap (Chapter.sections file) ++ o.current.ended.sections file ∧
      s.finish.errors = o.closed.flatMap (Chapter.errors file) ++ o.current.errors file := by
  have hnone : s.answer = none := by rw [h.answer, Chapter.openAnswer_eq_none hin]
  obtain ⟨-, -, hs, he⟩ := Chapter.enter_eq h.place h.sections hin .nowhere
  simp only [State.finish, hnone]
  refine ⟨?_, ?_⟩
  · rw [hs, h.sections]
    simp [Chapter.ended, hin]
  · rw [he, h.errors]
    simp [Chapter.errors]

lemma finish_of_inAnswer (h : Follows file o s) (hin : o.current.inAnswer) :
    s.finish.sections =
        o.closed.flatMap (Chapter.sections file) ++ o.current.ended.sections file ∧
      s.finish.errors = o.closed.flatMap (Chapter.errors file) ++ o.current.errors file := by
  obtain ⟨hq, hone⟩ := Chapter.inAnswer_iff.mp hin
  obtain ⟨question, number, raw, hheader⟩ := Chapter.exists_question_of_isQuestion hq
  have hanswer := h.answer
  rw [Chapter.openAnswer, if_pos hin] at hanswer
  -- The state in which the open answer has been reported, before the end closes it like a fence.
  set t : State := s.fault o.current.fenceNumber .unterminatedAnswer with ht
  have hended : o.current.ended = o.current.add Chapter.endFence := by simp [Chapter.ended, hin]
  have hfinish : s.finish = (t.advance file o.current Chapter.endFence).enter .nowhere := by
    rw [← State.step_eq_advance (s := t) h.place h.answer fun _ => hin]
    simp [State.finish, hanswer, State.step, ht, Chapter.endFence, State.fault]
  have hout : (o.current.add Chapter.endFence).inAnswer = false := by
    simp [Chapter.inAnswer, Chapter.fences_add, hone, Chapter.endFence]
  have hend : (o.current.add Chapter.endFence).endError? = none := by
    simp [Chapter.endError?, hheader, Chapter.fences_add, hone, Chapter.endFence]
  have hsections := Chapter.advance_sections (l := Chapter.endFence) (s := t) h.sections
  have herrors : (t.advance file o.current Chapter.endFence).errors = t.errors := by
    simp [State.errors, State.advance, Chapter.reading, hin, Chapter.endFence, State.take,
      State.attach]
  have hreported : t.errors = s.errors ++ o.current.endError?.toList := by
    simp [ht, State.errors, State.fault, Chapter.endError?, hheader, hone, Diagnostic.isError]
  obtain ⟨-, -, hs, he⟩ := Chapter.enter_eq rfl hsections hout .nowhere
  rw [hfinish, hs, he, hsections, herrors, hreported, h.errors, hend, hended]
  exact ⟨rfl, by simp [Chapter.errors]⟩

/-- The end of the file ends the last chapter; an answer that is open ends as at a fence. -/
lemma finish (h : Follows file o s) :
    s.finish.sections =
        o.closed.flatMap (Chapter.sections file) ++ o.current.ended.sections file ∧
      s.finish.errors = o.closed.flatMap (Chapter.errors file) ++ o.current.errors file := by
  cases hin : o.current.inAnswer with
  | false => exact h.finish_of_not_inAnswer hin
  | true => exact h.finish_of_inAnswer hin

end Follows

lemma isError_of_mem_emptyIntents {ss : List Section} {d : Diagnostic}
    (h : d ∈ ss.filterMap emptyIntent?) : d.isError = false := by
  obtain ⟨x, -, hx⟩ := List.mem_filterMap.mp h
  cases x with
  | intent intent =>
      simp only [emptyIntent?] at hx
      split_ifs at hx
      obtain rfl := Option.some.inj hx
      rfl
  | modelInfo | importLink | newEntity | legacyEntity | question => cases hx

/-- **The sections of a document are those of its chapters.** -/
theorem ofLines_sections (file : String) (lines : List Line) :
    (ofLines file lines).sections = (chapters lines).flatMap fun c => c.ended.sections file := by
  have hclosed : (outline lines).closed.flatMap (fun c => c.ended.sections file) =
      (outline lines).closed.flatMap (Chapter.sections file) := by
    have hout := (isCut_chapters lines).not_inAnswer
    rw [chapters, List.dropLast_concat] at hout
    refine List.flatMap_congr fun c hc => ?_
    simp [Chapter.ended, hout c hc]
  rw [chapters, List.flatMap_append, hclosed]
  simpa [ofLines] using (Follows.run file lines).finish.1

/-- **The errors of a document are those of its chapters.** -/
theorem ofLines_errors (file : String) (lines : List Line) :
    (ofLines file lines).errors = (chapters lines).flatMap (Chapter.errors file) := by
  have hempty (ss : List Section) :
      (ss.filterMap emptyIntent?).filter Diagnostic.isError = [] := by
    rw [List.filter_eq_nil_iff]
    intro d hd
    simp [isError_of_mem_emptyIntents hd]
  rw [chapters, List.flatMap_append, errors, ofLines, List.filter_append, hempty, List.append_nil]
  simpa [State.errors] using (Follows.run file lines).finish.2

end DialogModel.Document
