import DialogModel.Proofs.Compile.Reached
import DialogModel.Proofs.Document.Answers

/-!
# The questions of a compilation

A question section becomes a pair of the knowledge base, and nothing else does: the pairs of a model
are the questions of the document, in the order of the source.  With what the document stores of an
answer, this follows an answer from the lines of the source into the model.
-/

namespace DialogModel

open Document

/-! ## The pairs -/

lemma Declaration.run_pairs {ctx : Context} {d : Declaration} {m m' : Model} {plan : Plan}
    (h : d.run ctx m plan = .ok m') : m'.kb.pairs = m.kb.pairs := by
  cases plan with
  | alterations =>
      cases h
      rfl
  | simple | patternAny | list | composite | regex | prebuilt | phraseList =>
      obtain ⟨app, -, h⟩ := bind_eq_ok_iff.mp h
      cases h
      rfl

lemma Directive.apply_pairs {d : Directive} {prov : Provenance} {m m' : Model}
    (h : d.apply prov m = .ok m') : m'.kb.pairs = m.kb.pairs := by
  cases d with
  | appSetting | kbSetting | intentInherits =>
      cases h
      rfl
  | entityInherits =>
      obtain ⟨reg, -, h⟩ := bind_eq_ok_iff.mp h
      cases h
      rfl

lemma ImportLink.pairs_file (link : ImportLink) (contentType : String) (kb : KnowledgeBase) :
    (link.file contentType kb).pairs = kb.pairs := by
  unfold file KnowledgeBase.addFile
  split_ifs <;> rfl

/-- Only a question changes the pairs. -/
lemma Section.apply_pairs {ctx : Context} {s : Section} {m m' : Model}
    (h : s.apply ctx m = .ok m') :
    m'.kb.pairs = m.kb.pairs ++ (s.question?.map QuestionSection.pair).toList := by
  cases s with
  | modelInfo info =>
      simp only [Section.apply, ModelInfo.apply] at h
      split at h
      · simpa [question?] using Directive.apply_pairs h
      · cases h
        simp [question?]
  | importLink link =>
      simp only [Section.apply, ImportLink.apply] at h
      split_ifs at h
      · split at h
        · cases h
          simp [question?, ImportLink.pairs_file]
        · cases h
      · cases h
        simp [question?]
  | intent intent =>
      obtain ⟨app, -, h⟩ := bind_eq_ok_iff.mp h
      cases h
      simp [question?]
  | newEntity entity =>
      obtain ⟨plan, -, h⟩ := bind_eq_ok_iff.mp h
      simpa [question?] using Declaration.run_pairs h
  | legacyEntity entity =>
      obtain ⟨⟨declaration, plan⟩, -, h⟩ := bind_eq_ok_iff.mp h
      simpa [question?] using Declaration.run_pairs h
  | question question =>
      cases h
      rfl

namespace Compile

variable {options : Options} {probe : Probe} {sections : List Section}

lemma filterMap_question?_sectionsOf (pass : Pass) :
    (sectionsOf pass sections).filterMap Section.question? =
      if pass = .questions then sections.filterMap Section.question? else [] :=
  filterMap_sectionsOf (fun s hs => by cases s <;> simp_all [Section.pass, Section.question?]) pass

/-- Before the last pass there are no pairs; in it the pairs and the questions that are left make
up the questions of the document. -/
lemma Reached.pairs {p : Progress} (h : Reached options probe sections p) :
    p.model.kb.pairs ++ (p.rest.filterMap Section.question?).map QuestionSection.pair =
      if p.pass = .questions then (sections.filterMap Section.question?).map QuestionSection.pair
      else [] := by
  induction h with
  | start => simp [filterMap_question?_sectionsOf]
  | @step pass s rest ctx m m' _ happly ih =>
      rw [← ih, Section.apply_pairs happly]
      cases hq : s.question? with
      | none => simp [List.filterMap_cons_none hq]
      | some q => simp [List.filterMap_cons_some hq]
  | imports _ ih | entities _ ih | questions _ ih =>
      have hnil := (List.append_eq_nil_iff.mp ih).1
      simp only at hnil
      simp [hnil, filterMap_question?_sectionsOf]

lemma pairs_of_compile {file source : String} {r : Compilation}
    (h : compile file source options probe = .ok r) :
    r.model.kb.pairs = ((Document.read file source).sections.filterMap Section.question?).map
      QuestionSection.pair := by
  obtain ⟨ctx, hreached⟩ := reached_of_compile h
  simpa using hreached.pairs

/-- **Answers are stored.**  If no line of a source is at fault, the k-th question of its document
belongs to the k-th header of a question outside answers.  Unless a directive stands above its first
fence, a block has been opened and closed below the header and the question stores its text; if one
does, the question stores no answer.  A compilation takes the questions into the knowledge base in
this order. -/
theorem answers_stored (file source : String)
    (h : (Document.read file source).hasErrors = false) :
    IsCut (Line.scan source) (chapters (Line.scan source)) ∧
    List.Forall₂ (fun c q =>
        (∃ hh ∈ c.header, q.prov = hh.prov file ∧
          hh.kind = .questionHeader (q.questions.headD "")) ∧
        (c.hindered = false → Chapter.Answered c q) ∧ (c.hindered → q.answer = ""))
      ((chapters (Line.scan source)).filter Chapter.isQuestion)
      ((Document.read file source).sections.filterMap Section.question?) ∧
    ∀ options probe r, compile file source options probe = .ok r →
      r.model.kb.pairs = ((Document.read file source).sections.filterMap Section.question?).map
        QuestionSection.pair :=
  ⟨isCut_chapters _, forall₂_questions h, fun _ _ _ hr => pairs_of_compile hr⟩

/-- A source with a question, another wording, a filter and the answer. -/
def answeredSource : String :=
  "# ? who are you\n- what are you\n**Filters:**\n- tone = short\n```\nan assistant\n```\n"

theorem answers_stored_answeredSource :
    List.Forall₂ Chapter.Answered
      ((chapters (Line.scan answeredSource)).filter Chapter.isQuestion)
      ((Document.read "faq.lu" answeredSource).sections.filterMap Section.question?) ∧
    ∃ r, compile "faq.lu" answeredSource {} Probe.offline = .ok r ∧
      r.model.kb.pairs.map QuestionPair.answer = ["an assistant"] := by
  have hfree : ∀ c ∈ (chapters (Line.scan answeredSource)).filter Chapter.isQuestion,
      c.hindered = false := by decide +kernel
  have hanswers : (((Document.read "faq.lu" answeredSource).sections.filterMap
      Section.question?).map QuestionSection.pair).map QuestionPair.answer =
        ["an assistant"] := by decide +kernel
  have hrun : (compile "faq.lu" answeredSource {} Probe.offline).toOption.isSome := by
    decide +kernel
  obtain ⟨-, hspec, hpairs⟩ := answers_stored "faq.lu" answeredSource (by decide +kernel)
  refine ⟨((List.forall₂_and_left _ _).mpr ⟨hfree, hspec⟩).imp ?_, ?_⟩
  · rintro c q ⟨hc, -, hanswered, -⟩
    exact hanswered hc
  · cases hr : compile "faq.lu" answeredSource {} Probe.offline with
    | error e =>
        rw [hr] at hrun
        cases hrun
    | ok r => exact ⟨r, rfl, by rw [hpairs {} Probe.offline r hr, hanswers]⟩

/-- A source in which a directive stands above the answer of a question. -/
def hinderedSource : String :=
  "# ? who are you\n> !# @app.name = demo\n```\nan assistant\n```\n"

/-- A source in which a directive stands below a question without an answer. -/
def unansweredSource : String :=
  "# ? who are you\n> !# @app.name = demo\n"

theorem answer_lost_hinderedSource :
    ((Document.read "faq.lu" hinderedSource).hasErrors = false ∧
      (chapters (Line.scan hinderedSource)).map (fun c => (c.segment 1).map Line.raw) =
        [[], ["an assistant"]] ∧
      ((Document.read "faq.lu" hinderedSource).sections.filterMap Section.question?).map
        QuestionSection.answer = [""]) ∧
    (Document.read "faq.lu" unansweredSource).hasErrors = false ∧
      ((chapters (Line.scan unansweredSource)).filter Chapter.isQuestion).map Chapter.fences =
        [0] := by
  decide +kernel

end Compile

end DialogModel
