import DialogModel.Proofs.App.Image
import DialogModel.Proofs.Compile.Growth

/-!
# The utterances and the patterns of a compilation

The utterances and the patterns of a compiled model are those of the lines of its intents, in the
sense of `App.ImageOf`: nothing is lost, repeated or made up.  Intents are carried out in the order
of the document, together with the declarations; the declarations, like all other sections, leave
utterances and patterns alone and only let the registry grow.
-/

namespace DialogModel

open Entity Utterance

lemma OrderedMap.contains_iff_mem_keys {α β : Type} [DecidableEq α] {m : OrderedMap α β} {k : α} :
    m.contains k = true ↔ k ∈ m.keys := by
  simp [contains, get?, keys]

lemma App.mem_intents_ensureIntent (app : App) (name : String) :
    name ∈ (app.ensureIntent name).intents.keys := by
  unfold ensureIntent
  split
  · next hmem => exact OrderedMap.contains_iff_mem_keys.mp hmem
  · rw [OrderedMap.keys_insert]
    exact FirstSeen.mem_add.mpr (.inr rfl)

/-- The intent that a section is. -/
def Section.intent? : Section → Option IntentSection
  | .intent s => some s
  | _ => none

/-- The lines of an intent with its name. -/
def IntentSection.lines (s : IntentSection) : List IntentLine :=
  s.utterances.map (s.name, ·)

/-! ## The other sections -/

namespace Declaration

variable {d : Declaration} {app app' : App}

lemma register_registry {kind : Kind} (h : d.register app kind = .ok app') :
    ∃ registry, app' = { app with registry } := by
  unfold register at h
  obtain ⟨⟨carried, app₁⟩, htake, h⟩ := bind_eq_ok_iff.mp h
  obtain ⟨reg, -, h⟩ := bind_eq_ok_iff.mp h
  cases h
  rcases takeOver_eq_ok htake with ⟨-, rfl⟩ | ⟨-, -, -, -, rfl⟩
  · exact ⟨reg, rfl⟩
  · exact ⟨reg, rfl⟩

lemma registerPlain_registry {kind : Kind} (h : d.registerPlain app kind = .ok app') :
    ∃ registry, app' = { app with registry } := by
  unfold registerPlain at h
  split_ifs at h
  exact register_registry h

lemma declareList_registry {given : List Sublist} (h : d.declareList app given = .ok app') :
    ∃ registry, app' = { app with registry } := by
  unfold declareList at h
  obtain ⟨new, -, h⟩ := bind_eq_ok_iff.mp h
  obtain ⟨app₁, hreg, h⟩ := bind_eq_ok_iff.mp h
  cases h
  obtain ⟨registry, rfl⟩ := register_registry hreg
  exact ⟨_, rfl⟩

lemma declareComposite_registry (h : d.declareComposite app = .ok app') :
    ∃ registry, app' = { app with registry } := by
  unfold declareComposite at h
  split at h
  · cases h
  · obtain ⟨app₁, hreg, h⟩ := bind_eq_ok_iff.mp h
    cases h
    obtain ⟨registry, rfl⟩ := register_registry hreg
    exact ⟨_, rfl⟩

lemma declareRegex_registry (h : d.declareRegex app = .ok app') :
    ∃ registry, app' = { app with registry } := by
  unfold declareRegex at h
  obtain ⟨new, -, h⟩ := bind_eq_ok_iff.mp h
  split at h
  · cases h
  · obtain ⟨app₁, hreg, h⟩ := bind_eq_ok_iff.mp h
    cases h
    obtain ⟨registry, rfl⟩ := register_registry hreg
    exact ⟨_, rfl⟩

lemma declarePrebuilt_registry {ctx : Context} (h : d.declarePrebuilt ctx app = .ok app') :
    ∃ registry, app' = { app with registry } := by
  unfold declarePrebuilt at h
  obtain ⟨resolution, -, h⟩ := bind_eq_ok_iff.mp h
  cases resolution with
  | registered type name => exact register_registry h
  | skipped type =>
      cases h
      exact ⟨_, rfl⟩

lemma declarePhraseList_registry {interchangeable : Bool}
    (h : d.declarePhraseList app interchangeable = .ok app') :
    ∃ registry, app' = { app with registry } := by
  unfold declarePhraseList at h
  split_ifs at h
  split at h
  · split_ifs at h
    cases h
    exact ⟨_, rfl⟩
  · cases h
    exact ⟨_, rfl⟩

/-- A declaration changes nothing in the application but the registry. -/
lemma run_registry {ctx : Context} {m m' : Model} {plan : Plan} (h : d.run ctx m plan = .ok m') :
    ∃ registry, m'.app = { m.app with registry } := by
  cases plan with
  | alterations =>
      cases h
      exact ⟨_, rfl⟩
  | simple => exact registerPlain_registry (eq_ok_app h)
  | patternAny => exact registerPlain_registry (eq_ok_app h)
  | list given => exact declareList_registry (eq_ok_app h)
  | composite => exact declareComposite_registry (eq_ok_app h)
  | regex => exact declareRegex_registry (eq_ok_app h)
  | prebuilt => exact declarePrebuilt_registry (eq_ok_app h)
  | phraseList interchangeable => exact declarePhraseList_registry (eq_ok_app h)

end Declaration

lemma Directive.apply_texts {d : Directive} {prov : Provenance} {m m' : Model}
    (h : d.apply prov m = .ok m') :
    m'.app.utterances = m.app.utterances ∧ m'.app.patterns = m.app.patterns := by
  cases d with
  | appSetting | kbSetting | intentInherits =>
      cases h
      exact ⟨rfl, rfl⟩
  | entityInherits =>
      obtain ⟨reg, -, h⟩ := bind_eq_ok_iff.mp h
      cases h
      exact ⟨rfl, rfl⟩

/-- A section that is no intent leaves the utterances and the patterns. -/
lemma Section.apply_texts {ctx : Context} {s : Section} {m m' : Model} (hs : s.intent? = none)
    (h : s.apply ctx m = .ok m') :
    m'.app.utterances = m.app.utterances ∧ m'.app.patterns = m.app.patterns := by
  cases s with
  | modelInfo info =>
      simp only [Section.apply, ModelInfo.apply] at h
      split at h
      · exact Directive.apply_texts h
      · cases h
        exact ⟨rfl, rfl⟩
  | importLink link =>
      simp only [Section.apply, ImportLink.apply] at h
      split_ifs at h
      · split at h
        · cases h
          exact ⟨rfl, rfl⟩
        · cases h
      · cases h
        exact ⟨rfl, rfl⟩
  | intent intent => cases hs
  | newEntity entity =>
      obtain ⟨plan, -, h⟩ := bind_eq_ok_iff.mp h
      obtain ⟨registry, happ⟩ := Declaration.run_registry h
      rw [happ]
      exact ⟨rfl, rfl⟩
  | legacyEntity entity =>
      obtain ⟨⟨declaration, plan⟩, -, h⟩ := bind_eq_ok_iff.mp h
      obtain ⟨registry, happ⟩ := Declaration.run_registry h
      rw [happ]
      exact ⟨rfl, rfl⟩
  | question question =>
      cases h
      exact ⟨rfl, rfl⟩

/-! ## Intents -/

/-- The application after some intents: it is the image of their lines, and it has their names. -/
structure App.HasIntents (options : Options) (intents : List IntentSection) (app : App) :
    Prop where
  image : app.ImageOf options (intents.flatMap IntentSection.lines)
  names : ∀ s ∈ intents, s.name ∈ app.intents.keys

/-- **A section joins the intents if it is one, and else changes nothing about them.** -/
lemma Section.apply_hasIntents {ctx : Context} {s : Section} {m m' : Model}
    {intents : List IntentSection} (h : m.app.HasIntents ctx.options intents)
    (hs : m.app.registry.Sound) (happly : s.apply ctx m = .ok m') :
    m'.app.HasIntents ctx.options (intents ++ s.intent?.toList) := by
  have hgrows := Section.apply_grows hs happly
  have hnames : ∀ i ∈ intents, i.name ∈ m'.app.intents.keys :=
    fun i hi => hgrows.intents.subset (h.names i hi)
  cases hintent : s.intent? with
  | none =>
      obtain ⟨hutterances, hpatterns⟩ := Section.apply_texts hintent happly
      rw [Option.toList_none, List.append_nil]
      exact ⟨h.image.mono hutterances hpatterns hgrows.registry, hnames⟩
  | some intent =>
      obtain rfl : s = .intent intent := by cases s <;> simp_all [intent?]
      obtain ⟨app, hlines, happ⟩ := bind_eq_ok_iff.mp happly
      cases happ
      have hstart : App.Steps m.app (m.app.ensureIntent intent.name) :=
        .single (.intent m.app intent.name)
      have himage : (m.app.ensureIntent intent.name).ImageOf ctx.options
          (intents.flatMap IntentSection.lines) := by
        refine h.image.mono ?_ ?_ hstart.grows.registry <;>
          (unfold App.ensureIntent; split <;> rfl)
      have hrest : App.Steps (m.app.ensureIntent intent.name) app := by
        refine foldlM_ok_induction (App.Steps (m.app.ensureIntent intent.name))
          (fun b line b' hb hstep => ?_) .refl hlines
        exact hb.trans (UtteranceLine.apply_steps (hb.sound (hstart.sound hs)) hstep)
      refine ⟨?_, List.forall_mem_append.mpr ⟨hnames, ?_⟩⟩
      · simpa [IntentSection.lines] using himage.foldlM (hstart.sound hs) hlines
      · simpa using hrest.grows.intents.subset (m.app.mem_intents_ensureIntent intent.name)

namespace Compile

variable {options : Options} {probe : Probe} {sections : List Section}

lemma filterMap_intent?_sectionsOf (pass : Pass) :
    (sectionsOf pass sections).filterMap Section.intent? =
      if pass = .entities then sections.filterMap Section.intent? else [] :=
  filterMap_sectionsOf (fun s hs => by cases s <;> simp_all [Section.pass, Section.intent?]) pass

/-- The intents that have been carried out and those that are left make up the intents of the
document, from the third pass on. -/
lemma Reached.hasIntents {p : Progress} (h : Reached options probe sections p) :
    ∃ done, p.model.app.HasIntents options done ∧
      done ++ p.rest.filterMap Section.intent? =
        if p.pass = .entities ∨ p.pass = .questions then sections.filterMap Section.intent?
        else [] := by
  induction h with
  | start => exact ⟨[], ⟨.empty, by simp⟩, by simp [filterMap_intent?_sectionsOf]⟩
  | @step pass s rest ctx m m' hreached happly ih =>
      obtain ⟨done, hdone, hrest⟩ := ih
      have hoptions : ctx.options = options := hreached.options_eq
      subst hoptions
      refine ⟨_, Section.apply_hasIntents hdone hreached.sound happly, ?_⟩
      rw [← hrest]
      cases hs : s.intent? with
      | none => simp [List.filterMap_cons_none hs]
      | some intent => simp [List.filterMap_cons_some hs]
  | imports _ ih | entities _ ih | questions _ ih =>
      obtain ⟨done, hdone, hrest⟩ := ih
      refine ⟨done, hdone, ?_⟩
      simpa [filterMap_intent?_sectionsOf] using hrest

/-- The intents of a document. -/
def intentsOf (file source : String) : List IntentSection :=
  (Document.read file source).sections.filterMap Section.intent?

lemma hasIntents_of_compile {file source : String} {c : Compilation}
    (h : compile file source options probe = .ok c) :
    c.model.app.HasIntents options (intentsOf file source) := by
  obtain ⟨ctx, hreached⟩ := reached_of_compile h
  obtain ⟨done, hdone, hall⟩ := hreached.hasIntents
  obtain rfl : done = intentsOf file source := by simpa [intentsOf] using hall
  exact hdone

/-- **The utterances and the patterns are the image of the lines.**  A compiled model has one
utterance for each text and intent of a line that is spoken, with its labels at the positions of the
labels of these lines, and one pattern for each template, up to repetition.  It has no others, and
it has every intent. -/
theorem lines_imaged (file source : String) (options : Options) (probe : Probe) (c : Compilation)
    (h : compile file source options probe = .ok c) :
    c.model.app.ImageOf options ((intentsOf file source).flatMap IntentSection.lines) ∧
      ∀ s ∈ intentsOf file source, c.model.app.intents.contains s.name = true :=
  ⟨(hasIntents_of_compile h).image, fun s hs =>
    OrderedMap.contains_iff_mem_keys.mpr ((hasIntents_of_compile h).names s hs)⟩

/-- A source with two lines of one text and different labels, two templates that come to the same
pattern, and an intent without lines. -/
def repeatedSource : String :=
  "# book\n- fly to \x7bcity=Rome\x7d\n- \x7bverb=fly\x7d to Rome\n- see \x7b@city\x7d\n" ++
    "- see \x7bcity\x7d\n# nothing\n"

theorem lines_imaged_repeatedSource :
    ∃ c, compile "book" repeatedSource {} Probe.offline = .ok c ∧
      c.model.app.utterances = [⟨"fly to Rome", "book", [⟨"city", 7, 10, none⟩,
        ⟨"verb", 0, 2, none⟩]⟩] ∧
      c.model.app.patterns = [⟨"see \x7bcity\x7d", "book"⟩] ∧
      c.model.app.ImageOf {} ((intentsOf "book" repeatedSource).flatMap IntentSection.lines) ∧
      ∀ s ∈ intentsOf "book" repeatedSource, c.model.app.intents.contains s.name = true := by
  have hrun : (compile "book" repeatedSource {} Probe.offline).toOption.map (fun c =>
        (c.model.app.utterances, c.model.app.patterns)) =
      some ([⟨"fly to Rome", "book", [⟨"city", 7, 10, none⟩, ⟨"verb", 0, 2, none⟩]⟩],
        [⟨"see \x7bcity\x7d", "book"⟩]) := by decide +kernel
  obtain ⟨c, hc, hresult⟩ := exists_ok_of_map_toOption hrun
  obtain ⟨hutterances, hpatterns⟩ := Prod.mk.inj hresult
  exact ⟨c, hc, hutterances, hpatterns, lines_imaged _ _ _ _ c hc⟩

end Compile

end DialogModel
