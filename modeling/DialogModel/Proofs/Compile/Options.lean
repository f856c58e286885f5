import DialogModel.Proofs.App.Sections
import DialogModel.Proofs.Compile.Reached
import DialogModel.Proofs.Declaration.Plans

/-!
# Options relax or select

A caller chooses three things.  Two of them, `verbose` and `allowNestedLabels`, relax a check: what
compiles without them compiles with them, to the same model and with the same warnings.  The third,
`culture`, selects the locale of the prebuilt types, and only its letters count.

Both facts rest on what a section reads of its circumstances.  The lines of an intent read whether
labels may be nested, a link reads the probe, and the locale and `verbose` are read for prebuilt
types only (`Declaration.run_congr`).  Two runs are compared section by section, from equal models
to equal models, so nothing has to be said about the models themselves.
-/

namespace DialogModel

open Entity

/-! ## Relaxed options -/

/-- The second options allow what the first allow, for the same locale. -/
structure Options.Relaxes (o o' : Options) : Prop where
  culture : o'.culture = o.culture
  verbose : o.verbose → o'.verbose
  allowNestedLabels : o.allowNestedLabels → o'.allowNestedLabels

/-- The second circumstances allow what the first allow, and are the same otherwise. -/
structure Context.Relaxes (ctx ctx' : Context) : Prop where
  locale : ctx'.locale = ctx.locale
  probe : ctx'.probe = ctx.probe
  options : ctx.options.Relaxes ctx'.options

namespace Utterance

variable {allow allow' : Bool}

mutual

/-- A label that may stand in a value where nesting is restricted may stand there anyway. -/
theorem Node.fault?_relaxed (h : allow → allow') : ∀ (node : Node) (outer : Option String),
    node.fault? allow outer = none → node.fault? allow' outer = none
  | .text _, _, _ => rfl
  | .placeholder _, _, hnone => hnone
  | .labelled head value, none, hnone => faultIn_relaxed h value (some head.entity) hnone
  | .labelled head value, some outer, hnone => by
      rw [Node.fault?] at hnone
      split_ifs at hnone with hallow
      rw [Node.fault?, if_pos (h hallow)]
      exact faultIn_relaxed h value (some head.entity) hnone

theorem faultIn_relaxed (h : allow → allow') : ∀ (nodes : List Node) (outer : Option String),
    faultIn allow outer nodes = none → faultIn allow' outer nodes = none
  | [], _, _ => rfl
  | node :: nodes, outer, hnone => by
      rw [faultIn] at hnone
      split at hnone
      · cases hnone
      · next hnode =>
        rw [faultIn, Node.fault?_relaxed h node outer hnode]
        exact faultIn_relaxed h nodes outer hnone

end

lemma flatten_relaxed (h : allow → allow') {nodes : List Node} {flat : Flat}
    (hflat : flatten nodes allow = .ok flat) : flatten nodes allow' = .ok flat := by
  unfold flatten at hflat
  split at hflat
  · cases hflat
  · next hnone =>
    rw [flatten, faultIn_relaxed h nodes none hnone]
    exact hflat

end Utterance

/-- A line of an intent reads of the options whether labels may be nested. -/
lemma UtteranceLine.apply_relaxed {o o' : Options} (h : o.Relaxes o') {intent : String}
    {line : UtteranceLine} {app app' : App} (happly : line.apply o intent app = .ok app') :
    line.apply o' intent app = .ok app' := by
  unfold UtteranceLine.apply at happly
  split at happly
  · cases happly
  · next flat hflat =>
    rw [UtteranceLine.apply, Utterance.flatten_relaxed h.allowNestedLabels hflat]
    exact happly

lemma IntentSection.apply_relaxed {o o' : Options} (h : o.Relaxes o') {s : IntentSection}
    {m m' : Model} (happly : s.apply o m = .ok m') : s.apply o' m = .ok m' := by
  obtain ⟨app, hlines, hm⟩ := bind_eq_ok_iff.mp happly
  have hlines' := foldlM_ok_mono (fun line _ _ _ hline => line.apply_relaxed h hline) hlines
  exact bind_eq_ok_iff.mpr ⟨app, hlines', hm⟩

lemma IntentSection.apply_congr {o o' : Options} (h : o'.allowNestedLabels = o.allowNestedLabels)
    (s : IntentSection) (m : Model) : s.apply o' m = s.apply o m := by
  have hline (line : UtteranceLine) (app : App) :
      line.apply o' s.name app = line.apply o s.name app := by
    rw [UtteranceLine.apply, UtteranceLine.apply, h]
  simp only [IntentSection.apply, hline]

/-! ## What declarations read of their circumstances -/

namespace Declaration

variable {d : Declaration} {ctx ctx' : Context} {plan : Plan}

/-- A declaration reads its circumstances for a prebuilt type only, and then the resolution of the
type. -/
lemma run_congr (h : plan = .prebuilt → d.resolvePrebuilt ctx' = d.resolvePrebuilt ctx)
    (m : Model) : d.run ctx' m plan = d.run ctx m plan := by
  cases plan with
  | prebuilt => rw [run, run, declarePrebuilt, declarePrebuilt, h rfl]
  | _ => rfl

lemma warnings_congr (hlocale : plan = .prebuilt → ctx'.locale = ctx.locale)
    (h : plan = .prebuilt → d.resolvePrebuilt ctx' = d.resolvePrebuilt ctx) :
    d.warnings ctx' plan = d.warnings ctx plan := by
  cases plan with
  | prebuilt => rw [warnings, warnings, prebuiltWarnings, prebuiltWarnings, h rfl, hlocale rfl]
  | _ => rfl

/-- A type is resolved if the locale offers it, or if it may be skipped. -/
lemma resolvePrebuilt_eq_ok_iff {r : Resolution} :
    d.resolvePrebuilt ctx = .ok r ↔ d.hasBody = false ∧ ∃ type,
      Catalog.lookup? d.name = some type ∧
        ((∃ name, Catalog.available? ctx.locale type = some name ∧ r = .registered type name) ∨
          Catalog.available? ctx.locale type = none ∧ ctx.options.verbose = true ∧
            r = .skipped type) := by
  unfold resolvePrebuilt
  cases d.hasBody with
  | true => simp
  | false =>
      cases Catalog.lookup? d.name with
      | none => simp
      | some type =>
          cases havailable : Catalog.available? ctx.locale type with
          | some name => simp [havailable, eq_comm (a := r)]
          | none => cases ctx.options.verbose <;> simp [havailable, eq_comm (a := r)]

/-- A type that is resolved is resolved in the same way where more is allowed. -/
lemma resolvePrebuilt_relaxed (h : ctx.Relaxes ctx') {r : Resolution}
    (hr : d.resolvePrebuilt ctx = .ok r) : d.resolvePrebuilt ctx' = .ok r := by
  rw [resolvePrebuilt_eq_ok_iff, h.locale]
  obtain ⟨hbody, type, hlookup, hoffered | ⟨hnone, hverbose, hr⟩⟩ := resolvePrebuilt_eq_ok_iff.mp hr
  · exact ⟨hbody, type, hlookup, .inl hoffered⟩
  · exact ⟨hbody, type, hlookup, .inr ⟨hnone, h.options.verbose hverbose, hr⟩⟩

/-- A declaration that succeeds resolves its type where more is allowed as it did. -/
lemma resolvePrebuilt_of_run (h : ctx.Relaxes ctx') {m m' : Model}
    (hrun : d.run ctx m plan = .ok m') (hplan : plan = .prebuilt) :
    d.resolvePrebuilt ctx' = d.resolvePrebuilt ctx := by
  subst hplan
  obtain ⟨r, hr, -⟩ := bind_eq_ok_iff.mp (eq_ok_app hrun)
  rw [Provenance.locate_eq_ok_iff] at hr
  rw [hr, resolvePrebuilt_relaxed h hr]

end Declaration

/-- The section declares a prebuilt entity, in one form or the other. -/
def Section.DeclaresPrebuilt : Section → Prop
  | .newEntity e => Text.lower e.type = "prebuilt"
  | .legacyEntity e => Text.sameLetters e.name "prebuilt"
  | _ => False

instance : DecidablePred Section.DeclaresPrebuilt
  | .newEntity e => inferInstanceAs (Decidable (Text.lower e.type = "prebuilt"))
  | .legacyEntity e => inferInstanceAs (Decidable (Text.sameLetters e.name "prebuilt" = true))
  | .modelInfo _ | .importLink _ | .intent _ | .question _ => inferInstanceAs (Decidable False)

namespace Section

variable {ctx ctx' : Context} {s : Section}

/-- **What is allowed is allowed where more is allowed, with the same outcome.** -/
lemma apply_relaxed (h : ctx.Relaxes ctx') {m m' : Model} (happly : s.apply ctx m = .ok m') :
    s.apply ctx' m = .ok m' ∧ s.warnings ctx' = s.warnings ctx := by
  cases s with
  | modelInfo info => exact ⟨happly, rfl⟩
  | importLink link => exact ⟨by rw [Section.apply, h.probe]; exact happly, rfl⟩
  | intent intent => exact ⟨intent.apply_relaxed h.options happly, rfl⟩
  | question question => exact ⟨happly, rfl⟩
  | newEntity e =>
      obtain ⟨plan, hplan, hrun⟩ := bind_eq_ok_iff.mp happly
      have hsame := Declaration.resolvePrebuilt_of_run h hrun
      constructor
      · exact bind_eq_ok_iff.mpr ⟨plan, hplan, (Declaration.run_congr hsame m).trans hrun⟩
      · rw [Provenance.locate_eq_ok_iff] at hplan
        simp only [Section.warnings, NewEntity.warnings, hplan]
        exact Declaration.warnings_congr (fun _ => h.locale) hsame
  | legacyEntity e =>
      obtain ⟨⟨d, plan⟩, hplan, hrun⟩ := bind_eq_ok_iff.mp happly
      have hsame := Declaration.resolvePrebuilt_of_run h hrun
      constructor
      · exact bind_eq_ok_iff.mpr ⟨(d, plan), hplan, (Declaration.run_congr hsame m).trans hrun⟩
      · rw [Provenance.locate_eq_ok_iff] at hplan
        simp only [Section.warnings, LegacyEntity.warnings, hplan]
        exact Declaration.warnings_congr (fun _ => h.locale) hsame

/-- A section without a prebuilt type reads the probe and whether labels may be nested. -/
lemma apply_congr (hprobe : ctx'.probe = ctx.probe)
    (hverbose : ctx'.options.verbose = ctx.options.verbose)
    (hnested : ctx'.options.allowNestedLabels = ctx.options.allowNestedLabels)
    (hlocale : s.DeclaresPrebuilt → ctx'.locale = ctx.locale) (m : Model) :
    s.apply ctx' m = s.apply ctx m ∧ s.warnings ctx' = s.warnings ctx := by
  have hresolve (d : Declaration) (hs : s.DeclaresPrebuilt) :
      d.resolvePrebuilt ctx' = d.resolvePrebuilt ctx := by
    rw [Declaration.resolvePrebuilt, Declaration.resolvePrebuilt, hlocale hs, hverbose]
  cases s with
  | modelInfo info => exact ⟨rfl, rfl⟩
  | importLink link => exact ⟨by rw [Section.apply, hprobe]; rfl, rfl⟩
  | intent intent => exact ⟨intent.apply_congr hnested m, rfl⟩
  | question question => exact ⟨rfl, rfl⟩
  | newEntity e =>
      simp only [Section.apply, NewEntity.apply, Section.warnings, NewEntity.warnings]
      cases hplan : e.plan with
      | error fault => exact ⟨rfl, rfl⟩
      | ok plan =>
          have hs (hprebuilt : plan = .prebuilt) : (Section.newEntity e).DeclaresPrebuilt := by
            cases NewEntity.Reads.of_plan (hprebuilt ▸ hplan) with
            | prebuilt htype => exact htype
          exact ⟨Declaration.run_congr (hresolve _ ∘ hs) m,
            Declaration.warnings_congr (hlocale ∘ hs) (hresolve _ ∘ hs)⟩
  | legacyEntity e =>
      simp only [Section.apply, LegacyEntity.apply, Section.warnings, LegacyEntity.warnings]
      cases hplan : e.plan with
      | error fault => exact ⟨rfl, rfl⟩
      | ok declared =>
          have hs (hprebuilt : declared.2 = .prebuilt) :
              (Section.legacyEntity e).DeclaresPrebuilt := by
            obtain ⟨d, plan⟩ := declared
            subst hprebuilt
            cases LegacyEntity.Reads.of_plan hplan with
            | prebuilt h => exact h
          exact ⟨Declaration.run_congr (hresolve _ ∘ hs) m,
            Declaration.warnings_congr (hlocale ∘ hs) (hresolve _ ∘ hs)⟩

end Section

/-! ## Passes -/

/-- Only declarations of entities have warnings that depend on the circumstances. -/
lemma Section.warnings_of_pass_ne {ctx ctx' : Context} {s : Section} (h : s.pass ≠ .entities) :
    s.warnings ctx' = s.warnings ctx := by
  cases s with
  | modelInfo _ | importLink _ | question _ => rfl
  | intent _ | newEntity _ | legacyEntity _ => exact absurd rfl h

/-- Directives do not depend on the circumstances, which they may change. -/
lemma Section.apply_of_pass_eq {ctx ctx' : Context} {s : Section} (h : s.pass = .directives)
    (m : Model) : s.apply ctx' m = s.apply ctx m := by
  cases s with
  | modelInfo _ => rfl
  | _ => cases h

namespace Compile

variable {o o' : Options} {probe : Probe} {sections : List Section} {ctx ctx' : Context}

lemma passWarnings_congr (h : ∀ s ∈ sections, s.warnings ctx' = s.warnings ctx) :
    passWarnings ctx' sections = passWarnings ctx sections := by
  refine List.flatMap_congr fun pass _ => List.flatMap_congr fun s hs => ?_
  exact h s (mem_sectionsOf.mp hs).1

lemma runPass_congr {pass : Pass}
    (h : ∀ s ∈ sections, s.pass = pass → ∀ m, s.apply ctx' m = s.apply ctx m) (m : Model) :
    runPass ctx' sections m pass = runPass ctx sections m pass := by
  refine foldlM_congr (fun s hs m => ?_) m
  obtain ⟨hs, hpass⟩ := mem_sectionsOf.mp hs
  exact h s hs hpass m

/-! ## Relaxing -/

lemma contextAfter_relaxes (h : o.Relaxes o') (probe : Probe) (m : Model) :
    (contextAfter o probe m).Relaxes (contextAfter o' probe m) where
  locale := by simp only [contextAfter, Compile.locale, h.culture]
  probe := rfl
  options := h

lemma runPass_relaxed (h : ctx.Relaxes ctx') {pass : Pass} {m m' : Model}
    (hrun : runPass ctx sections m pass = .ok m') :
    runPass ctx' sections m pass = .ok m' ∧
      ∀ s ∈ sections, s.pass = pass → s.warnings ctx' = s.warnings ctx := by
  constructor
  · exact foldlM_ok_mono (fun s _ _ _ happly => (Section.apply_relaxed h happly).1) hrun
  · intro s hs hpass
    refine foldlM_ok_forall (fun _ => True) (fun s _ => s.warnings ctx' = s.warnings ctx)
      (fun _ _ _ _ _ => trivial) (fun _ _ _ _ happly => (Section.apply_relaxed h happly).2)
      ?_ trivial hrun s (mem_sectionsOf.mpr ⟨hs, hpass⟩)
    exact fun _ _ _ _ _ _ hkept => hkept

lemma runPasses_relaxed (h : o.Relaxes o') {m : Model}
    (hrun : runPasses o probe sections = .ok (ctx, m)) :
    ∃ ctx', runPasses o' probe sections = .ok (ctx', m) ∧
      passWarnings ctx' sections = passWarnings ctx sections := by
  unfold runPasses at hrun
  obtain ⟨m₁, hdirectives, hrun⟩ := bind_eq_ok_iff.mp hrun
  obtain ⟨m₂, himports, hrun⟩ := bind_eq_ok_iff.mp hrun
  obtain ⟨m₃, hentities, hrun⟩ := bind_eq_ok_iff.mp hrun
  obtain ⟨m₄, hquestions, hrun⟩ := bind_eq_ok_iff.mp hrun
  cases hrun
  have hstart := contextAfter_relaxes h probe {}
  have hafter := contextAfter_relaxes h probe m₁
  obtain ⟨hdirectives', -⟩ := runPass_relaxed hstart hdirectives
  obtain ⟨himports', -⟩ := runPass_relaxed hafter himports
  obtain ⟨hentities', hwarnings⟩ := runPass_relaxed hafter hentities
  obtain ⟨hquestions', -⟩ := runPass_relaxed hafter hquestions
  refine ⟨contextAfter o' probe m₁, ?_, passWarnings_congr fun s hs => ?_⟩
  · simp only [runPasses, bind_eq_ok_iff]
    exact ⟨m₁, hdirectives', m₂, himports', m₃, hentities', m, hquestions', rfl⟩
  · by_cases hpass : s.pass = .entities
    · exact hwarnings s hs hpass
    · exact Section.warnings_of_pass_ne hpass

lemma compile_relaxed (h : o.Relaxes o') {file source : String} {c : Compilation}
    (hc : compile file source o probe = .ok c) : compile file source o' probe = .ok c := by
  simp only [compile] at hc ⊢
  split_ifs at hc ⊢
  obtain ⟨⟨ctx, m⟩, hrun, hc⟩ := bind_eq_ok_iff.mp hc
  obtain ⟨ctx', hrun', hwarnings⟩ := runPasses_relaxed h hrun
  refine bind_eq_ok_iff.mpr ⟨(ctx', m), hrun', ?_⟩
  rw [hwarnings]
  exact hc

/-! ## Selecting -/

/-- Two compilations whose locale is the same as far as prebuilt types are declared. -/
lemma compile_congr {file source : String} (hverbose : o'.verbose = o.verbose)
    (hnested : o'.allowNestedLabels = o.allowNestedLabels)
    (hlocale : ∀ s ∈ (Document.read file source).sections, s.DeclaresPrebuilt →
      ∀ app, locale o' app = locale o app) :
    compile file source o' probe = compile file source o probe := by
  set sections := (Document.read file source).sections with hsections
  have hdirectives : runPass (contextAfter o' probe {}) sections {} .directives =
      runPass (contextAfter o probe {}) sections {} .directives :=
    runPass_congr (fun s _ hpass m => Section.apply_of_pass_eq hpass m) {}
  have hsection (m₀ m : Model) (s : Section) (hs : s ∈ sections) :
      s.apply (contextAfter o' probe m₀) m = s.apply (contextAfter o probe m₀) m ∧
        s.warnings (contextAfter o' probe m₀) = s.warnings (contextAfter o probe m₀) := by
    refine Section.apply_congr ?_ hverbose hnested ?_ m
    · rfl
    · exact fun hprebuilt => hlocale s hs hprebuilt m₀.app
  have hpass (m₀ m : Model) (pass : Pass) :
      runPass (contextAfter o' probe m₀) sections m pass =
        runPass (contextAfter o probe m₀) sections m pass :=
    runPass_congr (fun s hs _ m => (hsection m₀ m s hs).1) m
  have hwarnings (m₀ : Model) : passWarnings (contextAfter o' probe m₀) sections =
      passWarnings (contextAfter o probe m₀) sections :=
    passWarnings_congr fun s hs => (hsection m₀ {} s hs).2
  simp only [compile, ← hsections, runPasses, hdirectives, hpass, bind_assoc]
  split_ifs
  · rfl
  · refine congrArg (_ >>= ·) (funext fun m₀ => ?_)
    have hok {α β : Type} (a : α) (f : α → Except Failure β) : (Except.ok a >>= f) = f a := rfl
    simp only [hok, hwarnings]

/-- **Options relax or select and change nothing else.**  A source that compiles does so with
`verbose` or `allowNestedLabels` switched on as well, to the same model and with the same warnings.
A culture counts by its letters and not by their case.  And it does not count at all, whether it is
given or not, where no prebuilt entity is declared. -/
theorem options_relax_or_select (file source : String) (probe : Probe) :
    (∀ (o o' : Options) (c : Compilation), o.Relaxes o' →
      compile file source o probe = .ok c → compile file source o' probe = .ok c) ∧
    (∀ (o : Options) (culture culture' : String), Text.sameLetters culture culture' →
      compile file source { o with culture := some culture } probe =
        compile file source { o with culture := some culture' } probe) ∧
    ((∀ s ∈ (Document.read file source).sections, ¬ s.DeclaresPrebuilt) →
      ∀ (o : Options) (culture culture' : Option String),
        compile file source { o with culture := culture } probe =
          compile file source { o with culture := culture' } probe) := by
  refine ⟨fun o o' c h hc => compile_relaxed h hc, ?_, ?_⟩
  · intro o culture culture' hsame
    refine compile_congr rfl rfl fun _ _ _ app => ?_
    have hlower : Chars.lower culture.toList = Chars.lower culture'.toList := by
      simpa [Text.sameLetters, Chars.sameLetters] using hsame
    simp only [locale, Text.lower, hlower]
  · intro hnone o culture culture'
    exact compile_congr rfl rfl fun s hs hprebuilt => absurd hprebuilt (hnone s hs)

/-- A source with a prebuilt type that some locales have under another name. -/
def prebuiltSource : String :=
  "@ prebuilt datetimeV2\n# meet\n- at \x7btime=noon\x7d\n"

/-- A source with a label inside another. -/
def nestedSource : String :=
  "# meet\n- at \x7btime=\x7bhour=ten\x7d sharp\x7d\n"

theorem options_relax_or_select_prebuiltSource :
    (∃ c, compile "f" prebuiltSource ⟨some "ja-jp", false, false⟩ Probe.offline = .ok c ∧
      c.warnings.map Diagnostic.line = [1] ∧
      compile "f" prebuiltSource ⟨some "ja-jp", true, true⟩ Probe.offline = .ok c) ∧
    compile "f" prebuiltSource ⟨some "ja-jp", false, false⟩ Probe.offline =
      compile "f" prebuiltSource ⟨some "JA-jp", false, false⟩ Probe.offline ∧
    compile "f" prebuiltSource ⟨some "ja-jp", false, false⟩ Probe.offline ≠
      compile "f" prebuiltSource ⟨none, false, false⟩ Probe.offline ∧
    compile "f" nestedSource ⟨some "ja-jp", false, false⟩ Probe.offline =
      compile "f" nestedSource ⟨none, false, false⟩ Probe.offline ∧
    compile "f" nestedSource ⟨none, false, false⟩ Probe.offline ≠
      compile "f" nestedSource ⟨none, false, true⟩ Probe.offline := by
  have hstrict : (compile "f" prebuiltSource ⟨some "ja-jp", false, false⟩
      Probe.offline).toOption.map (fun c => c.warnings.map Diagnostic.line) = some [1] := by
    decide +kernel
  obtain ⟨c, hc, hwarnings⟩ := exists_ok_of_map_toOption hstrict
  obtain ⟨hrelax, hselect, -⟩ := options_relax_or_select "f" prebuiltSource Probe.offline
  obtain ⟨-, -, hfree⟩ := options_relax_or_select "f" nestedSource Probe.offline
  have hmore : Options.Relaxes ⟨some "ja-jp", false, false⟩ ⟨some "ja-jp", true, true⟩ :=
    ⟨rfl, fun _ => rfl, fun _ => rfl⟩
  refine ⟨⟨c, hc, hwarnings, hrelax _ _ c hmore hc⟩, ?_, ?_, ?_, ?_⟩
  · exact hselect ⟨none, false, false⟩ "ja-jp" "JA-jp" (by decide)
  · decide +kernel
  · exact hfree (by decide +kernel) ⟨none, false, false⟩ (some "ja-jp") none
  · decide +kernel

end Compile

end DialogModel
