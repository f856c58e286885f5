import DialogModel.Proofs.App.Steps

/-!
# Every section is a chain of changes

`Section.apply_steps`: carrying out a section takes the application along a chain of `App.Step`.
The declarations, the directives and the placeholders are chains of one or two changes.  A line with
labels is a loop of registrations, after which the labels are recorded together; its invariant is
that the records bear all labels that have been registered so far, since registering a label never
takes a role away and never turns a record into a placeholder.
-/

namespace DialogModel

open Entity

/-! ## Declarations -/

namespace Declaration

variable {d : Declaration} {app app' : App} {kind : Kind}

/-- A declaration finds its name free or of its own kind, or it takes over a record that yields. -/
lemma takeOver_eq_ok {carried : RoleSet} (h : d.takeOver app kind = .ok (carried, app')) :
    (carried = ∅ ∧ app' = app) ∨
      ∃ r, app.registry.get? d.name = some r ∧ app.Yields r d.name kind ∧ carried = r.roles ∧
        app' = { app with registry := app.registry.erase d.name } := by
  unfold takeOver at h
  cases hget : app.registry.get? d.name with
  | none =>
      simp only [hget, Except.ok.injEq, Prod.mk.injEq] at h
      exact .inl ⟨h.1.symm, h.2.symm⟩
  | some r =>
      simp only [hget] at h
      split_ifs at h with hkind hany hsimple hlabelled
      · simp only [Except.ok.injEq, Prod.mk.injEq] at h
        exact .inl ⟨h.1.symm, h.2.symm⟩
      · simp only [Except.ok.injEq, Prod.mk.injEq] at h
        exact .inr ⟨r, rfl, ⟨hkind, .inl hany⟩, h.1.symm, h.2.symm⟩
      · simp only [Except.ok.injEq, Prod.mk.injEq] at h
        have hfree : app.isLabelledWithoutRole d.name = false := by simpa using hlabelled
        exact .inr ⟨r, rfl, ⟨hkind, .inr ⟨hsimple.1, hsimple.2, hfree⟩⟩, h.1.symm, h.2.symm⟩

lemma register_step (hkind : kind ≠ .phraseList) (h : d.register app kind = .ok app') :
    App.Step app app' := by
  unfold register at h
  obtain ⟨⟨carried, app₁⟩, htake, h⟩ := bind_eq_ok_iff.mp h
  obtain ⟨reg, hdecl, h⟩ := bind_eq_ok_iff.mp h
  obtain ⟨hadm, rfl⟩ := Registry.declare_eq_ok_iff.mp (Provenance.locate_eq_ok_iff.mp hdecl)
  cases h
  rcases takeOver_eq_ok htake with ⟨rfl, rfl⟩ | ⟨r, hget, hyields, rfl, rfl⟩
  · exact .declared (fun _ => hkind) hadm
  · exact .promoted hkind hget hyields hadm

lemma registerPlain_step (hkind : kind ≠ .phraseList) (h : d.registerPlain app kind = .ok app') :
    App.Step app app' := by
  unfold registerPlain at h
  split_ifs at h
  exact register_step hkind h

/-- Registering an entity and then completing its detail. -/
lemma register_completed {f : Detail → Detail} (hf : Completes f) (hkind : kind ≠ .phraseList)
    (h : d.register app kind = .ok app') :
    App.Steps app { app' with registry := app'.registry.updateDetail d.name f } :=
  .tail (.single (register_step hkind h)) (.completed d.name hf)

lemma declareList_steps {given : List Sublist} (h : d.declareList app given = .ok app') :
    App.Steps app app' := by
  unfold declareList at h
  obtain ⟨new, -, h⟩ := bind_eq_ok_iff.mp h
  obtain ⟨app₁, hreg, h⟩ := bind_eq_ok_iff.mp h
  cases h
  exact register_completed (.sublists new) (by decide) hreg

lemma declareComposite_steps (h : d.declareComposite app = .ok app') : App.Steps app app' := by
  unfold declareComposite at h
  split at h
  · cases h
  · obtain ⟨app₁, hreg, h⟩ := bind_eq_ok_iff.mp h
    cases h
    exact register_completed (.children d.children) (by decide) hreg

lemma declareRegex_steps (h : d.declareRegex app = .ok app') : App.Steps app app' := by
  unfold declareRegex at h
  obtain ⟨new, -, h⟩ := bind_eq_ok_iff.mp h
  split at h
  · cases h
  · obtain ⟨app₁, hreg, h⟩ := bind_eq_ok_iff.mp h
    cases h
    exact register_completed (.pattern new) (by decide) hreg

lemma declarePrebuilt_steps {ctx : Context} (h : d.declarePrebuilt ctx app = .ok app') :
    App.Steps app app' := by
  unfold declarePrebuilt at h
  obtain ⟨resolution, -, h⟩ := bind_eq_ok_iff.mp h
  cases resolution with
  | registered type name => exact .single (register_step (by decide) h)
  | skipped type =>
      cases h
      exact .refl

lemma declarePhraseList_step {interchangeable : Bool}
    (h : d.declarePhraseList app interchangeable = .ok app') : App.Step app app' := by
  unfold declarePhraseList at h
  split_ifs at h
  split at h
  · next existing hfound =>
    split_ifs at h with hflag
    cases h
    refine .phrases d.items fun p hp => ?_
    rw [hfound] at hp
    exact Option.some.inj hp ▸ hflag
  · next hnone =>
    cases h
    refine .phrases d.items fun p hp => ?_
    rw [hnone] at hp
    cases hp

/-- A computation whose result replaces the application of a model. -/
lemma eq_ok_app {x : Except Failure App} {m m' : Model}
    (h : (x >>= fun app => pure { m with app }) = .ok m') : x = .ok m'.app := by
  obtain ⟨app, happ, h⟩ := bind_eq_ok_iff.mp h
  cases h
  exact happ

lemma run_steps {ctx : Context} {m m' : Model} {plan : Plan} (h : d.run ctx m plan = .ok m') :
    App.Steps m.app m'.app := by
  cases plan with
  | alterations =>
      cases h
      exact .refl
  | simple => exact .single (registerPlain_step (by decide) (eq_ok_app h))
  | patternAny => exact .single (registerPlain_step (by decide) (eq_ok_app h))
  | list given => exact declareList_steps (eq_ok_app h)
  | composite => exact declareComposite_steps (eq_ok_app h)
  | regex => exact declareRegex_steps (eq_ok_app h)
  | prebuilt => exact declarePrebuilt_steps (eq_ok_app h)
  | phraseList interchangeable => exact .single (declarePhraseList_step (eq_ok_app h))

end Declaration

/-! ## Labels with values -/

namespace Labelling

open Utterance

variable {prov : Provenance} {app app' : App} {kind : Kind} {entity : String} {role : Option String}

lemma declareAt_eq_ok_iff {name : String} {roles : RoleSet} :
    declareAt prov app kind name roles = .ok app' ↔
      app.registry.Admits kind name roles ∧
        app' = { app with registry := app.registry.declared kind name roles } := by
  unfold declareAt
  simp only [bind_eq_ok_iff, Provenance.locate_eq_ok_iff, Registry.declare_eq_ok_iff,
    Except.ok.injEq]
  constructor
  · rintro ⟨reg, ⟨hadm, rfl⟩, rfl⟩
    exact ⟨hadm, rfl⟩
  · rintro ⟨hadm, rfl⟩
    exact ⟨_, ⟨hadm, rfl⟩, rfl⟩

/-- A label is declared as an entity of the kind that its name has, simple if it has none, or it
turns a placeholder into a simple entity. -/
lemma registerLabel_eq_ok (h : registerLabel prov app entity role = .ok app') :
    (∃ kind, (app.registry.get? entity = none → kind = .simple) ∧ kind ≠ .patternAny ∧
        (role = none → kind.requiresRole = false) ∧
        app.registry.Admits kind entity (.ofList role.toList) ∧
        app' = { app with
          registry := app.registry.declared kind entity (.ofList role.toList) }) ∨
      ∃ r, app.registry.get? entity = some r ∧ r.kind = .patternAny ∧
        (app.registry.erase entity).Admits .simple entity (r.roles.union (.ofList role.toList)) ∧
        app' = { app with
          registry := (app.registry.erase entity).declared .simple entity
            (r.roles.union (.ofList role.toList)) } := by
  unfold registerLabel at h
  split at h
  · obtain ⟨hadm, rfl⟩ := declareAt_eq_ok_iff.mp h
    exact .inl ⟨.simple, fun _ => rfl, by decide, fun _ => rfl, hadm, rfl⟩
  · next r hget =>
    split_ifs at h with hneeds hany
    · obtain ⟨hadm, rfl⟩ := declareAt_eq_ok_iff.mp h
      exact .inr ⟨r, hget, hany, hadm, rfl⟩
    · obtain ⟨hadm, rfl⟩ := declareAt_eq_ok_iff.mp h
      refine .inl ⟨r.kind, fun hnone => ?_, hany, fun hrole => ?_, hadm, rfl⟩
      · rw [hget] at hnone
        cases hnone
      · subst hrole
        simpa using hneeds

lemma registerLabel_step (h : registerLabel prov app entity role = .ok app') :
    App.Step app app' := by
  rcases registerLabel_eq_ok h with ⟨kind, hnew, -, -, hadm, rfl⟩ | ⟨r, hget, hany, hadm, rfl⟩
  · refine .declared (fun hnone => ?_) hadm
    rw [hnew hnone]
    decide
  · exact .promoted (by decide) hget ⟨by rw [hany]; decide, .inl hany⟩ hadm

/-- After its registration the records bear a label. -/
lemma bears_registerLabel (hs : app.registry.Sound)
    (h : registerLabel prov app entity role = .ok app') : app'.registry.Bears entity role := by
  have hs' := (registerLabel_step h).sound hs
  rcases registerLabel_eq_ok h with ⟨kind, hnew, hany, hneeds, hadm, rfl⟩ | ⟨r, hget, -, hadm, rfl⟩
  · have hkind : (app.registry.getOrNew kind entity).kind = kind := by
      unfold Registry.getOrNew
      cases hget : app.registry.get? entity with
      | none => simp
      | some r => simpa using hadm.same_kind r hget
    have hfound : (app.registry.declared kind entity (.ofList role.toList)).get? entity =
        some ((app.registry.getOrNew kind entity).addRoles (.ofList role.toList)) := by simp
    refine ⟨_, hfound, ?_, fun hrole => ?_, fun q hq => ?_⟩
    · simpa [hkind] using hany
    · simpa [hkind] using hneeds hrole
    · have hne := hs'.kind_ne hfound
      rw [Record.kind_addRoles] at hne
      rw [Record.mem_roles_addRoles hne]
      simp [hq]
  · refine ⟨(Record.ofKind .simple entity).addRoles (r.roles.union (.ofList role.toList)), ?_,
      by simp, fun _ => by simp [Kind.requiresRole], fun q hq => ?_⟩
    · simp [Registry.getOrNew]
    · rw [Record.mem_roles_addRoles (by simp)]
      simp [hq]

/-- Registering a label keeps the labels that the records bear. -/
lemma Bears.registerLabel (h : registerLabel prov app entity role = .ok app') {e : String}
    {q : Option String} (hb : app.registry.Bears e q) : app'.registry.Bears e q := by
  obtain ⟨r, hget, hany, hneeds, hroles⟩ := hb
  rcases registerLabel_eq_ok h with ⟨kind, -, -, -, -, rfl⟩ | ⟨old, hold, hkind, -, rfl⟩
  · by_cases he : entity = e
    · subst he
      refine ⟨r.addRoles (.ofList role.toList), ?_, by simpa using hany, by simpa using hneeds,
        fun x hx => Record.mem_addRoles_of_mem (hroles x hx)⟩
      simp [Registry.getOrNew, hget]
    · exact ⟨r, by simp [he, hget], hany, hneeds, hroles⟩
  · by_cases he : entity = e
    · subst he
      rw [hold] at hget
      exact absurd (Option.some.inj hget ▸ hkind) hany
    · exact ⟨r, by simp [he, hget], hany, hneeds, hroles⟩

lemma resolveNested_steps {span : Span} (hs : app.registry.Sound)
    (h : resolveNested prov app span = .ok app') : App.Steps app app' := by
  unfold resolveNested at h
  rcases target app.registry span.head with ⟨entity, role⟩
  obtain ⟨app₁, hreg, h⟩ := bind_eq_ok_iff.mp h
  cases h
  exact .tail (.single (registerLabel_step hreg)) (.noted (bears_registerLabel hs hreg))

/-- A round of the loop over the labels of an utterance: the labels that have been registered stay
borne, and the new one joins them. -/
lemma resolveTop_steps {span : Span} {acc acc' : App × List Label} (hs : acc.1.registry.Sound)
    (hacc : ∀ l ∈ acc.2, acc.1.registry.Bears l.entity l.role)
    (h : resolveTop prov acc span = .ok acc') :
    App.Steps acc.1 acc'.1 ∧ ∀ l ∈ acc'.2, acc'.1.registry.Bears l.entity l.role := by
  unfold resolveTop at h
  rcases target acc.1.registry span.head with ⟨entity, role⟩
  obtain ⟨app₁, hreg, h⟩ := bind_eq_ok_iff.mp h
  cases h
  refine ⟨.single (registerLabel_step hreg), fun l hl => ?_⟩
  rcases List.mem_append.mp hl with hl | hl
  · exact Bears.registerLabel hreg (hacc l hl)
  · rw [List.mem_singleton.mp hl]
    exact bears_registerLabel hs hreg

lemma addLabelled_steps {intent : String} {flat : Flat} (hs : app.registry.Sound)
    (h : addLabelled prov intent flat app = .ok app') : App.Steps app app' := by
  unfold addLabelled at h
  split at h
  · cases h
  · obtain ⟨app₁, hnested, h⟩ := bind_eq_ok_iff.mp h
    obtain ⟨⟨app₂, labels⟩, htop, h⟩ := bind_eq_ok_iff.mp h
    cases h
    have h₁ : App.Steps app app₁ := by
      refine foldlM_ok_induction (App.Steps app) (fun b span b' hb hstep => ?_) .refl hnested
      exact hb.trans (resolveNested_steps (hb.sound hs) hstep)
    have h₂ : App.Steps app₁ app₂ ∧ ∀ l ∈ labels, app₂.registry.Bears l.entity l.role := by
      refine foldlM_ok_induction
        (fun acc => App.Steps app₁ acc.1 ∧ ∀ l ∈ acc.2, acc.1.registry.Bears l.entity l.role)
        (fun acc span acc' hacc hstep => ?_) ⟨.refl, fun _ hl => absurd hl List.not_mem_nil⟩ htop
      have hs' := hacc.1.sound (h₁.sound hs)
      obtain ⟨hsteps, hbears⟩ := resolveTop_steps hs' hacc.2 hstep
      exact ⟨hacc.1.trans hsteps, hbears⟩
    exact (h₁.trans h₂.1).tail (.utterance h₂.2)

/-! ## Patterns -/

lemma registerPlaceholder_step {head : Head} (h : registerPlaceholder prov app head = .ok app') :
    App.Step app app' := by
  unfold registerPlaceholder at h
  obtain ⟨hadm, rfl⟩ := declareAt_eq_ok_iff.mp h
  refine .declared (fun hnone => ?_) hadm
  simp [Registry.kindOf?, hnone]

lemma addPatternNode_steps {acc acc' : App × List Char} {node : Node}
    (h : addPatternNode prov acc node = .ok acc') : App.Steps acc.1 acc'.1 := by
  unfold addPatternNode at h
  split at h
  · cases h
    exact .refl
  all_goals
    split_ifs at h
    · cases h
      exact .refl
    · obtain ⟨app₁, hreg, h⟩ := bind_eq_ok_iff.mp h
      cases h
      exact .single (registerPlaceholder_step hreg)

lemma addPattern_steps {line : UtteranceLine} {intent : String}
    (h : addPattern line intent app = .ok app') : App.Steps app app' := by
  unfold addPattern at h
  obtain ⟨⟨app₁, text⟩, hnodes, h⟩ := bind_eq_ok_iff.mp h
  cases h
  have h₁ : App.Steps app app₁ := by
    refine foldlM_ok_induction (fun acc => App.Steps app acc.1) (fun acc node acc' hacc hstep => ?_)
      .refl hnodes
    exact hacc.trans (addPatternNode_steps hstep)
  exact (h₁.tail (.intent app₁ intent)).tail (.pattern _ _)

end Labelling

/-! ## Sections -/

lemma UtteranceLine.apply_steps {options : Options} {intent : String} {line : UtteranceLine}
    {app app' : App} (hs : app.registry.Sound) (h : line.apply options intent app = .ok app') :
    App.Steps app app' := by
  unfold apply at h
  split at h
  · cases h
  · split_ifs at h
    · cases h
      exact .single (.utterance fun _ hl => absurd hl List.not_mem_nil)
    · exact Labelling.addPattern_steps h
    · exact Labelling.addLabelled_steps hs h

lemma IntentSection.apply_steps {options : Options} {s : IntentSection} {m m' : Model}
    (hs : m.app.registry.Sound) (h : s.apply options m = .ok m') : App.Steps m.app m'.app := by
  unfold apply at h
  obtain ⟨app, hlines, h⟩ := bind_eq_ok_iff.mp h
  cases h
  have hstart : App.Steps m.app (m.app.ensureIntent s.name) := .single (.intent m.app s.name)
  refine foldlM_ok_induction (App.Steps m.app) (fun b line b' hb hstep => ?_) hstart hlines
  exact hb.trans (UtteranceLine.apply_steps (hb.sound hs) hstep)

lemma Directive.apply_steps {d : Directive} {prov : Provenance} {m m' : Model}
    (h : d.apply prov m = .ok m') : App.Steps m.app m'.app := by
  cases d with
  | appSetting key value =>
      cases h
      exact .single (.setting m.app key value)
  | kbSetting key value =>
      cases h
      exact .refl
  | intentInherits name inherits =>
      cases h
      exact .single (.intentInherits m.app name inherits)
  | entityInherits name inherits =>
      obtain ⟨reg, hdecl, h⟩ := bind_eq_ok_iff.mp h
      cases h
      replace hdecl := Provenance.locate_eq_ok_iff.mp hdecl
      unfold declareNamed at hdecl
      split_ifs at hdecl
      · cases hdecl
        exact .single (.entityInherits m.app name inherits)
      · obtain ⟨hadm, rfl⟩ := Registry.declare_eq_ok_iff.mp hdecl
        exact .tail (.single (.declared (fun _ => by decide) hadm))
          (.entityInherits _ name inherits)

/-- **Carrying out a section is a chain of changes.** -/
theorem Section.apply_steps {ctx : Context} {s : Section} {m m' : Model}
    (hs : m.app.registry.Sound) (h : s.apply ctx m = .ok m') : App.Steps m.app m'.app := by
  cases s with
  | modelInfo info =>
      simp only [Section.apply, ModelInfo.apply] at h
      split at h
      · exact Directive.apply_steps h
      · cases h
        exact .refl
  | importLink link =>
      simp only [Section.apply, ImportLink.apply] at h
      split_ifs at h
      · split at h
        · cases h
          exact .refl
        · cases h
      · cases h
        exact .refl
  | intent intent => exact IntentSection.apply_steps hs h
  | newEntity entity =>
      obtain ⟨plan, -, h⟩ := bind_eq_ok_iff.mp h
      exact Declaration.run_steps h
  | legacyEntity entity =>
      obtain ⟨⟨declaration, plan⟩, -, h⟩ := bind_eq_ok_iff.mp h
      exact Declaration.run_steps h
  | question question =>
      cases h
      exact .refl

/-- A section keeps the registry sound. -/
lemma Section.apply_sound {ctx : Context} {s : Section} {m m' : Model}
    (hs : m.app.registry.Sound) (h : s.apply ctx m = .ok m') : m'.app.registry.Sound :=
  (Section.apply_steps hs h).sound hs

end DialogModel
