import DialogModel.Proofs.App.Sections
import DialogModel.Proofs.Declaration.Plans

/-!
# Where the contents of the registry come from

What the registry holds besides names and roles, the values of lists, the children of composites,
the patterns of regexes and the phrases of phrase lists, comes from declarations alone: labels,
placeholders and directives only make entities without a detail.  `Section.apply_keeps` turns this
into a principle of induction.  A property of the registry that survives the making and removing of
entities is kept by a section if the declaration of the section keeps it.
-/

namespace DialogModel

open Entity

/-! ## Declarations of a section -/

/-- The declaration of a section, and what it declares. -/
inductive Section.Declares : Section → Declaration → Declaration.Plan → Prop
  | newEntity {e : NewEntity} {plan : Declaration.Plan} (h : e.plan = .ok plan) :
      Declares (.newEntity e) e.declaration plan
  | legacyEntity {e : LegacyEntity} {d : Declaration} {plan : Declaration.Plan}
      (h : e.plan = .ok (d, plan)) : Declares (.legacyEntity e) d plan

/-- A section that declares something carries out its declaration. -/
lemma Section.apply_of_declares {s : Section} {d : Declaration} {plan : Declaration.Plan}
    (h : s.Declares d plan) (ctx : Context) (m : Model) : s.apply ctx m = d.run ctx m plan := by
  cases h with
  | newEntity hplan =>
      simp only [Section.apply, NewEntity.apply, hplan]
      rfl
  | legacyEntity hplan =>
      simp only [Section.apply, LegacyEntity.apply, hplan]
      rfl

/-- How a declaration completes the detail of its entity. -/
inductive Declaration.CompletesBy (d : Declaration) : Plan → (Detail → Detail) → Prop
  | sublists {given new : List Sublist} (h : d.sublists given = .ok new) :
      CompletesBy d (.list given) (mergeSublists new)
  | children : CompletesBy d .composite (setChildren d.children)
  | pattern {new : Option String} (h : d.pattern = .ok new) :
      CompletesBy d .regex (setPattern new)

/-! ## Properties of the registry -/

/-- A property of the registry that does not depend on which entities there are, as long as those
with contents stay. -/
structure Registry.Lasting (I : Registry → Prop) : Prop where
  declared : ∀ {reg : Registry} (kind : Kind) (name : String) (roles : RoleSet),
    I reg → I (reg.declared kind name roles)
  /-- Only placeholders and simple entities are removed. -/
  erase : ∀ {reg : Registry} {name : String} {r : Record}, reg.get? name = some r →
    r.kind = .patternAny ∨ r.kind = .simple → I reg → I (reg.erase name)

/-- A property of the registry that the contents of a declaration do not affect. -/
structure Declaration.Keeps (I : Registry → Prop) (d : Declaration) (plan : Plan) : Prop where
  completed : ∀ {reg : Registry} {f : Detail → Detail}, d.CompletesBy plan f →
    I reg → I (reg.updateDetail d.name f)
  phrases : ∀ {reg : Registry} {interchangeable : Bool}, plan = .phraseList interchangeable →
    I reg → I (reg.updatePhrases d.name interchangeable (FirstSeen.addAll · d.items))

namespace Declaration

variable {I : Registry → Prop} {d : Declaration} {app app' : App} {kind : Kind}

lemma register_keeps (hI : Registry.Lasting I) (h : d.register app kind = .ok app')
    (happ : I app.registry) : I app'.registry := by
  unfold register at h
  obtain ⟨⟨carried, app₁⟩, htake, h⟩ := bind_eq_ok_iff.mp h
  obtain ⟨reg, hdecl, h⟩ := bind_eq_ok_iff.mp h
  obtain ⟨-, rfl⟩ := Registry.declare_eq_ok_iff.mp (Provenance.locate_eq_ok_iff.mp hdecl)
  cases h
  rcases takeOver_eq_ok htake with ⟨-, rfl⟩ | ⟨r, hget, hyields, -, rfl⟩
  · exact hI.declared _ _ _ happ
  · exact hI.declared _ _ _ (hI.erase hget (hyields.2.imp_right And.left) happ)

lemma registerPlain_keeps (hI : Registry.Lasting I) (h : d.registerPlain app kind = .ok app')
    (happ : I app.registry) : I app'.registry := by
  unfold registerPlain at h
  split_ifs at h
  exact register_keeps hI h happ

lemma declareList_keeps {given : List Sublist} (hI : Registry.Lasting I)
    (hd : d.Keeps I (.list given)) (h : d.declareList app given = .ok app')
    (happ : I app.registry) : I app'.registry := by
  unfold declareList at h
  obtain ⟨new, hnew, h⟩ := bind_eq_ok_iff.mp h
  obtain ⟨app₁, hreg, h⟩ := bind_eq_ok_iff.mp h
  cases h
  exact hd.completed (.sublists hnew) (register_keeps hI hreg happ)

lemma declareComposite_keeps (hI : Registry.Lasting I) (hd : d.Keeps I .composite)
    (h : d.declareComposite app = .ok app') (happ : I app.registry) : I app'.registry := by
  unfold declareComposite at h
  split at h
  · cases h
  · obtain ⟨app₁, hreg, h⟩ := bind_eq_ok_iff.mp h
    cases h
    exact hd.completed .children (register_keeps hI hreg happ)

lemma declareRegex_keeps (hI : Registry.Lasting I) (hd : d.Keeps I .regex)
    (h : d.declareRegex app = .ok app') (happ : I app.registry) : I app'.registry := by
  unfold declareRegex at h
  obtain ⟨new, hnew, h⟩ := bind_eq_ok_iff.mp h
  split at h
  · cases h
  · obtain ⟨app₁, hreg, h⟩ := bind_eq_ok_iff.mp h
    cases h
    exact hd.completed (.pattern (Provenance.locate_eq_ok_iff.mp hnew))
      (register_keeps hI hreg happ)

lemma declarePrebuilt_keeps {ctx : Context} (hI : Registry.Lasting I)
    (h : d.declarePrebuilt ctx app = .ok app') (happ : I app.registry) : I app'.registry := by
  unfold declarePrebuilt at h
  obtain ⟨resolution, -, h⟩ := bind_eq_ok_iff.mp h
  cases resolution with
  | registered type name => exact register_keeps hI h happ
  | skipped type =>
      cases h
      exact happ

lemma declarePhraseList_keeps {interchangeable : Bool}
    (hd : d.Keeps I (.phraseList interchangeable))
    (h : d.declarePhraseList app interchangeable = .ok app') (happ : I app.registry) :
    I app'.registry := by
  unfold declarePhraseList at h
  split_ifs at h
  split at h
  · split_ifs at h
    cases h
    exact hd.phrases rfl happ
  · cases h
    exact hd.phrases rfl happ

lemma run_keeps {ctx : Context} {m m' : Model} {plan : Plan} (hI : Registry.Lasting I)
    (hd : d.Keeps I plan) (h : d.run ctx m plan = .ok m') (hm : I m.app.registry) :
    I m'.app.registry := by
  cases plan with
  | alterations =>
      cases h
      exact hm
  | simple => exact registerPlain_keeps hI (eq_ok_app h) hm
  | patternAny => exact registerPlain_keeps hI (eq_ok_app h) hm
  | list given => exact declareList_keeps hI hd (eq_ok_app h) hm
  | composite => exact declareComposite_keeps hI hd (eq_ok_app h) hm
  | regex => exact declareRegex_keeps hI hd (eq_ok_app h) hm
  | prebuilt => exact declarePrebuilt_keeps hI (eq_ok_app h) hm
  | phraseList interchangeable => exact declarePhraseList_keeps hd (eq_ok_app h) hm

end Declaration

/-! ## Lines of intents -/

namespace Labelling

open Utterance

variable {I : Registry → Prop} {prov : Provenance} {app app' : App}

lemma registerLabel_keeps (hI : Registry.Lasting I) {entity : String} {role : Option String}
    (h : registerLabel prov app entity role = .ok app') (happ : I app.registry) :
    I app'.registry := by
  rcases registerLabel_eq_ok h with ⟨kind, -, -, -, -, rfl⟩ | ⟨r, hget, hany, -, rfl⟩
  · exact hI.declared _ _ _ happ
  · exact hI.declared _ _ _ (hI.erase hget (.inl hany) happ)

lemma resolveNested_keeps (hI : Registry.Lasting I) {span : Span}
    (h : resolveNested prov app span = .ok app') (happ : I app.registry) : I app'.registry := by
  unfold resolveNested at h
  obtain ⟨app₁, hreg, h⟩ := bind_eq_ok_iff.mp h
  cases h
  rw [App.registry_noteLabel]
  exact registerLabel_keeps hI hreg happ

lemma resolveTop_keeps (hI : Registry.Lasting I) {acc acc' : App × List Label} {span : Span}
    (h : resolveTop prov acc span = .ok acc') (hacc : I acc.1.registry) : I acc'.1.registry := by
  unfold resolveTop at h
  obtain ⟨app₁, hreg, h⟩ := bind_eq_ok_iff.mp h
  cases h
  exact registerLabel_keeps hI hreg hacc

lemma addLabelled_keeps (hI : Registry.Lasting I) {intent : String} {flat : Flat}
    (h : addLabelled prov intent flat app = .ok app') (happ : I app.registry) :
    I app'.registry := by
  unfold addLabelled at h
  split at h
  · cases h
  · obtain ⟨app₁, hnested, h⟩ := bind_eq_ok_iff.mp h
    obtain ⟨⟨app₂, labels⟩, htop, h⟩ := bind_eq_ok_iff.mp h
    cases h
    have h₁ : I app₁.registry :=
      foldlM_ok_induction (fun b => I b.registry)
        (fun _ _ _ hb hstep => resolveNested_keeps hI hstep hb) happ hnested
    have h₂ : I app₂.registry :=
      foldlM_ok_induction (fun acc => I acc.1.registry)
        (fun _ _ _ hacc hstep => resolveTop_keeps hI hstep hacc) h₁ htop
    rw [App.registry_addUtterance]
    exact h₂

lemma addPatternNode_keeps (hI : Registry.Lasting I) {acc acc' : App × List Char} {node : Node}
    (h : addPatternNode prov acc node = .ok acc') (hacc : I acc.1.registry) :
    I acc'.1.registry := by
  unfold addPatternNode at h
  split at h
  · cases h
    exact hacc
  all_goals
    split_ifs at h
    · cases h
      exact hacc
    · obtain ⟨app₁, hreg, h⟩ := bind_eq_ok_iff.mp h
      cases h
      obtain ⟨-, rfl⟩ := declareAt_eq_ok_iff.mp hreg
      exact hI.declared _ _ _ hacc

lemma addPattern_keeps (hI : Registry.Lasting I) {line : UtteranceLine} {intent : String}
    (h : addPattern line intent app = .ok app') (happ : I app.registry) : I app'.registry := by
  unfold addPattern at h
  obtain ⟨⟨app₁, text⟩, hnodes, h⟩ := bind_eq_ok_iff.mp h
  cases h
  rw [App.registry_addPattern, App.registry_ensureIntent]
  exact foldlM_ok_induction (fun acc => I acc.1.registry)
    (fun _ _ _ hacc hstep => addPatternNode_keeps hI hstep hacc) happ hnodes

end Labelling

/-! ## Sections -/

section

variable {I : Registry → Prop}

lemma UtteranceLine.apply_keeps (hI : Registry.Lasting I) {options : Options} {intent : String}
    {line : UtteranceLine} {app app' : App} (h : line.apply options intent app = .ok app')
    (happ : I app.registry) : I app'.registry := by
  unfold apply at h
  split at h
  · cases h
  · split_ifs at h
    · cases h
      rw [App.registry_addUtterance]
      exact happ
    · exact Labelling.addPattern_keeps hI h happ
    · exact Labelling.addLabelled_keeps hI h happ

lemma IntentSection.apply_keeps (hI : Registry.Lasting I) {options : Options} {s : IntentSection}
    {m m' : Model} (h : s.apply options m = .ok m') (hm : I m.app.registry) :
    I m'.app.registry := by
  unfold apply at h
  obtain ⟨app, hlines, h⟩ := bind_eq_ok_iff.mp h
  cases h
  refine foldlM_ok_induction (fun b => I b.registry)
    (fun _ _ _ hb hstep => UtteranceLine.apply_keeps hI hstep hb) ?_ hlines
  rw [App.registry_ensureIntent]
  exact hm

lemma Directive.apply_keeps (hI : Registry.Lasting I) {d : Directive} {prov : Provenance}
    {m m' : Model} (h : d.apply prov m = .ok m') (hm : I m.app.registry) :
    I m'.app.registry := by
  cases d with
  | appSetting | kbSetting | intentInherits =>
      cases h
      exact hm
  | entityInherits name inherits =>
      obtain ⟨reg, hdecl, h⟩ := bind_eq_ok_iff.mp h
      cases h
      replace hdecl := Provenance.locate_eq_ok_iff.mp hdecl
      unfold declareNamed at hdecl
      split_ifs at hdecl
      · cases hdecl
        exact hm
      · obtain ⟨-, rfl⟩ := Registry.declare_eq_ok_iff.mp hdecl
        exact hI.declared _ _ _ hm

/-- **The contents of the registry come from declarations.** -/
lemma Section.apply_keeps (hI : Registry.Lasting I) {ctx : Context} {s : Section} {m m' : Model}
    (hs : ∀ d plan, s.Declares d plan → d.Keeps I plan) (h : s.apply ctx m = .ok m')
    (hm : I m.app.registry) : I m'.app.registry := by
  cases s with
  | modelInfo info =>
      simp only [Section.apply, ModelInfo.apply] at h
      split at h
      · exact Directive.apply_keeps hI h hm
      · cases h
        exact hm
  | importLink link =>
      simp only [Section.apply, ImportLink.apply] at h
      split_ifs at h
      · split at h
        · cases h
          exact hm
        · cases h
      · cases h
        exact hm
  | intent intent => exact IntentSection.apply_keeps hI h hm
  | newEntity entity =>
      obtain ⟨plan, hplan, h⟩ := bind_eq_ok_iff.mp h
      rw [Provenance.locate_eq_ok_iff] at hplan
      exact Declaration.run_keeps hI (hs _ _ (.newEntity hplan)) h hm
  | legacyEntity entity =>
      obtain ⟨⟨declaration, plan⟩, hplan, h⟩ := bind_eq_ok_iff.mp h
      rw [Provenance.locate_eq_ok_iff] at hplan
      exact Declaration.run_keeps hI (hs _ _ (.legacyEntity hplan)) h hm
  | question question =>
      cases h
      exact hm

end

end DialogModel
