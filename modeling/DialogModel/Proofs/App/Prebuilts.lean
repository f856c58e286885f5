import DialogModel.Proofs.App.Contents
import DialogModel.Proofs.App.Repetition
import DialogModel.Proofs.Utterance.Solid

/-!
# Where prebuilt entities and their roles come from

An entity becomes prebuilt in one way only, by a declaration of a prebuilt type, and stays so.  All
other changes may add roles to it: a label or a placeholder that names it with a role.

`Registry.PrebuiltFrom new given` compares the registry before and after a change: the prebuilt
entities are the old ones and those that are `new`, and their roles are the old ones and those that
are `given`.  It composes, so that what a line, a section or a whole compilation gives is read off
its parts.  The other direction, that what is given is there in the end, is a matter of growth.
-/

namespace DialogModel

open Entity Utterance

namespace Registry

variable {reg reg' reg'' : Registry} {kind : Kind} {name : String} {roles : RoleSet}

/-- A prebuilt entity has a role. -/
def PrebuiltRole (reg : Registry) (type role : String) : Prop :=
  ∃ r, reg.get? type = some r ∧ r.kind = .prebuilt ∧ role ∈ r.roles

/-- The prebuilt entities of the second registry are those of the first and new ones, and their
roles are those that they had and given ones. -/
structure PrebuiltFrom (new : String → Prop) (given : String → String → Prop)
    (reg reg' : Registry) : Prop where
  types : ∀ {type}, reg'.kindOf? type = some .prebuilt →
    reg.kindOf? type = some .prebuilt ∨ new type
  roles : ∀ {type role}, reg'.PrebuiltRole type role →
    reg.PrebuiltRole type role ∨ given type role

namespace PrebuiltFrom

variable {new new' : String → Prop} {given given' : String → String → Prop}

lemma refl (reg : Registry) : PrebuiltFrom new given reg reg :=
  ⟨.inl, .inl⟩

lemma trans (h : PrebuiltFrom new given reg reg') (h' : PrebuiltFrom new given reg' reg'') :
    PrebuiltFrom new given reg reg'' where
  types htype := (h'.types htype).elim h.types .inr
  roles hrole := (h'.roles hrole).elim h.roles .inr

lemma mono (h : PrebuiltFrom new given reg reg') (hnew : ∀ type, new type → new' type)
    (hgiven : ∀ type role, given type role → given' type role) :
    PrebuiltFrom new' given' reg reg' where
  types htype := (h.types htype).imp_right (hnew _)
  roles hrole := (h.roles hrole).imp_right (hgiven _ _)

/-- Records that are found after a change with the same kind and the same roles as before. -/
lemma of_found (h : ∀ {x r'}, reg'.get? x = some r' →
    ∃ r, reg.get? x = some r ∧ r.kind = r'.kind ∧ r.roles = r'.roles) :
    PrebuiltFrom new given reg reg' where
  types {type} htype := by
    obtain ⟨r', hget', hkind⟩ := Option.map_eq_some_iff.mp htype
    obtain ⟨r, hget, hsame, -⟩ := h hget'
    exact .inl (by simp [kindOf?, hget, hsame, hkind])
  roles := by
    rintro type role ⟨r', hget', hkind, hrole⟩
    obtain ⟨r, hget, hsame, hroles⟩ := h hget'
    exact .inl ⟨r, hget, hsame.trans hkind, hroles ▸ hrole⟩

lemma erase (reg : Registry) (name : String) : PrebuiltFrom new given reg (reg.erase name) := by
  refine of_found fun {x r} hget => ⟨r, ?_, rfl, rfl⟩
  rw [get?_erase] at hget
  split_ifs at hget
  exact hget

lemma updateDetail {f : Detail → Detail} (hf : ∀ d, (f d).kind = d.kind) (reg : Registry)
    (name : String) : PrebuiltFrom new given reg (reg.updateDetail name f) := by
  refine of_found fun {x r} hget => ?_
  rw [get?_updateDetail] at hget
  split_ifs at hget
  · obtain ⟨old, hold, rfl⟩ := Option.map_eq_some_iff.mp hget
    exact ⟨old, hold, (hf old.detail).symm, rfl⟩
  · exact ⟨r, hget, rfl, rfl⟩

/-- A declaration makes a prebuilt entity only if it declares one, and gives it its roles. -/
lemma declared (hadm : reg.Admits kind name roles)
    (hnew : kind = .prebuilt → reg.kindOf? name = some .prebuilt ∨ new name)
    (hgiven : kind = .prebuilt → ∀ role ∈ roles, reg.PrebuiltRole name role ∨ given name role) :
    PrebuiltFrom new given reg (reg.declared kind name roles) := by
  have hkind := hadm.kind_getOrNew
  constructor
  · intro type htype
    rw [kindOf?, get?_declared] at htype
    split_ifs at htype with hname
    · subst hname
      exact hnew (by simpa [hkind] using htype)
    · exact .inl htype
  · rintro type role ⟨r', hget', hprebuilt, hrole⟩
    rw [get?_declared] at hget'
    split_ifs at hget' with hname
    · subst hname
      obtain rfl := Option.some.inj hget'
      rw [Record.kind_addRoles] at hprebuilt
      obtain rfl := hkind.symm.trans hprebuilt
      rw [Record.mem_roles_addRoles (by rw [hprebuilt]; decide)] at hrole
      rcases hrole with hold | hrole
      · cases hget : reg.get? name with
        | none => simp [getOrNew, hget] at hold
        | some r =>
            simp only [getOrNew, hget, Option.getD_some] at hold hprebuilt
            exact .inl ⟨r, hget, hprebuilt, hold⟩
      · exact hgiven rfl role hrole
    · exact .inl ⟨r', hget', hprebuilt, hrole⟩

/-- A declaration of another kind makes no prebuilt entity. -/
lemma declared_of_ne (hadm : reg.Admits kind name roles) (hkind : kind ≠ .prebuilt) :
    PrebuiltFrom new given reg (reg.declared kind name roles) :=
  declared hadm (fun h => absurd h hkind) (fun h => absurd h hkind)

end PrebuiltFrom

end Registry

open Registry

/-! ## Labels of an utterance -/

namespace Utterance

lemma mem_headsOf_iff {nodes : List Node} {head : Head} :
    head ∈ headsOf nodes ↔ ∃ node ∈ nodes, head ∈ node.heads := by
  induction nodes with
  | nil => simp [headsOf]
  | cons node nodes ih => simp [headsOf, ih]

/-- Every label has a flat span. -/
lemma exists_span_of_mem_headsOf {nodes : List Node} {head : Head} (h : head ∈ headsOf nodes) :
    ∃ s, (s ∈ (flatOf nodes).nested ∨ s ∈ (flatOf nodes).labels) ∧ s.head = head := by
  rw [← map_head_spansOf nodes 0 0, List.mem_map] at h
  obtain ⟨⟨depth, span⟩, hspan, rfl⟩ := h
  simp only [flatOf, List.mem_map, List.mem_filter]
  by_cases hdepth : depth = 0
  · exact ⟨_, .inr ⟨(depth, span), ⟨hspan, by simpa using hdepth⟩, rfl⟩, rfl⟩
  · exact ⟨_, .inl ⟨(depth, span), ⟨hspan, by simpa using hdepth⟩, rfl⟩, rfl⟩

lemma labels_ne_nil_of_mem_headsOf {nodes : List Node} {head : Head} (h : head ∈ headsOf nodes) :
    (flatOf nodes).labels ≠ [] := by
  intro hnil
  obtain ⟨node, hnode, hhead⟩ := mem_headsOf_iff.mp h
  have htext := labels_eq_nil_iff.mp hnil node hnode
  cases node with
  | text content => cases hhead
  | placeholder head => cases htext
  | labelled head value => cases htext

end Utterance

/-! ## Declarations -/

section

variable {new : String → Prop} {given : String → String → Prop}

namespace Declaration

variable {d : Declaration} {app app' : App} {kind : Kind}

/-- A registration gives the entity the roles of the declaration and of the placeholder that it
takes over. -/
lemma register_prebuiltFrom (hnew : kind = .prebuilt → new d.name)
    (hroles : kind = .prebuilt → ∀ role ∈ d.roles, given d.name role)
    (hcarried : kind = .prebuilt → ∀ r, app.registry.get? d.name = some r → r.kind = .patternAny →
      ∀ role ∈ r.roles, given d.name role)
    (h : d.register app kind = .ok app') :
    PrebuiltFrom new given app.registry app'.registry := by
  unfold register at h
  obtain ⟨⟨carried, app₁⟩, htake, h⟩ := bind_eq_ok_iff.mp h
  obtain ⟨reg, hdecl, h⟩ := bind_eq_ok_iff.mp h
  obtain ⟨hadm, rfl⟩ := Registry.declare_eq_ok_iff.mp (Provenance.locate_eq_ok_iff.mp hdecl)
  cases h
  rcases takeOver_eq_ok htake with ⟨rfl, rfl⟩ | ⟨r, hget, hyields, rfl, rfl⟩
  · refine .declared hadm (fun hk => .inr (hnew hk)) fun hk role hrole => .inr (hroles hk role ?_)
    simpa using hrole
  · refine (PrebuiltFrom.erase _ _).trans (.declared hadm (fun hk => .inr (hnew hk)) ?_)
    intro hk role hrole
    have hany : r.kind = .patternAny := by
      rcases hyields.2 with hany | ⟨-, habsorbs, -⟩
      · exact hany
      · rw [hk] at habsorbs
        cases habsorbs
    rcases RoleSet.mem_union.mp hrole with hrole | hrole
    · exact .inr (hcarried hk r hget hany role hrole)
    · exact .inr (hroles hk role hrole)

lemma register_prebuiltFrom_of_ne (hkind : kind ≠ .prebuilt) (h : d.register app kind = .ok app') :
    PrebuiltFrom new given app.registry app'.registry :=
  register_prebuiltFrom (fun hk => absurd hk hkind) (fun hk => absurd hk hkind)
    (fun hk => absurd hk hkind) h

lemma registerPlain_prebuiltFrom (hkind : kind ≠ .prebuilt)
    (h : d.registerPlain app kind = .ok app') :
    PrebuiltFrom new given app.registry app'.registry := by
  unfold registerPlain at h
  split_ifs at h
  exact register_prebuiltFrom_of_ne hkind h

/-- Registering an entity of another kind and completing its detail. -/
lemma completed_prebuiltFrom {f : Detail → Detail} (hf : Completes f) (hkind : kind ≠ .prebuilt)
    (h : d.register app kind = .ok app') :
    PrebuiltFrom new given app.registry (app'.registry.updateDetail d.name f) :=
  (register_prebuiltFrom_of_ne hkind h).trans (.updateDetail hf.kind_eq _ _)

lemma declareList_prebuiltFrom {subs : List Sublist} (h : d.declareList app subs = .ok app') :
    PrebuiltFrom new given app.registry app'.registry := by
  unfold declareList at h
  obtain ⟨added, -, h⟩ := bind_eq_ok_iff.mp h
  obtain ⟨app₁, hreg, h⟩ := bind_eq_ok_iff.mp h
  cases h
  exact completed_prebuiltFrom (.sublists added) (by decide) hreg

lemma declareComposite_prebuiltFrom (h : d.declareComposite app = .ok app') :
    PrebuiltFrom new given app.registry app'.registry := by
  unfold declareComposite at h
  split at h
  · cases h
  · obtain ⟨app₁, hreg, h⟩ := bind_eq_ok_iff.mp h
    cases h
    exact completed_prebuiltFrom (.children _) (by decide) hreg

lemma declareRegex_prebuiltFrom (h : d.declareRegex app = .ok app') :
    PrebuiltFrom new given app.registry app'.registry := by
  unfold declareRegex at h
  obtain ⟨added, -, h⟩ := bind_eq_ok_iff.mp h
  split at h
  · cases h
  · obtain ⟨app₁, hreg, h⟩ := bind_eq_ok_iff.mp h
    cases h
    exact completed_prebuiltFrom (.pattern added) (by decide) hreg

/-- Phrase lists are kept apart from the entities. -/
lemma declarePhraseList_prebuiltFrom {interchangeable : Bool}
    (h : d.declarePhraseList app interchangeable = .ok app') :
    PrebuiltFrom new given app.registry app'.registry := by
  refine .of_found fun {x r} hget => ⟨r, ?_, rfl, rfl⟩
  unfold declarePhraseList at h
  split_ifs at h
  split at h
  · split_ifs at h
    cases h
    exact hget
  · cases h
    exact hget

/-- A declaration of anything but a prebuilt type makes no prebuilt entity and gives it no role. -/
lemma run_prebuiltFrom {ctx : Context} {m m' : Model} {plan : Plan} (hplan : plan ≠ .prebuilt)
    (h : d.run ctx m plan = .ok m') : PrebuiltFrom new given m.app.registry m'.app.registry := by
  cases plan with
  | alterations =>
      cases h
      exact .refl _
  | simple => exact registerPlain_prebuiltFrom (by decide) (eq_ok_app h)
  | patternAny => exact registerPlain_prebuiltFrom (by decide) (eq_ok_app h)
  | list subs => exact declareList_prebuiltFrom (eq_ok_app h)
  | composite => exact declareComposite_prebuiltFrom (eq_ok_app h)
  | regex => exact declareRegex_prebuiltFrom (eq_ok_app h)
  | prebuilt => exact absurd rfl hplan
  | phraseList interchangeable => exact declarePhraseList_prebuiltFrom (eq_ok_app h)

end Declaration

lemma Directive.apply_prebuiltFrom {d : Directive} {prov : Provenance} {m m' : Model}
    (h : d.apply prov m = .ok m') : PrebuiltFrom new given m.app.registry m'.app.registry := by
  cases d with
  | appSetting | kbSetting | intentInherits =>
      cases h
      exact .refl _
  | entityInherits name inherits =>
      obtain ⟨reg, hdecl, h⟩ := bind_eq_ok_iff.mp h
      cases h
      replace hdecl := Provenance.locate_eq_ok_iff.mp hdecl
      unfold declareNamed at hdecl
      split_ifs at hdecl
      · cases hdecl
        exact .refl _
      · obtain ⟨hadm, rfl⟩ := Registry.declare_eq_ok_iff.mp hdecl
        exact .declared_of_ne hadm (by decide)

/-! ## Lines of intents -/

namespace Labelling

variable {prov : Provenance} {app app' : App}

/-- A label gives its role to a prebuilt entity. -/
lemma registerLabel_prebuiltFrom {entity : String} {role : Option String}
    (hgiven : ∀ q, role = some q → app.registry.kindOf? entity = some .prebuilt →
      app.registry.PrebuiltRole entity q ∨ given entity q)
    (h : registerLabel prov app entity role = .ok app') :
    PrebuiltFrom new given app.registry app'.registry := by
  rcases registerLabel_eq_ok h with ⟨kind, hnone, -, -, hadm, rfl⟩ | ⟨r, -, -, hadm, rfl⟩
  · have hold (hkind : kind = .prebuilt) : app.registry.kindOf? entity = some .prebuilt := by
      cases hget : app.registry.get? entity with
      | none => cases (hnone hget).symm.trans hkind
      | some r => simp [kindOf?, hget, hadm.same_kind r hget, hkind]
    refine .declared hadm (fun hk => .inl (hold hk)) fun hk q hq => hgiven q ?_ (hold hk)
    simpa using hq
  · exact (PrebuiltFrom.erase _ _).trans (.declared_of_ne hadm (by decide))

/-- What a label with a value names is written with it, or it is a role that the entity has. -/
lemma target_cases {reg : Registry} (hs : reg.Sound) {head : Head} {q : String}
    (h : (target reg head).2 = some q) :
    (∃ r, reg.get? (target reg head).1 = some r ∧ q ∈ r.roles) ∨
      (target reg head).1 = head.entity ∧ head.role = some q := by
  unfold target at h ⊢
  split at h
  · next howner =>
    obtain rfl := Option.some.inj h
    exact .inl (hs.owner_iff.mp howner)
  · exact .inr ⟨rfl, h⟩

/-- A label with a value gives the role that is written with it. -/
lemma registerLabel_target_prebuiltFrom {head : Head} (hs : app.registry.Sound)
    (hgiven : ∀ q, head.role = some q → given head.entity q)
    (h : registerLabel prov app (target app.registry head).1 (target app.registry head).2 =
      .ok app') : PrebuiltFrom new given app.registry app'.registry := by
  refine registerLabel_prebuiltFrom (fun q hq hkind => ?_) h
  rcases target_cases hs hq with ⟨r, hget, hrole⟩ | ⟨hentity, hrole⟩
  · refine .inl ⟨r, hget, ?_, hrole⟩
    simpa [kindOf?, hget] using hkind
  · rw [hentity]
    exact .inr (hgiven q hrole)

/-- A label inside a value is registered and noted. -/
lemma registerLabel_of_resolveNested {s : Span} (h : resolveNested prov app s = .ok app') :
    ∃ app₁, registerLabel prov app (target app.registry s.head).1 (target app.registry s.head).2 =
      .ok app₁ ∧ app'.registry = app₁.registry := by
  unfold resolveNested at h
  obtain ⟨app₁, hreg, h⟩ := bind_eq_ok_iff.mp h
  cases h
  exact ⟨app₁, hreg, App.registry_noteLabel ..⟩

/-- A label that stands in no other is registered and collected. -/
lemma registerLabel_of_resolveTop {acc acc' : App × List Label} {s : Span}
    (h : resolveTop prov acc s = .ok acc') :
    registerLabel prov acc.1 (target acc.1.registry s.head).1 (target acc.1.registry s.head).2 =
      .ok acc'.1 := by
  unfold resolveTop at h
  obtain ⟨app₁, hreg, h⟩ := bind_eq_ok_iff.mp h
  cases h
  exact hreg

lemma addLabelled_prebuiltFrom {intent : String} {flat : Flat} (hs : app.registry.Sound)
    (hgiven : ∀ s, s ∈ flat.nested ∨ s ∈ flat.labels → ∀ q, s.head.role = some q →
      given s.head.entity q)
    (h : addLabelled prov intent flat app = .ok app') :
    PrebuiltFrom new given app.registry app'.registry := by
  unfold addLabelled at h
  split at h
  · cases h
  · obtain ⟨app₁, hnested, h⟩ := bind_eq_ok_iff.mp h
    obtain ⟨⟨app₂, labels⟩, htop, h⟩ := bind_eq_ok_iff.mp h
    cases h
    have h₁ : app₁.registry.Sound ∧ PrebuiltFrom new given app.registry app₁.registry := by
      refine foldlM_ok_induction_mem
        (fun b => b.registry.Sound ∧ PrebuiltFrom new given app.registry b.registry)
        (fun s hs b b' hb hstep => ⟨(resolveNested_steps hb.1 hstep).sound hb.1, ?_⟩)
        ⟨hs, .refl _⟩ hnested
      obtain ⟨b₁, hreg, hsame⟩ := registerLabel_of_resolveNested hstep
      rw [hsame]
      exact hb.2.trans (registerLabel_target_prebuiltFrom hb.1 (hgiven s (.inl hs)) hreg)
    have h₂ : app₂.registry.Sound ∧ PrebuiltFrom new given app.registry app₂.registry := by
      refine foldlM_ok_induction_mem
        (fun acc => acc.1.registry.Sound ∧ PrebuiltFrom new given app.registry acc.1.registry)
        (fun s hs acc acc' hacc hstep => ?_) h₁ htop
      have hreg := registerLabel_of_resolveTop hstep
      exact ⟨(registerLabel_step hreg).sound hacc.1,
        hacc.2.trans (registerLabel_target_prebuiltFrom hacc.1 (hgiven s (.inr hs)) hreg)⟩
    rw [App.registry_addUtterance]
    exact h₂.2

/-- A placeholder gives the role that is written with it. -/
lemma registerPlaceholder_prebuiltFrom {head : Head}
    (hgiven : ∀ q, head.role = some q → given head.entity q)
    (h : registerPlaceholder prov app head = .ok app') :
    PrebuiltFrom new given app.registry app'.registry := by
  unfold registerPlaceholder at h
  obtain ⟨hadm, rfl⟩ := declareAt_eq_ok_iff.mp h
  refine .declared hadm (fun hkind => .inl ?_) fun _ q hq => .inr (hgiven q (by simpa using hq))
  cases hold : app.registry.kindOf? head.entity with
  | none => simp [hold] at hkind
  | some kind => simpa [hold] using hkind

lemma addPatternNode_prebuiltFrom {acc acc' : App × List Char} {node : Node}
    (hgiven : ∀ head ∈ node.heads, head.viaAt = false → ∀ q, head.role = some q →
      given head.entity q)
    (h : addPatternNode prov acc node = .ok acc') :
    PrebuiltFrom new given acc.1.registry acc'.1.registry := by
  unfold addPatternNode at h
  split at h
  · cases h
    exact .refl _
  all_goals
    split_ifs at h with hat
    · cases h
      exact .refl _
    · obtain ⟨app₁, hreg, h⟩ := bind_eq_ok_iff.mp h
      cases h
      exact registerPlaceholder_prebuiltFrom
        (hgiven _ (by simp [Node.heads]) (by simpa using hat)) hreg

lemma addPattern_prebuiltFrom {line : UtteranceLine} {intent : String}
    (hgiven : ∀ head ∈ headsOf line.nodes, head.viaAt = false → ∀ q, head.role = some q →
      given head.entity q)
    (h : addPattern line intent app = .ok app') :
    PrebuiltFrom new given app.registry app'.registry := by
  unfold addPattern at h
  obtain ⟨⟨app₁, text⟩, hnodes, h⟩ := bind_eq_ok_iff.mp h
  cases h
  rw [App.registry_addPattern, App.registry_ensureIntent]
  refine foldlM_ok_induction_mem (fun acc => PrebuiltFrom new given app.registry acc.1.registry)
    (fun node hnode acc acc' hacc hstep => ?_) (.refl _) hnodes
  exact hacc.trans (addPatternNode_prebuiltFrom
    (fun head hhead => hgiven head (mem_headsOf_iff.mpr ⟨node, hnode, hhead⟩)) hstep)

end Labelling

end

/-! ## Roles that are written -/

/-- A line writes a role with an entity: in a label with a value, which may stand in the value of
another, or in a placeholder without `@`. -/
def UtteranceLine.Writes (line : UtteranceLine) (entity role : String) : Prop :=
  ∃ head ∈ headsOf line.nodes, head.entity = entity ∧ head.role = some role ∧
    (line.isTemplate → head.viaAt = false)

/-- A line gives a prebuilt entity the roles that it writes with it. -/
lemma UtteranceLine.apply_prebuiltFrom {new : String → Prop} {options : Options} {intent : String}
    {line : UtteranceLine} {app app' : App} (hs : app.registry.Sound)
    (h : line.apply options intent app = .ok app') :
    PrebuiltFrom new line.Writes app.registry app'.registry := by
  have hflat := (UtteranceLine.apply_eq_ok hs h).1
  unfold apply at h
  rw [hflat] at h
  simp only at h
  split_ifs at h with hempty htemplate hspoken
  · cases h
    rw [App.registry_addUtterance]
    exact .refl _
  · exact Labelling.addPattern_prebuiltFrom
      (fun head hhead hat q hq => ⟨head, hhead, rfl, hq, fun _ => hat⟩) h
  · have hsort : line.isTemplate = false := by
      by_contra hsort
      have hnot := isSpoken_eq_false_of_isTemplate (by simpa using hsort)
      exact absurd hspoken (by simpa [isSpoken] using hnot)
    refine Labelling.addLabelled_prebuiltFrom hs (fun s hmem q hq => ?_) h
    exact ⟨s.head, head_mem_headsOf hmem, rfl, hq, fun htemplate => by simp [hsort] at htemplate⟩

/-- An intent gives a prebuilt entity the roles that its lines write with it. -/
lemma IntentSection.apply_prebuiltFrom {new : String → Prop} {options : Options}
    {s : IntentSection} {m m' : Model} (hs : m.app.registry.Sound)
    (h : s.apply options m = .ok m') :
    PrebuiltFrom new (fun entity role => ∃ line ∈ s.utterances, line.Writes entity role)
      m.app.registry m'.app.registry := by
  unfold apply at h
  obtain ⟨app, hlines, h⟩ := bind_eq_ok_iff.mp h
  cases h
  have hstart : (m.app.ensureIntent s.name).registry = m.app.registry := by simp
  have hrun := foldlM_ok_induction_mem (fun b => b.registry.Sound ∧ PrebuiltFrom new
      (fun entity role => ∃ line ∈ s.utterances, line.Writes entity role) m.app.registry b.registry)
    (fun line hline b b' hb hstep => ?_) ⟨hstart ▸ hs, hstart ▸ .refl _⟩ hlines
  · exact hrun.2
  · refine ⟨(UtteranceLine.apply_steps hb.1 hstep).sound hb.1, hb.2.trans ?_⟩
    exact (UtteranceLine.apply_prebuiltFrom hb.1 hstep).mono (fun _ => id)
      fun _ _ hwrites => ⟨line, hline, hwrites⟩

/-! ## Roles that are kept -/

namespace Labelling

variable {prov : Provenance} {app app' : App}

/-- After its registration the registry knows a label with a role. -/
lemma knows_of_registerLabel {head : Head} {q : String} (hs : app.registry.Sound)
    (hrole : head.role = some q)
    (h : registerLabel prov app (target app.registry head).1 (target app.registry head).2 =
      .ok app') : app'.registry.Knows head := by
  rw [target_of_role_eq_some hrole] at h
  obtain ⟨r, hget, -, -, hroles⟩ := bears_registerLabel hs h
  exact ⟨r, hget, fun role hmem => hroles role (hrole ▸ hmem)⟩

lemma knows_of_addLabelled {intent : String} {flat : Flat} (hs : app.registry.Sound)
    (h : addLabelled prov intent flat app = .ok app') {s : Span}
    (hmem : s ∈ flat.nested ∨ s ∈ flat.labels) {q : String} (hrole : s.head.role = some q) :
    app'.registry.Knows s.head := by
  unfold addLabelled at h
  split at h
  · cases h
  · obtain ⟨app₁, hnested, h⟩ := bind_eq_ok_iff.mp h
    obtain ⟨⟨app₂, labels⟩, htop, h⟩ := bind_eq_ok_iff.mp h
    cases h
    rw [App.registry_addUtterance]
    have hs₁ : app₁.registry.Sound :=
      foldlM_ok_induction (fun b => b.registry.Sound)
        (fun _ _ _ hb hstep => (resolveNested_steps hb hstep).sound hb) hs hnested
    have hstep {acc acc' : App × List Label} {t : Span} (h : resolveTop prov acc t = .ok acc') :
        App.Step acc.1 acc'.1 :=
      registerLabel_step (registerLabel_of_resolveTop h)
    -- What is known after the labels inside values stays known, and each other label joins it.
    rcases hmem with hmem | hmem
    · have hknows : s.head.role = some q → app₁.registry.Knows s.head := by
        refine foldlM_ok_forall (fun b => b.registry.Sound)
          (fun s b => s.head.role = some q → b.registry.Knows s.head) ?_ ?_ ?_ hs hnested s hmem
        · exact fun b t b' hb h => (resolveNested_steps hb h).sound hb
        · intro b t b' hb h hq
          obtain ⟨b₁, hreg, hsame⟩ := registerLabel_of_resolveNested h
          rw [hsame]
          exact knows_of_registerLabel hb hq hreg
        · intro b t b' u hb h hu hq
          exact (resolveNested_steps hb h).grows.registry.knows (hu hq)
      refine foldlM_ok_induction (fun acc => acc.1.registry.Knows s.head) ?_ (hknows hrole) htop
      exact fun acc t acc' hacc h => (hstep h).grows.registry.knows hacc
    · refine foldlM_ok_forall (fun acc => acc.1.registry.Sound)
        (fun s acc => s.head.role = some q → acc.1.registry.Knows s.head) ?_ ?_ ?_ hs₁ htop s hmem
        hrole
      · exact fun acc t acc' hacc h => (hstep h).sound hacc
      · intro acc t acc' hacc h hq
        exact knows_of_registerLabel hacc hq (registerLabel_of_resolveTop h)
      · intro acc t acc' u hacc h hu hq
        exact (hstep h).grows.registry.knows (hu hq)

end Labelling

/-- After a line the registry has the roles that it writes. -/
lemma UtteranceLine.exists_role_of_apply {options : Options} {intent : String}
    {line : UtteranceLine} {app app' : App} (hs : app.registry.Sound)
    (h : line.apply options intent app = .ok app') {entity role : String}
    (hwrites : line.Writes entity role) :
    ∃ r, app'.registry.get? entity = some r ∧ role ∈ r.roles := by
  obtain ⟨head, hhead, rfl, hrole, hat⟩ := hwrites
  suffices hknows : app'.registry.Knows head by
    obtain ⟨r, hget, hroles⟩ := hknows
    exact ⟨r, hget, hroles role hrole⟩
  have hlabels := labels_ne_nil_of_mem_headsOf hhead
  have hflat := (UtteranceLine.apply_eq_ok hs h).1
  unfold apply at h
  rw [hflat] at h
  simp only at h
  split_ifs at h with hempty hnone hall
  · exact absurd (List.isEmpty_iff.mp hempty) hlabels
  · have htemplate : line.isTemplate := by simp [isTemplate, hempty, hnone]
    obtain ⟨p, hp, -⟩ :=
      Labelling.addPattern_eq_ok hs (fun _ _ => not_labelled_of_isTemplate htemplate) h
    obtain ⟨nodes, hresolves, -⟩ := hp.text
    obtain ⟨node, hnode, hmem⟩ := mem_headsOf_iff.mp hhead
    obtain ⟨node', -, hresolved⟩ := exists_rel_of_mem_right hresolves.flip hnode
    -- A placeholder without `@` stays in the pattern because the registry knows it.
    cases hresolved with
    | text content => cases hmem
    | plain _ hknows => exact List.mem_singleton.mp hmem ▸ hknows
    | unknown href | role href _ | entity href _ =>
        rw [← List.mem_singleton.mp hmem, hat htemplate] at href
        cases href
  · obtain ⟨s, hmem, rfl⟩ := exists_span_of_mem_headsOf hhead
    exact Labelling.knows_of_addLabelled hs h hmem hrole

/-- After an intent the registry has the roles that its lines write. -/
lemma IntentSection.exists_role_of_apply {options : Options} {s : IntentSection} {m m' : Model}
    (hs : m.app.registry.Sound) (h : s.apply options m = .ok m') {line : UtteranceLine}
    (hline : line ∈ s.utterances) {entity role : String} (hwrites : line.Writes entity role) :
    ∃ r, m'.app.registry.get? entity = some r ∧ role ∈ r.roles := by
  unfold apply at h
  obtain ⟨app, hlines, h⟩ := bind_eq_ok_iff.mp h
  cases h
  have hstart : (m.app.ensureIntent s.name).registry.Sound := by simpa using hs
  refine foldlM_ok_forall (fun b => b.registry.Sound)
    (fun line b => line.Writes entity role → ∃ r, b.registry.get? entity = some r ∧ role ∈ r.roles)
    ?_ ?_ ?_ hstart hlines line hline hwrites
  · exact fun b l b' hb hstep => (UtteranceLine.apply_steps hb hstep).sound hb
  · exact fun b l b' hb hstep hl => UtteranceLine.exists_role_of_apply hb hstep hl
  · intro b l b' k hb hstep hk hwrites
    obtain ⟨r, hget, hrole⟩ := hk hwrites
    obtain ⟨r', hget', hr⟩ := (UtteranceLine.apply_steps hb hstep).grows.registry.entities hget
    exact ⟨r', hget', hr.roles.subset hrole⟩

end DialogModel
