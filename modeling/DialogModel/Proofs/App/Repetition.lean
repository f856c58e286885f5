import DialogModel.Proofs.App.Labels
import DialogModel.Proofs.App.Lines
import DialogModel.Proofs.Registry.Repetition

/-!
# The same line again

Adding a line of an intent a second time leaves the application as it is (`apply_again`).  After the
first time the records bear the labels of the line, or the registry knows its placeholders, and then
registering them does nothing; the utterance or the pattern is there and is merged into itself.

What one label leaves behind must survive the labels after it in the line: registering never takes a
role away and never makes a placeholder.  A label with `@` is left out, since what it names may be
decided by a label behind it in the same line.
-/

namespace DialogModel

open Entity Utterance

/-! ## The labels of a line -/

namespace Utterance

mutual

/-- The heads of the labels of a node, those inside a value first. -/
def Node.heads : Node → List Head
  | .text _ => []
  | .placeholder head => [head]
  | .labelled head value => headsOf value ++ [head]

/-- The heads of the labels of an utterance. -/
def headsOf : List Node → List Head
  | [] => []
  | node :: nodes => node.heads ++ headsOf nodes

end

mutual

theorem Node.map_head_spans : ∀ (node : Node) (depth start : Nat),
    (node.spans depth start).map (·.2.head) = node.heads
  | .text _, _, _ => rfl
  | .placeholder _, _, _ => rfl
  | .labelled head value, depth, start => by
      simp [Node.spans, Node.heads, map_head_spansOf value (depth + 1) start]

/-- Every label has a span. -/
theorem map_head_spansOf : ∀ (nodes : List Node) (depth start : Nat),
    (spansOf depth start nodes).map (·.2.head) = headsOf nodes
  | [], _, _ => rfl
  | node :: nodes, depth, start => by
      simp [spansOf, headsOf, Node.map_head_spans node depth start,
        map_head_spansOf nodes depth (start + node.raw.length)]

end

lemma head_mem_headsOf {nodes : List Node} {s : Span}
    (h : s ∈ (flatOf nodes).nested ∨ s ∈ (flatOf nodes).labels) : s.head ∈ headsOf nodes := by
  simp only [flatOf, List.mem_map, List.mem_filter] at h
  rw [← map_head_spansOf nodes 0 0, List.mem_map]
  rcases h with ⟨span, ⟨hspan, -⟩, rfl⟩ | ⟨span, ⟨hspan, -⟩, rfl⟩
  · exact ⟨span, hspan, rfl⟩
  · exact ⟨span, hspan, rfl⟩

/-- The label that a span gives an utterance if it names its entity and its role as they are
written. -/
def Span.label (s : Span) : Label where
  entity := s.head.entity
  startPos := s.start
  endPos := s.stop - 1
  role := s.head.role

end Utterance

/-! ## What is there already -/

namespace App

lemma noteLabel_eq_self {app : App} {entity : String} {role : Option String}
    (h : role = none → entity ∈ app.unroled) : app.noteLabel entity role = app := by
  cases role with
  | some role => rfl
  | none => simp [noteLabel, FirstSeen.add_eq_self (h rfl)]

/-- An utterance is merged into itself. -/
lemma mergeExample_mergeExample (u : Example) (us : List Example) :
    mergeExample u (mergeExample u us) = mergeExample u us := by
  induction us with
  | nil => simp [mergeExample, FirstSeen.addAll_eq_self fun _ hl => hl]
  | cons v us ih =>
      by_cases hkey : v.text = u.text ∧ v.intent = u.intent
      · simp [mergeExample, hkey, FirstSeen.addAll_addAll]
      · simp [mergeExample, hkey, ih]

/-- Adding an utterance a second time. -/
lemma addUtterance_addUtterance (app : App) (u : Example) :
    (app.addUtterance u).addUtterance u = app.addUtterance u := by
  have hnoted : ∀ (ls : List Label) (app : App),
      (∀ l ∈ ls, l.role = none → l.entity ∈ app.unroled) →
        ls.foldl (fun app l => app.noteLabel l.entity l.role) app = app := by
    intro ls app hls
    induction ls with
    | nil => rfl
    | cons l ls ih =>
        obtain ⟨hl, hls⟩ := List.forall_mem_cons.mp hls
        rw [List.foldl_cons, noteLabel_eq_self hl, ih hls]
  have hlabels : ∀ l ∈ u.labels, l.role = none → l.entity ∈ (app.addUtterance u).unroled :=
    fun l hl hrole => mem_unroled_addUtterance.mpr (.inr ⟨l, hl, hrole, rfl⟩)
  obtain ⟨unroled, hadd⟩ := addUtterance_eq app u
  rw [addUtterance, hnoted u.labels _ hlabels, hadd]
  simp only [mergeExample_mergeExample]

lemma ensureIntent_eq_self {app : App} {name : String} (h : app.intents.contains name = true) :
    app.ensureIntent name = app :=
  if_pos h

lemma contains_ensureIntent (app : App) (name : String) :
    (app.ensureIntent name).intents.contains name = true := by
  unfold ensureIntent
  split_ifs with hcontains
  · exact hcontains
  · simp [OrderedMap.contains]

/-- Adding a pattern and its intent a second time. -/
lemma addPattern_ensureIntent_again (app : App) (intent : String) (p : Pattern) :
    ((((app.ensureIntent intent).addPattern p).2.ensureIntent intent).addPattern p).2 =
      ((app.ensureIntent intent).addPattern p).2 := by
  have hintent : ((app.ensureIntent intent).addPattern p).2.intents.contains intent = true := by
    rw [addPattern_eq]
    exact contains_ensureIntent app intent
  have hpattern : p ∈ ((app.ensureIntent intent).addPattern p).2.patterns := by
    rw [addPattern_eq]
    exact FirstSeen.mem_add.mpr (.inr rfl)
  rw [ensureIntent_eq_self hintent, addPattern_eq]
  simp only [FirstSeen.add_eq_self hpattern]

end App

namespace Labelling

variable {prov : Provenance} {app app' : App}

lemma target_of_not_viaAt {reg : Registry} {head : Head} (hat : head.viaAt = false) :
    target reg head = (head.entity, head.role) := by
  simp [target, hat]

/-- A label with a written role names what is written. -/
lemma target_of_role_eq_some {reg : Registry} {head : Head} {role : String}
    (hrole : head.role = some role) : target reg head = (head.entity, some role) := by
  unfold target
  rw [hrole]
  cases head.viaAt <;> rfl

lemma declareAt_eq_self {kind : Kind} {name : String} {roles : RoleSet}
    (hs : app.registry.Sound) (h : app.registry.Has kind name roles) :
    declareAt prov app kind name roles = .ok app :=
  bind_eq_ok_iff.mpr
    ⟨app.registry, Provenance.locate_eq_ok_iff.mpr (hs.declare_eq_self h), rfl⟩

/-! ## Labels with values -/

/-- Registering a label that the records bear. -/
lemma registerLabel_eq_self {entity : String} {role : Option String} (hs : app.registry.Sound)
    (h : app.registry.Bears entity role) : registerLabel prov app entity role = .ok app := by
  obtain ⟨r, hget, hany, hneeds, hroles⟩ := h
  have hallowed : (r.kind.requiresRole && role.isNone) = false := by
    cases role with
    | some role => simp
    | none => simp [hneeds rfl]
  have hhas : app.registry.Has r.kind entity (.ofList role.toList) :=
    ⟨r, hget, rfl, fun q hq => hroles q (by simpa using hq)⟩
  simp only [registerLabel, hget, hallowed, Bool.false_eq_true, if_false, if_neg hany,
    declareAt_eq_self hs hhas]

/-- A label inside a value has been registered and noted. -/
def Noted (s : Span) (app : App) : Prop :=
  app.registry.Bears s.head.entity s.head.role ∧
    (s.head.role = none → s.head.entity ∈ app.unroled)

lemma resolveNested_eq_self {s : Span} (hs : app.registry.Sound) (hat : s.head.viaAt = false)
    (h : Noted s app) : resolveNested prov app s = .ok app := by
  unfold resolveNested
  rw [target_of_not_viaAt hat]
  exact bind_eq_ok_iff.mpr
    ⟨app, registerLabel_eq_self hs h.1, congrArg Except.ok (App.noteLabel_eq_self h.2)⟩

lemma noted_of_resolveNested {s : Span} (hs : app.registry.Sound) (hat : s.head.viaAt = false)
    (h : resolveNested prov app s = .ok app') : Noted s app' := by
  unfold resolveNested at h
  rw [target_of_not_viaAt hat] at h
  obtain ⟨app₁, hreg, h⟩ := bind_eq_ok_iff.mp h
  cases h
  refine ⟨?_, fun hrole => App.mem_unroled_noteLabel.mpr (.inr ⟨hrole, rfl⟩)⟩
  rw [App.registry_noteLabel]
  exact bears_registerLabel hs hreg

lemma Noted.registerLabel {s : Span} {entity : String} {role : Option String}
    (h : registerLabel prov app entity role = .ok app') (hn : Noted s app) : Noted s app' := by
  refine ⟨Bears.registerLabel h hn.1, ?_⟩
  obtain ⟨registry, rfl⟩ := registerLabel_registry h
  exact hn.2

lemma Noted.resolveNested {s t : Span} (h : resolveNested prov app t = .ok app')
    (hn : Noted s app) : Noted s app' := by
  unfold Labelling.resolveNested at h
  obtain ⟨app₁, hreg, h⟩ := bind_eq_ok_iff.mp h
  cases h
  obtain ⟨hbears, hunroled⟩ := hn.registerLabel hreg
  refine ⟨?_, fun hrole => App.mem_unroled_noteLabel.mpr (.inl (hunroled hrole))⟩
  rwa [App.registry_noteLabel]

/-- A round of the loop over the labels that stand in no other. -/
lemma resolveTop_eq_ok_iff {acc acc' : App × List Label} {s : Span} (hat : s.head.viaAt = false) :
    resolveTop prov acc s = .ok acc' ↔
      ∃ app, registerLabel prov acc.1 s.head.entity s.head.role = .ok app ∧
        acc' = (app, acc.2 ++ [s.label]) := by
  unfold resolveTop
  rw [target_of_not_viaAt hat, bind_eq_ok_iff]
  simp only [Except.ok.injEq, Span.label, eq_comm]

/-- The loop over the labels that stand in no other: they are all borne at its end, and the
utterance gets them as they are written. -/
lemma foldlM_resolveTop_eq_ok {spans : List Span} {labels labels' : List Label}
    (hs : app.registry.Sound) (hat : ∀ s ∈ spans, s.head.viaAt = false)
    (h : spans.foldlM (resolveTop prov) (app, labels) = .ok (app', labels')) :
    app'.registry.Sound ∧ (∀ s, Noted s app → Noted s app') ∧
      (∀ entity role, app.registry.Bears entity role → app'.registry.Bears entity role) ∧
      (∀ s ∈ spans, app'.registry.Bears s.head.entity s.head.role) ∧
      labels' = labels ++ spans.map Span.label := by
  induction spans generalizing app labels with
  | nil =>
      cases h
      exact ⟨hs, fun _ hn => hn, fun _ _ hb => hb, by simp, by simp⟩
  | cons s spans ih =>
      obtain ⟨hfirst, hrest⟩ := List.forall_mem_cons.mp hat
      rw [List.foldlM_cons] at h
      obtain ⟨acc, hstep, h⟩ := bind_eq_ok_iff.mp h
      obtain ⟨app₁, hreg, rfl⟩ := (resolveTop_eq_ok_iff hfirst).mp hstep
      obtain ⟨hs', hnoted, hbears, hborne, hlabels⟩ :=
        ih ((registerLabel_step hreg).sound hs) hrest h
      refine ⟨hs', fun t hn => hnoted t (hn.registerLabel hreg),
        fun e q hb => hbears e q (Bears.registerLabel hreg hb),
        List.forall_mem_cons.mpr ⟨hbears _ _ (bears_registerLabel hs hreg), hborne⟩, ?_⟩
      rw [hlabels, List.map_cons, List.append_assoc, List.singleton_append]

lemma foldlM_resolveTop_eq_self {spans : List Span} (hs : app.registry.Sound)
    (hat : ∀ s ∈ spans, s.head.viaAt = false)
    (h : ∀ s ∈ spans, app.registry.Bears s.head.entity s.head.role) (labels : List Label) :
    spans.foldlM (resolveTop prov) (app, labels) = .ok (app, labels ++ spans.map Span.label) := by
  induction spans generalizing labels with
  | nil => simp [pure, Except.pure]
  | cons s spans ih =>
      obtain ⟨hfirst, hrest⟩ := List.forall_mem_cons.mp hat
      obtain ⟨hb, hbs⟩ := List.forall_mem_cons.mp h
      have hstep : resolveTop prov (app, labels) s = .ok (app, labels ++ [s.label]) :=
        (resolveTop_eq_ok_iff hfirst).mpr ⟨app, registerLabel_eq_self hs hb, rfl⟩
      rw [List.foldlM_cons, hstep]
      refine (ih hrest hbs (labels ++ [s.label])).trans ?_
      rw [List.map_cons, List.append_assoc, List.singleton_append]

/-- Adding an utterance with labels again. -/
lemma addLabelled_again {intent : String} {flat : Flat} (hs : app.registry.Sound)
    (hat : ∀ s, s ∈ flat.nested ∨ s ∈ flat.labels → s.head.viaAt = false)
    (h : addLabelled prov intent flat app = .ok app') :
    addLabelled prov intent flat app' = .ok app' := by
  have hatNested : ∀ s ∈ flat.nested, s.head.viaAt = false := fun s hmem => hat s (.inl hmem)
  have hatTop : ∀ s ∈ flat.labels, s.head.viaAt = false := fun s hmem => hat s (.inr hmem)
  unfold addLabelled at h ⊢
  split at h
  · cases h
  · obtain ⟨app₁, hnested, h⟩ := bind_eq_ok_iff.mp h
    obtain ⟨⟨app₂, labels⟩, htop, h⟩ := bind_eq_ok_iff.mp h
    cases h
    have hs₁ : app₁.registry.Sound :=
      foldlM_ok_induction (fun app => app.registry.Sound)
        (fun b span b' hb hstep => (resolveNested_steps hb hstep).sound hb) hs hnested
    have hnoted : ∀ s ∈ flat.nested, s.head.viaAt = false → Noted s app₁ := by
      refine foldlM_ok_forall (fun app => app.registry.Sound)
        (fun s app => s.head.viaAt = false → Noted s app) (fun b span b' hb hstep => ?_)
        (fun b span b' hb hstep hspan => ?_) (fun b span b' t hb hstep hdone ht => ?_) hs hnested
      · exact (resolveNested_steps hb hstep).sound hb
      · exact noted_of_resolveNested hb hspan hstep
      · exact (hdone ht).resolveNested hstep
    obtain ⟨hs₂, hkeep, -, hborne, hlabels⟩ := foldlM_resolveTop_eq_ok hs₁ hatTop htop
    rw [List.nil_append] at hlabels
    subst hlabels
    set u : Example := { text := flat.text, intent, labels := flat.labels.map Span.label }
    have hsu : (app₂.addUtterance u).registry.Sound := by
      rw [App.registry_addUtterance]
      exact hs₂
    have hnested' : flat.nested.foldlM (resolveNested prov) (app₂.addUtterance u) =
        .ok (app₂.addUtterance u) := by
      refine foldlM_eq_self fun s hmem => resolveNested_eq_self hsu (hatNested s hmem) ?_
      obtain ⟨hbears, hunroled⟩ := hkeep s (hnoted s hmem (hatNested s hmem))
      refine ⟨by rwa [App.registry_addUtterance], fun hrole => ?_⟩
      exact App.mem_unroled_addUtterance.mpr (.inl (hunroled hrole))
    have hborne' : ∀ s ∈ flat.labels,
        (app₂.addUtterance u).registry.Bears s.head.entity s.head.role := by
      rw [App.registry_addUtterance]
      exact hborne
    refine bind_eq_ok_iff.mpr ⟨_, hnested', bind_eq_ok_iff.mpr
      ⟨_, foldlM_resolveTop_eq_self hsu hatTop hborne' [], ?_⟩⟩
    exact congrArg Except.ok (App.addUtterance_addUtterance app₂ u)

/-! ## Patterns -/

/-- Registering a placeholder that the registry knows. -/
lemma registerPlaceholder_eq_self {head : Head} (hs : app.registry.Sound)
    (h : app.registry.Knows head) : registerPlaceholder prov app head = .ok app := by
  obtain ⟨r, hget, hroles⟩ := h
  have hkind : (app.registry.kindOf? head.entity).getD .patternAny = r.kind := by
    simp [Registry.kindOf?, hget]
  unfold registerPlaceholder
  rw [hkind]
  exact declareAt_eq_self hs ⟨r, hget, rfl, fun role hrole => hroles role (by simpa using hrole)⟩

/-- A node without `@` that a registry has resolved is written the same again and changes
nothing. -/
lemma addPatternNode_eq_self {node node' : Node} (hs : app.registry.Sound)
    (h : Resolves app.registry node node') (hat : ∀ head ∈ node.heads, head.viaAt = false)
    (text : List Char) :
    addPatternNode prov (app, text) node = .ok (app, text ++ node'.render) := by
  have hnot : ∀ {head : Head}, node = .placeholder head → head.viaAt ≠ true := by
    rintro head rfl
    simpa [Node.heads] using hat head
  cases h with
  | text content => rw [Node.render]; rfl
  | @plain head hplain hknows =>
      simp only [addPatternNode, hplain, Bool.false_eq_true, if_false, Node.render]
      exact bind_eq_ok_iff.mpr ⟨app, registerPlaceholder_eq_self hs hknows, rfl⟩
  | unknown href => exact absurd href (hnot rfl)
  | role href _ => exact absurd href (hnot rfl)
  | entity href _ => exact absurd href (hnot rfl)

lemma foldlM_addPatternNode_eq_self {nodes nodes' : List Node} (hs : app.registry.Sound)
    (h : List.Forall₂ (Resolves app.registry) nodes nodes')
    (hat : ∀ head ∈ headsOf nodes, head.viaAt = false) (text : List Char) :
    nodes.foldlM (addPatternNode prov) (app, text) = .ok (app, text ++ renderNodes nodes') := by
  induction h generalizing text with
  | nil => simp [renderNodes, pure, Except.pure]
  | @cons node node' nodes nodes' hnode _ ih =>
      rw [headsOf, List.forall_mem_append] at hat
      rw [List.foldlM_cons, addPatternNode_eq_self hs hnode hat.1]
      refine (ih hat.2 (text ++ node'.render)).trans ?_
      rw [renderNodes, List.append_assoc]

/-- Adding a pattern again. -/
lemma addPattern_again {line : UtteranceLine} {intent : String} (hs : app.registry.Sound)
    (hplain : ∀ head value, .labelled head value ∉ line.nodes)
    (hat : ∀ head ∈ headsOf line.nodes, head.viaAt = false)
    (h : addPattern line intent app = .ok app') : addPattern line intent app' = .ok app' := by
  have hs' : app'.registry.Sound := (addPattern_steps h).sound hs
  unfold addPattern at h ⊢
  obtain ⟨⟨app₁, text⟩, hnodes, h⟩ := bind_eq_ok_iff.mp h
  cases h
  obtain ⟨-, -, nodes', hresolves, htext⟩ := foldlM_addPatternNode hs hplain hnodes
  set p : Pattern := { pattern := String.ofList (Chars.trim text), intent }
  have hsame : (((app₁.ensureIntent intent).addPattern p).2).registry = app₁.registry := by simp
  have hnodes' : line.nodes.foldlM (addPatternNode line.prov)
      (((app₁.ensureIntent intent).addPattern p).2, []) =
        .ok (((app₁.ensureIntent intent).addPattern p).2, text) := by
    rw [htext]
    exact foldlM_addPatternNode_eq_self hs' (hsame ▸ hresolves) hat []
  exact bind_eq_ok_iff.mpr
    ⟨_, hnodes', congrArg Except.ok (App.addPattern_ensureIntent_again app₁ intent p)⟩

end Labelling

/-! ## Lines -/

/-- No label of a line is written with `@`. -/
def UtteranceLine.WithoutReferences (line : UtteranceLine) : Prop :=
  ∀ head ∈ headsOf line.nodes, head.viaAt = false

/-- **Adding a line without references again leaves the application as it is.** -/
lemma UtteranceLine.apply_again {options : Options} {intent : String} {line : UtteranceLine}
    {app app' : App} (hs : app.registry.Sound) (hat : line.WithoutReferences)
    (h : line.apply options intent app = .ok app') : line.apply options intent app' = .ok app' := by
  have hflat := (UtteranceLine.apply_eq_ok hs h).1
  unfold apply at h ⊢
  rw [hflat] at h ⊢
  simp only at h ⊢
  split_ifs at h ⊢ with hempty htemplate hspoken
  · cases h
    exact congrArg Except.ok (App.addUtterance_addUtterance _ _)
  · have hsort : line.isTemplate := by simp [isTemplate, hempty, htemplate]
    exact Labelling.addPattern_again hs (fun _ _ => not_labelled_of_isTemplate hsort) hat h
  · exact Labelling.addLabelled_again hs (fun s hmem => hat _ (head_mem_headsOf hmem)) h

end DialogModel
