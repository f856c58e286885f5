import DialogModel.Proofs.App.Growth
import DialogModel.Proofs.Utterance.Spans

/-!
# What a line of an intent does

A line that is carried out is either spoken or a template, never both: `UtteranceLine.apply_eq_ok`
says which, and what it does to the application.  A spoken line adds one utterance, with a label at
the positions of each of its own; a template adds one pattern.  Besides these, a line changes the
registry, the intents and the notes about labels.

The text of a pattern is the written form of the line with each reference by `@` replaced by what it
refers to.  `Resolves` says what that may be in terms of the registry, and it stays true while the
registry grows, so that it can be read off the registry of the finished model.
-/

namespace DialogModel

open Entity Utterance

/-! ## The two sorts of lines -/

namespace UtteranceLine

/-- The flat form of a line. -/
def flat (line : UtteranceLine) : Flat :=
  flatOf line.nodes

/-- Whether a line has no labels or only labels with values. -/
def isSpoken (line : UtteranceLine) : Bool :=
  line.flat.labels.all Span.hasValue

/-- Whether a line has labels, and none with a value. -/
def isTemplate (line : UtteranceLine) : Bool :=
  !line.flat.labels.isEmpty && line.flat.labels.all (!·.hasValue)

lemma isSpoken_eq_false_of_isTemplate {line : UtteranceLine} (h : line.isTemplate) :
    line.isSpoken = false := by
  unfold isTemplate isSpoken at *
  cases hlabels : line.flat.labels with
  | nil => simp [hlabels] at h
  | cons s labels =>
      rw [hlabels] at h
      simp_all

/-- A template has no node with a value. -/
lemma not_labelled_of_isTemplate {line : UtteranceLine} (h : line.isTemplate) {head : Head}
    {value : List Node} : .labelled head value ∉ line.nodes := by
  intro hmem
  obtain ⟨s, hs, hvalue⟩ := exists_hasValue_of_mem hmem
  have hnone : ∀ s ∈ line.flat.labels, s.hasValue = false := by
    simpa using (Bool.and_eq_true_iff.mp h).2
  rw [hnone s hs] at hvalue
  cases hvalue

end UtteranceLine

/-- The first and the last position of a label. -/
def Label.positions (l : Label) : Nat × Nat :=
  (l.startPos, l.endPos)

namespace Labelling

variable {prov : Provenance} {app app' : App}

/-! ## Spoken lines -/

lemma registerLabel_registry {entity : String} {role : Option String}
    (h : registerLabel prov app entity role = .ok app') :
    ∃ registry, app' = { app with registry } := by
  rcases registerLabel_eq_ok h with ⟨kind, -, -, -, -, rfl⟩ | ⟨r, -, -, -, rfl⟩
  · exact ⟨_, rfl⟩
  · exact ⟨_, rfl⟩

lemma foldlM_resolveNested {spans : List Span}
    (h : spans.foldlM (resolveNested prov) app = .ok app') :
    ∃ registry unroled, app' = { app with registry, unroled } := by
  refine foldlM_ok_induction (fun b => ∃ registry unroled, b = { app with registry, unroled })
    (fun b span b' hb hstep => ?_) ⟨app.registry, app.unroled, rfl⟩ h
  obtain ⟨registry, unroled, rfl⟩ := hb
  unfold resolveNested at hstep
  obtain ⟨b₁, hreg, hstep⟩ := bind_eq_ok_iff.mp hstep
  obtain ⟨registry', rfl⟩ := registerLabel_registry hreg
  cases hstep
  obtain ⟨unroled', hnote⟩ := App.noteLabel_eq { app with registry := registry', unroled }
    (target registry span.head).1 (target registry span.head).2
  exact ⟨registry', unroled', hnote⟩

/-- The labels of an utterance get the positions of the spans, in their order. -/
lemma foldlM_resolveTop {spans : List Span} {labels labels' : List Label}
    (h : spans.foldlM (resolveTop prov) (app, labels) = .ok (app', labels')) :
    (∃ registry, app' = { app with registry }) ∧
      labels'.map Label.positions = labels.map Label.positions ++ spans.map Span.positions := by
  induction spans generalizing app labels with
  | nil =>
      cases h
      exact ⟨⟨_, rfl⟩, by simp⟩
  | cons span spans ih =>
      rw [List.foldlM_cons] at h
      obtain ⟨⟨app₁, labels₁⟩, hstep, h⟩ := bind_eq_ok_iff.mp h
      unfold resolveTop at hstep
      obtain ⟨app₂, hreg, hstep⟩ := bind_eq_ok_iff.mp hstep
      obtain ⟨registry₁, rfl⟩ := registerLabel_registry hreg
      cases hstep
      obtain ⟨⟨registry₂, rfl⟩, hpositions⟩ := ih h
      refine ⟨⟨registry₂, rfl⟩, ?_⟩
      rw [hpositions]
      simp [Label.positions, Span.positions]

/-- A line with labels adds an utterance with labels at the same positions.  None of them is
empty. -/
lemma addLabelled_eq_ok {intent : String} {flat : Flat}
    (h : addLabelled prov intent flat app = .ok app') :
    (∀ s ∈ flat.labels, s.isEmpty = false) ∧ ∃ registry unroled labels,
      labels.map Label.positions = flat.labels.map Span.positions ∧
        app' = { app with
          registry, unroled
          utterances :=
            App.mergeExample { text := flat.text, intent, labels } app.utterances } := by
  unfold addLabelled at h
  split at h
  · cases h
  · next hfind =>
    obtain ⟨app₁, hnested, h⟩ := bind_eq_ok_iff.mp h
    obtain ⟨⟨app₂, labels⟩, htop, h⟩ := bind_eq_ok_iff.mp h
    cases h
    obtain ⟨registry₁, unroled₁, rfl⟩ := foldlM_resolveNested hnested
    obtain ⟨⟨registry₂, rfl⟩, hpositions⟩ := foldlM_resolveTop htop
    obtain ⟨unroled₂, hadd⟩ := App.addUtterance_eq
      { app with registry := registry₂, unroled := unroled₁ } { text := flat.text, intent, labels }
    refine ⟨fun s hs => ?_, registry₂, unroled₂, labels, by simpa using hpositions, hadd⟩
    simpa using List.find?_eq_none.mp hfind s (List.mem_append_right _ hs)

end Labelling

/-! ## Templates -/

lemma exists_rel_of_mem_right {α β : Type} {R : α → β → Prop} {xs : List α} {ys : List β}
    (h : List.Forall₂ R xs ys) {y : β} (hy : y ∈ ys) : ∃ x ∈ xs, R x y := by
  induction h with
  | nil => cases hy
  | cons hxy _ ih =>
      rcases List.mem_cons.mp hy with rfl | hy
      · exact ⟨_, List.mem_cons_self, hxy⟩
      · obtain ⟨x, hx, hrel⟩ := ih hy
        exact ⟨x, List.mem_cons_of_mem _ hx, hrel⟩

/-- The entity of a head has a record, with the role of the head. -/
def Registry.Knows (reg : Registry) (head : Head) : Prop :=
  ∃ r, reg.get? head.entity = some r ∧ ∀ role ∈ head.role, role ∈ r.roles

/-- What a node of a template may become in the text of the pattern, according to a registry. -/
inductive Resolves (reg : Registry) : Node → Node → Prop
  | text (content : String) : Resolves reg (.text content) (.text content)
  /-- A placeholder without `@` stays, and its entity is registered. -/
  | plain {head : Head} (hat : head.viaAt = false) (h : reg.Knows head) :
      Resolves reg (.placeholder head) (.placeholder head)
  /-- A reference that refers to nothing yet stays as it is. -/
  | unknown {head : Head} (hat : head.viaAt = true) :
      Resolves reg (.placeholder head) (.placeholder head)
  /-- A reference to a role becomes a placeholder for the owner of the role. -/
  | role {head : Head} {owner : String} (hat : head.viaAt = true)
      (h : reg.ownerOf? head.entity = some owner) :
      Resolves reg (.placeholder head)
        (.placeholder { entity := owner, role := some head.entity })
  /-- A reference to an entity becomes a placeholder for it. -/
  | entity {head : Head} {r : Record} (hat : head.viaAt = true)
      (h : reg.get? head.entity = some r) :
      Resolves reg (.placeholder head) (.placeholder { entity := head.entity })

/-- A line and the name of its intent. -/
abbrev IntentLine : Type :=
  String × UtteranceLine

/-- A pattern that a line of an intent may give. -/
structure PatternOf (reg : Registry) (e : IntentLine) (p : Pattern) : Prop where
  intent : p.intent = e.1
  text : ∃ nodes, List.Forall₂ (Resolves reg) e.2.nodes nodes ∧
    p.pattern = String.ofList (Chars.trim (renderNodes nodes))

lemma Registry.Grows.knows {reg reg' : Registry} (hg : reg.Grows reg') {head : Head}
    (h : reg.Knows head) : reg'.Knows head := by
  obtain ⟨r, hget, hroles⟩ := h
  obtain ⟨r', hget', hr⟩ := hg.entities hget
  exact ⟨r', hget', fun role hrole => hr.roles.subset (hroles role hrole)⟩

lemma Resolves.mono {reg reg' : Registry} (hg : reg.Grows reg') {node node' : Node}
    (h : Resolves reg node node') : Resolves reg' node node' := by
  cases h with
  | text content => exact .text content
  | plain hat hknows => exact .plain hat (hg.knows hknows)
  | unknown hat => exact .unknown hat
  | role hat howner => exact .role hat (hg.owners howner)
  | entity hat hget =>
      obtain ⟨r', hget', -⟩ := hg.entities hget
      exact .entity hat hget'

lemma PatternOf.mono {reg reg' : Registry} (hg : reg.Grows reg') {e : IntentLine} {p : Pattern}
    (h : PatternOf reg e p) : PatternOf reg' e p := by
  obtain ⟨nodes, hnodes, htext⟩ := h.text
  exact ⟨h.intent, nodes, hnodes.imp fun _ _ => Resolves.mono hg, htext⟩

namespace Labelling

variable {prov : Provenance} {app app' : App}

/-- After its registration the registry knows a placeholder. -/
lemma registerPlaceholder_eq_ok {head : Head} (hs : app.registry.Sound)
    (h : registerPlaceholder prov app head = .ok app') :
    app'.registry.Knows head ∧ ∃ registry, app' = { app with registry } := by
  have hs' := (registerPlaceholder_step h).sound hs
  unfold registerPlaceholder at h
  obtain ⟨-, rfl⟩ := declareAt_eq_ok_iff.mp h
  refine ⟨?_, _, rfl⟩
  set kind := (app.registry.kindOf? head.entity).getD .patternAny
  have hfound : (app.registry.declared kind head.entity (.ofList head.role.toList)).get?
      head.entity = some ((app.registry.getOrNew kind head.entity).addRoles
        (.ofList head.role.toList)) := by simp
  have hkind := hs'.kind_ne hfound
  rw [Record.kind_addRoles] at hkind
  refine ⟨_, hfound, fun role hrole => ?_⟩
  rw [Record.mem_roles_addRoles hkind]
  exact .inr (RoleSet.mem_ofList.mpr (Option.mem_toList.mpr hrole))

lemma resolves_resolveReference {reg : Registry} (hs : reg.Sound) {head : Head}
    (hat : head.viaAt = true) :
    Resolves reg (.placeholder head) (.placeholder (resolveReference reg head)) := by
  unfold resolveReference
  cases howner : reg.ownerOf? head.entity with
  | some owner => exact .role hat howner
  | none =>
      cases hget : reg.get? head.entity with
      | some r =>
          simp only
          rw [hs.name_eq hget]
          exact .entity hat hget
      | none => exact .unknown hat

/-- A node of a template adds the written form of what it becomes. -/
lemma addPatternNode_eq_ok {acc acc' : App × List Char} {node : Node}
    (hs : acc.1.registry.Sound) (hplain : ∀ head value, node ≠ .labelled head value)
    (h : addPatternNode prov acc node = .ok acc') :
    (∃ registry, acc'.1 = { acc.1 with registry }) ∧
      ∃ node', Resolves acc'.1.registry node node' ∧ acc'.2 = acc.2 ++ node'.render := by
  cases node with
  | text content =>
      cases h
      exact ⟨⟨_, rfl⟩, _, .text content, by simp [Node.render]⟩
  | labelled head value => exact absurd rfl (hplain head value)
  | placeholder head =>
      simp only [addPatternNode] at h
      split_ifs at h with hat
      · cases h
        exact ⟨⟨_, rfl⟩, _, resolves_resolveReference hs hat, by simp [Node.render]⟩
      · obtain ⟨app₁, hreg, h⟩ := bind_eq_ok_iff.mp h
        cases h
        obtain ⟨hknows, registry, rfl⟩ := registerPlaceholder_eq_ok hs hreg
        exact ⟨⟨registry, rfl⟩, _, .plain (by simpa using hat) hknows, by simp [Node.render]⟩

/-- The loop over the nodes of a template.  What a node becomes is decided by the registry of that
moment and is still right at the end of the line. -/
lemma foldlM_addPatternNode {nodes : List Node} {text text' : List Char}
    (hs : app.registry.Sound) (hplain : ∀ head value, .labelled head value ∉ nodes)
    (h : nodes.foldlM (addPatternNode prov) (app, text) = .ok (app', text')) :
    (∃ registry, app' = { app with registry }) ∧ app.registry.Grows app'.registry ∧
      ∃ nodes', List.Forall₂ (Resolves app'.registry) nodes nodes' ∧
        text' = text ++ renderNodes nodes' := by
  induction nodes generalizing app text with
  | nil =>
      cases h
      exact ⟨⟨_, rfl⟩, .refl _, [], .nil, by simp [renderNodes]⟩
  | cons node nodes ih =>
      rw [List.foldlM_cons] at h
      obtain ⟨⟨app₁, text₁⟩, hstep, h⟩ := bind_eq_ok_iff.mp h
      have hsteps : App.Steps app app₁ := addPatternNode_steps hstep
      obtain ⟨⟨registry₁, hreg₁⟩, node', hnode, htext⟩ := addPatternNode_eq_ok hs
        (fun head value heq => hplain head value (heq ▸ List.mem_cons_self)) hstep
      obtain ⟨⟨registry₂, hreg₂⟩, hgrows, nodes', hnodes, htext'⟩ := ih (hsteps.sound hs)
        (fun head value hmem => hplain head value (List.mem_cons_of_mem _ hmem)) h
      dsimp only at hreg₁ hnode htext
      refine ⟨⟨registry₂, by rw [hreg₂, hreg₁]⟩, hsteps.grows.registry.trans hgrows,
        node' :: nodes', .cons (hnode.mono hgrows) hnodes, ?_⟩
      rw [htext', htext, renderNodes, List.append_assoc]

/-- A template adds a pattern of its own. -/
lemma addPattern_eq_ok {line : UtteranceLine} {intent : String} (hs : app.registry.Sound)
    (hplain : ∀ head value, .labelled head value ∉ line.nodes)
    (h : addPattern line intent app = .ok app') :
    ∃ p, PatternOf app'.registry (intent, line) p ∧ ∃ registry intents,
      app' = { app with registry, intents, patterns := FirstSeen.add app.patterns p } := by
  unfold addPattern at h
  obtain ⟨⟨app₁, text⟩, hnodes, h⟩ := bind_eq_ok_iff.mp h
  cases h
  obtain ⟨⟨registry, rfl⟩, -, nodes, hresolves, htext⟩ := foldlM_addPatternNode hs hplain hnodes
  rw [List.nil_append] at htext
  rw [App.addPattern_eq]
  refine ⟨⟨String.ofList (Chars.trim text), intent⟩, ⟨rfl, nodes, ?_, by rw [htext]⟩,
    registry, ?_⟩
  · simpa using hresolves
  · unfold App.ensureIntent
    split
    · exact ⟨_, rfl⟩
    · exact ⟨_, rfl⟩

end Labelling

/-! ## One line -/

namespace UtteranceLine

variable {options : Options} {intent : String} {line : UtteranceLine} {app app' : App}

/-- What a spoken line adds: an utterance with labels at the positions of its own. -/
def AddsUtterance (intent : String) (line : UtteranceLine) (app app' : App) : Prop :=
  ∃ u : Example, u.text = line.flat.text ∧ u.intent = intent ∧
    u.labels.map Label.positions = line.flat.labels.map Span.positions ∧
    (∀ s ∈ line.flat.labels, s.isEmpty = false) ∧
    app'.utterances = App.mergeExample u app.utterances ∧ app'.patterns = app.patterns

/-- What a template adds: a pattern. -/
def AddsPattern (intent : String) (line : UtteranceLine) (app app' : App) : Prop :=
  ∃ p, PatternOf app'.registry (intent, line) p ∧ app'.utterances = app.utterances ∧
    app'.patterns = FirstSeen.add app.patterns p

/-- **A line that is carried out adds an utterance or a pattern.** -/
lemma apply_eq_ok (hs : app.registry.Sound) (h : line.apply options intent app = .ok app') :
    flatten line.nodes options.allowNestedLabels = .ok line.flat ∧
      (line.isSpoken ∧ line.AddsUtterance intent app app' ∨
        line.isTemplate ∧ line.AddsPattern intent app app') := by
  unfold apply at h
  split at h
  · cases h
  · next flat hflat =>
    obtain rfl : line.flat = flat := by
      unfold flatten at hflat
      split at hflat
      · cases hflat
      · exact Except.ok.inj hflat
    refine ⟨hflat, ?_⟩
    split_ifs at h with hempty htemplate hspoken
    · cases h
      have hnil : line.flat.labels = [] := by simpa using hempty
      obtain ⟨unroled, hadd⟩ := App.addUtterance_eq app { text := line.flat.text, intent }
      rw [hadd]
      exact .inl ⟨by simp [isSpoken, hnil], _, rfl, rfl, by simp [hnil], by simp [hnil], rfl, rfl⟩
    · have hsort : line.isTemplate := by simp [isTemplate, hempty, htemplate]
      obtain ⟨p, hp, registry, intents, rfl⟩ :=
        Labelling.addPattern_eq_ok hs (fun _ _ => not_labelled_of_isTemplate hsort) h
      exact .inr ⟨hsort, p, hp, rfl, rfl⟩
    · obtain ⟨hfull, registry, unroled, labels, hpositions, rfl⟩ := Labelling.addLabelled_eq_ok h
      exact .inl ⟨hspoken, _, rfl, rfl, hpositions, hfull, rfl, rfl⟩

end UtteranceLine

end DialogModel
