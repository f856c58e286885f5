import DialogModel.Proofs.App.Steps

/-!
# Labels and the records they name

Labels are registered once, in the line that has them, and later declarations may take over the
record of the entity that they name.  What makes the labels of the final model right is that a
change never takes a role from a record, and that a record changes its kind in two ways only: a
placeholder yields to any kind, and a simple entity to a list, a composite or a regex unless it has
been labelled without a role (`Step.keeps`).

`LabelsBorne` is the invariant.  Its second half is why the list of the entities that have been
labelled without a role is kept at all.
-/

namespace DialogModel

open Entity

namespace App

/-- Every stored label names a record that is no placeholder and has its role, and every entity that
has been labelled without a role is of a kind that needs none. -/
structure LabelsBorne (app : App) : Prop where
  labels : ∀ u ∈ app.utterances, ∀ l ∈ u.labels, ∃ r, app.registry.get? l.entity = some r ∧
    r.kind ≠ .patternAny ∧ ∀ role, l.role = some role → role ∈ r.roles
  unroled : ∀ e ∈ app.unroled, ∃ r, app.registry.get? e = some r ∧
    r.kind ≠ .patternAny ∧ r.kind.requiresRole = false

/-! ## Records along a change -/

/-- A change keeps every record: its roles stay, and its kind stays or the record has yielded. -/
lemma Step.keeps {app app' : App} (h : Step app app') {e : String} {r : Record}
    (hget : app.registry.get? e = some r) :
    ∃ r', app'.registry.get? e = some r' ∧ (r'.kind = r.kind ∨ app.Yields r e r'.kind) ∧
      ∀ q ∈ r.roles, q ∈ r'.roles := by
  have hsame : app'.registry = app.registry → ∃ r', app'.registry.get? e = some r' ∧
      (r'.kind = r.kind ∨ app.Yields r e r'.kind) ∧ ∀ q ∈ r.roles, q ∈ r'.roles :=
    fun heq => ⟨r, by rw [heq, hget], .inl rfl, fun _ hq => hq⟩
  cases h with
  | setting key value => exact hsame rfl
  | intent name => exact hsame (registry_ensureIntent app name)
  | intentInherits name inherits => exact hsame rfl
  | entityInherits name inherits => exact hsame rfl
  | @declared kind name roles _ _ =>
      by_cases hname : name = e
      · subst hname
        refine ⟨r.addRoles roles, ?_, .inl (Record.kind_addRoles r roles),
          fun q hq => Record.mem_addRoles_of_mem hq⟩
        simp [Registry.getOrNew, hget]
      · exact ⟨r, by simp [hname, hget], .inl rfl, fun _ hq => hq⟩
  | @promoted kind name roles old hkind hold hyields _ =>
      by_cases hname : name = e
      · subst hname
        obtain rfl : old = r := Option.some.inj (hold.symm.trans hget)
        refine ⟨(Record.ofKind kind name).addRoles (old.roles.union roles), ?_, .inr ?_,
          fun q hq => ?_⟩
        · simp [Registry.getOrNew]
        · simpa using hyields
        · rw [Record.mem_roles_addRoles (by simpa using hkind)]
          exact .inr (RoleSet.mem_union.mpr (.inl hq))
      · exact ⟨r, by simp [hname, hget], .inl rfl, fun _ hq => hq⟩
  | @completed f name hf =>
      by_cases hname : name = e
      · refine ⟨{ r with detail := f r.detail }, ?_, .inl (hf.kind_eq r.detail), fun _ hq => hq⟩
        simp [Registry.get?_updateDetail, hname, hget]
      · exact ⟨r, by simp [Registry.get?_updateDetail, hname, hget], .inl rfl, fun _ hq => hq⟩
  | phrases items _ => exact ⟨r, hget, .inl rfl, fun _ hq => hq⟩
  | noted _ => exact hsame (registry_noteLabel app _ _)
  | utterance _ => exact hsame (registry_addUtterance app _)
  | pattern p => exact hsame (registry_addPattern app p)

/-! ## Labels along a change -/

lemma mem_unroled_noteLabel {app : App} {entity e : String} {role : Option String} :
    e ∈ (app.noteLabel entity role).unroled ↔ e ∈ app.unroled ∨ role = none ∧ e = entity := by
  unfold noteLabel
  cases role <;> simp

lemma mem_unroled_foldl_noteLabel {ls : List Label} {app : App} {e : String} :
    e ∈ (ls.foldl (fun app l => app.noteLabel l.entity l.role) app).unroled ↔
      e ∈ app.unroled ∨ ∃ l ∈ ls, l.role = none ∧ e = l.entity := by
  induction ls generalizing app with
  | nil => simp
  | cons l ls ih =>
      rw [List.foldl_cons, ih, mem_unroled_noteLabel]
      simp [or_assoc]

lemma mem_unroled_addUtterance {app : App} {u : Example} {e : String} :
    e ∈ (app.addUtterance u).unroled ↔
      e ∈ app.unroled ∨ ∃ l ∈ u.labels, l.role = none ∧ e = l.entity :=
  mem_unroled_foldl_noteLabel

/-- Merging an utterance invents no label. -/
lemma mem_labels_mergeExample {u v : Example} {l : Label} :
    ∀ {us : List Example}, v ∈ mergeExample u us → l ∈ v.labels →
      l ∈ u.labels ∨ ∃ w ∈ us, l ∈ w.labels
  | [], hv, hl => .inl (List.mem_singleton.mp hv ▸ hl)
  | w :: us, hv, hl => by
      unfold mergeExample at hv
      split_ifs at hv
      · rcases List.mem_cons.mp hv with rfl | hv
        · rcases FirstSeen.mem_addAll.mp hl with hl | hl
          · exact .inr ⟨w, List.mem_cons_self, hl⟩
          · exact .inl hl
        · exact .inr ⟨v, List.mem_cons_of_mem w hv, hl⟩
      · rcases List.mem_cons.mp hv with rfl | hv
        · exact .inr ⟨v, List.mem_cons_self, hl⟩
        · rcases mem_labels_mergeExample hv hl with hl | ⟨x, hx, hl⟩
          · exact .inl hl
          · exact .inr ⟨x, List.mem_cons_of_mem w hx, hl⟩

/-- Two changes record labels, and both ask that the records bear them; no other touches the
utterances or the entities that have been labelled without a role. -/
lemma Step.labelling_cases {app app' : App} (h : Step app app') :
    (app'.utterances = app.utterances ∧ app'.unroled = app.unroled) ∨
      (∃ entity role, app.registry.Bears entity role ∧ app' = app.noteLabel entity role) ∨
      ∃ u : Example, (∀ l ∈ u.labels, app.registry.Bears l.entity l.role) ∧
        app' = app.addUtterance u := by
  cases h with
  | setting key value => exact .inl ⟨rfl, rfl⟩
  | intent name =>
      unfold ensureIntent
      split <;> exact .inl ⟨rfl, rfl⟩
  | intentInherits name inherits => exact .inl ⟨rfl, rfl⟩
  | entityInherits name inherits => exact .inl ⟨rfl, rfl⟩
  | declared _ _ => exact .inl ⟨rfl, rfl⟩
  | promoted _ _ _ _ => exact .inl ⟨rfl, rfl⟩
  | completed name _ => exact .inl ⟨rfl, rfl⟩
  | phrases items _ => exact .inl ⟨rfl, rfl⟩
  | noted hbears => exact .inr (.inl ⟨_, _, hbears, rfl⟩)
  | utterance hbears => exact .inr (.inr ⟨_, hbears, rfl⟩)
  | pattern p =>
      unfold addPattern
      split <;> exact .inl ⟨rfl, rfl⟩

/-- The labels after a change were there before, or the records bear them. -/
lemma Step.labels {app app' : App} (h : Step app app') {v : Example} (hv : v ∈ app'.utterances)
    {l : Label} (hl : l ∈ v.labels) :
    (∃ u ∈ app.utterances, l ∈ u.labels) ∨ app'.registry.Bears l.entity l.role := by
  rcases h.labelling_cases with ⟨hsame, -⟩ | ⟨entity, role, -, rfl⟩ | ⟨u, hbears, rfl⟩
  · exact .inl ⟨v, hsame ▸ hv, hl⟩
  · unfold noteLabel at hv
    split at hv <;> exact .inl ⟨v, hv, hl⟩
  · rw [registry_addUtterance]
    rcases mem_labels_mergeExample hv hl with hl | hold
    · exact .inr (hbears l hl)
    · exact .inl hold

/-- The entities labelled without a role after a change were so before, or the records bear such a
label. -/
lemma Step.unroled {app app' : App} (h : Step app app') {e : String} (he : e ∈ app'.unroled) :
    e ∈ app.unroled ∨ app'.registry.Bears e none := by
  rcases h.labelling_cases with ⟨-, hsame⟩ | ⟨entity, role, hbears, rfl⟩ | ⟨u, hbears, rfl⟩
  · exact .inl (hsame ▸ he)
  · rw [registry_noteLabel]
    rcases mem_unroled_noteLabel.mp he with he | ⟨rfl, rfl⟩
    · exact .inl he
    · exact .inr hbears
  · rw [registry_addUtterance]
    rcases mem_unroled_addUtterance.mp he with he | ⟨l, hl, hrole, rfl⟩
    · exact .inl he
    · exact .inr (hrole ▸ hbears l hl)

/-- **Every change keeps the labels borne.** -/
lemma Step.labelsBorne {app app' : App} (h : Step app app') (hb : app.LabelsBorne) :
    app'.LabelsBorne := by
  constructor
  · intro v hv l hl
    rcases h.labels hv hl with ⟨u, hu, hl⟩ | ⟨r, hget, hany, -, hroles⟩
    · obtain ⟨r, hget, hany, hroles⟩ := hb.labels u hu l hl
      obtain ⟨r', hget', hkind, hkeep⟩ := h.keeps hget
      refine ⟨r', hget', ?_, fun role hrole => hkeep role (hroles role hrole)⟩
      rcases hkind with hkind | ⟨-, hyield | ⟨-, habsorbs, -⟩⟩
      · rwa [hkind]
      · exact absurd hyield hany
      · intro hkind
        rw [hkind] at habsorbs
        cases habsorbs
    · exact ⟨r, hget, hany, hroles⟩
  · intro e he
    rcases h.unroled he with he | ⟨r, hget, hany, hneeds, -⟩
    · obtain ⟨r, hget, hany, hneeds⟩ := hb.unroled e he
      obtain ⟨r', hget', hkind, -⟩ := h.keeps hget
      rcases hkind with hkind | ⟨-, hyield | ⟨-, -, hfree⟩⟩
      · exact ⟨r', hget', hkind ▸ hany, hkind ▸ hneeds⟩
      · exact absurd hyield hany
      · -- A simple entity yields only if it has not been labelled without a role.
        exact absurd he (by simpa [isLabelledWithoutRole] using hfree)
    · exact ⟨r, hget, hany, hneeds rfl⟩

lemma Steps.labelsBorne {app app' : App} (h : Steps app app') (hb : app.LabelsBorne) :
    app'.LabelsBorne := by
  induction h with
  | refl => exact hb
  | tail _ hstep ih => exact hstep.labelsBorne ih

lemma labelsBorne_empty : ({} : App).LabelsBorne :=
  ⟨fun _ h => absurd h List.not_mem_nil, fun _ h => absurd h List.not_mem_nil⟩

end App

end DialogModel
