import DialogModel.Proofs.App.Labels
import DialogModel.Proofs.Compile.Registry

/-!
# The labels of a compilation

The labels of a compiled model name entities that it has.  A label is registered against the
registry of its own line, and declarations before and after it may promote the entity; the theorem
here is about the registry at the end, so it holds whatever the order.
-/

namespace DialogModel.Compile

open Entity

variable {options : Options} {probe : Probe} {sections : List Section}

lemma Reached.labelsBorne {p : Progress} (h : Reached options probe sections p) :
    p.model.app.LabelsBorne := by
  have hboth : p.model.app.registry.Sound ∧ p.model.app.LabelsBorne := by
    refine h.induction (motive := fun m => m.app.registry.Sound ∧ m.app.LabelsBorne)
      ⟨Registry.sound_empty, App.labelsBorne_empty⟩ fun ctx s m m' hm happly => ?_
    have hsteps := Section.apply_steps hm.1 happly
    exact ⟨hsteps.sound hm.1, hsteps.labelsBorne hm.2⟩
  exact hboth.2

/-- A kind that an entity can have and that needs no role for its labels. -/
lemma kind_eq_of_requiresRole {kind : Kind} (hany : kind ≠ .patternAny)
    (hphrases : kind ≠ .phraseList) (hneeds : kind.requiresRole = false) :
    kind = .simple ∨ kind = .composite := by
  cases kind <;> simp_all [Kind.requiresRole]

/-- **Every label of a compiled model is borne by its entity.**  Each stored label names an entity
that has a record, which is no placeholder and has the role of the label; and an entity that is
labelled without a role anywhere is simple or composite. -/
theorem labels_borne (file source : String) (options : Options) (probe : Probe) (c : Compilation)
    (h : compile file source options probe = .ok c) :
    (∀ u ∈ c.model.app.utterances, ∀ l ∈ u.labels, ∃ r,
      c.model.app.registry.get? l.entity = some r ∧ r.name = l.entity ∧
        r.kind ≠ .patternAny ∧ ∀ role, l.role = some role → role ∈ r.roles) ∧
      ∀ entity, c.model.app.isLabelledWithoutRole entity = true →
        ∃ r, c.model.app.registry.get? entity = some r ∧ r.name = entity ∧
          (r.kind = .simple ∨ r.kind = .composite) := by
  obtain ⟨ctx, hreached⟩ := reached_of_compile h
  have hs := hreached.sound
  have hb := hreached.labelsBorne
  constructor
  · intro u hu l hl
    obtain ⟨r, hget, hany, hroles⟩ := hb.labels u hu l hl
    exact ⟨r, hget, hs.name_eq hget, hany, hroles⟩
  · intro entity hentity
    obtain ⟨r, hget, hany, hneeds⟩ := hb.unroled entity (of_decide_eq_true hentity)
    exact ⟨r, hget, hs.name_eq hget, kind_eq_of_requiresRole hany (hs.kind_ne hget) hneeds⟩

/-- A source that labels one entity with a role before it becomes a list, and another without. -/
def labelledSource : String :=
  "# order\n- \x7bsize:cup=large\x7d \x7bdrink=tea\x7d\n@ list size =\n- big:\n"

theorem labels_borne_labelledSource :
    ∃ c, compile "order" labelledSource {} Probe.offline = .ok c ∧
      c.model.app.registry.kindOf? "size" = some .list ∧
      c.model.app.isLabelledWithoutRole "drink" = true ∧
      (∀ u ∈ c.model.app.utterances, ∀ l ∈ u.labels, ∃ r,
        c.model.app.registry.get? l.entity = some r ∧ r.name = l.entity ∧
          r.kind ≠ .patternAny ∧ ∀ role, l.role = some role → role ∈ r.roles) ∧
      ∃ r, c.model.app.registry.get? "drink" = some r ∧ r.name = "drink" ∧
        (r.kind = .simple ∨ r.kind = .composite) := by
  have hrun : (compile "order" labelledSource {} Probe.offline).toOption.map (fun c =>
        (c.model.app.registry.kindOf? "size", c.model.app.isLabelledWithoutRole "drink")) =
      some (some .list, true) := by decide +kernel
  cases hc : compile "order" labelledSource {} Probe.offline with
  | error e =>
      rw [hc] at hrun
      cases hrun
  | ok c =>
      rw [hc] at hrun
      have hresult := Prod.mk.inj (Option.some.inj hrun)
      have hlabels := labels_borne _ _ _ _ c hc
      exact ⟨c, rfl, hresult.1, hresult.2, hlabels.1, hlabels.2 "drink" hresult.2⟩

end DialogModel.Compile
