import DialogModel.Proofs.Compile.Repetition

/-!
# References by `@`

A label with `@` names an entity or a role, and two functions find out which: `Labelling.target` for
a label with a value, `Labelling.resolveReference` for a placeholder in a template.  They agree on
every reference that names something, but for one thing: the second does not look at a role that is
written with the name.  It resolves `{@city:dest}` as if it were `{@city}`
(`references_alike`), so the role does not reach the pattern.

That they agree without a written role rests on the registry: an entity is stored under its own
name, and the owner of a role is asked first by both.
-/

namespace DialogModel

open Utterance

/-! ## The two ways to resolve a reference -/

namespace Labelling

variable {reg : Registry} {head : Head}

/-- A reference names something: a role that an entity owns, or an entity. -/
def Refers (reg : Registry) (head : Head) : Prop :=
  (reg.ownerOf? head.entity).isSome ∨ (reg.get? head.entity).isSome

/-- A reference to a role and one to an entity that is no role. -/
lemma Refers.cases (hs : reg.Sound) (h : Refers reg head) :
    (∃ owner, reg.ownerOf? head.entity = some owner ∧
      resolveReference reg head = { entity := owner, role := some head.entity }) ∨
      reg.ownerOf? head.entity = none ∧ resolveReference reg head = { entity := head.entity } := by
  unfold Refers at h
  unfold resolveReference
  cases howner : reg.ownerOf? head.entity with
  | some owner => exact .inl ⟨owner, rfl, rfl⟩
  | none =>
      obtain ⟨r, hget⟩ := Option.isSome_iff_exists.mp (h.resolve_left (by simp [howner]))
      refine .inr ⟨rfl, ?_⟩
      simp only [hget, hs.name_eq hget]

lemma resolveReference_of_not_refers (h : ¬ Refers reg head) :
    resolveReference reg head = head := by
  obtain ⟨howner, hget⟩ := not_or.mp h
  rw [Option.not_isSome_iff_eq_none] at howner hget
  simp only [resolveReference, howner, hget]

/-- A label without a written role names the owner of a role first. -/
lemma target_of_role_eq_none (hat : head.viaAt = true) (hrole : head.role = none) :
    target reg head = match reg.ownerOf? head.entity with
      | some owner => (owner, some head.entity)
      | none => (head.entity, none) := by
  unfold target
  rw [hat, hrole]
  cases reg.ownerOf? head.entity <;> rfl

/-- The same reference with its role taken away. -/
lemma target_without_role (hat : head.viaAt = true) :
    target reg { head with role := none } = match reg.ownerOf? head.entity with
      | some owner => (owner, some head.entity)
      | none => (head.entity, none) :=
  target_of_role_eq_none hat rfl

/-- A reference in a template names what a label without its role would name. -/
lemma resolveReference_eq_target (hs : reg.Sound) (hat : head.viaAt = true)
    (h : Refers reg head) :
    resolveReference reg head =
      { entity := (target reg { head with role := none }).1
        role := (target reg { head with role := none }).2 } := by
  rw [target_without_role hat]
  rcases h.cases hs with ⟨owner, howner, heq⟩ | ⟨howner, heq⟩
  · simp only [heq, howner]
  · simp only [heq, howner]

/-- A written role makes a difference unless the name is a role of the entity of the same name and
the written role is that name. -/
lemma target_without_role_eq_iff (hat : head.viaAt = true) :
    target reg { head with role := none } = target reg head ↔
      head.role = none ∨
        head.role = some head.entity ∧ reg.ownerOf? head.entity = some head.entity := by
  rw [target_without_role hat]
  cases hrole : head.role with
  | none =>
      rw [target_of_role_eq_none hat hrole]
      simp
  | some role =>
      rw [target_of_role_eq_some hrole]
      cases howner : reg.ownerOf? head.entity with
      | none => simp
      | some owner => simp [and_comm, eq_comm]

end Labelling

namespace Compile

open Labelling

/-- The applications that a compilation passes through, those inside a line among them: every one is
reached by changes from one that is visited. -/
def Passed (options : Options) (probe : Probe) (sections : List Section) (app : App) : Prop :=
  ∃ base, Visited options probe sections base ∧ App.Steps base app

lemma Passed.sound {options : Options} {probe : Probe} {sections : List Section} {app : App}
    (h : Passed options probe sections app) : app.registry.Sound := by
  obtain ⟨base, hbase, hsteps⟩ := h
  exact hsteps.sound hbase.sound

/-- **References resolve alike but for a written role.**  In every application that a compilation
passes through, a reference in a template that names nothing stays as it is written.  Any other is
written as the entity and the role that a label with a value names by the same reference without
its role, and these are what it names with its role exactly if it has none, or the name is a role
of the entity of the same name and is written again. -/
theorem references_alike (file source : String) (options : Options) (probe : Probe) (app : App)
    (hpassed : Passed options probe (Document.read file source).sections app)
    (prov : Provenance) (text : List Char) (head : Head) (hat : head.viaAt = true) :
    (¬ Refers app.registry head →
      addPatternNode prov (app, text) (.placeholder head) =
        .ok (app, text ++ head.placeholderText)) ∧
    (Refers app.registry head → ∃ entity role,
      addPatternNode prov (app, text) (.placeholder head) =
        .ok (app, text ++ Head.placeholderText { entity, role }) ∧
      (entity, role) = target app.registry { head with role := none } ∧
      ((entity, role) = target app.registry head ↔ head.role = none ∨
        head.role = some head.entity ∧
          app.registry.ownerOf? head.entity = some head.entity)) := by
  have hnode : addPatternNode prov (app, text) (.placeholder head) =
      .ok (app, text ++ (resolveReference app.registry head).placeholderText) := by
    simp only [Labelling.addPatternNode, hat, if_true]
  rw [hnode]
  constructor
  · intro hnone
    rw [resolveReference_of_not_refers hnone]
  · intro hrefers
    refine ⟨(target app.registry { head with role := none }).1,
      (target app.registry { head with role := none }).2, ?_, rfl, target_without_role_eq_iff hat⟩
    rw [resolveReference_eq_target hpassed.sound hat hrefers]

/-- A source with a template that refers to a role and to an entity. -/
def roomSource : String :=
  "@ prebuilt number hasRoles count\n@ simple room\n" ++
    "# book\n- book \x7b@count\x7d of \x7b@room\x7d not \x7b@size\x7d\n"

theorem references_alike_roomSource :
    ∃ c, compile "book" roomSource {} Probe.offline = .ok c ∧
      c.model.app.patterns =
        [⟨"book \x7bnumber:count\x7d of \x7broom\x7d not \x7b@size\x7d", "book"⟩] ∧
      Passed {} Probe.offline (Document.read "book" roomSource).sections c.model.app ∧
      Refers c.model.app.registry { entity := "count", viaAt := true } ∧
      ∃ entity role,
        addPatternNode default (c.model.app, [])
            (.placeholder { entity := "count", viaAt := true }) =
          .ok (c.model.app, Head.placeholderText { entity, role }) ∧
        (entity, role) = ("number", some "count") ∧
        (entity, role) = target c.model.app.registry { entity := "count", viaAt := true } := by
  have hrun : (compile "book" roomSource {} Probe.offline).toOption.map (fun c =>
        (c.model.app.patterns, c.model.app.registry.ownerOf? "count")) =
      some ([⟨"book \x7bnumber:count\x7d of \x7broom\x7d not \x7b@size\x7d", "book"⟩],
        some "number") := by decide +kernel
  obtain ⟨c, hc, hresult⟩ := exists_ok_of_map_toOption hrun
  obtain ⟨hpatterns, howner⟩ := Prod.mk.inj hresult
  obtain ⟨ctx, hreached⟩ := reached_of_compile hc
  have hpassed : Passed {} Probe.offline (Document.read "book" roomSource).sections c.model.app :=
    ⟨_, .between hreached, .refl⟩
  have hrefers : Refers c.model.app.registry { entity := "count", viaAt := true } :=
    .inl (by rw [howner]; rfl)
  obtain ⟨entity, role, hnode, htarget, -⟩ := (references_alike _ _ _ _ _ hpassed default []
    { entity := "count", viaAt := true } rfl).2 hrefers
  have hcount : target c.model.app.registry { entity := "count", viaAt := true } =
      ("number", some "count") := by
    rw [target_of_role_eq_none rfl rfl, howner]
  exact ⟨c, hc, hpatterns, hpassed, hrefers, entity, role, hnode, htarget.trans hcount, htarget⟩

/-- A source with a template that writes a role with a reference. -/
def roledSource : String :=
  "@ simple city hasRoles dest\n# fly\n- fly to \x7b@city:dest\x7d\n"

/-- The role that is written with a reference is lost: the pattern has the entity alone, and a label
with a value would name the role. -/
theorem role_lost_roledSource :
    ∃ c, compile "fly" roledSource {} Probe.offline = .ok c ∧
      c.model.app.patterns = [⟨"fly to \x7bcity\x7d", "fly"⟩] ∧
      Passed {} Probe.offline (Document.read "fly" roledSource).sections c.model.app ∧
      addPatternNode default (c.model.app, [])
          (.placeholder { entity := "city", role := some "dest", viaAt := true }) =
        .ok (c.model.app, Head.placeholderText { entity := "city" }) ∧
      target c.model.app.registry { entity := "city", role := some "dest", viaAt := true } =
        ("city", some "dest") := by
  have hrun : (compile "fly" roledSource {} Probe.offline).toOption.map (fun c =>
        (c.model.app.patterns, c.model.app.registry.ownerOf? "city",
          (c.model.app.registry.get? "city").map Entity.Record.name)) =
      some ([⟨"fly to \x7bcity\x7d", "fly"⟩], none, some "city") := by decide +kernel
  obtain ⟨c, hc, hresult⟩ := exists_ok_of_map_toOption hrun
  obtain ⟨hpatterns, hresult⟩ := Prod.mk.inj hresult
  obtain ⟨howner, hname⟩ := Prod.mk.inj hresult
  obtain ⟨r, hget, hname⟩ := Option.map_eq_some_iff.mp hname
  obtain ⟨ctx, hreached⟩ := reached_of_compile hc
  refine ⟨c, hc, hpatterns, ⟨_, .between hreached, .refl⟩, ?_, target_of_role_eq_some rfl⟩
  simp only [Labelling.addPatternNode, resolveReference, howner, hget, hname, if_true,
    List.nil_append]

end Compile

end DialogModel
