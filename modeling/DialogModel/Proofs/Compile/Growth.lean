import DialogModel.Proofs.App.Growth
import DialogModel.Proofs.Compile.Registry

/-!
# A compilation only adds

The model of a compilation grows from section to section and so from any of its states to the end.
A reader of an intermediate state may rely on what it finds there: entities, roles and their owners,
patterns and utterances are all still there in the result, in their order.
-/

namespace DialogModel.Compile

open Entity

variable {options : Options} {probe : Probe} {sections : List Section}

/-- The registry stays sound over some sections, and the application grows. -/
lemma foldlM_grows {ctx : Context} {ss : List Section} {m m' : Model}
    (hs : m.app.registry.Sound) (h : ss.foldlM (Section.apply ctx) m = .ok m') :
    m'.app.registry.Sound ∧ m.app.Grows m'.app :=
  foldlM_ok_induction (fun m₁ => m₁.app.registry.Sound ∧ m.app.Grows m₁.app)
    (fun _ _ _ h₁ happly => ⟨Section.apply_sound h₁.1 happly,
      h₁.2.trans (Section.apply_grows h₁.1 happly)⟩) ⟨hs, .refl m.app⟩ h

/-- The passes behind the end of a pass let the application grow. -/
lemma afterPass_grows {pass : Pass} {ctx ctx' : Context} {m m' : Model}
    (hs : m.app.registry.Sound)
    (h : afterPass options probe sections pass ctx m = .ok (ctx', m')) : m.app.Grows m'.app := by
  cases pass with
  | questions =>
      cases h
      exact .refl m.app
  | entities =>
      obtain ⟨m₁, h₁, h⟩ := bind_eq_ok_iff.mp h
      cases h
      exact (foldlM_grows hs h₁).2
  | imports =>
      obtain ⟨m₁, h₁, h⟩ := bind_eq_ok_iff.mp h
      obtain ⟨m₂, h₂, h⟩ := bind_eq_ok_iff.mp h
      cases h
      obtain ⟨hs₁, hg₁⟩ := foldlM_grows hs h₁
      exact hg₁.trans (foldlM_grows hs₁ h₂).2
  | directives =>
      obtain ⟨m₁, h₁, h⟩ := bind_eq_ok_iff.mp h
      obtain ⟨m₂, h₂, h⟩ := bind_eq_ok_iff.mp h
      obtain ⟨m₃, h₃, h⟩ := bind_eq_ok_iff.mp h
      cases h
      obtain ⟨hs₁, hg₁⟩ := foldlM_grows hs h₁
      obtain ⟨hs₂, hg₂⟩ := foldlM_grows hs₁ h₂
      exact (hg₁.trans hg₂).trans (foldlM_grows hs₂ h₃).2

/-- From every state that a compilation reaches, the application grows to that of the result. -/
lemma Reached.grows {p : Progress} (hp : Reached options probe sections p) {ctx : Context}
    {m : Model} (h : runPasses options probe sections = .ok (ctx, m)) :
    p.model.app.Grows m.app := by
  rw [runPasses_eq_of_reached hp] at h
  obtain ⟨m₁, hrest, hafter⟩ := bind_eq_ok_iff.mp h
  obtain ⟨hs₁, hg₁⟩ := foldlM_grows hp.sound hrest
  exact hg₁.trans (afterPass_grows hs₁ hafter)

/-- **A compilation only adds.**  Carrying out a section, in whatever state the compilation has
reached, lets the application grow; and so the application of every state is one that the result
has grown from. -/
theorem sections_only_add (file source : String) (options : Options) (probe : Probe) :
    (∀ pass s rest ctx m m',
      Reached options probe (Document.read file source).sections ⟨pass, s :: rest, ctx, m⟩ →
        s.apply ctx m = .ok m' → m.app.Grows m'.app) ∧
      ∀ p c, Reached options probe (Document.read file source).sections p →
        compile file source options probe = .ok c → p.model.app.Grows c.model.app := by
  constructor
  · intro pass s rest ctx m m' hreached happly
    exact Section.apply_grows hreached.sound happly
  · intro p c hreached hcompile
    obtain ⟨-, ctx, hrun⟩ := compile_eq_ok hcompile
    exact hreached.grows hrun

theorem sections_only_add_promotedSource :
    ∃ s rest ctx m m' c,
      Reached {} Probe.offline (Document.read "travel" promotedSource).sections
        ⟨.entities, s :: rest, ctx, m⟩ ∧
      s.apply ctx m = .ok m' ∧ m.app.registry.kindOf? "city" = some .patternAny ∧
      m'.app.registry.kindOf? "city" = some .list ∧ m.app.Grows m'.app ∧
      compile "travel" promotedSource {} Probe.offline = .ok c ∧ m'.app.Grows c.model.app := by
  set sections := (Document.read "travel" promotedSource).sections
  have hdirectives : sectionsOf .directives sections = [] := by decide +kernel
  have himports : sectionsOf .imports sections = [] := by decide +kernel
  have hlength : (sectionsOf .entities sections).length = 3 := by decide +kernel
  -- The placeholder is there after the first section, and the second turns it into a list.
  have hone : (((sectionsOf .entities sections).take 1).foldlM (Section.apply
      (contextAfter {} Probe.offline {})) {}).toOption.map (·.app.registry.kindOf? "city") =
        some (some .patternAny) := by decide +kernel
  have htwo : (((sectionsOf .entities sections).take 2).foldlM (Section.apply
      (contextAfter {} Probe.offline {})) {}).toOption.map (·.app.registry.kindOf? "city") =
        some (some .list) := by decide +kernel
  have hrun : (compile "travel" promotedSource {} Probe.offline).toOption.map (fun _ => ()) =
      some () := by decide +kernel
  have hreached : Reached {} Probe.offline sections ⟨.entities, sectionsOf .entities sections,
      contextAfter {} Probe.offline {}, {}⟩ := by
    have hstart := @Reached.start {} Probe.offline sections
    rw [hdirectives] at hstart
    have hpass := hstart.imports
    rw [himports] at hpass
    exact hpass.entities
  obtain ⟨s₁, s₂, s₃, hsections⟩ := List.length_eq_three.mp hlength
  rw [hsections] at hreached hone htwo
  obtain ⟨c, hc, -⟩ := exists_ok_of_map_toOption hrun
  obtain ⟨m₁, hm₁, hany⟩ := exists_ok_of_map_toOption hone
  obtain ⟨m₂, hm₂, hlist⟩ := exists_ok_of_map_toOption htwo
  have hfirst : s₁.apply (contextAfter {} Probe.offline {}) {} = .ok m₁ := by simpa using hm₁
  have hsecond : s₂.apply (contextAfter {} Probe.offline {}) m₁ = .ok m₂ := by
    obtain ⟨m, hm, hrest⟩ := bind_eq_ok_iff.mp hm₂
    obtain rfl : m₁ = m := Except.ok.inj (hfirst.symm.trans hm)
    simpa using hrest
  have hadds := sections_only_add "travel" promotedSource {} Probe.offline
  exact ⟨s₂, [s₃], _, m₁, m₂, c, hreached.step hfirst, hsecond, hany, hlist,
    hadds.1 _ _ _ _ _ _ (hreached.step hfirst) hsecond, hc,
    hadds.2 _ c ((hreached.step hfirst).step hsecond) hc⟩

end DialogModel.Compile
