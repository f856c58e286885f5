import DialogModel.Proofs.App.Repetition
import DialogModel.Proofs.Compile.Registry
import DialogModel.Proofs.Declaration.Repetition

/-!
# Repeated statements

An author may state the same thing twice in a row: a declaration, or a line of an intent.  In every
state that a compilation passes through, the second time succeeds if the first did and changes
nothing of the application, down to the order of its entities, roles and labels.

A line is added between two lines of its intent, so the states inside an intent count as well;
`Visited` has them besides those between two sections.
-/

namespace DialogModel.Compile

open Entity

variable {options : Options} {probe : Probe} {sections : List Section}

/-- The applications that a compilation passes through. -/
inductive Visited (options : Options) (probe : Probe) (sections : List Section) : App → Prop
  /-- Between two sections. -/
  | between {p : Progress} (h : Reached options probe sections p) :
      Visited options probe sections p.model.app
  /-- Between two lines of an intent. -/
  | within {pass : Pass} {s : IntentSection} {rest : List Section} {ctx : Context} {m : Model}
      {done left : List UtteranceLine} {app : App}
      (h : Reached options probe sections ⟨pass, .intent s :: rest, ctx, m⟩)
      (hlines : s.utterances = done ++ left)
      (hdone : done.foldlM (fun app line => line.apply ctx.options s.name app)
        (m.app.ensureIntent s.name) = .ok app) : Visited options probe sections app

lemma Visited.sound {app : App} (h : Visited options probe sections app) :
    app.registry.Sound := by
  cases h with
  | between h => exact h.sound
  | within h _ hdone =>
      refine foldlM_ok_induction (fun app => app.registry.Sound)
        (fun b line b' hb hstep => (UtteranceLine.apply_steps hb hstep).sound hb) ?_ hdone
      rw [App.registry_ensureIntent]
      exact h.sound

/-- What an author states about entities and intents: a declaration in either form, or a line of an
intent that refers to nothing by `@`. -/
inductive Statement
  | newEntity (e : NewEntity)
  | legacyEntity (e : LegacyEntity)
  | utterance (intent : String) (line : UtteranceLine) (h : line.WithoutReferences)

/-- Carries out a statement. -/
def Statement.apply (ctx : Context) (m : Model) : Statement → Except Failure Model
  | .newEntity e => e.apply ctx m
  | .legacyEntity e => e.apply ctx m
  | .utterance intent line _ => do
    let app ← line.apply ctx.options intent m.app
    .ok { m with app }

/-- **A statement that succeeds can be repeated and then changes nothing of the application.** -/
theorem statement_repeats (file source : String) (options : Options) (probe : Probe) (m : Model)
    (hvisited : Visited options probe (Document.read file source).sections m.app) (ctx : Context)
    (statement : Statement) (m' : Model) (h : statement.apply ctx m = .ok m') :
    ∃ m'', statement.apply ctx m' = .ok m'' ∧ m''.app = m'.app := by
  have hs := hvisited.sound
  cases statement with
  | newEntity e => exact NewEntity.apply_again hs h
  | legacyEntity e => exact LegacyEntity.apply_again hs h
  | utterance intent line hat =>
      obtain ⟨app, hline, h⟩ := bind_eq_ok_iff.mp h
      cases h
      have hagain := UtteranceLine.apply_again hs hat hline
      exact ⟨_, bind_eq_ok_iff.mpr ⟨app, hagain, rfl⟩, rfl⟩

/-- A reference by `@` may be decided by a label behind it, and is then written in another way the
second time. -/
example :
    let line : UtteranceLine :=
      ⟨[.placeholder { entity := "x", viaAt := true }, .placeholder { entity := "x" }],
        ⟨"f", 1, ""⟩⟩
    ((line.apply {} "i" {}).bind (line.apply {} "i")).toOption.map (·.patterns.map (·.pattern)) =
      some ["\x7b@x\x7d\x7bx\x7d", "\x7bx\x7d\x7bx\x7d"] := by
  decide +kernel

/-- A source with a placeholder that has a role. -/
def placeholderSource : String :=
  "# travel\n- fly to \x7bcity:dest\x7d\n"

/-- A list that takes the placeholder over and gives one value twice. -/
def cityStatement : Statement :=
  .legacyEntity
    { name := "city", typeString := "paris= Roles=orig", prov := ⟨"travel", 3, "$city"⟩
      lines := [⟨"lutetia", ⟨"travel", 4, "- lutetia"⟩⟩, ⟨"paris:", ⟨"travel", 5, "- paris:"⟩⟩,
        ⟨"lutece", ⟨"travel", 6, "- lutece"⟩⟩] }

theorem statement_repeats_cityStatement :
    ∃ c m' m'', compile "travel" placeholderSource {} Probe.offline = .ok c ∧
      c.model.app.registry.kindOf? "city" = some .patternAny ∧
      cityStatement.apply (contextAfter {} Probe.offline {}) c.model = .ok m' ∧
      m'.app.registry.get? "city" = some
        { name := "city", roles := .ofList ["dest", "orig"]
          detail := .list [⟨"paris", ["lutetia", "lutece"]⟩] } ∧
      cityStatement.apply (contextAfter {} Probe.offline {}) m' = .ok m'' ∧
      m''.app = m'.app := by
  have hfirst : (compile "travel" placeholderSource {} Probe.offline).toOption.map
      (fun c => c.model.app.registry.kindOf? "city") = some (some .patternAny) := by decide +kernel
  obtain ⟨c, hc, hkind⟩ := exists_ok_of_map_toOption hfirst
  obtain ⟨ctx, hreached⟩ := reached_of_compile hc
  have hsecond : ((compile "travel" placeholderSource {} Probe.offline).bind fun c =>
      cityStatement.apply (contextAfter {} Probe.offline {}) c.model).toOption.map
        (fun m => m.app.registry.get? "city") = some (some
          { name := "city", roles := .ofList ["dest", "orig"]
            detail := .list [⟨"paris", ["lutetia", "lutece"]⟩] }) := by decide +kernel
  rw [hc] at hsecond
  obtain ⟨m', hm', hget⟩ := exists_ok_of_map_toOption hsecond
  obtain ⟨m'', hm'', happ⟩ :=
    statement_repeats _ _ _ _ c.model (.between hreached) _ cityStatement m' hm'
  exact ⟨c, m', m'', hc, hkind, hm', hget, hm'', happ⟩

end DialogModel.Compile
