import Mathlib.Logic.Relation
import DialogModel.Compile
import DialogModel.Proofs.Outcome
import DialogModel.Proofs.Registry.Consistency

/-!
# What a compilation does to the application

Eight ways of declaring an entity, labels, placeholders and directives all come down to a few
changes of the application.  `App.Step` lists them with the conditions under which they happen, and
`Proofs.App.Sections` shows that carrying out a section is a chain of them.  An invariant of the
application is then proved once per change and not once per handler.

A record is only ever removed in the change `promoted`, together with its new declaration, and a
label is recorded only when its entity has a record that bears it (`Registry.Bears`).
-/

namespace DialogModel

open Entity

/-! ## Labels and the records that bear them -/

/-- The record of an entity bears a label: it is no placeholder, it has the role of the label, and
if the label has none it is of a kind that needs none. -/
def Registry.Bears (reg : Registry) (entity : String) (role : Option String) : Prop :=
  ∃ r, reg.get? entity = some r ∧ r.kind ≠ .patternAny ∧
    (role = none → r.kind.requiresRole = false) ∧ ∀ q, role = some q → q ∈ r.roles

/-- A function that completes the detail of an entity after its registration. -/
inductive Declaration.Completes : (Detail → Detail) → Prop
  | sublists (new : List Sublist) : Completes (mergeSublists new)
  | children (new : List String) : Completes (setChildren new)
  | pattern (new : Option String) : Completes (setPattern new)

lemma Declaration.Completes.kind_eq {f : Detail → Detail} (hf : Completes f) (d : Detail) :
    (f d).kind = d.kind := by
  cases hf <;> cases d <;> rfl

namespace App

/-- A record that a declaration of another kind takes over: a placeholder, or a simple entity that
has not been labelled without a role. -/
def Yields (app : App) (r : Record) (name : String) (kind : Kind) : Prop :=
  r.kind ≠ kind ∧ (r.kind = .patternAny ∨
    r.kind = .simple ∧ kind.absorbsSimple = true ∧ app.isLabelledWithoutRole name = false)

/-- One change of the application. -/
inductive Step : App → App → Prop
  | setting (app : App) (key value : String) : Step app (app.setSetting key value)
  | intent (app : App) (name : String) : Step app (app.ensureIntent name)
  | intentInherits (app : App) (name : String) (inherits : Inherits) :
      Step app (app.setIntentInherits name inherits)
  | entityInherits (app : App) (name : String) (inherits : Inherits) :
      Step app (app.setEntityInherits name inherits)
  /-- An entity that is new or of the same kind is declared with roles. -/
  | declared {app : App} {kind : Kind} {name : String} {roles : RoleSet}
      (hkind : app.registry.get? name = none → kind ≠ .phraseList)
      (h : app.registry.Admits kind name roles) :
      Step app { app with registry := app.registry.declared kind name roles }
  /-- A record is taken over: it is removed and declared again with the roles that it had. -/
  | promoted {app : App} {kind : Kind} {name : String} {roles : RoleSet} {r : Record}
      (hkind : kind ≠ .phraseList) (hget : app.registry.get? name = some r)
      (hyields : app.Yields r name kind)
      (h : (app.registry.erase name).Admits kind name (r.roles.union roles)) :
      Step app { app with
        registry := (app.registry.erase name).declared kind name (r.roles.union roles) }
  | completed {app : App} {f : Detail → Detail} (name : String) (hf : Declaration.Completes f) :
      Step app { app with registry := app.registry.updateDetail name f }
  /-- Phrases are added to a phrase list whose flag stays. -/
  | phrases {app : App} {name : String} {interchangeable : Bool} (items : List String)
      (hflag : ∀ p, app.registry.phraseList? name = some p → p.interchangeable = interchangeable) :
      Step app { app with
        registry := app.registry.updatePhrases name interchangeable (FirstSeen.addAll · items) }
  | noted {app : App} {entity : String} {role : Option String}
      (h : app.registry.Bears entity role) : Step app (app.noteLabel entity role)
  | utterance {app : App} {u : Example} (h : ∀ l ∈ u.labels, app.registry.Bears l.entity l.role) :
      Step app (app.addUtterance u)
  | pattern (app : App) (p : Pattern) : Step app (app.addPattern p).2

/-- A chain of changes. -/
abbrev Steps : App → App → Prop :=
  Relation.ReflTransGen Step

/-! ## The registry along the changes -/

@[simp]
lemma registry_ensureIntent (app : App) (name : String) :
    (app.ensureIntent name).registry = app.registry := by
  unfold ensureIntent
  split <;> rfl

@[simp]
lemma registry_noteLabel (app : App) (entity : String) (role : Option String) :
    (app.noteLabel entity role).registry = app.registry := by
  unfold noteLabel
  split <;> rfl

@[simp]
lemma registry_addPattern (app : App) (p : Pattern) :
    (app.addPattern p).2.registry = app.registry := by
  unfold addPattern
  split <;> rfl

@[simp]
lemma registry_addUtterance (app : App) (u : Example) :
    (app.addUtterance u).registry = app.registry := by
  have hfold : ∀ (ls : List Label) (app : App),
      (ls.foldl (fun app l => app.noteLabel l.entity l.role) app).registry = app.registry := by
    intro ls
    induction ls with
    | nil => exact fun _ => rfl
    | cons l ls ih => exact fun app => (ih _).trans (registry_noteLabel app l.entity l.role)
  exact hfold u.labels app

/-- Every change keeps the registry sound. -/
lemma Step.sound {app app' : App} (h : Step app app') (hs : app.registry.Sound) :
    app'.registry.Sound := by
  cases h with
  | setting key value => exact hs
  | intent name => simpa using hs
  | intentInherits name inherits => exact hs
  | entityInherits name inherits => exact hs
  | @declared kind name roles hkind hadm =>
      refine hs.declared ?_ hadm
      cases hget : app.registry.get? name with
      | none => exact hkind hget
      | some r => exact hadm.same_kind r hget ▸ hs.kind_ne hget
  | promoted hkind hget _ hadm => exact hs.promoted hkind hget hadm
  | completed name hf => exact hs.updateDetail hf.kind_eq name
  | @phrases name flag items _ => exact hs.updatePhrases name flag (FirstSeen.addAll · items)
  | noted _ => simpa using hs
  | utterance _ => simpa using hs
  | pattern p => simpa using hs

lemma Steps.sound {app app' : App} (h : Steps app app') (hs : app.registry.Sound) :
    app'.registry.Sound := by
  induction h with
  | refl => exact hs
  | tail _ hstep ih => exact hstep.sound ih

end App

end DialogModel
