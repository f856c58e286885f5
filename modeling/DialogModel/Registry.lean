import DialogModel.Diagnostic
import DialogModel.Entity.Record
import DialogModel.OrderedMap

/-!
# The registry of entities

All entities by name, and for each role the entity that owns it.  No name is ever a role of
another entity and no role belongs to two, which `claim` checks before it records the owner of a
role.  Removing an entity keeps its roles owned, so that nothing else takes them before the entity
is declared again under another kind.

Phrase lists are kept apart: their names collide with nothing.
-/

namespace DialogModel

open Entity

namespace Registry

/-- A way in which a declaration contradicts the registry. -/
inductive Violation
  /-- The name belongs to an entity of another kind. -/
  | duplicate (name : String) (existing requested : Kind)
  /-- The name is a role of another entity. -/
  | nameIsRole (name owner : String)
  /-- A role is the name of another entity. -/
  | roleIsName (role entity : String)
  /-- A role belongs to another entity. -/
  | roleTaken (role entity owner : String)
  deriving DecidableEq, Repr

/-- The code of a violation. -/
def Violation.code : Violation → ErrorCode
  | .duplicate .. => .duplicateEntityDefinition
  | _ => .roleNameCollision

/-- The wording of a violation. -/
def Violation.message : Violation → String
  | .duplicate name existing requested =>
    s!"entity '{name}' is already defined as a {existing.name} entity " ++
      s!"and cannot be redefined as {requested.name}"
  | .nameIsRole name owner =>
    s!"'{name}' is already used as a role of entity '{owner}' and cannot be an entity name"
  | .roleIsName role entity =>
    s!"role '{role}' of entity '{entity}' collides with an entity of the same name"
  | .roleTaken role entity owner =>
    s!"role '{role}' of entity '{entity}' is already a role of entity '{owner}'"

instance : Cause Violation := ⟨Violation.code, Violation.message⟩

end Registry

/-- Entities by name, phrase lists by name, and the owner of each role. -/
structure Registry where
  entities : OrderedMap String Record := ∅
  phraseLists : OrderedMap String Phrases := ∅
  roleOwners : OrderedMap String String := ∅
  deriving DecidableEq, Inhabited

namespace Registry

/-! ## Look-up -/

/-- The entity of a name. -/
def get? (reg : Registry) (name : String) : Option Record :=
  reg.entities.get? name

/-- The kind of the entity of a name. -/
def kindOf? (reg : Registry) (name : String) : Option Kind :=
  (reg.get? name).map Record.kind

/-- The entity that owns a role. -/
def ownerOf? (reg : Registry) (role : String) : Option String :=
  reg.roleOwners.get? role

/-- The phrase list of a name. -/
def phraseList? (reg : Registry) (name : String) : Option Phrases :=
  reg.phraseLists.get? name

/-- The entities in the order of their first declaration. -/
def records (reg : Registry) : List Record :=
  reg.entities.values

/-- The entities of one kind. -/
def ofKind (reg : Registry) (kind : Kind) : List Record :=
  reg.records.filter fun r => decide (r.kind = kind)

/-- The number of entities. -/
def size (reg : Registry) : Nat :=
  reg.entities.size

/-! ## Checks -/

/-- The violation in declaring a name of another kind again. -/
def kindViolation? (reg : Registry) (kind : Kind) (name : String) : Option Violation :=
  match reg.kindOf? name with
  | some existing => if existing = kind then none else some (.duplicate name existing kind)
  | none => none

/-- The violation in using a name that is a role of another entity. -/
def nameViolation? (reg : Registry) (name : String) : Option Violation :=
  match reg.ownerOf? name with
  | some owner => if owner = name then none else some (.nameIsRole name owner)
  | none => none

/-- The violation in giving one role to an entity. -/
def roleViolation? (reg : Registry) (name role : String) : Option Violation :=
  if role ≠ name ∧ reg.entities.contains role then some (.roleIsName role name)
  else
    match reg.ownerOf? role with
    | some owner => if owner = name then none else some (.roleTaken role name owner)
    | none => none

/-- The first violation in declaring an entity with some roles. -/
def violation? (reg : Registry) (kind : Kind) (name : String) (roles : RoleSet) :
    Option Violation :=
  match reg.kindViolation? kind name with
  | some v => some v
  | none =>
    match reg.nameViolation? name with
    | some v => some v
    | none => roles.toList.findSome? (reg.roleViolation? name)

/-! ## Changes -/

/-- Records the owner of some roles. -/
def own (reg : Registry) (name : String) (roles : List String) : Registry :=
  { reg with roleOwners := roles.foldl (fun owners role => owners.insert role name) reg.roleOwners }

/-- Checks that a name and its roles collide with nothing, and records who owns the roles. -/
def claim (reg : Registry) (kind : Kind) (name : String) (roles : RoleSet) :
    Except Violation Registry :=
  match reg.violation? kind name roles with
  | some v => .error v
  | none => .ok (reg.own name roles.toList)

/-- The entity of a name, or a new one of the given kind. -/
def getOrNew (reg : Registry) (kind : Kind) (name : String) : Record :=
  (reg.get? name).getD (.ofKind kind name)

/-- Adds an entity, or adds roles to it.  An entity of another kind is left alone and reported. -/
def upsert (reg : Registry) (kind : Kind) (name : String) (roles : RoleSet) :
    Except Violation Registry :=
  match reg.kindViolation? kind name with
  | some v => .error v
  | none =>
    .ok { reg with
      entities := reg.entities.insert name ((reg.getOrNew kind name).addRoles roles) }

/-- Checks and adds an entity with its roles. -/
def declare (reg : Registry) (kind : Kind) (name : String) (roles : RoleSet) :
    Except Violation Registry := do
  let claimed ← reg.claim kind name roles
  claimed.upsert kind name roles

/-- Changes the detail of an entity. -/
def updateDetail (reg : Registry) (name : String) (f : Detail → Detail) : Registry :=
  match reg.get? name with
  | some r => { reg with entities := reg.entities.insert name { r with detail := f r.detail } }
  | none => reg

/-- Removes an entity; its roles stay owned. -/
def erase (reg : Registry) (name : String) : Registry :=
  { reg with entities := reg.entities.erase name }

/-- Removes an entity of the given kind and gives back its roles. -/
def release? (reg : Registry) (kind : Kind) (name : String) : Option (RoleSet × Registry) :=
  match reg.get? name with
  | some r => if r.kind = kind then some (r.roles, reg.erase name) else none
  | none => none

/-- The phrase list of a name, or a new one with the given flag. -/
def phrasesOrNew (reg : Registry) (name : String) (interchangeable : Bool) : Phrases :=
  (reg.phraseList? name).getD { interchangeable }

/-- Changes the values of a phrase list; a new one takes the flag, one that exists keeps its own. -/
def updatePhrases (reg : Registry) (name : String) (interchangeable : Bool)
    (f : List String → List String) : Registry :=
  let phrases := reg.phrasesOrNew name interchangeable
  { reg with phraseLists := reg.phraseLists.insert name { phrases with values := f phrases.values } }

end Registry

end DialogModel
