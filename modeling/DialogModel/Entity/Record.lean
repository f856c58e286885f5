import DialogModel.RoleSet

/-!
# Entity records

What is known about one named entity: its kind, its roles, and the detail that its kind carries.
The kind is read off the detail, so a record cannot hold the detail of another kind.
-/

namespace DialogModel.Entity

/-- The kinds of entities. -/
inductive Kind
  | simple
  | list
  | composite
  | regex
  | prebuilt
  | patternAny
  | phraseList
  deriving DecidableEq, Repr, Inhabited

namespace Kind

/-- The written name of a kind. -/
def name : Kind → String
  | .simple => "simple"
  | .list => "list"
  | .composite => "composite"
  | .regex => "regex"
  | .prebuilt => "prebuilt"
  | .patternAny => "pattern.any"
  | .phraseList => "phrase list"

/-- All kinds. -/
def all : List Kind :=
  [.simple, .list, .composite, .regex, .prebuilt, .patternAny, .phraseList]

/-- The kind with a given written name. -/
def ofName? (s : String) : Option Kind :=
  all.find? fun k => k.name == s

theorem ofName?_name (k : Kind) : ofName? k.name = some k := by
  cases k <;> decide

/-- The kinds whose labels must name a role. -/
def requiresRole : Kind → Bool
  | .list | .regex | .prebuilt => true
  | _ => false

/-- The kinds whose declaration takes over a simple entity of the same name. -/
def absorbsSimple : Kind → Bool
  | .list | .composite | .regex => true
  | _ => false

end Kind

/-- A value of a list entity and the words that stand for it. -/
structure Sublist where
  canonicalForm : String
  synonyms : List String := []
  deriving DecidableEq, Repr, Inhabited

/-- The words of a phrase list. -/
structure Phrases where
  values : List String := []
  interchangeable : Bool := false
  deriving DecidableEq, Repr, Inhabited

/-- What an entity of each kind carries besides its name and its roles. -/
inductive Detail
  | simple
  | list (sublists : List Sublist)
  | composite (children : List String)
  /-- The pattern is empty until a declaration gives one. -/
  | regex (pattern : String)
  | prebuilt
  | patternAny (explicitList : List String)
  | phraseList (phrases : Phrases)
  deriving DecidableEq, Repr, Inhabited

namespace Detail

/-- The kind that a detail belongs to. -/
def kind : Detail → Kind
  | .simple => .simple
  | .list _ => .list
  | .composite _ => .composite
  | .regex _ => .regex
  | .prebuilt => .prebuilt
  | .patternAny _ => .patternAny
  | .phraseList _ => .phraseList

/-- The detail of an entity of which nothing more is known. -/
def empty : Kind → Detail
  | .simple => .simple
  | .list => .list []
  | .composite => .composite []
  | .regex => .regex ""
  | .prebuilt => .prebuilt
  | .patternAny => .patternAny []
  | .phraseList => .phraseList {}

@[simp]
theorem kind_empty (k : Kind) : (empty k).kind = k := by
  cases k <;> rfl

end Detail

/-- A named entity. -/
structure Record where
  name : String
  roles : RoleSet := ∅
  detail : Detail
  deriving DecidableEq

namespace Record

/-- The kind of an entity. -/
def kind (r : Record) : Kind :=
  r.detail.kind

/-- An entity of which only the kind and the name are known. -/
def ofKind (kind : Kind) (name : String) : Record where
  name := name
  detail := .empty kind

/-- Adds roles to an entity; phrase lists have none. -/
def addRoles (r : Record) (roles : RoleSet) : Record :=
  match r.detail with
  | .phraseList _ => r
  | _ => { r with roles := r.roles.union roles }

@[simp]
theorem kind_ofKind (kind : Kind) (name : String) : (ofKind kind name).kind = kind := by
  simp [ofKind, Record.kind]

@[simp]
theorem name_addRoles (r : Record) (roles : RoleSet) : (r.addRoles roles).name = r.name := by
  unfold addRoles
  split <;> rfl

@[simp]
theorem kind_addRoles (r : Record) (roles : RoleSet) : (r.addRoles roles).kind = r.kind := by
  unfold addRoles
  split <;> rfl

end Record

end DialogModel.Entity
