import DialogModel.FirstSeen

/-!
# Sets of roles

The roles of one entity.  A role set is listed in first-seen order, which is what a written model
shows, and compared as a set, so that the order in which roles were declared does not count.
-/

namespace DialogModel

/-- The roles of an entity, without repetition, in the order in which they were first seen. -/
structure RoleSet where
  toList : List String := []
  nodup : toList.Nodup := by decide
  deriving DecidableEq

namespace RoleSet

/-- The set without roles. -/
def empty : RoleSet where

instance : EmptyCollection RoleSet := ⟨empty⟩
instance : Inhabited RoleSet := ⟨empty⟩

/-- Membership of a role. -/
instance : Membership String RoleSet := ⟨fun s r => r ∈ s.toList⟩

instance (r : String) (s : RoleSet) : Decidable (r ∈ s) :=
  inferInstanceAs (Decidable (r ∈ s.toList))

/-- Adds a role behind the others unless it is present. -/
def insert (s : RoleSet) (role : String) : RoleSet where
  toList := FirstSeen.add s.toList role
  nodup := FirstSeen.nodup_add s.nodup role

/-- Adds roles one after another. -/
def insertAll (s : RoleSet) (roles : List String) : RoleSet where
  toList := FirstSeen.addAll s.toList roles
  nodup := FirstSeen.nodup_addAll s.nodup roles

/-- The set of the listed roles. -/
def ofList (roles : List String) : RoleSet :=
  (∅ : RoleSet).insertAll roles

/-- The union, the members of `s` first. -/
def union (s t : RoleSet) : RoleSet :=
  s.insertAll t.toList

/-- The number of roles. -/
def size (s : RoleSet) : Nat :=
  s.toList.length

/-- Whether there is no role. -/
def isEmpty (s : RoleSet) : Bool :=
  s.toList.isEmpty

/-- Equality as sets: the order in which roles were seen does not count. -/
def same (s t : RoleSet) : Bool :=
  s.size == t.size && s.toList.all fun r => decide (r ∈ t)

theorem mem_def {s : RoleSet} {r : String} : r ∈ s ↔ r ∈ s.toList :=
  Iff.rfl

@[simp]
theorem mem_insert {s : RoleSet} {r q : String} : q ∈ s.insert r ↔ q ∈ s ∨ q = r :=
  FirstSeen.mem_add

@[simp]
theorem mem_insertAll {s : RoleSet} {rs : List String} {q : String} :
    q ∈ s.insertAll rs ↔ q ∈ s ∨ q ∈ rs :=
  FirstSeen.mem_addAll

@[simp]
theorem mem_union {s t : RoleSet} {q : String} : q ∈ s.union t ↔ q ∈ s ∨ q ∈ t :=
  mem_insertAll

@[simp]
theorem not_mem_empty (q : String) : q ∉ (∅ : RoleSet) :=
  List.not_mem_nil

@[simp]
theorem mem_ofList {rs : List String} {q : String} : q ∈ ofList rs ↔ q ∈ rs := by
  simp [ofList]

end RoleSet

end DialogModel
