import DialogModel.Proofs.FirstSeen
import DialogModel.RoleSet

/-!
# Role sets are sets

Two role sets are the same if they are equally large and the second has all roles of the first.  Of
lists this is not symmetric: `["to", "to"]` would be the same as `["to", "from"]`, but not the other
way round.  Since no role set repeats a role, it is equality of sets between them (`same_iff`), and
the laws of unions are those of sets.

What a role set lists is told by the way in which it is built.  A `Construction` is such a way, with
the roles that are given in its course; `toList_build` says that only these count, and not in which
steps they come, and `FirstSeen.Follows` what is listed of them.
-/

namespace DialogModel.RoleSet

variable {s t : RoleSet}

lemma eq_of_toList_eq (h : s.toList = t.toList) : s = t := by
  cases s
  cases t
  cases h
  rfl

/-! ## Equality as sets -/

/-- Two role sets are the same exactly if they have the same members. -/
lemma same_iff : s.same t = true ↔ ∀ role, role ∈ s ↔ role ∈ t := by
  have hsplit : s.same t = true ↔ s.toList.length = t.toList.length ∧ s.toList ⊆ t.toList := by
    simp only [same, size, Bool.and_eq_true, beq_iff_eq, List.all_eq_true, decide_eq_true_eq]
    rfl
  rw [hsplit, FirstSeen.length_eq_and_subset_iff s.nodup t.nodup]
  simp only [mem_def]

lemma equivalence_same : Equivalence fun s t : RoleSet => s.same t = true where
  refl _ := same_iff.mpr fun _ => Iff.rfl
  symm h := same_iff.mpr fun role => (same_iff.mp h role).symm
  trans h h' := same_iff.mpr fun role => (same_iff.mp h role).trans (same_iff.mp h' role)

/-! ## Unions -/

lemma union_eq_self (h : ∀ role ∈ t, role ∈ s) : s.union t = s :=
  eq_of_toList_eq (FirstSeen.addAll_eq_self h)

lemma empty_union (roles : RoleSet) : (∅ : RoleSet).union roles = roles :=
  eq_of_toList_eq (FirstSeen.ofList_eq_self roles.nodup)

lemma same_union_self (s : RoleSet) : (s.union s).same s = true := by
  rw [union_eq_self fun _ hrole => hrole]
  exact equivalence_same.refl s

/-- Only the order in which the roles are listed differs. -/
lemma same_union_comm (s t : RoleSet) : (s.union t).same (t.union s) = true := by
  refine same_iff.mpr fun role => ?_
  rw [mem_union, mem_union, or_comm]

/-- A union lists the roles of its first set first. -/
example :
    ((ofList ["to", "from"]).union (ofList ["via", "to"])).toList = ["to", "from", "via"] ∧
      ((ofList ["via", "to"]).union (ofList ["to", "from"])).toList = ["via", "to", "from"] :=
  ⟨rfl, rfl⟩

lemma same_union_assoc (s t u : RoleSet) :
    ((s.union t).union u).same (s.union (t.union u)) = true := by
  refine same_iff.mpr fun role => ?_
  rw [mem_union, mem_union, mem_union, mem_union, or_assoc]

/-! ## Ways of building a role set -/

/-- A way of building a role set. -/
inductive Construction
  /-- There is no role yet. -/
  | empty
  /-- A role is added. -/
  | insert (c : Construction) (role : String)
  /-- Listed roles are added. -/
  | insertAll (c : Construction) (roles : List String)
  /-- The roles of another role set are added. -/
  | union (c d : Construction)
  /-- Listed roles are collected. -/
  | ofList (roles : List String)

namespace Construction

/-- The role set that is built. -/
def build : Construction → RoleSet
  | .empty => ∅
  | .insert c role => c.build.insert role
  | .insertAll c roles => c.build.insertAll roles
  | .union c d => c.build.union d.build
  | .ofList roles => .ofList roles

/-- The roles that are given, one after another, with those that come again. -/
def given : Construction → List String
  | .empty => []
  | .insert c role => c.given ++ [role]
  | .insertAll c roles => c.given ++ roles
  | .union c d => c.given ++ d.given
  | .ofList roles => roles

/-- A role set is what is collected of the roles that are given, however it is built. -/
lemma toList_build (c : Construction) : c.build.toList = FirstSeen.ofList c.given := by
  induction c with
  | empty => rfl
  | insert c role ih =>
      show FirstSeen.add c.build.toList role = FirstSeen.ofList (c.given ++ [role])
      rw [ih, FirstSeen.ofList_concat]
  | insertAll c roles ih =>
      show FirstSeen.addAll c.build.toList roles = FirstSeen.ofList (c.given ++ roles)
      rw [ih]
      exact (FirstSeen.addAll_append [] c.given roles).symm
  | union c d ihc ihd =>
      show FirstSeen.addAll c.build.toList d.build.toList = FirstSeen.ofList (c.given ++ d.given)
      -- The roles of the other set are collected a second time.
      rw [ihc, ihd, FirstSeen.addAll_ofList]
      exact (FirstSeen.addAll_append [] c.given d.given).symm
  | ofList roles => rfl

lemma follows_build (c : Construction) : FirstSeen.Follows c.build.toList c.given :=
  c.toList_build ▸ FirstSeen.follows_ofList c.given

/-- **Role sets are sets, listed in first-seen order.**  However role sets are built, each lists the
roles that it was given, once and in the order of their first appearance, and two are the same
exactly if they have the same roles.  Hence `same` is an equivalence, a union has the roles of both
sets and no others, and unions do not depend on repetition, grouping and order. -/
theorem constructions_are_sets (a b c : Construction) :
    (a.build.toList.Nodup ∧ FirstSeen.Follows a.build.toList a.given) ∧
      (a.build.same b.build = true ↔ ∀ role, role ∈ a.build ↔ role ∈ b.build) ∧
      Equivalence (fun d e : Construction => d.build.same e.build = true) ∧
      (∀ role, role ∈ a.build.union b.build ↔ role ∈ a.build ∨ role ∈ b.build) ∧
      (a.build.union a.build).same a.build = true ∧
      ((a.build.union b.build).union c.build).same
        (a.build.union (b.build.union c.build)) = true ∧
      (a.build.union b.build).same (b.build.union a.build) = true := by
  have hfollows := a.follows_build
  have hequiv := equivalence_same.comap build
  refine ⟨⟨hfollows.nodup, hfollows⟩, same_iff, hequiv, fun role => mem_union, ?_, ?_, ?_⟩
  · exact same_union_self a.build
  · exact same_union_assoc a.build b.build c.build
  · exact same_union_comm a.build b.build

end Construction

end DialogModel.RoleSet
