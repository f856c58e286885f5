import Mathlib.Tactic.Common
import DialogModel.Registry

/-!
# What a declaration does to the registry

`Registry.declare` first checks and then changes.  This file says both once: a declaration
succeeds exactly if the registry *admits* it (`declare_eq_ok_iff`), and the registry it then leaves
is described by its look-ups (`get?_declared`, `ownerOf?_declared`).  Nothing outside this file
opens `violation?`, `claim` or `upsert`.

`Admits` consults the owners of roles and not the records, as the check does.  That the two agree is
a property of the registries that a compilation reaches, and not of the check.
-/

namespace DialogModel

open Entity

/-! ## Entries and look-up of an ordered map -/

namespace OrderedMap

variable {α β : Type} [DecidableEq α]

lemma find?_eq_some_of_mem {k : α} {v : β} :
    ∀ {es : List (α × β)}, (es.map Prod.fst).Nodup → (k, v) ∈ es →
      es.find? (fun e => decide (e.1 = k)) = some (k, v)
  | [], _, h => absurd h List.not_mem_nil
  | e :: es, hn, h => by
      rw [List.map_cons, List.nodup_cons] at hn
      rcases List.mem_cons.mp h with rfl | hmem
      · simp
      · have hne : e.1 ≠ k := fun he => hn.1 (he ▸ List.mem_map_of_mem hmem)
        rw [List.find?_cons_of_neg (by simpa using hne)]
        exact find?_eq_some_of_mem hn.2 hmem

/-- An entry of a map is what look-up finds under its key. -/
lemma mem_toList_iff {m : OrderedMap α β} {k : α} {v : β} :
    (k, v) ∈ m.toList ↔ m.get? k = some v := by
  constructor
  · intro h
    rw [get?, find?_eq_some_of_mem m.nodup h]
    rfl
  · intro h
    obtain ⟨e, he, rfl⟩ := Option.map_eq_some_iff.mp h
    have hk : e.1 = k := by simpa using List.find?_some he
    subst hk
    exact List.mem_of_find?_eq_some he

lemma mem_values_iff {m : OrderedMap α β} {v : β} :
    v ∈ m.values ↔ ∃ k, m.get? k = some v := by
  rw [values, List.mem_map]
  constructor
  · rintro ⟨⟨k, v⟩, h, rfl⟩
    exact ⟨k, mem_toList_iff.mp h⟩
  · rintro ⟨k, h⟩
    exact ⟨(k, v), mem_toList_iff.mpr h, rfl⟩

/-- Storing one value under several keys. -/
lemma get?_foldl_insert (ks : List α) (v : β) (m : OrderedMap α β) (x : α) :
    (ks.foldl (fun m k => m.insert k v) m).get? x = if x ∈ ks then some v else m.get? x := by
  induction ks generalizing m with
  | nil => simp
  | cons k ks ih =>
      rw [List.foldl_cons, ih, get?_insert]
      by_cases hx : x ∈ ks
      · simp [hx]
      · by_cases hk : k = x
        · simp [hk]
        · simp [hx, hk, Ne.symm hk]

end OrderedMap

namespace Registry

variable {reg reg' : Registry} {kind : Kind} {name : String} {roles : RoleSet}

/-! ## The check -/

/-- What a registry asks of a declaration of an entity with some roles. -/
structure Admits (reg : Registry) (kind : Kind) (name : String) (roles : RoleSet) : Prop where
  /-- The name is new or belongs to an entity of the same kind. -/
  same_kind : ∀ r, reg.get? name = some r → r.kind = kind
  /-- The name is not a role that another entity owns. -/
  name_free : ∀ owner, reg.ownerOf? name = some owner → owner = name
  /-- No role is the name of another entity. -/
  role_not_name : ∀ role ∈ roles, role ≠ name → reg.get? role = none
  /-- No role is owned by another entity. -/
  role_free : ∀ role ∈ roles, ∀ owner, reg.ownerOf? role = some owner → owner = name

lemma kindViolation?_eq_none_iff :
    reg.kindViolation? kind name = none ↔ ∀ r, reg.get? name = some r → r.kind = kind := by
  unfold kindViolation? kindOf?
  cases hget : reg.get? name with
  | none => simp
  | some r => by_cases hk : r.kind = kind <;> simp [hk]

lemma nameViolation?_eq_none_iff :
    reg.nameViolation? name = none ↔ ∀ owner, reg.ownerOf? name = some owner → owner = name := by
  unfold nameViolation?
  cases howner : reg.ownerOf? name with
  | none => simp
  | some owner => by_cases ho : owner = name <;> simp [ho]

lemma roleViolation?_eq_none_iff {role : String} :
    reg.roleViolation? name role = none ↔
      (role ≠ name → reg.get? role = none) ∧
        ∀ owner, reg.ownerOf? role = some owner → owner = name := by
  have hcontains : reg.entities.contains role = true ↔ ¬ reg.get? role = none := by
    rw [OrderedMap.contains, Option.isSome_iff_ne_none]
    rfl
  unfold roleViolation?
  by_cases hname : role ≠ name ∧ reg.entities.contains role = true
  · rw [if_pos hname]
    simp [hname.1, hcontains.mp hname.2]
  · rw [if_neg hname]
    have hfree : role ≠ name → reg.get? role = none := fun hne => by
      by_contra hsome
      exact hname ⟨hne, hcontains.mpr hsome⟩
    cases howner : reg.ownerOf? role with
    | none => simpa using hfree
    | some owner =>
        by_cases ho : owner = name
        · simpa [ho] using hfree
        · simp [ho]

lemma violation?_eq_none_iff :
    reg.violation? kind name roles = none ↔ reg.Admits kind name roles := by
  have hsplit : reg.violation? kind name roles = none ↔
      reg.kindViolation? kind name = none ∧ reg.nameViolation? name = none ∧
        ∀ role ∈ roles.toList, reg.roleViolation? name role = none := by
    unfold violation?
    cases reg.kindViolation? kind name with
    | some v => simp
    | none =>
        cases reg.nameViolation? name with
        | some v => simp
        | none => simp [List.findSome?_eq_none_iff]
  rw [hsplit, kindViolation?_eq_none_iff, nameViolation?_eq_none_iff]
  simp only [roleViolation?_eq_none_iff]
  constructor
  · rintro ⟨hkind, hname, hroles⟩
    exact ⟨hkind, hname, fun role h => (hroles role h).1, fun role h => (hroles role h).2⟩
  · intro h
    exact ⟨h.same_kind, h.name_free, fun role hr => ⟨h.role_not_name role hr, h.role_free role hr⟩⟩

/-! ## The change -/

/-- The registry after a declaration that it admits. -/
def declared (reg : Registry) (kind : Kind) (name : String) (roles : RoleSet) : Registry :=
  { reg.own name roles.toList with
    entities := reg.entities.insert name ((reg.getOrNew kind name).addRoles roles) }

/-- A declaration succeeds exactly if the registry admits it. -/
lemma declare_eq_ok_iff :
    reg.declare kind name roles = .ok reg' ↔
      reg.Admits kind name roles ∧ reg' = reg.declared kind name roles := by
  rw [← violation?_eq_none_iff]
  unfold declare claim
  cases hv : reg.violation? kind name roles with
  | some v => simp [bind, Except.bind]
  | none =>
      have hkind : reg.kindViolation? kind name = none :=
        kindViolation?_eq_none_iff.mpr (violation?_eq_none_iff.mp hv).same_kind
      have hown : (reg.own name roles.toList).kindViolation? kind name = none := hkind
      simp only [bind, Except.bind, upsert, hown, Except.ok.injEq, true_and]
      exact eq_comm

/-- The record that an admitted declaration starts from is of the declared kind. -/
lemma Admits.kind_getOrNew (h : reg.Admits kind name roles) :
    (reg.getOrNew kind name).kind = kind := by
  unfold getOrNew
  cases hget : reg.get? name with
  | none => simp
  | some r => simpa using h.same_kind r hget

@[simp]
lemma get?_declared (x : String) :
    (reg.declared kind name roles).get? x =
      if name = x then some ((reg.getOrNew kind name).addRoles roles) else reg.get? x :=
  OrderedMap.get?_insert ..

@[simp]
lemma ownerOf?_declared (role : String) :
    (reg.declared kind name roles).ownerOf? role =
      if role ∈ roles then some name else reg.ownerOf? role :=
  OrderedMap.get?_foldl_insert ..

@[simp]
lemma get?_erase (x : String) :
    (reg.erase name).get? x = if name = x then none else reg.get? x :=
  OrderedMap.get?_erase ..

@[simp]
lemma ownerOf?_erase (role : String) : (reg.erase name).ownerOf? role = reg.ownerOf? role :=
  rfl

lemma get?_updateDetail (f : Detail → Detail) (x : String) :
    (reg.updateDetail name f).get? x =
      if name = x then (reg.get? x).map (fun r => { r with detail := f r.detail })
      else reg.get? x := by
  unfold updateDetail
  cases hget : reg.get? name with
  | none =>
      by_cases hx : name = x
      · subst hx
        simp [hget]
      · simp [hx]
  | some r =>
      refine (OrderedMap.get?_insert ..).trans ?_
      by_cases hx : name = x
      · subst hx
        simp [hget]
      · simp only [if_neg hx]
        rfl

@[simp]
lemma ownerOf?_updateDetail (f : Detail → Detail) (role : String) :
    (reg.updateDetail name f).ownerOf? role = reg.ownerOf? role := by
  unfold updateDetail
  split <;> rfl

end Registry

/-! ## Records -/

namespace Entity.Record

@[simp]
lemma name_ofKind (kind : Kind) (name : String) : (ofKind kind name).name = name :=
  rfl

@[simp]
lemma not_mem_roles_ofKind (kind : Kind) (name role : String) : role ∉ (ofKind kind name).roles :=
  RoleSet.not_mem_empty role

/-- Roles add up in every entity but a phrase list, which has none. -/
lemma mem_roles_addRoles {r : Record} (hkind : r.kind ≠ .phraseList) {roles : RoleSet}
    {role : String} : role ∈ (r.addRoles roles).roles ↔ role ∈ r.roles ∨ role ∈ roles := by
  unfold addRoles
  split
  · next phrases hdetail => exact absurd (by simp [Record.kind, hdetail, Detail.kind]) hkind
  · exact RoleSet.mem_union

lemma mem_addRoles_of_mem {r : Record} {roles : RoleSet} {role : String} (h : role ∈ r.roles) :
    role ∈ (r.addRoles roles).roles := by
  unfold addRoles
  split
  · exact h
  · exact RoleSet.mem_union.mpr (.inl h)

end Entity.Record

end DialogModel
