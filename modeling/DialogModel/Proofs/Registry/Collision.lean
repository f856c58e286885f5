import DialogModel.Proofs.Registry.Consistency

/-!
# Which declarations the registry refuses

The check of a declaration reads the owners of roles, a table that is kept beside the records.
`Collides` says what the check is meant to find, in terms of the records alone: whether a name or a
role of the declaration is taken, and by which record.  In a sound registry the two are the same
(`Sound.exists_claim_iff`, `Sound.claim_eq_error_iff`), so that nothing is refused because of a
role that no record has and no collision is missed.

A declaration may collide in several ways at once.  The kind of the name comes first, then the name,
then the roles in their order; of a role that is both a name and a role of other entities the name
comes first.
-/

namespace DialogModel.Registry

open Entity

/-! ## Collisions with records -/

/-- No record of another kind has the name. -/
def KindFree (records : List Record) (kind : Kind) (name : String) : Prop :=
  ∀ r ∈ records, r.name = name → r.kind = kind

/-- No other record has the name among its roles. -/
def NameFree (records : List Record) (name : String) : Prop :=
  ∀ r ∈ records, r.name ≠ name → name ∉ r.roles

/-- A role is neither the name nor a role of another record. -/
def RoleFree (records : List Record) (name role : String) : Prop :=
  ∀ r ∈ records, r.name ≠ name → r.name ≠ role ∧ role ∉ r.roles

/-- The collision of a declaration with records that is to be reported. -/
inductive Collides (records : List Record) (kind : Kind) (name : String) (roles : RoleSet) :
    Violation → Prop
  /-- A record of another kind has the name, whatever else is wrong. -/
  | duplicate {r : Record} (hr : r ∈ records) (hname : r.name = name) (hkind : r.kind ≠ kind) :
      Collides records kind name roles (.duplicate name r.kind kind)
  /-- Another record has the name among its roles. -/
  | nameIsRole {r : Record} (hfree : KindFree records kind name) (hr : r ∈ records)
      (hname : r.name ≠ name) (hrole : name ∈ r.roles) :
      Collides records kind name roles (.nameIsRole name r.name)
  /-- The first role that is not free is the name of another record. -/
  | roleIsName {r : Record} {role : String} {before behind : List String}
      (hfree : KindFree records kind name ∧ NameFree records name)
      (hroles : roles.toList = before ++ role :: behind)
      (hbefore : ∀ q ∈ before, RoleFree records name q)
      (hr : r ∈ records) (hname : r.name ≠ name) (hrole : r.name = role) :
      Collides records kind name roles (.roleIsName role name)
  /-- The first role that is not free is no name of another record but a role of one. -/
  | roleTaken {r : Record} {role : String} {before behind : List String}
      (hfree : KindFree records kind name ∧ NameFree records name)
      (hroles : roles.toList = before ++ role :: behind)
      (hbefore : ∀ q ∈ before, RoleFree records name q)
      (hnew : ∀ r ∈ records, r.name ≠ name → r.name ≠ role)
      (hr : r ∈ records) (hname : r.name ≠ name) (hrole : role ∈ r.roles) :
      Collides records kind name roles (.roleTaken role name r.name)

/-! ## What the check reports -/

variable {reg : Registry} {kind : Kind} {name role : String} {roles : RoleSet} {v : Violation}

lemma kindViolation?_eq_some_iff :
    reg.kindViolation? kind name = some v ↔
      ∃ r, reg.get? name = some r ∧ r.kind ≠ kind ∧ v = .duplicate name r.kind kind := by
  unfold kindViolation? kindOf?
  cases hget : reg.get? name with
  | none => simp
  | some r => by_cases hk : r.kind = kind <;> simp [hk, eq_comm (a := v)]

lemma nameViolation?_eq_some_iff :
    reg.nameViolation? name = some v ↔
      ∃ owner, reg.ownerOf? name = some owner ∧ owner ≠ name ∧ v = .nameIsRole name owner := by
  unfold nameViolation?
  cases howner : reg.ownerOf? name with
  | none => simp
  | some owner => by_cases ho : owner = name <;> simp [ho, eq_comm (a := v)]

lemma roleViolation?_eq_some_iff :
    reg.roleViolation? name role = some v ↔
      (role ≠ name ∧ (∃ r, reg.get? role = some r) ∧ v = .roleIsName role name) ∨
        (role ≠ name → reg.get? role = none) ∧
          ∃ owner, reg.ownerOf? role = some owner ∧ owner ≠ name ∧
            v = .roleTaken role name owner := by
  have hcontains : reg.entities.contains role = true ↔ ∃ r, reg.get? role = some r := by
    rw [OrderedMap.contains, Option.isSome_iff_exists]
    rfl
  unfold roleViolation?
  by_cases hname : role ≠ name ∧ reg.entities.contains role = true
  · obtain ⟨r, hr⟩ := hcontains.mp hname.2
    rw [if_pos hname]
    simp [hname.1, hr, eq_comm (a := v)]
  · rw [if_neg hname]
    have hnone : role ≠ name → reg.get? role = none := fun hne =>
      Option.eq_none_iff_forall_ne_some.mpr fun r hr => hname ⟨hne, hcontains.mpr ⟨r, hr⟩⟩
    have hnot : ¬ (role ≠ name ∧ (∃ r, reg.get? role = some r) ∧ v = .roleIsName role name) :=
      fun h => hname ⟨h.1, hcontains.mpr h.2.1⟩
    rw [or_iff_right hnot, and_iff_right hnone]
    cases howner : reg.ownerOf? role with
    | none => simp
    | some owner => by_cases ho : owner = name <;> simp [ho, eq_comm (a := v)]

/-- The check goes through its parts in order and reports the first violation. -/
lemma violation?_eq_some_iff :
    reg.violation? kind name roles = some v ↔
      reg.kindViolation? kind name = some v ∨
        reg.kindViolation? kind name = none ∧
          (reg.nameViolation? name = some v ∨
            reg.nameViolation? name = none ∧
              ∃ before role behind, roles.toList = before ++ role :: behind ∧
                reg.roleViolation? name role = some v ∧
                  ∀ q ∈ before, reg.roleViolation? name q = none) := by
  unfold violation?
  cases reg.kindViolation? kind name with
  | some u => simp
  | none =>
      cases reg.nameViolation? name with
      | some u => simp
      | none => simp [List.findSome?_eq_some_iff]

lemma claim_eq_error_iff :
    reg.claim kind name roles = .error v ↔ reg.violation? kind name roles = some v := by
  unfold claim
  cases reg.violation? kind name roles <;> simp

/-- A declaration is refused for what the check reports. -/
lemma declare_eq_error_iff :
    reg.declare kind name roles = .error v ↔ reg.violation? kind name roles = some v := by
  cases hv : reg.violation? kind name roles with
  | some u => simp [declare, claim, hv, bind, Except.bind]
  | none =>
      have hok := declare_eq_ok_iff.mpr ⟨violation?_eq_none_iff.mp hv, rfl⟩
      simp [hok]

lemma exists_claim_iff :
    (∃ reg', reg.claim kind name roles = .ok reg') ↔ reg.violation? kind name roles = none := by
  unfold claim
  cases reg.violation? kind name roles <;> simp

/-! ## The check against the records -/

namespace Sound

variable (hs : reg.Sound)
include hs

lemma get?_eq_some_iff {r : Record} : reg.get? name = some r ↔ r ∈ reg.records ∧ r.name = name := by
  constructor
  · intro h
    exact ⟨mem_records_iff.mpr ⟨name, h⟩, hs.name_eq h⟩
  · rintro ⟨hr, rfl⟩
    exact hs.get?_name hr

lemma ownerOf?_eq_some_iff {owner : String} :
    reg.ownerOf? role = some owner ↔ ∃ r ∈ reg.records, r.name = owner ∧ role ∈ r.roles :=
  hs.consistent.ownerOf?_eq_some_iff role owner

lemma kindFree_iff : reg.kindViolation? kind name = none ↔ KindFree reg.records kind name := by
  simp only [kindViolation?_eq_none_iff, hs.get?_eq_some_iff, and_imp, KindFree]

lemma nameFree_iff : reg.nameViolation? name = none ↔ NameFree reg.records name := by
  rw [nameViolation?_eq_none_iff]
  simp only [hs.ownerOf?_eq_some_iff]
  constructor
  · intro h r hr hne hrole
    exact hne (h r.name ⟨r, hr, rfl, hrole⟩)
  · rintro h owner ⟨r, hr, rfl, hrole⟩
    by_contra hne
    exact h r hr hne hrole

/-- No other record is named like a role, in terms of look-up. -/
lemma get?_eq_none_iff : (role ≠ name → reg.get? role = none) ↔
    ∀ r ∈ reg.records, r.name ≠ name → r.name ≠ role := by
  constructor
  · rintro h r hr hne rfl
    have hnone := h hne
    rw [hs.get?_name hr] at hnone
    cases hnone
  · intro h hne
    refine Option.eq_none_iff_forall_ne_some.mpr fun r hr => ?_
    obtain ⟨hmem, rfl⟩ := hs.get?_eq_some_iff.mp hr
    exact h r hmem hne rfl

lemma roleFree_iff : reg.roleViolation? name role = none ↔ RoleFree reg.records name role := by
  rw [roleViolation?_eq_none_iff, hs.get?_eq_none_iff]
  simp only [hs.ownerOf?_eq_some_iff]
  constructor
  · rintro ⟨hnames, howners⟩ r hr hne
    exact ⟨hnames r hr hne, fun hrole => hne (howners r.name ⟨r, hr, rfl, hrole⟩)⟩
  · intro h
    refine ⟨fun r hr hne => (h r hr hne).1, ?_⟩
    rintro owner ⟨r, hr, rfl, hrole⟩
    by_contra hne
    exact (h r hr hne).2 hrole

/-- **The check accepts what collides with no record.** -/
lemma exists_claim_iff :
    (∃ reg', reg.claim kind name roles = .ok reg') ↔
      KindFree reg.records kind name ∧ NameFree reg.records name ∧
        ∀ role ∈ roles, RoleFree reg.records name role := by
  have hparts : reg.violation? kind name roles = none ↔
      reg.kindViolation? kind name = none ∧ reg.nameViolation? name = none ∧
        ∀ role ∈ roles, reg.roleViolation? name role = none := by
    rw [violation?_eq_none_iff, kindViolation?_eq_none_iff, nameViolation?_eq_none_iff]
    simp only [roleViolation?_eq_none_iff]
    constructor
    · intro h
      exact ⟨h.same_kind, h.name_free, fun q hq => ⟨h.role_not_name q hq, h.role_free q hq⟩⟩
    · rintro ⟨hkind, hname, hroles⟩
      exact ⟨hkind, hname, fun q hq => (hroles q hq).1, fun q hq => (hroles q hq).2⟩
  rw [Registry.exists_claim_iff, hparts, hs.kindFree_iff, hs.nameFree_iff]
  simp only [hs.roleFree_iff]

/-- **The check reports the collision that comes first.** -/
lemma claim_eq_error_iff :
    reg.claim kind name roles = .error v ↔ Collides reg.records kind name roles v := by
  rw [Registry.claim_eq_error_iff, violation?_eq_some_iff, kindViolation?_eq_some_iff,
    hs.kindFree_iff, nameViolation?_eq_some_iff, hs.nameFree_iff]
  simp only [roleViolation?_eq_some_iff, hs.roleFree_iff, hs.get?_eq_none_iff,
    hs.get?_eq_some_iff, hs.ownerOf?_eq_some_iff]
  constructor
  · rintro (⟨r, ⟨hr, hname⟩, hkind, rfl⟩ | ⟨hkind, ⟨_, ⟨r, hr, rfl, hrole⟩, hne, rfl⟩ |
      ⟨hname, before, role, behind, hroles, hviolation, hbefore⟩⟩)
    · exact .duplicate hr hname hkind
    · exact .nameIsRole hkind hr hne hrole
    · rcases hviolation with ⟨hne, ⟨r, hr, rfl⟩, rfl⟩ | ⟨hnew, _, ⟨r, hr, rfl, hrole⟩, hne, rfl⟩
      · exact .roleIsName ⟨hkind, hname⟩ hroles hbefore hr hne rfl
      · exact .roleTaken ⟨hkind, hname⟩ hroles hbefore hnew hr hne hrole
  · intro h
    cases h with
    | @duplicate r hr hname hkind => exact .inl ⟨r, ⟨hr, hname⟩, hkind, rfl⟩
    | @nameIsRole r hkind hr hname hrole =>
        exact .inr ⟨hkind, .inl ⟨r.name, ⟨r, hr, rfl, hrole⟩, hname, rfl⟩⟩
    | @roleIsName r role before behind hfree hroles hbefore hr hname hrole =>
        exact .inr ⟨hfree.1, .inr ⟨hfree.2, before, role, behind, hroles,
          .inl ⟨hrole ▸ hname, ⟨r, hr, hrole⟩, rfl⟩, hbefore⟩⟩
    | @roleTaken r role before behind hfree hroles hbefore hnew hr hname hrole =>
        exact .inr ⟨hfree.1, .inr ⟨hfree.2, before, role, behind, hroles,
          .inr ⟨hnew, r.name, ⟨r, hr, rfl, hrole⟩, hname, rfl⟩, hbefore⟩⟩

end Sound

end DialogModel.Registry
