import DialogModel.Proofs.Registry.Declare

/-!
# Names and roles do not collide

The registry keeps two maps apart: the entities by name, and for each role the entity that owns it.
`Consistent` is what a reader of the registry may rely on, in terms of the records: names and roles
of different entities are disjoint, and the owners of roles are exactly those that the records show.

`Sound` is the same in terms of look-ups, which is the form that a change preserves.  The delicate
change is a promotion: a record is removed, its roles stay owned by a name that has no record, and
the record is declared again under another kind.  Between the two the registry is not sound, so
`Sound.replace` takes both together: it asks that the new record has every role of the old one, and
that is what makes the owners exact again.
-/

namespace DialogModel.Registry

open Entity

variable {reg reg' : Registry} {kind : Kind} {name : String} {roles : RoleSet}

/-- What a reader of the registry may rely on. -/
structure Consistent (reg : Registry) : Prop where
  /-- Every entity is stored under its own name. -/
  key_eq_name : ∀ key r, (key, r) ∈ reg.entities.toList → key = r.name
  /-- No role of an entity is a role of another. -/
  roles_disjoint : ∀ a ∈ reg.records, ∀ b ∈ reg.records, a.name ≠ b.name →
    ∀ role ∈ a.roles, role ∉ b.roles
  /-- No role of an entity is the name of another. -/
  role_ne_name : ∀ a ∈ reg.records, ∀ b ∈ reg.records, a.name ≠ b.name →
    ∀ role ∈ a.roles, role ≠ b.name
  /-- The owner of a role is the entity whose record has it. -/
  ownerOf?_eq_some_iff : ∀ role e, reg.ownerOf? role = some e ↔
    ∃ r ∈ reg.records, r.name = e ∧ role ∈ r.roles
  /-- No record lists a role twice. -/
  roles_nodup : ∀ r ∈ reg.records, r.roles.toList.Nodup

/-- Consistency in terms of look-ups.  A phrase list among the entities would own the roles that it
is declared with and not list them, so there must be none. -/
structure Sound (reg : Registry) : Prop where
  name_eq : ∀ {key r}, reg.get? key = some r → r.name = key
  kind_ne : ∀ {key r}, reg.get? key = some r → r.kind ≠ .phraseList
  owner_iff : ∀ {role e}, reg.ownerOf? role = some e ↔ ∃ r, reg.get? e = some r ∧ role ∈ r.roles
  role_not_name : ∀ {key r role}, reg.get? key = some r → role ∈ r.roles → role ≠ key →
    reg.get? role = none

lemma mem_records_iff {r : Record} : r ∈ reg.records ↔ ∃ key, reg.get? key = some r :=
  OrderedMap.mem_values_iff

lemma Sound.get?_name (hs : reg.Sound) {r : Record} (hr : r ∈ reg.records) :
    reg.get? r.name = some r := by
  obtain ⟨key, hkey⟩ := mem_records_iff.mp hr
  rwa [hs.name_eq hkey]

lemma Sound.consistent (hs : reg.Sound) : reg.Consistent where
  key_eq_name key r h := (hs.name_eq (OrderedMap.mem_toList_iff.mp h)).symm
  roles_disjoint a ha b hb hne role hra hrb := by
    -- Both entities would own the role.
    have hoa := hs.owner_iff.mpr ⟨a, hs.get?_name ha, hra⟩
    have hob := hs.owner_iff.mpr ⟨b, hs.get?_name hb, hrb⟩
    exact hne (Option.some.inj (hoa.symm.trans hob))
  role_ne_name a ha b hb hne role hra heq := by
    have hnone := hs.role_not_name (hs.get?_name ha) hra (heq ▸ hne.symm)
    rw [heq, hs.get?_name hb] at hnone
    cases hnone
  ownerOf?_eq_some_iff role e := by
    rw [hs.owner_iff]
    constructor
    · rintro ⟨r, hget, hrole⟩
      exact ⟨r, mem_records_iff.mpr ⟨e, hget⟩, hs.name_eq hget, hrole⟩
    · rintro ⟨r, hr, rfl, hrole⟩
      exact ⟨r, hs.get?_name hr, hrole⟩
  roles_nodup r _ := r.roles.nodup

lemma sound_empty : ({} : Registry).Sound where
  name_eq h := by cases h
  kind_ne h := by cases h
  owner_iff := by
    intro role e
    constructor
    · intro h
      cases h
    · rintro ⟨r, h, -⟩
      cases h
  role_not_name h := by cases h

/-! ## One record is replaced -/

/-- What the new record of a name must satisfy: it has the roles of the old one and the declared
ones and no others. -/
structure Replaces (reg : Registry) (name : String) (roles : RoleSet) (new : Record) : Prop where
  name_eq : new.name = name
  kind_ne : new.kind ≠ .phraseList
  mem_roles_iff : ∀ role, role ∈ new.roles ↔
    (∃ r, reg.get? name = some r ∧ role ∈ r.roles) ∨ role ∈ roles

/-- A sound registry stays sound if one record is replaced and the declared roles are free. -/
lemma Sound.replace (hs : reg.Sound) {new : Record} (hnew : reg.Replaces name roles new)
    (hget : ∀ x, reg'.get? x = if name = x then some new else reg.get? x)
    (howner : ∀ role, reg'.ownerOf? role = if role ∈ roles then some name else reg.ownerOf? role)
    (hname : ∀ owner, reg.ownerOf? name = some owner → owner = name)
    (hrole : ∀ role ∈ roles, role ≠ name → reg.get? role = none)
    (hfree : ∀ role ∈ roles, ∀ owner, reg.ownerOf? role = some owner → owner = name) :
    reg'.Sound where
  name_eq {key r} h := by
    rw [hget] at h
    split at h
    · next heq => rw [← Option.some.inj h, hnew.name_eq, heq]
    · exact hs.name_eq h
  kind_ne {key r} h := by
    rw [hget] at h
    split at h
    · rw [← Option.some.inj h]
      exact hnew.kind_ne
    · exact hs.kind_ne h
  owner_iff {role e} := by
    rw [howner, hget]
    by_cases he : name = e
    · subst he
      simp only [if_true, Option.some.injEq, exists_eq_left', hnew.mem_roles_iff, ← hs.owner_iff]
      by_cases hr : role ∈ roles
      · simp [hr]
      · simp [hr]
    · rw [if_neg he]
      by_cases hr : role ∈ roles
      · rw [if_pos hr]
        refine ⟨fun h => absurd (Option.some.inj h) he, fun h => ?_⟩
        exact absurd (hfree role hr e (hs.owner_iff.mpr h)).symm he
      · rw [if_neg hr]
        exact hs.owner_iff
  role_not_name {key r role} h hmem hne := by
    rw [hget] at h
    have hrn : name ≠ role := by
      rintro rfl
      rw [if_neg hne] at h
      exact hne (hname key (hs.owner_iff.mpr ⟨r, h, hmem⟩)).symm
    rw [hget, if_neg hrn]
    by_cases hkey : name = key
    · rw [if_pos hkey] at h
      rw [← Option.some.inj h, hnew.mem_roles_iff] at hmem
      rcases hmem with ⟨old, hold, hmem⟩ | hmem
      · exact hs.role_not_name hold hmem hrn.symm
      · exact hrole role hmem hrn.symm
    · rw [if_neg hkey] at h
      exact hs.role_not_name h hmem hne

/-- A declaration keeps the registry sound. -/
lemma Sound.declared (hs : reg.Sound) (hkind : kind ≠ .phraseList)
    (h : reg.Admits kind name roles) : (reg.declared kind name roles).Sound := by
  have hnew : reg.Replaces name roles ((reg.getOrNew kind name).addRoles roles) := by
    unfold getOrNew
    cases hget : reg.get? name with
    | none =>
        refine ⟨by simp, by simpa using hkind, fun role => ?_⟩
        simp [Record.mem_roles_addRoles (r := .ofKind kind name) (by simpa using hkind), hget]
    | some r =>
        refine ⟨by simpa using hs.name_eq hget, by simpa using hs.kind_ne hget, fun role => ?_⟩
        simp [Record.mem_roles_addRoles (hs.kind_ne hget), hget]
  exact hs.replace hnew get?_declared ownerOf?_declared h.name_free h.role_not_name h.role_free

/-- A promotion keeps the registry sound: the record of a name is removed and declared again under
another kind, with the roles that it had and new ones. -/
lemma Sound.promoted (hs : reg.Sound) (hkind : kind ≠ .phraseList) {r : Record}
    (hget : reg.get? name = some r) (h : (reg.erase name).Admits kind name (r.roles.union roles)) :
    ((reg.erase name).declared kind name (r.roles.union roles)).Sound := by
  have hnone : (reg.erase name).getOrNew kind name = .ofKind kind name := by
    simp [getOrNew]
  have hnew : reg.Replaces name (r.roles.union roles)
      ((Record.ofKind kind name).addRoles (r.roles.union roles)) := by
    refine ⟨by simp, by simpa using hkind, fun role => ?_⟩
    simp only [Record.mem_roles_addRoles (r := .ofKind kind name) (by simpa using hkind),
      Record.not_mem_roles_ofKind, false_or, RoleSet.mem_union, hget, Option.some.injEq,
      exists_eq_left']
    tauto
  refine hs.replace hnew (fun x => ?_) ownerOf?_declared h.name_free (fun role hrole hne => ?_)
    h.role_free
  · rw [get?_declared, hnone, get?_erase]
    split <;> rfl
  · simpa [Ne.symm hne] using h.role_not_name role hrole hne

/-! ## Changes that leave names and roles alone -/

lemma Sound.updateDetail (hs : reg.Sound) {f : Detail → Detail} (hf : ∀ d, (f d).kind = d.kind)
    (name : String) : (reg.updateDetail name f).Sound := by
  -- A record is found under the same keys as before, with the same name, kind and roles.
  have hfind : ∀ {key r}, (reg.updateDetail name f).get? key = some r →
      ∃ old, reg.get? key = some old ∧ r.name = old.name ∧ r.kind = old.kind ∧
        r.roles = old.roles := by
    intro key r h
    rw [get?_updateDetail] at h
    split at h
    · obtain ⟨old, hold, rfl⟩ := Option.map_eq_some_iff.mp h
      exact ⟨old, hold, rfl, hf old.detail, rfl⟩
    · exact ⟨r, h, rfl, rfl, rfl⟩
  have hkeep : ∀ {key old}, reg.get? key = some old →
      ∃ r, (reg.updateDetail name f).get? key = some r ∧ r.roles = old.roles := by
    intro key old h
    rw [get?_updateDetail, h]
    split
    · exact ⟨_, rfl, rfl⟩
    · exact ⟨old, rfl, rfl⟩
  refine ⟨fun h => ?_, fun h => ?_, fun {role e} => ?_, fun {key r role} h hmem hne => ?_⟩
  · obtain ⟨old, hold, hname, -, -⟩ := hfind h
    rw [hname, hs.name_eq hold]
  · obtain ⟨old, hold, -, hkind, -⟩ := hfind h
    rw [hkind]
    exact hs.kind_ne hold
  · rw [ownerOf?_updateDetail, hs.owner_iff]
    constructor
    · rintro ⟨old, hold, hmem⟩
      obtain ⟨r, hr, hroles⟩ := hkeep hold
      exact ⟨r, hr, hroles ▸ hmem⟩
    · rintro ⟨r, hr, hmem⟩
      obtain ⟨old, hold, -, -, hroles⟩ := hfind hr
      exact ⟨old, hold, hroles ▸ hmem⟩
  · obtain ⟨old, hold, -, -, hroles⟩ := hfind h
    have hnone := hs.role_not_name hold (hroles ▸ hmem) hne
    rw [get?_updateDetail, hnone]
    simp

lemma Sound.updatePhrases (hs : reg.Sound) (name : String) (interchangeable : Bool)
    (f : List String → List String) : (reg.updatePhrases name interchangeable f).Sound :=
  ⟨hs.name_eq, hs.kind_ne, hs.owner_iff, hs.role_not_name⟩

end DialogModel.Registry
