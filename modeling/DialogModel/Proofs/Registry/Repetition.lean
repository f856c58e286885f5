import DialogModel.Proofs.Registry.Consistency
import DialogModel.Proofs.RoleSet

/-!
# Declaring what is there

A declaration that tells a registry nothing new leaves it as it is, up to the order of its entities
and of their roles (`Sound.declare_eq_self`).  Nothing new means that the name has a record of the
kind with all the roles (`Has`), and it takes a sound registry: that no other entity owns a role of
the record, or the name, is what lets the check pass a second time.
-/

namespace DialogModel

open Entity

/-! ## Maps and records that have what is added -/

namespace OrderedMap

variable {α β : Type} [DecidableEq α]

lemma insert_eq_self {m : OrderedMap α β} {k : α} {v : β} (h : m.get? k = some v) :
    m.insert k v = m := by
  have hentries : ∀ es : List (α × β),
      (es.find? fun e => decide (e.1 = k)).map Prod.snd = some v → insertEntry k v es = es := by
    intro es hfind
    induction es with
    | nil => cases hfind
    | cons e es ih =>
        obtain ⟨k', v'⟩ := e
        by_cases hk : k' = k
        · subst hk
          obtain rfl : v' = v := by simpa using hfind
          rw [insertEntry, if_pos rfl]
        · rw [List.find?_cons_of_neg (by simpa using hk)] at hfind
          rw [insertEntry, if_neg hk, ih hfind]
  have hlist : (m.insert k v).toList = m.toList := hentries m.toList h
  cases m
  simpa [insert] using hlist

lemma foldl_insert_eq_self {m : OrderedMap α β} {ks : List α} {v : β}
    (h : ∀ k ∈ ks, m.get? k = some v) : ks.foldl (fun m k => m.insert k v) m = m := by
  induction ks with
  | nil => rfl
  | cons k ks ih =>
      obtain ⟨hk, hks⟩ := List.forall_mem_cons.mp h
      rw [List.foldl_cons, insert_eq_self hk, ih hks]

end OrderedMap

lemma Entity.Record.addRoles_eq_self {r : Record} {roles : RoleSet}
    (h : ∀ role ∈ roles, role ∈ r.roles) : r.addRoles roles = r := by
  unfold addRoles
  split
  · rfl
  · rw [RoleSet.union_eq_self h]

namespace Registry

variable {reg : Registry} {kind : Kind} {name : String} {roles : RoleSet}

/-! ## Registries that have what is declared -/

/-- An entity of a name has the kind and the roles. -/
def Has (reg : Registry) (kind : Kind) (name : String) (roles : RoleSet) : Prop :=
  ∃ r, reg.get? name = some r ∧ r.kind = kind ∧ ∀ role ∈ roles, role ∈ r.roles

/-- A sound registry admits what it has. -/
lemma Sound.admits_of_has (hs : reg.Sound) (h : reg.Has kind name roles) :
    reg.Admits kind name roles := by
  obtain ⟨r, hget, rfl, hroles⟩ := h
  refine ⟨fun r' hget' => ?_, fun owner hown => ?_, fun role hrole hne => ?_,
    fun role hrole owner hown => ?_⟩
  · rw [Option.some.inj (hget.symm.trans hget')]
  · obtain ⟨ro, hgeto, hmem⟩ := hs.owner_iff.mp hown
    by_contra hne
    have hnone := hs.role_not_name hgeto hmem (Ne.symm hne)
    rw [hget] at hnone
    cases hnone
  · exact hs.role_not_name hget (hroles role hrole) hne
  · have hown' := hs.owner_iff.mpr ⟨r, hget, hroles role hrole⟩
    exact Option.some.inj (hown.symm.trans hown')

/-- **Declaring what a registry has changes nothing.** -/
lemma Sound.declare_eq_self (hs : reg.Sound) (h : reg.Has kind name roles) :
    reg.declare kind name roles = .ok reg := by
  refine declare_eq_ok_iff.mpr ⟨hs.admits_of_has h, ?_⟩
  obtain ⟨r, hget, -, hroles⟩ := h
  have hrecord : (reg.getOrNew kind name).addRoles roles = r := by
    rw [getOrNew, hget]
    exact Record.addRoles_eq_self hroles
  have hentities : reg.entities.insert name r = reg.entities := OrderedMap.insert_eq_self hget
  have howners : (reg.own name roles.toList).roleOwners = reg.roleOwners :=
    OrderedMap.foldl_insert_eq_self fun role hrole =>
      hs.owner_iff.mpr ⟨r, hget, hroles role hrole⟩
  rw [Registry.declared, hrecord, hentities]
  cases reg
  simpa [own] using howners.symm

/-! ## What has been declared -/

lemma has_declared (hkind : kind ≠ .phraseList) (h : reg.Admits kind name roles) :
    (reg.declared kind name roles).Has kind name roles := by
  refine ⟨_, by rw [get?_declared, if_pos rfl], by simpa using h.kind_getOrNew,
    fun role hrole => ?_⟩
  rw [Record.mem_roles_addRoles (by rwa [h.kind_getOrNew])]
  exact .inr hrole

lemma Has.mono {roles' : RoleSet} (h : reg.Has kind name roles)
    (hsub : ∀ role ∈ roles', role ∈ roles) : reg.Has kind name roles' := by
  obtain ⟨r, hget, hkind, hroles⟩ := h
  exact ⟨r, hget, hkind, fun role hrole => hroles role (hsub role hrole)⟩

lemma Has.updateDetail {f : Detail → Detail} (hf : ∀ d, (f d).kind = d.kind)
    (h : reg.Has kind name roles) (changed : String) :
    (reg.updateDetail changed f).Has kind name roles := by
  obtain ⟨r, hget, hkind, hroles⟩ := h
  rw [Has, get?_updateDetail, hget]
  split
  · exact ⟨_, rfl, (hf r.detail).trans hkind, hroles⟩
  · exact ⟨r, rfl, hkind, hroles⟩

/-- A detail is completed once. -/
lemma updateDetail_updateDetail {f : Detail → Detail} (hf : ∀ d, f (f d) = f d) (name : String) :
    (reg.updateDetail name f).updateDetail name f = reg.updateDetail name f := by
  cases hget : reg.get? name with
  | none =>
      have hsame : reg.updateDetail name f = reg := by rw [updateDetail, hget]
      rw [hsame, hsame]
  | some r =>
      have hnew : (reg.updateDetail name f).get? name = some { r with detail := f r.detail } := by
        rw [get?_updateDetail, if_pos rfl, hget]
        rfl
      have hentities := OrderedMap.insert_eq_self hnew
      nth_rewrite 1 [updateDetail]
      rw [hnew]
      simp only [hf]
      rw [hentities]

/-- Phrases are added once. -/
lemma updatePhrases_updatePhrases (name : String) (interchangeable : Bool) (items : List String) :
    (reg.updatePhrases name interchangeable (FirstSeen.addAll · items)).updatePhrases name
        interchangeable (FirstSeen.addAll · items) =
      reg.updatePhrases name interchangeable (FirstSeen.addAll · items) := by
  set once := reg.updatePhrases name interchangeable (FirstSeen.addAll · items) with honce
  set phrases := reg.phrasesOrNew name interchangeable
  set new : Phrases := { phrases with values := FirstSeen.addAll phrases.values items }
  have hget : once.phraseLists.get? name = some new := by
    rw [honce, updatePhrases, OrderedMap.get?_insert, if_pos rfl]
  have hfound : once.phrasesOrNew name interchangeable = new := by
    rw [phrasesOrNew, phraseList?, hget, Option.getD_some]
  rw [updatePhrases, hfound]
  simp only [new, FirstSeen.addAll_addAll]
  rw [OrderedMap.insert_eq_self hget]

end Registry

end DialogModel
