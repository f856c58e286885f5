import DialogModel.Json
import Mathlib.Data.String.Basic

/-!
# Objects and their fields

An object is determined by what look-up finds under each key: its fields stand in increasing order
of their keys, so that the order in which they were given is lost, and of the fields with one key
the last is kept (`object_eq_iff`).
-/

namespace DialogModel.Json

/-- The value of a field of an object. -/
def field? (j : Json) (key : String) : Option Json :=
  match j with
  | .obj fields => fields.lookup key
  | _ => none

/-! ## Look-up -/

lemma lookup_cons_ite (key x : String) (value : Json) (fields : List (String × Json)) :
    ((key, value) :: fields).lookup x = if x = key then some value else fields.lookup x := by
  rw [List.lookup_cons]
  by_cases hx : x = key
  · simp [hx]
  · simp [hx, beq_eq_false_iff_ne.mpr hx]

lemma lookup_insertField (key x : String) (value : Json) (fields : List (String × Json)) :
    (insertField key value fields).lookup x =
      if x = key then some value else fields.lookup x := by
  induction fields with
  | nil => rw [insertField, lookup_cons_ite]
  | cons f fields ih =>
      obtain ⟨k, v⟩ := f
      by_cases hk : k = key
      · subst hk
        simp only [insertField, if_true, lookup_cons_ite]
        split_ifs <;> rfl
      · rw [insertField, if_neg hk]
        split
        · rw [lookup_cons_ite]
        · rw [lookup_cons_ite, ih, lookup_cons_ite]
          -- The key of the first field is not the one that is put in.
          split_ifs with hx hx'
          · exact absurd (hx.symm.trans hx') hk
          all_goals rfl

lemma lookup_foldl_insertField (key : String) (fields acc : List (String × Json)) :
    (fields.foldl (fun fs f => insertField f.1 f.2 fs) acc).lookup key =
      (fields.reverse.lookup key).or (acc.lookup key) := by
  induction fields generalizing acc with
  | nil => rfl
  | cons f fields ih =>
      rw [List.foldl_cons, ih, lookup_insertField, List.reverse_cons, List.lookup_append,
        Option.or_assoc, lookup_cons_ite]
      split_ifs <;> rfl

/-- Look-up in an object finds the last of the given fields. -/
lemma field?_object (fields : List (String × Json)) (key : String) :
    (object fields).field? key = fields.reverse.lookup key := by
  simp [object, field?, lookup_foldl_insertField]

/-! ## Increasing keys -/

/-- The keys of the fields increase. -/
def Increasing (fields : List (String × Json)) : Prop :=
  fields.Pairwise fun f g => f.1 < g.1

lemma mem_insertField {key : String} {value : Json} {fields : List (String × Json)}
    {f : String × Json} (h : f ∈ insertField key value fields) :
    f = (key, value) ∨ f ∈ fields := by
  induction fields with
  | nil => exact .inl (List.mem_singleton.mp h)
  | cons g fields ih =>
      unfold insertField at h
      split_ifs at h <;> grind

lemma Increasing.insertField {fields : List (String × Json)} (h : Increasing fields) (key : String)
    (value : Json) : Increasing (insertField key value fields) := by
  induction fields with
  | nil => exact List.pairwise_singleton ..
  | cons f fields ih =>
      obtain ⟨k, v⟩ := f
      obtain ⟨hfirst, hrest⟩ := List.pairwise_cons.mp h
      unfold Json.insertField
      split_ifs with hk hlt
      · exact List.pairwise_cons.mpr ⟨hk ▸ hfirst, hrest⟩
      · refine List.pairwise_cons.mpr ⟨fun g hg => ?_, h⟩
        rcases List.mem_cons.mp hg with rfl | hg
        · exact hlt
        · exact hlt.trans (hfirst g hg)
      · refine List.pairwise_cons.mpr ⟨fun g hg => ?_, ih hrest⟩
        rcases mem_insertField hg with rfl | hg
        · exact lt_of_le_of_ne (not_lt.mp hlt) hk
        · exact hfirst g hg

lemma increasing_object (fields : List (String × Json)) :
    Increasing (fields.foldl (fun fs f => Json.insertField f.1 f.2 fs) []) := by
  suffices ∀ acc, Increasing acc →
      Increasing (fields.foldl (fun fs f => Json.insertField f.1 f.2 fs) acc) from
    this [] List.Pairwise.nil
  induction fields with
  | nil => exact fun acc h => h
  | cons f fields ih => exact fun acc h => ih _ (h.insertField f.1 f.2)

lemma Increasing.lookup_eq_none {f : String × Json} {fields : List (String × Json)}
    (h : Increasing (f :: fields)) {key : String} (hkey : key ≤ f.1) :
    fields.lookup key = none := by
  rw [List.lookup_eq_none_iff]
  intro g hg
  have hlt := (List.pairwise_cons.mp h).1 g hg
  simpa using (hkey.trans_lt hlt).ne

/-- Fields with increasing keys are determined by look-up. -/
lemma Increasing.ext {fields fields' : List (String × Json)} (h : Increasing fields)
    (h' : Increasing fields') (heq : ∀ key, fields.lookup key = fields'.lookup key) :
    fields = fields' := by
  induction fields generalizing fields' with
  | nil =>
      cases fields' with
      | nil => rfl
      | cons f' _ =>
          have hsome := heq f'.1
          rw [List.lookup_nil, lookup_cons_ite, if_pos rfl] at hsome
          cases hsome
  | cons f fields ih =>
      cases fields' with
      | nil =>
          have hsome := heq f.1
          rw [List.lookup_nil, lookup_cons_ite, if_pos rfl] at hsome
          cases hsome
      | cons f' fields' =>
          obtain ⟨k, v⟩ := f
          obtain ⟨k', v'⟩ := f'
          -- The lesser of the first keys would be missing from the other list.
          have hk : k = k' := by
            rcases lt_trichotomy k k' with hlt | hk | hlt
            · simpa [lookup_cons_ite, hlt.ne, h'.lookup_eq_none hlt.le] using heq k
            · exact hk
            · simpa [lookup_cons_ite, hlt.ne, h.lookup_eq_none hlt.le] using heq k'
          subst hk
          have hv : v = v' := by simpa using heq k
          subst hv
          rw [ih (List.pairwise_cons.mp h).2 (List.pairwise_cons.mp h').2]
          intro key
          by_cases hkey : key = k
          · subst hkey
            rw [h.lookup_eq_none le_rfl, h'.lookup_eq_none le_rfl]
          · simpa [lookup_cons_ite, hkey] using heq key

/-- **An object is what look-up finds in it.** -/
lemma object_eq_iff {fields fields' : List (String × Json)} :
    object fields = object fields' ↔
      ∀ key, fields.reverse.lookup key = fields'.reverse.lookup key := by
  constructor
  · intro h key
    rw [← field?_object, h, field?_object]
  · intro h
    refine congrArg Json.obj ((increasing_object fields).ext (increasing_object fields') ?_)
    intro key
    rw [lookup_foldl_insertField, lookup_foldl_insertField, h key]

/-! ## Arrays -/

lemma strings_injective : Function.Injective strings := by
  intro xs ys h
  exact List.map_injective_iff.mpr (fun _ _ => Json.str.inj) (Json.arr.inj h)

end DialogModel.Json
