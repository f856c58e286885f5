import Mathlib.Data.List.Induction
import Mathlib.Data.List.Nodup
import Mathlib.Data.List.Perm.Basic
import Mathlib.Tactic.Common
import DialogModel.FirstSeen

/-!
# What first-seen lists hold

Adding items to a list leaves what is there in its place and puts what is new behind it.  The first
sections say what becomes of items that are there, of items that are new, and of items that are
added in groups.

`Follows xs given` is what a first-seen list is for: it has the members of what was given, in the
order of their first appearance.  This is said by the positions in `given` and not by how the list
was made; `follows_ofList` ties the two together, one item at a time (`Follows.add`).
-/

namespace DialogModel.FirstSeen

variable {α : Type} [DecidableEq α]

/-! ## Items that are there -/

lemma add_eq_self {xs : List α} {x : α} (h : x ∈ xs) : add xs x = xs :=
  if_pos h

lemma addAll_eq_self {xs ys : List α} (h : ∀ y ∈ ys, y ∈ xs) : addAll xs ys = xs := by
  induction ys with
  | nil => rfl
  | cons y ys ih =>
      obtain ⟨hy, hys⟩ := List.forall_mem_cons.mp h
      rw [addAll_cons, add_eq_self hy, ih hys]

/-- Items are added once. -/
lemma addAll_addAll (xs ys : List α) : addAll (addAll xs ys) ys = addAll xs ys :=
  addAll_eq_self fun _ hy => mem_addAll.mpr (.inr hy)

lemma prefix_add (xs : List α) (x : α) : xs <+: add xs x := by
  unfold add
  split
  · exact List.prefix_refl xs
  · exact List.prefix_append xs [x]

lemma prefix_addAll (xs ys : List α) : xs <+: addAll xs ys := by
  induction ys generalizing xs with
  | nil => exact List.prefix_refl xs
  | cons y ys ih => exact (prefix_add xs y).trans (ih (add xs y))

/-! ## Items that are new -/

/-- An item is looked for behind an item that differs from it. -/
lemma add_cons_of_ne {x y : α} (h : y ≠ x) (xs : List α) : add (y :: xs) x = y :: add xs x := by
  unfold add
  by_cases hmem : x ∈ xs
  · rw [if_pos hmem, if_pos (List.mem_cons_of_mem y hmem)]
  · have hnot : x ∉ y :: xs := by
      rintro (_ | ⟨_, hx⟩)
      · exact h rfl
      · exact hmem hx
    rw [if_neg hmem, if_neg hnot, List.cons_append]

/-- New items without repetition are appended as they are. -/
lemma addAll_eq_append {xs ys : List α} (hnodup : ys.Nodup) (hnew : ∀ y ∈ ys, y ∉ xs) :
    addAll xs ys = xs ++ ys := by
  induction ys generalizing xs with
  | nil => simp [addAll]
  | cons y ys ih =>
      rw [List.nodup_cons] at hnodup
      rw [List.forall_mem_cons] at hnew
      have hadd : add xs y = xs ++ [y] := if_neg hnew.1
      rw [addAll_cons, hadd, ih hnodup.2, List.append_assoc, List.singleton_append]
      intro z hz hmem
      rcases List.mem_append.mp hmem with hmem | hmem
      · exact hnew.2 z hz hmem
      · exact hnodup.1 (List.mem_singleton.mp hmem ▸ hz)

lemma ofList_eq_self {xs : List α} (h : xs.Nodup) : ofList xs = xs := by
  simpa [ofList] using addAll_eq_append h fun x _ => List.not_mem_nil

/-! ## Items that are added in groups -/

lemma addAll_append (xs ys zs : List α) : addAll xs (ys ++ zs) = addAll (addAll xs ys) zs :=
  List.foldl_append

lemma ofList_concat (xs : List α) (x : α) : ofList (xs ++ [x]) = add (ofList xs) x := by
  simp [ofList, addAll]

/-- An item that is added to a list before the list is added. -/
lemma addAll_add (xs ys : List α) (y : α) : addAll xs (add ys y) = add (addAll xs ys) y := by
  unfold add
  by_cases hy : y ∈ ys
  · rw [if_pos hy, if_pos (mem_addAll.mpr (.inr hy))]
  · rw [if_neg hy, addAll_append]
    rfl

/-- Items that are collected before they are added. -/
lemma addAll_ofList (xs ys : List α) : addAll xs (ofList ys) = addAll xs ys := by
  induction ys using List.reverseRecOn with
  | nil => rfl
  | append_singleton ys y ih =>
      rw [ofList_concat, addAll_add, ih, addAll_append]
      rfl

/-- What is added stands behind what was there, each item once. -/
lemma exists_addAll_eq_append (xs ys : List α) :
    ∃ new, addAll xs ys = xs ++ new ∧ new.Nodup ∧ ∀ y, y ∈ new ↔ y ∉ xs ∧ y ∈ ys := by
  induction ys using List.reverseRecOn with
  | nil => exact ⟨[], by simp [addAll], List.nodup_nil, by simp⟩
  | append_singleton ys y ih =>
      obtain ⟨new, heq, hnodup, hmem⟩ := ih
      have hadd : addAll xs (ys ++ [y]) = add (xs ++ new) y := by
        rw [addAll_append, heq]
        rfl
      by_cases hy : y ∈ xs ++ new
      · refine ⟨new, by rw [hadd, add, if_pos hy], hnodup, fun z => ?_⟩
        have hsame : z ∉ xs → z = y → z ∈ ys := by
          rintro hz rfl
          exact ((hmem z).mp ((List.mem_append.mp hy).resolve_left hz)).2
        rw [hmem, List.mem_append, List.mem_singleton]
        tauto
      · obtain ⟨hxs, hnew⟩ := not_or.mp (List.mem_append.not.mp hy)
        refine ⟨new ++ [y], by rw [hadd, add, if_neg hy, List.append_assoc], ?_, fun z => ?_⟩
        · rw [List.nodup_append]
          refine ⟨hnodup, List.nodup_singleton y, fun a ha b hb hab => hnew ?_⟩
          rwa [← List.mem_singleton.mp hb, ← hab]
        · have hsame : z = y → z ∉ xs := by
            rintro rfl
            exact hxs
          rw [List.mem_append, hmem, List.mem_append, List.mem_singleton]
          tauto

/-! ## The order of first appearances -/

/-- A list has the members of what was given, and they stand in the order in which they first
appeared there. -/
structure Follows (xs given : List α) : Prop where
  mem_iff : ∀ x, x ∈ xs ↔ x ∈ given
  order : xs.Pairwise fun x y => given.idxOf x < given.idxOf y

namespace Follows

variable {xs given : List α}

/-- Nothing appears before itself. -/
lemma nodup (h : Follows xs given) : xs.Nodup := by
  refine h.order.imp ?_
  rintro x y hlt rfl
  exact Nat.lt_irrefl _ hlt

/-- An item that is given is added. -/
lemma add (h : Follows xs given) (x : α) : Follows (add xs x) (given ++ [x]) := by
  -- What was given before keeps the position of its first appearance.
  have hkept : ∀ y ∈ xs, (given ++ [x]).idxOf y = given.idxOf y :=
    fun y hy => List.idxOf_append_of_mem ((h.mem_iff y).mp hy)
  have horder : xs.Pairwise fun y z => (given ++ [x]).idxOf y < (given ++ [x]).idxOf z := by
    refine h.order.imp_of_mem ?_
    intro y z hy hz hlt
    rwa [hkept y hy, hkept z hz]
  refine ⟨fun y => ?_, ?_⟩
  · rw [mem_add, h.mem_iff, List.mem_append, List.mem_singleton]
  · by_cases hx : x ∈ xs
    · rwa [add_eq_self hx]
    · have hadd : FirstSeen.add xs x = xs ++ [x] := if_neg hx
      rw [hadd, List.pairwise_append]
      refine ⟨horder, List.pairwise_singleton _ x, fun y hy z hz => ?_⟩
      rw [List.mem_singleton] at hz
      subst hz
      -- A new item first appears behind all that was given.
      have hnew : given.length ≤ (given ++ [z]).idxOf z := by
        rw [List.idxOf_append_of_notMem (fun hz => hx ((h.mem_iff z).mpr hz))]
        exact Nat.le_add_right _ _
      calc (given ++ [z]).idxOf y
          = given.idxOf y := hkept y hy
        _ < given.length := List.idxOf_lt_length_of_mem ((h.mem_iff y).mp hy)
        _ ≤ (given ++ [z]).idxOf z := hnew

end Follows

lemma follows_ofList (given : List α) : Follows (ofList given) given := by
  induction given using List.reverseRecOn with
  | nil => exact ⟨fun _ => Iff.rfl, .nil⟩
  | append_singleton given x ih =>
      rw [ofList_concat]
      exact ih.add x

/-! ## Lists as sets -/

omit [DecidableEq α] in
/-- Of two lists without repetition that are equally long, one has all members of the other exactly
if they have the same members. -/
lemma length_eq_and_subset_iff {xs ys : List α} (hxs : xs.Nodup) (hys : ys.Nodup) :
    xs.length = ys.length ∧ xs ⊆ ys ↔ ∀ x, x ∈ xs ↔ x ∈ ys := by
  constructor
  · rintro ⟨hlength, hsub⟩ x
    -- As many members without repetition, so nothing is left over.
    have hperm := (List.subperm_of_subset hxs hsub).perm_of_length_le (Nat.le_of_eq hlength.symm)
    exact hperm.mem_iff
  · intro hmem
    have hperm := (List.perm_ext_iff_of_nodup hxs hys).mpr hmem
    exact ⟨hperm.length_eq, hperm.subset⟩

end DialogModel.FirstSeen
