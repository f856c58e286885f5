/-!
# Lists in first-seen order

Roles, synonyms, children, alternate spellings and imported links are all collected the same way:
an item is appended unless it is already there, so the list keeps the order in which its members
were first seen and never repeats one.
-/

namespace DialogModel.FirstSeen

variable {α : Type} [DecidableEq α]

/-- Appends an item that is not yet in the list. -/
def add (xs : List α) (x : α) : List α :=
  if x ∈ xs then xs else xs ++ [x]

/-- Adds items one after another. -/
def addAll (xs ys : List α) : List α :=
  ys.foldl add xs

/-- The members of a list in first-seen order, each once. -/
def ofList (ys : List α) : List α :=
  addAll [] ys

@[simp]
theorem mem_add {xs : List α} {x y : α} : y ∈ add xs x ↔ y ∈ xs ∨ y = x := by
  unfold add
  split
  · constructor
    · exact .inl
    · rintro (h | rfl) <;> assumption
  · simp

theorem nodup_add {xs : List α} (h : xs.Nodup) (x : α) : (add xs x).Nodup := by
  unfold add
  split
  · exact h
  · next hx =>
    rw [List.nodup_append]
    refine ⟨h, by simp, ?_⟩
    intro a ha b hb
    rw [List.mem_singleton] at hb
    exact fun hab => hx (hb ▸ hab ▸ ha)

theorem addAll_cons (xs : List α) (y : α) (ys : List α) :
    addAll xs (y :: ys) = addAll (add xs y) ys :=
  rfl

@[simp]
theorem mem_addAll {xs ys : List α} {y : α} : y ∈ addAll xs ys ↔ y ∈ xs ∨ y ∈ ys := by
  induction ys generalizing xs with
  | nil => simp [addAll]
  | cons z zs ih => rw [addAll_cons, ih, mem_add, List.mem_cons, or_assoc]

theorem nodup_addAll {xs : List α} (h : xs.Nodup) (ys : List α) : (addAll xs ys).Nodup := by
  induction ys generalizing xs with
  | nil => exact h
  | cons z zs ih => exact ih (nodup_add h z)

@[simp]
theorem mem_ofList {ys : List α} {y : α} : y ∈ ofList ys ↔ y ∈ ys := by
  simp [ofList]

theorem nodup_ofList (ys : List α) : (ofList ys).Nodup :=
  nodup_addAll List.nodup_nil ys

end DialogModel.FirstSeen
