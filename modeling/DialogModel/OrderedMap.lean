/-!
# Maps in insertion order

Settings, intents, entities and phrase lists are looked up by name and written in the order in
which their names first appeared.  `OrderedMap` is that table: inserting under a key that is
present replaces the value and keeps the position, erasing keeps the order of the others, and no
key occurs twice.
-/

namespace DialogModel

/-- A finite map whose entries stand in the order in which their keys were first inserted. -/
structure OrderedMap (α β : Type) where
  toList : List (α × β) := []
  nodup : (toList.map Prod.fst).Nodup := by exact List.nodup_nil

namespace OrderedMap

variable {α β : Type} [DecidableEq α]

/-! ## Entry lists -/

/-- Replaces the value of an entry in place, or appends a new entry. -/
def insertEntry (k : α) (v : β) : List (α × β) → List (α × β)
  | [] => [(k, v)]
  | (k', v') :: es => if k' = k then (k, v) :: es else (k', v') :: insertEntry k v es

theorem mem_keys_insertEntry {k x : α} {v : β} {es : List (α × β)} :
    x ∈ (insertEntry k v es).map Prod.fst ↔ x = k ∨ x ∈ es.map Prod.fst := by
  induction es with
  | nil => simp [insertEntry]
  | cons e es ih =>
    obtain ⟨k', v'⟩ := e
    by_cases h : k' = k
    · subst h; simp [insertEntry]
    · rw [insertEntry, if_neg h, List.map_cons, List.mem_cons, ih, List.map_cons, List.mem_cons,
        or_left_comm]

theorem nodup_insertEntry {k : α} {v : β} {es : List (α × β)} (h : (es.map Prod.fst).Nodup) :
    ((insertEntry k v es).map Prod.fst).Nodup := by
  induction es with
  | nil => simp [insertEntry]
  | cons e es ih =>
    obtain ⟨k', v'⟩ := e
    rw [List.map_cons, List.nodup_cons] at h
    by_cases hk : k' = k
    · subst hk
      rw [insertEntry, if_pos rfl, List.map_cons, List.nodup_cons]
      exact h
    · rw [insertEntry, if_neg hk, List.map_cons, List.nodup_cons, mem_keys_insertEntry]
      exact ⟨fun hx => hx.elim hk h.1, ih h.2⟩

omit [DecidableEq α] in
theorem nodup_filter {p : α × β → Bool} {es : List (α × β)} (h : (es.map Prod.fst).Nodup) :
    ((es.filter p).map Prod.fst).Nodup :=
  h.sublist (List.filter_sublist.map Prod.fst)

/-! ## The operations -/

/-- The map without entries. -/
def empty : OrderedMap α β where

instance : EmptyCollection (OrderedMap α β) := ⟨empty⟩
instance : Inhabited (OrderedMap α β) := ⟨empty⟩

instance [DecidableEq β] : DecidableEq (OrderedMap α β) := fun a b =>
  decidable_of_iff (a.toList = b.toList) <| by
    cases a; cases b; simp

/-- The value stored under a key. -/
def get? (m : OrderedMap α β) (k : α) : Option β :=
  (m.toList.find? fun e => decide (e.1 = k)).map Prod.snd

/-- Whether a key is present. -/
def contains (m : OrderedMap α β) (k : α) : Bool :=
  (m.get? k).isSome

/-- Stores a value under a key; a key that is present keeps its position. -/
def insert (m : OrderedMap α β) (k : α) (v : β) : OrderedMap α β where
  toList := insertEntry k v m.toList
  nodup := nodup_insertEntry m.nodup

/-- Removes a key. -/
def erase (m : OrderedMap α β) (k : α) : OrderedMap α β where
  toList := m.toList.filter fun e => decide (e.1 ≠ k)
  nodup := nodup_filter m.nodup

/-- The keys in order. -/
def keys (m : OrderedMap α β) : List α :=
  m.toList.map Prod.fst

/-- The values in the order of their keys. -/
def values (m : OrderedMap α β) : List β :=
  m.toList.map Prod.snd

/-- The number of keys. -/
def size (m : OrderedMap α β) : Nat :=
  m.toList.length

/-! ## What an operation does to look-up -/

theorem find?_insertEntry {k x : α} {v : β} {es : List (α × β)} :
    ((insertEntry k v es).find? fun e => decide (e.1 = x)).map Prod.snd =
      if k = x then some v else (es.find? fun e => decide (e.1 = x)).map Prod.snd := by
  induction es with
  | nil => by_cases h : k = x <;> simp [insertEntry, h]
  | cons e es ih =>
    obtain ⟨k', v'⟩ := e
    by_cases hk : k' = k
    · subst hk
      by_cases hx : k' = x <;> simp [insertEntry, hx]
    · rw [insertEntry, if_neg hk]
      by_cases hx : k' = x
      · have : ¬ k = x := fun h => hk (hx.trans h.symm)
        simp [hx, this]
      · simp only [List.find?_cons, hx, decide_false]
        exact ih

@[simp]
theorem get?_empty (x : α) : (∅ : OrderedMap α β).get? x = none :=
  rfl

@[simp]
theorem get?_insert (m : OrderedMap α β) (k x : α) (v : β) :
    (m.insert k v).get? x = if k = x then some v else m.get? x :=
  find?_insertEntry

@[simp]
theorem get?_erase (m : OrderedMap α β) (k x : α) :
    (m.erase k).get? x = if k = x then none else m.get? x := by
  unfold get? erase
  rw [List.find?_filter]
  split
  · next h =>
    subst h
    simp
  · next h =>
    congr 2
    funext e
    by_cases he : e.1 = x
    · have : ¬ e.1 = k := fun hk => h (hk.symm.trans he)
      simp [he, Ne.symm h]
    · simp [he]

end OrderedMap

end DialogModel
