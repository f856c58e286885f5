import Mathlib.Data.String.Basic
import DialogModel.Proofs.Text.Chars

/-!
# Positions in bytes

A text can be cut at a position that counts bytes, if that position is one of its own: not behind
its end, and not inside a character.  `cutAtByte?` is the cut, with no result at any other position.

A position may be found in one text and used in another.  This is safe for a text and its copy in
small letters: the two have their characters at the same positions (`isValid_lower_iff`), since only
ASCII letters change and stay ASCII.
-/

namespace DialogModel.Text

/-! ## Cutting -/

/-- The text before and behind a position in bytes; there is no result if a character of the text
neither starts nor ends there. -/
def cutAtByte? (s : String) (i : Nat) : Option (String × String) :=
  if h : String.Pos.Raw.IsValid s ⟨i⟩ then
    some ((s.sliceTo ⟨⟨i⟩, h⟩).copy, (s.sliceFrom ⟨⟨i⟩, h⟩).copy)
  else none

/-- There is no cut inside a character or behind the end. -/
example : cutAtByte? "né" 2 = none ∧ cutAtByte? "né" 4 = none := by
  decide

/-- A text is cut behind a part of it. -/
lemma cutAtByte?_append (a b : String) : cutAtByte? (a ++ b) a.utf8ByteSize = some (a, b) := by
  have hvalid : String.Pos.Raw.IsValid (a ++ b) ⟨a.utf8ByteSize⟩ :=
    String.Pos.Raw.isValid_iff_exists_append.mpr ⟨a, b, rfl, rfl⟩
  have hsplits : String.Pos.Splits (⟨⟨a.utf8ByteSize⟩, hvalid⟩ : (a ++ b).Pos) a b := ⟨rfl, rfl⟩
  rw [cutAtByte?, dif_pos hvalid, hsplits.copy_sliceTo_eq, hsplits.copy_sliceFrom_eq]

/-- The same for the characters of a text. -/
lemma cutAtByte?_of_toList {s : String} {before rest : List Char}
    (h : s.toList = before ++ rest) :
    cutAtByte? s (String.utf8Len before) = some (String.ofList before, String.ofList rest) := by
  have hs : s = String.ofList before ++ String.ofList rest := by
    rw [← String.ofList_append, ← h, String.ofList_toList]
  rw [hs, ← String.utf8ByteSize_ofList]
  exact cutAtByte?_append _ _

/-! ## Small letters -/

lemma utf8Size_toLower (c : Char) : c.toLower.utf8Size = c.utf8Size := by
  unfold Char.toLower
  split_ifs with h
  · have hupper : c.toNat ≤ 90 := h.2
    have hlower : (c.val + ('a'.val - 'A'.val)).toNat ≤ 127 := by
      rw [UInt32.toNat_add]
      show (c.toNat + 32) % 2 ^ 32 ≤ 127
      omega
    rw [Char.utf8Size_eq_one_iff.mpr, Char.utf8Size_eq_one_iff.mpr]
    · show c.toNat ≤ 127
      omega
    · exact hlower
  · rfl

lemma utf8Len_lower (cs : List Char) : String.utf8Len (Chars.lower cs) = String.utf8Len cs := by
  induction cs with
  | nil => rfl
  | cons c cs ih =>
      show String.utf8Len (c.toLower :: Chars.lower cs) = _
      rw [String.utf8Len_cons, String.utf8Len_cons, ih, utf8Size_toLower]

/-- **A text and its copy in small letters can be cut at the same positions.** -/
lemma isValid_lower_iff {s : String} {p : String.Pos.Raw} :
    String.Pos.Raw.IsValid (lower s) p ↔ String.Pos.Raw.IsValid s p := by
  rw [String.Pos.Raw.isValid_iff_exists_take_toList, String.Pos.Raw.isValid_iff_exists_take_toList]
  refine exists_congr fun i => ?_
  have htake : (Chars.lower s.toList).take i = Chars.lower (s.toList.take i) := List.map_take.symm
  rw [toList_lower, htake, String.utf8ByteSize_ofList, String.utf8ByteSize_ofList, utf8Len_lower]

/-! ## Occurrences of a word -/

/-- The positions in bytes at which a word occurs in a text that starts at a position. -/
def occurrences (word : List Char) (start : Nat) : List Char → List Nat
  | [] => []
  | c :: cs =>
    let behind := occurrences word (start + c.utf8Size) cs
    if word <+: c :: cs then start :: behind else behind

lemma occurrences_of_not_mem {c : Char} {cs : List Char} (h : c ∉ cs) (start : Nat) :
    occurrences [c] start cs = [] := by
  induction cs generalizing start with
  | nil => rfl
  | cons d cs ih =>
      obtain ⟨hd, hcs⟩ := not_or.mp (List.mem_cons.not.mp h)
      have hword : ¬ [c] <+: d :: cs := fun h => hd (List.cons_prefix_cons.mp h).1
      rw [occurrences, if_neg hword, ih hcs]

/-- The last occurrence of a character is the one with none behind it. -/
lemma getLast?_occurrences {c : Char} {rest : List Char} (hrest : c ∉ rest) (start : Nat)
    (before : List Char) :
    (occurrences [c] start (before ++ c :: rest)).getLast? =
      some (start + String.utf8Len before) := by
  induction before generalizing start with
  | nil =>
      have hword : [c] <+: c :: rest := ⟨rest, rfl⟩
      rw [List.nil_append, occurrences, if_pos hword, occurrences_of_not_mem hrest]
      rfl
  | cons b before ih =>
      have hlast := ih (start + b.utf8Size)
      have hsum : start + b.utf8Size + String.utf8Len before =
          start + String.utf8Len (b :: before) := by
        rw [String.utf8Len_cons]
        omega
      rw [List.cons_append, occurrences, ← hsum]
      split_ifs
      · rw [List.getLast?_cons, hlast, Option.getD_some]
      · exact hlast

end DialogModel.Text
