import Mathlib.Data.List.DropRight
import Mathlib.Tactic.Common
import DialogModel.Text.Basic

/-!
# Trimming and cutting

What the readers of the library rely on when they trim a text or cut it at a separator.  A text is
its own trimming exactly if it neither starts nor ends with a blank (`trim_eq_self_iff`), and a cut
at a separator is the only way to write the text as a part without the separator, the separator and
a rest (`breakAt?_eq_some_iff`).
-/

namespace DialogModel.Chars

/-! ## Trimming -/

lemma trim_eq (cs : List Char) : trim cs = (cs.dropWhile isBlank).rdropWhile isBlank :=
  rfl

/-- A text starts with no blank. -/
def StartsSolid (cs : List Char) : Prop :=
  ∀ c ∈ cs.head?, isBlank c = false

/-- A text ends with no blank. -/
def EndsSolid (cs : List Char) : Prop :=
  ∀ c ∈ cs.getLast?, isBlank c = false

lemma dropWhile_eq_self_iff {cs : List Char} : cs.dropWhile isBlank = cs ↔ StartsSolid cs := by
  cases cs with
  | nil => simp [StartsSolid]
  | cons c cs => simp [StartsSolid, List.dropWhile_eq_self_iff]

lemma rdropWhile_eq_self_iff {cs : List Char} : cs.rdropWhile isBlank = cs ↔ EndsSolid cs := by
  rw [List.rdropWhile_eq_self_iff]
  constructor
  · intro h c hc
    obtain ⟨hne, rfl⟩ := List.mem_getLast?_eq_getLast hc
    simpa using h hne
  · intro h hne
    simpa using h _ (List.getLast?_eq_some_getLast hne)

lemma startsSolid_dropWhile (cs : List Char) : StartsSolid (cs.dropWhile isBlank) := by
  intro c hc
  have hnot := List.head?_dropWhile_not isBlank cs
  rwa [Option.mem_def.mp hc] at hnot

/-- What starts with no blank still does when its end is cut off. -/
lemma StartsSolid.of_isPrefix {cs ds : List Char} (h : StartsSolid ds) (hpre : cs <+: ds) :
    StartsSolid cs := by
  obtain ⟨rest, rfl⟩ := hpre
  intro c hc
  exact h c (by rw [List.head?_append, Option.mem_def.mp hc]; rfl)

lemma startsSolid_trim (cs : List Char) : StartsSolid (trim cs) :=
  (startsSolid_dropWhile cs).of_isPrefix (List.rdropWhile_prefix _ _)

lemma endsSolid_trim (cs : List Char) : EndsSolid (trim cs) :=
  rdropWhile_eq_self_iff.mp (List.rdropWhile_idempotent _ _)

lemma trim_eq_self_iff {cs : List Char} : trim cs = cs ↔ StartsSolid cs ∧ EndsSolid cs := by
  constructor
  · intro h
    rw [← h]
    exact ⟨startsSolid_trim cs, endsSolid_trim cs⟩
  · rintro ⟨hstart, hend⟩
    rw [trim_eq, dropWhile_eq_self_iff.mpr hstart, rdropWhile_eq_self_iff.mpr hend]

@[simp]
lemma trim_trim (cs : List Char) : trim (trim cs) = trim cs :=
  trim_eq_self_iff.mpr ⟨startsSolid_trim cs, endsSolid_trim cs⟩

/-- Only the first part of a text loses blanks in front, if the second starts with none. -/
lemma dropWhile_append_of_startsSolid (cs : List Char) {ds : List Char} (h : StartsSolid ds) :
    (cs ++ ds).dropWhile isBlank = cs.dropWhile isBlank ++ ds := by
  rw [List.dropWhile_append]
  split_ifs with hempty
  · rw [List.isEmpty_iff.mp hempty, dropWhile_eq_self_iff.mpr h, List.nil_append]
  · rfl

/-- Only the second part of a text loses blanks at the end, if the first ends with none. -/
lemma rdropWhile_append_of_endsSolid {cs : List Char} (ds : List Char) (h : EndsSolid cs) :
    (cs ++ ds).rdropWhile isBlank = cs ++ ds.rdropWhile isBlank := by
  have hstart : StartsSolid cs.reverse := by rwa [StartsSolid, List.head?_reverse]
  have hreverse := dropWhile_append_of_startsSolid ds.reverse hstart
  rw [List.rdropWhile, List.reverse_append, hreverse, List.reverse_append, List.reverse_reverse,
    List.rdropWhile]

/-- A blank at the end is trimmed. -/
lemma trim_concat_of_isBlank {c : Char} (cs : List Char) (h : isBlank c) :
    trim (cs ++ [c]) = trim cs := by
  rw [trim_eq, trim_eq, List.dropWhile_append]
  split_ifs with hempty
  · rw [List.isEmpty_iff.mp hempty, List.dropWhile_cons_of_pos h, List.dropWhile_nil]
  · rw [List.rdropWhile_concat_pos _ _ _ h]

/-- A character at the end that is not blank keeps the blanks before it. -/
lemma trim_concat_of_not_isBlank {c : Char} (cs : List Char) (h : isBlank c = false) :
    trim (cs ++ [c]) = cs.dropWhile isBlank ++ [c] := by
  have hstart : StartsSolid [c] := by simpa [StartsSolid] using h
  have hlast : ¬ isBlank c = true := by simpa using h
  rw [trim_eq, dropWhile_append_of_startsSolid cs hstart, List.rdropWhile_concat_neg _ _ _ hlast]

/-- A text between two characters that are not blank is trimmed. -/
lemma trim_delimited {a b : Char} (ha : isBlank a = false) (hb : isBlank b = false)
    (cs : List Char) : trim (a :: (cs ++ [b])) = a :: (cs ++ [b]) := by
  rw [← List.cons_append, trim_concat_of_not_isBlank _ hb,
    List.dropWhile_cons_of_neg (by simp [ha])]

lemma trim_dropWhile (cs : List Char) : trim (cs.dropWhile isBlank) = trim cs := by
  rw [trim_eq, dropWhile_eq_self_iff.mpr (startsSolid_dropWhile cs), trim_eq]

/-- Nothing is left of a text of blanks. -/
lemma trim_eq_nil_iff {cs : List Char} : trim cs = [] ↔ ∀ c ∈ cs, isBlank c := by
  constructor
  · intro h
    have hfront : cs.dropWhile isBlank = [] := by
      rw [trim_eq, List.rdropWhile_eq_nil_iff] at h
      by_contra hne
      have hhead := startsSolid_dropWhile cs _ (List.head?_eq_some_head hne)
      rw [h _ (List.head_mem hne)] at hhead
      cases hhead
    exact List.dropWhile_eq_nil_iff.mp hfront
  · intro h
    rw [trim_eq, List.dropWhile_eq_nil_iff.mpr h, List.rdropWhile_nil]

/-- A text without the characters of a class at its ends is trimmed if blanks are in the class. -/
lemma trim_stripWhere {p : Char → Bool} (hp : ∀ c, isBlank c → p c) (cs : List Char) :
    trim (stripWhere p cs) = stripWhere p cs := by
  have hsolid {c : Char} (h : p c = false) : isBlank c = false := by
    cases hblank : isBlank c with
    | false => rfl
    | true => simp [hp c hblank] at h
  have hprefix : stripWhere p cs <+: cs.dropWhile p := List.rdropWhile_prefix _ _
  rw [trim_eq_self_iff]
  constructor
  · intro c hc
    obtain ⟨rest, hrest⟩ := hprefix
    have hhead := List.head?_dropWhile_not p cs
    rw [← hrest, List.head?_append, Option.mem_def.mp hc] at hhead
    exact hsolid (by simpa using hhead)
  · intro c hc
    have hlast := List.rdropWhile_last_not p (cs.dropWhile p)
    obtain ⟨hne, rfl⟩ := List.mem_getLast?_eq_getLast hc
    exact hsolid (by simpa [stripWhere, dropWhileEnd, List.rdropWhile] using hlast hne)

/-- Blanks at the ends make no difference to a text without the characters of a class at its ends if
blanks are in the class. -/
lemma stripWhere_trim {p : Char → Bool} (hp : ∀ c, isBlank c → p c) (cs : List Char) :
    stripWhere p (trim cs) = stripWhere p cs := by
  set front := cs.takeWhile isBlank
  set back := (cs.dropWhile isBlank).rtakeWhile isBlank
  have hcs : cs = front ++ (trim cs ++ back) := by
    rw [trim_eq, List.rdropWhile_append_rtakeWhile, List.takeWhile_append_dropWhile]
  have hfront : ∀ c ∈ front, p c := fun c hc => hp c (List.mem_takeWhile_imp hc)
  have hback : ∀ c ∈ back, p c := fun c hc => hp c (List.mem_rtakeWhile_imp hc)
  have hend (ds : List Char) : (ds ++ back).rdropWhile p = ds.rdropWhile p := by
    rw [List.rdropWhile, List.reverse_append, List.dropWhile_append_of_pos (by simpa using hback)]
    rfl
  have hstrip (ds : List Char) : stripWhere p ds = (ds.dropWhile p).rdropWhile p := rfl
  conv_rhs => rw [hcs, hstrip, List.dropWhile_append_of_pos hfront, List.dropWhile_append]
  rw [hstrip]
  split_ifs with hempty
  · rw [List.isEmpty_iff.mp hempty, List.dropWhile_eq_nil_iff.mpr hback]
  · rw [hend]

/-- Trimming drops characters and adds none. -/
lemma mem_of_mem_trim {c : Char} {cs : List Char} (h : c ∈ trim cs) : c ∈ cs :=
  (List.dropWhile_sublist _).subset ((List.rdropWhile_prefix _ _).subset h)

/-! ## Cutting -/

lemma after?_eq_some_iff {front cs rest : List Char} :
    after? front cs = some rest ↔ cs = front ++ rest := by
  induction front generalizing cs with
  | nil => simp [after?]
  | cons f front ih =>
      cases cs with
      | nil => simp [after?]
      | cons c cs =>
          by_cases hc : f = c
          · simp [after?, hc, ih]
          · simp [after?, hc, Ne.symm hc]

lemma isSome_after?_iff {front cs : List Char} : (after? front cs).isSome ↔ front <+: cs := by
  rw [Option.isSome_iff_exists]
  constructor
  · rintro ⟨rest, h⟩
    exact ⟨rest, (after?_eq_some_iff.mp h).symm⟩
  · rintro ⟨rest, h⟩
    exact ⟨rest, after?_eq_some_iff.mpr h.symm⟩

lemma before?_concat (c : Char) (cs : List Char) : before? c (cs ++ [c]) = some cs := by
  simp [before?]

lemma before?_eq_some_iff {c : Char} {cs ds : List Char} :
    before? c cs = some ds ↔ cs = ds ++ [c] := by
  constructor
  · intro h
    unfold before? at h
    split at h
    · cases h
    · next d rest hreverse =>
      split_ifs at h with hd
      subst hd
      rw [← List.reverse_reverse cs, hreverse, List.reverse_cons, Option.some.inj h]
  · rintro rfl
    exact before?_concat c ds

/-- The parts between separators have none. -/
lemma not_mem_of_mem_splitOn {sep : Char} {cs part : List Char} (h : part ∈ cs.splitOn sep) :
    sep ∉ part := by
  induction cs generalizing part with
  | nil =>
      rw [List.splitOn_nil, List.mem_singleton] at h
      simp [h]
  | cons c cs ih =>
      rw [List.splitOn_cons_eq_if_modifyHead] at h
      split_ifs at h with hc
      · rcases List.mem_cons.mp h with rfl | h
        · exact List.not_mem_nil
        · exact ih h
      · obtain ⟨first, rest, hparts⟩ := List.exists_cons_of_ne_nil (List.splitOn_ne_nil sep cs)
        rw [hparts] at h ih
        rcases List.mem_cons.mp h with rfl | h
        · have hne : sep ≠ c := by
            rintro rfl
            simp at hc
          simpa [hne] using ih List.mem_cons_self
        · exact ih (List.mem_cons_of_mem first h)

/-- The parts between separators, joined, are the text, and they have no separator. -/
lemma splitOn_eq_iff {sep : Char} {cs : List Char} {parts : List (List Char)} :
    cs.splitOn sep = parts ↔
      parts ≠ [] ∧ (∀ part ∈ parts, sep ∉ part) ∧ cs = List.intercalate [sep] parts := by
  constructor
  · rintro rfl
    exact ⟨List.splitOn_ne_nil sep cs, fun part => not_mem_of_mem_splitOn,
      (List.intercalate_splitOn sep).symm⟩
  · rintro ⟨hne, hfree, rfl⟩
    exact List.splitOn_intercalate sep hfree hne

/-- An item of a list between commas is trimmed, is not empty and has no comma. -/
lemma of_mem_items {cs item : List Char} (h : item ∈ items cs) :
    trim item = item ∧ item ≠ [] ∧ ',' ∉ item := by
  obtain ⟨hmem, hne⟩ := List.mem_filter.mp h
  obtain ⟨part, hpart, rfl⟩ := List.mem_map.mp hmem
  refine ⟨trim_trim part, by simpa using hne, fun hcomma => ?_⟩
  exact not_mem_of_mem_splitOn hpart (mem_of_mem_trim hcomma)

/-- A joined list holds the separator and the characters of its items only. -/
lemma not_mem_intercalate {x : Char} {sep : List Char} {ls : List (List Char)} (hsep : x ∉ sep)
    (h : ∀ l ∈ ls, x ∉ l) : x ∉ List.intercalate sep ls := by
  induction ls with
  | nil => simp
  | cons l ls ih =>
      obtain ⟨hl, hls⟩ := List.forall_mem_cons.mp h
      cases ls with
      | nil => simpa using hl
      | cons l' ls => simpa [List.intercalate_cons_cons, hl, hsep] using ih hls

lemma breakAt?_eq_none_iff {sep : Char} {cs : List Char} : breakAt? sep cs = none ↔ sep ∉ cs := by
  induction cs with
  | nil => simp [breakAt?]
  | cons c cs ih =>
      by_cases hc : c = sep
      · simp [breakAt?, hc]
      · simp [breakAt?, hc, ih, Ne.symm hc]

lemma breakAt?_eq_some_iff {sep : Char} {cs before rest : List Char} :
    breakAt? sep cs = some (before, rest) ↔ cs = before ++ sep :: rest ∧ sep ∉ before := by
  induction cs generalizing before with
  | nil => simp [breakAt?]
  | cons c cs ih =>
      by_cases hc : c = sep
      · subst hc
        cases before with
        | nil => simp [breakAt?]
        | cons b before =>
            simp only [breakAt?, if_true, Option.some.injEq, Prod.mk.injEq, List.cons_append,
              List.cons.injEq, List.mem_cons, not_or]
            tauto
      · cases before with
        | nil => simp [breakAt?, hc]
        | cons b before =>
            simp only [breakAt?, if_neg hc, Option.map_eq_some_iff, Prod.exists, Prod.mk.injEq,
              List.cons.injEq, List.cons_append, List.mem_cons, not_or]
            constructor
            · rintro ⟨before', rest', hcut, ⟨rfl, rfl⟩, rfl⟩
              obtain ⟨rfl, hfree⟩ := ih.mp hcut
              exact ⟨⟨rfl, rfl⟩, Ne.symm hc, hfree⟩
            · rintro ⟨⟨rfl, rfl⟩, -, hfree⟩
              exact ⟨before, rest, ih.mpr ⟨rfl, hfree⟩, ⟨rfl, rfl⟩, rfl⟩

lemma hasInfix_iff {word cs : List Char} : hasInfix word cs = true ↔ word <:+: cs := by
  unfold hasInfix
  induction cs with
  | nil =>
      rw [breakAtText?, Option.isSome_map, isSome_after?_iff, List.prefix_nil, List.infix_nil]
  | cons c cs ih =>
      rw [List.infix_cons_iff, ← isSome_after?_iff, ← ih, breakAtText?]
      cases after? word (c :: cs) with
      | some rest => simp
      | none => simp

/-! ## Words -/

/-- **Words come apart at a blank.** -/
lemma words_append_blank {c : Char} (hc : isBlank c) (xs ys : List Char) :
    words (xs ++ c :: ys) = words xs ++ words ys := by
  unfold words
  rw [List.splitOnP_append_cons xs ys hc, List.filter_append]

/-- A text without blanks is one word. -/
lemma words_eq_singleton {cs : List Char} (hne : cs ≠ []) (h : ∀ c ∈ cs, isBlank c = false) :
    words cs = [cs] := by
  rw [words, List.splitOnP_eq_singleton fun c hc => by simp [h c hc]]
  simp [hne]

lemma words_concat_blank {c : Char} (hc : isBlank c) (cs : List Char) :
    words (cs ++ [c]) = words cs := by
  rw [words_append_blank hc]
  exact List.append_nil _

/-! ## Case -/

lemma isBlank_eq_false_of_letter {c : Char} (hlo : 65 ≤ c.toNat) (hhi : c.toNat ≤ 122) :
    isBlank c = false := by
  simp only [isBlank, blankRanges, List.any_cons, List.any_nil, Bool.or_false,
    Bool.or_eq_false_iff, Bool.and_eq_false_iff, decide_eq_false_iff_not]
  omega

/-- Case makes no difference to what is blank. -/
lemma isBlank_toLower (c : Char) : isBlank c.toLower = isBlank c := by
  unfold Char.toLower
  split_ifs with h
  · have hlo : 65 ≤ c.toNat := h.1
    have hhi : c.toNat ≤ 90 := h.2
    have hval : (c.val + ('a'.val - 'A'.val)).toNat = c.toNat + 32 := by
      have hshift : ('a'.val - 'A'.val).toNat = 32 := rfl
      rw [UInt32.toNat_add, hshift]
      show (c.toNat + 32) % 2 ^ 32 = c.toNat + 32
      omega
    rw [isBlank_eq_false_of_letter hlo (by omega)]
    refine isBlank_eq_false_of_letter ?_ ?_
    · show 65 ≤ (c.val + ('a'.val - 'A'.val)).toNat
      omega
    · show (c.val + ('a'.val - 'A'.val)).toNat ≤ 122
      omega
  · rfl

lemma lower_rdropWhile (cs : List Char) :
    lower (cs.rdropWhile isBlank) = (lower cs).rdropWhile isBlank := by
  have hblank : isBlank ∘ Char.toLower = isBlank := funext isBlank_toLower
  simp only [lower, List.rdropWhile, ← List.map_reverse, List.dropWhile_map, hblank]

/-- A text starts with a word in any case. -/
lemma isPrefix_lower_iff {word cs : List Char} :
    word <+: lower cs ↔ ∃ front rest, cs = front ++ rest ∧ lower front = word := by
  constructor
  · rintro ⟨rest, hrest⟩
    obtain ⟨front, back, rfl, hfront, -⟩ := List.map_eq_append_iff.mp hrest.symm
    exact ⟨front, back, rfl, hfront⟩
  · rintro ⟨front, rest, rfl, rfl⟩
    exact ⟨lower rest, List.map_append.symm⟩

/-- A text holds a word in any case. -/
lemma isInfix_lower_iff {word cs : List Char} :
    word <:+: lower cs ↔ ∃ before part after, cs = before ++ part ++ after ∧ lower part = word := by
  constructor
  · rintro ⟨before, after, hcs⟩
    obtain ⟨front, back, rfl, hfront, -⟩ := List.map_eq_append_iff.mp hcs.symm
    obtain ⟨left, part, rfl, -, hpart⟩ := List.map_eq_append_iff.mp hfront
    exact ⟨left, part, back, rfl, hpart⟩
  · rintro ⟨before, part, after, rfl, rfl⟩
    exact ⟨lower before, lower after, by simp [lower]⟩

end DialogModel.Chars
