import DialogModel.Proofs.Declaration.Clause
import DialogModel.Proofs.Text.Bytes

/-!
# Finding a clause of roles by its position

`LegacyEntity.splitRoles` goes through a definition character by character.  `splitRolesAt?` works
with positions in bytes: it looks for the clause in a copy of the definition in small letters, from
the last slash of a pattern on, and cuts the definition itself at the positions that it finds in the
copy.  It has no result if one of them is no position of the text that is cut.

It always has one, and it is that of `splitRoles` (`splitRolesAt?_eq`).
-/

namespace DialogModel.LegacyEntity

open Chars
open Text (cutAtByte? cutAtByte?_of_toList occurrences getLast?_occurrences utf8Len_lower
  utf8Size_toLower)

/-- The position from which a clause is looked for: the last slash of a pattern. -/
def searchFrom (s : String) : Nat :=
  if s.toList.head? = some '/' then (occurrences ['/'] 0 s.toList).getLast?.getD 0 else 0

/-- Whether a word starts at a position: it is the first, or a blank stands before it. -/
def startsWordAt? (s : String) (i : Nat) : Option Bool :=
  if i = 0 then some true
  else (cutAtByte? s i).map fun (before, _) => before.toList.getLast?.any isBlank

/-- Splits a trailing clause of roles off a definition, by positions in its copy in small
letters. -/
def splitRolesAt? (s : String) : Option (List Char × List (List Char)) := do
  let (_, copy) ← cutAtByte? (Text.lower s) (searchFrom s)
  let found ← (occurrences "roles=".toList (searchFrom s) copy.toList).findM? (startsWordAt? s)
  match found with
  | none => some (trim s.toList, [])
  | some i => do
    let (_, roles) ← cutAtByte? s (i + "roles=".utf8ByteSize)
    let (before, _) ← cutAtByte? s i
    some (trim before.toList, items roles.toList)

/-! ## The positions of the clause -/

variable {s : String} {before rest : List Char}

/-- What stands before a position tells whether a word starts there. -/
lemma startsWordAt?_eq (h : s.toList = before ++ rest) :
    startsWordAt? s (String.utf8Len before) = some (before.getLast?.elim true isBlank) := by
  rw [startsWordAt?]
  cases hlast : before.getLast? with
  | none =>
      obtain rfl := List.getLast?_eq_none_iff.mp hlast
      rfl
  | some b =>
      have hne : before ≠ [] := by
        rintro rfl
        simp at hlast
      have hsize : String.utf8Len before ≠ 0 := by
        simpa [String.utf8Len_eq_zero] using hne
      rw [if_neg hsize, cutAtByte?_of_toList h]
      simp [hlast]

/-- **The clause stands where it is found in the copy.** -/
lemma findM?_occurrences (h : s.toList = before ++ rest) :
    (occurrences "roles=".toList (String.utf8Len before) (lower rest)).findM? (startsWordAt? s) =
      some ((breakAtRoles? (before.getLast?.elim true isBlank) rest).map
        fun cut => String.utf8Len (before ++ cut.1)) := by
  -- The part before grows by the character that is passed, which has the same size in the copy.
  induction rest generalizing before with
  | nil => rfl
  | cons c rest ih =>
      have hsize : String.utf8Len before + c.toLower.utf8Size = String.utf8Len (before ++ [c]) := by
        rw [String.utf8Len_append, String.utf8Len_cons, utf8Size_toLower]
        simp
      have hbehind : (occurrences "roles=".toList (String.utf8Len before + c.toLower.utf8Size)
          (lower rest)).findM? (startsWordAt? s) =
            some (((breakAtRoles? (isBlank c) rest).map fun cut => (c :: cut.1, cut.2)).map
              fun cut => String.utf8Len (before ++ cut.1)) := by
        have hcut : s.toList = (before ++ [c]) ++ rest := by simpa using h
        rw [hsize, ih hcut]
        simp [Function.comp_def]
      have hlower : lower (c :: rest) = c.toLower :: lower rest := rfl
      rw [breakAtRoles?_cons, hlower, occurrences]
      by_cases hfront : "roles=".toList <+: c.toLower :: lower rest
      · rw [if_pos hfront, List.findM?, startsWordAt?_eq h]
        cases hstart : before.getLast?.elim true isBlank with
        | true =>
            rw [if_pos ⟨rfl, hlower ▸ hfront⟩]
            simp
        | false =>
            simp only [Bool.false_eq_true, false_and, if_false]
            exact hbehind
      · simp only [hfront, and_false, if_false]
        exact hbehind

/-- What a cut at a clause leaves out is the word that announces it. -/
lemma breakAtRoles?_eq_some {atWordStart : Bool} {cs roles : List Char}
    (h : breakAtRoles? atWordStart cs = some (before, roles)) :
    ∃ word, cs = before ++ word ++ roles ∧ lower word = "roles=".toList := by
  induction cs generalizing atWordStart before with
  | nil => simp [breakAtRoles?] at h
  | cons c cs ih =>
      rw [breakAtRoles?_cons] at h
      split_ifs at h with hfound
      · obtain ⟨rfl, rfl⟩ := Prod.mk.inj (Option.some.inj h)
        refine ⟨(c :: cs).take 6, by simp, ?_⟩
        rw [lower, List.map_take]
        exact (List.prefix_iff_eq_take.mp hfound.2).symm
      · obtain ⟨⟨before, rest⟩, hcut, hpair⟩ := Option.map_eq_some_iff.mp h
        obtain ⟨rfl, rfl⟩ := Prod.mk.inj hpair
        obtain ⟨word, rfl, hword⟩ := ih hcut
        exact ⟨word, rfl, hword⟩

/-! ## The text in which it is looked for -/

/-- A pattern is cut before its last slash. -/
lemma exists_last_slash {cs : List Char} (h : cs.head? = some '/') :
    ∃ before rest, cs = before ++ '/' :: rest ∧ '/' ∉ rest ∧ patternPart cs = before ++ ['/'] := by
  have hpart : patternPart cs = cs.rdropWhile (· != '/') := by rw [patternPart, if_pos h]; rfl
  have hne : cs.rdropWhile (· != '/') ≠ [] := by
    rw [Ne, List.rdropWhile_eq_nil_iff]
    intro hall
    exact absurd (hall '/' (List.mem_of_mem_head? h)) (by decide)
  have hlast : (cs.rdropWhile (· != '/')).getLast hne = '/' := by
    simpa using List.rdropWhile_last_not _ _ hne
  have hconcat : (cs.rdropWhile (· != '/')).dropLast ++ ['/'] = cs.rdropWhile (· != '/') := by
    have hsplit := List.dropLast_append_getLast hne
    rwa [hlast] at hsplit
  refine ⟨(cs.rdropWhile (· != '/')).dropLast, cs.rtakeWhile (· != '/'), ?_, ?_, ?_⟩
  · rw [← List.singleton_append, ← List.append_assoc, hconcat, List.rdropWhile_append_rtakeWhile]
  · intro hmem
    simpa using List.mem_rtakeWhile_imp hmem
  · rw [hpart, hconcat]

/-- The clause of a definition is the one behind the position from which it is looked for. -/
lemma exists_searchFrom (s : String) :
    ∃ before rest, s.toList = before ++ rest ∧ searchFrom s = String.utf8Len before ∧
      splitRoles s.toList =
        match breakAtRoles? (before.getLast?.elim true isBlank) rest with
        | some (between, roles) => (trim (before ++ between), items roles)
        | none => (trim s.toList, []) := by
  by_cases hhead : s.toList.head? = some '/'
  · obtain ⟨before, rest, hcut, hrest, hpart⟩ := exists_last_slash hhead
    refine ⟨before, '/' :: rest, hcut, ?_, ?_⟩
    · rw [searchFrom, if_pos hhead, hcut, getLast?_occurrences hrest, Option.getD_some,
        Nat.zero_add]
    · have hdrop : s.toList.drop (patternPart s.toList).length = rest := by
        rw [hpart, hcut]
        simp
      have hfront : ¬ "roles=".toList <+: lower ('/' :: rest) :=
        fun h => absurd (List.cons_prefix_cons.mp h).1 (by decide)
      have hslash : isBlank '/' = false := by decide
      rw [splitRoles_eq, hdrop, hpart, breakAtRoles?_cons, if_neg fun h => hfront h.2, hslash]
      simp only [hhead, decide_true, Bool.not_true]
      cases breakAtRoles? false rest <;> simp
  · refine ⟨[], s.toList, rfl, by rw [searchFrom, if_neg hhead]; rfl, ?_⟩
    have hpart : patternPart s.toList = [] := by rw [patternPart, if_neg hhead]
    rw [splitRoles_eq, hpart]
    simp only [hhead, decide_false, Bool.not_false]
    rfl

/-- **The positions that are found in the copy are positions of the definition**, and cutting there
gives the definition and the roles. -/
lemma splitRolesAt?_eq (s : String) : splitRolesAt? s = some (splitRoles s.toList) := by
  obtain ⟨before, rest, hcut, hfrom, hsplit⟩ := exists_searchFrom s
  have hcopy : (Text.lower s).toList = lower before ++ lower rest := by
    rw [Text.toList_lower, hcut, lower, List.map_append]
    rfl
  have hcutCopy := cutAtByte?_of_toList hcopy
  rw [utf8Len_lower] at hcutCopy
  have hfind := findM?_occurrences hcut
  rw [splitRolesAt?, hfrom, hcutCopy, hsplit]
  simp only [String.toList_ofList, Option.bind_eq_bind, Option.bind_some, hfind]
  cases hbreak : breakAtRoles? (before.getLast?.elim true isBlank) rest with
  | none => rfl
  | some found =>
      obtain ⟨between, roles⟩ := found
      obtain ⟨word, hrest, hword⟩ := breakAtRoles?_eq_some hbreak
      have hsize : String.utf8Len word = "roles=".utf8ByteSize := by
        rw [← utf8Len_lower, hword]
        rfl
      have hbefore : s.toList = (before ++ between) ++ (word ++ roles) := by
        simp only [hcut, hrest, List.append_assoc]
      have hbehind : s.toList = (before ++ between ++ word) ++ roles := by
        simp only [hbefore, List.append_assoc]
      have hcutBefore := cutAtByte?_of_toList hbefore
      have hcutBehind := cutAtByte?_of_toList hbehind
      rw [String.utf8Len_append, hsize] at hcutBehind
      simp only [Option.map_some, hcutBehind, hcutBefore, Option.bind_some, String.toList_ofList]

end DialogModel.LegacyEntity
