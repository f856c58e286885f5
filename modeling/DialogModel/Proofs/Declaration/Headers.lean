import Mathlib.Tactic.Common
import DialogModel.Entity.Header
import DialogModel.Proofs.Outcome
import DialogModel.Proofs.Text.Chars

/-!
# Headers that are written out

`Header.written` puts a type, a name, a flag, roles and a definition into one line, and reading the
line gives them back (`header_read_back`).  The line is cut at the first `=`, then into words, then
at commas, and what a word means is told by its place alone.  So a role may look like a flag or like
the word that announces roles, and a definition may hold any sign; only a role that starts a clause
about features would be taken for something else.

The words of a line come apart at its blanks: `Chars.words_append_blank` is all that is used of
them.
-/

namespace DialogModel

namespace Entity.Header

open Chars

/-! ## What can be written -/

/-- A type, a name or a role as it can stand in a header: it has no blank and no `=`. -/
def IsPart (word : String) : Prop :=
  word ≠ "" ∧ ∀ c ∈ word.toList, isBlank c = false ∧ c ≠ '='

/-- A role as it can stand in a header: it has no comma, and no clause about features starts with
it. -/
def IsRole (role : String) : Prop :=
  IsPart role ∧ ',' ∉ role.toList ∧
    Text.lower role ≠ "usesfeature" ∧ Text.lower role ≠ "usesfeatures"

-- `List.all` visits the characters of the word; a quantifier over characters would try them all.
instance : DecidablePred IsPart := fun word =>
  decidable_of_iff (word ≠ "" ∧ word.toList.all (fun c => !isBlank c && c != '=') = true)
    (by simp [IsPart])

instance : DecidablePred IsRole := fun role =>
  inferInstanceAs (Decidable (IsPart role ∧ ',' ∉ role.toList ∧
    Text.lower role ≠ "usesfeature" ∧ Text.lower role ≠ "usesfeatures"))

/-- The flag of a header, directly behind its name. -/
def flagText (interchangeable : Bool) : String :=
  if interchangeable then "(interchangeable)" else ""

/-- The clause of a header about its roles; there is none without roles. -/
def rolesClause (roles : List String) : String :=
  if roles = [] then "" else " hasRoles " ++ String.intercalate ", " roles

/-- The line of a header, with its definition if it has one. -/
def written (type name : String) (interchangeable : Bool) (roles : List String)
    (inline : Option String) : String :=
  type ++ " " ++ name ++ flagText interchangeable ++ rolesClause roles ++
    inline.elim "" (" = " ++ ·)

lemma IsPart.words_eq {word : String} (h : IsPart word) : words word.toList = [word.toList] :=
  words_eq_singleton (by simpa using h.1) fun c hc => (h.2 c hc).1

lemma IsPart.not_sign {word : String} (h : IsPart word) : '=' ∉ word.toList :=
  fun hmem => (h.2 '=' hmem).2 rfl

/-! ## The roles -/

/-- The words of a list of roles: all but the last end with a comma. -/
def roleWords : List String → List (List Char)
  | [] => []
  | [role] => [role.toList]
  | role :: next :: roles => (role.toList ++ [',']) :: roleWords (next :: roles)

lemma words_intercalate_roles : ∀ {roles : List String}, (∀ r ∈ roles, IsRole r) →
    words (String.intercalate ", " roles).toList = roleWords roles
  | [], _ => rfl
  | [role], h => by
      rw [String.toList_intercalate]
      simpa [roleWords] using (h role (by simp)).1.words_eq
  | role :: next :: roles, h => by
      obtain ⟨hrole, hrest⟩ := List.forall_mem_cons.mp h
      have ih := words_intercalate_roles hrest
      have hword : words (role.toList ++ [',']) = [role.toList ++ [',']] := by
        refine words_eq_singleton (by simp) fun c hc => ?_
        rcases List.mem_append.mp hc with hc | hc
        · exact (hrole.1.2 c hc).1
        · rw [List.mem_singleton.mp hc]
          decide
      rw [String.toList_intercalate] at ih ⊢
      have hjoined : List.intercalate ", ".toList ((role :: next :: roles).map String.toList) =
          (role.toList ++ [',']) ++
            ' ' :: List.intercalate ", ".toList ((next :: roles).map String.toList) := by
        simp [List.intercalate_cons_cons]
      rw [hjoined, words_append_blank (by decide), hword, ih]
      rfl

/-- A word that ends with a comma starts no clause about features. -/
lemma isFeatureWord_concat_comma (cs : List Char) : isFeatureWord (cs ++ [',']) = false := by
  have hlast : ∀ word : List Char, word.getLast? ≠ some ',' → lower (cs ++ [',']) ≠ word := by
    rintro word hword rfl
    exact hword (by simp [lower])
  simp only [isFeatureWord, sameLetters, Bool.or_eq_false_iff, beq_eq_false_iff_ne]
  exact ⟨hlast _ (by decide), hlast _ (by decide)⟩

lemma IsRole.isFeatureWord {role : String} (h : IsRole role) :
    isFeatureWord role.toList = false := by
  obtain ⟨-, -, hone, hmany⟩ := h
  simp only [Header.isFeatureWord, sameLetters, Bool.or_eq_false_iff, beq_eq_false_iff_ne]
  refine ⟨fun heq => hone (String.toList_injective ?_),
    fun heq => hmany (String.toList_injective ?_)⟩
  · rw [Text.toList_lower, heq]
    decide
  · rw [Text.toList_lower, heq]
    decide

lemma isFeatureWord_of_mem_roleWords : ∀ {roles : List String}, (∀ r ∈ roles, IsRole r) →
    ∀ w ∈ roleWords roles, isFeatureWord w = false
  | [], _, w, hw => absurd hw List.not_mem_nil
  | [role], h, w, hw => by
      rw [roleWords, List.mem_singleton] at hw
      rw [hw]
      exact (h role (by simp)).isFeatureWord
  | role :: next :: roles, h, w, hw => by
      rw [roleWords, List.mem_cons] at hw
      rcases hw with rfl | hw
      · exact isFeatureWord_concat_comma _
      · exact isFeatureWord_of_mem_roleWords (List.forall_mem_cons.mp h).2 w hw

/-- A role is the one item of its word, with a comma or without. -/
lemma IsRole.items_eq {role : String} (h : IsRole role) :
    items role.toList = [role.toList] ∧ items (role.toList ++ [',']) = [role.toList] := by
  obtain ⟨hpart, hcomma, -⟩ := h
  have htrim : trim role.toList = role.toList := trim_eq_self_iff.mpr
    ⟨fun c hc => (hpart.2 c (List.mem_of_mem_head? hc)).1,
      fun c hc => (hpart.2 c (List.mem_of_getLast? hc)).1⟩
  have hne : role.toList ≠ [] := by simpa using hpart.1
  have hone : role.toList.splitOn ',' = [role.toList] := List.splitOn_eq_singleton hcomma
  have htwo : (role.toList ++ [',']).splitOn ',' = [role.toList, []] := by
    rw [List.splitOn_append_cons_self, hone, List.splitOn_nil]
    rfl
  have hempty : trim [] = [] := rfl
  exact ⟨by simp [items, hone, htrim, hne], by simp [items, htwo, htrim, hne, hempty]⟩

/-- **The items of the words of roles are the roles.** -/
lemma flatMap_items_roleWords : ∀ {roles : List String}, (∀ r ∈ roles, IsRole r) →
    (roleWords roles).flatMap items = roles.map String.toList
  | [], _ => rfl
  | [role], h => by
      simp [roleWords, (h role (by simp)).items_eq.1]
  | role :: next :: roles, h => by
      obtain ⟨hrole, hrest⟩ := List.forall_mem_cons.mp h
      rw [roleWords, List.flatMap_cons, hrole.items_eq.2, flatMap_items_roleWords hrest]
      rfl

/-! ## The line -/

/-- The words of a clause about roles: none without roles. -/
def clauseWords (roles : List String) : List (List Char) :=
  if roles = [] then [] else "hasRoles".toList :: roleWords roles

lemma words_rolesClause {cs : List Char} {roles : List String} (hroles : ∀ r ∈ roles, IsRole r) :
    words (cs ++ (rolesClause roles).toList) = words cs ++ clauseWords roles := by
  unfold rolesClause clauseWords
  split_ifs with hnil
  · simp
  · have hclause : (" hasRoles " ++ String.intercalate ", " roles).toList =
        ' ' :: ("hasRoles".toList ++ ' ' :: (String.intercalate ", " roles).toList) := by simp
    have hword : IsPart "hasRoles" := by decide
    rw [hclause, words_append_blank (by decide), words_append_blank (by decide),
      words_intercalate_roles hroles, hword.words_eq]
    rfl

/-- What stands before the definition of a header. -/
def headText (type name : String) (interchangeable : Bool) (roles : List String) : List Char :=
  type.toList ++ ' ' :: (name.toList ++ (flagText interchangeable).toList) ++
    (rolesClause roles).toList

lemma toList_written (type name : String) (interchangeable : Bool) (roles : List String)
    (inline : Option String) :
    (written type name interchangeable roles inline).toList =
      headText type name interchangeable roles ++
        inline.elim [] fun text => ' ' :: '=' :: ' ' :: text.toList := by
  cases inline with
  | none => simp [written, headText, flagText, rolesClause]
  | some text => simp [written, headText, flagText, rolesClause]

/-- No `=` stands before the definition, so the line is cut where the definition starts. -/
lemma sign_not_mem_headText {type name : String} {roles : List String} (htype : IsPart type)
    (hname : IsPart name) (hroles : ∀ r ∈ roles, IsRole r) (interchangeable : Bool) :
    '=' ∉ headText type name interchangeable roles := by
  have hflag : '=' ∉ (flagText interchangeable).toList := by
    cases interchangeable <;> decide
  have hclause : '=' ∉ (rolesClause roles).toList := by
    unfold rolesClause
    split_ifs with hnil
    · decide
    · have hjoined : '=' ∉ (String.intercalate ", " roles).toList := by
        rw [String.toList_intercalate]
        refine not_mem_intercalate (by decide) fun l hl => ?_
        obtain ⟨role, hmem, rfl⟩ := List.mem_map.mp hl
        exact (hroles role hmem).1.not_sign
      have hword : '=' ∉ " hasRoles ".toList := by decide
      simp only [String.toList_append, List.mem_append]
      exact fun h => h.elim hword hjoined
  simp only [headText, List.mem_append, List.mem_cons]
  rintro ((h | h | h | h) | h)
  · exact htype.not_sign h
  · exact absurd h (by decide)
  · exact hname.not_sign h
  · exact hflag h
  · exact hclause h

lemma words_headText {type name : String} {roles : List String} (htype : IsPart type)
    (hname : IsPart name) (hroles : ∀ r ∈ roles, IsRole r) (interchangeable : Bool) :
    words (headText type name interchangeable roles) =
      type.toList :: (name.toList ++ (flagText interchangeable).toList) :: clauseWords roles := by
  have hflag : (flagText interchangeable).toList.all (!isBlank ·) = true := by
    cases interchangeable <;> decide
  have hword : words (name.toList ++ (flagText interchangeable).toList) =
      [name.toList ++ (flagText interchangeable).toList] := by
    refine words_eq_singleton (by simp [hname.1]) fun c hc => ?_
    rcases List.mem_append.mp hc with hc | hc
    · exact (hname.2 c hc).1
    · simpa using List.all_eq_true.mp hflag c hc
  rw [headText, words_rolesClause hroles, words_append_blank (by decide), htype.words_eq, hword]
  rfl

/-! ## Reading the line -/

lemma readName_flagText {name : String} (hparen : '(' ∉ name.toList) (interchangeable : Bool) :
    readName (name.toList ++ (flagText interchangeable).toList) =
      .ok (name.toList, interchangeable) := by
  cases interchangeable with
  | false =>
      have hbreak : breakAt? '(' name.toList = none := breakAt?_eq_none_iff.mpr hparen
      simp [readName, flagText, hbreak]
  | true =>
      have hbreak : breakAt? '(' (name.toList ++ '(' :: "interchangeable)".toList) =
          some (name.toList, "interchangeable)".toList) :=
        breakAt?_eq_some_iff.mpr ⟨rfl, hparen⟩
      have hflag : readFlag "interchangeable)".toList = .ok () := by decide
      have htext : (flagText true).toList = '(' :: "interchangeable)".toList := by decide
      rw [readName, htext, hbreak]
      simp only [hflag]
      rfl

/-- A clause about roles starts with no flag. -/
lemma takeFlag_clauseWords (roles : List String) :
    takeFlag (clauseWords roles) = .ok (false, clauseWords roles) := by
  unfold clauseWords
  split_ifs <;> rfl

/-- Only the word that announces the roles is dropped, also if a role is spelled like it. -/
lemma dropHasRoles_clauseWords (roles : List String) :
    dropHasRoles (clauseWords roles) = roleWords roles := by
  unfold clauseWords
  split_ifs with hnil
  · rw [hnil]
    rfl
  · rfl

/-- What stands before the first `=` of a line, and the definition behind it. -/
def cut (cs : List Char) : List Char × Option String :=
  (breakAt? '=' cs).elim (cs, none) fun (head, inline) => (head, some (String.ofList (trim inline)))

lemma cut_written {type name : String} {roles : List String} {inline : Option String}
    (htype : IsPart type) (hname : IsPart name) (hroles : ∀ r ∈ roles, IsRole r)
    (hinline : ∀ text ∈ inline, Text.trim text = text) (interchangeable : Bool) :
    ∃ head, cut (written type name interchangeable roles inline).toList = (head, inline) ∧
      words head = words (headText type name interchangeable roles) := by
  have hsign := sign_not_mem_headText htype hname hroles interchangeable
  rw [toList_written]
  cases inline with
  | none =>
      refine ⟨_, ?_, rfl⟩
      simp [cut, breakAt?_eq_none_iff.mpr hsign]
  | some text =>
      have hbreak : breakAt? '=' (headText type name interchangeable roles ++
          ' ' :: '=' :: ' ' :: text.toList) =
          some (headText type name interchangeable roles ++ [' '], ' ' :: text.toList) :=
        breakAt?_eq_some_iff.mpr ⟨by simp, by simpa using hsign⟩
      have htrim : String.ofList (trim (' ' :: text.toList)) = text := by
        have hdrop : trim (' ' :: text.toList) = trim text.toList := by
          rw [← trim_dropWhile, List.dropWhile_cons_of_pos (by decide), trim_dropWhile]
        rw [hdrop]
        exact hinline text rfl
      have hblank : isBlank ' ' := by decide
      refine ⟨_, ?_, words_concat_blank hblank _⟩
      simp [cut, hbreak, htrim]

/-- The header that the words of a line give. -/
lemma readChars_eq_ok {type name : String} {roles : List String} (htype : IsPart type)
    (hname : IsPart name) (hparen : '(' ∉ name.toList) (hroles : ∀ r ∈ roles, IsRole r)
    {interchangeable : Bool} {cs head : List Char} {inline : Option String}
    (hcut : cut cs = (head, inline))
    (hwords : words head = words (headText type name interchangeable roles)) :
    readChars cs = .ok { type, name, roles, interchangeable, inline } := by
  have hplain : ∀ w ∈ roleWords roles, (!isFeatureWord w) = true := fun w hw => by
    rw [isFeatureWord_of_mem_roleWords hroles w hw]
    rfl
  have htake : (roleWords roles).takeWhile (!isFeatureWord ·) = roleWords roles :=
    List.takeWhile_eq_self_iff.mpr hplain
  have hdrop : (roleWords roles).dropWhile (!isFeatureWord ·) = [] :=
    List.dropWhile_eq_nil_iff.mpr hplain
  have hroleTexts : (roles.map String.toList).map String.ofList = roles := by
    simp [Function.comp_def]
  rw [words_headText htype hname hroles] at hwords
  unfold cut at hcut
  unfold readChars
  cases hbreak : breakAt? '=' cs <;> rw [hbreak] at hcut <;> obtain ⟨rfl, rfl⟩ := hcut <;>
  · simp only [hwords, readName_flagText hparen, takeFlag_clauseWords, bind, Except.bind]
    simp [hname.1, dropHasRoles_clauseWords, htake, hdrop, flatMap_items_roleWords hroles,
      hroleTexts]

/-- **Reading a written header gives back its parts**: the type, the name, the roles in order, the
flag and the definition with no further lines, and no clause is ignored.  The flag is read
directly behind the name only, so a role may look like a flag; the first `=` of the line starts the
definition, which may hold more of them. -/
theorem header_read_back {type name : String} {roles : List String} {inline : Option String}
    (htype : IsPart type) (hname : IsPart name) (hparen : '(' ∉ name.toList)
    (hroles : ∀ r ∈ roles, IsRole r) (hinline : ∀ text ∈ inline, Text.trim text = text)
    (interchangeable : Bool) (prov : Provenance) :
    ∃ header, read (written type name interchangeable roles inline) = .ok header ∧
      header.ignored = none ∧
      header.toSection prov =
        { type, name, roles, interchangeable, prov
          definition := inline.map fun text => { inline := text, lines := [] } } := by
  obtain ⟨head, hcut, hwords⟩ := cut_written htype hname hroles hinline interchangeable
  exact ⟨_, readChars_eq_ok htype hname hparen hroles hcut hwords, rfl, rfl⟩

/-- Roles that are spelled like a flag, like the word before them and like a definition's
delimiters. -/
theorem header_read_back_lookalikes :
    ∃ header, read (written "list" "city" true ["(interchangeable)", "hasRoles", "usesFeaturesOf"]
        (some "a = b, (c)")) = .ok header ∧
      header.ignored = none ∧
      header.toSection { file := "t.lu", line := 1, text := "" } =
        { type := "list", name := "city"
          roles := ["(interchangeable)", "hasRoles", "usesFeaturesOf"], interchangeable := true
          definition := some { inline := "a = b, (c)", lines := [] }
          prov := { file := "t.lu", line := 1, text := "" } } :=
  header_read_back (by decide) (by decide) (by decide) (by decide) (by decide) true _

end Entity.Header

end DialogModel
