import DialogModel.Declaration.Forms
import DialogModel.Proofs.Text.Chars

/-!
# Clauses of roles

The roles of a `$` declaration stand in a clause behind its definition, in one text.  A clause that
was written behind a definition is read back with its roles, and the definition is what is left
(`core_written`, `roles_written`).  Two things could go wrong, and each is ruled out by a condition.
The definition may hold a clause of its own (`HasClause`); a pattern may, since the clause is looked
for behind its last slash.  And a role may hold a comma, a blank or a slash (`IsRole`).
-/

namespace DialogModel.LegacyEntity

open Chars

/-! ## Writing a clause -/

/-- A role that can be written in a clause. -/
@[mk_iff]
structure IsRole (role : String) : Prop where
  ne_empty : role ≠ ""
  not_comma : ',' ∉ role.toList
  not_slash : '/' ∉ role.toList
  not_blank : ∀ c ∈ role.toList, isBlank c = false

instance (role : String) : Decidable (IsRole role) :=
  decidable_of_iff
    (role ≠ "" ∧ ',' ∉ role.toList ∧ '/' ∉ role.toList ∧ role.toList.all (!isBlank ·) = true)
    (by simp [isRole_iff])

/-- The clause for a list of roles; there is none if the list is empty. -/
def clause (roles : List String) : String :=
  if roles = [] then "" else " Roles=" ++ String.intercalate "," roles

/-- A text holds a clause: `roles=` in any case, at the start or behind a blank. -/
def HasClause (cs : List Char) : Prop :=
  ∃ before rest, cs = before ++ rest ∧ (∀ c ∈ before.getLast?, isBlank c) ∧
    "roles=".toList <+: lower rest

lemma clause_of_ne_nil {roles : List String} (h : roles ≠ []) :
    (clause roles).toList =
      ' ' :: ("Roles=".toList ++ List.intercalate [','] (roles.map String.toList)) := by
  rw [clause, if_neg h, String.toList_append, String.toList_intercalate]
  rfl

/-- The items of a written list of roles are the roles. -/
lemma items_intercalate {roles : List String} (hroles : ∀ r ∈ roles, IsRole r)
    (hne : roles ≠ []) :
    items (List.intercalate [','] (roles.map String.toList)) = roles.map String.toList := by
  have hsplit : List.splitOn ',' (List.intercalate [','] (roles.map String.toList)) =
      roles.map String.toList := by
    refine List.splitOn_intercalate ',' ?_ (by simpa using hne)
    intro cs hcs
    obtain ⟨r, hr, rfl⟩ := List.mem_map.mp hcs
    exact (hroles r hr).not_comma
  have htrim : ∀ cs ∈ roles.map String.toList, trim cs = cs := by
    intro cs hcs
    obtain ⟨r, hr, rfl⟩ := List.mem_map.mp hcs
    have hblank := (hroles r hr).not_blank
    exact trim_eq_self_iff.mpr ⟨fun c hc => hblank c (List.mem_of_mem_head? hc),
      fun c hc => hblank c (List.mem_of_getLast? hc)⟩
  have hne_nil : ∀ cs ∈ roles.map String.toList, (!cs.isEmpty) = true := by
    intro cs hcs
    obtain ⟨r, hr, rfl⟩ := List.mem_map.mp hcs
    simpa using (hroles r hr).ne_empty
  rw [items, hsplit, List.map_congr_left htrim, List.map_id', List.filter_eq_self.mpr hne_nil]

lemma not_slash_clause {roles : List String} (hroles : ∀ r ∈ roles, IsRole r) :
    '/' ∉ (clause roles).toList := by
  by_cases hne : roles = []
  · simp [clause, hne]
  · rw [clause_of_ne_nil hne, List.mem_cons, List.mem_append, not_or, not_or]
    refine ⟨by decide, by decide, not_mem_intercalate (by decide) ?_⟩
    intro cs hcs
    obtain ⟨r, hr, rfl⟩ := List.mem_map.mp hcs
    exact (hroles r hr).not_slash

/-! ## Looking for a clause -/

lemma breakAtRoles?_cons (atWordStart : Bool) (c : Char) (cs : List Char) :
    breakAtRoles? atWordStart (c :: cs) =
      if atWordStart = true ∧ "roles=".toList <+: lower (c :: cs) then
        some ([], (c :: cs).drop 6)
      else (breakAtRoles? (isBlank c) cs).map fun (before, rest) => (c :: before, rest) := by
  cases atWordStart with
  | false => simp [breakAtRoles?]
  | true =>
      have hprefix : (after? "roles=".toList (lower (c :: cs))).isSome ↔
        "roles=".toList <+: lower (c :: cs) := isSome_after?_iff
      cases hafter : after? "roles=".toList (lower (c :: cs)) with
      | none =>
          rw [hafter, Option.isSome_none, Bool.false_eq_true, false_iff] at hprefix
          simp only [breakAtRoles?, hafter, hprefix, and_false, if_false]
      | some rest =>
          rw [hafter] at hprefix
          simp only [breakAtRoles?, hafter, hprefix.mp rfl, and_self, if_true]

lemma elim_getLast?_cons (atWordStart : Bool) (c : Char) (cs : List Char) :
    (c :: cs).getLast?.elim atWordStart isBlank = cs.getLast?.elim (isBlank c) isBlank := by
  cases hlast : cs.getLast? <;> simp [List.getLast?_cons, hlast]

/-- A clause is found if there is one.  The start of the text counts as the start of a word or
not. -/
lemma isSome_breakAtRoles?_iff {atWordStart : Bool} {cs : List Char} :
    (breakAtRoles? atWordStart cs).isSome ↔ ∃ before rest, cs = before ++ rest ∧
      before.getLast?.elim atWordStart isBlank ∧ "roles=".toList <+: lower rest := by
  induction cs generalizing atWordStart with
  | nil => simp [breakAtRoles?, lower]
  | cons c cs ih =>
      rw [breakAtRoles?_cons]
      split_ifs with hfound
      · simp only [Option.isSome_some, true_iff]
        exact ⟨[], c :: cs, rfl, hfound.1, hfound.2⟩
      · rw [Option.isSome_map, ih]
        constructor
        · rintro ⟨before, rest, rfl, hstart, hprefix⟩
          exact ⟨c :: before, rest, rfl, by rwa [elim_getLast?_cons], hprefix⟩
        · rintro ⟨before, rest, hcut, hstart, hprefix⟩
          cases before with
          | nil =>
              obtain rfl : c :: cs = rest := hcut
              exact absurd ⟨hstart, hprefix⟩ hfound
          | cons b before =>
              obtain ⟨rfl, rfl⟩ := List.cons.inj hcut
              rw [elim_getLast?_cons] at hstart
              exact ⟨before, rest, rfl, hstart, hprefix⟩

lemma hasClause_iff {cs : List Char} : HasClause cs ↔ (breakAtRoles? true cs).isSome := by
  rw [isSome_breakAtRoles?_iff, HasClause]
  refine exists_congr fun before => exists_congr fun rest => and_congr_right fun _ =>
    and_congr_left fun _ => ?_
  cases before.getLast? <;> simp

instance (cs : List Char) : Decidable (HasClause cs) :=
  decidable_of_iff _ hasClause_iff.symm

/-- A word without a given character that starts a text starts the part before that character. -/
lemma isPrefix_of_isPrefix_append_cons {w as bs : List Char} {x : Char} (hx : x ∉ w)
    (h : w <+: as ++ x :: bs) : w <+: as := by
  have hconcat : as ++ [x] <+: as ++ x :: bs := ⟨bs, by simp⟩
  rcases List.prefix_or_prefix_of_prefix h hconcat with h | h
  · rcases List.prefix_concat_iff.mp h with rfl | h
    · simp at hx
    · exact h
  · exact absurd (h.subset (by simp)) hx

/-- Behind a text without a clause, the clause is looked for from the next word on. -/
lemma breakAtRoles?_append {atWordStart : Bool} {cs : List Char}
    (h : breakAtRoles? atWordStart cs = none) (rest : List Char) :
    breakAtRoles? atWordStart (cs ++ ' ' :: rest) =
      (breakAtRoles? true rest).map fun (before, roles) => (cs ++ ' ' :: before, roles) := by
  induction cs generalizing atWordStart with
  | nil =>
      have hprefix : ¬ "roles=".toList <+: lower (' ' :: rest) := by
        intro hprefix
        exact absurd (List.cons_prefix_cons.mp hprefix).1 (by decide)
      rw [List.nil_append, breakAtRoles?_cons, if_neg fun hfound => hprefix hfound.2]
      rfl
  | cons c cs ih =>
      rw [breakAtRoles?_cons] at h
      split_ifs at h with hfound
      -- The blank is no part of the word, so the word would have to stand before it.
      have hnot : ¬ (atWordStart = true ∧
          "roles=".toList <+: lower (c :: (cs ++ ' ' :: rest))) := by
        rintro ⟨hstart, hprefix⟩
        have hsplit : lower (c :: (cs ++ ' ' :: rest)) = lower (c :: cs) ++ ' ' :: lower rest := by
          simp [lower]
        rw [hsplit] at hprefix
        exact hfound ⟨hstart, isPrefix_of_isPrefix_append_cons (by decide) hprefix⟩
      rw [List.cons_append, breakAtRoles?_cons, if_neg hnot, ih (Option.map_eq_none_iff.mp h),
        Option.map_map]
      rfl

/-! ## Splitting a clause off -/

/-- The part of a definition in which no clause is looked for: a pattern up to its last slash. -/
def patternPart (cs : List Char) : List Char :=
  if cs.head? = some '/' then dropWhileEnd (· != '/') cs else []

/-- A definition holds no clause where one is looked for. -/
def Unclaused (cs : List Char) : Prop :=
  breakAtRoles? (!decide (cs.head? = some '/')) (cs.drop (patternPart cs).length) = none

lemma head?_append_of_not_slash (cs : List Char) {ds : List Char} (h : '/' ∉ ds) :
    (cs ++ ds).head? = some '/' ↔ cs.head? = some '/' := by
  cases cs with
  | nil =>
      simp only [List.nil_append, List.head?_nil, reduceCtorEq, iff_false]
      intro hhead
      exact h (List.mem_of_mem_head? hhead)
  | cons c cs => simp

/-- What stands behind the last slash is not part of the pattern. -/
lemma patternPart_append (cs : List Char) {ds : List Char} (h : '/' ∉ ds) :
    patternPart (cs ++ ds) = patternPart cs := by
  have hds : ∀ c ∈ ds.reverse, (c != '/') = true := by
    intro c hc
    rw [List.mem_reverse] at hc
    simpa using fun heq : c = '/' => h (heq ▸ hc)
  simp only [patternPart, head?_append_of_not_slash cs h, dropWhileEnd, List.reverse_append,
    List.dropWhile_append_of_pos hds]

lemma patternPart_isPrefix (cs : List Char) : patternPart cs <+: cs := by
  unfold patternPart
  split_ifs
  · exact List.rdropWhile_prefix _ _
  · exact List.nil_prefix

lemma splitRoles_eq (cs : List Char) :
    splitRoles cs =
      match breakAtRoles? (!decide (cs.head? = some '/')) (cs.drop (patternPart cs).length) with
      | some (before, roles) => (trim (patternPart cs ++ before), items roles)
      | none => (trim cs, []) :=
  rfl

/-- **A clause behind a definition is read back.** -/
lemma splitRoles_append {cs : List Char} {roles : List String} (hcs : Unclaused cs)
    (hroles : ∀ r ∈ roles, IsRole r) :
    splitRoles (cs ++ (clause roles).toList) = (trim cs, roles.map String.toList) := by
  have hslash := not_slash_clause hroles
  have hhead := head?_append_of_not_slash cs hslash
  rw [splitRoles_eq, patternPart_append cs hslash, decide_eq_decide.mpr hhead,
    List.drop_append_of_le_length (patternPart_isPrefix cs).length_le]
  by_cases hne : roles = []
  · subst hne
    simp only [clause, if_true, String.toList_empty, List.append_nil]
    rw [show breakAtRoles? _ _ = none from hcs]
    rfl
  · have hfound : breakAtRoles? true
        ("Roles=".toList ++ List.intercalate [','] (roles.map String.toList)) =
          some ([], List.intercalate [','] (roles.map String.toList)) := rfl
    rw [clause_of_ne_nil hne, breakAtRoles?_append hcs, hfound]
    simp only [Option.map_some, items_intercalate hroles hne, Prod.mk.injEq, and_true]
    rw [← List.append_assoc, List.prefix_iff_eq_append.mp (patternPart_isPrefix cs)]
    exact trim_concat_of_isBlank cs (by decide)

lemma unclaused_of_not_hasClause {cs : List Char} (h : ¬ HasClause cs) : Unclaused cs := by
  rw [Unclaused, ← Option.not_isSome_iff_eq_none, isSome_breakAtRoles?_iff]
  rintro ⟨before, rest, hcut, hstart, hprefix⟩
  refine h ⟨patternPart cs ++ before, rest, ?_, ?_, hprefix⟩
  · rw [List.append_assoc, ← hcut, List.prefix_iff_eq_append.mp (patternPart_isPrefix cs)]
  · intro c hc
    cases hlast : before.getLast? with
    | none =>
        -- The text as a whole starts with the clause, so it is no pattern.
        obtain rfl := List.getLast?_eq_none_iff.mp hlast
        have hhead : cs.head? ≠ some '/' := by simpa using hstart
        simp [patternPart, hhead] at hc
    | some b =>
        rw [List.getLast?_append, hlast] at hc
        rw [hlast] at hstart
        obtain rfl : b = c := Option.some.inj hc
        exact hstart

/-- No clause is looked for in a pattern. -/
lemma unclaused_pattern (cs : List Char) : Unclaused ('/' :: (cs ++ ['/'])) := by
  have hpart : patternPart ('/' :: (cs ++ ['/'])) = '/' :: (cs ++ ['/']) := by
    simp [patternPart, dropWhileEnd]
  rw [Unclaused, hpart, List.drop_length]
  rfl

/-! ## Sections with a clause -/

/-- The section that has a definition with a clause of roles behind it. -/
def written (name text : String) (roles : List String) (lines : List BodyLine)
    (prov : Provenance) : LegacyEntity where
  name := name
  typeString := text ++ clause roles
  lines := lines
  prov := prov

variable {name text : String} {roles : List String} {lines : List BodyLine} {prov : Provenance}

@[simp]
lemma name_written : (written name text roles lines prov).name = name :=
  rfl

lemma core_written (htext : Unclaused text.toList) (hroles : ∀ r ∈ roles, IsRole r) :
    (written name text roles lines prov).core = trim text.toList := by
  rw [core, written, String.toList_append, splitRoles_append htext hroles]

lemma roles_written (htext : Unclaused text.toList) (hroles : ∀ r ∈ roles, IsRole r) :
    (written name text roles lines prov).roles = .ofList roles := by
  have hofList : String.ofList ∘ String.toList = id := funext fun _ => String.ofList_toList
  rw [LegacyEntity.roles, written, String.toList_append, splitRoles_append htext hroles,
    List.map_map, hofList, List.map_id]

end DialogModel.LegacyEntity
