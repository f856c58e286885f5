import DialogModel.Compile
import DialogModel.Proofs.Declaration.Plans
import DialogModel.Proofs.Text.Chars

/-!
# The texts of a declaration

What the definition of an entity comes to, text by text.  Items between commas, children, spellings
and the wordings of a question are trimmed and then kept only if something is left of them
(`Text.IsSolid`).  The lines of a list are trimmed as well but all of them are kept, so that a value
or a synonym may be empty; `mem_sublists` says exactly which values and synonyms a definition gives.
-/

namespace DialogModel

open Entity

/-- A text that is trimmed and not empty. -/
structure Text.IsSolid (s : String) : Prop where
  trimmed : Text.trim s = s
  ne_empty : s ≠ ""

lemma Text.trim_ofList (cs : List Char) : Text.trim (String.ofList (Chars.trim cs)) =
    String.ofList (Chars.trim cs) := by
  simp [Text.trim]

@[simp]
lemma Text.trim_trim (s : String) : Text.trim (Text.trim s) = Text.trim s :=
  Text.trim_ofList s.toList

lemma Text.of_mem_items {s item : String} (h : item ∈ Text.items s) :
    Text.IsSolid item ∧ ',' ∉ item.toList := by
  obtain ⟨cs, hcs, rfl⟩ := List.mem_map.mp h
  obtain ⟨htrim, hne, hcomma⟩ := Chars.of_mem_items hcs
  refine ⟨⟨?_, ?_⟩, ?_⟩
  · simp [Text.trim, htrim]
  · simpa using hne
  · simpa using hcomma

/-- Texts that are trimmed and then dropped if they are empty. -/
lemma Text.isSolid_of_mem_filter {texts : List String} {s : String}
    (h : s ∈ (texts.map Text.trim).filter (!·.isEmpty)) : Text.IsSolid s := by
  obtain ⟨hmem, hne⟩ := List.mem_filter.mp h
  obtain ⟨t, -, rfl⟩ := List.mem_map.mp hmem
  exact ⟨Text.trim_trim t, by simpa using hne⟩

lemma QuestionSection.isSolid_of_mem_wordings {q : QuestionSection} {wording : String}
    (h : wording ∈ q.wordings) : Text.IsSolid wording :=
  Text.isSolid_of_mem_filter (FirstSeen.mem_ofList.mp h)

namespace Declaration

variable {d : Declaration}

/-! ## Items -/

lemma of_mem_items {item : String} (h : item ∈ d.items) :
    Text.IsSolid item ∧ ',' ∉ item.toList := by
  obtain ⟨text, -, hitem⟩ := List.mem_flatMap.mp h
  exact Text.of_mem_items hitem

lemma isChildPadding_of_isBlank (c : Char) (h : isBlank c) : isChildPadding c := by
  simp [isChildPadding, h]

lemma isSolid_of_mem_children {child : String} (h : child ∈ d.children) : Text.IsSolid child := by
  obtain ⟨hmem, hne⟩ := List.mem_filter.mp (FirstSeen.mem_ofList.mp h)
  obtain ⟨item, -, rfl⟩ := List.mem_map.mp hmem
  refine ⟨?_, by simpa using hne⟩
  simp [Text.trim, Chars.trim_stripWhere isChildPadding_of_isBlank]

/-- The spellings of a word whose name is solid. -/
lemma isSolid_of_mem_spellings (hname : Text.IsSolid d.name) {word : String}
    (h : word ∈ d.spellings) : Text.IsSolid word := by
  rcases FirstSeen.mem_addAll.mp h with h | h
  · rw [List.mem_singleton.mp h]
    exact hname
  · have hmem : word ∈ ((d.lines.map BodyLine.text).map Text.trim).filter (!·.isEmpty) := by
      simpa using h
    exact Text.isSolid_of_mem_filter hmem

end Declaration

/-! ## Lists -/

namespace Entity.Detail

/-- The values of a list. -/
def forms : Detail → List String
  | .list sublists => sublists.map Sublist.canonicalForm
  | _ => []

/-- The synonyms of a list. -/
def synonyms : Detail → List String
  | .list sublists => sublists.flatMap Sublist.synonyms
  | _ => []

/-- The children of a composite. -/
def children : Detail → List String
  | .composite children => children
  | _ => []

end Entity.Detail

namespace Declaration

variable {d : Declaration}

namespace ListItem

/-- A value is empty if the line is a colon. -/
lemma of_ofText_value {text value : String} (h : ofText text = .value value) :
    Text.trim value = value ∧ (value = "" → Text.trim text = ":") := by
  simp only [ofText] at h
  split at h
  · next form hform =>
    cases h
    rw [Chars.before?_eq_some_iff] at hform
    refine ⟨Text.trim_ofList form, fun hempty => ?_⟩
    have hstart := Chars.startsSolid_trim text.toList
    rw [String.ofList_eq_empty_iff, Chars.trim_eq_nil_iff] at hempty
    -- The line starts with no blank, so nothing stands before the colon.
    cases form with
    | nil => simp [Text.trim, hform]
    | cons c form =>
        rw [hform] at hstart
        have hc := hstart c rfl
        rw [hempty c List.mem_cons_self] at hc
        cases hc
  · cases h

lemma of_ofText_synonym {text synonym : String} (h : ofText text = .synonym synonym) :
    synonym = Text.trim text := by
  simp only [ofText] at h
  split at h
  · cases h
  · cases h
    rfl

lemma ofText_eq_value_empty_iff {text : String} :
    ofText text = .value "" ↔ Text.trim text = ":" := by
  refine ⟨fun h => (of_ofText_value h).2 rfl, fun h => ?_⟩
  have hchars : Chars.trim text.toList = [] ++ [':'] := by
    rw [← Text.toList_trim, h]
    rfl
  simp only [ofText, hchars, Chars.before?_concat]
  rfl

lemma ofText_eq_synonym_empty_iff {text : String} :
    ofText text = .synonym "" ↔ Text.trim text = "" := by
  refine ⟨fun h => (of_ofText_synonym h).symm, fun h => ?_⟩
  have hchars : Chars.trim text.toList = [] := by
    rw [← Text.toList_trim, h]
    rfl
  simp only [ofText, hchars]
  rfl

end ListItem

lemma map_canonicalForm_addSynonym? {synonym : String} {subs subs' : List Sublist}
    (h : addSynonym? synonym subs = some subs') :
    subs'.map Sublist.canonicalForm = subs.map Sublist.canonicalForm := by
  induction subs using addSynonym?.induct generalizing subs' with
  | case1 => cases h
  | case2 s =>
      cases h
      rfl
  | case3 s t rest ih =>
      obtain ⟨rest', hrest, rfl⟩ := Option.map_eq_some_iff.mp h
      rw [List.map_cons, ih hrest]
      rfl

lemma mem_synonyms_addSynonym? {synonym x : String} {subs subs' : List Sublist}
    (h : addSynonym? synonym subs = some subs') :
    x ∈ subs'.flatMap Sublist.synonyms ↔ x ∈ subs.flatMap Sublist.synonyms ∨ x = synonym := by
  induction subs using addSynonym?.induct generalizing subs' with
  | case1 => cases h
  | case2 s =>
      cases h
      simp
  | case3 s t rest ih =>
      obtain ⟨rest', hrest, rfl⟩ := Option.map_eq_some_iff.mp h
      rw [List.flatMap_cons, List.mem_append, ih hrest, List.flatMap_cons (x := s), List.mem_append,
        or_assoc]

/-- A line of a list gives a value or a synonym and nothing else. -/
lemma mem_addListLine {name : String} {subs subs' : List Sublist} {line : BodyLine}
    (h : addListLine name subs line = .ok subs') :
    (∀ v, v ∈ subs'.map Sublist.canonicalForm ↔
      v ∈ subs.map Sublist.canonicalForm ∨ ListItem.ofText line.text = .value v) ∧
    ∀ x, x ∈ subs'.flatMap Sublist.synonyms ↔
      x ∈ subs.flatMap Sublist.synonyms ∨ ListItem.ofText line.text = .synonym x := by
  unfold addListLine at h
  split at h
  · next value hitem =>
    cases h
    simp [hitem, eq_comm]
  · next text hitem =>
    split at h
    · next new hnew =>
      cases h
      refine ⟨fun v => ?_, fun x => ?_⟩
      · simp [map_canonicalForm_addSynonym? hnew, hitem]
      · rw [mem_synonyms_addSynonym? hnew, hitem, ListItem.synonym.injEq, eq_comm (a := x)]
    · cases h

/-- **The values and the synonyms that the lines of a list give.** -/
lemma mem_sublists {given new : List Sublist} (h : d.sublists given = .ok new) :
    (∀ v, v ∈ new.map Sublist.canonicalForm ↔ v ∈ given.map Sublist.canonicalForm ∨
      ∃ line ∈ d.definitionLines, ListItem.ofText line.text = .value v) ∧
    ∀ x, x ∈ new.flatMap Sublist.synonyms ↔ x ∈ given.flatMap Sublist.synonyms ∨
      ∃ line ∈ d.definitionLines, ListItem.ofText line.text = .synonym x := by
  unfold sublists at h
  generalize d.definitionLines = lines at h ⊢
  induction lines generalizing given with
  | nil =>
      cases h
      simp
  | cons line lines ih =>
      rw [List.foldlM_cons] at h
      obtain ⟨subs, hline, h⟩ := bind_eq_ok_iff.mp h
      obtain ⟨hforms, hsynonyms⟩ := ih h
      obtain ⟨hforms₁, hsynonyms₁⟩ := mem_addListLine hline
      simp only [hforms, hforms₁, hsynonyms, hsynonyms₁, List.exists_mem_cons_iff, or_assoc,
        implies_true, and_self]

lemma mem_forms_mergeSublist {existing : List Sublist} {new : Sublist} {v : String} :
    v ∈ (mergeSublist existing new).map Sublist.canonicalForm ↔
      v ∈ existing.map Sublist.canonicalForm ∨ v = new.canonicalForm := by
  induction existing with
  | nil => simp [mergeSublist]
  | cons s rest ih =>
      unfold mergeSublist
      split_ifs with hsame
      · simp [← hsame]
        tauto
      · rw [List.map_cons, List.mem_cons, ih, List.map_cons, List.mem_cons, or_assoc]

lemma mem_synonyms_mergeSublist {existing : List Sublist} {new : Sublist} {x : String} :
    x ∈ (mergeSublist existing new).flatMap Sublist.synonyms ↔
      x ∈ existing.flatMap Sublist.synonyms ∨ x ∈ new.synonyms := by
  induction existing with
  | nil => simp [mergeSublist]
  | cons s rest ih =>
      unfold mergeSublist
      split_ifs
      · rw [List.flatMap_cons, List.mem_append, FirstSeen.mem_addAll, List.flatMap_cons,
          List.mem_append]
        tauto
      · rw [List.flatMap_cons, List.mem_append, ih, List.flatMap_cons, List.mem_append, or_assoc]

lemma mem_foldl_mergeSublist (new existing : List Sublist) :
    (∀ v, v ∈ (new.foldl mergeSublist existing).map Sublist.canonicalForm ↔
      v ∈ existing.map Sublist.canonicalForm ∨ v ∈ new.map Sublist.canonicalForm) ∧
    ∀ x, x ∈ (new.foldl mergeSublist existing).flatMap Sublist.synonyms ↔
      x ∈ existing.flatMap Sublist.synonyms ∨ x ∈ new.flatMap Sublist.synonyms := by
  induction new generalizing existing with
  | nil => simp
  | cons s new ih =>
      obtain ⟨hforms, hsynonyms⟩ := ih (mergeSublist existing s)
      refine ⟨fun v => ?_, fun x => ?_⟩
      · rw [List.foldl_cons, hforms, mem_forms_mergeSublist, List.map_cons, List.mem_cons, or_assoc]
      · rw [List.foldl_cons, hsynonyms, mem_synonyms_mergeSublist, List.flatMap_cons,
          List.mem_append, or_assoc]

end Declaration

end DialogModel
