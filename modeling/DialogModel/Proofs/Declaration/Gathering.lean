import DialogModel.Proofs.App.Image
import DialogModel.Proofs.App.Index
import DialogModel.Proofs.Registry.Contents

/-!
# What the lines of a list come to

A list is built by two loops with the same rule.  Within one declaration a value opens a sublist and
each synonym goes to the sublist opened last; between declarations sublists are merged by their
value.  Here both become one: every item of a definition gives a *part*, a sublist of its own with
at most one synonym (`ListItem.parts`), and declaring a list merges its parts one after another
(`Section.Declares.foldl_mergeSublist`).

`Sublist.gather` is the list that parts come to, in closed form, and `foldl_mergeSublist_nil` says
that merging the parts makes it.  It does not matter in how many declarations the items stand
(`ListItem.parts_append`).
-/

namespace DialogModel

open Entity

/-! ## The list that parts come to -/

/-- The values of parts, each once and in the order in which they first appear, with all the
synonyms that stand under them, each once and in that order. -/
def Entity.Sublist.gather (parts : List Sublist) : List Sublist :=
  (FirstSeen.ofList (parts.map canonicalForm)).map fun value =>
    { canonicalForm := value
      synonyms := FirstSeen.ofList
        ((parts.filter fun s => decide (s.canonicalForm = value)).flatMap synonyms) }

namespace Declaration

open FirstSeen

/-- Merging a sublist into sublists that are listed by their values. -/
lemma mergeSublist_map {values : List String} {synonyms : String → List String} {new : Sublist}
    (hvalues : values.Nodup) (hnew : new.synonyms.Nodup)
    (hnone : new.canonicalForm ∉ values → synonyms new.canonicalForm = []) :
    mergeSublist (values.map fun v => ⟨v, synonyms v⟩) new =
      (add values new.canonicalForm).map fun v =>
        ⟨v, addAll (synonyms v) (if new.canonicalForm = v then new.synonyms else [])⟩ := by
  induction values with
  | nil =>
      have hempty : synonyms new.canonicalForm = [] := hnone List.not_mem_nil
      have hsame : addAll [] new.synonyms = new.synonyms := ofList_eq_self hnew
      simp [mergeSublist, add, hempty, hsame]
  | cons v values ih =>
      obtain ⟨hv, hvalues⟩ := List.nodup_cons.mp hvalues
      rw [List.map_cons, mergeSublist]
      split_ifs with hform
      · replace hform : v = new.canonicalForm := hform
        -- The values behind it are others, and nothing is added to them.
        have hrest : (values.map fun w => (⟨w, synonyms w⟩ : Sublist)) = values.map fun w =>
            ⟨w, addAll (synonyms w) (if new.canonicalForm = w then new.synonyms else [])⟩ := by
          refine List.map_congr_left fun w hw => ?_
          have hne : new.canonicalForm ≠ w := by
            rintro rfl
            exact hv (hform ▸ hw)
          simp [hne, addAll]
        have hmem : new.canonicalForm ∈ v :: values := by simp [← hform]
        rw [add_eq_self hmem, List.map_cons, hrest, if_pos hform.symm]
      · have hne : new.canonicalForm ≠ v := fun heq => hform heq.symm
        rw [add_cons_of_ne hform, List.map_cons, if_neg hne, ih hvalues fun hnot => hnone ?_]
        · rfl
        · simpa [hne] using hnot

/-- **Merging parts into an empty list gathers them.** -/
lemma foldl_mergeSublist_nil {parts : List Sublist} (h : ∀ s ∈ parts, s.synonyms.Nodup) :
    parts.foldl mergeSublist [] = Sublist.gather parts := by
  induction parts using List.reverseRecOn with
  | nil => rfl
  | append_singleton parts s ih =>
      have hparts := ih fun t ht => h t (List.mem_append_left _ ht)
      rw [List.foldl_append, List.foldl_cons, List.foldl_nil, hparts, Sublist.gather,
        mergeSublist_map (nodup_ofList _) (h s (by simp)) ?_]
      · simp only [Sublist.gather, List.map_append, List.map_cons, List.map_nil, ofList_concat,
          List.filter_append, List.flatMap_append]
        refine List.map_congr_left fun v _ => ?_
        by_cases hv : s.canonicalForm = v
        · simp [hv, ofList, addAll_append]
        · simp [hv, addAll]
      · -- No part has a value that is not among the values of the parts.
        intro hnot
        have hnil : parts.filter (fun t => decide (t.canonicalForm = s.canonicalForm)) = [] := by
          simpa [List.filter_eq_nil_iff] using hnot
        rw [hnil]
        rfl

/-- Merging a sublist with one more synonym is merging the sublist and then the synonym. -/
lemma mergeSublist_add (subs : List Sublist) (value : String) (synonyms : List String)
    (x : String) : mergeSublist subs ⟨value, add synonyms x⟩ =
      mergeSublist (mergeSublist subs ⟨value, synonyms⟩) ⟨value, [x]⟩ := by
  induction subs with
  | nil => simp [mergeSublist, addAll]
  | cons s subs ih =>
      by_cases hform : s.canonicalForm = value
      · simp only [mergeSublist, hform, if_true, addAll_add]
        rfl
      · simp only [mergeSublist, hform, if_false, ih]

/-! ## The parts of a definition -/

/-- What each item of a definition gives: a value, or a synonym of the value opened last. -/
def ListItem.parts : (current : Option String) → List ListItem → List Sublist
  | _, [] => []
  | _, .value v :: items => { canonicalForm := v } :: parts (some v) items
  | current, .synonym x :: items => (current.map fun v => ⟨v, [x]⟩).toList ++ parts current items

/-- The items of a list, those that the form of its declaration gives first. -/
def listItems (d : Declaration) (given : List Sublist) : List ListItem :=
  given.map (fun s => .value s.canonicalForm) ++
    d.definitionLines.map fun line => ListItem.ofText line.text

namespace ListItem

/-- Items that do not start with a synonym. -/
def Grounded (items : List ListItem) : Prop :=
  ∀ x rest, items ≠ .synonym x :: rest

/-- **Items may be given at once or one declaration after the other.** -/
lemma parts_append {items : List ListItem} (hitems : Grounded items) :
    ∀ (before : List ListItem) (current : Option String),
      parts current (before ++ items) = parts current before ++ parts none items
  | [], current => by
      cases items with
      | nil => rfl
      | cons item items =>
          cases item with
          | value v => rfl
          | synonym x => exact absurd rfl (hitems x items)
  | .value v :: before, current => congrArg (_ :: ·) (parts_append hitems before (some v))
  | .synonym x :: before, current => by
      simp only [List.cons_append, parts, List.append_assoc, parts_append hitems before current]

lemma parts_flatten {itemss : List (List ListItem)} (h : ∀ items ∈ itemss, Grounded items) :
    parts none itemss.flatten = itemss.flatMap (parts none) := by
  induction itemss using List.reverseRecOn with
  | nil => rfl
  | append_singleton itemss items ih =>
      rw [List.flatten_append, List.flatten_singleton, parts_append (h items (by simp)),
        ih fun items' hmem => h items' (List.mem_append_left _ hmem), List.flatMap_append,
        List.flatMap_singleton]

lemma nodup_of_mem_parts {s : Sublist} :
    ∀ {items : List ListItem} {current : Option String}, s ∈ parts current items → s.synonyms.Nodup
  | [], _, h => absurd h List.not_mem_nil
  | .value v :: items, current, h => by
      rcases List.mem_cons.mp h with rfl | h
      · exact List.nodup_nil
      · exact nodup_of_mem_parts h
  | .synonym x :: items, current, h => by
      rcases List.mem_append.mp h with h | h
      · obtain ⟨v, -, rfl⟩ := Option.map_eq_some_iff.mp (Option.mem_toList.mp h)
        exact List.nodup_singleton x
      · exact nodup_of_mem_parts h

end ListItem

/-! ## The lines of a list -/

variable {d : Declaration} {given new : List Sublist}

/-- A synonym goes to the last sublist. -/
lemma addSynonym?_eq_some {x : String} {subs subs' : List Sublist}
    (h : addSynonym? x subs = some subs') :
    ∃ front s, subs = front ++ [s] ∧ subs' = front ++ [⟨s.canonicalForm, add s.synonyms x⟩] := by
  induction subs using addSynonym?.induct generalizing subs' with
  | case1 => cases h
  | case2 s =>
      cases h
      exact ⟨[], s, rfl, rfl⟩
  | case3 s t rest ih =>
      obtain ⟨rest', hrest, rfl⟩ := Option.map_eq_some_iff.mp h
      obtain ⟨front, last, hold, rfl⟩ := ih hrest
      exact ⟨s :: front, last, by simp [hold], rfl⟩

/-- The loop over the lines of a list: merging what it collects is merging what it starts with, and
then the parts of the lines. -/
lemma foldl_mergeSublist_lines {name : String} {lines : List BodyLine} (existing : List Sublist)
    (h : lines.foldlM (addListLine name) given = .ok new) :
    new.foldl mergeSublist existing =
      (ListItem.parts (given.map Sublist.canonicalForm).getLast?
        (lines.map fun line => ListItem.ofText line.text)).foldl mergeSublist
          (given.foldl mergeSublist existing) := by
  induction lines generalizing given with
  | nil =>
      cases h
      rfl
  | cons line lines ih =>
      rw [List.foldlM_cons] at h
      obtain ⟨subs, hline, h⟩ := bind_eq_ok_iff.mp h
      rw [ih h, List.map_cons]
      unfold addListLine at hline
      split at hline
      · next value hitem =>
        cases hline
        simp [hitem, ListItem.parts]
      · next x hitem =>
        split at hline
        · next subs' hsubs =>
          cases hline
          obtain ⟨front, s, rfl, rfl⟩ := addSynonym?_eq_some hsubs
          simp [hitem, ListItem.parts, mergeSublist_add]
        · cases hline

end Declaration

/-! ## Sections -/

namespace Section

open Declaration

variable {s : Section} {d : Declaration} {given new : List Sublist}

/-- The form of a declaration gives a list one value or none. -/
lemma Declares.given_cases (h : s.Declares d (.list given)) :
    given = [] ∨ ∃ v, given = [{ canonicalForm := v }] := by
  cases h with
  | newEntity h =>
      cases NewEntity.Reads.of_plan h
      exact .inl rfl
  | legacyEntity h =>
      cases LegacyEntity.Reads.of_plan h
      exact .inr ⟨_, rfl⟩

/-- **Declaring a list merges its parts.** -/
lemma Declares.foldl_mergeSublist (hd : s.Declares d (.list given))
    (h : d.sublists given = .ok new) (existing : List Sublist) :
    new.foldl mergeSublist existing =
      (ListItem.parts none (d.listItems given)).foldl mergeSublist existing := by
  rw [foldl_mergeSublist_lines existing h]
  obtain rfl | ⟨v, rfl⟩ := hd.given_cases <;> rfl

/-- The items of a list that is declared start with a value. -/
lemma Declares.grounded (hd : s.Declares d (.list given)) (h : d.sublists given = .ok new) :
    ListItem.Grounded (d.listItems given) := by
  intro x rest heq
  obtain rfl | ⟨v, rfl⟩ := hd.given_cases
  · obtain ⟨line, lines, hlines, hitem, -⟩ := List.map_eq_cons_iff.mp heq
    unfold sublists at h
    rw [hlines, List.foldlM_cons] at h
    obtain ⟨subs, hline, -⟩ := bind_eq_ok_iff.mp h
    simp [addListLine, hitem, addSynonym?] at hline
  · cases heq

/-- What a section declares. -/
def declared? : Section → Option (Declaration × Plan)
  | .newEntity e => e.plan.toOption.map fun plan => (e.declaration, plan)
  | .legacyEntity e => e.plan.toOption
  | _ => none

lemma declared?_eq_some_iff {plan : Plan} : s.declared? = some (d, plan) ↔ s.Declares d plan := by
  constructor
  · intro h
    cases s with
    | newEntity e =>
        obtain ⟨plan', hplan, heq⟩ := exists_ok_of_map_toOption h
        cases heq
        exact .newEntity hplan
    | legacyEntity e =>
        have hfound : e.plan.toOption.map id = some (d, plan) := by simpa [declared?] using h
        obtain ⟨found, hplan, rfl⟩ := exists_ok_of_map_toOption hfound
        exact .legacyEntity hplan
    | modelInfo | importLink | intent | question => cases h
  · intro h
    cases h with
    | newEntity h => simp [declared?, h, Except.toOption]
    | legacyEntity h => simp [declared?, h, Except.toOption]

/-- The items that a section gives to a list. -/
def listItems (name : String) (s : Section) : List ListItem :=
  match s.declared? with
  | some (d, .list given) => if d.name = name then d.listItems given else []
  | _ => []

/-- The parts that a section gives to a list: a synonym belongs to the value opened last in the same
section. -/
def listParts (name : String) (s : Section) : List Sublist :=
  ListItem.parts none (s.listItems name)

lemma Declares.listItems_eq (hd : s.Declares d (.list given)) (name : String) :
    s.listItems name = if d.name = name then d.listItems given else [] := by
  rw [listItems, declared?_eq_some_iff.mpr hd]

lemma listItems_eq_nil {name : String}
    (h : ∀ d given, s.Declares d (.list given) → d.name ≠ name) : s.listItems name = [] := by
  unfold listItems
  split
  · next d given hd => exact if_neg (h d given (declared?_eq_some_iff.mp hd))
  · rfl

end Section

end DialogModel
