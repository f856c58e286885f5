import Mathlib.Data.Finset.Insert
import Mathlib.Data.List.Induction
import DialogModel.Proofs.App.Image
import DialogModel.Proofs.App.Labels

/-!
# Finding utterances and patterns

An utterance is added to the one with the same text and intent, if there is one, and a pattern only
if it is new.  `App` looks through its lists for them.  `IndexedApp` keeps two tables beside the
lists: the position of each utterance by its text and intent, and the set of the patterns.  It
merges labels through the position that the table gives, whatever stands there, and has no result
if nothing does; an entry that is out of date would therefore be a failure or give the labels to
another utterance.

Neither happens.  From the empty application every sequence of operations has a result, which is
the application that the lists alone give, with tables that are exact (`tables_exact`).  The
invariant is `IndexedApp.Exact`: the table of positions is a function of the list of keys, and an
operation either leaves that list or appends the key that it enters into the table.
-/

namespace DialogModel

/-! ## Operations -/

/-- An operation by which texts and labels come into an application. -/
inductive App.Operation
  | ensureIntent (name : String)
  | addUtterance (u : Example)
  | addPattern (p : Pattern)
  | noteLabel (entity : String) (role : Option String)

namespace App

/-- Carries out an operation. -/
def Operation.apply (app : App) : Operation → App
  | .ensureIntent name => app.ensureIntent name
  | .addUtterance u => app.addUtterance u
  | .addPattern p => (app.addPattern p).2
  | .noteLabel entity role => app.noteLabel entity role

/-- Whether an operation labels an entity without a role. -/
def Operation.LabelsWithoutRole (entity : String) : Operation → Prop
  | .addUtterance u => ∃ l ∈ u.labels, l.role = none ∧ entity = l.entity
  | .noteLabel e role => role = none ∧ entity = e
  | _ => False

/-- The labels that an operation gives to the utterance with a text and an intent. -/
def Operation.labelsFor? (key : String × String) : Operation → Option (List Label)
  | .addUtterance u => if u.key = key then some u.labels else none
  | _ => none

/-- The application after a sequence of operations. -/
def after (ops : List Operation) : App :=
  ops.foldl Operation.apply {}

/-- The lists of labels that a sequence of operations gives to the utterance with a text and an
intent. -/
def labelsFor (key : String × String) (ops : List Operation) : List (List Label) :=
  ops.filterMap (Operation.labelsFor? key)

end App

/-- An application with tables for its utterances and patterns. -/
structure IndexedApp extends App where
  /-- The position of the utterance with a text and an intent. -/
  utteranceIndex : OrderedMap (String × String) Nat := ∅
  /-- The patterns of the application. -/
  patternIndex : Finset Pattern := ∅

namespace IndexedApp

open App

/-- Adds labels to the utterance at a position; there is no result if no utterance is there. -/
def mergeAt? (us : List Example) (k : Nat) (labels : List Label) : Option (List Example) :=
  us[k]?.map fun v => us.set k { v with labels := FirstSeen.addAll v.labels labels }

/-- Adds an utterance, or its labels to the utterance at the position in the table. -/
def addUtterance? (x : IndexedApp) (u : Example) : Option IndexedApp :=
  let noted := u.labels.foldl (fun app l => app.noteLabel l.entity l.role) x.toApp
  match x.utteranceIndex.get? u.key with
  | some k =>
    (mergeAt? x.utterances k u.labels).map fun utterances =>
      { x with toApp := { noted with utterances } }
  | none =>
    some { x with
      toApp := { noted with utterances := x.utterances ++ [u] }
      utteranceIndex := x.utteranceIndex.insert u.key x.utterances.length }

/-- Adds a pattern unless the table has it, and tells whether it is new. -/
def addPattern (x : IndexedApp) (p : Pattern) : Bool × IndexedApp :=
  if p ∈ x.patternIndex then (false, x)
  else
    (true, { x with
      toApp := { x.toApp with patterns := x.patterns ++ [p] }
      patternIndex := insert p x.patternIndex })

/-- Carries out an operation. -/
def perform? (x : IndexedApp) : Operation → Option IndexedApp
  | .ensureIntent name => some { x with toApp := x.toApp.ensureIntent name }
  | .addUtterance u => x.addUtterance? u
  | .addPattern p => some (x.addPattern p).2
  | .noteLabel entity role => some { x with toApp := x.toApp.noteLabel entity role }

/-- The indexed application after a sequence of operations. -/
def after? (ops : List Operation) : Option IndexedApp :=
  ops.foldlM perform? {}

end IndexedApp

/-! ## Merging by position -/

namespace App

/-- An utterance with the text and intent of none is appended. -/
lemma mergeExample_of_not_mem {u : Example} {us : List Example}
    (h : u.key ∉ us.map Example.key) : mergeExample u us = us ++ [u] := by
  induction us with
  | nil => rfl
  | cons v us ih =>
      rw [List.map_cons, List.mem_cons, not_or] at h
      have hne : ¬ (v.text = u.text ∧ v.intent = u.intent) :=
        fun hsame => h.1 (Example.key_eq_iff.mpr hsame).symm
      rw [mergeExample, if_neg hne, ih h.2, List.cons_append]

/-- An utterance with the text and intent of the one at a position is merged there, if no other has
them. -/
lemma mergeExample_of_getElem? {u v : Example} {us : List Example} {k : Nat}
    (hkeys : (us.map Example.key).Nodup) (hk : us[k]? = some v) (hkey : v.key = u.key) :
    mergeExample u us =
      us.set k { v with labels := FirstSeen.addAll v.labels u.labels } := by
  induction us generalizing k with
  | nil => simp at hk
  | cons w us ih =>
      obtain ⟨hnew, hrest⟩ := List.nodup_cons.mp hkeys
      cases k with
      | zero =>
          obtain rfl : w = v := by simpa using hk
          rw [mergeExample, if_pos (Example.key_eq_iff.mp hkey), List.set_cons_zero]
      | succ k =>
          rw [List.getElem?_cons_succ] at hk
          have hne : ¬ (w.text = u.text ∧ w.intent = u.intent) := by
            rw [← Example.key_eq_iff]
            intro hsame
            refine hnew ?_
            rw [hsame, ← hkey]
            exact List.mem_map_of_mem (List.mem_of_getElem? hk)
          rw [mergeExample, if_neg hne, ih hrest hk, List.set_cons_succ]

lemma utterances_addUtterance (app : App) (u : Example) :
    (app.addUtterance u).utterances = mergeExample u app.utterances :=
  rfl

end App

/-! ## The tables -/

namespace IndexedApp

open App

/-- The tables say what the lists say. -/
structure Exact (x : IndexedApp) : Prop where
  positions : ∀ key k, x.utteranceIndex.get? key = some k ↔
    (x.utterances.map Example.key)[k]? = some key
  patterns : ∀ p, p ∈ x.patternIndex ↔ p ∈ x.patterns
  patterns_nodup : x.patterns.Nodup

lemma exact_empty : ({} : IndexedApp).Exact where
  positions key k := by simp
  patterns p := by simp
  patterns_nodup := List.nodup_nil

namespace Exact

variable {x : IndexedApp}

/-- No two utterances have the same text and intent: the table can give only one position. -/
lemma keys_nodup (h : x.Exact) : (x.utterances.map Example.key).Nodup := by
  rw [List.nodup_iff_getElem?_ne_getElem?]
  intro i j hij hj heq
  have hkey := List.getElem?_eq_getElem hj
  have hfirst := (h.positions _ _).mpr (heq.trans hkey)
  have hsecond := (h.positions _ _).mpr hkey
  have : i = j := Option.some.inj (hfirst.symm.trans hsecond)
  omega

lemma get?_eq_none_iff (h : x.Exact) {key : String × String} :
    x.utteranceIndex.get? key = none ↔ key ∉ x.utterances.map Example.key := by
  rw [Option.eq_none_iff_forall_ne_some, List.mem_iff_getElem?, not_exists]
  exact forall_congr' fun k => not_congr (h.positions key k)

/-- A change of the application that leaves its utterances and patterns. -/
lemma congr (h : x.Exact) {app : App} (hutterances : app.utterances = x.utterances)
    (hpatterns : app.patterns = x.patterns) : Exact { x with toApp := app } where
  positions := hutterances ▸ h.positions
  patterns := hpatterns ▸ h.patterns
  patterns_nodup := hpatterns ▸ h.patterns_nodup

/-- **An utterance is added where the lists alone would add it**, and the tables stay exact. -/
lemma addUtterance (h : x.Exact) (u : Example) :
    ∃ x', x.addUtterance? u = some x' ∧ x'.toApp = x.toApp.addUtterance u ∧ x'.Exact := by
  obtain ⟨unroled, hadd⟩ := addUtterance_eq x.toApp u
  have hpatterns : (x.toApp.addUtterance u).patterns = x.patterns := by rw [hadd]
  have hkeys := map_key_mergeExample u x.utterances
  cases hget : x.utteranceIndex.get? u.key with
  | some k =>
      -- The table has a position, and the utterance there has the key.
      have hat := (h.positions _ _).mp hget
      obtain ⟨v, hv, hkey⟩ : ∃ v, x.utterances[k]? = some v ∧ v.key = u.key := by
        simpa [List.getElem?_map] using hat
      have hmerge := mergeExample_of_getElem? h.keys_nodup hv hkey
      refine ⟨{ x with toApp := x.toApp.addUtterance u }, ?_, rfl, ?_⟩
      · rw [addUtterance?, hget]
        simp only [mergeAt?, hv, Option.map_some, ← hmerge]
        rfl
      · have hsame : (x.toApp.addUtterance u).utterances.map Example.key =
            x.utterances.map Example.key := by
          rw [utterances_addUtterance, hkeys, FirstSeen.add, if_pos (List.mem_of_getElem? hat)]
        refine ⟨fun key j => ?_, hpatterns ▸ h.patterns, hpatterns ▸ h.patterns_nodup⟩
        show _ ↔ ((x.toApp.addUtterance u).utterances.map Example.key)[j]? = some key
        rw [hsame]
        exact h.positions key j
  | none =>
      have hnew := h.get?_eq_none_iff.mp hget
      have hmerge := mergeExample_of_not_mem hnew
      refine ⟨{ x with
          toApp := x.toApp.addUtterance u
          utteranceIndex := x.utteranceIndex.insert u.key x.utterances.length }, ?_, rfl, ?_⟩
      · rw [addUtterance?, hget]
        simp only [← hmerge]
        rfl
      · refine ⟨fun key j => ?_, hpatterns ▸ h.patterns, hpatterns ▸ h.patterns_nodup⟩
        show _ ↔ ((x.toApp.addUtterance u).utterances.map Example.key)[j]? = some key
        rw [utterances_addUtterance, hmerge, List.map_append, OrderedMap.get?_insert]
        have hlength : (x.utterances.map Example.key).length = x.utterances.length := by simp
        have hold := h.positions key j
        have hin : u.key = key → (x.utterances.map Example.key)[j]? ≠ some key := by
          rintro rfl hj
          exact hnew (List.mem_of_getElem? hj)
        grind

/-- A pattern is new to the table if it is new to the list, and the tables stay exact. -/
lemma addPattern (h : x.Exact) (p : Pattern) :
    (x.addPattern p).1 = (x.toApp.addPattern p).1 ∧
      (x.addPattern p).2.toApp = (x.toApp.addPattern p).2 ∧ (x.addPattern p).2.Exact := by
  unfold IndexedApp.addPattern App.addPattern
  simp only [h.patterns p]
  split_ifs with hp
  · exact ⟨rfl, rfl, h⟩
  · refine ⟨rfl, rfl, h.positions, fun q => ?_, ?_⟩
    · simp [h.patterns q, or_comm]
    · rw [List.nodup_append]
      refine ⟨h.patterns_nodup, List.nodup_singleton p, fun a ha b hb hab => hp ?_⟩
      rwa [← List.mem_singleton.mp hb, ← hab]

/-- An operation has a result, which is that of the lists alone with tables that are exact. -/
lemma perform (h : x.Exact) (op : Operation) :
    ∃ x', x.perform? op = some x' ∧ x'.toApp = op.apply x.toApp ∧ x'.Exact := by
  cases op with
  | ensureIntent name =>
      refine ⟨_, rfl, rfl, h.congr ?_ ?_⟩ <;>
        · unfold App.ensureIntent
          split <;> rfl
  | addUtterance u => exact h.addUtterance u
  | addPattern p => exact ⟨_, rfl, (h.addPattern p).2⟩
  | noteLabel entity role =>
      obtain ⟨unroled, hnote⟩ := noteLabel_eq x.toApp entity role
      exact ⟨_, rfl, rfl, h.congr (by rw [hnote]) (by rw [hnote])⟩

end Exact

/-- **Every sequence of operations has a result**, the one of the lists alone with exact tables. -/
lemma exists_after? (ops : List Operation) :
    ∃ x, after? ops = some x ∧ x.toApp = App.after ops ∧ x.Exact := by
  induction ops using List.reverseRecOn with
  | nil => exact ⟨{}, rfl, rfl, exact_empty⟩
  | append_singleton ops op ih =>
      obtain ⟨x, hx, happ, hexact⟩ := ih
      obtain ⟨x', hx', happ', hexact'⟩ := hexact.perform op
      refine ⟨x', ?_, ?_, hexact'⟩
      · rw [after?] at hx
        rw [after?, List.foldlM_append, hx]
        simpa using hx'
      · rw [happ', happ, App.after, App.after, List.foldl_append, List.foldl_cons, List.foldl_nil]

end IndexedApp

/-! ## What the operations have left -/

namespace App

lemma after_concat (ops : List Operation) (op : Operation) :
    after (ops ++ [op]) = op.apply (after ops) := by
  rw [after, List.foldl_append, List.foldl_cons, List.foldl_nil, after]

lemma labelsFor_concat (key : String × String) (ops : List Operation) (op : Operation) :
    labelsFor key (ops ++ [op]) = labelsFor key ops ++ (op.labelsFor? key).toList := by
  rw [labelsFor, List.filterMap_append, labelsFor]
  cases h : op.labelsFor? key <;> simp [h]

/-- Only the adding of an utterance changes the utterances and gives labels to them. -/
lemma Operation.utterances_apply (app : App) (op : Operation) :
    (∃ u, op = .addUtterance u) ∨
      (op.apply app).utterances = app.utterances ∧ ∀ key, op.labelsFor? key = none := by
  cases op with
  | ensureIntent name =>
      refine .inr ⟨?_, fun _ => rfl⟩
      show (app.ensureIntent name).utterances = app.utterances
      unfold App.ensureIntent
      split <;> rfl
  | addUtterance u => exact .inl ⟨u, rfl⟩
  | addPattern p =>
      refine .inr ⟨?_, fun _ => rfl⟩
      show (app.addPattern p).2.utterances = app.utterances
      rw [addPattern_eq]
  | noteLabel entity role =>
      refine .inr ⟨?_, fun _ => rfl⟩
      obtain ⟨unroled, hnote⟩ := noteLabel_eq app entity role
      show (app.noteLabel entity role).utterances = app.utterances
      rw [hnote]

lemma nodup_keys_after (ops : List Operation) :
    ((after ops).utterances.map Example.key).Nodup := by
  obtain ⟨x, -, happ, hexact⟩ := IndexedApp.exists_after? ops
  exact happ ▸ hexact.keys_nodup

/-- There is an utterance for a text and an intent exactly if one has been added. -/
lemma mem_keys_after {ops : List Operation} {key : String × String} :
    key ∈ (after ops).utterances.map Example.key ↔ labelsFor key ops ≠ [] := by
  induction ops using List.reverseRecOn with
  | nil => simp [after, labelsFor]
  | append_singleton ops op ih =>
      rw [after_concat, labelsFor_concat]
      rcases op.utterances_apply (after ops) with ⟨u, rfl⟩ | ⟨hsame, hnone⟩
      · show key ∈ (mergeExample u (after ops).utterances).map Example.key ↔ _
        rw [map_key_mergeExample, FirstSeen.mem_add, ih]
        by_cases hkey : u.key = key
        · simp [Operation.labelsFor?, hkey]
        · simp [Operation.labelsFor?, hkey, Ne.symm hkey]
      · rw [hsame, hnone, ih]
        simp

/-- An utterance has the labels of the first operation that added it as they were given, and of the
later ones those that it did not have. -/
lemma labels_after {ops : List Operation} {v : Example} (hv : v ∈ (after ops).utterances) :
    ∃ first later, labelsFor v.key ops = first :: later ∧
      v.labels = FirstSeen.addAll first later.flatten := by
  induction ops using List.reverseRecOn generalizing v with
  | nil => simp [after] at hv
  | append_singleton ops op ih =>
      rw [labelsFor_concat]
      rw [after_concat] at hv
      rcases op.utterances_apply (after ops) with ⟨u, rfl⟩ | ⟨hsame, hnone⟩
      · rcases mem_mergeExample (nodup_keys_after ops) hv with
          ⟨hold, hne⟩ | ⟨w, hw, hkey, rfl⟩ | ⟨hnew, rfl⟩
        · simpa [Operation.labelsFor?, Ne.symm hne] using ih hold
        · obtain ⟨first, later, hgiven, hlabels⟩ := ih hw
          refine ⟨first, later ++ [u.labels], ?_, ?_⟩
          · show labelsFor w.key ops ++ (Operation.labelsFor? w.key (.addUtterance u)).toList = _
            rw [hgiven, Operation.labelsFor?, if_pos hkey.symm, Option.toList_some,
              List.cons_append]
          · rw [List.flatten_append, FirstSeen.addAll_append, ← hlabels]
            simp
        · have hnone : labelsFor v.key ops = [] := not_not.mp (mem_keys_after.not.mp hnew)
          exact ⟨v.labels, [], by simp [hnone, Operation.labelsFor?], by simp [FirstSeen.addAll]⟩
      · rw [hnone, Option.toList_none, List.append_nil]
        exact ih (hsame ▸ hv)

/-- Every label of an utterance that has been added is there. -/
lemma exists_labels_after {ops : List Operation} {u : Example} (hu : .addUtterance u ∈ ops) :
    ∃ v ∈ (after ops).utterances, v.key = u.key ∧ ∀ l ∈ u.labels, l ∈ v.labels := by
  have hgiven : u.labels ∈ labelsFor u.key ops := List.mem_filterMap.mpr ⟨_, hu, if_pos rfl⟩
  obtain ⟨v, hv, hkey⟩ := List.mem_map.mp (mem_keys_after.mpr (List.ne_nil_of_mem hgiven))
  obtain ⟨first, later, hlists, hlabels⟩ := labels_after hv
  refine ⟨v, hv, hkey, fun l hl => ?_⟩
  rw [hlabels, FirstSeen.mem_addAll]
  rw [← hkey, hlists] at hgiven
  rcases List.mem_cons.mp hgiven with hfirst | hlater
  · exact .inl (hfirst ▸ hl)
  · exact .inr (List.mem_flatten.mpr ⟨_, hlater, hl⟩)

lemma mem_patterns_after {ops : List Operation} {p : Pattern} :
    p ∈ (after ops).patterns ↔ .addPattern p ∈ ops := by
  induction ops using List.reverseRecOn with
  | nil => simp [after]
  | append_singleton ops op ih =>
      rw [after_concat, List.mem_append, ← ih, List.mem_singleton]
      cases op with
      | ensureIntent name =>
          show p ∈ ((after ops).ensureIntent name).patterns ↔ _
          unfold ensureIntent
          split <;> simp
      | addUtterance u =>
          obtain ⟨unroled, hadd⟩ := addUtterance_eq (after ops) u
          show p ∈ ((after ops).addUtterance u).patterns ↔ _
          simp [hadd]
      | addPattern q =>
          show p ∈ ((after ops).addPattern q).2.patterns ↔ _
          simp [addPattern_eq]
      | noteLabel entity role =>
          obtain ⟨unroled, hnote⟩ := noteLabel_eq (after ops) entity role
          show p ∈ ((after ops).noteLabel entity role).patterns ↔ _
          simp [hnote]

lemma mem_unroled_after {ops : List Operation} {entity : String} :
    entity ∈ (after ops).unroled ↔ ∃ op ∈ ops, op.LabelsWithoutRole entity := by
  induction ops using List.reverseRecOn with
  | nil => simp [after]
  | append_singleton ops op ih =>
      simp only [after_concat, List.mem_append, List.mem_singleton, or_and_right, exists_or,
        exists_eq_left, ← ih]
      cases op with
      | ensureIntent name =>
          show entity ∈ ((after ops).ensureIntent name).unroled ↔ _ ∨ False
          unfold ensureIntent
          split <;> simp
      | addUtterance u => exact mem_unroled_addUtterance
      | addPattern p =>
          show entity ∈ ((after ops).addPattern p).2.unroled ↔ _ ∨ False
          simp [addPattern_eq]
      | noteLabel e role => exact mem_unroled_noteLabel

end App

/-! ## The tables and the operations -/

namespace IndexedApp

open App

/-- What an indexed application shows of the operations that led to it. -/
structure Reflects (x : IndexedApp) (ops : List Operation) : Prop where
  /-- The table gives a position exactly if the utterance with that text and intent is there. -/
  positions : ∀ text intent k, x.utteranceIndex.get? (text, intent) = some k ↔
    ∃ u, x.utterances[k]? = some u ∧ u.text = text ∧ u.intent = intent
  /-- No two utterances have the same text and intent. -/
  keys_nodup : (x.utterances.map fun u => (u.text, u.intent)).Nodup
  /-- The set has the patterns of the list, which are different from each other. -/
  patterns : ∀ p, p ∈ x.patternIndex ↔ p ∈ x.patterns
  patterns_nodup : x.patterns.Nodup
  /-- A pattern is reported as new exactly if it has not been added before. -/
  new_pattern : ∀ p, (x.addPattern p).1 = true ↔ .addPattern p ∉ ops
  /-- Every label of an utterance that has been added is there. -/
  labels : ∀ u, .addUtterance u ∈ ops →
    ∃ v ∈ x.utterances, v.text = u.text ∧ v.intent = u.intent ∧ ∀ l ∈ u.labels, l ∈ v.labels
  /-- An utterance has the labels of its first operation as they were given; those that later ones
  add stand behind them, none of them twice and none that was there. -/
  added : ∀ v ∈ x.utterances, ∃ first later new, labelsFor v.key ops = first :: later ∧
    v.labels = first ++ new ∧ new.Nodup ∧ ∀ l, l ∈ new ↔ l ∉ first ∧ l ∈ later.flatten
  /-- The entities labelled without a role are those that an operation labels so. -/
  unroled : ∀ entity, x.isLabelledWithoutRole entity = true ↔
    ∃ op ∈ ops, op.LabelsWithoutRole entity

/-- **The tables are exact.**  Every sequence of operations from the empty application has a result
with tables, which is the application that the lists alone give, and which reflects the
operations. -/
theorem tables_exact (ops : List Operation) :
    ∃ x, after? ops = some x ∧ x.toApp = App.after ops ∧ x.Reflects ops := by
  obtain ⟨x, hx, happ, hexact⟩ := exists_after? ops
  have hutterances : x.utterances = (App.after ops).utterances := by rw [happ]
  refine ⟨x, hx, happ, ?_⟩
  constructor
  case positions =>
    intro text intent k
    rw [hexact.positions, List.getElem?_map, Option.map_eq_some_iff]
    exact exists_congr fun u => and_congr_right fun _ => Prod.mk_inj
  case keys_nodup => exact hexact.keys_nodup
  case patterns => exact hexact.patterns
  case patterns_nodup => exact hexact.patterns_nodup
  case new_pattern =>
    intro p
    have hmem : p ∈ x.patterns ↔ .addPattern p ∈ ops := by
      rw [happ]
      exact mem_patterns_after
    rw [IndexedApp.addPattern, ← hmem, ← hexact.patterns p]
    split_ifs <;> simp_all
  case labels =>
    intro u hu
    obtain ⟨v, hv, hkey, hlabels⟩ := exists_labels_after hu
    obtain ⟨htext, hintent⟩ := Example.key_eq_iff.mp hkey
    exact ⟨v, hutterances ▸ hv, htext, hintent, hlabels⟩
  case added =>
    intro v hv
    obtain ⟨first, later, hlists, hlabels⟩ := labels_after (hutterances ▸ hv)
    obtain ⟨new, heq, hnodup, hmem⟩ := FirstSeen.exists_addAll_eq_append first later.flatten
    exact ⟨first, later, new, hlists, hlabels.trans heq, hnodup, hmem⟩
  case unroled =>
    intro entity
    rw [isLabelledWithoutRole, decide_eq_true_iff, happ]
    exact mem_unroled_after

/-- The labels of an utterance that comes back after another are merged at its own position. -/
example :
    (after? [
        .addUtterance ⟨"hi", "greet", [⟨"a", 0, 1, none⟩, ⟨"a", 0, 1, none⟩]⟩,
        .addUtterance ⟨"hi", "part", []⟩,
        .addUtterance ⟨"hi", "greet", [⟨"b", 0, 1, none⟩, ⟨"a", 0, 1, none⟩]⟩]).map
      (fun x => (x.utterances, x.utteranceIndex.toList)) =
    some ([⟨"hi", "greet", [⟨"a", 0, 1, none⟩, ⟨"a", 0, 1, none⟩, ⟨"b", 0, 1, none⟩]⟩,
        ⟨"hi", "part", []⟩],
      [(("hi", "greet"), 0), (("hi", "part"), 1)]) := by
  decide

end IndexedApp

end DialogModel
