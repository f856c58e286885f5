import Mathlib.Data.Nat.PSub
import DialogModel.Proofs.App.Index
import DialogModel.Proofs.App.Lines

/-!
# Lines with checked positions

Two operations on a line of an intent are not defined everywhere: the last position of a span is one
less than its end, and an utterance is looked up at the position that a table gives.  The functions
of this module carry out a line on an `IndexedApp` with both checked.  Their outcomes are in
`Checked`: a result, a failure, or nothing at all if an operation was outside its domain.

A line always has an outcome, and it is the one that `UtteranceLine.apply` has
(`UtteranceLine.applyChecked_simulates`).  The end of a span is positive since a line with an empty
span has been refused before, and the tables are exact.
-/

namespace DialogModel

open Entity Utterance

/-! ## Checked computations -/

/-- A computation that may fail, and that has no outcome if it leaves the domain of an operation. -/
abbrev Checked : Type → Type :=
  ExceptT Failure Option

namespace Checked

variable {α β γ δ : Type} {R : α → β → Prop} {S : γ → δ → Prop}

/-- A checked computation has an outcome, and it is the same failure as that of another or a result
in relation to that of the other. -/
def Simulates (R : α → β → Prop) (x : Checked α) (y : Except Failure β) : Prop :=
  (∃ failure, x.run = some (.error failure) ∧ y = .error failure) ∨
    ∃ a b, x.run = some (.ok a) ∧ y = .ok b ∧ R a b

namespace Simulates

lemma pure {a : α} {b : β} (h : R a b) : Simulates R (Pure.pure a) (.ok b) :=
  .inr ⟨a, b, rfl, rfl, h⟩

lemma throw (failure : Failure) : Simulates R (MonadExcept.throw failure) (.error failure) :=
  .inl ⟨failure, rfl, rfl⟩

/-- An operation inside its domain. -/
lemma ofOption {x : Option α} {a : α} {b : β} (hx : x = some a) (h : R a b) :
    Simulates R (liftM x) (.ok b) := by
  subst hx
  exact .inr ⟨a, b, rfl, rfl, h⟩

/-- A computation without such operations. -/
lemma ofExcept {y : Except Failure β} {R : β → β → Prop} (h : ∀ b, y = .ok b → R b b) :
    Simulates R (liftM y) y := by
  cases y with
  | error failure => exact .inl ⟨failure, rfl, rfl⟩
  | ok b => exact .inr ⟨b, b, rfl, rfl, h b rfl⟩

lemma bind {x : Checked α} {y : Except Failure β} {f : α → Checked γ} {g : β → Except Failure δ}
    (h : Simulates R x y) (hf : ∀ a b, R a b → Simulates S (f a) (g b)) :
    Simulates S (x >>= f) (y >>= g) := by
  rcases h with ⟨failure, hx, rfl⟩ | ⟨a, b, hx, rfl, hab⟩
  · refine .inl ⟨failure, ?_, rfl⟩
    rw [ExceptT.run_bind, hx]
    rfl
  · have hrun : (x >>= f).run = (f a).run := by
      rw [ExceptT.run_bind, hx]
      rfl
    unfold Simulates
    rw [hrun]
    exact hf a b hab

/-- Two loops whose rounds keep the relation. -/
lemma foldlM {ι : Type} {f : α → ι → Checked α} {g : β → ι → Except Failure β} {is : List ι}
    (hstep : ∀ i ∈ is, ∀ a b, R a b → Simulates R (f a i) (g b i)) {a : α} {b : β} (h : R a b) :
    Simulates R (is.foldlM f a) (is.foldlM g b) := by
  induction is generalizing a b with
  | nil => exact .pure h
  | cons i is ih =>
      obtain ⟨hi, his⟩ := List.forall_mem_cons.mp hstep
      rw [List.foldlM_cons, List.foldlM_cons]
      exact (hi a b h).bind fun _ _ hab => ih his hab

lemma run_eq {x : Checked α} {y : Except Failure α} (h : Simulates Eq x y) : x.run = some y := by
  rcases h with ⟨failure, hx, rfl⟩ | ⟨a, _, hx, rfl, rfl⟩
  · exact hx
  · exact hx

end Simulates

end Checked

open Checked

/-! ## Lines -/

/-- An indexed application with exact tables and the application that it is. -/
def IndexedApp.Shows (x : IndexedApp) (app : App) : Prop :=
  x.toApp = app ∧ x.Exact

namespace Labelling

/-- Adds a label to those of an utterance; its last position is checked. -/
def resolveTopChecked (prov : Provenance) (acc : App × List Label) (span : Span) :
    Checked (App × List Label) := do
  let (entity, role) := target acc.1.registry span.head
  let app ← registerLabel prov acc.1 entity role
  let endPos ← span.stop.ppred
  return (app, acc.2 ++ [{ entity, startPos := span.start, endPos, role }])

/-- Adds an utterance whose labels all have values. -/
def addLabelledChecked (prov : Provenance) (intent : String) (flat : Flat) (x : IndexedApp) :
    Checked IndexedApp := do
  match (flat.nested ++ flat.labels).find? Span.isEmpty with
  | some span => throw (prov.failure (Fault.missingValue span.head.entity))
  | none =>
    let app ← (flat.nested.foldlM (resolveNested prov) x.toApp : Except Failure App)
    let (app, labels) ← flat.labels.foldlM (resolveTopChecked prov) (app, [])
    IndexedApp.addUtterance? { x with toApp := app } { text := flat.text, intent, labels }

/-- Adds a line without values as a pattern. -/
def addPatternChecked (line : UtteranceLine) (intent : String) (x : IndexedApp) :
    Checked IndexedApp := do
  let (app, text) ← (line.nodes.foldlM (addPatternNode line.prov) (x.toApp, []) :
    Except Failure (App × List Char))
  let pattern := { pattern := String.ofList (Chars.trim text), intent }
  return (IndexedApp.addPattern { x with toApp := app.ensureIntent intent } pattern).2

end Labelling

open Labelling

/-- Adds a line of an intent. -/
def UtteranceLine.applyChecked (options : Options) (intent : String) (line : UtteranceLine)
    (x : IndexedApp) : Checked IndexedApp :=
  match flatten line.nodes options.allowNestedLabels with
  | .error fault => throw (line.prov.failure (Fault.misplaced fault))
  | .ok flat =>
    if flat.labels.isEmpty then x.addUtterance? { text := flat.text, intent }
    else if flat.labels.all (!·.hasValue) then addPatternChecked line intent x
    else if flat.labels.all (·.hasValue) then addLabelledChecked line.prov intent flat x
    else throw (line.prov.failure (Fault.mixed flat.text))

namespace Labelling

variable {prov : Provenance} {app app' : App}

/-- The utterances and the patterns of an application are those of another. -/
def SameTexts (app app' : App) : Prop :=
  app'.utterances = app.utterances ∧ app'.patterns = app.patterns

lemma registerLabel_sameTexts {base : App} {entity : String} {role : Option String}
    (hbase : SameTexts base app) (h : registerLabel prov app entity role = .ok app') :
    SameTexts base app' := by
  obtain ⟨registry, rfl⟩ := registerLabel_registry h
  exact hbase

lemma foldlM_addPatternNode_sameTexts {nodes : List Node} {text text' : List Char}
    (h : nodes.foldlM (addPatternNode prov) (app, text) = .ok (app', text')) :
    SameTexts app app' := by
  refine foldlM_ok_induction (fun acc : App × List Char => SameTexts app acc.1)
    (fun acc node acc' hacc hstep => ?_) ⟨rfl, rfl⟩ h
  unfold addPatternNode at hstep
  split at hstep
  · cases hstep
    exact hacc
  all_goals
    split_ifs at hstep
    · cases hstep
      exact hacc
    · obtain ⟨app₁, hreg, hstep⟩ := bind_eq_ok_iff.mp hstep
      cases hstep
      obtain ⟨-, rfl⟩ := declareAt_eq_ok_iff.mp hreg
      exact hacc

/-- **The last position of a span that is not empty is defined.** -/
lemma resolveTopChecked_simulates {base : App} {span : Span} (hspan : span.isEmpty = false)
    {acc acc' : App × List Label} (h : acc = acc' ∧ SameTexts base acc.1) :
    Simulates (fun acc acc' => acc = acc' ∧ SameTexts base acc.1)
      (resolveTopChecked prov acc span) (resolveTop prov acc' span) := by
  obtain ⟨rfl, htexts⟩ := h
  have hstop : span.stop.ppred = some (span.stop - 1) := by
    have := Span.start_lt_stop hspan
    rw [Nat.ppred_eq_some]
    omega
  refine .bind (R := fun app app' => app = app' ∧ SameTexts base app)
    (.ofExcept fun app hreg => ⟨rfl, registerLabel_sameTexts htexts hreg⟩) ?_
  rintro app _ ⟨rfl, happ⟩
  simp only [hstop]
  exact .pure ⟨rfl, happ⟩

variable {x : IndexedApp}

/-- Tables that are exact stay so in an application with the same texts. -/
lemma exact_of_sameTexts (h : x.Exact) (htexts : SameTexts x.toApp app) :
    IndexedApp.Exact { x with toApp := app } :=
  h.congr htexts.1 htexts.2

/-- **An utterance is looked up where there is one.** -/
lemma addUtterance_simulates (h : x.Shows app) (u : Example) :
    Simulates IndexedApp.Shows (liftM (x.addUtterance? u)) (.ok (app.addUtterance u)) := by
  obtain ⟨rfl, hexact⟩ := h
  obtain ⟨x', hx', hshows⟩ := hexact.addUtterance u
  exact .ofOption hx' hshows

lemma addLabelledChecked_simulates {intent : String} {flat : Flat} (h : x.Shows app) :
    Simulates IndexedApp.Shows (addLabelledChecked prov intent flat x)
      (addLabelled prov intent flat app) := by
  obtain ⟨rfl, hexact⟩ := h
  unfold addLabelledChecked addLabelled
  cases hfind : (flat.nested ++ flat.labels).find? Span.isEmpty with
  | some span => exact .throw _
  | none =>
      have hspans : ∀ span ∈ flat.labels, span.isEmpty = false := fun span hspan => by
        simpa using List.find?_eq_none.mp hfind span (List.mem_append_right _ hspan)
      refine .bind (R := fun app app' => app = app' ∧ SameTexts x.toApp app)
        (.ofExcept fun app hnested => ?_) ?_
      · obtain ⟨registry, unroled, rfl⟩ := foldlM_resolveNested hnested
        exact ⟨rfl, rfl, rfl⟩
      rintro app _ ⟨rfl, happ⟩
      refine .bind (.foldlM (fun span hspan acc acc' hacc =>
        resolveTopChecked_simulates (hspans span hspan) hacc) ⟨rfl, happ⟩) ?_
      rintro ⟨app, labels⟩ _ ⟨rfl, happ⟩
      exact addUtterance_simulates ⟨rfl, exact_of_sameTexts hexact happ⟩ _

lemma addPatternChecked_simulates {line : UtteranceLine} {intent : String} (h : x.Shows app) :
    Simulates IndexedApp.Shows (addPatternChecked line intent x) (addPattern line intent app) := by
  obtain ⟨rfl, hexact⟩ := h
  refine .bind (R := fun acc acc' => acc = acc' ∧ SameTexts x.toApp acc.1)
    (.ofExcept fun acc hnodes => ⟨rfl, foldlM_addPatternNode_sameTexts hnodes⟩) ?_
  rintro ⟨app, text⟩ _ ⟨rfl, happ⟩
  have htexts : SameTexts x.toApp (app.ensureIntent intent) := by
    unfold App.ensureIntent
    split <;> exact happ
  exact .pure ((exact_of_sameTexts hexact htexts).addPattern _).2

end Labelling

/-- **A line has an outcome, the one that the lists alone give**, and the tables stay exact. -/
lemma UtteranceLine.applyChecked_simulates {options : Options} {intent : String}
    {line : UtteranceLine} {x : IndexedApp} {app : App} (h : x.Shows app) :
    Simulates IndexedApp.Shows (line.applyChecked options intent x)
      (line.apply options intent app) := by
  unfold applyChecked apply
  cases flatten line.nodes options.allowNestedLabels with
  | error fault => exact .throw _
  | ok flat =>
      dsimp only
      split_ifs
      · exact addUtterance_simulates h _
      · exact addPatternChecked_simulates h
      · exact addLabelledChecked_simulates h
      · exact .throw _

end DialogModel
