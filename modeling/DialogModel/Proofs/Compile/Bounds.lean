import DialogModel.Proofs.App.Positions
import DialogModel.Proofs.Compile.Image
import DialogModel.Proofs.Declaration.Slices
import DialogModel.Proofs.Utterance.Descent

/-!
# Operations inside their domains

A compilation uses operations that are not defined everywhere: characters and parts are taken by
their position, texts are cut at positions in bytes, one is subtracted from the end of a span, and
utterances are looked up at positions that a table gives.  `operations_defined` says that none of
them is ever used outside its domain.  For each of them there is a function that has no result in
that case, and the function always has the result that the library gives.

Those that only read a text are about every text.  The two that depend on what has been compiled so
far, the subtraction and the table, are checked all along a compilation (`compileChecked`).
-/

namespace DialogModel

open Entity Checked

/-! ## Words and parts -/

/-- Takes a flag that is a word of its own; what is behind its parenthesis is cut off at a position
in bytes. -/
def Entity.Header.takeFlagAt? (words : List (List Char)) :
    Option (Except HeaderFault (Bool × List (List Char))) :=
  match words with
  | [] => some (.ok (false, []))
  | first :: rest =>
    if first.head? = some '(' then do
      let (_, flag) ← Text.cutAtByte? (String.ofList first) 1
      some ((readFlag flag.toList).map fun _ => (true, rest))
    else some (.ok (false, first :: rest))

/-- A parenthesis is one byte. -/
lemma Entity.Header.takeFlagAt?_eq (words : List (List Char)) :
    takeFlagAt? words = some (takeFlag words) := by
  cases words with
  | nil => rfl
  | cons first rest =>
      rw [takeFlagAt?]
      split_ifs with hhead
      · obtain ⟨flag, rfl⟩ := List.head?_eq_some_iff.mp hhead
        have hcut := Text.cutAtByte?_of_toList
          (show (String.ofList ('(' :: flag)).toList = ['('] ++ flag by simp)
        rw [show String.utf8Len ['('] = 1 from rfl] at hcut
        simp only [hcut, Option.bind_eq_bind, Option.bind_some, String.toList_ofList]
        rfl
      · have htake : takeFlag (first :: rest) = .ok (false, first :: rest) := by
          unfold takeFlag
          split
          · next heq =>
            obtain ⟨rfl, rfl⟩ := List.cons.inj heq
            exact absurd rfl hhead
          · rfl
        rw [htake]

/-- Reads a value of six parts between colons, of which the second, the fourth and the sixth are
taken by position. -/
def Directive.readInheritsAt? (value : List Char) : Option (Option (String × Inherits)) := do
  let parts := (value.splitOn ':').map Chars.trim
  if parts.length ≠ 6 then some none
  else
    let name ← parts[1]?
    if name.isEmpty then some none
    else
      let domain ← parts[3]?
      let model ← parts[5]?
      some (some (String.ofList name, ⟨String.ofList domain, String.ofList model⟩))

lemma Directive.readInheritsAt?_eq (value : List Char) :
    readInheritsAt? value = some (readInherits? value) := by
  unfold readInheritsAt? readInherits?
  generalize (value.splitOn ':').map Chars.trim = parts
  split
  · next name _ domain _ model =>
    by_cases hname : name = []
    · simp [hname]
    · simp [hname]
  · next hparts =>
    have hlength : parts.length ≠ 6 := by
      intro hlength
      match parts, hlength with
      | [a, name, b, domain, c, model], _ => exact hparts a name b domain c model rfl
    simp [hlength]

/-! ## Sections -/

/-- A model whose application has tables. -/
structure IndexedModel where
  app : IndexedApp := {}
  kb : KnowledgeBase := {}
  additionalFiles : List String := []

namespace IndexedModel

/-- The model without the tables. -/
def toModel (x : IndexedModel) : Model :=
  { app := x.app.toApp, kb := x.kb, additionalFiles := x.additionalFiles }

/-- The model in place of another, with the tables of that. -/
def replace (x : IndexedModel) (m : Model) : IndexedModel :=
  { app := { x.app with toApp := m.app }, kb := m.kb, additionalFiles := m.additionalFiles }

/-- A model with exact tables and the model that it is. -/
def Shows (x : IndexedModel) (m : Model) : Prop :=
  x.toModel = m ∧ x.app.Exact

end IndexedModel

/-- Carries out a section.  Only intents add utterances and patterns; every other section leaves the
tables. -/
def Section.applyChecked (ctx : Context) (x : IndexedModel) : Section → Checked IndexedModel
  | .intent s => do
    let start := { x.app with toApp := x.app.toApp.ensureIntent s.name }
    let app ← s.utterances.foldlM (fun app line => line.applyChecked ctx.options s.name app) start
    return { x with app }
  | s => do
    let m ← s.apply ctx x.toModel
    return x.replace m

/-- A section that is no intent leaves exact tables exact. -/
lemma IndexedModel.replace_simulates {ctx : Context} {s : Section} {x : IndexedModel}
    (hs : s.intent? = none) (h : x.app.Exact) :
    Simulates IndexedModel.Shows
      (do
        let m ← s.apply ctx x.toModel
        return x.replace m)
      (s.apply ctx x.toModel) := by
  cases hm : s.apply ctx x.toModel with
  | error failure => exact .inl ⟨failure, rfl, rfl⟩
  | ok m =>
      obtain ⟨hutterances, hpatterns⟩ := Section.apply_texts hs hm
      exact .inr ⟨x.replace m, m, rfl, rfl, rfl, h.congr hutterances hpatterns⟩

/-- **A section has an outcome, the one without tables**, and the tables stay exact. -/
lemma Section.applyChecked_simulates {ctx : Context} {s : Section} {x : IndexedModel} {m : Model}
    (h : x.Shows m) :
    Simulates IndexedModel.Shows (s.applyChecked ctx x) (s.apply ctx m) := by
  obtain ⟨rfl, hexact⟩ := h
  cases s with
  | intent s =>
      have hstart : IndexedApp.Shows { x.app with toApp := x.app.toApp.ensureIntent s.name }
          (x.app.toApp.ensureIntent s.name) := by
        refine ⟨rfl, hexact.congr ?_ ?_⟩ <;> (unfold App.ensureIntent; split <;> rfl)
      have hlines : Simulates IndexedApp.Shows
          (s.utterances.foldlM (fun app line => line.applyChecked ctx.options s.name app)
            { x.app with toApp := x.app.toApp.ensureIntent s.name })
          (s.utterances.foldlM (fun app line => line.apply ctx.options s.name app)
            (x.app.toApp.ensureIntent s.name)) := by
        refine .foldlM (fun line _ app app' happ => ?_) hstart
        exact UtteranceLine.applyChecked_simulates happ
      refine hlines.bind ?_
      rintro app _ ⟨rfl, happ⟩
      exact .pure ⟨rfl, happ⟩
  | modelInfo s | importLink s | newEntity s | legacyEntity s | question s =>
      exact IndexedModel.replace_simulates rfl hexact

namespace Compile

/-- Runs a pass over a document. -/
def runPassChecked (ctx : Context) (sections : List Section) (x : IndexedModel) (pass : Pass) :
    Checked IndexedModel :=
  (sectionsOf pass sections).foldlM (Section.applyChecked ctx) x

/-- Compiles the sections of a document. -/
def runPassesChecked (options : Options) (probe : Probe) (sections : List Section) :
    Checked (Context × IndexedModel) := do
  let x ← runPassChecked (contextAfter options probe {}) sections {} .directives
  let ctx := contextAfter options probe x.toModel
  let x ← runPassChecked ctx sections x .imports
  let x ← runPassChecked ctx sections x .entities
  let x ← runPassChecked ctx sections x .questions
  return (ctx, x)

/-- Compiles the text of a file. -/
def compileChecked (file source : String) (options : Options) (probe : Probe) :
    Checked Compilation :=
  let doc := Document.read file source
  if doc.hasErrors then throw (Failure.ofDiagnostics file doc.errors)
  else do
    let (ctx, x) ← runPassesChecked options probe doc.sections
    return { model := x.toModel, warnings := doc.warnings ++ passWarnings ctx doc.sections }

lemma runPassChecked_simulates (ctx : Context) (sections : List Section) (pass : Pass)
    {x : IndexedModel} {m : Model} (h : x.Shows m) :
    Simulates IndexedModel.Shows (runPassChecked ctx sections x pass)
      (runPass ctx sections m pass) := by
  refine .foldlM (fun s _ x m h => ?_) h
  exact Section.applyChecked_simulates h

lemma runPassesChecked_simulates (options : Options) (probe : Probe) (sections : List Section) :
    Simulates (fun p q => p.1 = q.1 ∧ p.2.Shows q.2) (runPassesChecked options probe sections)
      (runPasses options probe sections) := by
  have hempty : IndexedModel.Shows {} {} := ⟨rfl, IndexedApp.exact_empty⟩
  refine (runPassChecked_simulates _ sections .directives hempty).bind ?_
  rintro x _ ⟨rfl, hx⟩
  refine (runPassChecked_simulates _ sections .imports ⟨rfl, hx⟩).bind fun x m hx => ?_
  refine (runPassChecked_simulates _ sections .entities hx).bind fun x m hx => ?_
  refine (runPassChecked_simulates _ sections .questions hx).bind fun x m hx => ?_
  exact .pure ⟨rfl, hx⟩

/-- **A compilation has an outcome, the one without tables.** -/
lemma compileChecked_simulates (file source : String) (options : Options) (probe : Probe) :
    Simulates Eq (compileChecked file source options probe)
      (compile file source options probe) := by
  simp only [compileChecked, compile]
  split_ifs
  · exact .throw _
  · refine (runPassesChecked_simulates options probe _).bind ?_
    rintro ⟨ctx, x⟩ ⟨_, _⟩ ⟨rfl, rfl, -⟩
    exact .pure rfl

/-- **No operation is used outside its domain.**  Whatever the text: an utterance is read by
position without leaving the text and with a closing brace behind every value; a flag is cut off behind its
parenthesis; the parts of a value are there; and a clause of roles is found in the copy in small
letters at positions of the definition itself.  Whatever the source, the options and the probe: a
compilation that checks the end of every span and every position of an utterance has the outcome of
the library. -/
theorem operations_defined (file source : String) (options : Options) (probe : Probe) :
    (∀ text, Utterance.readAt? text = some (Utterance.read text)) ∧
    (∀ words, Header.takeFlagAt? words = some (Header.takeFlag words)) ∧
    (∀ value, Directive.readInheritsAt? value = some (Directive.readInherits? value)) ∧
    (∀ s p, String.Pos.Raw.IsValid (Text.lower s) p ↔ String.Pos.Raw.IsValid s p) ∧
    (∀ s, LegacyEntity.splitRolesAt? s = some (LegacyEntity.splitRoles s.toList)) ∧
    (compileChecked file source options probe).run =
      some (compile file source options probe) := by
  refine ⟨Utterance.readAt?_eq, Header.takeFlagAt?_eq, Directive.readInheritsAt?_eq,
    fun _ _ => Text.isValid_lower_iff, LegacyEntity.splitRolesAt?_eq, ?_⟩
  exact (compileChecked_simulates file source options probe).run_eq

end Compile

end DialogModel
