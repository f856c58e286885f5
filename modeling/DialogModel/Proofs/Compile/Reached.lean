import Mathlib.Data.List.Basic
import DialogModel.Compile
import DialogModel.Proofs.Outcome

/-!
# The states of a compilation

A compilation is a loop over the sections of each pass, one pass after the other.  `Reached` gives
its states between two sections: the pass, the sections of the pass that are left, the circumstances
and the model so far.  A run that fails later has reached the states before its failure all the
same.

`runPasses_eq_of_reached` and `reached_of_runPasses` tie the relation to the program: a compilation
goes on from every state that it reaches, and what it returns is the last of them.
`Reached.induction` is the principle behind every invariant of a compilation.
-/

namespace DialogModel.Compile

/-- A compilation between two sections. -/
structure Progress where
  pass : Pass
  /-- The sections of the pass that have not been carried out. -/
  rest : List Section
  ctx : Context
  model : Model

/-- The states that a compilation passes through. -/
inductive Reached (options : Options) (probe : Probe) (sections : List Section) : Progress → Prop
  | start : Reached options probe sections
      ⟨.directives, sectionsOf .directives sections, contextAfter options probe {}, {}⟩
  | step {pass : Pass} {s : Section} {rest : List Section} {ctx : Context} {m m' : Model}
      (h : Reached options probe sections ⟨pass, s :: rest, ctx, m⟩)
      (hstep : s.apply ctx m = .ok m') : Reached options probe sections ⟨pass, rest, ctx, m'⟩
  | imports {ctx : Context} {m : Model}
      (h : Reached options probe sections ⟨.directives, [], ctx, m⟩) :
      Reached options probe sections
        ⟨.imports, sectionsOf .imports sections, contextAfter options probe m, m⟩
  | entities {ctx : Context} {m : Model}
      (h : Reached options probe sections ⟨.imports, [], ctx, m⟩) :
      Reached options probe sections ⟨.entities, sectionsOf .entities sections, ctx, m⟩
  | questions {ctx : Context} {m : Model}
      (h : Reached options probe sections ⟨.entities, [], ctx, m⟩) :
      Reached options probe sections ⟨.questions, sectionsOf .questions sections, ctx, m⟩

variable {options : Options} {probe : Probe} {sections : List Section}

/-- What holds at the start and is kept by every section holds in every state. -/
lemma Reached.induction {motive : Model → Prop} (hstart : motive {})
    (hstep : ∀ (ctx : Context) (s : Section) (m m' : Model), motive m →
      s.apply ctx m = .ok m' → motive m')
    {p : Progress} (h : Reached options probe sections p) : motive p.model := by
  induction h with
  | start => exact hstart
  | step _ happly ih => exact hstep _ _ _ _ ih happly
  | imports _ ih => exact ih
  | entities _ ih => exact ih
  | questions _ ih => exact ih

lemma mem_sectionsOf {pass : Pass} {s : Section} :
    s ∈ sectionsOf pass sections ↔ s ∈ sections ∧ s.pass = pass := by
  simp [sectionsOf]

/-- The sections that are left of a pass are those of the document. -/
lemma Reached.mem_of_mem_rest {p : Progress} (h : Reached options probe sections p) :
    ∀ s ∈ p.rest, s ∈ sections := by
  induction h with
  | start => exact fun s hs => (mem_sectionsOf.mp hs).1
  | step _ _ ih => exact fun s hs => ih s (List.mem_cons_of_mem _ hs)
  | imports _ _ => exact fun s hs => (mem_sectionsOf.mp hs).1
  | entities _ _ => exact fun s hs => (mem_sectionsOf.mp hs).1
  | questions _ _ => exact fun s hs => (mem_sectionsOf.mp hs).1

/-- What holds at the start and is kept by every section of the document holds in every state. -/
lemma Reached.induction_mem {motive : Model → Prop} (hstart : motive {})
    (hstep : ∀ s ∈ sections, ∀ (ctx : Context) (m m' : Model), motive m →
      s.apply ctx m = .ok m' → motive m')
    {p : Progress} (h : Reached options probe sections p) : motive p.model := by
  induction h with
  | start => exact hstart
  | step hreached happly ih =>
      exact hstep _ (hreached.mem_of_mem_rest _ List.mem_cons_self) _ _ _ ih happly
  | imports _ ih => exact ih
  | entities _ ih => exact ih
  | questions _ ih => exact ih

/-- What only the sections of one pass have is found by that pass, in the order of the document, and
by no other. -/
lemma filterMap_sectionsOf {α : Type} {f : Section → Option α} {home : Pass}
    (hf : ∀ s : Section, s.pass ≠ home → f s = none) (pass : Pass) :
    (sectionsOf pass sections).filterMap f =
      if pass = home then sections.filterMap f else [] := by
  rw [sectionsOf, List.filterMap_filter]
  split_ifs with hpass
  · subst hpass
    refine List.filterMap_congr fun s _ => ?_
    by_cases hs : s.pass = pass
    · simp [hs]
    · simp [hs, hf s hs]
  · refine List.filterMap_eq_nil_iff.mpr fun s _ => ?_
    by_cases hs : s.pass = pass
    · simp [hf s (hs ▸ hpass)]
    · simp [hs]

/-- What only the sections of one pass give is given in that pass, in the order of the document, and
in no other. -/
lemma flatMap_sectionsOf {α : Type} {f : Section → List α} {home : Pass}
    (hf : ∀ s : Section, s.pass ≠ home → f s = []) (pass : Pass) :
    (sectionsOf pass sections).flatMap f = if pass = home then sections.flatMap f else [] := by
  induction sections with
  | nil => simp [sectionsOf]
  | cons s sections ih =>
      unfold sectionsOf at ih ⊢
      by_cases hs : s.pass = pass
      · rw [List.filter_cons_of_pos (by simpa using hs), List.flatMap_cons, ih]
        split_ifs with hpass
        · rw [List.flatMap_cons]
        · rw [hf s (hs ▸ hpass), List.nil_append]
      · rw [List.filter_cons_of_neg (by simpa using hs), ih]
        split_ifs with hpass
        · rw [List.flatMap_cons, hf s (hpass ▸ hs), List.nil_append]
        · rfl

/-- The options stay the same. -/
lemma Reached.options_eq {p : Progress} (h : Reached options probe sections p) :
    p.ctx.options = options := by
  induction h with
  | start => rfl
  | step _ _ ih => exact ih
  | imports _ _ => rfl
  | entities _ ih => exact ih
  | questions _ ih => exact ih

/-! ## The states and the run -/

/-- What follows the end of a pass. -/
def afterPass (options : Options) (probe : Probe) (sections : List Section) :
    Pass → Context → Model → Except Failure (Context × Model)
  | .directives, _, m => do
    let ctx := contextAfter options probe m
    let m ← runPass ctx sections m .imports
    let m ← runPass ctx sections m .entities
    let m ← runPass ctx sections m .questions
    .ok (ctx, m)
  | .imports, ctx, m => do
    let m ← runPass ctx sections m .entities
    let m ← runPass ctx sections m .questions
    .ok (ctx, m)
  | .entities, ctx, m => do
    let m ← runPass ctx sections m .questions
    .ok (ctx, m)
  | .questions, ctx, m => .ok (ctx, m)

/-- A compilation goes on from every state that it reaches. -/
lemma runPasses_eq_of_reached {p : Progress} (h : Reached options probe sections p) :
    runPasses options probe sections = (do
      let m ← p.rest.foldlM (Section.apply p.ctx) p.model
      afterPass options probe sections p.pass p.ctx m) := by
  induction h with
  | start => rfl
  | step _ happly ih =>
      rw [ih]
      simp only [List.foldlM_cons, happly]
      rfl
  | imports _ ih => rw [ih]; rfl
  | entities _ ih => rw [ih]; rfl
  | questions _ ih => rw [ih]; rfl

lemma Reached.foldlM {pass : Pass} {ctx : Context} :
    ∀ {ss : List Section} {m m' : Model}, Reached options probe sections ⟨pass, ss, ctx, m⟩ →
      ss.foldlM (Section.apply ctx) m = .ok m' → Reached options probe sections ⟨pass, [], ctx, m'⟩
  | [], m, m', h, hrun => by
      cases hrun
      exact h
  | s :: ss, m, m', h, hrun => by
      rw [List.foldlM_cons] at hrun
      obtain ⟨m₁, hstep, hrun⟩ := bind_eq_ok_iff.mp hrun
      exact Reached.foldlM (.step h hstep) hrun

/-- The result of a compilation is the last state that it reaches. -/
lemma reached_of_runPasses {ctx : Context} {m : Model}
    (h : runPasses options probe sections = .ok (ctx, m)) :
    Reached options probe sections ⟨.questions, [], ctx, m⟩ := by
  unfold runPasses at h
  obtain ⟨m₁, h₁, h⟩ := bind_eq_ok_iff.mp h
  obtain ⟨m₂, h₂, h⟩ := bind_eq_ok_iff.mp h
  obtain ⟨m₃, h₃, h⟩ := bind_eq_ok_iff.mp h
  obtain ⟨m₄, h₄, h⟩ := bind_eq_ok_iff.mp h
  cases h
  have hd := Reached.foldlM .start h₁
  have hi := Reached.foldlM hd.imports h₂
  have he := Reached.foldlM hi.entities h₃
  exact Reached.foldlM he.questions h₄

/-- Every section of a pass that succeeds is carried out. -/
lemma Reached.exists_of_mem {pass : Pass} {ctx : Context} {s : Section} :
    ∀ {ss : List Section} {m m' : Model}, Reached options probe sections ⟨pass, ss, ctx, m⟩ →
      ss.foldlM (Section.apply ctx) m = .ok m' → s ∈ ss →
        ∃ rest m₁ m₂, Reached options probe sections ⟨pass, s :: rest, ctx, m₁⟩ ∧
          s.apply ctx m₁ = .ok m₂
  | [], _, _, _, _, hs => absurd hs List.not_mem_nil
  | t :: ss, m, m', h, hrun, hs => by
      rw [List.foldlM_cons] at hrun
      obtain ⟨m₁, hstep, hrun⟩ := bind_eq_ok_iff.mp hrun
      rcases List.mem_cons.mp hs with rfl | hs
      · exact ⟨ss, m, m₁, h, hstep⟩
      · exact Reached.exists_of_mem (.step h hstep) hrun hs

/-- **Every section of a document is carried out in a compilation that succeeds.** -/
lemma exists_reached_of_mem {ctx : Context} {m : Model} {s : Section} (hs : s ∈ sections)
    (h : runPasses options probe sections = .ok (ctx, m)) :
    ∃ pass ctx rest m₁ m₂, Reached options probe sections ⟨pass, s :: rest, ctx, m₁⟩ ∧
      s.apply ctx m₁ = .ok m₂ := by
  unfold runPasses at h
  obtain ⟨m₁, h₁, h⟩ := bind_eq_ok_iff.mp h
  obtain ⟨m₂, h₂, h⟩ := bind_eq_ok_iff.mp h
  obtain ⟨m₃, h₃, h⟩ := bind_eq_ok_iff.mp h
  obtain ⟨m₄, h₄, -⟩ := bind_eq_ok_iff.mp h
  have hd := Reached.foldlM .start h₁
  have hi := Reached.foldlM hd.imports h₂
  have he := Reached.foldlM hi.entities h₃
  have hmem : s ∈ sectionsOf s.pass sections := mem_sectionsOf.mpr ⟨hs, rfl⟩
  cases hpass : s.pass with
  | directives => exact ⟨_, _, Reached.exists_of_mem .start h₁ (hpass ▸ hmem)⟩
  | imports => exact ⟨_, _, Reached.exists_of_mem hd.imports h₂ (hpass ▸ hmem)⟩
  | entities => exact ⟨_, _, Reached.exists_of_mem hi.entities h₃ (hpass ▸ hmem)⟩
  | questions => exact ⟨_, _, Reached.exists_of_mem he.questions h₄ (hpass ▸ hmem)⟩

/-- A successful compilation carries out the sections of a document without errors. -/
lemma compile_eq_ok {file source : String} {c : Compilation}
    (h : compile file source options probe = .ok c) :
    (Document.read file source).hasErrors = false ∧
      ∃ ctx, runPasses options probe (Document.read file source).sections = .ok (ctx, c.model) := by
  simp only [compile] at h
  split_ifs at h with herr
  obtain ⟨⟨ctx, m⟩, hrun, h⟩ := bind_eq_ok_iff.mp h
  cases h
  exact ⟨by simpa using herr, ctx, hrun⟩

/-- The model of a successful compilation is the last that it reaches. -/
lemma reached_of_compile {file source : String} {c : Compilation}
    (h : compile file source options probe = .ok c) :
    ∃ ctx, Reached options probe (Document.read file source).sections
      ⟨.questions, [], ctx, c.model⟩ := by
  obtain ⟨-, ctx, hrun⟩ := compile_eq_ok h
  exact ⟨ctx, reached_of_runPasses hrun⟩

end DialogModel.Compile
