import DialogModel.Proofs.Document.Answers
import DialogModel.Proofs.Document.Places

/-!
# Failures point at the source

A failed compilation tells where it failed.  Errors of the front end are all reported, each with a
line of the source.  A failure of a later pass is about a single line and quotes it as written: the
number and the text travel together, from the scanned line through its section to the handler that
refuses it, so the two can never be those of different lines.
-/

namespace DialogModel.Compile

/-- A pass fails at a place of one of the sections. -/
lemma runPass_failsAt (ctx : Context) (sections : List Section) (m : Model) (pass : Pass) :
    FailsAt (sections.flatMap Section.provs) (runPass ctx sections m pass) := by
  refine .foldlM (fun s hs m => (s.apply_failsAt ctx m).mono ?_) m
  intro p hp
  exact List.mem_flatMap.mpr ⟨s, List.mem_of_mem_filter hs, hp⟩

/-- The passes fail at a place of one of the sections. -/
lemma runPasses_failsAt (options : Options) (probe : Probe) (sections : List Section) :
    FailsAt (sections.flatMap Section.provs) (runPasses options probe sections) := by
  refine (runPass_failsAt _ sections _ .directives).bind fun m => ?_
  refine (runPass_failsAt _ sections m .imports).bind fun m => ?_
  refine (runPass_failsAt _ sections m .entities).bind fun m => ?_
  exact (runPass_failsAt _ sections m .questions).bind fun m => .ok _

/-- Where the front end found no errors, a compilation fails at a place of one of the sections. -/
lemma compile_failsAt {file source : String} (options : Options) (probe : Probe)
    (h : (Document.read file source).hasErrors = false) :
    FailsAt ((Document.read file source).sections.flatMap Section.provs)
      (compile file source options probe) := by
  simp only [compile, h, Bool.false_eq_true, if_false]
  exact (runPasses_failsAt options probe _).bind fun _ => .ok _

/-- **Every failure points at the source.**  A compilation that fails names its file and fails in
one of two ways.  Either the front end found errors: the failure then carries all of them in the
order in which they were found, each at a line of the source, and stands at the first.  Or it found
none: the failure then is a single one of a later pass, at a line of the source that it quotes as
written. -/
theorem failures_located (file source : String) (options : Options) (probe : Probe) (e : Failure)
    (h : compile file source options probe = .error e) :
    e.file = file ∧
      ((e.code = .invalidLine ∧ e.context = none ∧
          e.diagnostics = (Document.read file source).errors ∧ e.diagnostics ≠ [] ∧
          (∀ d ∈ e.diagnostics, 1 ≤ d.line ∧ d.line ≤ (Text.lines source).length) ∧
          e.diagnostics.head?.map Diagnostic.line = some e.line) ∨
        ((Document.read file source).errors = [] ∧ e.code ≠ .invalidLine ∧ e.diagnostics = [] ∧
          1 ≤ e.line ∧ e.line ≤ (Text.lines source).length ∧
          e.context = (Text.lines source)[e.line - 1]?)) := by
  cases herrors : (Document.read file source).hasErrors with
  | true =>
      simp only [compile, herrors, if_true] at h
      obtain rfl := Except.error.inj h
      have hne : (Document.read file source).errors ≠ [] := by
        intro hnil
        rw [Document.errors_eq_nil_iff.mp hnil] at herrors
        cases herrors
      refine ⟨rfl, .inl ⟨rfl, rfl, rfl, hne, ?_, ?_⟩⟩
      · intro d hd
        obtain ⟨l, hl, hline⟩ := Document.exists_line_of_mem_errors hd
        obtain ⟨hpos, hle, -⟩ := Line.getElem?_of_mem_scan hl
        exact ⟨hline ▸ hpos, hline ▸ hle⟩
      · obtain ⟨d, ds, hcons⟩ := List.exists_cons_of_ne_nil hne
        simp [Failure.ofDiagnostics, hcons]
  | false =>
      have hnone : (Document.read file source).errors = [] :=
        Document.errors_eq_nil_iff.mpr herrors
      obtain ⟨p, hp, hat⟩ := compile_failsAt options probe herrors e h
      obtain ⟨s, hs, hp⟩ := List.mem_flatMap.mp hp
      obtain ⟨l, hl, rfl⟩ := Document.exists_line_of_mem_provs hs hp
      -- The failure has the number and the text of one line, which the scan paired.
      obtain ⟨hpos, hle, htext⟩ := Line.getElem?_of_mem_scan hl
      have hline : e.line = l.number := hat.line
      refine ⟨hat.file, .inr ⟨hnone, hat.code_ne, hat.diagnostics, ?_, ?_, ?_⟩⟩
      · exact hline ▸ hpos
      · exact hline ▸ hle
      · rw [hline, htext]
        exact hat.context

/-- A source with a synonym that follows no value, on an indented line. -/
def straySource : String :=
  "# travel\n- fly\n@ list city =\n  - lutetia\n"

/-- A source with two lines that cannot be read. -/
def unreadableSource : String :=
  "travel\n# travel\n- fly to \x7bcity\n"

theorem failures_located_straySource :
    (∃ e, compile "travel" straySource {} Probe.offline = .error e ∧
      e.code = .synonymsNotAList ∧ e.line = 4 ∧ e.context = some "  - lutetia" ∧
      e.file = "travel" ∧ e.context = (Text.lines straySource)[e.line - 1]?) ∧
    ∃ e, compile "travel" unreadableSource {} Probe.offline = .error e ∧
      e.code = .invalidLine ∧ e.diagnostics.map Diagnostic.line = [1, 3] ∧
      e.diagnostics = (Document.read "travel" unreadableSource).errors ∧
      e.diagnostics.head?.map Diagnostic.line = some e.line := by
  have hstray : compile "travel" straySource {} Probe.offline =
      .error ((Provenance.mk "travel" 4 "  - lutetia").failure
        (Declaration.Fault.straySynonym "lutetia" "city")) := by decide +kernel
  have hunreadable : compile "travel" unreadableSource {} Probe.offline =
      .error (.ofDiagnostics "travel" (Document.read "travel" unreadableSource).errors) := by
    decide +kernel
  have hlines : (Document.read "travel" unreadableSource).errors.map Diagnostic.line = [1, 3] := by
    decide +kernel
  constructor
  · obtain ⟨hfile, hread | hpass⟩ := failures_located _ _ _ _ _ hstray
    · cases hread.1
    · exact ⟨_, hstray, rfl, rfl, rfl, hfile, hpass.2.2.2.2.2⟩
  · obtain ⟨-, hread | hpass⟩ := failures_located _ _ _ _ _ hunreadable
    · exact ⟨_, hunreadable, rfl, hlines, hread.2.2.1, hread.2.2.2.2.2⟩
    · exact absurd rfl hpass.2.1

end DialogModel.Compile
