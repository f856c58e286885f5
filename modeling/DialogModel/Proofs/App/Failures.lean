import DialogModel.Compile
import DialogModel.Proofs.Declaration.Plans
import DialogModel.Proofs.Outcome

/-!
# Where a section fails

A section can go wrong in many handlers, and each of them has to place its failure at a line.
`FailsAt ps x` says that it does: if `x` fails, then at one of the places `ps`, with the line as the
context and with a code that only the later passes use.  The computations of the handlers are chains
and loops, for which `FailsAt` has one lemma each; so a handler is done once its own errors are
placed, whatever the state of the application.

The result is `Section.apply_failsAt`: a section fails at its header or at one of its lines.
-/

namespace DialogModel

open Entity

/-- A cause that can only arise after the front end, and so is never an invalid line. -/
class LateCause (ε : Type) [Cause ε] : Prop where
  code_ne (cause : ε) : Cause.code cause ≠ .invalidLine

instance : LateCause Registry.Violation where
  code_ne cause := by cases cause <;> simp [Cause.code, Registry.Violation.code]

instance : LateCause Declaration.Fault where
  code_ne cause := by cases cause <;> simp [Cause.code, Declaration.Fault.code]

instance : LateCause Labelling.Fault where
  code_ne cause := by cases cause <;> simp [Cause.code, Labelling.Fault.code]

instance : LateCause ImportLink.Unreachable where
  code_ne _ := by simp [Cause.code]

/-- A failure of the later passes at a place of the source. -/
structure Failure.IsAt (e : Failure) (p : Provenance) : Prop where
  file : e.file = p.file
  line : e.line = p.line
  context : e.context = some p.text
  diagnostics : e.diagnostics = []
  code_ne : e.code ≠ .invalidLine

lemma Provenance.failure_isAt {ε : Type} [Cause ε] [LateCause ε] (p : Provenance) (cause : ε) :
    (p.failure cause).IsAt p where
  file := rfl
  line := rfl
  context := rfl
  diagnostics := rfl
  code_ne := LateCause.code_ne cause

/-- A computation that fails at one of the given places if it fails. -/
def FailsAt {α : Type} (ps : List Provenance) (x : Except Failure α) : Prop :=
  ∀ e, x = .error e → ∃ p ∈ ps, e.IsAt p

namespace FailsAt

variable {α β ε : Type} {ps qs : List Provenance} {p : Provenance} {x : Except Failure α}

lemma ok (a : α) : FailsAt ps (.ok a) := by
  intro e h
  cases h

lemma failure [Cause ε] [LateCause ε] (hp : p ∈ ps) (cause : ε) :
    FailsAt ps (.error (p.failure cause) : Except Failure α) := by
  intro e h
  cases h
  exact ⟨p, hp, p.failure_isAt cause⟩

lemma locate [Cause ε] [LateCause ε] (hp : p ∈ ps) (y : Except ε α) : FailsAt ps (p.locate y) := by
  cases y with
  | ok a => exact .ok a
  | error cause => exact .failure hp cause

lemma bind {f : α → Except Failure β} (hx : FailsAt ps x) (hf : ∀ a, FailsAt ps (f a)) :
    FailsAt ps (x >>= f) := by
  cases x with
  | ok a => exact hf a
  | error e =>
      intro e' h
      cases h
      exact hx e rfl

lemma mono (hx : FailsAt ps x) (hsub : ps ⊆ qs) : FailsAt qs x := by
  intro e h
  obtain ⟨p, hp, hat⟩ := hx e h
  exact ⟨p, hsub hp, hat⟩

/-- A loop fails where one of its rounds does. -/
lemma foldlM {f : β → α → Except Failure β} {as : List α}
    (h : ∀ a ∈ as, ∀ b, FailsAt ps (f b a)) (b : β) : FailsAt ps (as.foldlM f b) := by
  induction as generalizing b with
  | nil => exact .ok b
  | cons a as ih =>
      obtain ⟨ha, has⟩ := List.forall_mem_cons.mp h
      rw [List.foldlM_cons]
      exact (ha b).bind fun b' => ih has b'

end FailsAt

/-! ## Declarations -/

namespace Declaration

variable {app : App} {kind : Kind} {d : Declaration} {ps : List Provenance}

lemma takeOver_failsAt (hp : d.prov ∈ ps) : FailsAt ps (d.takeOver app kind) := by
  simp only [takeOver]
  split
  · exact .ok _
  · split_ifs
    · exact .ok _
    · exact .ok _
    · exact .failure hp _
    · exact .ok _
    · exact .failure hp _

lemma register_failsAt (hp : d.prov ∈ ps) : FailsAt ps (d.register app kind) :=
  (takeOver_failsAt hp).bind fun _ => (FailsAt.locate hp _).bind fun _ => .ok _

lemma registerPlain_failsAt (hp : d.prov ∈ ps) : FailsAt ps (d.registerPlain app kind) := by
  unfold registerPlain
  split_ifs
  · exact .failure hp _
  · exact register_failsAt hp

lemma declareComposite_failsAt (hp : d.prov ∈ ps) : FailsAt ps (d.declareComposite app) := by
  unfold declareComposite
  split
  · exact .failure hp _
  · exact (register_failsAt hp).bind fun _ => .ok _

lemma declareRegex_failsAt (hp : d.prov ∈ ps) : FailsAt ps (d.declareRegex app) := by
  refine (FailsAt.locate hp _).bind fun new => ?_
  split
  · exact .failure hp _
  · exact (register_failsAt hp).bind fun _ => .ok _

lemma addListLine_failsAt {line : BodyLine} (hp : line.prov ∈ ps) (name : String)
    (sublists : List Sublist) : FailsAt ps (addListLine name sublists line) := by
  unfold addListLine
  split
  · exact .ok _
  · split
    · exact .ok _
    · exact .failure hp _

/-- The text of a definition on the line of the declaration counts as a line at that place. -/
lemma prov_of_mem_definitionLines {line : BodyLine} (h : line ∈ d.definitionLines) :
    line.prov = d.prov ∨ line ∈ d.lines := by
  rcases List.mem_append.mp h with h | h
  · obtain ⟨text, -, rfl⟩ := List.mem_map.mp h
    exact .inl rfl
  · exact .inr h

lemma declareList_failsAt {given : List Sublist} (hp : d.prov ∈ ps)
    (hlines : ∀ line ∈ d.lines, line.prov ∈ ps) : FailsAt ps (d.declareList app given) := by
  have hsublists : FailsAt ps (d.sublists given) := by
    refine .foldlM (fun line hline sublists => addListLine_failsAt ?_ d.name sublists) given
    rcases prov_of_mem_definitionLines hline with h | h
    · exact h ▸ hp
    · exact hlines line h
  exact hsublists.bind fun _ => (register_failsAt hp).bind fun _ => .ok _

lemma declarePhraseList_failsAt {interchangeable : Bool} (hp : d.prov ∈ ps) :
    FailsAt ps (d.declarePhraseList app interchangeable) := by
  unfold declarePhraseList
  split_ifs
  · exact .failure hp _
  · split
    · split_ifs
      · exact .ok _
      · exact .failure hp _
    · exact .ok _

lemma declarePrebuilt_failsAt {ctx : Context} (hp : d.prov ∈ ps) :
    FailsAt ps (d.declarePrebuilt ctx app) := by
  refine (FailsAt.locate hp _).bind fun resolution => ?_
  cases resolution with
  | registered type name => exact register_failsAt (d := { d with name }) hp
  | skipped type => exact .ok _

lemma run_failsAt {ctx : Context} {m : Model} {plan : Plan} (hp : d.prov ∈ ps)
    (hlines : ∀ line ∈ d.lines, line.prov ∈ ps) : FailsAt ps (d.run ctx m plan) := by
  cases plan with
  | alterations => exact .ok _
  | simple => exact (registerPlain_failsAt hp).bind fun _ => .ok _
  | patternAny => exact (registerPlain_failsAt hp).bind fun _ => .ok _
  | list given => exact (declareList_failsAt hp hlines).bind fun _ => .ok _
  | composite => exact (declareComposite_failsAt hp).bind fun _ => .ok _
  | regex => exact (declareRegex_failsAt hp).bind fun _ => .ok _
  | prebuilt => exact (declarePrebuilt_failsAt hp).bind fun _ => .ok _
  | phraseList flag => exact (declarePhraseList_failsAt hp).bind fun _ => .ok _

end Declaration

lemma NewEntity.apply_failsAt {e : NewEntity} {ctx : Context} {m : Model} {ps : List Provenance}
    (hp : e.prov ∈ ps) (hlines : ∀ line ∈ e.definition.elim [] Definition.lines, line.prov ∈ ps) :
    FailsAt ps (e.apply ctx m) := by
  refine (FailsAt.locate hp _).bind fun plan => Declaration.run_failsAt hp ?_
  cases hdefinition : e.definition with
  | none => simp [declaration, hdefinition]
  | some definition => simpa [declaration, hdefinition] using hlines

namespace LegacyEntity

variable {e : LegacyEntity}

/-- Whatever a section declares, the declaration keeps the place and the lines of the section. -/
lemma eq_declarationAs_of_plan {d : Declaration} {plan : Declaration.Plan}
    (h : e.plan = .ok (d, plan)) : ∃ name inline, d = e.declarationAs name inline := by
  cases Reads.of_plan h <;> exact ⟨_, _, rfl⟩

lemma apply_failsAt {ctx : Context} {m : Model} {ps : List Provenance} (hp : e.prov ∈ ps)
    (hlines : ∀ line ∈ e.lines, line.prov ∈ ps) : FailsAt ps (e.apply ctx m) := by
  unfold apply
  cases hplan : e.plan with
  | error fault => exact .failure hp fault
  | ok declared =>
      obtain ⟨d, plan⟩ := declared
      obtain ⟨name, inline, rfl⟩ := eq_declarationAs_of_plan hplan
      exact Declaration.run_failsAt hp hlines

end LegacyEntity

/-! ## Lines of intents -/

namespace Labelling

variable {p : Provenance} {ps : List Provenance}

lemma declareAt_failsAt (hp : p ∈ ps) (app : App) (kind : Kind) (name : String)
    (roles : RoleSet) : FailsAt ps (declareAt p app kind name roles) :=
  (FailsAt.locate hp _).bind fun _ => .ok _

lemma registerLabel_failsAt (hp : p ∈ ps) (app : App) (entity : String) (role : Option String) :
    FailsAt ps (registerLabel p app entity role) := by
  simp only [registerLabel]
  split
  · exact declareAt_failsAt hp _ _ _ _
  · split_ifs
    · exact .failure hp _
    · exact declareAt_failsAt hp _ _ _ _
    · exact declareAt_failsAt hp _ _ _ _

lemma addLabelled_failsAt (hp : p ∈ ps) (intent : String) (flat : Utterance.Flat) (app : App) :
    FailsAt ps (addLabelled p intent flat app) := by
  unfold addLabelled
  split
  · exact .failure hp _
  · have hnested : FailsAt ps (flat.nested.foldlM (resolveNested p) app) :=
      .foldlM (fun span _ app => (registerLabel_failsAt hp app _ _).bind fun _ => .ok _) app
    refine hnested.bind fun app => ?_
    have htop : FailsAt ps (flat.labels.foldlM (resolveTop p) (app, [])) :=
      .foldlM (fun span _ acc => (registerLabel_failsAt hp acc.1 _ _).bind fun _ => .ok _) _
    exact htop.bind fun _ => .ok _

lemma addPatternNode_failsAt (hp : p ∈ ps) (acc : App × List Char) (node : Utterance.Node) :
    FailsAt ps (addPatternNode p acc node) := by
  unfold addPatternNode
  split
  · exact .ok _
  all_goals
    split_ifs
    · exact .ok _
    · exact (declareAt_failsAt hp _ _ _ _).bind fun _ => .ok _

lemma addPattern_failsAt {line : UtteranceLine} (hp : line.prov ∈ ps) (intent : String)
    (app : App) : FailsAt ps (addPattern line intent app) := by
  have hnodes : FailsAt ps (line.nodes.foldlM (addPatternNode line.prov) (app, [])) :=
    .foldlM (fun node _ acc => addPatternNode_failsAt hp acc node) _
  exact hnodes.bind fun _ => .ok _

end Labelling

lemma UtteranceLine.apply_failsAt {line : UtteranceLine} {ps : List Provenance}
    (hp : line.prov ∈ ps) (options : Options) (intent : String) (app : App) :
    FailsAt ps (line.apply options intent app) := by
  unfold apply
  split
  · exact .failure hp _
  · split_ifs
    · exact .ok _
    · exact Labelling.addPattern_failsAt hp intent app
    · exact Labelling.addLabelled_failsAt hp intent _ app
    · exact .failure hp _

lemma IntentSection.apply_failsAt {s : IntentSection} {ps : List Provenance}
    (hlines : ∀ line ∈ s.utterances, line.prov ∈ ps) (options : Options) (m : Model) :
    FailsAt ps (s.apply options m) := by
  have hloop : FailsAt ps (s.utterances.foldlM (fun app line => line.apply options s.name app)
      (m.app.ensureIntent s.name)) :=
    .foldlM (fun line hline app => UtteranceLine.apply_failsAt (hlines line hline) options _ app) _
  exact hloop.bind fun _ => .ok _

/-! ## Sections -/

lemma ImportLink.apply_failsAt {link : ImportLink} {ps : List Provenance} (hp : link.prov ∈ ps)
    (probe : Probe) (m : Model) : FailsAt ps (link.apply probe m) := by
  unfold apply
  split_ifs
  · split
    · exact .ok _
    · exact .failure hp _
  · exact .ok _

lemma ModelInfo.apply_failsAt {info : ModelInfo} {ps : List Provenance} (hp : info.prov ∈ ps)
    (m : Model) : FailsAt ps (info.apply m) := by
  unfold apply
  split
  · next d _ =>
      cases d with
      | appSetting | kbSetting | intentInherits => exact .ok _
      | entityInherits => exact (FailsAt.locate hp _).bind fun _ => .ok _
  · exact .ok _

namespace Section

/-- The places of a section: its header and the lines that it holds. -/
def provs : Section → List Provenance
  | .intent s => s.prov :: s.utterances.map UtteranceLine.prov
  | .newEntity s => s.prov :: (s.definition.elim [] Definition.lines).map BodyLine.prov
  | .legacyEntity s => s.prov :: s.lines.map BodyLine.prov
  | .modelInfo s => [s.prov]
  | .importLink s => [s.prov]
  | .question s => [s.prov]

/-- **A section fails at one of its places.** -/
lemma apply_failsAt (s : Section) (ctx : Context) (m : Model) :
    FailsAt s.provs (s.apply ctx m) := by
  cases s with
  | modelInfo s => exact ModelInfo.apply_failsAt (List.mem_singleton_self _) m
  | importLink s => exact ImportLink.apply_failsAt (List.mem_singleton_self _) ctx.probe m
  | intent s =>
      exact IntentSection.apply_failsAt
        (fun line hline => List.mem_cons_of_mem _ (List.mem_map_of_mem hline)) ctx.options m
  | newEntity s =>
      exact NewEntity.apply_failsAt List.mem_cons_self
        fun line hline => List.mem_cons_of_mem _ (List.mem_map_of_mem hline)
  | legacyEntity s =>
      exact LegacyEntity.apply_failsAt List.mem_cons_self
        fun line hline => List.mem_cons_of_mem _ (List.mem_map_of_mem hline)
  | question s => exact .ok _

end Section

end DialogModel
