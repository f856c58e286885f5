import DialogModel.Proofs.Compile.Image
import DialogModel.Proofs.Document.Sources
import DialogModel.Proofs.Utterance.Trim

/-!
# Reading the patterns of a compilation

A pattern is the written form of a template in which the references by `@` are replaced by what they
refer to.  Texts are escaped and the placeholders of the template have been read, but the name of an
entity that takes the place of a reference comes from its declaration, and a declaration admits
names that cannot be written between braces.  Nothing else can go wrong: if the names can be
written, the pattern can be read again, with labels that the registry knows
(`Registry.reads_of_resolves`).  The sources at the end have names that cannot be written.
-/

namespace DialogModel

open Entity Utterance

lemma Compile.areCanonical_of_mem_lines {file source : String} {e : IntentLine}
    (he : e ∈ (intentsOf file source).flatMap IntentSection.lines) : AreCanonical e.2.nodes := by
  obtain ⟨s, hs, he⟩ := List.mem_flatMap.mp he
  obtain ⟨line, hline, rfl⟩ := List.mem_map.mp he
  obtain ⟨sec, hsec, hintent⟩ := List.mem_filterMap.mp hs
  obtain rfl : sec = .intent s := by cases sec <;> simp_all [Section.intent?]
  obtain ⟨text, -, hread⟩ := Document.exists_read_of_mem_utterances hsec hline
  exact areCanonical_of_readChars hread

/-! ## Templates with their references replaced -/

lemma Utterance.IsWritable.mono {stops stops' : List Char} {name : String}
    (h : IsWritable stops name) (hsub : stops' ⊆ stops) : IsWritable stops' name :=
  ⟨h.ne_empty, h.trimmed, fun c hc hstop => h.free c hc (hsub hstop)⟩

/-- Every entity that a node without `@` names can be written in a head. -/
def Utterance.NamesPlain (nodes : List Node) : Prop :=
  ∀ head, .placeholder head ∈ nodes → head.viaAt = false → Head.IsPlainEntity head.entity

namespace Resolves

variable {reg : Registry} {node node' : Node}

lemma isText_eq (h : Resolves reg node node') : node'.isText = node.isText := by
  cases h <;> rfl

lemma exists_placeholder (h : Resolves reg node node') (hlabel : node'.isText = false) :
    ∃ head, node' = .placeholder head := by
  cases h with
  | text content => cases hlabel
  | plain | unknown | role | entity => exact ⟨_, rfl⟩

/-- The registry knows the label that takes the place of a node, unless it is left with `@`. -/
lemma knows {head : Head} (h : Resolves reg node (.placeholder head)) (hs : reg.Sound)
    (hat : head.viaAt = false) : reg.Knows head := by
  cases h with
  | plain _ hknows => exact hknows
  | unknown htrue =>
      rw [hat] at htrue
      cases htrue
  | role _ howner =>
      obtain ⟨r, hget, hrole⟩ := hs.owner_iff.mp howner
      refine ⟨r, hget, fun role hmem => ?_⟩
      rw [← Option.some.inj hmem]
      exact hrole
  | entity _ hget => exact ⟨_, hget, fun role hmem => nomatch hmem⟩

/-- What takes the place of a canonical node is canonical if its name can be written. -/
lemma isCanonical (h : Resolves reg node node') (hc : node.IsCanonical)
    (hplain : ∀ head, node' = .placeholder head → head.viaAt = false →
      Head.IsPlainEntity head.entity) : node'.IsCanonical := by
  cases h with
  | text content => exact hc
  | plain _ _ => exact hc
  | unknown _ => exact hc
  | role _ _ =>
      obtain ⟨hentity, hat⟩ := hplain _ rfl rfl
      refine ⟨hentity, fun _ => hat, fun role hmem => ?_⟩
      rw [← Option.some.inj hmem]
      exact hc.entity.mono (List.subset_cons_self _ _)
  | entity _ _ =>
      obtain ⟨hentity, hat⟩ := hplain _ rfl rfl
      exact ⟨hentity, fun _ => hat, fun role hmem => nomatch hmem⟩

end Resolves

lemma areCanonical_of_resolves {reg : Registry} {ns ms : List Node}
    (h : List.Forall₂ (Resolves reg) ns ms) (hc : AreCanonical ns) (hplain : NamesPlain ms) :
    AreCanonical ms := by
  induction h with
  | nil => exact hc
  | @cons n m ns ms hnm hrest ih =>
      obtain ⟨hn, hnext, hns⟩ := hc
      refine ⟨hnm.isCanonical hn fun head heq => hplain head (heq ▸ List.mem_cons_self), ?_,
        ih hns fun head hmem => hplain head (List.mem_cons_of_mem _ hmem)⟩
      cases hrest with
      | nil => simp
      | @cons n' m' _ _ hnm' _ =>
          intro next hmem htext
          obtain rfl : m' = next := by simpa using hmem
          rw [hnm'.isText_eq]
          exact hnext n' rfl (hnm.isText_eq ▸ htext)

/-! ## Patterns -/

/-- A text that can be read as a template whose labels the registry knows, but for those with
`@`. -/
def Registry.Reads (reg : Registry) (text : String) : Prop :=
  ∃ nodes, Utterance.read text = .ok nodes ∧ ∀ node ∈ nodes, node.isText = false →
    ∃ head, node = .placeholder head ∧ (head.viaAt = false → reg.Knows head)

/-- **A pattern can be read if its names can be written.** -/
lemma Registry.reads_of_resolves {reg : Registry} (hs : reg.Sound) {ns ms : List Node}
    (h : List.Forall₂ (Resolves reg) ns ms) (hc : AreCanonical ns) (hplain : NamesPlain ms) :
    reg.Reads (String.ofList (Chars.trim (renderNodes ms))) := by
  have hms := areCanonical_of_resolves h hc hplain
  obtain ⟨ls, hls, hlabels, hrender⟩ := exists_renderNodes_trim hms
  refine ⟨ls, ?_, fun node hmem hlabel => ?_⟩
  · rw [Utterance.read, String.toList_ofList, ← hrender, readChars_renderNodes hls]
  · obtain ⟨n, -, hresolves⟩ := exists_rel_of_mem_right h (hlabels node hmem hlabel)
    obtain ⟨head, rfl⟩ := hresolves.exists_placeholder hlabel
    exact ⟨head, rfl, hresolves.knows hs⟩

namespace Compile

/-- **The patterns of a compiled model can be read if the names in them can be written.**  A pattern
comes from a template in which each node has been replaced by what it stands for; if the entities
named there without `@` can all be written in a head, the pattern can be read again, its labels have
no values, and the registry knows those without `@`.  This holds of all patterns if every entity has
a name that can be written in a head. -/
theorem patterns_readable (file source : String) (options : Options) (probe : Probe)
    (c : Compilation) (h : compile file source options probe = .ok c) :
    (∀ p ∈ c.model.app.patterns, ∃ e ∈ (intentsOf file source).flatMap IntentSection.lines,
      ∃ nodes, e.2.isTemplate ∧ p.intent = e.1 ∧
        List.Forall₂ (Resolves c.model.app.registry) e.2.nodes nodes ∧
        p.pattern = String.ofList (Chars.trim (renderNodes nodes)) ∧
        (NamesPlain nodes → c.model.app.registry.Reads p.pattern)) ∧
      ((∀ r ∈ c.model.app.registry.records, Head.IsPlainEntity r.name) →
        ∀ p ∈ c.model.app.patterns, c.model.app.registry.Reads p.pattern) := by
  have hs := sound_of_compile h
  have hpattern : ∀ p ∈ c.model.app.patterns,
      ∃ e ∈ (intentsOf file source).flatMap IntentSection.lines, e.2.isTemplate ∧
        PatternOf c.model.app.registry e p := by
    intro p hp
    obtain ⟨ps, hps, heq⟩ := (hasIntents_of_compile h).image.patterns
    rw [heq, FirstSeen.mem_ofList] at hp
    obtain ⟨e, he, hof⟩ := exists_rel_of_mem_right hps hp
    obtain ⟨hmem, htemplate⟩ := List.mem_filter.mp he
    exact ⟨e, hmem, htemplate, hof⟩
  constructor
  · intro p hp
    obtain ⟨e, he, htemplate, hintent, nodes, hnodes, htext⟩ := hpattern p hp
    refine ⟨e, he, nodes, htemplate, hintent, hnodes, htext, fun hplain => ?_⟩
    rw [htext]
    exact Registry.reads_of_resolves hs hnodes (areCanonical_of_mem_lines he) hplain
  · intro hnames p hp
    obtain ⟨e, he, -, -, nodes, hnodes, htext⟩ := hpattern p hp
    rw [htext]
    refine Registry.reads_of_resolves hs hnodes (areCanonical_of_mem_lines he) ?_
    intro head hmem hat
    obtain ⟨n, -, hresolves⟩ := exists_rel_of_mem_right hnodes hmem
    obtain ⟨r, hget, -⟩ := hresolves.knows hs hat
    rw [← hs.name_eq hget]
    exact hnames r (Registry.mem_records_iff.mpr ⟨_, hget⟩)

/-- A source with a template that has braces in its text, a reference by `@` and a placeholder. -/
def referringSource : String :=
  "@ simple city hasRoles from\n# go\n- \\\x7bnow\\\x7d fly \x7b@from\x7d by \x7bair:line\x7d\n"

theorem patterns_readable_referringSource :
    ∃ c, compile "go" referringSource {} Probe.offline = .ok c ∧
      c.model.app.patterns = [⟨"\\\x7bnow\\\x7d fly \x7bcity:from\x7d by \x7bair:line\x7d", "go"⟩] ∧
      ∀ p ∈ c.model.app.patterns, c.model.app.registry.Reads p.pattern := by
  have hrun : (compile "go" referringSource {} Probe.offline).toOption.map (fun c =>
        (c.model.app.patterns,
          decide (∀ r ∈ c.model.app.registry.records, Head.IsPlainEntity r.name))) =
      some ([⟨"\\\x7bnow\\\x7d fly \x7bcity:from\x7d by \x7bair:line\x7d", "go"⟩], true) := by
    decide +kernel
  obtain ⟨c, hc, hresult⟩ := exists_ok_of_map_toOption hrun
  obtain ⟨hpatterns, hplain⟩ := Prod.mk.inj hresult
  exact ⟨c, hc, hpatterns, (patterns_readable _ _ _ _ c hc).2 (of_decide_eq_true hplain)⟩

/-- A source that declares an entity with a brace in its name and refers to its role. -/
def bracedSource : String :=
  "@ simple a\x7db hasRoles r\n# go\n- see \x7b@r\x7d\n"

/-- A source that declares an entity with a colon in its name and refers to its role. -/
def colonSource : String :=
  "@ simple a:b hasRoles r\n# go\n- see \x7b@r\x7d\n"

theorem pattern_unreadable_bracedSource :
    (∃ c, compile "go" bracedSource {} Probe.offline = .ok c ∧
      c.model.app.patterns = [⟨"see \x7ba\x7db:r\x7d", "go"⟩] ∧
      ¬ c.model.app.registry.Reads "see \x7ba\x7db:r\x7d") ∧
    ∃ c, compile "go" colonSource {} Probe.offline = .ok c ∧
      c.model.app.patterns = [⟨"see \x7ba:b:r\x7d", "go"⟩] ∧
      ¬ c.model.app.registry.Reads "see \x7ba:b:r\x7d" := by
  constructor
  · have hrun : (compile "go" bracedSource {} Probe.offline).toOption.map (·.model.app.patterns) =
        some [⟨"see \x7ba\x7db:r\x7d", "go"⟩] := by decide +kernel
    have hread : Utterance.read "see \x7ba\x7db:r\x7d" = .error .unbalanced := by decide +kernel
    obtain ⟨c, hc, hpatterns⟩ := exists_ok_of_map_toOption hrun
    refine ⟨c, hc, hpatterns, ?_⟩
    rintro ⟨nodes, hnodes, -⟩
    rw [hread] at hnodes
    cases hnodes
  · have hrun : (compile "go" colonSource {} Probe.offline).toOption.map (fun c =>
          (c.model.app.patterns, c.model.app.registry.get? "a")) =
        some ([⟨"see \x7ba:b:r\x7d", "go"⟩], none) := by decide +kernel
    have hread : Utterance.read "see \x7ba:b:r\x7d" =
        .ok [.text "see ", .placeholder { entity := "a", role := some "b:r" }] := by decide +kernel
    obtain ⟨c, hc, hresult⟩ := exists_ok_of_map_toOption hrun
    obtain ⟨hpatterns, hnone⟩ := Prod.mk.inj hresult
    refine ⟨c, hc, hpatterns, ?_⟩
    rintro ⟨nodes, hnodes, hlabels⟩
    rw [hread] at hnodes
    cases hnodes
    obtain ⟨head, hhead, hknows⟩ :=
      hlabels _ (List.mem_cons_of_mem _ List.mem_cons_self) rfl
    cases hhead
    obtain ⟨r, hget, -⟩ := hknows rfl
    rw [hnone] at hget
    cases hget

end Compile

end DialogModel
