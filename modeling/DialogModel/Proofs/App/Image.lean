import DialogModel.Proofs.App.Lines

/-!
# The image of the lines

`App.ImageOf lines app` says that the utterances and the patterns of an application are those of the
given lines: there is one utterance for each text and intent of a spoken line, it has a label where
one of these lines has one and nowhere else, and there is one pattern for each template, up to
repetition.  `App.ImageOf.step` adds a line.

Two lines with the same text and intent share an utterance.  Their labels are told apart by their
positions here, since the entity and the role that a label names depend on what the registry knew
when its line was read.
-/

namespace DialogModel

open Utterance

/-- What an utterance is identified by. -/
def Example.key (u : Example) : String × String :=
  (u.text, u.intent)

lemma Example.key_eq_iff {u v : Example} :
    v.key = u.key ↔ v.text = u.text ∧ v.intent = u.intent := by
  rw [key, key, Prod.mk.injEq]

/-- What the utterance of a spoken line is identified by. -/
def IntentLine.key (e : IntentLine) : String × String :=
  (e.2.flat.text, e.1)

/-! ## Merging an utterance -/

namespace App

lemma map_key_mergeExample (u : Example) (us : List Example) :
    (mergeExample u us).map Example.key = FirstSeen.add (us.map Example.key) u.key := by
  induction us with
  | nil => rfl
  | cons v us ih =>
      unfold mergeExample
      split_ifs with hsame
      · have hmem : u.key ∈ (v :: us).map Example.key :=
          Example.key_eq_iff.mpr hsame ▸ List.mem_cons_self
        rw [FirstSeen.add, if_pos hmem]
        rfl
      · rw [← Example.key_eq_iff] at hsame
        rw [List.map_cons, ih, List.map_cons, FirstSeen.add_cons_of_ne hsame]

/-- An utterance after a merge was there before, or it has taken the labels of the new one, or it
is the new one. -/
lemma mem_mergeExample {u v : Example} {us : List Example} (hkeys : (us.map Example.key).Nodup)
    (h : v ∈ mergeExample u us) :
    (v ∈ us ∧ v.key ≠ u.key) ∨
      (∃ w ∈ us, w.key = u.key ∧ v = { w with labels := FirstSeen.addAll w.labels u.labels }) ∨
      (u.key ∉ us.map Example.key ∧ v = u) := by
  induction us with
  | nil => exact .inr (.inr ⟨List.not_mem_nil, List.mem_singleton.mp h⟩)
  | cons w us ih =>
      obtain ⟨hnew, hrest⟩ := List.nodup_cons.mp hkeys
      unfold mergeExample at h
      split_ifs at h with hsame
      · rw [← Example.key_eq_iff] at hsame
        rcases List.mem_cons.mp h with rfl | h
        · exact .inr (.inl ⟨w, List.mem_cons_self, hsame, rfl⟩)
        · refine .inl ⟨List.mem_cons_of_mem w h, fun heq => hnew ?_⟩
          rw [hsame, ← heq]
          exact List.mem_map_of_mem h
      · rw [← Example.key_eq_iff] at hsame
        rcases List.mem_cons.mp h with rfl | h
        · exact .inl ⟨List.mem_cons_self, hsame⟩
        · rcases ih hrest h with ⟨hv, hne⟩ | ⟨x, hx, hxkey, hv⟩ | ⟨hfree, hv⟩
          · exact .inl ⟨List.mem_cons_of_mem w hv, hne⟩
          · exact .inr (.inl ⟨x, List.mem_cons_of_mem w hx, hxkey, hv⟩)
          · refine .inr (.inr ⟨fun hmem => ?_, hv⟩)
            rcases List.mem_cons.mp hmem with hmem | hmem
            · exact hsame hmem.symm
            · exact hfree hmem

end App

/-! ## Utterances and their lines -/

/-- An utterance with the labels of the spoken lines that have its text and its intent. -/
structure Example.ImageOf (lines : List IntentLine) (u : Example) : Prop where
  nodup : u.labels.Nodup
  bounds : ∀ l ∈ u.labels, l.startPos ≤ l.endPos ∧ l.endPos < u.text.length
  positions : ∀ x, x ∈ u.labels.map Label.positions ↔
    ∃ e ∈ lines, e.2.isSpoken ∧ e.key = u.key ∧ x ∈ e.2.flat.labels.map Span.positions

/-- A line that is no spoken one, or has another text or intent, does not matter. -/
lemma Example.ImageOf.concat {lines : List IntentLine} {u : Example} (h : u.ImageOf lines)
    {e : IntentLine} (he : e.2.isSpoken → e.key ≠ u.key) : u.ImageOf (lines ++ [e]) := by
  refine ⟨h.nodup, h.bounds, fun x => (h.positions x).trans ?_⟩
  constructor
  · rintro ⟨e', he', hrest⟩
    exact ⟨e', List.mem_append_left _ he', hrest⟩
  · rintro ⟨e', he', hspoken, hkey, hx⟩
    rcases List.mem_append.mp he' with he' | he'
    · exact ⟨e', he', hspoken, hkey, hx⟩
    · rw [List.mem_singleton.mp he'] at hspoken hkey
      exact absurd hkey (he hspoken)

/-- The labels of a line that covers characters with each of its labels. -/
lemma Example.labels_of_positions {u : Example} {line : UtteranceLine}
    (htext : u.text = line.flat.text)
    (hpositions : u.labels.map Label.positions = line.flat.labels.map Span.positions)
    (hfull : ∀ s ∈ line.flat.labels, s.isEmpty = false) :
    u.labels.Nodup ∧ ∀ l ∈ u.labels, l.startPos ≤ l.endPos ∧ l.endPos < u.text.length := by
  refine ⟨.of_map Label.positions (hpositions ▸ nodup_positions hfull), fun l hl => ?_⟩
  have hmem : l.positions ∈ line.flat.labels.map Span.positions :=
    hpositions ▸ List.mem_map_of_mem hl
  obtain ⟨s, hs, heq⟩ := List.mem_map.mp hmem
  have hbounds := positions_bounds hs (hfull s hs)
  rw [heq] at hbounds
  rw [htext]
  exact hbounds

/-! ## The application -/

namespace App

/-- The utterances and the patterns of an application are those of some lines. -/
structure ImageOf (options : Options) (lines : List IntentLine) (app : App) : Prop where
  flattened : ∀ e ∈ lines, flatten e.2.nodes options.allowNestedLabels = .ok e.2.flat
  /-- Every line is spoken or a template. -/
  sorts : ∀ e ∈ lines, e.2.isSpoken ∨ e.2.isTemplate
  /-- There is one utterance for each text and intent of a spoken line. -/
  utterances : app.utterances.map Example.key =
    FirstSeen.ofList ((lines.filter (·.2.isSpoken)).map IntentLine.key)
  labels : ∀ u ∈ app.utterances, u.ImageOf lines
  /-- Every template has a pattern, and every pattern a template. -/
  patterns : ∃ ps, List.Forall₂ (PatternOf app.registry) (lines.filter (·.2.isTemplate)) ps ∧
    app.patterns = FirstSeen.ofList ps

namespace ImageOf

variable {options : Options} {lines : List IntentLine} {app app' : App} {e : IntentLine}

lemma empty : ({} : App).ImageOf options [] where
  flattened _ h := absurd h List.not_mem_nil
  sorts _ h := absurd h List.not_mem_nil
  utterances := rfl
  labels _ h := absurd h List.not_mem_nil
  patterns := ⟨[], .nil, rfl⟩

/-- A change that leaves the utterances and the patterns. -/
lemma mono (h : app.ImageOf options lines) (hutterances : app'.utterances = app.utterances)
    (hpatterns : app'.patterns = app.patterns) (hg : app.registry.Grows app'.registry) :
    app'.ImageOf options lines where
  flattened := h.flattened
  sorts := h.sorts
  utterances := hutterances ▸ h.utterances
  labels := hutterances ▸ h.labels
  patterns := by
    obtain ⟨ps, hps, heq⟩ := h.patterns
    exact ⟨ps, hps.imp fun _ _ => PatternOf.mono hg, hpatterns.trans heq⟩

lemma nodup_keys (h : app.ImageOf options lines) : (app.utterances.map Example.key).Nodup :=
  h.utterances ▸ FirstSeen.nodup_ofList _

/-- A spoken line with the key of no utterance is none of the lines. -/
lemma key_ne (h : app.ImageOf options lines) {k : String × String}
    (hk : k ∉ app.utterances.map Example.key) (he : e ∈ lines) (hspoken : e.2.isSpoken) :
    e.key ≠ k := by
  rintro rfl
  refine hk (h.utterances ▸ FirstSeen.mem_ofList.mpr (List.mem_map_of_mem ?_))
  exact List.mem_filter.mpr ⟨he, hspoken⟩

/-- The utterances after a spoken line.  One that shares its text and intent with the line has the
labels of both. -/
lemma labels_mergeExample (h : app.ImageOf options lines) (hspoken : e.2.isSpoken) {u : Example}
    (hkey : u.key = e.key)
    (hpositions : u.labels.map Label.positions = e.2.flat.labels.map Span.positions)
    (hfull : ∀ s ∈ e.2.flat.labels, s.isEmpty = false) {v : Example}
    (hv : v ∈ mergeExample u app.utterances) : v.ImageOf (lines ++ [e]) := by
  obtain ⟨hnodup, hbounds⟩ :=
    Example.labels_of_positions (congrArg Prod.fst hkey) hpositions hfull
  have hlast : ∀ x, x ∈ u.labels.map Label.positions ↔
      e.2.isSpoken ∧ e.key = u.key ∧ x ∈ e.2.flat.labels.map Span.positions :=
    fun x => by simp [hspoken, hkey, hpositions]
  rcases mem_mergeExample h.nodup_keys hv with ⟨hold, hne⟩ | ⟨w, hw, hwkey, rfl⟩ | ⟨hnew, rfl⟩
  · exact (h.labels v hold).concat fun _ => hkey ▸ Ne.symm hne
  · have hw' := h.labels w hw
    have htext : w.text = u.text := congrArg Prod.fst hwkey
    refine ⟨FirstSeen.nodup_addAll hw'.nodup _, fun l hl => ?_, fun x => ?_⟩
    · rcases FirstSeen.mem_addAll.mp hl with hl | hl
      · exact hw'.bounds l hl
      · exact htext ▸ hbounds l hl
    · have hunion : x ∈ (FirstSeen.addAll w.labels u.labels).map Label.positions ↔
          x ∈ w.labels.map Label.positions ∨ x ∈ u.labels.map Label.positions := by
        simp only [List.mem_map, FirstSeen.mem_addAll, or_and_right, exists_or]
      have hwkey' : Example.key { w with labels := FirstSeen.addAll w.labels u.labels } = w.key :=
        rfl
      rw [hunion, hw'.positions, hlast, hwkey', hwkey]
      simp only [List.mem_append, List.mem_singleton, or_and_right, exists_or, exists_eq_left]
  · refine ⟨hnodup, hbounds, fun x => (hlast x).trans ⟨fun hx => ⟨e, by simp, hx⟩, ?_⟩⟩
    rintro ⟨e', he', hspoken', hkey', hx⟩
    rcases List.mem_append.mp he' with he' | he'
    · exact absurd hkey' (h.key_ne hnew he' hspoken')
    · rw [List.mem_singleton.mp he'] at hkey' hx
      exact ⟨hspoken, hkey', hx⟩

/-- **A line that is carried out joins the lines of the image.** -/
lemma step (h : app.ImageOf options lines) (hs : app.registry.Sound)
    (hstep : e.2.apply options e.1 app = .ok app') : app'.ImageOf options (lines ++ [e]) := by
  have hgrows := (UtteranceLine.apply_steps hs hstep).grows.registry
  obtain ⟨hflat, hsort⟩ := UtteranceLine.apply_eq_ok hs hstep
  have hflattened : ∀ e' ∈ lines ++ [e],
      flatten e'.2.nodes options.allowNestedLabels = .ok e'.2.flat :=
    List.forall_mem_append.mpr ⟨h.flattened, List.forall_mem_singleton.mpr hflat⟩
  have hsorts : ∀ e' ∈ lines ++ [e], e'.2.isSpoken ∨ e'.2.isTemplate :=
    List.forall_mem_append.mpr
      ⟨h.sorts, List.forall_mem_singleton.mpr (hsort.imp And.left And.left)⟩
  obtain ⟨ps, hps, hpatterns⟩ := h.patterns
  have hps' := hps.imp fun _ _ => PatternOf.mono hgrows
  rcases hsort with ⟨hspoken, u, htext, hintent, hpositions, hfull, hadd, hsame⟩ |
    ⟨htemplate, p, hp, hsame, hadd⟩
  · have htemplate : e.2.isTemplate = false := by
      cases hcase : e.2.isTemplate with
      | false => rfl
      | true => simp [UtteranceLine.isSpoken_eq_false_of_isTemplate hcase] at hspoken
    have hkey : u.key = e.key := by rw [Example.key, htext, hintent, IntentLine.key]
    refine ⟨hflattened, hsorts, ?_, ?_, ps, ?_, hsame.trans hpatterns⟩
    · rw [hadd, map_key_mergeExample, h.utterances, hkey, ← FirstSeen.ofList_concat]
      simp [hspoken]
    · rw [hadd]
      exact fun v hv => h.labels_mergeExample hspoken hkey hpositions hfull hv
    · simpa [htemplate] using hps'
  · have hspoken := UtteranceLine.isSpoken_eq_false_of_isTemplate htemplate
    refine ⟨hflattened, hsorts, ?_, ?_, ps ++ [p], ?_, ?_⟩
    · rw [hsame, h.utterances]
      simp [hspoken]
    · rw [hsame]
      exact fun v hv => (h.labels v hv).concat fun htrue => by simp [hspoken] at htrue
    · rw [List.filter_append, List.filter_singleton, htemplate]
      exact List.rel_append hps' (.cons hp .nil)
    · rw [hadd, hpatterns, FirstSeen.ofList_concat]

/-- The lines of an intent, one after another. -/
lemma foldlM (h : app.ImageOf options lines) (hs : app.registry.Sound) {intent : String}
    {new : List UtteranceLine}
    (hrun : new.foldlM (fun app line => line.apply options intent app) app = .ok app') :
    app'.ImageOf options (lines ++ new.map (intent, ·)) := by
  induction new generalizing app lines with
  | nil =>
      cases hrun
      simpa using h
  | cons line new ih =>
      rw [List.foldlM_cons] at hrun
      obtain ⟨app₁, hline, hrun⟩ := bind_eq_ok_iff.mp hrun
      have hs₁ := (UtteranceLine.apply_steps hs hline).sound hs
      have hrest := ih (h.step (e := (intent, line)) hs hline) hs₁ hrun
      simpa using hrest

end ImageOf

end App

end DialogModel
