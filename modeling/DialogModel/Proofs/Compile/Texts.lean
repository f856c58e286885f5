import DialogModel.Proofs.Compile.Patterns
import DialogModel.Proofs.Compile.Questions
import DialogModel.Proofs.Registry.Contents
import DialogModel.Proofs.Utterance.Solid

/-!
# The texts of a compiled model

Every text that a model keeps from a bullet or from the definition of an entity is trimmed, and most
of them cannot be empty, since empty items are dropped where a definition, a question or a word is
read.  Two readers do not drop them: an empty bullet of an intent becomes an empty utterance, and an
empty line of a list becomes an empty synonym, or an empty value if it has a colon.  `Slot` names
the places of a model that keep such texts, and `Slot.LeftEmpty` says which of them a source leaves
empty; these and no others are empty in the model (`texts_trimmed`).
-/

namespace DialogModel

open Entity Utterance

/-! ## Texts and where they are kept -/

/-- A place of the model that keeps texts. -/
inductive Slot
  /-- The utterances of an intent. -/
  | utterance (intent : String)
  | pattern
  /-- The values of a list. -/
  | value (entity : String)
  /-- The synonyms of a list. -/
  | synonym (entity : String)
  | phrase
  | child
  | spelling
  | question
  deriving DecidableEq, Repr

/-- The model keeps a text in a place. -/
def Model.Stores (m : Model) : Slot → String → Prop
  | .utterance intent, text => ∃ u ∈ m.app.utterances, u.intent = intent ∧ u.text = text
  | .pattern, text => ∃ p ∈ m.app.patterns, p.pattern = text
  | .value entity, text => ∃ r ∈ m.app.registry.records, r.name = entity ∧ text ∈ r.detail.forms
  | .synonym entity, text =>
    ∃ r ∈ m.app.registry.records, r.name = entity ∧ text ∈ r.detail.synonyms
  | .phrase, text => ∃ p ∈ m.app.registry.phraseLists.values, text ∈ p.values
  | .child, text => ∃ r ∈ m.app.registry.records, text ∈ r.detail.children
  | .spelling, text => ∃ words ∈ m.kb.alterations, text ∈ words
  | .question, text => ∃ pair ∈ m.kb.pairs, text ∈ pair.questions

/-- All texts that a model keeps. -/
def Model.texts (m : Model) : List String :=
  m.app.utterances.map Example.text ++ m.app.patterns.map Pattern.pattern ++
    m.app.registry.records.flatMap
      (fun r => r.detail.forms ++ r.detail.synonyms ++ r.detail.children) ++
    m.app.registry.phraseLists.values.flatMap Phrases.values ++ m.kb.alterations.flatten ++
    m.kb.pairs.flatMap QuestionPair.questions

lemma Model.mem_texts_iff {m : Model} {text : String} :
    text ∈ m.texts ↔ ∃ slot, m.Stores slot text := by
  simp only [Model.texts, List.mem_append, List.mem_map, List.mem_flatMap, List.mem_flatten]
  constructor
  · rintro (((((⟨u, hu, rfl⟩ | ⟨p, hp, rfl⟩) | ⟨r, hr, (hv | hx) | hx⟩) | ⟨p, hp, hv⟩) |
      ⟨words, hwords, hw⟩) | ⟨pair, hpair, hq⟩)
    · exact ⟨.utterance u.intent, u, hu, rfl, rfl⟩
    · exact ⟨.pattern, p, hp, rfl⟩
    · exact ⟨.value r.name, r, hr, rfl, hv⟩
    · exact ⟨.synonym r.name, r, hr, rfl, hx⟩
    · exact ⟨.child, r, hr, hx⟩
    · exact ⟨.phrase, p, hp, hv⟩
    · exact ⟨.spelling, words, hwords, hw⟩
    · exact ⟨.question, pair, hpair, hq⟩
  · rintro ⟨slot, h⟩
    cases slot <;> grind [Model.Stores]

/-- A source leaves a place empty: it has an empty bullet in an intent, or a list with a colon and
nothing before it, a definition that is `=` alone, or an empty bullet. -/
def Slot.LeftEmpty (sections : List Section) : Slot → Prop
  | .utterance intent =>
    ∃ s, .intent s ∈ sections ∧ s.name = intent ∧ ∃ line ∈ s.utterances, line.nodes = []
  | .value entity =>
    ∃ s ∈ sections, ∃ d given, s.Declares d (.list given) ∧ d.name = entity ∧
      ("" ∈ given.map Sublist.canonicalForm ∨
        ∃ line ∈ d.definitionLines, Text.trim line.text = ":")
  | .synonym entity =>
    ∃ s ∈ sections, ∃ d given, s.Declares d (.list given) ∧ d.name = entity ∧
      ∃ line ∈ d.definitionLines, Text.trim line.text = ""
  | _ => False

/-! ## Spellings -/

lemma Directive.apply_alterations {d : Directive} {prov : Provenance} {m m' : Model}
    (h : d.apply prov m = .ok m') : m'.kb.alterations = m.kb.alterations := by
  cases d with
  | appSetting | kbSetting | intentInherits =>
      cases h
      rfl
  | entityInherits =>
      obtain ⟨reg, -, h⟩ := bind_eq_ok_iff.mp h
      cases h
      rfl

lemma Declaration.run_alterations {ctx : Context} {d : Declaration} {m m' : Model} {plan : Plan}
    (h : d.run ctx m plan = .ok m') {words : List String} (hwords : words ∈ m'.kb.alterations) :
    words ∈ m.kb.alterations ∨ plan = .alterations ∧ words = d.spellings := by
  cases plan with
  | alterations =>
      cases h
      rcases List.mem_append.mp hwords with hwords | hwords
      · exact .inl hwords
      · exact .inr ⟨rfl, List.mem_singleton.mp hwords⟩
  | simple | patternAny | list | composite | regex | prebuilt | phraseList =>
      obtain ⟨app, -, h⟩ := bind_eq_ok_iff.mp h
      cases h
      exact .inl hwords

/-- Only a declaration of spellings adds to them. -/
lemma Section.apply_alterations {ctx : Context} {s : Section} {m m' : Model}
    (h : s.apply ctx m = .ok m') {words : List String} (hwords : words ∈ m'.kb.alterations) :
    words ∈ m.kb.alterations ∨ ∃ d, s.Declares d .alterations ∧ words = d.spellings := by
  cases s with
  | modelInfo info =>
      simp only [Section.apply, ModelInfo.apply] at h
      split at h
      · rw [Directive.apply_alterations h] at hwords
        exact .inl hwords
      · cases h
        exact .inl hwords
  | importLink link =>
      have hfile (contentType : String) :
          (link.file contentType m.kb).alterations = m.kb.alterations := by
        unfold ImportLink.file KnowledgeBase.addFile
        split_ifs <;> rfl
      simp only [Section.apply, ImportLink.apply] at h
      split_ifs at h
      · split at h
        · cases h
          rw [hfile] at hwords
          exact .inl hwords
        · cases h
      · cases h
        exact .inl hwords
  | intent intent =>
      obtain ⟨app, -, h⟩ := bind_eq_ok_iff.mp h
      cases h
      exact .inl hwords
  | newEntity entity =>
      obtain ⟨plan, hplan, h⟩ := bind_eq_ok_iff.mp h
      rw [Provenance.locate_eq_ok_iff] at hplan
      refine (Declaration.run_alterations h hwords).imp_right ?_
      rintro ⟨rfl, rfl⟩
      exact ⟨_, .newEntity hplan, rfl⟩
  | legacyEntity entity =>
      obtain ⟨⟨declaration, plan⟩, hplan, h⟩ := bind_eq_ok_iff.mp h
      rw [Provenance.locate_eq_ok_iff] at hplan
      refine (Declaration.run_alterations h hwords).imp_right ?_
      rintro ⟨rfl, rfl⟩
      exact ⟨_, .legacyEntity hplan, rfl⟩
  | question question =>
      cases h
      exact .inl hwords

/-- Spellings are declared with `$`, under a name that is a text of the source. -/
lemma Document.isSolid_of_declares {file source : String} {s : Section}
    (hs : s ∈ (Document.read file source).sections) {d : Declaration}
    (hd : s.Declares d .alterations) : Text.IsSolid d.name := by
  cases hd with
  | newEntity h => cases NewEntity.Reads.of_plan h
  | @legacyEntity e _ _ h =>
      cases LegacyEntity.Reads.of_plan h
      obtain ⟨l, hl, definition, hkind⟩ := Document.exists_line_of_legacyName? hs rfl
      have htidy := Line.isTidy_of_mem_scan hl
      rw [hkind] at htidy
      exact ⟨htidy.1, htidy.2⟩

/-! ## Lists grow and never lose a text -/

namespace Entity.Detail.Grows

lemma mem_forms {d d' : Detail} (h : d.Grows d') {v : String} (hv : v ∈ d.forms) :
    v ∈ d'.forms := by
  cases h with
  | refl => exact hv
  | list hext =>
      induction hext with
      | nil => cases hv
      | cons hst _ ih =>
          rcases List.mem_cons.mp hv with rfl | hv
          · exact List.mem_cons.mpr (.inl hst.canonicalForm.symm)
          · exact List.mem_cons_of_mem _ (ih hv)
  | children | pattern | promoted | absorbed => cases hv

lemma mem_synonyms {d d' : Detail} (h : d.Grows d') {x : String} (hx : x ∈ d.synonyms) :
    x ∈ d'.synonyms := by
  cases h with
  | refl => exact hx
  | list hext =>
      induction hext with
      | nil => cases hx
      | cons hst _ ih =>
          rcases List.mem_append.mp hx with hx | hx
          · exact List.mem_append_left _ (hst.synonyms.subset hx)
          · exact List.mem_append_right _ (ih hx)
  | children | pattern | promoted | absorbed => cases hx

end Entity.Detail.Grows

/-- After its declaration a list has the values and the synonyms of its definition. -/
lemma Declaration.list_of_declareList {d : Declaration} {app app' : App} {given : List Sublist}
    (h : d.declareList app given = .ok app') :
    ∃ new r, d.sublists given = .ok new ∧ app'.registry.get? d.name = some r ∧
      (∀ v ∈ new.map Sublist.canonicalForm, v ∈ r.detail.forms) ∧
      ∀ x ∈ new.flatMap Sublist.synonyms, x ∈ r.detail.synonyms := by
  unfold declareList at h
  obtain ⟨new, hnew, h⟩ := bind_eq_ok_iff.mp h
  obtain ⟨app₁, hreg, h⟩ := bind_eq_ok_iff.mp h
  cases h
  obtain ⟨r, hget, hkind, -⟩ := has_of_register (by decide) hreg
  obtain ⟨existing, hdetail⟩ : ∃ existing, r.detail = .list existing := by
    cases hd : r.detail <;> simp_all [Record.kind, Detail.kind]
  obtain ⟨hforms, hsynonyms⟩ := mem_foldl_mergeSublist new existing
  refine ⟨new, { r with detail := mergeSublists new r.detail }, hnew, ?_, ?_, ?_⟩
  · simp [Registry.get?_updateDetail, hget]
  · intro v hv
    rw [hdetail]
    exact (hforms v).mpr (.inr hv)
  · intro x hx
    rw [hdetail]
    exact (hsynonyms x).mpr (.inr hx)

lemma Section.list_of_apply {ctx : Context} {s : Section} {d : Declaration} {given : List Sublist}
    (hd : s.Declares d (.list given)) {m m' : Model} (h : s.apply ctx m = .ok m') :
    d.declareList m.app given = .ok m'.app := by
  rw [apply_of_declares hd] at h
  exact Declaration.eq_ok_app h

namespace Compile

variable {options : Options} {probe : Probe} {file source : String} {c : Compilation}

/-! ## Utterances and patterns -/

lemma mem_lines_iff {name : String} {line : UtteranceLine} :
    (name, line) ∈ (intentsOf file source).flatMap IntentSection.lines ↔
      ∃ s, .intent s ∈ (Document.read file source).sections ∧ s.name = name ∧
        line ∈ s.utterances := by
  have hintents {s : IntentSection} : s ∈ intentsOf file source ↔
      .intent s ∈ (Document.read file source).sections := by
    rw [intentsOf, List.mem_filterMap]
    constructor
    · rintro ⟨sec, hsec, hintent⟩
      cases sec with
      | intent t =>
          cases hintent
          exact hsec
      | _ => cases hintent
    · exact fun hs => ⟨_, hs, rfl⟩
  simp only [List.mem_flatMap, hintents, IntentSection.lines, List.mem_map, Prod.mk.injEq]
  constructor
  · rintro ⟨s, hs, line', hline, hname, rfl⟩
    exact ⟨s, hs, hname, hline⟩
  · rintro ⟨s, hs, hname, hline⟩
    exact ⟨s, hs, line, hline, hname, rfl⟩

/-- An utterance is the flat text of a line, which has no labels if the text is empty. -/
lemma exists_line_of_mem_utterances (h : compile file source options probe = .ok c) {u : Example}
    (hu : u ∈ c.model.app.utterances) :
    ∃ s, .intent s ∈ (Document.read file source).sections ∧ s.name = u.intent ∧
      ∃ line ∈ s.utterances, line.flat.text = u.text ∧ (u.text = "" → line.flat.labels = []) := by
  have himage := (hasIntents_of_compile h).image
  have hkey : u.key ∈ c.model.app.utterances.map Example.key := List.mem_map_of_mem hu
  rw [himage.utterances, FirstSeen.mem_ofList] at hkey
  obtain ⟨⟨name, line⟩, he, hkey⟩ := List.mem_map.mp hkey
  obtain ⟨hmem, hspoken⟩ := List.mem_filter.mp he
  obtain ⟨s, hs, hname, hline⟩ := mem_lines_iff.mp hmem
  obtain ⟨htext, hintent⟩ := Prod.mk.inj hkey
  refine ⟨s, hs, hname.trans hintent, line, hline, htext, fun hempty => ?_⟩
  by_contra hne
  -- A label of the line is one of the utterance, and it would cover a character.
  obtain ⟨span, hspan⟩ := List.exists_mem_of_ne_nil _ hne
  have hlabels := himage.labels u hu
  have hposition : span.positions ∈ u.labels.map Label.positions :=
    (hlabels.positions _).mpr ⟨_, hmem, hspoken, hkey, List.mem_map_of_mem hspan⟩
  obtain ⟨l, hl, -⟩ := List.mem_map.mp hposition
  have hbound := (hlabels.bounds l hl).2
  simp [hempty] at hbound

lemma trim_utterance (h : compile file source options probe = .ok c) {u : Example}
    (hu : u ∈ c.model.app.utterances) : Text.trim u.text = u.text := by
  obtain ⟨s, -, -, line, -, htext, -⟩ := exists_line_of_mem_utterances h hu
  rw [← htext]
  exact Text.trim_ofList (rawNodes line.nodes)

/-- **An intent has an empty utterance exactly if it has an empty bullet.** -/
lemma stores_empty_utterance_iff (h : compile file source options probe = .ok c)
    (intent : String) : c.model.Stores (.utterance intent) "" ↔
      Slot.LeftEmpty (Document.read file source).sections (.utterance intent) := by
  have himage := (hasIntents_of_compile h).image
  constructor
  · rintro ⟨u, hu, hintent, htext⟩
    obtain ⟨s, hs, hname, line, hline, hflat, hlabels⟩ := exists_line_of_mem_utterances h hu
    obtain ⟨text, htrim, hread⟩ := Document.exists_read_of_mem_utterances hs hline
    refine ⟨s, hs, hname.trans hintent, line, hline, ?_⟩
    refine nodes_eq_nil_of_readChars hread ?_ (hlabels htext) (hflat.trans htext)
    rw [← Text.toList_trim, htrim]
  · rintro ⟨s, hs, hname, line, hline, hnodes⟩
    have hflat : line.flat = flatOf [] := by rw [UtteranceLine.flat, hnodes]
    have hspoken : line.isSpoken := by
      rw [UtteranceLine.isSpoken, hflat]
      rfl
    have hkey : ("", intent) ∈ c.model.app.utterances.map Example.key := by
      rw [himage.utterances, FirstSeen.mem_ofList]
      refine List.mem_map.mpr ⟨(s.name, line), List.mem_filter.mpr ⟨?_, hspoken⟩, ?_⟩
      · exact mem_lines_iff.mpr ⟨s, hs, rfl, hline⟩
      · rw [IntentLine.key, hflat, hname]
        rfl
    obtain ⟨u, hu, hkey⟩ := List.mem_map.mp hkey
    obtain ⟨htext, hintent⟩ := Prod.mk.inj hkey
    exact ⟨u, hu, hintent, htext⟩

/-- A pattern is written with a brace. -/
lemma isSolid_pattern (h : compile file source options probe = .ok c) {p : Pattern}
    (hp : p ∈ c.model.app.patterns) : Text.IsSolid p.pattern := by
  obtain ⟨ps, hps, heq⟩ := (hasIntents_of_compile h).image.patterns
  rw [heq, FirstSeen.mem_ofList] at hp
  obtain ⟨⟨name, line⟩, he, -, nodes, hnodes, htext⟩ := exists_rel_of_mem_right hps hp
  have htemplate : line.isTemplate := (List.mem_filter.mp he).2
  obtain ⟨n, hn, hlabel⟩ : ∃ n ∈ line.nodes, n.isText = false := by
    by_contra! hnone
    have hlabels : line.flat.labels = [] :=
      labels_eq_nil_iff.mpr fun n hn => by simpa using hnone n hn
    simp [UtteranceLine.isTemplate, hlabels] at htemplate
  obtain ⟨n', hn', hresolves⟩ := exists_rel_of_mem_right hnodes.flip hn
  obtain ⟨inner, hrender⟩ := n'.render_of_not_isText (hresolves.isText_eq.trans hlabel)
  have hbrace : '\x7b' ∈ renderNodes nodes := mem_renderNodes hn' (by simp [hrender])
  refine ⟨htext ▸ Text.trim_ofList _, fun hempty => ?_⟩
  rw [htext, String.ofList_eq_empty_iff, Chars.trim_eq_nil_iff] at hempty
  exact absurd (hempty _ hbrace) (by decide)

/-! ## Entities -/

lemma contentsFrom_of_compile (h : compile file source options probe = .ok c) :
    c.model.app.registry.ContentsFrom (Document.read file source).sections := by
  obtain ⟨ctx, hreached⟩ := reached_of_compile h
  refine hreached.induction_mem (motive := fun m =>
    m.app.registry.ContentsFrom (Document.read file source).sections)
    Registry.contentsFrom_empty ?_
  intro s hs ctx m m' hm happly
  exact Section.apply_keeps Registry.lasting_contentsFrom
    (fun d plan hd => Registry.keeps_contentsFrom hs hd) happly hm

/-- A list that a section declares is in the model with the values and synonyms it is given. -/
lemma list_of_compile (h : compile file source options probe = .ok c) {s : Section}
    (hs : s ∈ (Document.read file source).sections) {d : Declaration} {given : List Sublist}
    (hd : s.Declares d (.list given)) :
    ∃ new, ∃ r ∈ c.model.app.registry.records, d.sublists given = .ok new ∧ r.name = d.name ∧
      (∀ v ∈ new.map Sublist.canonicalForm, v ∈ r.detail.forms) ∧
      ∀ x ∈ new.flatMap Sublist.synonyms, x ∈ r.detail.synonyms := by
  obtain ⟨-, ctx, hrun⟩ := compile_eq_ok h
  obtain ⟨pass, ctx', rest, m₁, m₂, hreached, happly⟩ := exists_reached_of_mem hs hrun
  obtain ⟨new, r, hnew, hget, hforms, hsynonyms⟩ :=
    Declaration.list_of_declareList (Section.list_of_apply hd happly)
  have hgrows := (hreached.step happly).grows hrun
  obtain ⟨r', hget', hr⟩ := hgrows.registry.entities hget
  refine ⟨new, r', Registry.mem_records_iff.mpr ⟨_, hget'⟩, hnew,
    (sound_of_compile h).name_eq hget', ?_, ?_⟩
  · exact fun v hv => hr.detail.mem_forms (hforms v hv)
  · exact fun x hx => hr.detail.mem_synonyms (hsynonyms x hx)

/-- **The values of a list are those that the sections give to it.** -/
lemma stores_value_iff (h : compile file source options probe = .ok c) (entity v : String) :
    c.model.Stores (.value entity) v ↔
      ∃ s ∈ (Document.read file source).sections, s.GivesValue entity v := by
  constructor
  · rintro ⟨r, hr, rfl, hv⟩
    have hget := (sound_of_compile h).get?_name hr
    exact ((contentsFrom_of_compile h).details _ r hget).values v hv
  · rintro ⟨s, hs, d, given, hd, rfl, hgives⟩
    obtain ⟨new, r, hr, hnew, hname, hforms, -⟩ := list_of_compile h hs hd
    exact ⟨r, hr, hname, hforms v (((Declaration.mem_sublists hnew).1 v).mpr hgives)⟩

/-- **The synonyms of a list are those that the sections give to it.** -/
lemma stores_synonym_iff (h : compile file source options probe = .ok c) (entity x : String) :
    c.model.Stores (.synonym entity) x ↔
      ∃ s ∈ (Document.read file source).sections, s.GivesSynonym entity x := by
  constructor
  · rintro ⟨r, hr, rfl, hx⟩
    have hget := (sound_of_compile h).get?_name hr
    exact ((contentsFrom_of_compile h).details _ r hget).synonyms x hx
  · rintro ⟨s, hs, d, given, hd, rfl, hgives⟩
    obtain ⟨new, r, hr, hnew, hname, -, hsynonyms⟩ := list_of_compile h hs hd
    exact ⟨r, hr, hname, hsynonyms x (((Declaration.mem_sublists hnew).2 x).mpr (.inr hgives))⟩

lemma alterations_of_compile (h : compile file source options probe = .ok c)
    {words : List String} (hwords : words ∈ c.model.kb.alterations) :
    ∃ s ∈ (Document.read file source).sections, ∃ d, s.Declares d .alterations ∧
      words = d.spellings := by
  obtain ⟨ctx, hreached⟩ := reached_of_compile h
  refine hreached.induction_mem (motive := fun m => ∀ words ∈ m.kb.alterations,
    ∃ s ∈ (Document.read file source).sections, ∃ d, s.Declares d .alterations ∧
      words = d.spellings) nofun ?_ words hwords
  intro s hs ctx m m' hm happly words hwords
  rcases Section.apply_alterations happly hwords with hwords | hdeclares
  · exact hm words hwords
  · exact ⟨s, hs, hdeclares⟩

/-! ## All texts -/

/-- The texts of the places that a source cannot leave empty. -/
lemma isSolid_of_stores (h : compile file source options probe = .ok c) {slot : Slot}
    (hslot : slot ∈ [Slot.pattern, .phrase, .child, .spelling, .question]) {text : String}
    (hstores : c.model.Stores slot text) : Text.IsSolid text := by
  have hcontents := contentsFrom_of_compile h
  simp only [List.mem_cons, List.not_mem_nil, or_false] at hslot
  rcases hslot with rfl | rfl | rfl | rfl | rfl
  · obtain ⟨p, hp, rfl⟩ := hstores
    exact isSolid_pattern h hp
  · obtain ⟨p, hp, htext⟩ := hstores
    obtain ⟨name, hget⟩ := OrderedMap.mem_values_iff.mp hp
    obtain ⟨s, -, d, flag, -, hitem⟩ := hcontents.phrases name p hget text htext
    exact (Declaration.of_mem_items hitem).1
  · obtain ⟨r, hr, htext⟩ := hstores
    have hget := (sound_of_compile h).get?_name hr
    obtain ⟨s, -, d, -, hchild⟩ := (hcontents.details _ r hget).children text htext
    exact Declaration.isSolid_of_mem_children hchild
  · obtain ⟨words, hwords, htext⟩ := hstores
    obtain ⟨s, hs, d, hd, rfl⟩ := alterations_of_compile h hwords
    exact Declaration.isSolid_of_mem_spellings (Document.isSolid_of_declares hs hd) htext
  · obtain ⟨pair, hpair, htext⟩ := hstores
    rw [pairs_of_compile h] at hpair
    obtain ⟨q, -, rfl⟩ := List.mem_map.mp hpair
    exact QuestionSection.isSolid_of_mem_wordings htext

lemma leftEmpty_value_iff {sections : List Section} {entity : String} :
    Slot.LeftEmpty sections (.value entity) ↔ ∃ s ∈ sections, s.GivesValue entity "" := by
  simp only [Slot.LeftEmpty, Section.GivesValue, Declaration.ListItem.ofText_eq_value_empty_iff]

lemma leftEmpty_synonym_iff {sections : List Section} {entity : String} :
    Slot.LeftEmpty sections (.synonym entity) ↔ ∃ s ∈ sections, s.GivesSynonym entity "" := by
  simp only [Slot.LeftEmpty, Section.GivesSynonym, Declaration.ListItem.ofText_eq_synonym_empty_iff]

/-- **The texts of a compiled model are trimmed, and empty only where the source is.**  Every
utterance, pattern, value, synonym, phrase, child, spelling and question that a model keeps has no
blanks around it.  A place keeps an empty text if and only if the source leaves it empty, which can
be said of the utterances of an intent and of the values and synonyms of a list only.  So no text at
all is empty if the source leaves none empty. -/
theorem texts_trimmed (file source : String) (options : Options) (probe : Probe) (c : Compilation)
    (h : compile file source options probe = .ok c) :
    (∀ slot text, c.model.Stores slot text → Text.trim text = text) ∧
      (∀ slot, c.model.Stores slot "" ↔ slot.LeftEmpty (Document.read file source).sections) ∧
      ((∀ slot : Slot, ¬ slot.LeftEmpty (Document.read file source).sections) →
        ∀ text ∈ c.model.texts, Text.IsSolid text) := by
  have hsolid {slot : Slot} (hslot : slot ∈ [Slot.pattern, .phrase, .child, .spelling, .question])
      {text : String} (hstores : c.model.Stores slot text) := isSolid_of_stores h hslot hstores
  have htrim (slot : Slot) (text : String) (hstores : c.model.Stores slot text) :
      Text.trim text = text := by
    cases slot with
    | utterance intent =>
        obtain ⟨u, hu, -, rfl⟩ := hstores
        exact trim_utterance h hu
    | value entity =>
        obtain ⟨s, -, hgives⟩ := (stores_value_iff h entity text).mp hstores
        exact hgives.trim
    | synonym entity =>
        obtain ⟨s, -, hgives⟩ := (stores_synonym_iff h entity text).mp hstores
        exact hgives.trim
    | pattern | phrase | child | spelling | question => exact (hsolid (by simp) hstores).trimmed
  have hempty (slot : Slot) :
      c.model.Stores slot "" ↔ slot.LeftEmpty (Document.read file source).sections := by
    cases slot with
    | utterance intent => exact stores_empty_utterance_iff h intent
    | value entity => rw [stores_value_iff h, leftEmpty_value_iff]
    | synonym entity => rw [stores_synonym_iff h, leftEmpty_synonym_iff]
    | pattern | phrase | child | spelling | question =>
        exact ⟨fun hstores => (hsolid (by simp) hstores).ne_empty rfl, False.elim⟩
  refine ⟨htrim, hempty, fun hnone text htext => ?_⟩
  obtain ⟨slot, hstores⟩ := Model.mem_texts_iff.mp htext
  refine ⟨htrim slot text hstores, ?_⟩
  rintro rfl
  exact hnone slot ((hempty slot).mp hstores)

/-- A source with blanks around the words of an utterance, of a template, of a list, of a composite,
of a phrase list and of a question. -/
def paddedSource : String :=
  "# go\n-   to Rome  \n-  via \x7bstop\x7d  \n@ list size =\n-  big :\n-  huge  \n" ++
    "@ composite trip = [ size , stop ]\n@ phraselist now =  soon ,, today\n" ++
    "$Rome:qna-alterations=\n-  Roma \n-\n# ?  where to \n-\n```\nRome\n```\n"

theorem texts_trimmed_paddedSource :
    ∃ c, compile "go" paddedSource {} Probe.offline = .ok c ∧
      c.model.texts = ["to Rome", "via \x7bstop\x7d", "big", "huge", "size", "stop", "soon",
        "today", "Rome", "Roma", "where to"] ∧
      (∀ slot : Slot, ¬ slot.LeftEmpty (Document.read "go" paddedSource).sections) ∧
      ∀ text ∈ c.model.texts, Text.IsSolid text := by
  have hrun : (compile "go" paddedSource {} Probe.offline).toOption.map (·.model.texts) =
      some ["to Rome", "via \x7bstop\x7d", "big", "huge", "size", "stop", "soon", "today", "Rome",
        "Roma", "where to"] := by
    decide +kernel
  obtain ⟨c, hc, htexts⟩ := exists_ok_of_map_toOption hrun
  obtain ⟨-, hempty, hsolid⟩ := texts_trimmed _ _ _ _ c hc
  have hnone (slot : Slot) : ¬ slot.LeftEmpty (Document.read "go" paddedSource).sections := by
    intro hleft
    have hmem := Model.mem_texts_iff.mpr ⟨slot, (hempty slot).mpr hleft⟩
    simp [htexts] at hmem
  exact ⟨c, hc, htexts, hnone, hsolid hnone⟩

/-- A source with an empty bullet in an intent, a list with a colon alone and an empty bullet, and a
list whose definition is `=` alone. -/
def blankSource : String :=
  "# greet\n-\n@ list size =\n- :\n-\n$city:=\n"

theorem texts_empty_blankSource :
    ∃ c, compile "greet" blankSource {} Probe.offline = .ok c ∧
      c.model.Stores (.utterance "greet") "" ∧ c.model.Stores (.value "size") "" ∧
      c.model.Stores (.synonym "size") "" ∧ c.model.Stores (.value "city") "" := by
  have hrun : (compile "greet" blankSource {} Probe.offline).toOption.map (fun c =>
        (c.model.app.utterances, c.model.app.registry.records)) =
      some ([⟨"", "greet", []⟩],
        [⟨"size", ∅, .list [⟨"", [""]⟩]⟩, ⟨"city", ∅, .list [⟨"", []⟩]⟩]) := by
    decide +kernel
  obtain ⟨c, hc, hresult⟩ := exists_ok_of_map_toOption hrun
  obtain ⟨hutterances, hrecords⟩ := Prod.mk.inj hresult
  refine ⟨c, hc, ?_, ?_, ?_, ?_⟩
  · exact ⟨⟨"", "greet", []⟩, by simp [hutterances], rfl, rfl⟩
  · exact ⟨⟨"size", ∅, .list [⟨"", [""]⟩]⟩, by simp [hrecords], rfl, by simp [Detail.forms]⟩
  · exact ⟨⟨"size", ∅, .list [⟨"", [""]⟩]⟩, by simp [hrecords], rfl, by simp [Detail.synonyms]⟩
  · exact ⟨⟨"city", ∅, .list [⟨"", []⟩]⟩, by simp [hrecords], rfl, by simp [Detail.forms]⟩

end Compile

end DialogModel
