import DialogModel.Proofs.Export.Forms

/-!
# What the written model shows

Two applications have the same JSON form exactly if they agree on all that a reader of the model
may ask for (`App.toJson_eq_iff`).  Two things are not shown: in which order entities of different
kinds were declared, and in which order the settings were given.  A setting whose key is that of a
field which every application has is not shown either; that field replaces it.

This is so for applications whose registry keeps phrase lists apart and whose phrase lists have
words that can be joined (`App.Writable`).
-/

namespace DialogModel

open Entity Json

/-! ## Settings -/

lemma lookup_reverse_map_str (key : String) :
    ∀ {es : List (String × String)}, (es.map Prod.fst).Nodup →
      (es.map fun (k, v) => (k, Json.str v)).reverse.lookup key =
        ((es.find? fun e => decide (e.1 = key)).map Prod.snd).map Json.str
  | [], _ => rfl
  | (k, v) :: es, hnodup => by
      obtain ⟨hk, hnodup⟩ := List.nodup_cons.mp hnodup
      rw [List.map_cons, List.reverse_cons, List.lookup_append, lookup_reverse_map_str key hnodup,
        lookup_cons_ite, List.lookup_nil]
      by_cases hkey : key = k
      · subst hkey
        have hnone : es.find? (fun e => decide (e.1 = key)) = none := by
          rw [List.find?_eq_none]
          intro e he hek
          exact hk (List.mem_map.mpr ⟨e, he, by simpa using hek⟩)
        simp [hnone]
      · simp [hkey, Ne.symm hkey]

/-- A field that comes from a setting has its value. -/
lemma lookup_settingFields (settings : OrderedMap String String) (key : String) :
    (settingFields settings).reverse.lookup key = (settings.get? key).map Json.str :=
  lookup_reverse_map_str key settings.nodup

/-! ## Arrays -/

/-- Items that are told apart by their forms are the same if their forms are. -/
lemma eq_of_map_eq_map {α β : Type} {f g : α → β} {xs ys : List α} (h : xs.map f = ys.map g)
    (hinj : ∀ x ∈ xs, ∀ y ∈ ys, f x = g y → x = y) : xs = ys := by
  induction xs generalizing ys with
  | nil => exact (List.map_eq_nil_iff.mp h.symm).symm
  | cons x xs ih =>
      cases ys with
      | nil => cases h
      | cons y ys =>
          obtain ⟨hxy, hrest⟩ := List.cons.inj h
          rw [hinj x List.mem_cons_self y List.mem_cons_self hxy, ih hrest]
          exact fun x hx y hy => hinj x (List.mem_cons_of_mem _ hx) y (List.mem_cons_of_mem _ hy)

namespace App

variable {app app' : App}

/-! ## The fields of an application -/

/-- The keys of the fields that every application has. -/
def fieldKeys : List String :=
  ["intents", "entities", "composites", "closedLists", "regex_entities", "prebuiltEntities",
    "patternAnyEntities", "model_features", "utterances", "patterns"]

lemma lookup_fields_eq_none {key : String} (hkey : key ∉ fieldKeys) :
    app.fields.reverse.lookup key = none := by
  rw [List.lookup_eq_none_iff]
  intro f hf
  have hmem : f.1 ∈ app.fields.map Prod.fst := List.mem_map_of_mem (List.mem_reverse.mp hf)
  simpa using ne_of_mem_of_not_mem hmem hkey |>.symm

lemma exists_lookup_fields (app : App) {key : String} (hkey : key ∈ fieldKeys) :
    ∃ value, app.fields.reverse.lookup key = some value := by
  simp only [fieldKeys, List.mem_cons, List.not_mem_nil, or_false] at hkey
  rcases hkey with rfl | rfl | rfl | rfl | rfl | rfl | rfl | rfl | rfl | rfl <;>
    simp [fields, lookup_cons_ite]

lemma fields_eq_iff_lookup : app.fields = app'.fields ↔
    ∀ key ∈ fieldKeys, app.fields.reverse.lookup key = app'.fields.reverse.lookup key := by
  simp [fieldKeys, fields, lookup_cons_ite]

/-- Settings give way to the fields that every application has. -/
lemma lookup_toJson (app : App) (key : String) :
    (settingFields app.settings ++ app.fields).reverse.lookup key =
      (app.fields.reverse.lookup key).or ((app.settings.get? key).map Json.str) := by
  rw [List.reverse_append, List.lookup_append, lookup_settingFields]

lemma toJson_eq_iff_fields :
    app.toJson = app'.toJson ↔ app.fields = app'.fields ∧
      ∀ key ∉ fieldKeys, app.settings.get? key = app'.settings.get? key := by
  simp only [toJson, object_eq_iff, lookup_toJson]
  constructor
  · intro h
    refine ⟨fields_eq_iff_lookup.mpr fun key hkey => ?_, fun key hkey => ?_⟩
    · obtain ⟨value, hvalue⟩ := app.exists_lookup_fields hkey
      obtain ⟨value', hvalue'⟩ := app'.exists_lookup_fields hkey
      simpa [hvalue, hvalue'] using h key
    · have hstr := h key
      rw [lookup_fields_eq_none hkey, lookup_fields_eq_none hkey] at hstr
      exact Option.map_injective (fun _ _ => Json.str.inj) hstr
  · rintro ⟨hfields, hsettings⟩ key
    by_cases hkey : key ∈ fieldKeys
    · obtain ⟨value, hvalue⟩ := app.exists_lookup_fields hkey
      rw [← hfields, hvalue]
      rfl
    · rw [hfields, hsettings key hkey]

/-! ## The values of the fields -/

lemma intentsJson_eq_iff :
    app.intentsJson = app'.intentsJson ↔ app.intents.toList = app'.intents.toList := by
  refine ⟨fun h => eq_of_map_eq_map (Json.arr.inj h) ?_, fun h => by rw [intentsJson, h]; rfl⟩
  rintro ⟨name, inherits⟩ - ⟨name', inherits'⟩ - heq
  have hfield (key : String) := object_eq_iff.mp heq key
  simp only [List.reverse_append, List.lookup_append, lookup_optionalField] at hfield
  have hname : name = name' := by simpa [lookup_cons_ite] using hfield "name"
  have hinherits : inherits.map Inherits.toJson = inherits'.map Inherits.toJson := by
    simpa [lookup_cons_ite] using hfield "inherits"
  rw [hname, Option.map_injective Inherits.toJson_injective hinherits]

lemma entitiesJson_eq_iff {kind : Kind} (hkind : kind ≠ .phraseList) :
    app.entitiesJson kind = app'.entitiesJson kind ↔
      app.registry.ofKind kind = app'.registry.ofKind kind ∧
        ∀ r ∈ app.registry.ofKind kind,
          app.entityInherits.get? r.name = app'.entityInherits.get? r.name := by
  have hmem {app : App} {r : Record} (hr : r ∈ app.registry.ofKind kind) : r.kind = kind := by
    simpa using (List.mem_filter.mp hr).2
  constructor
  · intro h
    have hmap := Json.arr.inj h
    have hrecords : app.registry.ofKind kind = app'.registry.ofKind kind := by
      refine eq_of_map_eq_map hmap fun r hr r' hr' heq => ?_
      exact (Record.toJson_inj ((hmem hr).trans (hmem hr').symm) (hmem hr ▸ hkind) heq).2
    rw [← hrecords] at hmap
    refine ⟨hrecords, fun r hr => ?_⟩
    have heq := List.map_inj_left.mp hmap r hr
    exact (Record.toJson_inj rfl (hmem hr ▸ hkind) heq).1
  · rintro ⟨hrecords, hinherits⟩
    rw [entitiesJson, entitiesJson, ← hrecords]
    exact congrArg Json.arr (List.map_congr_left fun r hr => by rw [hinherits r hr])

lemma phraseListsJson_eq_iff
    (h : ∀ p ∈ app.registry.phraseLists.values, Text.Separable p.values)
    (h' : ∀ p ∈ app'.registry.phraseLists.values, Text.Separable p.values) :
    app.phraseListsJson = app'.phraseListsJson ↔
      app.registry.phraseLists.toList = app'.registry.phraseLists.toList := by
  refine ⟨fun heq => eq_of_map_eq_map (Json.arr.inj heq) ?_,
    fun heq => by rw [phraseListsJson, heq]; rfl⟩
  rintro ⟨name, p⟩ hp ⟨name', p'⟩ hp' hform
  obtain ⟨rfl, rfl⟩ := Phrases.toJson_inj (h p (List.mem_map_of_mem hp))
    (h' p' (List.mem_map_of_mem hp')) hform
  rfl

lemma utterancesJson_eq_iff :
    app.utterancesJson = app'.utterancesJson ↔ app.utterances = app'.utterances := by
  rw [utterancesJson, utterancesJson, Json.arr.injEq]
  exact (List.map_injective_iff.mpr Example.toJson_injective).eq_iff

lemma patternsJson_eq_iff :
    app.patternsJson = app'.patternsJson ↔ app.patterns = app'.patterns := by
  rw [patternsJson, patternsJson, Json.arr.injEq]
  exact (List.map_injective_iff.mpr Pattern.toJson_injective).eq_iff

/-! ## The whole -/

/-- The applications whose form shows all of them: no phrase list is among the entities, and the
words of each phrase list stay apart. -/
structure Writable (app : App) : Prop where
  kinds : ∀ r ∈ app.registry.records, r.kind ≠ .phraseList
  words : ∀ p ∈ app.registry.phraseLists.values, Text.Separable p.values

/-- Two applications agree on all that their forms show. -/
structure SameForm (app app' : App) : Prop where
  /-- The intents and the models that they stand for, in order. -/
  intents : app.intents.toList = app'.intents.toList
  /-- The entities of each kind, in order. -/
  entities : ∀ kind ≠ Kind.phraseList, app.registry.ofKind kind = app'.registry.ofKind kind
  /-- The models that entities stand for. -/
  inherits : ∀ r ∈ app.registry.records,
    app.entityInherits.get? r.name = app'.entityInherits.get? r.name
  /-- The phrase lists with their words and flags, in order. -/
  phraseLists : app.registry.phraseLists.toList = app'.registry.phraseLists.toList
  utterances : app.utterances = app'.utterances
  patterns : app.patterns = app'.patterns
  /-- The settings that give way to no other field. -/
  settings : ∀ key ∉ fieldKeys, app.settings.get? key = app'.settings.get? key

/-- **Two applications have the same form exactly if they agree on all that it shows.** -/
lemma toJson_eq_iff (h : app.Writable) (h' : app'.Writable) :
    app.toJson = app'.toJson ↔ app.SameForm app' := by
  rw [toJson_eq_iff_fields]
  constructor
  · rintro ⟨hfields, hsettings⟩
    simp only [fields, List.cons.injEq, Prod.mk.injEq, true_and, and_true] at hfields
    obtain ⟨hintents, hsimple, hcomposite, hlist, hregex, hprebuilt, hany, hphrases, hutterances,
      hpatterns⟩ := hfields
    have hentities : ∀ kind ≠ Kind.phraseList,
        app.entitiesJson kind = app'.entitiesJson kind := by
      intro kind hkind
      cases kind with
      | simple => exact hsimple
      | list => exact hlist
      | composite => exact hcomposite
      | regex => exact hregex
      | prebuilt => exact hprebuilt
      | patternAny => exact hany
      | phraseList => exact absurd rfl hkind
    refine ⟨intentsJson_eq_iff.mp hintents, fun kind hkind => ?_, fun r hr => ?_,
      (phraseListsJson_eq_iff h.words h'.words).mp hphrases, utterancesJson_eq_iff.mp hutterances,
      patternsJson_eq_iff.mp hpatterns, hsettings⟩
    · exact ((entitiesJson_eq_iff hkind).mp (hentities kind hkind)).1
    · have hkind := h.kinds r hr
      refine ((entitiesJson_eq_iff hkind).mp (hentities r.kind hkind)).2 r ?_
      exact List.mem_filter.mpr ⟨hr, by simp⟩
  · intro hsame
    have hentities {kind : Kind} (hkind : kind ≠ .phraseList) :
        app.entitiesJson kind = app'.entitiesJson kind :=
      (entitiesJson_eq_iff hkind).mpr ⟨hsame.entities kind hkind,
        fun r hr => hsame.inherits r (List.mem_filter.mp hr).1⟩
    refine ⟨?_, hsame.settings⟩
    rw [fields, fields, intentsJson_eq_iff.mpr hsame.intents,
      (phraseListsJson_eq_iff h.words h'.words).mpr hsame.phraseLists,
      utterancesJson_eq_iff.mpr hsame.utterances, patternsJson_eq_iff.mpr hsame.patterns,
      hentities (by decide), hentities (by decide), hentities (by decide), hentities (by decide),
      hentities (by decide), hentities (by decide)]

end App

end DialogModel
