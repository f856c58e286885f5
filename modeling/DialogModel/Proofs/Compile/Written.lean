import DialogModel.Proofs.Compile.Texts
import DialogModel.Proofs.Export.Written

/-!
# The written form of a compiled model

The JSON form of a compiled application loses nothing that its reader may ask for: it tells apart
any two applications that differ in more than the order of their settings, the order of entities of
different kinds, or a setting under the key of a field which every application has.

What the form needs of an application for this is `App.Writable`, and every compiled application
has it.  The words of a phrase list are items of a definition, which is split at commas and loses
its empty items, so the text that joins them shows each of them.
-/

namespace DialogModel.Compile

open Entity

variable {options : Options} {probe : Probe} {file source : String} {c : Compilation}

lemma separable_phrases (h : compile file source options probe = .ok c) {p : Phrases}
    (hp : p ∈ c.model.app.registry.phraseLists.values) : Text.Separable p.values := by
  intro w hw
  obtain ⟨name, hget⟩ := OrderedMap.mem_values_iff.mp hp
  obtain ⟨s, -, d, flag, -, hitem⟩ := (contentsFrom_of_compile h).phrases name p hget w hw
  obtain ⟨hsolid, hcomma⟩ := Declaration.of_mem_items hitem
  exact ⟨hsolid.ne_empty, hcomma⟩

lemma writable_of_compile (h : compile file source options probe = .ok c) :
    c.model.app.Writable where
  kinds _ hr := (sound_of_compile h).kind_ne ((sound_of_compile h).get?_name hr)
  words _ hp := separable_phrases h hp

/-- **The form of a compiled application loses nothing.**  Two compiled applications have the same
form if and only if they have the same intents with the same models in the same order, for each kind
the same sequence of entities, the same models for these entities, the same phrase lists, utterances
and patterns, and the same value for every setting that gives way to no other field.  Splitting what
is written for a phrase list at its commas gives its words, none if it is empty. -/
theorem forms_tell_apart (file source file' source' : String) (options options' : Options)
    (probe probe' : Probe) (c c' : Compilation)
    (h : compile file source options probe = .ok c)
    (h' : compile file' source' options' probe' = .ok c') :
    (c.model.app.toJson = c'.model.app.toJson ↔ c.model.app.SameForm c'.model.app) ∧
      ∀ name p, (name, p) ∈ c.model.app.registry.phraseLists.toList →
        ∃ text, (p.toJson name).field? "words" = some (.str text) ∧ Text.words text = p.values := by
  refine ⟨App.toJson_eq_iff (writable_of_compile h) (writable_of_compile h'), fun name p hp => ?_⟩
  refine ⟨String.intercalate "," p.values, ?_, ?_⟩
  · simp [Phrases.toJson, Json.field?_object, Json.lookup_cons_ite]
  · exact Text.words_intercalate (separable_phrases h (List.mem_map_of_mem hp))

/-- A source with two settings, two entities and a phrase list. -/
def tripSource : String :=
  "> !# @app.name = trip\n> !# @app.culture = fr\n@ simple town\n@ list size\n" ++
    "@ phraselist now = soon, today\n# go\n- to Rome\n"

/-- The same with its settings and its entities in another order, and the phrase list in parts. -/
def turnedSource : String :=
  "> !# @app.culture = fr\n> !# @app.name = trip\n@ list size\n@ simple town\n" ++
    "@ phraselist now = soon\n@ phraselist now = today\n# go\n- to Rome\n"

/-- What both sources describe, up to the order of the settings and of the entities. -/
def tripApp (settings : List (String × String)) (entities : List (String × Kind)) : App where
  settings := settings.foldl (fun m e => m.insert e.1 e.2) ∅
  intents := (∅ : OrderedMap String (Option Inherits)).insert "go" none
  registry :=
    { entities := entities.foldl (fun m e => m.insert e.1 (.ofKind e.2 e.1)) ∅
      phraseLists := (∅ : OrderedMap String Phrases).insert "now" { values := ["soon", "today"] } }
  utterances := [{ text := "to Rome", intent := "go" }]

theorem forms_tell_apart_tripSource :
    ∃ c c', compile "trip" tripSource {} Probe.offline = .ok c ∧
      compile "trip" turnedSource {} Probe.offline = .ok c' ∧
      c.model.app ≠ c'.model.app ∧ c.model.app.toJson = c'.model.app.toJson := by
  have hrun : (compile "trip" tripSource {} Probe.offline).toOption.map (·.model.app) =
      some (tripApp [("name", "trip"), ("culture", "fr")]
        [("town", .simple), ("size", .list)]) := by
    decide +kernel
  have hrun' : (compile "trip" turnedSource {} Probe.offline).toOption.map (·.model.app) =
      some (tripApp [("culture", "fr"), ("name", "trip")]
        [("size", .list), ("town", .simple)]) := by
    decide +kernel
  obtain ⟨c, hc, happ⟩ := exists_ok_of_map_toOption hrun
  obtain ⟨c', hc', happ'⟩ := exists_ok_of_map_toOption hrun'
  have hsame : c.model.app.SameForm c'.model.app := by
    rw [happ, happ']
    refine ⟨rfl, fun kind _ => ?_, fun r _ => rfl, rfl, rfl, rfl, fun key _ => ?_⟩
    · cases kind <;> rfl
    · simp only [tripApp, List.foldl_cons, List.foldl_nil, OrderedMap.get?_insert]
      split_ifs with hculture hname
      · subst hname
        exact absurd hculture (by decide)
      all_goals rfl
  refine ⟨c, c', hc, hc', ?_, (forms_tell_apart _ _ _ _ _ _ _ _ c c' hc hc').1.mpr hsame⟩
  rw [happ, happ']
  decide

end DialogModel.Compile
