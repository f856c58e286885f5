import DialogModel.Export
import DialogModel.Proofs.Export.Objects

/-!
# The forms of the parts of a model

The JSON form of each part of an application shows all of it.  A field that is left out stands for
a missing value, so it is told apart from every value that could be there.  The words of a phrase
list are joined to one text, which shows them as long as none of them is empty or has a comma
(`Text.Separable`).
-/

namespace DialogModel

open Entity Json

/-! ## Joined words -/

namespace Text

/-- The words between the commas of a text.  There are none in the empty text. -/
def words (s : String) : List String :=
  if s = "" then [] else (s.toList.splitOn ',').map String.ofList

/-- Words that stay apart when they are joined by commas. -/
def Separable (ws : List String) : Prop :=
  ∀ w ∈ ws, w ≠ "" ∧ ',' ∉ w.toList

instance (ws : List String) : Decidable (Separable ws) :=
  inferInstanceAs (Decidable (∀ w ∈ ws, w ≠ "" ∧ ',' ∉ w.toList))

/-- **Splitting joined words at the commas gives them back.** -/
lemma words_intercalate {ws : List String} (h : Separable ws) :
    words (String.intercalate "," ws) = ws := by
  cases ws with
  | nil => rfl
  | cons w ws =>
      have hne : String.intercalate "," (w :: ws) ≠ "" := by
        intro hempty
        have hnil := congrArg String.toList hempty
        rw [String.toList_intercalate] at hnil
        have hw : w ≠ "" := (h w List.mem_cons_self).1
        cases ws <;> simp_all
      have hsplit : (String.intercalate "," (w :: ws)).toList.splitOn ',' =
          (w :: ws).map String.toList := by
        rw [String.toList_intercalate]
        refine List.splitOn_intercalate ',' ?_ (by simp)
        intro cs hcs
        obtain ⟨v, hv, rfl⟩ := List.mem_map.mp hcs
        exact (h v hv).2
      rw [words, if_neg hne, hsplit, List.map_map]
      simp

-- An empty word that stands alone is lost, so it must be excluded.
example : ¬ Separable [""] ∧ words (String.intercalate "," [""]) = [] := by decide

end Text

/-! ## References, values, utterances and patterns -/

lemma Inherits.toJson_injective : Function.Injective Inherits.toJson := by
  rintro ⟨domain, model⟩ ⟨domain', model'⟩ h
  have hdomain : domain = domain' := by
    simpa [lookup_cons_ite] using object_eq_iff.mp h "domain_name"
  have hmodel : model = model' := by
    simpa [lookup_cons_ite] using object_eq_iff.mp h "model_name"
  rw [hdomain, hmodel]

lemma Entity.Sublist.toJson_injective : Function.Injective Sublist.toJson := by
  rintro ⟨form, synonyms⟩ ⟨form', synonyms'⟩ h
  have hform : form = form' := by
    simpa [lookup_cons_ite] using object_eq_iff.mp h "canonicalForm"
  have hsynonyms : synonyms = synonyms' := by
    simpa [lookup_cons_ite, strings_injective.eq_iff] using object_eq_iff.mp h "list"
  rw [hform, hsynonyms]

lemma Pattern.toJson_injective : Function.Injective Pattern.toJson := by
  rintro ⟨pattern, intent⟩ ⟨pattern', intent'⟩ h
  have hpattern : pattern = pattern' := by
    simpa [lookup_cons_ite] using object_eq_iff.mp h "pattern"
  have hintent : intent = intent' := by
    simpa [lookup_cons_ite] using object_eq_iff.mp h "intent"
  rw [hpattern, hintent]

/-- Look-up of a field that is left out if there is no value for it. -/
lemma lookup_optionalField {α : Type} (key x : String) (form : α → Json) (o : Option α) :
    (o.map fun a => (key, form a)).toList.reverse.lookup x =
      if x = key then o.map form else none := by
  cases o with
  | none => simp
  | some a => exact lookup_cons_ite key x (form a) []

lemma Label.toJson_injective : Function.Injective Label.toJson := by
  rintro ⟨entity, startPos, endPos, role⟩ ⟨entity', startPos', endPos', role'⟩ h
  have hfield (key : String) := object_eq_iff.mp h key
  simp only [List.reverse_append, List.lookup_append, lookup_optionalField] at hfield
  have hentity : entity = entity' := by simpa [lookup_cons_ite] using hfield "entity"
  have hstart : startPos = startPos' := by
    simpa [lookup_cons_ite, Int.ofNat_inj] using hfield "startPos"
  have hend : endPos = endPos' := by
    simpa [lookup_cons_ite, Int.ofNat_inj] using hfield "endPos"
  have hrole : role = role' := by
    have hmap : role.map Json.str = role'.map Json.str := by
      simpa [lookup_cons_ite] using hfield "role"
    exact Option.map_injective (fun _ _ => Json.str.inj) hmap
  rw [hentity, hstart, hend, hrole]

lemma Example.toJson_injective : Function.Injective Example.toJson := by
  rintro ⟨text, intent, labels⟩ ⟨text', intent', labels'⟩ h
  have htext : text = text' := by simpa [lookup_cons_ite] using object_eq_iff.mp h "text"
  have hintent : intent = intent' := by simpa [lookup_cons_ite] using object_eq_iff.mp h "intent"
  have hlabels : labels.map Label.toJson = labels'.map Label.toJson := by
    simpa [lookup_cons_ite] using object_eq_iff.mp h "entities"
  rw [htext, hintent, List.map_injective_iff.mpr Label.toJson_injective hlabels]

/-! ## Entities -/

namespace Entity

/-- The fields of a detail have other keys than those that every entity may have. -/
lemma Detail.lookup_fields_eq_none (d : Detail) {key : String}
    (hkey : key ∈ ["name", "roles", "inherits"]) : d.fields.reverse.lookup key = none := by
  simp only [List.mem_cons, List.not_mem_nil, or_false] at hkey
  rcases hkey with rfl | rfl | rfl <;> cases d <;> simp [Detail.fields, lookup_cons_ite]

/-- Details of the same kind are told apart by their fields, phrase lists apart. -/
lemma Detail.eq_of_lookup_fields {d d' : Detail} (hkind : d.kind = d'.kind)
    (hphrase : d.kind ≠ .phraseList)
    (h : ∀ key ∈ ["subLists", "children", "regexPattern", "explicitList"],
      d.fields.reverse.lookup key = d'.fields.reverse.lookup key) : d = d' := by
  cases d <;> cases d' <;> try cases hkind
  case simple => rfl
  case list sublists sublists' =>
    have hmap : sublists.map Sublist.toJson = sublists'.map Sublist.toJson := by
      simpa [Detail.fields, lookup_cons_ite] using h "subLists" (by simp)
    rw [List.map_injective_iff.mpr Sublist.toJson_injective hmap]
  case composite =>
    simpa [Detail.fields, lookup_cons_ite, strings_injective.eq_iff] using h "children" (by simp)
  case regex => simpa [Detail.fields, lookup_cons_ite] using h "regexPattern" (by simp)
  case prebuilt => rfl
  case patternAny =>
    simpa [Detail.fields, lookup_cons_ite, strings_injective.eq_iff]
      using h "explicitList" (by simp)
  case phraseList => exact absurd rfl hphrase

/-- **The form of an entity shows the entity and the model it stands for**, among the entities of
its kind. -/
lemma Record.toJson_inj {r r' : Record} {i i' : Option Inherits} (hkind : r.kind = r'.kind)
    (hphrase : r.kind ≠ .phraseList) (h : r.toJson i = r'.toJson i') : i = i' ∧ r = r' := by
  obtain ⟨name, roles, detail⟩ := r
  obtain ⟨name', roles', detail'⟩ := r'
  have hfield (key : String) := object_eq_iff.mp h key
  simp only [List.reverse_append, List.lookup_append, lookup_optionalField] at hfield
  have hname : name = name' := by
    simpa [lookup_cons_ite, Detail.lookup_fields_eq_none] using hfield "name"
  have hroles : roles = roles' := by
    have hlist : roles.toList = roles'.toList := by
      simpa [lookup_cons_ite, Detail.lookup_fields_eq_none, strings_injective.eq_iff]
        using hfield "roles"
    cases roles
    cases roles'
    simpa using hlist
  have hinherits : i = i' := by
    have hmap : i.map Inherits.toJson = i'.map Inherits.toJson := by
      simpa [lookup_cons_ite, Detail.lookup_fields_eq_none] using hfield "inherits"
    exact Option.map_injective Inherits.toJson_injective hmap
  have hdetail : detail = detail' := by
    refine Detail.eq_of_lookup_fields hkind hphrase fun key hkey => ?_
    have hkeys := hfield key
    simp only [List.mem_cons, List.not_mem_nil, or_false] at hkey
    rcases hkey with rfl | rfl | rfl | rfl <;> simpa [lookup_cons_ite] using hkeys
  exact ⟨hinherits, by rw [hname, hroles, hdetail]⟩

/-- **The form of a phrase list shows its name, its words and its flag**, if the words stay
apart. -/
lemma Phrases.toJson_inj {name name' : String} {p p' : Phrases} (hp : Text.Separable p.values)
    (hp' : Text.Separable p'.values) (h : p.toJson name = p'.toJson name') :
    name = name' ∧ p = p' := by
  obtain ⟨values, flag⟩ := p
  obtain ⟨values', flag'⟩ := p'
  have hname : name = name' := by simpa [lookup_cons_ite] using object_eq_iff.mp h "name"
  have hflag : flag = flag' := by simpa [lookup_cons_ite] using object_eq_iff.mp h "mode"
  have hwords : String.intercalate "," values = String.intercalate "," values' := by
    simpa [lookup_cons_ite] using object_eq_iff.mp h "words"
  have hvalues : values = values' := calc
    values = Text.words (String.intercalate "," values) := (Text.words_intercalate hp).symm
    _ = Text.words (String.intercalate "," values') := by rw [hwords]
    _ = values' := Text.words_intercalate hp'
  exact ⟨hname, by rw [hvalues, hflag]⟩

end Entity

end DialogModel
