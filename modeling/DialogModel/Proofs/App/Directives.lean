import DialogModel.Directive
import DialogModel.Proofs.App.Failures
import DialogModel.Proofs.App.Growth
import DialogModel.Proofs.Registry.Collision
import DialogModel.Proofs.Text.Chars

/-!
# Which directives are carried out

`Reads` says what a directive looks like, without saying how it is read: a text behind `@` that
assigns a value to a scope and a name, and for the directives about prebuilt models a value of six
segments.  It has two conditions as parameters, on the name of a setting and on the three words that
announce the other segments.  `WellFormed` has the conditions of the documented form; `Accepted` has
none, and that is what is read (`read_eq_ok_iff`).

`Handled form info m` says what becomes of a directive if `form` is the form that is asked for: it
is carried out and nothing else changes, or it fails because a new entity is a role of another, and
any other text is ignored with one warning.  It holds of `Accepted` for every text, and of
`WellFormed` exactly for the texts for which the two forms agree (`directive_handled`).
-/

namespace DialogModel

namespace Directive

open Chars

/-! ## The form of a directive -/

/-- A text that assigns a value to a name in a scope.  Blanks around the key and around the value do
not count. -/
def Assigns (text scope name value : String) : Prop :=
  ∃ key rest : String, text = "@" ++ key ++ "=" ++ rest ∧ '=' ∉ key.toList ∧
    Text.trim key = scope ++ "." ++ name ∧ '.' ∉ scope.toList ∧ '.' ∉ name.toList ∧
    Text.trim rest = value

/-- The trimmed segments of a value between colons. -/
def Segments (value : String) (segments : List String) : Prop :=
  ∃ parts : List String, parts ≠ [] ∧ (∀ part ∈ parts, ':' ∉ part.toList) ∧
    value = String.intercalate ":" parts ∧ parts.map Text.trim = segments

/-- A value that says for what prebuilt model a name stands; three words announce the name, the
domain and the model. -/
def Announces (okWords : List String → Prop) (value name : String) (inherits : Inherits) : Prop :=
  ∃ w₁ w₂ w₃, Segments value [w₁, name, w₂, inherits.domainName, w₃, inherits.modelName] ∧
    okWords [w₁, w₂, w₃] ∧ name ≠ ""

/-- The directive that a text is, with a condition on the name of a setting and one on the words
that announce the segments of a value. -/
inductive Reads (okName : String → Prop) (okWords : List String → Prop) (text : String) :
    Directive → Prop
  | appSetting {name value : String} (hassigns : Assigns text "app" name value)
      (hname : okName name) : Reads okName okWords text (.appSetting name value)
  | kbSetting {name value : String} (hassigns : Assigns text "kb" name value)
      (hname : okName name) : Reads okName okWords text (.kbSetting name value)
  | intentInherits {name value : String} {inherits : Inherits}
      (hassigns : Assigns text "intent" "inherits" value)
      (hvalue : Announces okWords value name inherits) :
      Reads okName okWords text (.intentInherits name inherits)
  | entityInherits {name value : String} {inherits : Inherits}
      (hassigns : Assigns text "entity" "inherits" value)
      (hvalue : Announces okWords value name inherits) :
      Reads okName okWords text (.entityInherits name inherits)

/-- The documented form: a setting has a name, and the segments are announced by their words. -/
def WellFormed : String → Directive → Prop :=
  Reads (· ≠ "") (· = ["name", "domain_name", "model_name"])

/-- The form that is read. -/
def Accepted : String → Directive → Prop :=
  Reads (fun _ => True) (fun _ => True)

lemma WellFormed.accepted {text : String} {d : Directive} (h : WellFormed text d) :
    Accepted text d := by
  have hvalue {value name : String} {inherits : Inherits}
      (h : Announces (· = ["name", "domain_name", "model_name"]) value name inherits) :
      Announces (fun _ => True) value name inherits := by
    obtain ⟨w₁, w₂, w₃, hsegments, -, hname⟩ := h
    exact ⟨w₁, w₂, w₃, hsegments, trivial, hname⟩
  cases h with
  | appSetting hassigns _ => exact .appSetting hassigns trivial
  | kbSetting hassigns _ => exact .kbSetting hassigns trivial
  | intentInherits hassigns h => exact .intentInherits hassigns (hvalue h)
  | entityInherits hassigns h => exact .entityInherits hassigns (hvalue h)

/-! ## Reading -/

/-- What stands before and behind the first `=` of a text that starts with `@`. -/
lemma split?_eq_some_iff {cs key value : List Char} :
    split? cs = some (key, value) ↔ ∃ before rest, cs = '@' :: (before ++ '=' :: rest) ∧
      '=' ∉ before ∧ trim before = key ∧ key ≠ [] ∧ trim rest = value := by
  unfold split?
  split
  · next cs =>
    cases hbreak : breakAt? '=' cs with
    | none =>
        have hsign := breakAt?_eq_none_iff.mp hbreak
        simp only [reduceCtorEq, false_iff]
        rintro ⟨before, rest, hcs, -⟩
        exact hsign (by simp [List.cons.inj hcs])
    | some p =>
        obtain ⟨before, rest⟩ := p
        obtain ⟨rfl, hsign⟩ := breakAt?_eq_some_iff.mp hbreak
        simp only [List.isEmpty_iff, Option.ite_none_left_eq_some, Option.some.injEq,
          Prod.mk.injEq]
        constructor
        · rintro ⟨hne, rfl, rfl⟩
          exact ⟨before, rest, rfl, hsign, rfl, hne, rfl⟩
        · rintro ⟨before', rest', hcs, hsign', rfl, hne, rfl⟩
          have hsame : breakAt? '=' (before ++ '=' :: rest) = some (before', rest') :=
            breakAt?_eq_some_iff.mpr ⟨(List.cons.inj hcs).2, hsign'⟩
          obtain ⟨rfl, rfl⟩ := Prod.mk.inj (Option.some.inj (hbreak.symm.trans hsame))
          exact ⟨hne, rfl, rfl⟩
  · next hother =>
    simp only [reduceCtorEq, false_iff]
    rintro ⟨before, rest, rfl, -⟩
    exact hother _ rfl

lemma assigns_iff {text scope name value : String} :
    Assigns text scope name value ↔ ∃ key, split? text.toList = some (key, value.toList) ∧
      key.splitOn '.' = [scope.toList, name.toList] := by
  have hsplit {key : List Char} : key.splitOn '.' = [scope.toList, name.toList] ↔
      ('.' ∉ scope.toList ∧ '.' ∉ name.toList) ∧ key = scope.toList ++ '.' :: name.toList := by
    rw [splitOn_eq_iff]
    simp [List.intercalate_cons_cons]
  simp only [split?_eq_some_iff, hsplit]
  constructor
  · rintro ⟨key, rest, rfl, hkey, hdotted, hscope, hname, rfl⟩
    have htrim : trim key.toList = scope.toList ++ '.' :: name.toList := by
      simpa using congrArg String.toList hdotted
    exact ⟨_, ⟨key.toList, rest.toList, by simp, hkey, rfl, by simp [htrim], by simp⟩,
      ⟨hscope, hname⟩, htrim⟩
  · rintro ⟨key, ⟨before, rest, htext, hbefore, hkey, -, hvalue⟩, ⟨hscope, hname⟩, hdotted⟩
    refine ⟨String.ofList before, String.ofList rest, ?_, by simpa using hbefore, ?_, hscope, hname,
      ?_⟩
    · exact String.toList_injective (by simp [htext])
    · exact String.toList_injective (by simp [hkey, hdotted])
    · exact String.toList_injective (by simp [hvalue])

lemma segments_iff {value : String} {segments : List String} :
    Segments value segments ↔
      (value.toList.splitOn ':').map trim = segments.map String.toList := by
  constructor
  · rintro ⟨parts, hne, hfree, rfl, rfl⟩
    have hsplit : (String.intercalate ":" parts).toList.splitOn ':' = parts.map String.toList :=
      splitOn_eq_iff.mpr ⟨by simpa using hne, by simpa using hfree, by simp⟩
    rw [hsplit, List.map_map, List.map_map]
    exact List.map_congr_left fun part _ => (Text.toList_trim part).symm
  · intro hsegments
    have hsplit := splitOn_eq_iff.mp (Eq.refl (value.toList.splitOn ':'))
    refine ⟨(value.toList.splitOn ':').map String.ofList, by simp, by simpa using hsplit.2.1, ?_,
      ?_⟩
    · exact String.toList_injective (by simp [Function.comp_def, ← hsplit.2.2])
    · refine List.map_injective_iff.mpr (fun _ _ => String.toList_injective) ?_
      simpa [Function.comp_def] using hsegments

lemma readInherits?_eq_some_iff {value name : String} {inherits : Inherits} :
    readInherits? value.toList = some (name, inherits) ↔
      Announces (fun _ => True) value name inherits := by
  simp only [Announces, segments_iff, true_and]
  unfold readInherits?
  split
  · next w₁ name' w₂ domain w₃ model hparts =>
    simp only [hparts, List.isEmpty_iff, Option.ite_none_left_eq_some, Option.some.injEq,
      Prod.mk.injEq]
    constructor
    · rintro ⟨hne, rfl, rfl⟩
      exact ⟨String.ofList w₁, String.ofList w₂, String.ofList w₃, by simp, by simpa using hne⟩
    · rintro ⟨v₁, v₂, v₃, hsegments, hne⟩
      simp only [List.map_cons, List.map_nil, List.cons.injEq] at hsegments
      obtain ⟨-, rfl, -, rfl, -, rfl, -⟩ := hsegments
      exact ⟨by simpa using hne, by simp, by simp⟩
  · next hother =>
    simp only [reduceCtorEq, false_iff]
    rintro ⟨v₁, v₂, v₃, hsegments, -⟩
    exact hother _ _ _ _ _ _ hsegments

lemma readInherits_eq_ok_iff {value : String} {f : String → Inherits → Directive} {d : Directive} :
    readInherits value.toList f = .ok d ↔
      ∃ name inherits, Announces (fun _ => True) value name inherits ∧ d = f name inherits := by
  unfold readInherits
  cases hread : readInherits? value.toList with
  | none => simp [← readInherits?_eq_some_iff, hread]
  | some p =>
      obtain ⟨name, inherits⟩ := p
      simp [← readInherits?_eq_some_iff, hread, eq_comm]

lemma ofKey_eq_ok_iff {key : List Char} {scope name value : String} {d : Directive} :
    ofKey key scope.toList name.toList value.toList = .ok d ↔
      (scope = "app" ∧ d = .appSetting name value) ∨ (scope = "kb" ∧ d = .kbSetting name value) ∨
      ((scope = "intent" ∧ name = "inherits") ∧ ∃ n inherits,
        Announces (fun _ => True) value n inherits ∧ d = .intentInherits n inherits) ∨
      ((scope = "entity" ∧ name = "inherits") ∧ ∃ n inherits,
        Announces (fun _ => True) value n inherits ∧ d = .entityInherits n inherits) := by
  unfold ofKey
  simp only [String.toList_inj, String.ofList_toList]
  split_ifs with happ hkb hintent hentity
  · simp [happ, eq_comm]
  · simp [hkb, eq_comm]
  · simp [hintent, readInherits_eq_ok_iff]
  · simp [hentity, readInherits_eq_ok_iff]
  · simp [happ, hkb, hintent, hentity]

/-- A directive is read off the scope, the name and the value that its text assigns. -/
lemma read_eq_ok_iff_assigns {text : String} {d : Directive} :
    read text = .ok d ↔ ∃ scope name value, Assigns text scope name value ∧
      ∃ key, ofKey key scope.toList name.toList value.toList = .ok d := by
  simp only [assigns_iff]
  unfold read
  constructor
  · intro h
    split at h
    · cases h
    · next key value hsplit =>
      split at h
      · next scope name hkey =>
        exact ⟨String.ofList scope, String.ofList name, String.ofList value,
          ⟨key, by simpa using hsplit, by simpa using hkey⟩, key, by simpa using h⟩
      · cases h
  · rintro ⟨scope, name, value, ⟨key, hsplit, hkey⟩, key', h⟩
    have hany : ofKey key scope.toList name.toList value.toList = .ok d := by
      rwa [ofKey_eq_ok_iff] at h ⊢
    simpa [hsplit, hkey] using hany

/-- **What is read is what has the form**, whatever the name of a setting is and whatever words
announce the segments of a value. -/
lemma read_eq_ok_iff {text : String} {d : Directive} :
    read text = .ok d ↔ Accepted text d := by
  rw [read_eq_ok_iff_assigns]
  simp only [ofKey_eq_ok_iff, exists_const]
  constructor
  · rintro ⟨scope, name, value, h, ⟨rfl, rfl⟩ | ⟨rfl, rfl⟩ | ⟨⟨rfl, rfl⟩, n, i, hvalue, rfl⟩ |
      ⟨⟨rfl, rfl⟩, n, i, hvalue, rfl⟩⟩
    · exact .appSetting h trivial
    · exact .kbSetting h trivial
    · exact .intentInherits h hvalue
    · exact .entityInherits h hvalue
  · intro h
    cases h with
    | appSetting h _ => exact ⟨_, _, _, h, .inl ⟨rfl, rfl⟩⟩
    | kbSetting h _ => exact ⟨_, _, _, h, .inr (.inl ⟨rfl, rfl⟩)⟩
    | intentInherits h hvalue =>
        exact ⟨_, _, _, h, .inr (.inr (.inl ⟨⟨rfl, rfl⟩, _, _, hvalue, rfl⟩))⟩
    | entityInherits h hvalue =>
        exact ⟨_, _, _, h, .inr (.inr (.inr ⟨⟨rfl, rfl⟩, _, _, hvalue, rfl⟩))⟩

/-! ## Carrying out -/

/-- A map with a new value at one key; a new key stands behind the others. -/
structure Updates {α β : Type} [DecidableEq α] (before after : OrderedMap α β) (key : α)
    (value : β) : Prop where
  keys : after.keys = FirstSeen.add before.keys key
  get? : ∀ k, after.get? k = if key = k then some value else before.get? k

lemma updates_insert {α β : Type} [DecidableEq α] (m : OrderedMap α β) (key : α) (value : β) :
    Updates m (m.insert key value) key value :=
  ⟨m.keys_insert key value, fun k => m.get?_insert key k value⟩

/-- A registry in which a name has a record: it has one already and nothing changes, or the record
of a simple entity without roles is added. -/
inductive Ensures (reg : Registry) (name : String) : Registry → Prop
  | present {r : Entity.Record} (hget : reg.get? name = some r) : Ensures reg name reg
  | created {entities : OrderedMap String Entity.Record} (hget : reg.get? name = none)
      (hentities : Updates reg.entities entities name { name, roles := ∅, detail := .simple }) :
      Ensures reg name { reg with entities }

/-- What a directive does to a model. -/
inductive CarriedOut (m : Model) : Directive → Model → Prop
  | appSetting {key value : String} {settings : OrderedMap String String}
      (h : Updates m.app.settings settings key value) :
      CarriedOut m (.appSetting key value) { m with app := { m.app with settings } }
  | kbSetting {key value : String} {settings : OrderedMap String String}
      (h : Updates m.kb.settings settings key value) :
      CarriedOut m (.kbSetting key value) { m with kb := { m.kb with settings } }
  | intentInherits {name : String} {inherits : Inherits}
      {intents : OrderedMap String (Option Inherits)}
      (h : Updates m.app.intents intents name (some inherits)) :
      CarriedOut m (.intentInherits name inherits) { m with app := { m.app with intents } }
  | entityInherits {name : String} {inherits : Inherits} {registry : Registry}
      {entityInherits : OrderedMap String Inherits} (hentity : Ensures m.app.registry name registry)
      (h : Updates m.app.entityInherits entityInherits name inherits) :
      CarriedOut m (.entityInherits name inherits)
        { m with app := { m.app with registry, entityInherits } }

/-- A directive about an entity that has no record and is a role of another entity. -/
def Collides (d : Directive) (m : Model) : Prop :=
  ∃ name inherits owner, d = .entityInherits name inherits ∧
    m.app.registry.get? name = none ∧ m.app.registry.ownerOf? name = some owner ∧ owner ≠ name

/-- Only the name of a new entity without roles can be taken. -/
lemma violation?_of_get?_eq_none {reg : Registry} {name : String} (kind : Entity.Kind)
    (hget : reg.get? name = none) : reg.violation? kind name ∅ = reg.nameViolation? name := by
  have hkind : reg.kindViolation? kind name = none :=
    Registry.kindViolation?_eq_none_iff.mpr (by simp [hget])
  have hroles : (∅ : RoleSet).toList = [] := rfl
  unfold Registry.violation?
  rw [hkind, hroles]
  cases reg.nameViolation? name <;> rfl

lemma ensures_declareNamed {reg reg' : Registry} {name : String}
    (h : declareNamed reg name = .ok reg') : Ensures reg name reg' := by
  unfold declareNamed at h
  cases hget : reg.get? name with
  | some r =>
      obtain rfl : reg = reg' := by simpa [hget] using h
      exact .present hget
  | none =>
      rw [hget, Option.isSome_none, if_neg Bool.false_ne_true] at h
      obtain ⟨-, rfl⟩ := Registry.declare_eq_ok_iff.mp h
      have hnew : (reg.getOrNew .simple name).addRoles ∅ =
          { name, roles := ∅, detail := .simple } := by
        rw [Registry.getOrNew, hget]
        rfl
      refine .created hget ?_
      rw [hnew]
      exact updates_insert ..

lemma declareNamed_eq_error_iff {reg : Registry} {name : String} {v : Registry.Violation} :
    declareNamed reg name = .error v ↔ reg.get? name = none ∧
      ∃ owner, reg.ownerOf? name = some owner ∧ owner ≠ name ∧ v = .nameIsRole name owner := by
  rw [← Registry.nameViolation?_eq_some_iff, declareNamed]
  cases hget : reg.get? name with
  | some r => simp
  | none =>
      rw [Option.isSome_none, if_neg Bool.false_ne_true, ← violation?_of_get?_eq_none .simple hget,
        Registry.declare_eq_error_iff]
      simp

/-- **A directive is carried out unless it collides.** -/
lemma apply_cases (prov : Provenance) (m : Model) (d : Directive) :
    (¬ d.Collides m ∧ ∃ m', d.apply prov m = .ok m' ∧ d.CarriedOut m m') ∨
      (d.Collides m ∧ ∃ e, d.apply prov m = .error e ∧ e.code = .roleNameCollision ∧
        e.IsAt prov) := by
  cases d with
  | appSetting key value =>
      exact .inl ⟨nofun, _, rfl, .appSetting (updates_insert ..)⟩
  | kbSetting key value =>
      exact .inl ⟨nofun, _, rfl, .kbSetting (updates_insert ..)⟩
  | intentInherits name inherits =>
      exact .inl ⟨nofun, _, rfl, .intentInherits (updates_insert ..)⟩
  | entityInherits name inherits =>
      cases hdeclare : declareNamed m.app.registry name with
      | ok registry =>
          have hensures := ensures_declareNamed hdeclare
          refine .inl ⟨?_, _, ?_, .entityInherits hensures (updates_insert _ name inherits)⟩
          · rintro ⟨_, _, owner, ⟨⟩, hget, howner, hne⟩
            have herror := declareNamed_eq_error_iff.mpr ⟨hget, owner, howner, hne, rfl⟩
            simp [herror] at hdeclare
          · simp [apply, hdeclare, Provenance.locate, bind, Except.bind, App.setEntityInherits]
      | error v =>
          obtain ⟨hget, owner, howner, hne, rfl⟩ := declareNamed_eq_error_iff.mp hdeclare
          refine .inr ⟨⟨name, inherits, owner, rfl, hget, howner, hne⟩,
            prov.failure (Registry.Violation.nameIsRole name owner), ?_, rfl, prov.failure_isAt _⟩
          simp [apply, hdeclare, Provenance.locate, bind, Except.bind]

/-! ## What becomes of a directive -/

/-- A section about the model does to it what a form of directives says: a directive of the form is
carried out without a warning, or fails where an entity that it adds is a role; a text that is no
directive of the form changes nothing and gives one warning. -/
structure Handled (form : String → Directive → Prop) (info : ModelInfo) (m : Model) : Prop where
  directive : ∀ d, form info.directive d → info.warnings = [] ∧
    ((¬ d.Collides m ∧ ∃ m', info.apply m = .ok m' ∧ d.CarriedOut m m') ∨
      (d.Collides m ∧ ∃ e, info.apply m = .error e ∧ e.code = .roleNameCollision ∧
        e.IsAt info.prov))
  other : (∀ d, ¬ form info.directive d) → info.apply m = .ok m ∧
    ∃ message, info.warnings = [info.prov.warning message]

lemma handled_accepted (info : ModelInfo) (m : Model) : Handled Accepted info m where
  directive d hd := by
    have hread := read_eq_ok_iff.mpr hd
    simp only [ModelInfo.warnings, ModelInfo.apply, hread]
    exact ⟨trivial, apply_cases info.prov m d⟩
  other hnone := by
    cases hread : read info.directive with
    | ok d => exact absurd (read_eq_ok_iff.mp hread) (hnone d)
    | error fault => simp [ModelInfo.warnings, ModelInfo.apply, hread]

/-- **Directives of the form that is read are carried out, and other texts are ignored with one
warning.**  This is the documented form for exactly those texts whose directive names its setting
and announces its segments by their words. -/
theorem directive_handled (info : ModelInfo) (m : Model) :
    Handled Accepted info m ∧
      (Handled WellFormed info m ↔
        ∀ d, Accepted info.directive d → WellFormed info.directive d) := by
  refine ⟨handled_accepted info m, fun h d hd => ?_, fun h => ?_⟩
  · have hquiet := ((handled_accepted info m).directive d hd).1
    by_contra hbad
    have hnone : ∀ d', ¬ WellFormed info.directive d' := fun d' hd' => by
      have hsame := (read_eq_ok_iff.mpr hd).symm.trans (read_eq_ok_iff.mpr hd'.accepted)
      exact hbad (Except.ok.inj hsame ▸ hd')
    obtain ⟨-, message, hwarned⟩ := h.other hnone
    simp [hquiet] at hwarned
  · exact ⟨fun d hd => (handled_accepted info m).directive d hd.accepted,
      fun hnone => (handled_accepted info m).other fun d hd => hnone d (h d hd)⟩

/-- Segments in another order. -/
def swappedInfo : ModelInfo where
  directive := "@intent.inherits = domain_name : Utilities : name : Cancel : model_name : Cancel"
  prov := { file := "m.lu", line := 1, text := "" }

lemma read_swappedInfo : read swappedInfo.directive =
    .ok (.intentInherits "Utilities" ⟨"Cancel", "Cancel"⟩) := by
  decide +kernel

lemma not_wellFormed_swappedInfo (d : Directive) : ¬ WellFormed swappedInfo.directive d := by
  intro h
  have hd := read_swappedInfo.symm.trans (read_eq_ok_iff.mpr h.accepted)
  cases Except.ok.inj hd
  cases h with
  | intentInherits hassigns hvalue =>
      obtain ⟨w₁, w₂, w₃, hsegments, hwords, -⟩ := hvalue
      obtain ⟨key, hsplit, -⟩ := assigns_iff.mp hassigns
      have hcut : (split? swappedInfo.directive.toList).map
          (fun p => ((p.2.splitOn ':').map trim).head?) = some (some "domain_name".toList) := by
        decide +kernel
      rw [hsplit, Option.map_some, segments_iff.mp hsegments, (List.cons.inj hwords).1] at hcut
      simp at hcut

/-- The words that announce the segments are not looked at: the domain becomes an intent. -/
theorem not_handled_swappedInfo :
    ¬ Handled WellFormed swappedInfo {} ∧
      (swappedInfo.apply {}).toOption.map (fun m => m.app.intents.toList) =
        some [("Utilities", some ⟨"Cancel", "Cancel"⟩)] ∧
      swappedInfo.warnings = [] := by
  have hquiet : swappedInfo.warnings = [] := by
    simp [ModelInfo.warnings, read_swappedInfo]
  refine ⟨fun h => ?_, ?_, hquiet⟩
  · obtain ⟨-, message, hwarned⟩ := h.other not_wellFormed_swappedInfo
    simp [hquiet] at hwarned
  · simp only [ModelInfo.apply, read_swappedInfo]
    rfl

end Directive

end DialogModel
