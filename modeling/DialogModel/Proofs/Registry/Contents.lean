import DialogModel.Proofs.App.Contents
import DialogModel.Proofs.Declaration.Repetition
import DialogModel.Proofs.Declaration.Texts

/-!
# The contents of the registry

`Registry.ContentsFrom` traces what the registry holds back to the sections that declare it: a value
or a synonym of a list to a line of a list of that name, a child to a composite and a phrase to a
phrase list.  Details are traced entity by entity, and an entity that is declared for the first time
or again under another kind starts with an empty one.
-/

namespace DialogModel

open Entity

namespace Registry

variable {P : String → Detail → Prop} {reg : Registry}

/-- A property of the details of a registry. -/
def DetailsHave (P : String → Detail → Prop) (reg : Registry) : Prop :=
  ∀ name r, reg.get? name = some r → P name r.detail

lemma DetailsHave.declared (h : reg.DetailsHave P) {kind : Kind} {name : String}
    (hempty : P name (.empty kind)) (roles : RoleSet) :
    (reg.declared kind name roles).DetailsHave P := by
  intro x r hget
  rw [get?_declared] at hget
  split_ifs at hget with hx
  · subst hx
    cases hget
    rw [Record.detail_addRoles, getOrNew]
    cases hold : reg.get? name with
    | none => exact hempty
    | some old => exact h name old hold
  · exact h x r hget

lemma DetailsHave.erase (h : reg.DetailsHave P) (name : String) :
    (reg.erase name).DetailsHave P := by
  intro x r hget
  rw [get?_erase] at hget
  split_ifs at hget
  exact h x r hget

lemma DetailsHave.updateDetail (h : reg.DetailsHave P) {name : String} {f : Detail → Detail}
    (hf : ∀ detail, P name detail → P name (f detail)) :
    (reg.updateDetail name f).DetailsHave P := by
  intro x r hget
  rw [get?_updateDetail] at hget
  split_ifs at hget with hx
  · subst hx
    obtain ⟨old, hold, rfl⟩ := Option.map_eq_some_iff.mp hget
    exact hf old.detail (h name old hold)
  · exact h x r hget

end Registry

/-! ## What a section gives -/

namespace Section

/-- A section gives a value to a list. -/
def GivesValue (name value : String) (s : Section) : Prop :=
  ∃ d given, s.Declares d (.list given) ∧ d.name = name ∧
    (value ∈ given.map Sublist.canonicalForm ∨
      ∃ line ∈ d.definitionLines, Declaration.ListItem.ofText line.text = .value value)

/-- A section gives a synonym to a list. -/
def GivesSynonym (name synonym : String) (s : Section) : Prop :=
  ∃ d given, s.Declares d (.list given) ∧ d.name = name ∧
    ∃ line ∈ d.definitionLines, Declaration.ListItem.ofText line.text = .synonym synonym

/-- The values that the form of a declaration gives have no synonyms. -/
lemma Declares.synonyms_eq_nil {s : Section} {d : Declaration} {given : List Sublist}
    (h : s.Declares d (.list given)) : given.flatMap Sublist.synonyms = [] := by
  cases h with
  | newEntity h =>
      cases NewEntity.Reads.of_plan h
      rfl
  | legacyEntity h =>
      cases LegacyEntity.Reads.of_plan h with
      | list _ => rfl

/-- The values that the form of a declaration gives are trimmed. -/
lemma Declares.trim_given {s : Section} {d : Declaration} {given : List Sublist}
    (h : s.Declares d (.list given)) {v : String} (hv : v ∈ given.map Sublist.canonicalForm) :
    Text.trim v = v := by
  cases h with
  | newEntity h =>
      cases NewEntity.Reads.of_plan h
      cases hv
  | legacyEntity h =>
      cases LegacyEntity.Reads.of_plan h with
      | @list value _ =>
          rw [List.mem_singleton.mp hv]
          exact Text.trim_ofList value

lemma GivesValue.trim {s : Section} {name v : String} (h : s.GivesValue name v) :
    Text.trim v = v := by
  obtain ⟨d, given, hd, -, hv | ⟨line, -, hline⟩⟩ := h
  · exact hd.trim_given hv
  · exact (Declaration.ListItem.of_ofText_value hline).1

lemma GivesSynonym.trim {s : Section} {name x : String} (h : s.GivesSynonym name x) :
    Text.trim x = x := by
  obtain ⟨d, given, -, -, line, -, hline⟩ := h
  rw [Declaration.ListItem.of_ofText_synonym hline, Text.trim_trim]

end Section

namespace Registry

variable {sections : List Section} {reg : Registry}

/-- The detail of an entity comes from sections. -/
structure DetailFrom (sections : List Section) (name : String) (detail : Detail) : Prop where
  values : ∀ v ∈ detail.forms, ∃ s ∈ sections, s.GivesValue name v
  synonyms : ∀ x ∈ detail.synonyms, ∃ s ∈ sections, s.GivesSynonym name x
  children : ∀ x ∈ detail.children, ∃ s ∈ sections, ∃ d, s.Declares d .composite ∧ x ∈ d.children

/-- The contents of the registry come from sections. -/
structure ContentsFrom (sections : List Section) (reg : Registry) : Prop where
  details : reg.DetailsHave (DetailFrom sections)
  phrases : ∀ name p, reg.phraseList? name = some p → ∀ v ∈ p.values,
    ∃ s ∈ sections, ∃ d flag, s.Declares d (.phraseList flag) ∧ v ∈ d.items

/-- A detail without texts comes from any sections. -/
lemma DetailFrom.of_nil {name : String} {detail : Detail} (hforms : detail.forms = [])
    (hsynonyms : detail.synonyms = []) (hchildren : detail.children = []) :
    DetailFrom sections name detail where
  values _ hv := absurd (hforms ▸ hv) List.not_mem_nil
  synonyms _ hx := absurd (hsynonyms ▸ hx) List.not_mem_nil
  children _ hx := absurd (hchildren ▸ hx) List.not_mem_nil

lemma DetailFrom.empty (name : String) (kind : Kind) : DetailFrom sections name (.empty kind) := by
  cases kind <;> exact .of_nil rfl rfl rfl

lemma contentsFrom_empty : ContentsFrom sections {} where
  details _ _ h := nomatch h
  phrases _ _ h := nomatch h

lemma lasting_contentsFrom : Lasting (ContentsFrom sections) where
  declared kind name roles h := ⟨h.details.declared (.empty name kind) roles, h.phrases⟩
  erase _ _ h := ⟨h.details.erase _, h.phrases⟩

/-- What completes a detail comes from the section that declares it. -/
lemma DetailFrom.completed {s : Section} (hs : s ∈ sections) {d : Declaration}
    {plan : Declaration.Plan} (hd : s.Declares d plan) {f : Detail → Detail}
    (hf : d.CompletesBy plan f) {detail : Detail} (h : DetailFrom sections d.name detail) :
    DetailFrom sections d.name (f detail) := by
  cases hf with
  | @sublists given new hnew =>
      cases detail with
      | list existing =>
          obtain ⟨hforms, hsynonyms⟩ := Declaration.mem_foldl_mergeSublist new existing
          obtain ⟨hforms', hsynonyms'⟩ := Declaration.mem_sublists hnew
          refine ⟨fun v hv => ?_, fun x hx => ?_, fun _ hx => absurd hx List.not_mem_nil⟩
          · rcases (hforms v).mp hv with hv | hv
            · exact h.values v hv
            · exact ⟨s, hs, d, given, hd, rfl, (hforms' v).mp hv⟩
          · rcases (hsynonyms x).mp hx with hx | hx
            · exact h.synonyms x hx
            · rw [hsynonyms', hd.synonyms_eq_nil] at hx
              exact ⟨s, hs, d, given, hd, rfl, by simpa using hx⟩
      | _ => exact h
  | children =>
      cases detail with
      | composite existing =>
          refine ⟨fun _ hv => absurd hv List.not_mem_nil, fun _ hx => absurd hx List.not_mem_nil,
            fun x hx => ?_⟩
          cases hempty : existing.isEmpty with
          | true =>
              exact ⟨s, hs, d, hd,
                by simpa [Declaration.setChildren, hempty, Detail.children] using hx⟩
          | false => exact h.children x (by simpa [Declaration.setChildren, hempty] using hx)
      | _ => exact h
  | pattern _ =>
      cases detail with
      | regex existing => exact .of_nil rfl rfl rfl
      | _ => exact h

lemma phraseList?_updateDetail (name : String) (f : Detail → Detail) (x : String) :
    (reg.updateDetail name f).phraseList? x = reg.phraseList? x := by
  unfold updateDetail
  split <;> rfl

lemma phraseList?_updatePhrases (name : String) (flag : Bool) (f : List String → List String)
    (x : String) :
    (reg.updatePhrases name flag f).phraseList? x =
      if name = x then some { reg.phrasesOrNew name flag with
        values := f (reg.phrasesOrNew name flag).values }
      else reg.phraseList? x :=
  OrderedMap.get?_insert ..

/-- **A section of the document gives the registry nothing that does not come from it.** -/
lemma keeps_contentsFrom {s : Section} (hs : s ∈ sections) {d : Declaration}
    {plan : Declaration.Plan} (hd : s.Declares d plan) : d.Keeps (ContentsFrom sections) plan where
  completed hf h := by
    refine ⟨h.details.updateDetail fun detail hdetail => hdetail.completed hs hd hf, ?_⟩
    intro name p hget
    rw [phraseList?_updateDetail] at hget
    exact h.phrases name p hget
  phrases {reg flag} hplan h := by
    refine ⟨h.details, fun name p hget v hv => ?_⟩
    rw [phraseList?_updatePhrases] at hget
    split_ifs at hget with hname
    · subst hname hplan
      cases hget
      rcases FirstSeen.mem_addAll.mp hv with hv | hv
      · unfold phrasesOrNew at hv
        cases hold : reg.phraseList? d.name with
        | none => simp [hold] at hv
        | some old =>
            rw [hold] at hv
            exact h.phrases d.name old hold v hv
      · exact ⟨s, hs, d, flag, hd, hv⟩
    · exact h.phrases name p hget v hv

end Registry

end DialogModel
