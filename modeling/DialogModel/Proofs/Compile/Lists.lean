import DialogModel.Proofs.Compile.Texts
import DialogModel.Proofs.Declaration.Gathering

/-!
# The lists of a compilation

What the registry holds under the name of a list depends on the items that the source gives to it
and on nothing else.  Sections that declare other things leave the sublists of a name as they are,
whether or not a list of that name exists yet; a section that declares the list merges its parts
into them (`Section.apply_sublistsOf`).  So the list of a model is gathered from the parts of all
sections in the order of the source.
-/

namespace DialogModel

open Entity Declaration

/-! ## The sublists of a name -/

namespace Entity.Detail

/-- The sublists of a list; a detail of another kind has none. -/
def sublists : Detail → List Sublist
  | .list sublists => sublists
  | _ => []

lemma sublists_empty (kind : Kind) : (empty kind).sublists = [] := by
  cases kind <;> rfl

lemma sublists_eq_nil {detail : Detail} (h : detail.kind ≠ .list) : detail.sublists = [] := by
  cases detail <;> first | rfl | exact absurd rfl h

end Entity.Detail

namespace Registry

variable {reg : Registry} {name : String}

/-- The sublists of the entity of a name, none if there is no such list. -/
def sublistsOf (reg : Registry) (name : String) : List Sublist :=
  ((reg.get? name).map fun r => r.detail.sublists).getD []

/-- Entities come and go and the sublists of a name stay. -/
lemma lasting_sublistsOf (name : String) (subs : List Sublist) :
    Lasting fun reg => reg.sublistsOf name = subs where
  declared {reg} kind x roles h := by
    rw [← h, sublistsOf, get?_declared]
    split_ifs with hx
    · subst hx
      unfold sublistsOf getOrNew
      cases reg.get? x with
      | none => simpa [Record.detail_addRoles, Record.ofKind] using Detail.sublists_empty kind
      | some r => simp [Record.detail_addRoles]
    · rfl
  erase {reg x r} hget hkind h := by
    rw [← h, sublistsOf, get?_erase]
    split_ifs with hx
    · subst hx
      have hnil : r.detail.sublists = [] := by
        refine Detail.sublists_eq_nil fun hlist => ?_
        rcases hkind with hkind | hkind <;> cases hkind.symm.trans hlist
      simp [sublistsOf, hget, hnil]
    · rfl

lemma sublistsOf_updateDetail {x : String} {f : Detail → Detail}
    (hf : x = name → ∀ detail, (f detail).sublists = detail.sublists) :
    (reg.updateDetail x f).sublistsOf name = reg.sublistsOf name := by
  rw [sublistsOf, get?_updateDetail]
  split_ifs with hx
  · cases hget : reg.get? name <;> simp [sublistsOf, hget, hf hx]
  · rfl

end Registry

/-! ## One section -/

/-- A declaration of anything but the list of a name leaves its sublists as they are. -/
lemma Declaration.keeps_sublistsOf {d : Declaration} {plan : Plan} {name : String}
    (h : ∀ given, plan = .list given → d.name ≠ name) (subs : List Sublist) :
    d.Keeps (fun reg => reg.sublistsOf name = subs) plan where
  completed hf hreg := by
    rw [Registry.sublistsOf_updateDetail, hreg]
    intro hname detail
    cases hf with
    | sublists _ => exact absurd hname (h _ rfl)
    | children => cases detail <;> rfl
    | pattern _ => cases detail <;> rfl
  phrases _ hreg := hreg

/-- A list that is declared has the sublists that it had, merged with the new ones. -/
lemma Declaration.sublistsOf_declareList {d : Declaration} {given : List Sublist} {app app' : App}
    (h : d.declareList app given = .ok app') :
    ∃ new, d.sublists given = .ok new ∧
      app'.registry.sublistsOf d.name =
        new.foldl mergeSublist (app.registry.sublistsOf d.name) := by
  unfold declareList at h
  obtain ⟨new, hnew, h⟩ := bind_eq_ok_iff.mp h
  obtain ⟨app₁, hreg, h⟩ := bind_eq_ok_iff.mp h
  cases h
  refine ⟨new, hnew, ?_⟩
  have hsame : app₁.registry.sublistsOf d.name = app.registry.sublistsOf d.name :=
    register_keeps (Registry.lasting_sublistsOf d.name _) hreg rfl
  obtain ⟨r, hget, hkind, -⟩ := has_of_register (by decide) hreg
  obtain ⟨existing, hdetail⟩ : ∃ existing, r.detail = .list existing := by
    cases hd : r.detail <;> simp_all [Record.kind, Detail.kind]
  rw [← hsame, Registry.sublistsOf, Registry.get?_updateDetail, if_pos rfl]
  simp [Registry.sublistsOf, hget, hdetail, mergeSublists, Detail.sublists]

/-- **A section merges its parts into a list, and nothing else changes the list.** -/
lemma Section.apply_sublistsOf {ctx : Context} {s : Section} {m m' : Model}
    (h : s.apply ctx m = .ok m') (name : String) :
    m'.app.registry.sublistsOf name =
      (s.listParts name).foldl mergeSublist (m.app.registry.sublistsOf name) := by
  by_cases hlist : ∃ d given, s.Declares d (.list given) ∧ d.name = name
  · obtain ⟨d, given, hd, rfl⟩ := hlist
    obtain ⟨new, hnew, hsubs⟩ := sublistsOf_declareList (Section.list_of_apply hd h)
    rw [hsubs, hd.foldl_mergeSublist hnew, listParts, hd.listItems_eq, if_pos rfl]
  · have hother : ∀ d given, s.Declares d (.list given) → d.name ≠ name :=
      fun d given hd hname => hlist ⟨d, given, hd, hname⟩
    rw [listParts, listItems_eq_nil hother]
    refine Section.apply_keeps (Registry.lasting_sublistsOf name _) (fun d plan hd => ?_) h rfl
    refine keeps_sublistsOf (fun given hplan => ?_) _
    subst hplan
    exact hother d given hd

/-! ## The run -/

namespace Compile

variable {options : Options} {probe : Probe} {sections : List Section}

lemma flatMap_listParts_sectionsOf (name : String) (pass : Pass) :
    (sectionsOf pass sections).flatMap (Section.listParts name) =
      if pass = .entities then sections.flatMap (Section.listParts name) else [] :=
  flatMap_sectionsOf (fun s hs => by cases s <;> first | rfl | exact absurd rfl hs) pass

/-- No list has sublists before the pass of the entities; in it the sublists of a list and the parts
that are left come to the parts of the document. -/
lemma Reached.sublistsOf {p : Progress} (h : Reached options probe sections p) (name : String) :
    (p.rest.flatMap (Section.listParts name)).foldl mergeSublist
        (p.model.app.registry.sublistsOf name) =
      if p.pass = .directives ∨ p.pass = .imports then []
      else (sections.flatMap (Section.listParts name)).foldl mergeSublist [] := by
  induction h with
  | start => simp [flatMap_listParts_sectionsOf, Registry.sublistsOf, Registry.get?]
  | step _ happly ih =>
      rw [← ih, Section.apply_sublistsOf happly, List.flatMap_cons, List.foldl_append]
  | imports _ ih =>
      simpa [flatMap_listParts_sectionsOf] using ih
  | entities _ ih =>
      have hnone := ih
      simp only [List.flatMap_nil, List.foldl_nil, or_true, if_true] at hnone
      simp [hnone, flatMap_listParts_sectionsOf]
  | questions _ ih =>
      simpa [flatMap_listParts_sectionsOf] using ih

/-- In a compilation that succeeds the items that a section gives to a list start with a value. -/
lemma grounded_of_compile {file source : String} {c : Compilation}
    (h : compile file source options probe = .ok c) {s : Section}
    (hs : s ∈ (Document.read file source).sections) (name : String) :
    ListItem.Grounded (s.listItems name) := by
  by_cases hlist : ∃ d given, s.Declares d (.list given) ∧ d.name = name
  · obtain ⟨d, given, hd, rfl⟩ := hlist
    obtain ⟨new, -, -, hnew, -⟩ := list_of_compile h hs hd
    rw [hd.listItems_eq, if_pos rfl]
    exact hd.grounded hnew
  · rw [Section.listItems_eq_nil fun d given hd hname => hlist ⟨d, given, hd, hname⟩]
    exact nofun

/-- **A list is gathered from its items.**  The list of a model has each of its values once, in the
order in which the source first gives them, and under each value all the synonyms that the source
gives under it, each once and in order.  The items count in the order of the source, however they
are split over declarations: the parts that the sections give one by one are those that all items
would give at once. -/
theorem lists_gathered (file source : String) (options : Options) (probe : Probe) (c : Compilation)
    (h : compile file source options probe = .ok c) (name : String) (r : Record)
    (subs : List Sublist) (hget : c.model.app.registry.get? name = some r)
    (hdetail : r.detail = .list subs) :
    subs = Sublist.gather
        ((Document.read file source).sections.flatMap (Section.listParts name)) ∧
      (Document.read file source).sections.flatMap (Section.listParts name) =
        ListItem.parts none
          ((Document.read file source).sections.flatMap (Section.listItems name)) := by
  obtain ⟨ctx, hreached⟩ := reached_of_compile h
  have hsubs : subs =
      ((Document.read file source).sections.flatMap (Section.listParts name)).foldl mergeSublist
        [] := by
    simpa [Registry.sublistsOf, hget, hdetail, Detail.sublists] using hreached.sublistsOf name
  refine ⟨?_, ?_⟩
  · rw [hsubs, foldl_mergeSublist_nil fun s hs => ?_]
    obtain ⟨t, -, hpart⟩ := List.mem_flatMap.mp hs
    exact ListItem.nodup_of_mem_parts hpart
  · have hgrounded : ∀ items ∈ (Document.read file source).sections.map (Section.listItems name),
        ListItem.Grounded items := by
      intro items hitems
      obtain ⟨s, hs, rfl⟩ := List.mem_map.mp hitems
      exact grounded_of_compile h hs name
    rw [List.flatMap_def (f := Section.listItems name), ListItem.parts_flatten hgrounded,
      List.flatMap_map]
    rfl

/-- A source that gives a list in two declarations, the first of which takes over a simple entity,
with values and synonyms that come up again. -/
def scatteredSource : String :=
  "@ simple city hasRoles from\n$city:Paris=\n- Lutetia\n# fly\n- to Rome\n" ++
    "@ list city = Rome:\n- Roma\n- Paris:\n- Ville Lumiere\n- Lutetia\n- Rome:\n- Urbs\n- Roma\n"

theorem lists_gathered_scatteredSource :
    ∃ c r, compile "travel" scatteredSource {} Probe.offline = .ok c ∧
      c.model.app.registry.get? "city" = some r ∧
      r.detail = .list [⟨"Paris", ["Lutetia", "Ville Lumiere"]⟩, ⟨"Rome", ["Roma", "Urbs"]⟩] ∧
      [⟨"Paris", ["Lutetia", "Ville Lumiere"]⟩, ⟨"Rome", ["Roma", "Urbs"]⟩] =
        Sublist.gather (ListItem.parts none
          [.value "Paris", .synonym "Lutetia", .value "Rome", .synonym "Roma", .value "Paris",
            .synonym "Ville Lumiere", .synonym "Lutetia", .value "Rome", .synonym "Urbs",
            .synonym "Roma"]) := by
  have hitems : (Document.read "travel" scatteredSource).sections.flatMap
      (Section.listItems "city") =
        [.value "Paris", .synonym "Lutetia", .value "Rome", .synonym "Roma", .value "Paris",
          .synonym "Ville Lumiere", .synonym "Lutetia", .value "Rome", .synonym "Urbs",
          .synonym "Roma"] := by decide +kernel
  have hrun : (compile "travel" scatteredSource {} Probe.offline).toOption.map (fun c =>
        (c.model.app.registry.get? "city").map Record.detail) =
      some (some (.list
        [⟨"Paris", ["Lutetia", "Ville Lumiere"]⟩, ⟨"Rome", ["Roma", "Urbs"]⟩])) := by
    decide +kernel
  obtain ⟨c, hc, hfound⟩ := exists_ok_of_map_toOption hrun
  obtain ⟨r, hget, hdetail⟩ := Option.map_eq_some_iff.mp hfound
  obtain ⟨hsubs, hparts⟩ := lists_gathered _ _ _ _ c hc "city" r _ hget hdetail
  rw [hparts, hitems] at hsubs
  exact ⟨c, r, hc, hget, hdetail, hsubs⟩

end Compile

end DialogModel
