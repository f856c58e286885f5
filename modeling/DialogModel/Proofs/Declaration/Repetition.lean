import DialogModel.Proofs.App.Sections
import DialogModel.Proofs.Registry.Repetition

/-!
# Declaring the same again

Carrying out a declaration a second time leaves the application as it is (`run_again`).  The first
time may take over a record, fill a composite or a regex or create an entity, and the second finds
the result under another kind and goes through other branches, so the two runs are not compared
branch by branch.  The first leaves behind a registry that has the declared entity, and there a
registration has nothing left to do; a detail that has been completed is complete; and the checks of
a composite and a regex accept the children and the pattern that they have let in.
-/

namespace DialogModel

open Entity

lemma Entity.Record.detail_addRoles (r : Record) (roles : RoleSet) :
    (r.addRoles roles).detail = r.detail := by
  unfold addRoles
  split <;> rfl

/-! ## Declarations -/

namespace Declaration

variable {d : Declaration} {app app' : App} {kind : Kind}

/-- A registration leaves the declared entity behind. -/
lemma has_of_register (hkind : kind ≠ .phraseList) (h : d.register app kind = .ok app') :
    app'.registry.Has kind d.name d.roles := by
  unfold register at h
  obtain ⟨⟨carried, app₁⟩, -, h⟩ := bind_eq_ok_iff.mp h
  obtain ⟨reg, hdecl, h⟩ := bind_eq_ok_iff.mp h
  obtain ⟨hadm, rfl⟩ := Registry.declare_eq_ok_iff.mp (Provenance.locate_eq_ok_iff.mp hdecl)
  cases h
  exact (Registry.has_declared hkind hadm).mono fun role hrole => RoleSet.mem_union.mpr (.inr hrole)

/-- Registering an entity that the registry has. -/
lemma register_eq_self (hs : app.registry.Sound) (h : app.registry.Has kind d.name d.roles) :
    d.register app kind = .ok app := by
  have htake : d.takeOver app kind = .ok (∅, app) := by
    obtain ⟨r, hget, hkind, -⟩ := h
    simp only [takeOver, hget, hkind, if_true]
  have hroles : app.registry.Has kind d.name ((∅ : RoleSet).union d.roles) :=
    h.mono fun role hrole => by simpa using hrole
  exact bind_eq_ok_iff.mpr ⟨_, htake, bind_eq_ok_iff.mpr
    ⟨app.registry, Provenance.locate_eq_ok_iff.mpr (hs.declare_eq_self hroles), rfl⟩⟩

/-- A registration whose entity is then completed, and all of it again. -/
lemma register_completed_again {f : Detail → Detail} (hs : app.registry.Sound)
    (hkind : kind ≠ .phraseList) (hf : Completes f) (hff : ∀ detail, f (f detail) = f detail)
    (h : d.register app kind = .ok app') :
    let completed := { app' with registry := app'.registry.updateDetail d.name f }
    d.register completed kind = .ok completed ∧
      { completed with registry := completed.registry.updateDetail d.name f } = completed := by
  have hs' : (app'.registry.updateDetail d.name f).Sound :=
    ((register_step hkind h).sound hs).updateDetail hf.kind_eq d.name
  refine ⟨register_eq_self hs' ((has_of_register hkind h).updateDetail hf.kind_eq d.name), ?_⟩
  simp only [Registry.updateDetail_updateDetail hff]

lemma registerPlain_again (hs : app.registry.Sound) (hkind : kind ≠ .phraseList)
    (h : d.registerPlain app kind = .ok app') : d.registerPlain app' kind = .ok app' := by
  unfold registerPlain at h ⊢
  split_ifs at h ⊢ with hbody
  exact register_eq_self ((register_step hkind h).sound hs) (has_of_register hkind h)

/-- A registration finds the detail that the entity had, or an empty one. -/
lemma detail_of_register (h : d.register app kind = .ok app') :
    ∃ r, app'.registry.get? d.name = some r ∧
      (r.detail = .empty kind ∨ (app.registry.get? d.name).map Record.detail = some r.detail) := by
  unfold register at h
  obtain ⟨⟨carried, app₁⟩, htake, h⟩ := bind_eq_ok_iff.mp h
  obtain ⟨reg, hdecl, h⟩ := bind_eq_ok_iff.mp h
  obtain ⟨hadm, rfl⟩ := Registry.declare_eq_ok_iff.mp (Provenance.locate_eq_ok_iff.mp hdecl)
  cases h
  refine ⟨_, by rw [Registry.get?_declared, if_pos rfl], ?_⟩
  rw [Record.detail_addRoles, Registry.getOrNew]
  rcases takeOver_eq_ok htake with ⟨-, rfl⟩ | ⟨r, -, -, -, rfl⟩
  · cases app₁.registry.get? d.name with
    | none => exact .inl rfl
    | some old => exact .inr rfl
  · left
    simp [Record.ofKind]

/-- What a registration and a completion make of the detail of an entity. -/
lemma detail_of_completed (h : d.register app kind = .ok app') (f : Detail → Detail) :
    ∃ base, ((app'.registry.updateDetail d.name f).get? d.name).map Record.detail = some (f base) ∧
      (base = .empty kind ∨ (app.registry.get? d.name).map Record.detail = some base) := by
  obtain ⟨r, hget, hbase⟩ := detail_of_register h
  exact ⟨r.detail, by simp [Registry.get?_updateDetail, hget], hbase⟩

/-! ### Lists -/

/-- A list has a value, with its synonyms, where merging looks for it. -/
inductive Holds (new : Sublist) : List Sublist → Prop
  | here {s : Sublist} {rest : List Sublist} (hform : s.canonicalForm = new.canonicalForm)
      (hsynonyms : ∀ x ∈ new.synonyms, x ∈ s.synonyms) : Holds new (s :: rest)
  | there {s : Sublist} {rest : List Sublist} (hform : s.canonicalForm ≠ new.canonicalForm)
      (h : Holds new rest) : Holds new (s :: rest)

lemma Holds.mergeSublist_eq_self {new : Sublist} {existing : List Sublist}
    (h : Holds new existing) : mergeSublist existing new = existing := by
  induction h with
  | here hform hsynonyms =>
      rw [mergeSublist, if_pos hform, FirstSeen.addAll_eq_self hsynonyms]
  | there hform _ ih => rw [mergeSublist, if_neg hform, ih]

lemma holds_mergeSublist (new : Sublist) (existing : List Sublist) :
    Holds new (mergeSublist existing new) := by
  induction existing with
  | nil => exact .here rfl fun _ hx => hx
  | cons s rest ih =>
      unfold mergeSublist
      split_ifs with hform
      · exact .here hform fun x hx => FirstSeen.mem_addAll.mpr (.inr hx)
      · exact .there hform ih

/-- Merging another value keeps those that are there. -/
lemma Holds.mergeSublist {new other : Sublist} {existing : List Sublist} (h : Holds new existing) :
    Holds new (mergeSublist existing other) := by
  induction h with
  | @here s rest hform hsynonyms =>
      unfold Declaration.mergeSublist
      split_ifs
      · exact .here hform fun x hx => FirstSeen.mem_addAll.mpr (.inl (hsynonyms x hx))
      · exact .here hform hsynonyms
  | @there s rest hform hrest ih =>
      unfold Declaration.mergeSublist
      split_ifs
      · exact .there hform hrest
      · exact .there hform ih

lemma holds_foldl_mergeSublist (new existing : List Sublist) :
    ∀ s ∈ new, Holds s (new.foldl mergeSublist existing) := by
  have hkeep : ∀ (new existing : List Sublist) (s : Sublist), Holds s existing →
      Holds s (new.foldl mergeSublist existing) := by
    intro new
    induction new with
    | nil => exact fun _ _ h => h
    | cons t new ih => exact fun existing s h => ih _ s h.mergeSublist
  induction new generalizing existing with
  | nil => simp
  | cons t new ih =>
      exact List.forall_mem_cons.mpr ⟨hkeep new _ t (holds_mergeSublist t existing), ih _⟩

lemma foldl_mergeSublist_eq_self {new existing : List Sublist} (h : ∀ s ∈ new, Holds s existing) :
    new.foldl mergeSublist existing = existing := by
  induction new with
  | nil => rfl
  | cons s new ih =>
      obtain ⟨hs, hnew⟩ := List.forall_mem_cons.mp h
      rw [List.foldl_cons, hs.mergeSublist_eq_self, ih hnew]

/-- A detail is completed once. -/
lemma Completes.idempotent {f : Detail → Detail} (hf : Completes f) (detail : Detail) :
    f (f detail) = f detail := by
  cases hf with
  | sublists new =>
      cases detail with
      | list existing =>
          exact congrArg Detail.list
            (foldl_mergeSublist_eq_self (holds_foldl_mergeSublist new existing))
      | _ => rfl
  | children new =>
      cases detail with
      | composite existing => cases existing <;> cases new <;> rfl
      | _ => rfl
  | pattern new =>
      cases detail with
      | regex existing =>
          by_cases hempty : existing = ""
          · cases new with
            | none => simp [setPattern, hempty]
            | some pattern => simp [setPattern, hempty]
          · simp [setPattern, hempty]
      | _ => rfl

lemma declareList_again {given : List Sublist} (hs : app.registry.Sound)
    (h : d.declareList app given = .ok app') : d.declareList app' given = .ok app' := by
  unfold declareList at h ⊢
  obtain ⟨new, hnew, h⟩ := bind_eq_ok_iff.mp h
  obtain ⟨app₁, hreg, h⟩ := bind_eq_ok_iff.mp h
  cases h
  have hf : Completes (mergeSublists new) := .sublists new
  obtain ⟨hagain, hsame⟩ := register_completed_again hs (by decide) hf hf.idempotent hreg
  exact bind_eq_ok_iff.mpr ⟨new, hnew, bind_eq_ok_iff.mpr ⟨_, hagain, congrArg Except.ok hsame⟩⟩

/-! ### Composites and regexes -/

lemma sameMembers_self (xs : List String) : sameMembers xs xs = true := by
  simp [sameMembers]

lemma childrenFault?_eq_none_iff :
    d.childrenFault? app = none ↔
      ((d.hasDefinition || d.roles.isEmpty) && d.children.isEmpty) = false ∧
        ∀ existing, (app.registry.get? d.name).map Record.detail = some (.composite existing) →
          (existing.isEmpty || d.children.isEmpty || sameMembers existing d.children) = true := by
  unfold childrenFault?
  cases hmissing : (d.hasDefinition || d.roles.isEmpty) && d.children.isEmpty with
  | true => simp
  | false =>
      simp only [Bool.false_eq_true, if_false, true_and]
      split
      · next existing hdetail => simp [hdetail, or_iff_not_imp_left]
      · next hother =>
          exact ⟨fun _ existing hdetail => absurd hdetail (hother existing), fun _ => rfl⟩

lemma patternFault?_eq_none_iff {new : Option String} :
    d.patternFault? app new = none ↔
      ∀ pattern existing, new = some pattern →
        (app.registry.get? d.name).map Record.detail = some (.regex existing) →
          existing = "" ∨ existing = pattern := by
  unfold patternFault?
  split
  · next pattern existing hdetail => simp [hdetail, or_iff_not_imp_left]
  · next hother =>
    exact ⟨fun _ pattern existing hnew hdetail => absurd hdetail (hother pattern existing hnew),
      fun _ => rfl⟩

lemma declareComposite_again (hs : app.registry.Sound) (h : d.declareComposite app = .ok app') :
    d.declareComposite app' = .ok app' := by
  unfold declareComposite at h ⊢
  split at h
  · cases h
  · next hfault =>
    obtain ⟨app₁, hreg, h⟩ := bind_eq_ok_iff.mp h
    cases h
    have hf : Completes (setChildren d.children) := .children d.children
    obtain ⟨hagain, hsame⟩ := register_completed_again hs (by decide) hf hf.idempotent hreg
    obtain ⟨base, hdetail, hbase⟩ := detail_of_completed hreg (setChildren d.children)
    obtain ⟨hgiven, hold⟩ := childrenFault?_eq_none_iff.mp hfault
    have hfault' : d.childrenFault? { app₁ with
        registry := app₁.registry.updateDetail d.name (setChildren d.children) } = none := by
      refine childrenFault?_eq_none_iff.mpr ⟨hgiven, fun existing hexisting => ?_⟩
      rw [hdetail] at hexisting
      cases base with
      | composite former =>
          obtain rfl : (if former.isEmpty then d.children else former) = existing := by
            simpa [setChildren] using hexisting
          -- The children are those of this declaration, or those that it was compared with.
          cases hformer : former.isEmpty with
          | true => simp [sameMembers_self]
          | false =>
              rcases hbase with hnew | hdetail'
              · cases hnew
                cases hformer
              · simpa [hformer] using hold former hdetail'
      | _ => cases hexisting
    rw [hfault']
    exact bind_eq_ok_iff.mpr ⟨_, hagain, congrArg Except.ok hsame⟩

lemma declareRegex_again (hs : app.registry.Sound) (h : d.declareRegex app = .ok app') :
    d.declareRegex app' = .ok app' := by
  unfold declareRegex at h ⊢
  obtain ⟨new, hpattern, h⟩ := bind_eq_ok_iff.mp h
  refine bind_eq_ok_iff.mpr ⟨new, hpattern, ?_⟩
  split at h
  · cases h
  · next hfault =>
    obtain ⟨app₁, hreg, h⟩ := bind_eq_ok_iff.mp h
    cases h
    have hf : Completes (setPattern new) := .pattern new
    obtain ⟨hagain, hsame⟩ := register_completed_again hs (by decide) hf hf.idempotent hreg
    obtain ⟨base, hdetail, hbase⟩ := detail_of_completed hreg (setPattern new)
    have hold := patternFault?_eq_none_iff.mp hfault
    have hfault' : d.patternFault? { app₁ with
        registry := app₁.registry.updateDetail d.name (setPattern new) } new = none := by
      refine patternFault?_eq_none_iff.mpr fun pattern existing hnew hexisting => ?_
      subst hnew
      rw [hdetail] at hexisting
      cases base with
      | regex former =>
          obtain rfl : (if former.isEmpty then pattern else former) = existing := by
            simpa [setPattern] using hexisting
          -- The pattern is that of this declaration, or one that it was compared with.
          by_cases hformer : former = ""
          · simp [hformer]
          · rcases hbase with hnew | hdetail'
            · cases hnew
              exact absurd rfl hformer
            · simpa [hformer] using hold pattern former rfl hdetail'
      | _ => cases hexisting
    rw [hfault']
    exact bind_eq_ok_iff.mpr ⟨_, hagain, congrArg Except.ok hsame⟩

/-! ### All kinds -/

lemma declarePrebuilt_again {ctx : Context} (hs : app.registry.Sound)
    (h : d.declarePrebuilt ctx app = .ok app') : d.declarePrebuilt ctx app' = .ok app' := by
  unfold declarePrebuilt at h ⊢
  obtain ⟨resolution, hresolve, h⟩ := bind_eq_ok_iff.mp h
  refine bind_eq_ok_iff.mpr ⟨resolution, hresolve, ?_⟩
  cases resolution with
  | registered type name =>
      exact register_eq_self ((register_step (by decide) h).sound hs)
        (has_of_register (by decide) h)
  | skipped type => rfl

lemma declarePhraseList_again {interchangeable : Bool}
    (h : d.declarePhraseList app interchangeable = .ok app') :
    d.declarePhraseList app' interchangeable = .ok app' := by
  have hroles : (!d.roles.isEmpty) = false := by
    unfold declarePhraseList at h
    split_ifs at h with hroles
    simpa using hroles
  -- Both ways to succeed add the phrases to a list with this flag.
  obtain ⟨rfl, hflag⟩ : app' = declarePhraseList.addPhrases app d interchangeable ∧
      (app.registry.phrasesOrNew d.name interchangeable).interchangeable = interchangeable := by
    simp only [declarePhraseList, hroles, Bool.false_eq_true, if_false] at h
    unfold Registry.phrasesOrNew
    split at h
    · next existing hget =>
      split_ifs at h with hsame
      cases h
      exact ⟨rfl, by rw [hget]; exact hsame⟩
    · next hget =>
      cases h
      exact ⟨rfl, by rw [hget]; rfl⟩
  set app' := declarePhraseList.addPhrases app d interchangeable with happ'
  have hfound : app'.registry.phraseList? d.name =
      some { app.registry.phrasesOrNew d.name interchangeable with
        values := FirstSeen.addAll (app.registry.phrasesOrNew d.name interchangeable).values
          d.items } := by
    refine (OrderedMap.get?_insert ..).trans ?_
    rw [if_pos rfl]
  have hsame : declarePhraseList.addPhrases app' d interchangeable = app' := by
    rw [happ']
    simp only [declarePhraseList.addPhrases, Registry.updatePhrases_updatePhrases]
  simp only [declarePhraseList, hroles, Bool.false_eq_true, if_false, hfound, hflag, if_true,
    hsame]

/-- **Carrying out a declaration again leaves the application as it is.**  The knowledge base may
change: spellings are recorded each time. -/
lemma run_again {ctx : Context} {m m' : Model} {plan : Plan} (hs : m.app.registry.Sound)
    (h : d.run ctx m plan = .ok m') : ∃ m'', d.run ctx m' plan = .ok m'' ∧ m''.app = m'.app := by
  have hagain : ∀ {x : Except Failure App}, x = .ok m'.app →
      ∃ m'', (x >>= fun app => pure { m' with app }) = .ok m'' ∧ m''.app = m'.app :=
    fun hx => ⟨m', bind_eq_ok_iff.mpr ⟨_, hx, rfl⟩, rfl⟩
  cases plan with
  | alterations =>
      cases h
      exact ⟨_, rfl, rfl⟩
  | simple => exact hagain (registerPlain_again hs (by decide) (eq_ok_app h))
  | patternAny => exact hagain (registerPlain_again hs (by decide) (eq_ok_app h))
  | list given => exact hagain (declareList_again hs (eq_ok_app h))
  | composite => exact hagain (declareComposite_again hs (eq_ok_app h))
  | regex => exact hagain (declareRegex_again hs (eq_ok_app h))
  | prebuilt => exact hagain (declarePrebuilt_again hs (eq_ok_app h))
  | phraseList interchangeable => exact hagain (declarePhraseList_again (eq_ok_app h))

end Declaration

lemma NewEntity.apply_again {ctx : Context} {e : NewEntity} {m m' : Model}
    (hs : m.app.registry.Sound) (h : e.apply ctx m = .ok m') :
    ∃ m'', e.apply ctx m' = .ok m'' ∧ m''.app = m'.app := by
  obtain ⟨plan, hplan, h⟩ := bind_eq_ok_iff.mp h
  obtain ⟨m'', hrun, happ⟩ := Declaration.run_again hs h
  exact ⟨m'', bind_eq_ok_iff.mpr ⟨plan, hplan, hrun⟩, happ⟩

lemma LegacyEntity.apply_again {ctx : Context} {e : LegacyEntity} {m m' : Model}
    (hs : m.app.registry.Sound) (h : e.apply ctx m = .ok m') :
    ∃ m'', e.apply ctx m' = .ok m'' ∧ m''.app = m'.app := by
  obtain ⟨⟨d, plan⟩, hplan, h⟩ := bind_eq_ok_iff.mp h
  obtain ⟨m'', hrun, happ⟩ := Declaration.run_again hs h
  exact ⟨m'', bind_eq_ok_iff.mpr ⟨(d, plan), hplan, hrun⟩, happ⟩

end DialogModel
