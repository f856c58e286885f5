import Mathlib.Data.List.Pairwise
import DialogModel.Proofs.Outcome
import DialogModel.Proofs.Registry.Consistency
import DialogModel.Proofs.RoleSet

/-!
# The order of declarations does not matter

The check of a declaration is not symmetric: whether a name is refused because it is a role, or a
role because it is a name, depends on which of two declarations comes first.  What is refused in the
end does not.  A list of declarations goes through exactly if any two of them agree
(`exists_declareAll_iff`), and agreement is symmetric; and what a registry shows of the declarations
that went through is said by membership in the list (`Shows`), so that a permutation shows the same.

The check reads the owners of roles and agreement reads the declarations.  `Shows.admits_iff` ties
the two together, and it needs the registry to be sound: an owner that no record backs would refuse
declarations that agree with all others.
-/

namespace DialogModel

open Entity

namespace Registry

/-! ## Declarations that agree -/

/-- What the registry is told about an entity. -/
structure Entry where
  kind : Kind
  name : String
  roles : RoleSet := ∅
  deriving DecidableEq

/-- Declares entities one after another, up to the first violation. -/
def declareAll (reg : Registry) (entries : List Entry) : Except Violation Registry :=
  entries.foldlM (fun reg e => reg.declare e.kind e.name e.roles) reg

/-- Two declarations agree: those of one name have one kind, and those of two names have no role in
common and neither name is a role of the other. -/
structure Entry.Agrees (a b : Entry) : Prop where
  same_kind : a.name = b.name → a.kind = b.kind
  left_not_role : a.name ≠ b.name → a.name ∉ b.roles
  right_not_role : a.name ≠ b.name → b.name ∉ a.roles
  roles_disjoint : a.name ≠ b.name → ∀ role ∈ a.roles, role ∉ b.roles

lemma Entry.Agrees.symm {a b : Entry} (h : a.Agrees b) : b.Agrees a where
  same_kind heq := (h.same_kind heq.symm).symm
  left_not_role hne := h.right_not_role hne.symm
  right_not_role hne := h.left_not_role hne.symm
  roles_disjoint hne role hb ha := h.roles_disjoint hne.symm role ha hb

/-! ## What a registry shows of the declarations -/

/-- The kinds and the roles that a registry shows are those that were declared. -/
structure Shows (reg : Registry) (entries : List Entry) : Prop where
  sound : reg.Sound
  kind_iff : ∀ {name kind}, reg.kindOf? name = some kind ↔
    ∃ e ∈ entries, e.name = name ∧ e.kind = kind
  owner_iff : ∀ {role owner}, reg.ownerOf? role = some owner ↔
    ∃ e ∈ entries, e.name = owner ∧ role ∈ e.roles

variable {reg reg' : Registry} {entries : List Entry}

lemma get?_eq_none_iff {name : String} : reg.get? name = none ↔ reg.kindOf? name = none := by
  rw [kindOf?, Option.map_eq_none_iff]

lemma shows_empty : ({} : Registry).Shows [] where
  sound := sound_empty
  kind_iff := by simp [kindOf?, get?]
  owner_iff := by simp [ownerOf?]

namespace Shows

/-- A name without a declaration has no record. -/
lemma get?_eq_none (h : reg.Shows entries) {name : String} :
    reg.get? name = none ↔ ∀ e ∈ entries, e.name ≠ name := by
  rw [get?_eq_none_iff, Option.eq_none_iff_forall_ne_some]
  constructor
  · intro hnone e he heq
    exact hnone e.kind (h.kind_iff.mpr ⟨e, he, heq, rfl⟩)
  · intro hnames kind hkind
    obtain ⟨e, he, heq, -⟩ := h.kind_iff.mp hkind
    exact hnames e he heq

/-- A registry admits a declaration exactly if it agrees with all that the registry shows. -/
lemma admits_iff (h : reg.Shows entries) {e : Entry} :
    reg.Admits e.kind e.name e.roles ↔ ∀ a ∈ entries, a.Agrees e := by
  constructor
  · intro hadm a ha
    refine ⟨fun heq => ?_, fun hne hrole => ?_, fun hne hrole => ?_, fun hne role hra hre => ?_⟩
    · obtain ⟨r, hget, hkind⟩ := Option.map_eq_some_iff.mp (h.kind_iff.mpr ⟨a, ha, rfl, rfl⟩)
      rw [heq] at hget
      rw [← hkind, hadm.same_kind r hget]
    · have hnone := hadm.role_not_name a.name hrole hne
      exact h.get?_eq_none.mp hnone a ha rfl
    · exact hne (hadm.name_free a.name (h.owner_iff.mpr ⟨a, ha, rfl, hrole⟩))
    · exact hne (hadm.role_free role hre a.name (h.owner_iff.mpr ⟨a, ha, rfl, hra⟩))
  · intro hagrees
    -- Whoever owns the name or a role of the declaration has declared it, and agrees with it.
    have howner : ∀ {role owner}, reg.ownerOf? role = some owner → owner ≠ e.name →
        role ≠ e.name ∧ role ∉ e.roles := by
      intro role owner hown hne
      obtain ⟨a, ha, rfl, hrole⟩ := h.owner_iff.mp hown
      refine ⟨?_, (hagrees a ha).roles_disjoint hne role hrole⟩
      rintro rfl
      exact (hagrees a ha).right_not_role hne hrole
    refine ⟨fun r hget => ?_, fun owner hown => ?_, fun role hrole hne => ?_,
      fun role hrole owner hown => ?_⟩
    · have hkind : reg.kindOf? e.name = some r.kind := by rw [kindOf?, hget]; rfl
      obtain ⟨a, ha, hname, hk⟩ := h.kind_iff.mp hkind
      rw [← hk, (hagrees a ha).same_kind hname]
    · by_contra hne
      exact (howner hown hne).1 rfl
    · refine h.get?_eq_none.mpr fun a ha hname => ?_
      subst hname
      exact (hagrees a ha).left_not_role hne hrole
    · by_contra hne
      exact (howner hown hne).2 hrole

/-- After a declaration the registry shows it besides the others. -/
lemma declared (h : reg.Shows entries) {e : Entry} (hkind : e.kind ≠ .phraseList)
    (hadm : reg.Admits e.kind e.name e.roles) :
    (reg.declared e.kind e.name e.roles).Shows (entries ++ [e]) where
  sound := h.sound.declared hkind hadm
  kind_iff {name kind} := by
    simp only [List.mem_append, List.mem_singleton, or_and_right, exists_or, exists_eq_left,
      ← h.kind_iff, kindOf?, get?_declared]
    by_cases hname : e.name = name
    · subst hname
      -- What was shown of the name before has the kind that is declared now.
      have hold : (reg.get? e.name).map Record.kind = some kind → e.kind = kind := by
        intro hmap
        obtain ⟨r, hget, rfl⟩ := Option.map_eq_some_iff.mp hmap
        exact (hadm.same_kind r hget).symm
      simp only [if_true, Option.map_some, Record.kind_addRoles,
        hadm.kind_getOrNew, Option.some.injEq, true_and]
      tauto
    · simp [hname]
  owner_iff {role owner} := by
    simp only [List.mem_append, List.mem_singleton, or_and_right, exists_or, exists_eq_left,
      ← h.owner_iff, ownerOf?_declared]
    by_cases hrole : role ∈ e.roles
    · have hold : reg.ownerOf? role = some owner → e.name = owner :=
        fun hown => (hadm.role_free role hrole owner hown).symm
      simp only [hrole, if_true, Option.some.injEq, and_true]
      tauto
    · simp [hrole]

end Shows

/-! ## Runs of declarations -/

lemma declareAll_cons_eq_ok_iff {e : Entry} :
    reg.declareAll (e :: entries) = .ok reg' ↔
      reg.Admits e.kind e.name e.roles ∧
        (reg.declared e.kind e.name e.roles).declareAll entries = .ok reg' := by
  unfold declareAll
  simp only [List.foldlM_cons, bind_eq_ok_iff, declare_eq_ok_iff, and_assoc, exists_and_left,
    exists_eq_left]

/-- After a run the registry shows the declarations of the run besides the others. -/
lemma Shows.declareAll {done : List Entry} (h : reg.Shows done)
    (hkinds : ∀ e ∈ entries, e.kind ≠ .phraseList) (hrun : reg.declareAll entries = .ok reg') :
    reg'.Shows (done ++ entries) := by
  induction entries generalizing reg done with
  | nil =>
      cases hrun
      simpa using h
  | cons e entries ih =>
      obtain ⟨hkind, hkinds⟩ := List.forall_mem_cons.mp hkinds
      obtain ⟨hadm, hrun⟩ := declareAll_cons_eq_ok_iff.mp hrun
      simpa using ih (h.declared hkind hadm) hkinds hrun

/-- A run goes through exactly if its declarations agree with each other and with those before. -/
lemma Shows.exists_declareAll_iff {done : List Entry} (h : reg.Shows done)
    (hkinds : ∀ e ∈ entries, e.kind ≠ .phraseList) :
    (∃ reg', reg.declareAll entries = .ok reg') ↔
      entries.Pairwise Entry.Agrees ∧ ∀ a ∈ done, ∀ e ∈ entries, a.Agrees e := by
  induction entries generalizing reg done with
  | nil => exact ⟨fun _ => ⟨.nil, by simp⟩, fun _ => ⟨reg, rfl⟩⟩
  | cons e entries ih =>
      obtain ⟨hkind, hkinds⟩ := List.forall_mem_cons.mp hkinds
      simp only [declareAll_cons_eq_ok_iff, exists_and_left, List.pairwise_cons,
        List.forall_mem_cons, forall_and]
      constructor
      · rintro ⟨hadm, hrun⟩
        obtain ⟨hpairs, hdone⟩ := (ih (h.declared hkind hadm) hkinds).mp hrun
        rw [List.forall_mem_append, List.forall_mem_singleton] at hdone
        exact ⟨⟨hdone.2, hpairs⟩, h.admits_iff.mp hadm, hdone.1⟩
      · rintro ⟨⟨hfirst, hpairs⟩, hadm, hdone⟩
        have hadm' := h.admits_iff.mpr hadm
        refine ⟨hadm', (ih (h.declared hkind hadm') hkinds).mpr ⟨hpairs, ?_⟩⟩
        rw [List.forall_mem_append, List.forall_mem_singleton]
        exact ⟨hdone, hfirst⟩

/-- Declarations go through exactly if any two of them agree. -/
lemma exists_declareAll_iff (hkinds : ∀ e ∈ entries, e.kind ≠ .phraseList) :
    (∃ reg, declareAll {} entries = .ok reg) ↔ entries.Pairwise Entry.Agrees := by
  rw [shows_empty.exists_declareAll_iff hkinds]
  simp

/-! ## Permutations -/

/-- Two registries hold the same entities, each of the same kind and with the same set of roles, and
every role has the same owner.  Their order does not count. -/
structure SameEntities (reg reg' : Registry) : Prop where
  names : ∀ name, name ∈ reg.entities.keys ↔ name ∈ reg'.entities.keys
  kinds : ∀ name, reg.kindOf? name = reg'.kindOf? name
  roles : ∀ name r r', reg.get? name = some r → reg'.get? name = some r' →
    r.roles.same r'.roles = true
  owners : ∀ role, reg.ownerOf? role = reg'.ownerOf? role

lemma mem_keys_iff {name : String} : name ∈ reg.entities.keys ↔ reg.kindOf? name ≠ none := by
  rw [Ne, ← get?_eq_none_iff, Option.eq_none_iff_forall_ne_some, not_forall]
  simp only [OrderedMap.keys, List.mem_map, Prod.exists, OrderedMap.mem_toList_iff, not_not]
  constructor
  · rintro ⟨key, r, hget, rfl⟩
    exact ⟨r, hget⟩
  · rintro ⟨r, hget⟩
    exact ⟨name, r, hget, rfl⟩

/-- Registries that show the same declarations, in whatever order, hold the same entities. -/
lemma Shows.sameEntities {entries' : List Entry} (h : reg.Shows entries)
    (h' : reg'.Shows entries') (hmem : ∀ e, e ∈ entries ↔ e ∈ entries') :
    reg.SameEntities reg' := by
  have hkinds : ∀ name, reg.kindOf? name = reg'.kindOf? name := by
    intro name
    ext kind
    rw [h.kind_iff, h'.kind_iff]
    simp only [hmem]
  have howners : ∀ role, reg.ownerOf? role = reg'.ownerOf? role := by
    intro role
    ext owner
    rw [h.owner_iff, h'.owner_iff]
    simp only [hmem]
  refine ⟨fun name => by rw [mem_keys_iff, mem_keys_iff, hkinds], hkinds,
    fun name r r' hget hget' => RoleSet.same_iff.mpr fun role => ?_, howners⟩
  -- A record has the roles that its name owns, and those are the same.
  have hrole : role ∈ r.roles ↔ reg.ownerOf? role = some name := by
    rw [h.sound.owner_iff, hget]
    simp
  have hrole' : role ∈ r'.roles ↔ reg'.ownerOf? role = some name := by
    rw [h'.sound.owner_iff, hget']
    simp
  rw [hrole, hrole', howners]

/-- **The order of declarations does not matter.**  Of two orders of the same declarations either
both go through or none, and if they do the registries hold the same entities. -/
theorem declareAll_perm (entries entries' : List Entry) (hperm : entries.Perm entries')
    (hkinds : ∀ e ∈ entries, e.kind ≠ .phraseList) :
    ((∃ reg, declareAll {} entries = .ok reg) ↔ ∃ reg, declareAll {} entries' = .ok reg) ∧
      ∀ reg reg', declareAll {} entries = .ok reg → declareAll {} entries' = .ok reg' →
        reg.SameEntities reg' := by
  have hkinds' : ∀ e ∈ entries', e.kind ≠ .phraseList :=
    fun e he => hkinds e (hperm.mem_iff.mpr he)
  constructor
  · rw [exists_declareAll_iff hkinds, exists_declareAll_iff hkinds']
    exact hperm.pairwise_iff fun h => h.symm
  · intro reg reg' hrun hrun'
    have hshows := shows_empty.declareAll hkinds hrun
    have hshows' := shows_empty.declareAll hkinds' hrun'
    exact hshows.sameEntities hshows' fun e => hperm.mem_iff

/-- The order decides what is reported of two declarations that do not agree. -/
example :
    declareAll {} [⟨.simple, "city", .ofList ["to"]⟩, ⟨.simple, "to", ∅⟩] =
        .error (.nameIsRole "to" "city") ∧
      declareAll {} [⟨.simple, "to", ∅⟩, ⟨.simple, "city", .ofList ["to"]⟩] =
        .error (.roleIsName "to" "city") :=
  ⟨rfl, rfl⟩

/-- An entity that is declared twice and is a role of itself, and another. -/
def travelEntries : List Entry :=
  [⟨.simple, "city", .ofList ["city", "to"]⟩, ⟨.list, "size", .ofList ["big"]⟩,
    ⟨.simple, "city", .ofList ["from", "to"]⟩]

theorem declareAll_perm_travelEntries :
    ∃ reg reg', declareAll {} travelEntries = .ok reg ∧
      declareAll {} travelEntries.reverse = .ok reg' ∧
      (reg.get? "city").map (·.roles.toList) = some ["city", "to", "from"] ∧
      (reg'.get? "city").map (·.roles.toList) = some ["from", "to", "city"] ∧
      reg.SameEntities reg' := by
  have hperm : travelEntries.Perm travelEntries.reverse := (List.reverse_perm _).symm
  have hkinds : ∀ e ∈ travelEntries, e.kind ≠ .phraseList := by decide
  have hrun : (declareAll {} travelEntries).toOption.map
      (fun reg => (reg.get? "city").map (·.roles.toList)) =
        some (some ["city", "to", "from"]) := by decide +kernel
  have hrun' : (declareAll {} travelEntries.reverse).toOption.map
      (fun reg => (reg.get? "city").map (·.roles.toList)) =
        some (some ["from", "to", "city"]) := by decide +kernel
  obtain ⟨reg, hreg, hroles⟩ := exists_ok_of_map_toOption hrun
  obtain ⟨reg', hreg', hroles'⟩ := exists_ok_of_map_toOption hrun'
  exact ⟨reg, reg', hreg, hreg', hroles, hroles',
    (declareAll_perm _ _ hperm hkinds).2 reg reg' hreg hreg'⟩

end Registry

end DialogModel
