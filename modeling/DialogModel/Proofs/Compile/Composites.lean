import DialogModel.Proofs.App.Growth
import DialogModel.Proofs.Compile.Registry
import DialogModel.Proofs.Registry.Contents
import DialogModel.Proofs.Registry.Order

/-!
# Composites that are declared again

The children of a composite are fixed by the first declaration that lists some, and a later one has
to list the same.  `sameMembers` compares how many children there are and looks in one direction
only, so that it is a comparison of sets as long as neither side repeats a child.  What a
declaration lists is collected without repetition; what the registry holds has been listed by a
declaration, and `Reached.children_nodup` carries this through a compilation.
-/

namespace DialogModel

open Entity Declaration

/-! ## The children of a declaration -/

namespace Declaration

variable {d : Declaration}

/-- A declaration lists a child: it is what brackets and blanks leave of a part between commas, of
the text on the line of the declaration or of a line below. -/
def Lists (d : Declaration) (child : String) : Prop :=
  child ≠ "" ∧ ∃ text ∈ d.inline.toList ++ d.lines.map BodyLine.text,
    ∃ part ∈ text.toList.splitOn ',',
      child = String.ofList (Chars.stripWhere isChildPadding part)

/-- Items are trimmed and dropped if empty before they are stripped.  This makes no difference to the
children: blanks are stripped anyway, and a part of blanks lists none. -/
lemma exists_item_iff {text child : String} (hne : child ≠ "") :
    (∃ item ∈ Text.items text,
        String.ofList (Chars.stripWhere isChildPadding item.toList) = child) ↔
      ∃ part ∈ text.toList.splitOn ',',
        child = String.ofList (Chars.stripWhere isChildPadding part) := by
  have hstrip := Chars.stripWhere_trim isChildPadding_of_isBlank
  constructor
  · rintro ⟨item, hitem, rfl⟩
    obtain ⟨cs, hcs, rfl⟩ := List.mem_map.mp hitem
    obtain ⟨part, hpart, rfl⟩ := List.mem_map.mp (List.mem_of_mem_filter hcs)
    exact ⟨part, hpart, by rw [String.toList_ofList, hstrip]⟩
  · rintro ⟨part, hpart, rfl⟩
    have hsolid : Chars.trim part ≠ [] := by
      intro hnil
      rw [← hstrip, hnil] at hne
      exact hne rfl
    have hitem : Chars.trim part ∈ Chars.items text.toList :=
      List.mem_filter.mpr ⟨List.mem_map_of_mem hpart, by simpa using hsolid⟩
    exact ⟨_, List.mem_map_of_mem hitem, by rw [String.toList_ofList, hstrip]⟩

lemma mem_children_iff {child : String} : child ∈ d.children ↔ d.Lists child := by
  unfold children Lists items
  have hempty : (!child.isEmpty) = true ↔ child ≠ "" := by simp
  rw [FirstSeen.mem_ofList, List.mem_filter, List.map_flatMap, List.mem_flatMap, hempty, and_comm]
  refine and_congr_right fun hne => exists_congr fun text => and_congr_right fun _ => ?_
  rw [List.mem_map, exists_item_iff hne]

lemma nodup_children (d : Declaration) : d.children.Nodup :=
  FirstSeen.nodup_ofList _

/-- Lists without repetition are compared as sets. -/
lemma sameMembers_iff {a b : List String} (ha : a.Nodup) (hb : b.Nodup) :
    sameMembers a b = true ↔ ∀ x, x ∈ a ↔ x ∈ b := by
  have hsplit : sameMembers a b = true ↔ a.length = b.length ∧ a ⊆ b := by
    simp only [sameMembers, Bool.and_eq_true, beq_iff_eq, List.all_eq_true, decide_eq_true_eq]
    rfl
  rw [hsplit, FirstSeen.length_eq_and_subset_iff ha hb]

end Declaration

/-! ## Children without repetition -/

namespace Registry

/-- No composite of the registry repeats a child. -/
def ChildrenNodup (reg : Registry) : Prop :=
  reg.DetailsHave fun _ detail => detail.children.Nodup

lemma lasting_childrenNodup : Lasting ChildrenNodup where
  declared kind _ roles h := h.declared (by cases kind <;> exact List.nodup_nil) roles
  erase _ _ h := h.erase _

end Registry

/-- A composite without children takes those of the declaration and one with children keeps them. -/
lemma Declaration.keeps_childrenNodup (d : Declaration) (plan : Plan) :
    d.Keeps Registry.ChildrenNodup plan where
  completed hf h := by
    refine h.updateDetail fun detail hdetail => ?_
    cases hf with
    | sublists _ => cases detail <;> exact hdetail
    | children =>
        cases detail with
        | composite existing =>
            unfold setChildren
            cases existing with
            | nil => exact d.nodup_children
            | cons _ _ => exact hdetail
        | _ => exact hdetail
    | pattern _ => cases detail <;> exact hdetail
  phrases _ h := h

/-! ## One declaration -/

/-- A sound registry admits free roles for an entity that it has. -/
lemma Registry.Sound.admits_of_roleFree {reg : Registry} (hs : reg.Sound) {name : String}
    {r : Record} (hget : reg.get? name = some r) {roles : RoleSet}
    (hroles : ∀ role ∈ roles, RoleFree reg.records name role) : reg.Admits r.kind name roles := by
  have hself : reg.Admits r.kind name ∅ :=
    hs.admits_of_has ⟨r, hget, rfl, fun role hrole => absurd hrole (RoleSet.not_mem_empty role)⟩
  have hfree (role : String) (hrole : role ∈ roles) :=
    roleViolation?_eq_none_iff.mp (hs.roleFree_iff.mpr (hroles role hrole))
  exact ⟨hself.same_kind, hself.name_free, fun role hrole => (hfree role hrole).1,
    fun role hrole => (hfree role hrole).2⟩

namespace Declaration

variable {d : Declaration} {app : App} {r : Record}

/-- Registering an entity that exists adds the roles of the declaration to it. -/
lemma register_of_get? (hs : app.registry.Sound) (hget : app.registry.get? d.name = some r)
    (hroles : ∀ role ∈ d.roles, Registry.RoleFree app.registry.records d.name role) :
    d.register app r.kind =
      .ok { app with registry := app.registry.declared r.kind d.name d.roles } := by
  have htake : d.takeOver app r.kind = .ok (∅, app) := by
    simp only [takeOver, hget, if_true]
  refine bind_eq_ok_iff.mpr ⟨_, htake, bind_eq_ok_iff.mpr ⟨_, ?_, rfl⟩⟩
  rw [RoleSet.empty_union, Provenance.locate_eq_ok_iff, Registry.declare_eq_ok_iff]
  exact ⟨hs.admits_of_roleFree hget hroles, rfl⟩

/-- A composite that has children is declared again with children and free roles: it gets the roles
if the children are those that it has. -/
lemma declareComposite_of_get? (hs : app.registry.Sound)
    (hget : app.registry.get? d.name = some r) {existing : List String}
    (hdetail : r.detail = .composite existing) (hexisting : existing ≠ [])
    (hchildren : d.children ≠ [])
    (hroles : ∀ role ∈ d.roles, Registry.RoleFree app.registry.records d.name role) :
    d.declareComposite app =
      if sameMembers existing d.children then
        .ok { app with
          registry := (app.registry.declared .composite d.name d.roles).updateDetail d.name
            (setChildren d.children) }
      else .error (d.fail (.changedChildren d.name existing d.children)) := by
  have hfault : d.childrenFault? app =
      if sameMembers existing d.children then none
      else some (.changedChildren d.name existing d.children) := by
    simp [childrenFault?, hget, hdetail, hexisting, hchildren]
  have hkind : r.kind = .composite := by rw [Record.kind, hdetail]; rfl
  have hregister := register_of_get? hs hget hroles
  rw [hkind] at hregister
  rw [declareComposite, hfault]
  split_ifs
  · simp only [hregister]
    rfl
  · rfl

/-- What such a declaration leaves of the composite. -/
lemma get?_redeclared {reg : Registry} {name : String} (hget : reg.get? name = some r)
    {existing : List String} (hdetail : r.detail = .composite existing) (hexisting : existing ≠ [])
    (roles : RoleSet) (new : List String) :
    ((reg.declared .composite name roles).updateDetail name (setChildren new)).get? name =
      some { r with roles := r.roles.union roles } := by
  have hadd : r.addRoles roles = { r with roles := r.roles.union roles } := by
    simp only [Record.addRoles, hdetail]
  have hset : setChildren new r.detail = r.detail := by
    simp [hdetail, setChildren, hexisting]
  rw [Registry.get?_updateDetail, if_pos rfl, Registry.get?_declared, if_pos rfl,
    Registry.getOrNew, hget, Option.getD_some, hadd, Option.map_some]
  simp only [hset]

end Declaration

/-! ## The run -/

namespace Compile

open Registry

variable {options : Options} {probe : Probe} {sections : List Section}

lemma Reached.children_nodup {p : Progress} (h : Reached options probe sections p) :
    p.model.app.registry.ChildrenNodup :=
  h.induction (motive := fun m => m.app.registry.ChildrenNodup) (fun _ _ hget => nomatch hget)
    fun _ _ _ _ hm happly =>
      Section.apply_keeps lasting_childrenNodup (fun d plan _ => d.keeps_childrenNodup plan)
        happly hm

/-- **A composite is declared again by the set of its children.**  A section that declares a
composite of the registry, with children and with roles that are free, succeeds exactly if the
children that it lists are those of the composite, in whatever order, however often and however they
are bracketed and split over lines.  Then the composite keeps its children and gets the roles;
otherwise the section is refused as an invalid composite. -/
theorem composite_redeclared (file source : String) (options : Options) (probe : Probe)
    (p : Progress) (hp : Reached options probe (Document.read file source).sections p)
    (s : Section) (d : Declaration) (hd : s.Declares d .composite) (r : Record)
    (children : List String) (hget : p.model.app.registry.get? d.name = some r)
    (hdetail : r.detail = .composite children) (hchildren : children ≠ [])
    (hlists : ∃ child, d.Lists child)
    (hroles : ∀ role ∈ d.roles, RoleFree p.model.app.registry.records d.name role)
    (ctx : Context) :
    ((∃ m, s.apply ctx p.model = .ok m) ↔ ∀ child, d.Lists child ↔ child ∈ children) ∧
      (∀ m, s.apply ctx p.model = .ok m → ∃ r', m.app.registry.get? d.name = some r' ∧
        r'.detail = .composite children ∧ r'.roles = r.roles.union d.roles) ∧
      ((¬ ∀ child, d.Lists child ↔ child ∈ children) →
        ∃ e, s.apply ctx p.model = .error e ∧ e.code = .invalidCompositeEntity) := by
  have hne : d.children ≠ [] := by
    obtain ⟨child, hchild⟩ := hlists
    exact List.ne_nil_of_mem (mem_children_iff.mpr hchild)
  have hnodup : children.Nodup := by
    have hr := hp.children_nodup d.name r hget
    rwa [hdetail] at hr
  have hsame : sameMembers children d.children = true ↔
      ∀ child, d.Lists child ↔ child ∈ children := by
    rw [sameMembers_iff hnodup d.nodup_children]
    simp only [mem_children_iff, iff_comm]
  have hrun := declareComposite_of_get? hp.sound hget hdetail hchildren hne hroles
  rw [Section.apply_of_declares hd, ← hsame, Declaration.run, hrun]
  cases sameMembers children d.children with
  | true =>
      refine ⟨iff_of_true ⟨_, rfl⟩ rfl, fun m hm => ?_, fun h => absurd rfl h⟩
      cases hm
      exact ⟨_, get?_redeclared hget hdetail hchildren _ _, hdetail, rfl⟩
  | false =>
      refine ⟨iff_of_false ?_ nofun, ?_, fun _ => ⟨_, rfl, rfl⟩⟩
      · rintro ⟨m, hm⟩
        cases hm
      · intro m hm
        cases hm

/-- A source with a composite and another entity, both with a role. -/
def composedSource : String :=
  "@ simple city hasRoles from\n@ composite trip hasRoles out = [city, date]\n"

/-- A declaration of the composite with the same children, in another order and over two lines, one
of them twice. -/
def sameTrip : NewEntity where
  type := "composite"
  name := "trip"
  roles := ["back", "out"]
  definition := some { inline := "[date]", lines := [⟨"[ city ,, date", default⟩] }
  prov := default

/-- A declaration of the composite with as many children, of which one is another. -/
def otherTrip : NewEntity where
  type := "composite"
  name := "trip"
  definition := some { inline := "[city, time]" }
  prov := default

theorem composite_redeclared_composedSource :
    ∃ c r, compile "travel" composedSource {} Probe.offline = .ok c ∧
      c.model.app.registry.get? "trip" = some r ∧ r.detail = .composite ["city", "date"] ∧
      (∀ ctx, ∃ m r', (Section.newEntity sameTrip).apply ctx c.model = .ok m ∧
        m.app.registry.get? "trip" = some r' ∧ r'.detail = .composite ["city", "date"] ∧
        r'.roles = r.roles.union (.ofList ["back", "out"])) ∧
      ∀ ctx, ∃ e, (Section.newEntity otherTrip).apply ctx c.model = .error e ∧
        e.code = .invalidCompositeEntity := by
  have hrun : (compile "travel" composedSource {} Probe.offline).toOption.map (fun c =>
        ((c.model.app.registry.get? "trip").map Record.detail,
          ["back", "out"].map (c.model.app.registry.roleViolation? "trip"))) =
      some (some (.composite ["city", "date"]), [none, none]) := by decide +kernel
  obtain ⟨c, hc, hfound⟩ := exists_ok_of_map_toOption hrun
  obtain ⟨hdetail, hfree⟩ := Prod.mk.inj hfound
  obtain ⟨r, hget, hdetail⟩ := Option.map_eq_some_iff.mp hdetail
  obtain ⟨ctx₀, hreached⟩ := reached_of_compile hc
  have hsame : sameTrip.declaration.children = ["date", "city"] := by decide +kernel
  have hother : otherTrip.declaration.children = ["city", "time"] := by decide +kernel
  refine ⟨c, r, hc, hget, hdetail, fun ctx => ?_, fun ctx => ?_⟩
  · have hroles : ∀ role ∈ sameTrip.declaration.roles,
        RoleFree c.model.app.registry.records "trip" role := by
      intro role hrole
      rw [← hreached.sound.roleFree_iff]
      have hall : ∀ q ∈ ["back", "out"], c.model.app.registry.roleViolation? "trip" q = none := by
        simpa using hfree
      exact hall role (RoleSet.mem_ofList.mp hrole)
    obtain ⟨hiff, hstored, -⟩ := composite_redeclared _ _ _ _ _ hreached (.newEntity sameTrip)
      sameTrip.declaration (.newEntity rfl) r _ hget hdetail (by simp)
      ⟨"city", mem_children_iff.mp (by simp [hsame])⟩ hroles ctx
    obtain ⟨m, hm⟩ := hiff.mpr fun child => by
      rw [← mem_children_iff, hsame]
      simp [or_comm]
    obtain ⟨r', hr'⟩ := hstored m hm
    exact ⟨m, r', hm, hr'⟩
  · refine (composite_redeclared _ _ _ _ _ hreached (.newEntity otherTrip)
      otherTrip.declaration (.newEntity rfl) r _ hget hdetail (by simp)
      ⟨"city", mem_children_iff.mp (by simp [hother])⟩ ?_ ctx).2.2 ?_
    · intro role hrole
      cases RoleSet.mem_ofList.mp hrole
    · intro h
      have hdate := (h "date").mpr (by simp)
      rw [← mem_children_iff, hother] at hdate
      simp at hdate

end Compile

end DialogModel
