import Mathlib.Data.List.Chain
import DialogModel.Proofs.Text.Chars
import DialogModel.Utterance.Printer
import DialogModel.Utterance.Reader

/-!
# Canonical utterances

Several texts may denote one utterance, since blanks in a head do not count and a backslash may or
may not be needed, and some trees are denoted by no text: two texts in a row, or an entity with a
brace in its name.  `AreCanonical` singles out the trees that a text can denote.

Heads are treated here, since all that makes them difficult happens between two braces: trimming,
the one `@` that is split off, and the colon.  A canonical head reads back from its written form
(`Head.read_written`), and a head that has been read is canonical (`Head.isCanonical_of_read`).
-/

namespace DialogModel.Utterance

open Chars

/-! ## The definition -/

/-- A name that can be written where the characters `stops` mean something else. -/
structure IsWritable (stops : List Char) (name : String) : Prop where
  ne_empty : name ≠ ""
  trimmed : Text.trim name = name
  free : ∀ c ∈ name.toList, c ∉ stops

-- `List.all` visits the characters of the name; a quantifier over characters would try them all.
instance (stops : List Char) (name : String) : Decidable (IsWritable stops name) :=
  decidable_of_iff (name ≠ "" ∧ Text.trim name = name ∧
      name.toList.all (fun c => decide (c ∉ stops)) = true)
    ⟨fun h => ⟨h.1, h.2.1, by simpa using h.2.2⟩,
      fun h => ⟨h.ne_empty, h.trimmed, by simpa using h.free⟩⟩

namespace Head

/-- The characters that end a role, or the head that it stands in. -/
def roleStops : List Char :=
  ['\x7b', '\x7d', '=']

/-- The characters that end the name of an entity in a head. -/
def entityStops : List Char :=
  ':' :: roleStops

/-- An entity that can stand in a head without `@`. -/
def IsPlainEntity (entity : String) : Prop :=
  IsWritable entityStops entity ∧ entity.toList.head? ≠ some '@'

instance (entity : String) : Decidable (IsPlainEntity entity) :=
  inferInstanceAs (Decidable (_ ∧ _))

/-- A head that a text can denote. -/
structure IsCanonical (h : Head) : Prop where
  entity : IsWritable entityStops h.entity
  no_at : h.viaAt = false → h.entity.toList.head? ≠ some '@'
  role : ∀ role ∈ h.role, IsWritable roleStops role

instance (h : Head) : Decidable h.IsCanonical :=
  decidable_of_iff (IsWritable entityStops h.entity ∧
      (h.viaAt = false → h.entity.toList.head? ≠ some '@') ∧
      ∀ role ∈ h.role, IsWritable roleStops role)
    ⟨fun h => ⟨h.1, h.2.1, h.2.2⟩, fun h => ⟨h.entity, h.no_at, h.role⟩⟩

end Head

/-- Whether a node is plain text. -/
def Node.isText : Node → Bool
  | .text _ => true
  | .placeholder _ | .labelled .. => false

mutual

/-- A node that a text can denote. -/
def Node.IsCanonical : Node → Prop
  | .text content => content ≠ ""
  | .placeholder head => head.IsCanonical
  | .labelled head value => head.IsCanonical ∧ AreCanonical value

/-- Nodes that a text can denote: no text is empty and no two texts stand side by side. -/
def AreCanonical : List Node → Prop
  | [] => True
  | node :: nodes =>
    node.IsCanonical ∧ (∀ next ∈ nodes.head?, node.isText → next.isText = false) ∧
      AreCanonical nodes

end

mutual

/-- Decides whether a node is canonical. -/
def Node.decIsCanonical : (node : Node) → Decidable node.IsCanonical
  | .text content => inferInstanceAs (Decidable (content ≠ ""))
  | .placeholder head => inferInstanceAs (Decidable head.IsCanonical)
  | .labelled head value =>
    have := decAreCanonical value
    inferInstanceAs (Decidable (head.IsCanonical ∧ AreCanonical value))

/-- Decides whether nodes are canonical. -/
def decAreCanonical : (nodes : List Node) → Decidable (AreCanonical nodes)
  | [] => isTrue trivial
  | node :: nodes =>
    have := node.decIsCanonical
    have := decAreCanonical nodes
    inferInstanceAs (Decidable (node.IsCanonical ∧
      (∀ next ∈ nodes.head?, node.isText → next.isText = false) ∧ AreCanonical nodes))

end

instance : DecidablePred AreCanonical :=
  decAreCanonical

/-! ## Lists of nodes -/

/-- Canonical nodes are those that are canonical one by one and in which no text follows a text. -/
lemma areCanonical_iff {nodes : List Node} :
    AreCanonical nodes ↔ (∀ node ∈ nodes, node.IsCanonical) ∧
      nodes.IsChain fun a b => a.isText → b.isText = false := by
  induction nodes with
  | nil => simp [AreCanonical]
  | cons node nodes ih =>
      rw [AreCanonical, ih, List.forall_mem_cons, List.isChain_cons]
      tauto

/-- A canonical node may follow canonical nodes, unless it is a text behind a text. -/
lemma AreCanonical.concat {nodes : List Node} {node : Node} (h : AreCanonical nodes)
    (hnode : node.IsCanonical)
    (hlast : ∀ last ∈ nodes.getLast?, last.isText → node.isText = false) :
    AreCanonical (nodes ++ [node]) := by
  rw [areCanonical_iff] at h ⊢
  refine ⟨List.forall_mem_append.mpr ⟨h.1, by simpa using hnode⟩, List.isChain_append.mpr ?_⟩
  refine ⟨h.2, List.isChain_singleton node, fun last hl next hn => ?_⟩
  obtain rfl : node = next := by simpa using hn
  exact hlast last hl

/-! ## Writable names -/

lemma isWritable_ofList_iff {stops cs : List Char} :
    IsWritable stops (String.ofList cs) ↔ cs ≠ [] ∧ trim cs = cs ∧ ∀ c ∈ cs, c ∉ stops := by
  constructor
  · intro h
    have htrim := congrArg String.toList h.trimmed
    exact ⟨by simpa using h.ne_empty, by simpa using htrim, by simpa using h.free⟩
  · rintro ⟨hne, htrim, hfree⟩
    refine ⟨by simpa using hne, ?_, by simpa using hfree⟩
    rw [Text.trim, String.toList_ofList, htrim]

namespace IsWritable

variable {stops : List Char} {name : String}

lemma toList_ne_nil (h : IsWritable stops name) : name.toList ≠ [] := by
  simpa using h.ne_empty

lemma trim_toList (h : IsWritable stops name) : trim name.toList = name.toList := by
  simpa using congrArg String.toList h.trimmed

lemma startsSolid (h : IsWritable stops name) : StartsSolid name.toList :=
  (trim_eq_self_iff.mp h.trim_toList).1

lemma endsSolid (h : IsWritable stops name) : EndsSolid name.toList :=
  (trim_eq_self_iff.mp h.trim_toList).2

end IsWritable

namespace Head

variable {h : Head}

/-! ## Writing a head -/

/-- The written form of a head without its `@`. -/
def named (h : Head) : List Char :=
  h.entity.toList ++
    match h.role with
    | some role => ':' :: role.toList
    | none => []

lemma written_eq (h : Head) : h.written = (if h.viaAt then ['@'] else []) ++ h.named :=
  List.append_assoc ..

lemma head?_named (hc : h.IsCanonical) : h.named.head? = h.entity.toList.head? := by
  rw [named, List.head?_append_of_ne_nil _ hc.entity.toList_ne_nil]

lemma startsSolid_named (hc : h.IsCanonical) : StartsSolid h.named := by
  intro c hmem
  rw [head?_named hc] at hmem
  exact hc.entity.startsSolid c hmem

lemma endsSolid_named (hc : h.IsCanonical) : EndsSolid h.named := by
  intro c hmem
  cases hrole : h.role with
  | none =>
      rw [named, hrole, List.append_nil] at hmem
      exact hc.entity.endsSolid c hmem
  | some role =>
      have hwritable := hc.role role hrole
      rw [named, hrole, List.getLast?_append_of_ne_nil _ (List.cons_ne_nil _ _),
        List.getLast?_cons_of_ne_nil hwritable.toList_ne_nil] at hmem
      exact hwritable.endsSolid c hmem

lemma named_ne_nil (hc : h.IsCanonical) : h.named ≠ [] := by
  simp [named, hc.entity.ne_empty]

lemma trim_named (hc : h.IsCanonical) : trim h.named = h.named :=
  trim_eq_self_iff.mpr ⟨startsSolid_named hc, endsSolid_named hc⟩

lemma trim_written (hc : h.IsCanonical) : trim h.written = h.written := by
  rw [written_eq]
  cases hat : h.viaAt with
  | false => simpa using trim_named hc
  | true =>
      refine trim_eq_self_iff.mpr ⟨?_, ?_⟩
      · intro c hmem
        obtain rfl : c = '@' := by simpa [eq_comm] using hmem
        decide
      · intro c hmem
        rw [List.getLast?_append_of_ne_nil _ (named_ne_nil hc)] at hmem
        exact endsSolid_named hc c hmem

/-- The written form of a canonical head ends where the brace or the `=` behind it stands. -/
lemma not_mem_roleStops_of_mem_written (hc : h.IsCanonical) {c : Char} (hmem : c ∈ h.written) :
    c ∉ roleStops := by
  have hentity : ∀ c ∈ h.entity.toList, c ∉ roleStops := fun c hmem hstop =>
    hc.entity.free c hmem (List.mem_cons_of_mem _ hstop)
  rw [written_eq, named, List.mem_append, List.mem_append] at hmem
  rcases hmem with hmem | hmem | hmem
  · have hat : c = '@' := by
      cases hv : h.viaAt <;> simp_all
    subst hat
    decide
  · exact hentity c hmem
  · cases hrole : h.role with
    | none => simp [hrole] at hmem
    | some role =>
        rw [hrole] at hmem
        rcases List.mem_cons.mp hmem with rfl | hmem
        · decide
        · exact (hc.role role hrole).free c hmem

/-! ## Reading a written head -/

lemma splitAt_of_head?_ne {cs : List Char} (hat : cs.head? ≠ some '@') :
    splitAt cs = (false, cs) := by
  unfold splitAt
  split
  · simp at hat
  · rfl

lemma splitAt_written (hc : h.IsCanonical) : splitAt h.written = (h.viaAt, h.named) := by
  rw [written_eq]
  cases hv : h.viaAt with
  | false =>
      have hat : h.named.head? ≠ some '@' := head?_named hc ▸ hc.no_at hv
      simpa using splitAt_of_head?_ne hat
  | true => simp [splitAt, trim_named hc]

lemma splitRole_named (hc : h.IsCanonical) :
    splitRole h.named = (h.entity.toList, h.role.map String.toList) := by
  have hcolon : ':' ∉ h.entity.toList := fun hmem =>
    hc.entity.free ':' hmem List.mem_cons_self
  cases hrole : h.role with
  | none =>
      have hcut : breakAt? ':' h.entity.toList = none := breakAt?_eq_none_iff.mpr hcolon
      simp [splitRole, named, hrole, hcut]
  | some role =>
      have hcut : breakAt? ':' h.named = some (h.entity.toList, role.toList) :=
        breakAt?_eq_some_iff.mpr ⟨by simp [named, hrole], hcolon⟩
      simp [splitRole, hcut, hc.entity.trim_toList, (hc.role role hrole).trim_toList]

/-- **A canonical head reads back from its written form.** -/
lemma read_written (hc : h.IsCanonical) : read h.written = .ok h := by
  have hentity : h.entity.toList.isEmpty = false := by simp [hc.entity.ne_empty]
  have hrole : h.role.map String.toList ≠ some [] := by
    intro hnil
    obtain ⟨role, hr, hempty⟩ := Option.map_eq_some_iff.mp hnil
    exact (hc.role role hr).toList_ne_nil hempty
  have hback : (h.role.map String.toList).map String.ofList = h.role := by
    cases h.role <;> simp
  simp [read, trim_written hc, splitAt_written hc, splitRole_named hc, hentity, hrole, hback]

/-! ## What has been read -/

/-- What stands behind the `@` of a trimmed head, or the head itself. -/
lemma splitAt_spec {cs rest : List Char} {viaAt : Bool} (htrim : trim cs = cs)
    (hsplit : splitAt cs = (viaAt, rest)) :
    trim rest = rest ∧ (∀ c ∈ rest, c ∈ cs) ∧ (viaAt = false → rest.head? ≠ some '@') := by
  unfold splitAt at hsplit
  split at hsplit
  · next behind =>
    obtain ⟨rfl, rfl⟩ := Prod.mk.inj hsplit
    exact ⟨trim_trim behind, fun c hmem => List.mem_cons_of_mem _ (mem_of_mem_trim hmem), by simp⟩
  · next hno =>
    obtain ⟨rfl, rfl⟩ := Prod.mk.inj hsplit
    refine ⟨htrim, fun _ hmem => hmem, fun _ hat => ?_⟩
    obtain ⟨tail, htail⟩ := List.head?_eq_some_iff.mp hat
    exact hno tail htail

/-- Trimming the front part of a trimmed text cuts off its end only. -/
lemma trim_isPrefix {cs before rest : List Char} (htrim : trim cs = cs)
    (hcs : cs = before ++ rest) : trim before <+: cs := by
  have hfront : before <+: cs := ⟨rest, hcs.symm⟩
  have hsolid : StartsSolid before := (trim_eq_self_iff.mp htrim).1.of_isPrefix hfront
  rw [trim_eq, dropWhile_eq_self_iff.mpr hsolid]
  exact (List.rdropWhile_prefix _ _).trans hfront

/-- The entity and the role of a trimmed head without its `@`. -/
lemma splitRole_spec {cs entity : List Char} {role : Option (List Char)} (htrim : trim cs = cs)
    (hsplit : splitRole cs = (entity, role)) :
    trim entity = entity ∧ entity <+: cs ∧ ':' ∉ entity ∧
      ∀ r ∈ role, trim r = r ∧ ∀ c ∈ r, c ∈ cs := by
  unfold splitRole at hsplit
  split at hsplit
  · next before rest hcut =>
    obtain ⟨rfl, rfl⟩ := Prod.mk.inj hsplit
    obtain ⟨hcs, hcolon⟩ := breakAt?_eq_some_iff.mp hcut
    refine ⟨trim_trim before, trim_isPrefix htrim hcs, fun hmem => hcolon (mem_of_mem_trim hmem),
      fun r hr => ?_⟩
    obtain rfl : trim rest = r := by simpa using hr
    refine ⟨trim_trim rest, fun c hmem => ?_⟩
    rw [hcs]
    exact List.mem_append_right _ (List.mem_cons_of_mem _ (mem_of_mem_trim hmem))
  · next hcut =>
    obtain ⟨rfl, rfl⟩ := Prod.mk.inj hsplit
    exact ⟨htrim, List.prefix_refl _, breakAt?_eq_none_iff.mp hcut, by simp⟩

/-- **A head that has been read is canonical.** -/
lemma isCanonical_of_read {cs : List Char} (hfree : ∀ c ∈ cs, c ∉ roleStops)
    (hread : read cs = .ok h) : h.IsCanonical := by
  unfold read at hread
  rcases hat : splitAt (trim cs) with ⟨viaAt, rest⟩
  rcases hrole : splitRole rest with ⟨entity, role⟩
  simp only [hat, hrole] at hread
  split_ifs at hread with hempty hnone
  cases hread
  obtain ⟨htrim, hsub, hno⟩ := splitAt_spec (trim_trim cs) hat
  obtain ⟨hentity, hfront, hcolon, hroles⟩ := splitRole_spec htrim hrole
  have hclear : ∀ c ∈ rest, c ∉ roleStops := fun c hmem =>
    hfree c (mem_of_mem_trim (hsub c hmem))
  have hne : entity ≠ [] := by simpa using hempty
  refine ⟨isWritable_ofList_iff.mpr ⟨hne, hentity, fun c hmem hstop => ?_⟩, fun hv => ?_,
    fun r hr => ?_⟩
  · rcases List.mem_cons.mp hstop with rfl | hstop
    · exact hcolon hmem
    · exact hclear c (hfront.subset hmem) hstop
  · -- The entity starts like the whole head, from which no `@` has been split off.
    obtain ⟨tail, rfl⟩ := hfront
    have hhead := hno hv
    rw [List.head?_append_of_ne_nil _ hne] at hhead
    simpa using hhead
  · obtain ⟨r', hr', rfl⟩ := Option.map_eq_some_iff.mp hr
    have hr'ne : r' ≠ [] := by
      rintro rfl
      exact hnone hr'
    exact isWritable_ofList_iff.mpr ⟨hr'ne, (hroles r' hr').1,
      fun c hmem => hclear c ((hroles r' hr').2 c hmem)⟩

end Head

end DialogModel.Utterance
