import DialogModel.Proofs.Outcome
import DialogModel.Proofs.Text.Chars
import DialogModel.Proofs.Utterance.Canonical
import DialogModel.Proofs.Utterance.Spans

/-!
# Utterances that are not blank

The reader drops no character that is not blank: it ends up in a text or in a label, and a backslash
stands for itself where it escapes nothing.  So a text that is not blank denotes an utterance with a
label or with a text that is not blank (`exists_isSolid_of_readChars`), and an utterance without
labels has an empty flat text only if nothing at all was written (`nodes_eq_nil_of_readChars`).
-/

namespace DialogModel.Utterance

open Chars

/-- A node that shows something: a label, or a text that is not blank. -/
def Node.IsSolid : Node → Prop
  | .text content => ∃ c ∈ content.toList, isBlank c = false
  | .placeholder _ | .labelled .. => True

/-! ## Reading -/

namespace State

/-- What has been read shows something, or is about to. -/
def IsSolid (s : State) : Prop :=
  s.enclosing ≠ [] ∨ (∃ n ∈ s.nodes, n.IsSolid) ∨
    match s.mode with
    | .text buffer => ∃ c ∈ buffer, isBlank c = false
    | .escape _ | .head _ => True

variable {s s' : State} {buffer : List Char} {c : Char}

lemma exists_isSolid_flush {nodes : List Node}
    (h : (∃ n ∈ nodes, n.IsSolid) ∨ ∃ c ∈ buffer, isBlank c = false) :
    ∃ n ∈ flush nodes buffer, n.IsSolid := by
  unfold flush
  split_ifs with hempty
  · rcases h with h | ⟨c, hc, -⟩
    · exact h
    · rw [List.isEmpty_iff.mp hempty] at hc
      cases hc
  · rcases h with ⟨n, hn, hsolid⟩ | h
    · exact ⟨n, List.mem_append_left _ hn, hsolid⟩
    · exact ⟨_, List.mem_append_right _ List.mem_cons_self, by simpa [Node.IsSolid] using h⟩

lemma isSolid_stepText (h : s.stepText buffer c = .ok s')
    (hsolid : s.enclosing ≠ [] ∨ (∃ n ∈ s.nodes, n.IsSolid) ∨
      ∃ d ∈ buffer ++ [c], isBlank d = false) : s'.IsSolid := by
  unfold stepText at h
  split_ifs at h
  · cases h
    exact .inr (.inr trivial)
  · cases h
    exact .inr (.inr trivial)
  · split at h
    · cases h
    · obtain ⟨head, -, h⟩ := bind_eq_ok_iff.mp h
      cases h
      exact .inr (.inl ⟨_, List.mem_append_right _ List.mem_cons_self, trivial⟩)
  · cases h
    exact hsolid

lemma isSolid_stepHead {head : List Char} (h : s.stepHead head c = .ok s') : s'.IsSolid := by
  unfold stepHead at h
  split_ifs at h
  · cases h
    exact .inl (List.cons_ne_nil _ _)
  · obtain ⟨hd, -, h⟩ := bind_eq_ok_iff.mp h
    cases h
    exact .inr (.inl ⟨_, List.mem_append_right _ List.mem_cons_self, trivial⟩)
  · cases h
    exact .inr (.inr trivial)

lemma isBlank_of_isEscapable (h : isEscapable c) : isBlank c = false := by
  simp only [isEscapable, Bool.or_eq_true, beq_iff_eq] at h
  rcases h with (rfl | rfl) | rfl <;> decide

/-- A character that is not blank shows, and what shows is never dropped. -/
lemma IsSolid.step (hsolid : s.IsSolid ∨ isBlank c = false) (h : s.step c = .ok s') :
    s'.IsSolid := by
  unfold State.step at h
  split at h
  · next hmode =>
    refine isSolid_stepText h ?_
    rcases hsolid with (henclosing | hnodes | hbuffer) | hc
    · exact .inl henclosing
    · exact .inr (.inl hnodes)
    · rw [hmode] at hbuffer
      obtain ⟨d, hd, hblank⟩ := hbuffer
      exact .inr (.inr ⟨d, List.mem_append_left _ hd, hblank⟩)
    · exact .inr (.inr ⟨c, by simp, hc⟩)
  · split_ifs at h with hescapable
    · cases h
      exact .inr (.inr ⟨c, by simp, isBlank_of_isEscapable hescapable⟩)
    · exact isSolid_stepText h (.inr (.inr ⟨'\\', by simp, by decide⟩))
  · exact isSolid_stepHead h

lemma IsSolid.foldlM {cs : List Char} (hsolid : s.IsSolid ∨ ∃ c ∈ cs, isBlank c = false)
    (h : cs.foldlM State.step s = .ok s') : s'.IsSolid := by
  induction cs generalizing s with
  | nil =>
      cases h
      simpa using hsolid
  | cons c cs ih =>
      rw [List.foldlM_cons] at h
      obtain ⟨s₁, hstep, h⟩ := bind_eq_ok_iff.mp h
      refine ih ?_ h
      rcases hsolid with hsolid | ⟨d, hd, hblank⟩
      · exact .inl (.step (.inl hsolid) hstep)
      · rcases List.mem_cons.mp hd with rfl | hd
        · exact .inl (.step (.inr hblank) hstep)
        · exact .inr ⟨d, hd, hblank⟩

lemma IsSolid.finish {nodes : List Node} (hsolid : s.IsSolid) (h : s.finish = .ok nodes) :
    ∃ n ∈ nodes, n.IsSolid := by
  unfold State.finish at h
  split at h
  · next hmode henclosing =>
    cases h
    rcases hsolid with hne | hnodes | hbuffer
    · exact absurd henclosing hne
    · exact exists_isSolid_flush (.inl hnodes)
    · rw [hmode] at hbuffer
      exact exists_isSolid_flush (.inr hbuffer)
  · cases h
    exact exists_isSolid_flush (.inr ⟨'\\', by simp, by decide⟩)
  · cases h

end State

/-- **A text that is not blank denotes an utterance that shows something.** -/
lemma exists_isSolid_of_readChars {cs : List Char} {nodes : List Node}
    (h : readChars cs = .ok nodes) (hsolid : ∃ c ∈ cs, isBlank c = false) :
    ∃ n ∈ nodes, n.IsSolid := by
  obtain ⟨s, hrun, hfinish⟩ := bind_eq_ok_iff.mp h
  exact (State.IsSolid.foldlM (.inr hsolid) hrun).finish hfinish

/-! ## The flat text -/

lemma mem_rawNodes {nodes : List Node} {n : Node} (hn : n ∈ nodes) {c : Char} (hc : c ∈ n.raw) :
    c ∈ rawNodes nodes := by
  induction nodes with
  | nil => cases hn
  | cons m nodes ih =>
      rw [rawNodes, List.mem_append]
      rcases List.mem_cons.mp hn with rfl | hn
      · exact .inl hc
      · exact .inr (ih hn)

/-- An utterance without flat labels is made of texts. -/
lemma labels_eq_nil_iff {nodes : List Node} :
    (flatOf nodes).labels = [] ↔ ∀ n ∈ nodes, n.isText := by
  have htop : ∀ (nodes : List Node) (start : Nat), topSpans start nodes = [] ↔
      ∀ n ∈ nodes, n.isText := by
    intro nodes
    induction nodes with
    | nil => simp [topSpans]
    | cons node nodes ih =>
        intro start
        have hnode : node.span? start = none ↔ node.isText := by
          cases node <;> simp [Node.span?, Node.isText]
        rw [topSpans, List.append_eq_nil_iff, Option.toList_eq_nil_iff, hnode, ih,
          List.forall_mem_cons]
  rw [labels_flatOf, List.map_eq_nil_iff, htop]

/-- **Without labels the flat text is empty only if nothing was written.** -/
lemma nodes_eq_nil_of_readChars {cs : List Char} {nodes : List Node}
    (hread : readChars cs = .ok nodes) (htrim : trim cs = cs)
    (hlabels : (flatOf nodes).labels = []) (htext : (flatOf nodes).text = "") : nodes = [] := by
  cases cs with
  | nil =>
      cases hread
      rfl
  | cons c cs =>
      have hc : isBlank c = false := (trim_eq_self_iff.mp htrim).1 c rfl
      obtain ⟨n, hn, hsolid⟩ := exists_isSolid_of_readChars hread ⟨c, List.mem_cons_self, hc⟩
      have hblank : ∀ d ∈ rawNodes nodes, isBlank d := by
        rw [← trim_eq_nil_iff, ← String.ofList_eq_empty_iff]
        exact htext
      cases n with
      | text content =>
          obtain ⟨d, hd, hdsolid⟩ := hsolid
          rw [hblank d (mem_rawNodes hn (by rwa [Node.raw]))] at hdsolid
          cases hdsolid
      | placeholder head => cases labels_eq_nil_iff.mp hlabels _ hn
      | labelled head value => cases labels_eq_nil_iff.mp hlabels _ hn

end DialogModel.Utterance
