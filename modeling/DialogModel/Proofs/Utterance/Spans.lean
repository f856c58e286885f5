import Mathlib.Data.List.Nodup
import Mathlib.Tactic.Common
import DialogModel.Utterance.Flat

/-!
# The spans of an utterance

The labels that stand in no other follow one another in the text: each ends before the next starts
(`pairwise_labels`), and none reaches beyond the text.  Flattening finds them among all labels by
their depth and then moves them to the trimmed text, which keeps their order.  A label that covers a
character therefore shares its first position with no other label of the utterance.
-/

namespace DialogModel.Utterance

/-! ## The labels that stand in no other -/

/-- The label that a node is, if it is one, for a node that starts at a position. -/
def Node.span? (start : Nat) : Node → Option Span
  | .text _ => none
  | .placeholder head => some ⟨head, false, start, start + head.placeholderText.length⟩
  | .labelled head value => some ⟨head, true, start, start + (rawNodes value).length⟩

/-- The labels of an utterance that starts at a position, without those inside values. -/
def topSpans (start : Nat) : List Node → List Span
  | [] => []
  | node :: nodes => (node.span? start).toList ++ topSpans (start + node.raw.length) nodes

mutual

/-- The labels of a node are at least as deep as the node. -/
theorem Node.le_of_mem_spans : ∀ (node : Node) (depth start : Nat),
    ∀ s ∈ node.spans depth start, depth ≤ s.1
  | .text content, depth, start, s, hs => by simp [Node.spans] at hs
  | .placeholder head, depth, start, s, hs => by
      rw [Node.spans, List.mem_singleton] at hs
      exact hs ▸ Nat.le_refl depth
  | .labelled head value, depth, start, s, hs => by
      rw [Node.spans, List.mem_append, List.mem_singleton] at hs
      rcases hs with hs | rfl
      · have hdeep := le_of_mem_spansOf value (depth + 1) start s hs
        omega
      · exact Nat.le_refl depth

/-- The labels of an utterance are at least as deep as the utterance. -/
theorem le_of_mem_spansOf : ∀ (nodes : List Node) (depth start : Nat),
    ∀ s ∈ spansOf depth start nodes, depth ≤ s.1
  | [], depth, start, s, hs => by simp [spansOf] at hs
  | node :: nodes, depth, start, s, hs => by
      rw [spansOf, List.mem_append] at hs
      rcases hs with hs | hs
      · exact Node.le_of_mem_spans node depth start s hs
      · exact le_of_mem_spansOf nodes depth _ s hs

end

lemma Node.filter_spans (node : Node) (depth start : Nat) :
    ((node.spans depth start).filter fun s => s.1 == depth).map Prod.snd =
      (node.span? start).toList := by
  cases node with
  | text content => rfl
  | placeholder head => simp [Node.spans, Node.span?]
  | labelled head value =>
      have hinner : (spansOf (depth + 1) start value).filter (fun s => s.1 == depth) = [] := by
        refine List.filter_eq_nil_iff.mpr fun s hs => ?_
        have hdeep := le_of_mem_spansOf value (depth + 1) start s hs
        simp only [beq_iff_eq]
        omega
      simp [Node.spans, Node.span?, hinner]

/-- The labels of the least depth are those that stand in no other. -/
lemma filter_spansOf (nodes : List Node) (depth start : Nat) :
    ((spansOf depth start nodes).filter fun s => s.1 == depth).map Prod.snd =
      topSpans start nodes := by
  induction nodes generalizing start with
  | nil => rfl
  | cons node nodes ih =>
      rw [spansOf, topSpans, List.filter_append, List.map_append, node.filter_spans, ih]

/-- The flat labels are the labels that stand in no other, moved to the trimmed text. -/
lemma labels_flatOf (nodes : List Node) :
    (flatOf nodes).labels = (topSpans 0 nodes).map
      (Span.shift ((rawNodes nodes).takeWhile isBlank).length (flatOf nodes).text.length) := by
  rw [← filter_spansOf nodes 0 0, List.map_map]
  simp [flatOf, Function.comp_def]

/-! ## Order and bounds -/

lemma Node.span?_eq_some {node : Node} {start : Nat} {s : Span} (h : node.span? start = some s) :
    s.start = start ∧ s.stop = start + node.raw.length := by
  cases node with
  | text content => cases h
  | placeholder head =>
      cases h
      simp [Node.raw]
  | labelled head value =>
      cases h
      simp [Node.raw]

lemma le_start_of_mem_topSpans {nodes : List Node} {start : Nat} {s : Span}
    (h : s ∈ topSpans start nodes) : start ≤ s.start := by
  induction nodes generalizing start with
  | nil => simp [topSpans] at h
  | cons node nodes ih =>
      rcases List.mem_append.mp h with h | h
      · exact Nat.le_of_eq (Node.span?_eq_some (Option.mem_toList.mp h)).1.symm
      · have hrest := ih h
        omega

lemma pairwise_topSpans (start : Nat) (nodes : List Node) :
    (topSpans start nodes).Pairwise fun a b => a.stop ≤ b.start := by
  induction nodes generalizing start with
  | nil => exact .nil
  | cons node nodes ih =>
      refine List.pairwise_append.mpr ⟨?_, ih _, ?_⟩
      · cases node.span? start <;> simp
      · intro a ha b hb
        rw [(Node.span?_eq_some (Option.mem_toList.mp ha)).2]
        exact le_start_of_mem_topSpans hb

/-- **The labels of a flat utterance follow one another.** -/
lemma pairwise_labels (nodes : List Node) :
    (flatOf nodes).labels.Pairwise fun a b => a.stop ≤ b.start := by
  rw [labels_flatOf]
  refine (pairwise_topSpans 0 nodes).map _ fun a b hab => ?_
  simp only [Span.shift]
  omega

lemma stop_le_of_mem_labels {nodes : List Node} {s : Span} (h : s ∈ (flatOf nodes).labels) :
    s.stop ≤ (flatOf nodes).text.length := by
  rw [labels_flatOf] at h
  obtain ⟨t, -, rfl⟩ := List.mem_map.mp h
  exact Nat.min_le_right _ _

/-- The first and the last position of a span that covers a character. -/
def Span.positions (s : Span) : Nat × Nat :=
  (s.start, s.stop - 1)

lemma Span.start_lt_stop {s : Span} (h : s.isEmpty = false) : s.start < s.stop := by
  simpa [Span.isEmpty] using h

/-- Labels that all cover a character have different positions. -/
lemma nodup_positions {nodes : List Node} (h : ∀ s ∈ (flatOf nodes).labels, s.isEmpty = false) :
    ((flatOf nodes).labels.map Span.positions).Nodup := by
  refine List.pairwise_map.mpr ((pairwise_labels nodes).imp_of_mem fun {a b} ha _ hab heq => ?_)
  have hlt := Span.start_lt_stop (h a ha)
  have hstart : a.start = b.start := congrArg Prod.fst heq
  omega

/-- A label that covers a character lies inside the text. -/
lemma positions_bounds {nodes : List Node} {s : Span} (hs : s ∈ (flatOf nodes).labels)
    (h : s.isEmpty = false) :
    s.positions.1 ≤ s.positions.2 ∧ s.positions.2 < (flatOf nodes).text.length := by
  have hlt := Span.start_lt_stop h
  have hle := stop_le_of_mem_labels hs
  simp only [Span.positions]
  omega

/-! ## Labels with values -/

/-- A node with a value shows among the flat labels. -/
lemma exists_hasValue_of_mem {nodes : List Node} {head : Head} {value : List Node}
    (h : .labelled head value ∈ nodes) : ∃ s ∈ (flatOf nodes).labels, s.hasValue = true := by
  have htop : ∀ (nodes : List Node) (start : Nat), .labelled head value ∈ nodes →
      ∃ s ∈ topSpans start nodes, s.hasValue = true := by
    intro nodes
    induction nodes with
    | nil => exact fun _ h => absurd h List.not_mem_nil
    | cons node nodes ih =>
        intro start h
        rcases List.mem_cons.mp h with rfl | h
        · exact ⟨_, List.mem_append_left _ (Option.mem_toList.mpr rfl), rfl⟩
        · obtain ⟨s, hs, hvalue⟩ := ih _ h
          exact ⟨s, List.mem_append_right _ hs, hvalue⟩
  obtain ⟨s, hs, hvalue⟩ := htop nodes 0 h
  rw [labels_flatOf]
  exact ⟨_, List.mem_map_of_mem hs, hvalue⟩

end DialogModel.Utterance
