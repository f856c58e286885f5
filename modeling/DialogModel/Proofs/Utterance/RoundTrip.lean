import DialogModel.Proofs.Outcome
import DialogModel.Proofs.Utterance.Canonical

/-!
# Reading what has been written

Reading is a left inverse of writing on canonical utterances (`readChars_renderNodes`), and the
utterances that can be read are exactly those (`areCanonical_of_readChars`).

The first half follows the written form.  The reader is a fold over the characters, so the lemmas
say what it does to its state on an escaped text, on a head, and on a whole node; the state that a
node is read in is arbitrary but for one thing, that no pending text stands before a text.  The
second half is an invariant of the state: the nodes read so far are canonical, and outside heads
the last of them is no text, since a text is completed by the label behind it.
-/

namespace DialogModel.Utterance

open State

variable (enclosing : List OpenLabel) (before : List Node) (buffer : List Char)

/-! ## Reading a written utterance -/

/-- An escaped text is read into the pending text. -/
lemma foldlM_escape (cs : List Char) :
    (escape cs).foldlM step ⟨enclosing, before, .text buffer⟩ =
      .ok ⟨enclosing, before, .text (buffer ++ cs)⟩ := by
  induction cs generalizing buffer with
  | nil => simp [escape, pure, Except.pure]
  | cons c cs ih =>
      by_cases hc : c = '\x7b' ∨ c = '\x7d' ∨ c = '\\'
      · have hescape : isEscapable c = true := by simpa [isEscapable, or_assoc] using hc
        rw [escape, if_pos hc]
        simp [List.foldlM_cons, bind, Except.bind, step, stepText, hescape, ih]
      · rw [escape, if_neg hc]
        simp only [not_or] at hc
        simp [List.foldlM_cons, bind, Except.bind, step, stepText, hc, ih]

/-- The characters of a head are read into the head. -/
lemma foldlM_head (head : List Char) {cs : List Char} (hfree : ∀ c ∈ cs, c ∉ Head.roleStops) :
    cs.foldlM step ⟨enclosing, before, .head head⟩ =
      .ok ⟨enclosing, before, .head (head ++ cs)⟩ := by
  induction cs generalizing head with
  | nil => simp [pure, Except.pure]
  | cons c cs ih =>
      rw [List.forall_mem_cons] at hfree
      have hc : c ≠ '\x7b' ∧ c ≠ '\x7d' ∧ c ≠ '=' := by simpa [Head.roleStops] using hfree.1
      have hrest := ih (head ++ [c]) hfree.2
      simp only [List.foldlM_cons, bind, Except.bind, step, stepHead, hc, if_false, hrest,
        List.append_assoc, List.singleton_append]

/-- A brace opens a head behind the text before it, and the head is read up to its end. -/
lemma foldlM_open {h : Head} (hc : h.IsCanonical) :
    ('\x7b' :: h.written).foldlM step ⟨enclosing, before, .text buffer⟩ =
      .ok ⟨enclosing, flush before buffer, .head h.written⟩ := by
  have hhead := foldlM_head enclosing (flush before buffer) []
    fun c => Head.not_mem_roleStops_of_mem_written hc (c := c)
  simpa [List.foldlM_cons, bind, Except.bind, step, stepText] using hhead

mutual

/-- A canonical node is read behind the nodes before it.  It leaves pending text only if it is a
text. -/
theorem Node.foldlM_render : ∀ (node : Node) (enclosing : List OpenLabel) (before : List Node)
    (buffer : List Char), node.IsCanonical → (node.isText → buffer = []) →
    ∃ before' buffer', node.render.foldlM step ⟨enclosing, before, .text buffer⟩ =
        .ok ⟨enclosing, before', .text buffer'⟩ ∧
      flush before' buffer' = flush before buffer ++ [node] ∧
      (buffer' ≠ [] → node.isText)
  | .text content, enclosing, before, buffer, hc, htext => by
      obtain rfl : buffer = [] := htext rfl
      have hne : content ≠ "" := hc
      refine ⟨before, content.toList, ?_, by simp [flush, hne], fun _ => rfl⟩
      rw [Node.render]
      exact foldlM_escape enclosing before [] content.toList
  | .placeholder h, enclosing, before, buffer, hc, _ => by
      refine ⟨flush before buffer ++ [.placeholder h], [], ?_, by simp [flush], by simp⟩
      have hopen := foldlM_open enclosing before buffer hc
      rw [Node.render, Head.placeholderText, ← List.cons_append, List.foldlM_append, hopen]
      simp [bind, Except.bind, step, stepHead, Head.read_written hc, pure, Except.pure]
  | .labelled h value, enclosing, before, buffer, hc, _ => by
      refine ⟨flush before buffer ++ [.labelled h value], [], ?_, by simp [flush], by simp⟩
      have hopen := foldlM_open enclosing before buffer hc.1
      obtain ⟨inner, rest, hvalue, hflush⟩ := foldlM_renderNodes value
        (⟨flush before buffer, h.written⟩ :: enclosing) [] [] hc.2 (by simp)
      have hflush' : flush inner rest = value := by simpa [flush] using hflush
      rw [Node.render, ← List.cons_append, List.foldlM_append, hopen]
      simp [bind, Except.bind, step, stepHead, stepText, hvalue, Head.read_written hc.1, hflush',
        pure, Except.pure]

/-- Canonical nodes are read behind the nodes before them. -/
theorem foldlM_renderNodes : ∀ (nodes : List Node) (enclosing : List OpenLabel)
    (before : List Node) (buffer : List Char), AreCanonical nodes →
    (∀ node ∈ nodes.head?, node.isText → buffer = []) →
    ∃ before' buffer', (renderNodes nodes).foldlM step ⟨enclosing, before, .text buffer⟩ =
        .ok ⟨enclosing, before', .text buffer'⟩ ∧
      flush before' buffer' = flush before buffer ++ nodes
  | [], enclosing, before, buffer, _, _ => ⟨before, buffer, rfl, by simp⟩
  | node :: nodes, enclosing, before, buffer, hc, hfirst => by
      obtain ⟨hnode, hnext, hnodes⟩ := hc
      obtain ⟨before₁, buffer₁, hrun₁, hflush₁, htext₁⟩ :=
        Node.foldlM_render node enclosing before buffer hnode (hfirst node rfl)
      -- Text is pending only behind a text, and then no text follows.
      have hfirst₁ : ∀ next ∈ nodes.head?, next.isText → buffer₁ = [] := by
        intro next hmem htext
        by_contra hpending
        rw [hnext next hmem (htext₁ hpending)] at htext
        cases htext
      obtain ⟨before₂, buffer₂, hrun₂, hflush₂⟩ :=
        foldlM_renderNodes nodes enclosing before₁ buffer₁ hnodes hfirst₁
      refine ⟨before₂, buffer₂, ?_, by rw [hflush₂, hflush₁, List.append_assoc]; rfl⟩
      rw [renderNodes, List.foldlM_append, hrun₁]
      exact hrun₂

end

/-- A canonical utterance reads back from its written form. -/
lemma readChars_renderNodes {nodes : List Node} (hc : AreCanonical nodes) :
    readChars (renderNodes nodes) = .ok nodes := by
  obtain ⟨before, buffer, hrun, hflush⟩ := foldlM_renderNodes nodes [] [] [] hc (by simp)
  have hstart : ({} : State) = ⟨[], [], .text []⟩ := rfl
  have hflush' : flush before buffer = nodes := by simpa [flush] using hflush
  rw [readChars, hstart, hrun]
  simp [bind, Except.bind, finish, hflush']

/-! ## What has been read -/

/-- The last of some nodes is no text. -/
def EndsWithLabel (nodes : List Node) : Prop :=
  ∀ last ∈ nodes.getLast?, last.isText = false

/-- The state between two characters of a text: all that has been read is canonical, and the nodes
before a pending text do not end with a text. -/
structure State.IsCanonical (s : State) : Prop where
  nodes : AreCanonical s.nodes
  labels : ∀ label ∈ s.enclosing,
    AreCanonical label.before ∧ ∀ c ∈ label.head, c ∉ Head.roleStops
  mode : match s.mode with
    | .text _ | .escape _ => EndsWithLabel s.nodes
    | .head head => ∀ c ∈ head, c ∉ Head.roleStops

lemma AreCanonical.flush {nodes : List Node} (hc : AreCanonical nodes) (hends : EndsWithLabel nodes)
    (buffer : List Char) : AreCanonical (State.flush nodes buffer) := by
  unfold State.flush
  split_ifs with hbuffer
  · exact hc
  · refine hc.concat ?_ fun last hlast htext => ?_
    · simpa [Node.IsCanonical] using hbuffer
    · rw [hends last hlast] at htext
      cases htext

lemma endsWithLabel_concat {nodes : List Node} {node : Node} (h : node.isText = false) :
    EndsWithLabel (nodes ++ [node]) := by
  intro last hlast
  obtain rfl : node = last := by simpa using hlast
  exact h

/-- A label may stand behind any canonical nodes. -/
lemma AreCanonical.concat_label {nodes : List Node} {node : Node} (hc : AreCanonical nodes)
    (hnode : node.IsCanonical) (h : node.isText = false) : AreCanonical (nodes ++ [node]) :=
  hc.concat hnode fun _ _ _ => h

namespace State.IsCanonical

variable {s s' : State} {c : Char} {buffer : List Char}

lemma start : ({} : State).IsCanonical :=
  ⟨trivial, fun _ h => absurd h List.not_mem_nil, fun _ h => absurd h (by simp)⟩

lemma stepText (hs : s.IsCanonical) (hends : EndsWithLabel s.nodes)
    (h : s.stepText buffer c = .ok s') : s'.IsCanonical := by
  unfold State.stepText at h
  split_ifs at h with hescape hopen hclose
  · cases h
    exact ⟨hs.nodes, hs.labels, hends⟩
  · cases h
    exact ⟨hs.nodes.flush hends buffer, hs.labels, fun _ h => absurd h List.not_mem_nil⟩
  · -- The brace closes the innermost label, whose value is the nodes read so far.
    cases henclosing : s.enclosing with
    | nil =>
        rw [henclosing] at h
        cases h
    | cons label outer =>
        simp only [henclosing] at h
        obtain ⟨head, hhead, h⟩ := bind_eq_ok_iff.mp h
        cases h
        have hlabels := hs.labels
        rw [henclosing, List.forall_mem_cons] at hlabels
        obtain ⟨⟨hbefore, hfree⟩, houter⟩ := hlabels
        have hnode : (Node.labelled head (State.flush s.nodes buffer)).IsCanonical :=
          ⟨Head.isCanonical_of_read hfree hhead, hs.nodes.flush hends buffer⟩
        exact ⟨hbefore.concat_label hnode rfl, houter, endsWithLabel_concat rfl⟩
  · cases h
    exact ⟨hs.nodes, hs.labels, hends⟩

lemma stepHead {head : List Char} (hs : s.IsCanonical) (hfree : ∀ c ∈ head, c ∉ Head.roleStops)
    (h : s.stepHead head c = .ok s') : s'.IsCanonical := by
  unfold State.stepHead at h
  split_ifs at h with hvalue hclose hopen
  · cases h
    refine ⟨trivial, List.forall_mem_cons.mpr ⟨⟨hs.nodes, hfree⟩, hs.labels⟩, ?_⟩
    exact fun _ h => absurd h (by simp)
  · obtain ⟨h', hread, h⟩ := bind_eq_ok_iff.mp h
    cases h
    have hnode : (Node.placeholder h').IsCanonical := Head.isCanonical_of_read hfree hread
    exact ⟨hs.nodes.concat_label hnode rfl, hs.labels, endsWithLabel_concat rfl⟩
  · cases h
    refine ⟨hs.nodes, hs.labels, List.forall_mem_append.mpr ⟨hfree, ?_⟩⟩
    simp [Head.roleStops, hvalue, hclose, hopen]

lemma step (hs : s.IsCanonical) (h : s.step c = .ok s') : s'.IsCanonical := by
  have hmode := hs.mode
  unfold State.step at h
  cases hm : s.mode with
  | text buffer =>
      rw [hm] at h hmode
      exact hs.stepText hmode h
  | escape buffer =>
      simp only [hm] at h hmode
      split_ifs at h
      · cases h
        exact ⟨hs.nodes, hs.labels, hmode⟩
      · exact hs.stepText hmode h
  | head head =>
      rw [hm] at h hmode
      exact hs.stepHead hmode h

lemma finish {nodes : List Node} (hs : s.IsCanonical) (h : s.finish = .ok nodes) :
    AreCanonical nodes := by
  have hmode := hs.mode
  unfold State.finish at h
  split at h
  · next hm _ =>
    rw [hm] at hmode
    cases h
    exact hs.nodes.flush hmode _
  · next hm _ =>
    rw [hm] at hmode
    cases h
    exact hs.nodes.flush hmode _
  · cases h

end State.IsCanonical

/-- An utterance that has been read is canonical. -/
lemma areCanonical_of_readChars {cs : List Char} {nodes : List Node}
    (h : readChars cs = .ok nodes) : AreCanonical nodes := by
  unfold readChars at h
  obtain ⟨s, hrun, hfinish⟩ := bind_eq_ok_iff.mp h
  exact (foldlM_ok_induction State.IsCanonical (fun _ _ _ hs hstep => hs.step hstep)
    State.IsCanonical.start hrun).finish hfinish

/-- **Reading inverts writing.**  A canonical utterance reads back from its written form.  Every
utterance that can be read from a text is canonical, so its written form denotes the same as the
text. -/
theorem read_render_and_canonical :
    (∀ nodes, AreCanonical nodes → read (render nodes) = .ok nodes) ∧
      ∀ text nodes, read text = .ok nodes →
        AreCanonical nodes ∧ read (render nodes) = read text := by
  have hback : ∀ nodes, AreCanonical nodes → read (render nodes) = .ok nodes := by
    intro nodes hc
    rw [read, render, String.toList_ofList, readChars_renderNodes hc]
  refine ⟨hback, fun text nodes hread => ?_⟩
  have hc : AreCanonical nodes := areCanonical_of_readChars hread
  exact ⟨hc, (hback nodes hc).trans hread.symm⟩

/-- An utterance with braces and a backslash in its text, a nested label and references by `@`. -/
def nestedUtterance : List Node :=
  [.text "see \x7bx\x7d\\ ", .labelled ⟨"user", some "who", false⟩
      [.text "a ", .labelled ⟨"@first", none, true⟩ []],
    .placeholder ⟨"place", some "to:from", true⟩]

/-- A text with blanks in a head and a backslash that escapes nothing. -/
def looseText : String :=
  "go \x7b @ place : to =\\north\x7d"

theorem read_render_and_canonical_nestedUtterance :
    AreCanonical nestedUtterance ∧ read (render nestedUtterance) = .ok nestedUtterance ∧
      ∃ nodes, read looseText = .ok nodes ∧ render nodes ≠ looseText ∧
        AreCanonical nodes ∧ read (render nodes) = read looseText := by
  have hc : AreCanonical nestedUtterance := by decide +kernel
  have hread : read looseText =
      .ok [.text "go ", .labelled ⟨"place", some "to", true⟩ [.text "\\north"]] := by decide +kernel
  exact ⟨hc, read_render_and_canonical.1 _ hc, _, hread, by decide +kernel,
    read_render_and_canonical.2 _ _ hread⟩

end DialogModel.Utterance
