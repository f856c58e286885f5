import DialogModel.Proofs.Utterance.RoundTrip

/-!
# Trimming a written utterance

The written form of a canonical utterance is trimmed by trimming its first and its last node, if
they are texts: blanks are not escaped, and a label starts and ends with a brace.  A text of blanks
only goes away, and then a label or nothing stands in its place, so that the trimmed form is the
written form of a canonical utterance again (`exists_renderNodes_trim`).
-/

namespace DialogModel.Utterance

open Chars

/-! ## Escaped texts -/

lemma escape_append (cs ds : List Char) : escape (cs ++ ds) = escape cs ++ escape ds := by
  induction cs with
  | nil => rfl
  | cons c cs ih =>
      simp only [List.cons_append, escape, ih]
      split <;> rfl

lemma escape_singleton_of_isBlank {c : Char} (h : isBlank c) : escape [c] = [c] := by
  have hplain : ¬ (c = '\x7b' ∨ c = '\x7d' ∨ c = '\\') := by
    rintro (rfl | rfl | rfl) <;> revert h <;> decide
  rw [escape, if_neg hplain, escape]

/-- The escaped form of a character ends with it. -/
lemma getLast?_escape_singleton (c : Char) : (escape [c]).getLast? = some c := by
  unfold escape
  split <;> rfl

lemma dropWhile_escape (cs : List Char) :
    (escape cs).dropWhile isBlank = escape (cs.dropWhile isBlank) := by
  induction cs with
  | nil => rfl
  | cons c cs ih =>
      rw [← List.singleton_append, escape_append]
      by_cases hblank : isBlank c
      · simp [escape_singleton_of_isBlank hblank, hblank, ih]
      · have hstart : StartsSolid (escape [c] ++ escape cs) := by
          intro d hd
          unfold escape at hd
          split at hd
          · obtain rfl : '\\' = d := by simpa using hd
            decide
          · obtain rfl : c = d := by simpa using hd
            simpa using hblank
        rw [dropWhile_eq_self_iff.mpr hstart, ← escape_append, List.singleton_append,
          List.dropWhile_cons_of_neg hblank]

lemma rdropWhile_escape (cs : List Char) :
    (escape cs).rdropWhile isBlank = escape (cs.rdropWhile isBlank) := by
  induction cs using List.reverseRecOn with
  | nil => rfl
  | append_singleton cs c ih =>
      rw [escape_append]
      by_cases hblank : isBlank c
      · rw [escape_singleton_of_isBlank hblank, List.rdropWhile_concat_pos _ _ _ hblank,
          List.rdropWhile_concat_pos _ _ _ hblank, ih]
      · have hne : escape [c] ≠ [] := fun hnil => by
          simpa [hnil] using getLast?_escape_singleton c
        have hend : EndsSolid (escape cs ++ escape [c]) := by
          intro d hd
          rw [List.getLast?_append_of_ne_nil _ hne, getLast?_escape_singleton] at hd
          obtain rfl : c = d := by simpa using hd
          simpa using hblank
        rw [rdropWhile_eq_self_iff.mpr hend, List.rdropWhile_concat_neg _ _ _ hblank,
          escape_append]

/-! ## The ends of a written utterance -/

lemma renderNodes_append (ns ms : List Node) :
    renderNodes (ns ++ ms) = renderNodes ns ++ renderNodes ms := by
  induction ns with
  | nil => rfl
  | cons n ns ih => rw [List.cons_append, renderNodes, renderNodes, ih, List.append_assoc]

lemma renderNodes_singleton (n : Node) : renderNodes [n] = n.render := by
  rw [renderNodes, renderNodes, List.append_nil]

lemma renderNodes_flush (ns : List Node) (buffer : List Char) :
    renderNodes (State.flush ns buffer) = renderNodes ns ++ escape buffer := by
  unfold State.flush
  split_ifs with hempty
  · simp [List.isEmpty_iff.mp hempty, escape]
  · rw [renderNodes_append, renderNodes_singleton, Node.render, String.toList_ofList]

lemma mem_renderNodes {ns : List Node} {n : Node} (hn : n ∈ ns) {c : Char} (hc : c ∈ n.render) :
    c ∈ renderNodes ns := by
  obtain ⟨before, rest, rfl⟩ := List.append_of_mem hn
  rw [renderNodes_append, renderNodes]
  exact List.mem_append_right _ (List.mem_append_left _ hc)

/-- A label is written between braces. -/
lemma Node.render_of_not_isText {n : Node} (h : n.isText = false) :
    ∃ inner, n.render = '\x7b' :: (inner ++ ['\x7d']) := by
  cases n with
  | text content => cases h
  | placeholder head => exact ⟨head.written, by rw [Node.render, Head.placeholderText]⟩
  | labelled head value =>
      exact ⟨head.written ++ '=' :: renderNodes value, by simp [Node.render]⟩

lemma startsSolid_renderNodes {ns : List Node} (h : ∀ n ∈ ns.head?, n.isText = false) :
    StartsSolid (renderNodes ns) := by
  cases ns with
  | nil => simp [renderNodes, StartsSolid]
  | cons n ns =>
      obtain ⟨inner, hrender⟩ := n.render_of_not_isText (h n rfl)
      intro c hc
      obtain rfl : '\x7b' = c := by simpa [renderNodes, hrender] using hc
      decide

lemma endsSolid_renderNodes {ns : List Node} (h : EndsWithLabel ns) :
    EndsSolid (renderNodes ns) := by
  rcases List.eq_nil_or_concat' ns with rfl | ⟨init, last, rfl⟩
  · simp [renderNodes, EndsSolid]
  · obtain ⟨inner, hrender⟩ := last.render_of_not_isText (h last (by simp))
    intro c hc
    rw [renderNodes_append, renderNodes_singleton, hrender, ← List.cons_append,
      ← List.append_assoc, List.getLast?_concat] at hc
    obtain rfl : '\x7d' = c := by simpa using hc
    decide

/-! ## Trimming -/

/-- The labels of the first utterance are among those of the second. -/
def LabelsAmong (ns ms : List Node) : Prop :=
  ∀ n ∈ ns, n.isText = false → n ∈ ms

lemma LabelsAmong.trans {ns ms ls : List Node} (h : LabelsAmong ns ms) (h' : LabelsAmong ms ls) :
    LabelsAmong ns ls :=
  fun n hn htext => h' n (h n hn htext) htext

lemma exists_renderNodes_dropWhile {ns : List Node} (hc : AreCanonical ns) :
    ∃ ms, AreCanonical ms ∧ LabelsAmong ms ns ∧
      renderNodes ms = (renderNodes ns).dropWhile isBlank := by
  cases ns with
  | nil => exact ⟨[], trivial, by simp [LabelsAmong], rfl⟩
  | cons n ns =>
      obtain ⟨hn, hnext, hns⟩ := hc
      cases htext : n.isText with
      | false =>
          have hsolid : StartsSolid (renderNodes (n :: ns)) :=
            startsSolid_renderNodes (by simpa using htext)
          exact ⟨n :: ns, ⟨hn, hnext, hns⟩, fun _ hmem _ => hmem,
            (dropWhile_eq_self_iff.mpr hsolid).symm⟩
      | true =>
          obtain ⟨content, rfl⟩ : ∃ content, n = .text content := by
            cases n <;> simp_all [Node.isText]
          have hrest : ∀ next ∈ ns.head?, next.isText = false :=
            fun next hmem => hnext next hmem rfl
          refine ⟨State.flush [] (content.toList.dropWhile isBlank) ++ ns, ?_, ?_, ?_⟩
          · unfold State.flush
            split_ifs with hempty
            · exact hns
            · exact ⟨by simpa [Node.IsCanonical] using hempty, fun next hmem _ => hrest next hmem,
                hns⟩
          · intro m hm hlabel
            rcases List.mem_append.mp hm with hm | hm
            · unfold State.flush at hm
              split_ifs at hm
              · cases hm
              · rw [List.mem_singleton.mp hm] at hlabel
                cases hlabel
            · exact List.mem_cons_of_mem _ hm
          · have hfirst : renderNodes (.text content :: ns) = escape content.toList ++
                renderNodes ns := by rw [renderNodes, Node.render]
            rw [hfirst, dropWhile_append_of_startsSolid _ (startsSolid_renderNodes hrest),
              dropWhile_escape, renderNodes_append, renderNodes_flush]
            rfl

lemma exists_renderNodes_rdropWhile {ns : List Node} (hc : AreCanonical ns) :
    ∃ ms, AreCanonical ms ∧ LabelsAmong ms ns ∧
      renderNodes ms = (renderNodes ns).rdropWhile isBlank := by
  rcases List.eq_nil_or_concat' ns with rfl | ⟨init, last, rfl⟩
  · exact ⟨[], trivial, by simp [LabelsAmong], rfl⟩
  · cases htext : last.isText with
    | false =>
        have hsolid : EndsSolid (renderNodes (init ++ [last])) :=
          endsSolid_renderNodes (endsWithLabel_concat htext)
        exact ⟨init ++ [last], hc, fun _ hmem _ => hmem,
          (rdropWhile_eq_self_iff.mpr hsolid).symm⟩
    | true =>
        obtain ⟨content, rfl⟩ : ∃ content, last = .text content := by
          cases last <;> simp_all [Node.isText]
        obtain ⟨hall, hchain⟩ := areCanonical_iff.mp hc
        obtain ⟨hinitchain, -, hlast⟩ := List.isChain_append.mp hchain
        have hinit : AreCanonical init :=
          areCanonical_iff.mpr ⟨fun n hn => hall n (List.mem_append_left _ hn), hinitchain⟩
        have hends : EndsWithLabel init := by
          intro n hn
          by_contra hne
          have htexts := hlast n hn (.text content) rfl (by simpa using hne)
          cases htexts
        refine ⟨State.flush init (content.toList.rdropWhile isBlank), hinit.flush hends _, ?_, ?_⟩
        · intro m hm hlabel
          unfold State.flush at hm
          split_ifs at hm
          · exact List.mem_append_left _ hm
          · rcases List.mem_append.mp hm with hm | hm
            · exact List.mem_append_left _ hm
            · rw [List.mem_singleton.mp hm] at hlabel
              cases hlabel
        · rw [renderNodes_flush, renderNodes_append, renderNodes_singleton, Node.render,
            rdropWhile_append_of_endsSolid _ (endsSolid_renderNodes hends), rdropWhile_escape]

/-- **The trimmed form of a canonical utterance is written form again**, of a canonical utterance
without new labels. -/
lemma exists_renderNodes_trim {ns : List Node} (hc : AreCanonical ns) :
    ∃ ms, AreCanonical ms ∧ LabelsAmong ms ns ∧ renderNodes ms = trim (renderNodes ns) := by
  obtain ⟨ms, hms, hlabels, hfront⟩ := exists_renderNodes_dropWhile hc
  obtain ⟨ls, hls, hlabels', hback⟩ := exists_renderNodes_rdropWhile hms
  exact ⟨ls, hls, hlabels'.trans hlabels, by rw [hback, hfront, trim_eq]⟩

end DialogModel.Utterance
