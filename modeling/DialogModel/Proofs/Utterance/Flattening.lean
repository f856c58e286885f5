import Mathlib.Data.List.DropRight
import Mathlib.Data.List.Forall2
import DialogModel.Proofs.Text.Chars
import DialogModel.Proofs.Utterance.Spans

/-!
# What a flat utterance says of its tree

A label of an utterance is a part of its raw text, with a text before it and a text after it.
`Site` is a label seen in this way, and `sitesIn` lists the labels of an utterance, each with the label in
whose value it stands.  A flat utterance has one span for each of them (`Flat.Describes`): the span
covers in the trimmed text what is left of the label when the blanks at the ends are trimmed off,
also if the label starts or ends among them.

Positions are counted in the raw text and moved to the trimmed one by a subtraction that stops at
zero and a minimum.  That this is right is the arithmetic of `Site.covered_shift`: a label and its
surroundings fill the raw text, and so do the trimmed text and what was trimmed off.

Which labels may stand where is decided in the order in which they open.  `openedIn` lists them in
that order, and flattening fails with the fault of the first that offends (`faultIn_eq`).
-/

namespace DialogModel.Utterance

/-! ## The text -/

mutual

/-- The texts and placeholders of a node from left to right. -/
def Node.pieces : Node → List (List Char)
  | .text content => [content.toList]
  | .placeholder head => [head.placeholderText]
  | .labelled _ value => piecesIn value

/-- The texts and placeholders of an utterance from left to right. -/
def piecesIn : List Node → List (List Char)
  | [] => []
  | node :: nodes => node.pieces ++ piecesIn nodes

end

mutual

theorem Node.raw_eq : ∀ node : Node, node.raw = node.pieces.flatten
  | .text content => by simp [Node.raw, Node.pieces]
  | .placeholder head => by simp [Node.raw, Node.pieces]
  | .labelled head value => by rw [Node.raw, Node.pieces, rawNodes_eq value]

/-- The raw text is made of the pieces. -/
theorem rawNodes_eq : ∀ nodes : List Node, rawNodes nodes = (piecesIn nodes).flatten
  | [] => rfl
  | node :: nodes => by
      rw [rawNodes, piecesIn, List.flatten_append, node.raw_eq, rawNodes_eq nodes]

end

/-! ## The labels -/

/-- A label in the raw text of an utterance. -/
structure Site where
  head : Head
  hasValue : Bool
  /-- The raw text in front of the label. -/
  before : List Char
  /-- The raw text of the label itself. -/
  content : List Char
  /-- The raw text behind the label. -/
  after : List Char

/-- The positions of a label in the raw text. -/
def Site.span (s : Site) : Span where
  head := s.head
  hasValue := s.hasValue
  start := s.before.length
  stop := s.before.length + s.content.length

mutual

/-- The labels of a node between two texts, each behind those in its value and with the label in
whose value it stands. -/
def Node.sites (outer : Option Site) (before after : List Char) : Node → List (Option Site × Site)
  | .text _ => []
  | .placeholder head => [(outer, ⟨head, false, before, head.placeholderText, after⟩)]
  | .labelled head value =>
    let site : Site := ⟨head, true, before, rawNodes value, after⟩
    sitesIn (some site) before after value ++ [(outer, site)]

/-- The labels of an utterance between two texts. -/
def sitesIn (outer : Option Site) (before after : List Char) :
    List Node → List (Option Site × Site)
  | [] => []
  | node :: nodes =>
    node.sites outer before (rawNodes nodes ++ after) ++
      sitesIn outer (before ++ node.raw) after nodes

end

/-- The labels of an utterance that stand in no other. -/
def topSites (nodes : List Node) : List (Option Site × Site) :=
  (sitesIn none [] [] nodes).filter (·.1.isNone)

/-- The labels of an utterance that stand in the value of another. -/
def innerSites (nodes : List Node) : List (Option Site × Site) :=
  (sitesIn none [] [] nodes).filter (·.1.isSome)

/-- A label stands in a part of the raw text: it and the texts around it make up the whole, and it
does not reach beyond the part. -/
structure Site.In (s : Site) (before part after : List Char) : Prop where
  text : s.before ++ s.content ++ s.after = before ++ part ++ after
  le_start : before.length ≤ s.before.length
  stop_le : s.before.length + s.content.length ≤ before.length + part.length

/-- The label in whose value a listed label stands is the one that was given, or it is listed and
its own text is around the label. -/
def Encloses (outer : Option Site) (listed : List (Option Site × Site)) (e : Option Site × Site) :
    Prop :=
  e.1 = outer ∨ ∃ o, e.1 = some o ∧ o ∈ listed.map Prod.snd ∧ e.2.In o.before o.content o.after

lemma Encloses.mono {outer : Option Site} {listed listed' : List (Option Site × Site)}
    {e : Option Site × Site} (h : Encloses outer listed e) (hsub : listed ⊆ listed') :
    Encloses outer listed' e := by
  refine h.imp_right ?_
  rintro ⟨o, he, hmem, hin⟩
  exact ⟨o, he, List.map_subset _ hsub hmem, hin⟩

mutual

theorem Node.of_mem_sites : ∀ (node : Node) (outer : Option Site) (before after : List Char),
    ∀ e ∈ node.sites outer before after,
      e.2.In before node.raw after ∧ Encloses outer (node.sites outer before after) e
  | .text content, outer, before, after, e, he => by simp [Node.sites] at he
  | .placeholder head, outer, before, after, e, he => by
      rw [Node.sites, List.mem_singleton] at he
      subst he
      exact ⟨⟨rfl, Nat.le_refl _, Nat.le_refl _⟩, .inl rfl⟩
  | .labelled head value, outer, before, after, e, he => by
      rw [Node.sites, List.mem_append, List.mem_singleton] at he
      rcases he with he | rfl
      · obtain ⟨hin, henc⟩ := of_mem_sitesIn value _ before after e he
        refine ⟨hin, .inr ?_⟩
        rw [Node.sites]
        -- Directly in the value the label around is this one, else it is listed further inside.
        rcases henc with heq | ⟨o, heq, hmem, ho⟩
        · exact ⟨_, heq, by simp, hin⟩
        · exact ⟨o, heq, by simp [hmem], ho⟩
      · exact ⟨⟨rfl, Nat.le_refl _, Nat.le_refl _⟩, .inl rfl⟩

/-- Every listed label stands in the part that has been listed and has its enclosing label. -/
theorem of_mem_sitesIn : ∀ (nodes : List Node) (outer : Option Site) (before after : List Char),
    ∀ e ∈ sitesIn outer before after nodes,
      e.2.In before (rawNodes nodes) after ∧ Encloses outer (sitesIn outer before after nodes) e
  | [], outer, before, after, e, he => by simp [sitesIn] at he
  | node :: nodes, outer, before, after, e, he => by
      rw [sitesIn, List.mem_append] at he
      rw [sitesIn, rawNodes]
      rcases he with he | he
      · obtain ⟨⟨htext, hle, hstop⟩, henc⟩ := node.of_mem_sites outer before _ e he
        refine ⟨⟨by simpa using htext, hle, ?_⟩, henc.mono (List.subset_append_left _ _)⟩
        rw [List.length_append]
        omega
      · obtain ⟨⟨htext, hle, hstop⟩, henc⟩ := of_mem_sitesIn nodes outer _ after e he
        rw [List.length_append] at hle hstop
        refine ⟨⟨by simpa using htext, by omega, ?_⟩, henc.mono (List.subset_append_right _ _)⟩
        rw [List.length_append]
        omega

end

/-! ## The spans of the labels -/

mutual

theorem Node.spans_eq : ∀ (node : Node) (depth : Nat) (outer : Option Site)
    (before after : List Char), (depth == 0) = outer.isNone →
      (node.spans depth before.length).map (fun s => (s.1 == 0, s.2)) =
        (node.sites outer before after).map fun e => (e.1.isNone, e.2.span)
  | .text content, depth, outer, before, after, h => rfl
  | .placeholder head, depth, outer, before, after, h => by
      simp [Node.spans, Node.sites, Site.span, h]
  | .labelled head value, depth, outer, before, after, h => by
      have hinner := spansOf_eq value (depth + 1)
        (some ⟨head, true, before, rawNodes value, after⟩) before after (by simp)
      simp only [Node.spans, Node.sites, List.map_append, hinner]
      simp [Site.span, h]

/-- The spans of an utterance are those of its labels, and the depth tells which of them stand in no
other. -/
theorem spansOf_eq : ∀ (nodes : List Node) (depth : Nat) (outer : Option Site)
    (before after : List Char), (depth == 0) = outer.isNone →
      (spansOf depth before.length nodes).map (fun s => (s.1 == 0, s.2)) =
        (sitesIn outer before after nodes).map fun e => (e.1.isNone, e.2.span)
  | [], depth, outer, before, after, h => rfl
  | node :: nodes, depth, outer, before, after, h => by
      have hrest := spansOf_eq nodes depth outer (before ++ node.raw) after h
      rw [List.length_append] at hrest
      rw [spansOf, sitesIn, List.map_append, List.map_append, hrest,
        node.spans_eq depth outer before _ h]

end

/-- The span of a label in the trimmed text of an utterance. -/
def Site.flatSpan (nodes : List Node) (s : Site) : Span :=
  s.span.shift ((rawNodes nodes).takeWhile isBlank).length (Chars.trim (rawNodes nodes)).length

lemma filter_spans_eq (nodes : List Node) (keep : Bool → Bool) :
    ((spansOf 0 0 nodes).filter fun s => keep (s.1 == 0)).map Prod.snd =
      ((sitesIn none [] [] nodes).filter fun e => keep e.1.isNone).map fun e => e.2.span := by
  have hall := congrArg (fun l => (l.filter fun s => keep s.1).map Prod.snd)
    (spansOf_eq nodes 0 none [] [] rfl)
  simpa [List.filter_map, Function.comp_def] using hall

lemma labels_eq (nodes : List Node) :
    (flatOf nodes).labels = (topSites nodes).map fun e => e.2.flatSpan nodes := by
  have hspans := congrArg (List.map (Span.shift ((rawNodes nodes).takeWhile isBlank).length
    (Chars.trim (rawNodes nodes)).length)) (filter_spans_eq nodes id)
  simpa [flatOf, topSites, Site.flatSpan, Function.comp_def] using hspans

lemma nested_eq (nodes : List Node) :
    (flatOf nodes).nested = (innerSites nodes).map fun e => e.2.flatSpan nodes := by
  have hspans := congrArg (List.map (Span.shift ((rawNodes nodes).takeWhile isBlank).length
    (Chars.trim (rawNodes nodes)).length)) (filter_spans_eq nodes (!·))
  simpa [flatOf, innerSites, Site.flatSpan, Function.comp_def, bne] using hspans

/-! ## What a span covers -/

/-- A span that covers a label in a text from which `leading` and `trailing` have been trimmed
off. -/
structure Site.CoveredBy (s : Site) (leading text trailing : List Char) (span : Span) : Prop where
  head : span.head = s.head
  hasValue : span.hasValue = s.hasValue
  start_le_stop : span.start ≤ span.stop
  stop_le_length : span.stop ≤ text.length
  /-- In front of the span stands what is left of the text before the label. -/
  before : text.take span.start =
    (s.before.drop leading.length).rdrop (trailing.length - (s.content ++ s.after).length)
  /-- The span covers what is left of the label. -/
  content : (text.drop span.start).take (span.stop - span.start) =
    (s.content.drop (leading.length - s.before.length)).rdrop (trailing.length - s.after.length)

/-- The trimmed text with what was trimmed off. -/
lemma exists_trim_eq (cs : List Char) :
    ∃ trailing, (∀ c ∈ cs.takeWhile isBlank ++ trailing, isBlank c) ∧
      cs = cs.takeWhile isBlank ++ Chars.trim cs ++ trailing := by
  refine ⟨(cs.dropWhile isBlank).rtakeWhile isBlank, fun c hc => ?_, ?_⟩
  · rcases List.mem_append.mp hc with hc | hc
    · exact List.mem_takeWhile_imp hc
    · exact List.mem_rtakeWhile_imp hc
  · rw [Chars.trim_eq, List.append_assoc, List.rdropWhile_append_rtakeWhile,
      List.takeWhile_append_dropWhile]

/-- Characters of a part are characters of the whole. -/
lemma take_drop_part (front part back : List Char) {i n : Nat} (hn : n ≤ part.length - i) :
    (part.drop i).take n = ((front ++ part ++ back).drop (front.length + i)).take n := by
  have hdrop : (front ++ part ++ back).drop (front.length + i) =
      part.drop i ++ back.drop (i - part.length) := by
    rw [List.append_assoc, ← List.drop_drop, List.drop_left, List.drop_append]
  rw [hdrop, List.take_append_of_le_length (by rwa [List.length_drop])]

lemma rdrop_drop_part (front part back : List Char) (i j : Nat) :
    (part.drop i).rdrop j =
      ((front ++ part ++ back).drop (front.length + i)).take (part.length - i - j) := by
  rw [List.rdrop, List.length_drop, take_drop_part front part back (by omega)]

/-- A label of the raw text is covered by its span in the trimmed text. -/
lemma Site.covered_shift {s : Site} {leading text trailing : List Char}
    (h : s.before ++ s.content ++ s.after = leading ++ text ++ trailing) :
    s.CoveredBy leading text trailing (s.span.shift leading.length text.length) := by
  have hlength := congrArg List.length h
  simp only [List.length_append] at hlength
  constructor
  case head => rfl
  case hasValue => rfl
  case start_le_stop =>
    simp only [Span.shift, Site.span]
    omega
  case stop_le_length => exact Nat.min_le_right _ _
  case before =>
    -- Both sides are characters of the raw text from the end of `leading` on, and equally many.
    have htext {n : Nat} (hn : n ≤ text.length) :
        text.take n = ((leading ++ text ++ trailing).drop leading.length).take n :=
      take_drop_part leading text trailing (i := 0) hn
    have hbefore := rdrop_drop_part [] s.before (s.content ++ s.after) leading.length
      (trailing.length - (s.content ++ s.after).length)
    rw [List.nil_append, ← List.append_assoc, h, List.length_nil, Nat.zero_add] at hbefore
    rw [hbefore]
    show text.take (min (s.before.length - leading.length) text.length) = _
    rw [htext (by omega), List.length_append]
    congr 1
    omega
  case content =>
    have hcontent := rdrop_drop_part s.before s.content s.after
      (leading.length - s.before.length) (trailing.length - s.after.length)
    rw [h] at hcontent
    rw [hcontent]
    show (text.drop (min (s.before.length - leading.length) text.length)).take
      (min (s.before.length + s.content.length - leading.length) text.length -
        min (s.before.length - leading.length) text.length) = _
    rw [take_drop_part leading text trailing (by omega)]
    -- Equally many characters again; they start at the same place unless there are none.
    have hcount : min (s.before.length + s.content.length - leading.length) text.length -
          min (s.before.length - leading.length) text.length =
        s.content.length - (leading.length - s.before.length) -
          (trailing.length - s.after.length) := by omega
    rw [hcount]
    rcases Nat.eq_zero_or_pos (s.content.length - (leading.length - s.before.length) -
      (trailing.length - s.after.length)) with hnone | hsome
    · rw [hnone, List.take_zero, List.take_zero]
    · congr 2
      omega

/-! ## The faults -/

/-- A label as it opens: the entity of the label in whose value it stands, its own head and whether
it has a value. -/
structure Opening where
  outer : Option String
  head : Head
  hasValue : Bool

mutual

/-- The labels of a node in the order in which they open. -/
def Node.opened (outer : Option String) : Node → List Opening
  | .text _ => []
  | .placeholder head => [⟨outer, head, false⟩]
  | .labelled head value => ⟨outer, head, true⟩ :: openedIn (some head.entity) value

/-- The labels of an utterance in the order in which they open. -/
def openedIn (outer : Option String) : List Node → List Opening
  | [] => []
  | node :: nodes => node.opened outer ++ openedIn outer nodes

end

/-- The fault of a label in the value of another, if it has no value, or has one and labels may not
be nested. -/
def Opening.fault? (allowNested : Bool) (o : Opening) : Option FlattenFault :=
  match o.outer with
  | none => none
  | some outer =>
    if !o.hasValue then some (.placeholderInValue outer o.head.entity)
    else if !allowNested then some (.nestingDisallowed outer o.head.entity)
    else none

mutual

theorem Node.fault?_eq (allowNested : Bool) : ∀ (node : Node) (outer : Option String),
    node.fault? allowNested outer = (node.opened outer).findSome? (Opening.fault? allowNested)
  | .text content, outer => rfl
  | .placeholder head, outer => by cases outer <;> simp [Node.fault?, Node.opened, Opening.fault?]
  | .labelled head value, outer => by
      have hvalue := faultIn_eq allowNested value (some head.entity)
      rw [Node.opened, List.findSome?_cons]
      cases outer with
      | none => exact hvalue
      | some o =>
          cases allowNested with
          | false => rfl
          | true => exact hvalue

/-- The fault of an utterance is that of the first label that offends. -/
theorem faultIn_eq (allowNested : Bool) : ∀ (nodes : List Node) (outer : Option String),
    faultIn allowNested outer nodes =
      (openedIn outer nodes).findSome? (Opening.fault? allowNested)
  | [], outer => rfl
  | node :: nodes, outer => by
      rw [faultIn, openedIn, List.findSome?_append, node.fault?_eq, faultIn_eq allowNested nodes]
      cases (node.opened outer).findSome? (Opening.fault? allowNested) <;> rfl

end

/-! ## The flat utterance -/

/-- What a flat utterance says of the tree that it comes from. -/
structure Flat.Describes (flat : Flat) (nodes : List Node) (leading trailing : List Char) :
    Prop where
  /-- The text is the trimmed raw text. -/
  text : flat.text.toList = Chars.trim (piecesIn nodes).flatten
  /-- What was trimmed off is blank. -/
  trimmed : (piecesIn nodes).flatten = leading ++ flat.text.toList ++ trailing
  blank : ∀ c ∈ leading ++ trailing, isBlank c
  /-- The labels that stand in no other are covered in their order. -/
  labels : List.Forall₂ (fun e span => e.2.CoveredBy leading flat.text.toList trailing span)
    (topSites nodes) flat.labels
  /-- So are the others, each inside the span of the label in whose value it stands. -/
  nested : List.Forall₂ (fun e span => e.2.CoveredBy leading flat.text.toList trailing span ∧
      ∃ outer, e.1 = some outer ∧ ∃ around ∈ flat.labels ++ flat.nested,
        outer.CoveredBy leading flat.text.toList trailing around ∧
          around.start ≤ span.start ∧ span.stop ≤ around.stop)
    (innerSites nodes) flat.nested
  /-- The labels that stand in no other follow one another. -/
  ordered : flat.labels.Pairwise fun a b => a.stop ≤ b.start

lemma flatSpan_mem_flatOf {nodes : List Node} {s : Site}
    (h : s ∈ (sitesIn none [] [] nodes).map Prod.snd) :
    s.flatSpan nodes ∈ (flatOf nodes).labels ++ (flatOf nodes).nested := by
  obtain ⟨⟨outer, site⟩, he, rfl⟩ := List.mem_map.mp h
  rw [labels_eq, nested_eq, List.mem_append]
  cases outer with
  | none => exact .inl (List.mem_map.mpr ⟨_, List.mem_filter.mpr ⟨he, rfl⟩, rfl⟩)
  | some o => exact .inr (List.mem_map.mpr ⟨_, List.mem_filter.mpr ⟨he, rfl⟩, rfl⟩)

/-- **A flat utterance describes its tree.** -/
lemma exists_describes_flatOf (nodes : List Node) :
    ∃ leading trailing, (flatOf nodes).Describes nodes leading trailing := by
  obtain ⟨trailing, hblank, hraw⟩ := exists_trim_eq (rawNodes nodes)
  have htext : (flatOf nodes).text.toList = Chars.trim (rawNodes nodes) := String.toList_ofList
  have hcovered : ∀ e ∈ sitesIn none [] [] nodes,
      e.2.CoveredBy ((rawNodes nodes).takeWhile isBlank) (Chars.trim (rawNodes nodes)) trailing
        (e.2.flatSpan nodes) := by
    intro e he
    have hin := (of_mem_sitesIn nodes none [] [] e he).1.text
    rw [List.nil_append, List.append_nil] at hin
    exact Site.covered_shift (hin.trans hraw)
  refine ⟨(rawNodes nodes).takeWhile isBlank, trailing, ?_⟩
  constructor
  case text => rw [htext, rawNodes_eq]
  case trimmed => rw [htext, ← rawNodes_eq, ← hraw]
  case blank => exact hblank
  case labels =>
    rw [labels_eq, htext, List.forall₂_map_right_iff, List.forall₂_same]
    exact fun e he => hcovered e (List.mem_of_mem_filter he)
  case nested =>
    rw [nested_eq, htext, List.forall₂_map_right_iff, List.forall₂_same]
    intro e he
    obtain ⟨hmem, hinner⟩ := List.mem_filter.mp he
    refine ⟨hcovered e hmem, ?_⟩
    rcases (of_mem_sitesIn nodes none [] [] e hmem).2 with hnone | ⟨outer, heq, houter, hin⟩
    · rw [hnone] at hinner
      cases hinner
    · obtain ⟨e', he', rfl⟩ := List.mem_map.mp houter
      refine ⟨_, heq, e'.2.flatSpan nodes, ?_, hcovered e' he', ?_⟩
      · rw [← nested_eq]
        exact flatSpan_mem_flatOf houter
      · obtain ⟨-, hstart, hstop⟩ := hin
        simp only [Site.flatSpan, Site.span, Span.shift]
        omega
  case ordered => exact pairwise_labels nodes

/-- **Flattening is faithful.**  What it returns describes the tree, and it fails exactly if a label
offends, with the fault of the first label that does. -/
theorem flatten_faithful (nodes : List Node) (allowNested : Bool) :
    (∀ flat, flatten nodes allowNested = .ok flat →
      ∃ leading trailing, flat.Describes nodes leading trailing) ∧
      ∀ fault, flatten nodes allowNested = .error fault ↔
        ∃ earlier opening later, openedIn none nodes = earlier ++ opening :: later ∧
          opening.fault? allowNested = some fault ∧
          ∀ o ∈ earlier, o.fault? allowNested = none := by
  constructor
  · intro flat h
    unfold flatten at h
    split at h
    · cases h
    · obtain rfl : flatOf nodes = flat := Except.ok.inj h
      exact exists_describes_flatOf nodes
  · intro fault
    rw [← List.findSome?_eq_some_iff, ← faultIn_eq, flatten]
    cases faultIn allowNested none nodes <;> simp

/-- Two labels inside a label that starts and ends among the blanks of the utterance. -/
def blankedNodes : List Node :=
  [.text " ", .labelled { entity := "place" }
    [.text " ", .labelled { entity := "city" } [.text "new york "],
      .labelled { entity := "gap" } [.text " "]], .text "  "]

theorem flatten_faithful_blankedNodes :
    ∃ flat leading trailing, flatten blankedNodes true = .ok flat ∧ flat.text = "new york" ∧
      flat.labels = [⟨{ entity := "place" }, true, 0, 8⟩] ∧
      flat.nested = [⟨{ entity := "city" }, true, 0, 8⟩, ⟨{ entity := "gap" }, true, 8, 8⟩] ∧
      flat.Describes blankedNodes leading trailing ∧
      flatten blankedNodes false = .error (.nestingDisallowed "place" "city") := by
  have hok : flatten blankedNodes true = .ok (flatOf blankedNodes) := by decide +kernel
  have herror : flatten blankedNodes false = .error (.nestingDisallowed "place" "city") := by
    decide +kernel
  obtain ⟨leading, trailing, hdescribes⟩ := (flatten_faithful blankedNodes true).1 _ hok
  exact ⟨_, leading, trailing, hok, by decide +kernel, by decide +kernel, by decide +kernel,
    hdescribes, herror⟩

end DialogModel.Utterance
