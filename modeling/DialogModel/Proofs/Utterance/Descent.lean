import Mathlib.Data.List.Basic
import Mathlib.Tactic.Common
import DialogModel.Utterance.Reader

/-!
# Reading an utterance by position

`Utterance.read` goes through a text once and keeps the open labels on a stack.  `readAt?` is a
recursive descent over the positions of the text: nodes are read up to a closing brace, and a label
reads the nodes of its value by a call.  It has no result if it takes a character at a position that
the text does not have, or if it skips, behind the value of a label, anything but a closing brace.

Neither happens, and the two readers agree (`readAt?_eq`).  The invariant says what reading on from
a state of the stack has to do with one call: it is the call, and then reading on behind it
(`NodesRead`, `LabelRead`).  A call that returns nodes inside a label stops at a closing brace,
which is what makes the skip safe.
-/

namespace DialogModel.Utterance

open State

/-! ## The descent -/

mutual

/-- The nodes from a position on, behind those that are read already, and the position where they
end.  `fuel` bounds the number of calls inside one another. -/
def nodesAt? (cs : List Char) : (fuel : Nat) → (inLabel : Bool) → (pos : Nat) →
    (nodes : List Node) → (buffer : List Char) → Option (Except Fault (List Node × Nat))
  | 0, _, _, _, _ => none
  | fuel + 1, inLabel, pos, nodes, buffer =>
    if pos < cs.length then do
      let c ← cs[pos]?
      if c = '\\' ∧ cs[pos + 1]?.any isEscapable = true then do
        let escaped ← cs[pos + 1]?
        nodesAt? cs fuel inLabel (pos + 2) nodes (buffer ++ [escaped])
      else if c = '\x7b' then do
        match ← labelAt? cs fuel (pos + 1) [] with
        | .error fault => some (.error fault)
        | .ok (label, pos) => nodesAt? cs fuel inLabel pos (flush nodes buffer ++ [label]) []
      else if c = '\x7d' then
        some (if inLabel then .ok (flush nodes buffer, pos) else .error .unbalanced)
      else nodesAt? cs fuel inLabel (pos + 1) nodes (buffer ++ [c])
    else some (if inLabel then .error .unterminated else .ok (flush nodes buffer, pos))

/-- The label whose head goes on at a position, and the position behind its closing brace. -/
def labelAt? (cs : List Char) : (fuel : Nat) → (pos : Nat) → (head : List Char) →
    Option (Except Fault (Node × Nat))
  | 0, _, _ => none
  | fuel + 1, pos, head =>
    match cs[pos]? with
    | none => some (.error .unterminated)
    | some c =>
      if c = '=' then do
        match ← nodesAt? cs fuel true (pos + 1) [] [] with
        | .error fault => some (.error fault)
        | .ok (value, stop) =>
          -- Only a closing brace may be skipped.
          if cs[stop]? = some '\x7d' then
            some ((Head.read head).map fun h => (.labelled h value, stop + 1))
          else none
      else if c = '\x7d' then some ((Head.read head).map fun h => (.placeholder h, pos + 1))
      else if c = '\x7b' then some (.error (.braceInHead (String.ofList head)))
      else labelAt? cs fuel (pos + 1) (head ++ [c])

end

/-- The utterance written as a text, read by position. -/
def readAt? (text : String) : Option (Except Fault (List Node)) :=
  (nodesAt? text.toList (text.toList.length + 1) false 0 [] []).map fun r => r.map Prod.fst

/-! ## Reading on from a state -/

namespace State

/-- Reads the rest of a text. -/
def readOn (s : State) (rest : List Char) : Except Fault (List Node) := do
  let s ← rest.foldlM step s
  s.finish

lemma readOn_cons (s : State) (c : Char) (rest : List Char) :
    s.readOn (c :: rest) = (s.step c).bind fun s => s.readOn rest := by
  unfold readOn
  rw [List.foldlM_cons]
  cases s.step c <;> rfl

/-- Reads on behind the nodes inside the innermost label, from its closing brace; outside labels
these nodes are the utterance. -/
def leave (value : List Node) (rest : List Char) : List OpenLabel → Except Fault (List Node)
  | [] => .ok value
  | label :: outer => (Head.read label.head).bind fun head =>
      readOn ⟨outer, label.before ++ [.labelled head value], .text []⟩ (rest.drop 1)

variable {enclosing : List OpenLabel} {nodes : List Node} {buffer head rest : List Char} {c : Char}

lemma readOn_escaped (hc : isEscapable c = true) :
    readOn ⟨enclosing, nodes, .text buffer⟩ ('\\' :: c :: rest) =
      readOn ⟨enclosing, nodes, .text (buffer ++ [c])⟩ rest := by
  simp [readOn_cons, step, stepText, Except.bind, hc]

/-- A backslash that escapes nothing is text, at the end of a text as well. -/
lemma readOn_escape (hrest : rest.head?.any isEscapable = false) :
    readOn ⟨enclosing, nodes, .escape buffer⟩ rest =
      readOn ⟨enclosing, nodes, .text (buffer ++ ['\\'])⟩ rest := by
  cases rest with
  | nil => cases enclosing <;> rfl
  | cons c rest =>
      have hc : isEscapable c = false := by simpa using hrest
      rw [readOn_cons, readOn_cons]
      simp only [step, hc, Bool.false_eq_true, if_false]
      rfl

lemma readOn_plain (hescape : ¬ (c = '\\' ∧ rest.head?.any isEscapable = true))
    (hopen : c ≠ '\x7b') (hclose : c ≠ '\x7d') :
    readOn ⟨enclosing, nodes, .text buffer⟩ (c :: rest) =
      readOn ⟨enclosing, nodes, .text (buffer ++ [c])⟩ rest := by
  by_cases hc : c = '\\'
  · subst hc
    have hrest : rest.head?.any isEscapable = false := by simpa using hescape
    rw [← readOn_escape hrest, readOn_cons]
    rfl
  · simp [readOn_cons, step, stepText, Except.bind, hc, hopen, hclose]

lemma readOn_open :
    readOn ⟨enclosing, nodes, .text buffer⟩ ('\x7b' :: rest) =
      readOn ⟨enclosing, flush nodes buffer, .head []⟩ rest := by
  simp [readOn_cons, step, stepText, Except.bind]

lemma readOn_close {label : OpenLabel} {outer : List OpenLabel} :
    readOn ⟨label :: outer, nodes, .text buffer⟩ ('\x7d' :: rest) =
      leave (flush nodes buffer) ('\x7d' :: rest) (label :: outer) := by
  rw [readOn_cons, leave]
  simp only [step, stepText]
  cases Head.read label.head <;> rfl

lemma readOn_unbalanced :
    readOn ⟨[], nodes, .text buffer⟩ ('\x7d' :: rest) = .error .unbalanced := by
  simp [readOn_cons, step, stepText, Except.bind]

lemma readOn_head (hvalue : c ≠ '=') (hclose : c ≠ '\x7d') (hopen : c ≠ '\x7b') :
    readOn ⟨enclosing, nodes, .head head⟩ (c :: rest) =
      readOn ⟨enclosing, nodes, .head (head ++ [c])⟩ rest := by
  simp [readOn_cons, step, stepHead, Except.bind, hvalue, hclose, hopen]

lemma readOn_value :
    readOn ⟨enclosing, nodes, .head head⟩ ('=' :: rest) =
      readOn ⟨⟨nodes, head⟩ :: enclosing, [], .text []⟩ rest := by
  simp [readOn_cons, step, stepHead, Except.bind]

lemma readOn_placeholder :
    readOn ⟨enclosing, nodes, .head head⟩ ('\x7d' :: rest) =
      (Head.read head).bind fun h =>
        readOn ⟨enclosing, nodes ++ [.placeholder h], .text []⟩ rest := by
  rw [readOn_cons]
  simp only [step, stepHead]
  cases Head.read head <;> rfl

lemma readOn_braceInHead :
    readOn ⟨enclosing, nodes, .head head⟩ ('\x7b' :: rest) =
      .error (.braceInHead (String.ofList head)) := by
  simp [readOn_cons, step, stepHead, Except.bind]

end State

/-! ## The agreement -/

/-- A call reads nodes as the stack does: reading on from its start is the call, and then reading on
behind it.  Inside a label the call ends at a closing brace. -/
def NodesRead (cs : List Char) (inLabel : Bool) (pos : Nat) (nodes : List Node)
    (buffer : List Char) (call : Option (Except Fault (List Node × Nat))) : Prop :=
  ∃ r, call = some r ∧
    (∀ value stop, r = .ok (value, stop) →
      pos ≤ stop ∧ (inLabel = true → cs[stop]? = some '\x7d')) ∧
    ∀ enclosing : List OpenLabel, enclosing.isEmpty = !inLabel →
      readOn ⟨enclosing, nodes, .text buffer⟩ (cs.drop pos) =
        r.bind fun (value, stop) => leave value (cs.drop stop) enclosing

/-- A call reads a label as the stack does. -/
def LabelRead (cs : List Char) (pos : Nat) (head : List Char)
    (call : Option (Except Fault (Node × Nat))) : Prop :=
  ∃ r, call = some r ∧
    (∀ node stop, r = .ok (node, stop) → pos < stop) ∧
    ∀ (enclosing : List OpenLabel) (nodes : List Node),
      readOn ⟨enclosing, nodes, .head head⟩ (cs.drop pos) =
        r.bind fun (node, stop) => readOn ⟨enclosing, nodes ++ [node], .text []⟩ (cs.drop stop)

/-- Both calls agree with the stack wherever the fuel is more than the characters that are left. -/
structure Agree (cs : List Char) (fuel : Nat) : Prop where
  nodes : ∀ (inLabel : Bool) (pos : Nat) (nodes : List Node) (buffer : List Char),
    cs.length - pos < fuel →
      NodesRead cs inLabel pos nodes buffer (nodesAt? cs fuel inLabel pos nodes buffer)
  label : ∀ (pos : Nat) (head : List Char), cs.length - pos < fuel →
    LabelRead cs pos head (labelAt? cs fuel pos head)

variable {cs : List Char} {fuel : Nat} {inLabel : Bool} {pos : Nat}

/-- A call that goes on as the stack does agrees if the call that it goes on with does. -/
lemma NodesRead.of_readOn {nodes nodes' : List Node} {buffer buffer' : List Char} {pos' : Nat}
    {call : Option (Except Fault (List Node × Nat))}
    (h : NodesRead cs inLabel pos' nodes' buffer' call) (hpos : pos ≤ pos')
    (hread : ∀ enclosing, readOn ⟨enclosing, nodes, .text buffer⟩ (cs.drop pos) =
      readOn ⟨enclosing, nodes', .text buffer'⟩ (cs.drop pos')) :
    NodesRead cs inLabel pos nodes buffer call := by
  obtain ⟨r, hr, hstop, hbehind⟩ := h
  refine ⟨r, hr, fun value stop heq => ?_, fun enclosing henc => ?_⟩
  · obtain ⟨hle, hbrace⟩ := hstop value stop heq
    exact ⟨by omega, hbrace⟩
  · rw [hread, hbehind enclosing henc]

/-- A call that ends a label agrees if the stack reads the head and goes on behind the label. -/
lemma LabelRead.of_head {head : List Char} {node : Head → Node} {stop : Nat} (hpos : pos < stop)
    (hread : ∀ enclosing nodes, readOn ⟨enclosing, nodes, .head head⟩ (cs.drop pos) =
      (Head.read head).bind fun h =>
        readOn ⟨enclosing, nodes ++ [node h], .text []⟩ (cs.drop stop)) :
    LabelRead cs pos head (some ((Head.read head).map fun h => (node h, stop))) := by
  refine ⟨_, rfl, ?_, fun enclosing nodes => ?_⟩
  · intro found behind heq
    cases hhead : Head.read head with
    | error fault => simp [hhead, Except.map] at heq
    | ok h =>
        simp only [hhead, Except.map, Except.ok.injEq, Prod.mk.injEq] at heq
        omega
  · rw [hread]
    cases Head.read head <;> rfl

lemma drop_eq_cons {c : Char} {rest : List Char} (h : cs.drop pos = c :: rest) :
    pos < cs.length ∧ cs[pos]? = some c ∧ cs[pos + 1]? = rest.head? ∧ cs.drop (pos + 1) = rest := by
  have hrest : cs.drop (pos + 1) = rest := by
    rw [← List.drop_drop, h, List.drop_one, List.tail_cons]
  have hlt : pos < cs.length := by
    by_contra hge
    rw [List.drop_eq_nil_of_le (by omega)] at h
    cases h
  refine ⟨hlt, ?_, ?_, hrest⟩
  · rw [← List.head?_drop, h, List.head?_cons]
  · rw [← List.head?_drop, hrest]

/-- At the end of the text no label may be open. -/
lemma nodesRead_of_drop_eq_nil (nodes : List Node) (buffer : List Char) (h : cs.drop pos = []) :
    NodesRead cs inLabel pos nodes buffer
      (some (if inLabel then .error .unterminated else .ok (flush nodes buffer, pos))) := by
  unfold NodesRead
  rw [h]
  cases inLabel with
  | true =>
      refine ⟨_, rfl, nofun, fun enclosing henc => ?_⟩
      obtain ⟨label, outer, rfl⟩ := List.exists_cons_of_ne_nil (by simpa using henc)
      rfl
  | false =>
      refine ⟨_, rfl, ?_, fun enclosing henc => ?_⟩
      · rintro value stop ⟨rfl, rfl⟩
        exact ⟨Nat.le_refl _, nofun⟩
      · obtain rfl : enclosing = [] := by simpa using henc
        rfl

/-- A closing brace ends the nodes of a label and stands nowhere else. -/
lemma nodesRead_of_close (nodes : List Node) (buffer : List Char) {rest : List Char}
    (h : cs.drop pos = '\x7d' :: rest) :
    NodesRead cs inLabel pos nodes buffer
      (some (if inLabel then .ok (flush nodes buffer, pos) else .error .unbalanced)) := by
  cases inLabel with
  | true =>
      refine ⟨_, rfl, ?_, fun enclosing henc => ?_⟩
      · rintro value stop ⟨rfl, rfl⟩
        exact ⟨Nat.le_refl _, fun _ => (drop_eq_cons h).2.1⟩
      · obtain ⟨label, outer, rfl⟩ := List.exists_cons_of_ne_nil (by simpa using henc)
        show _ = leave (flush nodes buffer) (cs.drop pos) (label :: outer)
        rw [h, readOn_close]
  | false =>
      refine ⟨_, rfl, nofun, fun enclosing henc => ?_⟩
      obtain rfl : enclosing = [] := by simpa using henc
      rw [h]
      exact readOn_unbalanced

lemma Agree.nodes_succ (hagree : Agree cs fuel) (nodes : List Node) (buffer : List Char)
    (hfuel : cs.length - pos < fuel + 1) :
    NodesRead cs inLabel pos nodes buffer (nodesAt? cs (fuel + 1) inLabel pos nodes buffer) := by
  cases hdrop : cs.drop pos with
  | nil =>
      have hlen : ¬ pos < cs.length := by
        have := List.drop_eq_nil_iff.mp hdrop
        omega
      rw [nodesAt?, if_neg hlen]
      exact nodesRead_of_drop_eq_nil nodes buffer hdrop
  | cons c rest =>
      obtain ⟨hlt, hat, hnext, hrest⟩ := drop_eq_cons hdrop
      rw [nodesAt?, if_pos hlt, hat]
      simp only [Option.bind_eq_bind, Option.bind_some, hnext]
      by_cases hescape : c = '\\' ∧ rest.head?.any isEscapable = true
      · obtain ⟨rfl, hany⟩ := hescape
        cases rest with
        | nil => simp at hany
        | cons d behind =>
            have hd : isEscapable d = true := by simpa using hany
            rw [if_pos ⟨rfl, hany⟩]
            refine (hagree.nodes inLabel (pos + 2) nodes (buffer ++ [d]) (by omega)).of_readOn
              (by omega) fun enclosing => ?_
            rw [hdrop, readOn_escaped hd, (drop_eq_cons hrest).2.2.2]
      by_cases hopen : c = '\x7b'
      · subst hopen
        obtain ⟨r, hr, hpos, hread⟩ := hagree.label (pos + 1) [] (by omega)
        rw [if_neg hescape, if_pos rfl, hr]
        cases r with
        | error fault =>
            refine ⟨.error fault, rfl, nofun, fun enclosing _ => ?_⟩
            rw [hdrop, readOn_open, ← hrest, hread]
            rfl
        | ok found =>
            obtain ⟨label, behind⟩ := found
            have hbehind := hpos label behind rfl
            refine (hagree.nodes inLabel behind (flush nodes buffer ++ [label]) []
              (by omega)).of_readOn (by omega) fun enclosing => ?_
            rw [hdrop, readOn_open, ← hrest, hread]
            rfl
      by_cases hclose : c = '\x7d'
      · subst hclose
        rw [if_neg hescape, if_neg hopen, if_pos rfl]
        exact nodesRead_of_close nodes buffer hdrop
      rw [if_neg hescape, if_neg hopen, if_neg hclose]
      refine (hagree.nodes inLabel (pos + 1) nodes (buffer ++ [c]) (by omega)).of_readOn
        (by omega) fun enclosing => ?_
      rw [hdrop, readOn_plain hescape hopen hclose, hrest]

lemma Agree.label_succ (hagree : Agree cs fuel) (head : List Char)
    (hfuel : cs.length - pos < fuel + 1) :
    LabelRead cs pos head (labelAt? cs (fuel + 1) pos head) := by
  cases hdrop : cs.drop pos with
  | nil =>
      have hat : cs[pos]? = none := List.getElem?_eq_none (List.drop_eq_nil_iff.mp hdrop)
      simp only [labelAt?, hat]
      refine ⟨_, rfl, nofun, fun _ _ => ?_⟩
      rw [hdrop]
      rfl
  | cons c rest =>
      obtain ⟨hlt, hat, -, hrest⟩ := drop_eq_cons hdrop
      simp only [labelAt?, hat]
      by_cases hvalue : c = '='
      · subst hvalue
        obtain ⟨r, hr, hstop, hread⟩ := hagree.nodes true (pos + 1) [] [] (by omega)
        -- The value is read inside the label that the head opens.
        have hbehind : ∀ enclosing nodes,
            readOn ⟨enclosing, nodes, .head head⟩ (cs.drop pos) = r.bind fun (value, stop) =>
              leave value (cs.drop stop) (⟨nodes, head⟩ :: enclosing) := by
          intro enclosing nodes
          rw [hdrop, readOn_value, ← hrest]
          exact hread _ rfl
        rw [if_pos rfl, hr]
        cases r with
        | error fault => exact ⟨.error fault, rfl, nofun, hbehind⟩
        | ok found =>
            obtain ⟨value, stop⟩ := found
            obtain ⟨hle, hbrace⟩ := hstop value stop rfl
            have hskip : (cs.drop stop).drop 1 = cs.drop (stop + 1) := List.drop_drop
            simp only [Option.bind_eq_bind, Option.bind_some, hbrace rfl, if_true]
            refine .of_head (by omega) fun enclosing nodes => ?_
            rw [hbehind, ← hskip]
            rfl
      by_cases hclose : c = '\x7d'
      · subst hclose
        rw [if_neg hvalue, if_pos rfl]
        refine .of_head (by omega) fun enclosing nodes => ?_
        rw [hdrop, readOn_placeholder, hrest]
      by_cases hopen : c = '\x7b'
      · subst hopen
        rw [if_neg hvalue, if_neg hclose, if_pos rfl]
        refine ⟨_, rfl, nofun, fun _ _ => ?_⟩
        rw [hdrop]
        exact readOn_braceInHead
      rw [if_neg hvalue, if_neg hclose, if_neg hopen]
      obtain ⟨r, hr, hpos, hread⟩ := hagree.label (pos + 1) (head ++ [c]) (by omega)
      refine ⟨r, hr, fun node stop heq => ?_, fun enclosing nodes => ?_⟩
      · have := hpos node stop heq
        omega
      · rw [hdrop, readOn_head hvalue hclose hopen, ← hread, hrest]

lemma agree (cs : List Char) (fuel : Nat) : Agree cs fuel := by
  induction fuel with
  | zero => exact ⟨fun _ _ _ _ h => absurd h (by omega), fun _ _ h => absurd h (by omega)⟩
  | succ fuel ih => exact ⟨fun _ _ => ih.nodes_succ, fun _ => ih.label_succ⟩

/-- **The descent reads what the stack reads**, with as many calls inside one another as the text
has characters. -/
lemma readAt?_eq (text : String) : readAt? text = some (read text) := by
  obtain ⟨r, hr, -, hread⟩ :=
    (agree text.toList (text.toList.length + 1)).nodes false 0 [] [] (by omega)
  have hstack : read text = r.bind fun (value, stop) => leave value (text.toList.drop stop) [] :=
    hread [] rfl
  rw [readAt?, hr, hstack]
  cases r <;> rfl

end DialogModel.Utterance
