import DialogModel.Proofs.Outcome
import DialogModel.Proofs.Text.Chars
import DialogModel.Proofs.Utterance.Canonical
import DialogModel.Proofs.Utterance.Descent

/-!
# The language of utterances

Which texts are utterances, said by a grammar.  An utterance is a sequence of items: an escaped
character, a character that stands for itself, a placeholder, or a label with a value, which is
again a sequence of items.  Whether a backslash stands for itself depends on what comes behind it,
and that may be the brace that closes the label around it; so `Items` is about a text and what
stands behind it.

The reader accepts exactly the texts of the grammar (`exists_readChars_iff`).  What is derived is
read item by item (`Items.readOn`).  For the converse `Closes` says what the open labels on the
stack still ask of the text that is left: for each of them a sequence of items and a closing brace.
-/

namespace DialogModel.Utterance

open State Chars

/-! ## The grammar -/

namespace Head

/-- What a head says: the head without the blanks around it, without one leading `@`, and without
the blanks around the rest. -/
def naming (cs : List Char) : List Char :=
  match trim cs with
  | '@' :: rest => trim rest
  | rest => trim rest

/-- A head names an entity, and a role if it has a colon. -/
structure Names (cs : List Char) : Prop where
  entity : trim ((naming cs).takeWhile (· ≠ ':')) ≠ []
  role : ':' ∈ naming cs → trim ((naming cs).dropWhile (· ≠ ':')).tail ≠ []

/-- A head ends at a brace or at `=`. -/
def Unbroken (cs : List Char) : Prop :=
  ∀ c ∈ cs, c ≠ '\x7b' ∧ c ≠ '\x7d' ∧ c ≠ '='

/-- A text that may stand in front of the `=` or of the closing brace of a label. -/
structure IsHead (cs : List Char) : Prop where
  unbroken : Unbroken cs
  names : Names cs

end Head

/-- A text starts with a backslash that escapes the character behind it. -/
def StartsEscape (cs : List Char) : Prop :=
  ∃ c rest, cs = '\\' :: c :: rest ∧ (c = '\x7b' ∨ c = '\x7d' ∨ c = '\\')

/-- `Items text behind`: the text is a sequence of items if `behind` stands behind it. -/
inductive Items : (text behind : List Char) → Prop
  | nil {behind : List Char} : Items [] behind
  | escaped {c : Char} {text behind : List Char} (hc : c = '\x7b' ∨ c = '\x7d' ∨ c = '\\')
      (h : Items text behind) : Items ('\\' :: c :: text) behind
  /-- A character other than a brace that does not start an escape. -/
  | plain {c : Char} {text behind : List Char} (hopen : c ≠ '\x7b') (hclose : c ≠ '\x7d')
      (hescape : ¬ StartsEscape (c :: (text ++ behind))) (h : Items text behind) :
      Items (c :: text) behind
  | placeholder {head text behind : List Char} (hhead : Head.IsHead head) (h : Items text behind) :
      Items ('\x7b' :: (head ++ '\x7d' :: text)) behind
  | labelled {head value text behind : List Char} (hhead : Head.IsHead head)
      (hvalue : Items value ('\x7d' :: (text ++ behind))) (h : Items text behind) :
      Items ('\x7b' :: (head ++ '=' :: (value ++ '\x7d' :: text))) behind

/-- A text of the grammar. -/
def IsUtterance (text : List Char) : Prop :=
  Items text []

/-! ## Heads -/

namespace Head

lemma splitAt_trim (cs : List Char) : (splitAt (trim cs)).2 = naming cs := by
  unfold naming
  split
  · next rest heq => rw [heq, splitAt]
  · next hother =>
    have hat : (trim cs).head? ≠ some '@' := fun hat => by
      obtain ⟨rest, heq⟩ := List.head?_eq_some_iff.mp hat
      exact hother rest heq
    rw [splitAt_of_head?_ne hat, trim_trim]

lemma trim_naming (cs : List Char) : trim (naming cs) = naming cs := by
  unfold naming
  split <;> exact trim_trim _

/-- **A head is read exactly if it names an entity, and a role where it announces one.** -/
lemma exists_read_iff {cs : List Char} : (∃ h, read cs = .ok h) ↔ Names cs := by
  have hread : (∃ h, read cs = .ok h) ↔
      (splitRole (naming cs)).1 ≠ [] ∧ (splitRole (naming cs)).2 ≠ some [] := by
    rw [← splitAt_trim]
    simp only [read]
    split_ifs with hentity hrole
    · simp [List.isEmpty_iff.mp hentity]
    · simp [hrole]
    · simpa [hrole] using hentity
  rw [hread]
  unfold splitRole
  cases hcut : breakAt? ':' (naming cs) with
  | none =>
      have hcolon : ':' ∉ naming cs := breakAt?_eq_none_iff.mp hcut
      have hall : (naming cs).takeWhile (· ≠ ':') = naming cs :=
        List.takeWhile_eq_self_iff.mpr fun c hc => by
          simpa using fun heq : c = ':' => hcolon (heq ▸ hc)
      constructor
      · rintro ⟨hne, -⟩
        refine ⟨?_, fun hmem => absurd hmem hcolon⟩
        rwa [hall, trim_naming]
      · intro h
        have hentity := h.entity
        rw [hall, trim_naming] at hentity
        exact ⟨hentity, by simp⟩
  | some cut =>
      obtain ⟨before, role⟩ := cut
      obtain ⟨hnaming, hbefore⟩ := breakAt?_eq_some_iff.mp hcut
      have hfront : ∀ c ∈ before, decide (c ≠ ':') = true := fun c hc => by
        simpa using fun heq : c = ':' => hbefore (heq ▸ hc)
      have htake : (naming cs).takeWhile (· ≠ ':') = before := by
        rw [hnaming, List.takeWhile_append_of_pos hfront]
        simp
      have hdrop : ((naming cs).dropWhile (· ≠ ':')).tail = role := by
        rw [hnaming, List.dropWhile_append_of_pos hfront]
        simp
      have hcolon : ':' ∈ naming cs := by simp [hnaming]
      constructor
      · rintro ⟨hentity, hrole⟩
        exact ⟨htake ▸ hentity, fun _ => hdrop ▸ by simpa using hrole⟩
      · intro h
        exact ⟨htake ▸ h.entity, by simpa using hdrop ▸ h.role hcolon⟩

end Head

/-! ## Escapes -/

lemma isEscapable_iff {c : Char} : isEscapable c = true ↔ c = '\x7b' ∨ c = '\x7d' ∨ c = '\\' := by
  simp [isEscapable, or_assoc]

lemma startsEscape_cons_iff {c : Char} {rest : List Char} :
    StartsEscape (c :: rest) ↔ c = '\\' ∧ rest.head?.any isEscapable = true := by
  constructor
  · rintro ⟨d, behind, heq, hd⟩
    cases heq
    exact ⟨rfl, by simpa using isEscapable_iff.mpr hd⟩
  · rintro ⟨rfl, hany⟩
    cases rest with
    | nil => simp at hany
    | cons d behind => exact ⟨d, behind, rfl, isEscapable_iff.mp (by simpa using hany)⟩

/-! ## What is derived is read -/

variable {enclosing : List OpenLabel} {nodes res : List Node} {buffer head cs : List Char}

lemma readOn_unbroken {more : List Char} (hmore : Head.Unbroken more) (rest : List Char) :
    readOn ⟨enclosing, nodes, .head head⟩ (more ++ rest) =
      readOn ⟨enclosing, nodes, .head (head ++ more)⟩ rest := by
  induction more generalizing head with
  | nil => simp
  | cons c more ih =>
      obtain ⟨⟨hopen, hclose, hvalue⟩, hmore⟩ := List.forall_mem_cons.mp hmore
      rw [List.cons_append, readOn_head hvalue hclose hopen, ih hmore, List.append_assoc,
        List.singleton_append]

/-- Items are read in text, and text goes on behind them. -/
lemma Items.readOn {text behind : List Char} (h : Items text behind) :
    ∀ (enclosing : List OpenLabel) (nodes : List Node) (buffer : List Char),
      ∃ nodes' buffer', State.readOn ⟨enclosing, nodes, .text buffer⟩ (text ++ behind) =
        State.readOn ⟨enclosing, nodes', .text buffer'⟩ behind := by
  induction h with
  | nil => exact fun enclosing nodes buffer => ⟨nodes, buffer, rfl⟩
  | @escaped c text behind hc _ ih =>
      intro enclosing nodes buffer
      rw [List.cons_append, List.cons_append, readOn_escaped (isEscapable_iff.mpr hc)]
      exact ih enclosing nodes (buffer ++ [c])
  | @plain c text behind hopen hclose hescape _ ih =>
      intro enclosing nodes buffer
      rw [List.cons_append, readOn_plain (startsEscape_cons_iff.not.mp hescape) hopen hclose]
      exact ih enclosing nodes (buffer ++ [c])
  | @placeholder head text behind hhead _ ih =>
      intro enclosing nodes buffer
      obtain ⟨h, hread⟩ := Head.exists_read_iff.mpr hhead.names
      rw [List.cons_append, List.append_assoc, List.cons_append, readOn_open,
        readOn_unbroken hhead.unbroken, readOn_placeholder, List.nil_append, hread]
      exact ih enclosing (flush nodes buffer ++ [.placeholder h]) []
  | @labelled head value text behind hhead _ _ ihvalue ih =>
      intro enclosing nodes buffer
      obtain ⟨h, hread⟩ := Head.exists_read_iff.mpr hhead.names
      obtain ⟨nodes₁, buffer₁, hvalue⟩ :=
        ihvalue (⟨flush nodes buffer, head⟩ :: enclosing) [] []
      obtain ⟨nodes₂, buffer₂, htext⟩ :=
        ih enclosing (flush nodes buffer ++ [.labelled h (flush nodes₁ buffer₁)]) []
      refine ⟨nodes₂, buffer₂, ?_⟩
      rw [List.cons_append, List.append_assoc, List.cons_append, List.append_assoc,
        List.cons_append, readOn_open, readOn_unbroken hhead.unbroken, readOn_value,
        List.nil_append, hvalue, readOn_close, leave, hread, ← htext]
      rfl

/-! ## What is read is derived -/

/-- What a text has to be inside labels with these heads, the innermost first: for each label a
sequence of items and a closing brace, and behind them a sequence of items. -/
def Closes : (heads : List (List Char)) → (text : List Char) → Prop
  | [], text => Items text []
  | head :: outer, text => ∃ value behind, text = value ++ '\x7d' :: behind ∧
      Items value ('\x7d' :: behind) ∧ Head.Names head ∧ Closes outer behind

/-- An item may be put in front. -/
lemma Closes.prepend {heads : List (List Char)} {text : List Char} (h : Closes heads text)
    (item : List Char)
    (hitem : ∀ ws behind, text = ws ++ behind → Items ws behind → Items (item ++ ws) behind) :
    Closes heads (item ++ text) := by
  cases heads with
  | nil => exact hitem text [] (by simp) h
  | cons head outer =>
      obtain ⟨value, behind, rfl, hvalue, hhead, hbehind⟩ := h
      exact ⟨item ++ value, behind, by simp, hitem value _ rfl hvalue, hhead, hbehind⟩

/-- A head that is read ends at a closing brace or at `=`. -/
lemma exists_of_readOn_head (h : readOn ⟨enclosing, nodes, .head head⟩ cs = .ok res) :
    ∃ more behind, Head.Unbroken more ∧
      ((cs = more ++ '\x7d' :: behind ∧ ∃ node, Head.Names (head ++ more) ∧
          readOn ⟨enclosing, nodes ++ [node], .text []⟩ behind = .ok res) ∨
        cs = more ++ '=' :: behind ∧
          readOn ⟨⟨nodes, head ++ more⟩ :: enclosing, [], .text []⟩ behind = .ok res) := by
  induction cs generalizing head with
  | nil => cases h
  | cons c cs ih =>
      by_cases hclose : c = '\x7d'
      · subst hclose
        rw [readOn_placeholder] at h
        obtain ⟨hd, hread, h⟩ := bind_eq_ok_iff.mp h
        refine ⟨[], cs, nofun, .inl ⟨rfl, .placeholder hd, ?_, h⟩⟩
        exact Head.exists_read_iff.mp ⟨hd, by simpa using hread⟩
      by_cases hvalue : c = '='
      · subst hvalue
        rw [readOn_value] at h
        exact ⟨[], cs, nofun, .inr ⟨rfl, by simpa using h⟩⟩
      by_cases hopen : c = '\x7b'
      · subst hopen
        rw [readOn_braceInHead] at h
        cases h
      rw [readOn_head hvalue hclose hopen] at h
      obtain ⟨more, behind, hmore, hends⟩ := ih h
      simp only [List.append_assoc, List.singleton_append] at hends
      refine ⟨c :: more, behind, List.forall_mem_cons.mpr ⟨⟨hopen, hclose, hvalue⟩, hmore⟩, ?_⟩
      simpa using hends

/-- The text behind an opening brace that is read is the rest of a label and what follows it. -/
lemma closes_label {heads : List (List Char)} {more behind : List Char}
    (hmore : Head.Unbroken more) (h : Closes (more :: heads) behind) :
    Closes heads ('\x7b' :: (more ++ '=' :: behind)) := by
  obtain ⟨value, rest, rfl, hvalue, hnames, hrest⟩ := h
  have hput := hrest.prepend ('\x7b' :: (more ++ '=' :: (value ++ ['\x7d']))) ?_
  · simpa using hput
  · rintro ws behind rfl hws
    simpa using Items.labelled ⟨hmore, hnames⟩ hvalue hws

/-- **What is read from a state closes its labels.** -/
lemma closes_of_readOn (h : readOn ⟨enclosing, nodes, .text buffer⟩ cs = .ok res) :
    Closes (enclosing.map OpenLabel.head) cs := by
  -- A label goes on behind its value, so the induction is on the length of what is left.
  induction hlength : cs.length using Nat.strongRecOn generalizing enclosing nodes buffer cs with
  | _ n ih =>
      subst hlength
      cases cs with
      | nil =>
          cases enclosing with
          | nil => exact .nil
          | cons label outer => cases h
      | cons c cs =>
          by_cases hescape : StartsEscape (c :: cs)
          · obtain ⟨d, rest, heq, hd⟩ := hescape
            cases heq
            rw [readOn_escaped (isEscapable_iff.mpr hd)] at h
            have hrest := ih rest.length (by simp only [List.length_cons]; omega) h rfl
            exact hrest.prepend ['\\', d] fun ws behind _ hws => .escaped hd hws
          by_cases hopen : c = '\x7b'
          · subst hopen
            rw [readOn_open] at h
            obtain ⟨more, behind, hmore, ⟨rfl, node, hnames, hread⟩ | ⟨rfl, hread⟩⟩ :=
              exists_of_readOn_head h
            · have hbehind := ih behind.length (by simp; omega) hread rfl
              have hput := hbehind.prepend ('\x7b' :: (more ++ ['\x7d'])) fun ws rest _ hws => by
                simpa using Items.placeholder ⟨hmore, hnames⟩ hws
              simpa using hput
            · exact closes_label hmore (ih behind.length (by simp; omega) hread rfl)
          by_cases hclose : c = '\x7d'
          · subst hclose
            cases enclosing with
            | nil =>
                rw [readOn_unbalanced] at h
                cases h
            | cons label outer =>
                rw [readOn_close, leave] at h
                obtain ⟨hd, hread, h⟩ := bind_eq_ok_iff.mp h
                exact ⟨[], cs, rfl, .nil, Head.exists_read_iff.mp ⟨hd, hread⟩,
                  ih cs.length (by simp) h rfl⟩
          rw [readOn_plain (startsEscape_cons_iff.not.mp hescape) hopen hclose] at h
          have hrest := ih cs.length (by simp) h rfl
          exact hrest.prepend [c] fun ws behind heq hws => .plain hopen hclose (heq ▸ hescape) hws

/-! ## The reader and the grammar -/

lemma exists_readChars_iff {cs : List Char} :
    (∃ nodes, readChars cs = .ok nodes) ↔ IsUtterance cs := by
  constructor
  · rintro ⟨nodes, h⟩
    have hread : readOn ⟨[], [], .text []⟩ cs = .ok nodes := h
    exact closes_of_readOn hread
  · intro h
    obtain ⟨nodes, buffer, hread⟩ := Items.readOn h [] [] []
    rw [List.append_nil] at hread
    exact ⟨flush nodes buffer, hread⟩

instance (cs : List Char) : Decidable (IsUtterance cs) :=
  decidable_of_iff ((readChars cs).toOption.isSome = true) <| by
    rw [← exists_readChars_iff]
    cases readChars cs <;> simp [Except.toOption]

/-- **The reader accepts the language of utterances and nothing else.** -/
theorem read_accepts_language (text : String) :
    ((∃ nodes, read text = .ok nodes) ↔ IsUtterance text.toList) ∧
      ((∃ fault, read text = .error fault) ↔ ¬ IsUtterance text.toList) := by
  rw [← exists_readChars_iff]
  refine ⟨Iff.rfl, ?_⟩
  unfold read
  cases readChars text.toList <;> simp

-- In the second text the backslash escapes the brace that would close the label.
example : IsUtterance "\\\x7b \x7b@to: x\\ =New \x7bstate=York\x7d\x7d".toList ∧
    ¬ IsUtterance "\x7bcity=Rome\\\x7d".toList := by
  decide

end DialogModel.Utterance
