import Mathlib.Tactic.Common
import DialogModel.Section

/-!
# The items of a section

A section grows by items: utterances, body lines, wordings, filters and an answer.  The front end
has one operation for each, and `Section.add` puts them together.  `Section.contents` is the view of
a section as the list of its bullets, and `contents_add` says what an item does to it, provided that
the section has room for the item (`Section.accepts`).  Without room the item is lost: the
operations leave the section as it is and report nothing.
-/

namespace DialogModel.Section

/-- What a line below a header gives to the section of the header. -/
inductive Item
  | utterance (line : UtteranceLine)
  | bodyLine (line : BodyLine)
  | wording (text : String)
  | filter (filter : String × String)
  | answer (text : String)
  deriving DecidableEq, Repr

namespace Item

/-- Whether the item is a bullet. -/
def isBullet : Item → Bool
  | .answer _ => false
  | _ => true

def wording? : Item → Option String
  | .wording text => some text
  | _ => none

def filter? : Item → Option (String × String)
  | .filter f => some f
  | _ => none

def answer? : Item → Option String
  | .answer text => some text
  | _ => none

end Item

/-- Gives an item to a section; a section that cannot hold it stays as it is. -/
def add (s : Section) : Item → Section
  | .utterance line => s.addUtterance line
  | .bodyLine line => s.addBodyLine line
  | .wording text => s.addQuestion text
  | .filter filter => s.addFilter filter
  | .answer text => s.setAnswer text

/-- The bullets that a section holds.  The first wording of a question is its header. -/
def contents : Section → List Item
  | .intent s => s.utterances.map .utterance
  | .newEntity s => (s.definition.elim [] Definition.lines).map .bodyLine
  | .legacyEntity s => s.lines.map .bodyLine
  | .question s => s.questions.tail.map .wording ++ s.filters.map .filter
  | .modelInfo _ | .importLink _ => []

/-- Whether a section has room for an item.  A question takes no wording after its filters. -/
def accepts : Section → Item → Bool
  | .intent _, .utterance _ => true
  | .newEntity s, .bodyLine _ => s.definition.isSome
  | .legacyEntity _, .bodyLine _ => true
  | .question s, .wording _ => !s.questions.isEmpty && s.filters.isEmpty
  | .question _, .filter _ => true
  | .question _, .answer _ => true
  | _, _ => false

variable {s : Section} {i : Item}

/-! ## One item -/

@[simp] lemma prov_add : (s.add i).prov = s.prov := by
  cases i <;> cases s <;> rfl

lemma add_modelInfo (info : ModelInfo) : (modelInfo info).add i = modelInfo info := by
  cases i <;> rfl

/-- **An item that a section has room for becomes the last of its contents.** -/
lemma contents_add (h : s.accepts i) :
    (s.add i).contents = s.contents ++ if i.isBullet then [i] else [] := by
  cases s with
  | modelInfo | importLink => cases i <;> cases h
  | intent | legacyEntity =>
      cases i <;> simp_all [accepts, add, addUtterance, addBodyLine, contents, Item.isBullet]
  | newEntity e =>
      cases i <;> simp_all [accepts]
      obtain ⟨d, hd⟩ := Option.isSome_iff_exists.mp h
      simp [add, addBodyLine, contents, hd, Item.isBullet]
  | question q =>
      cases i with
      | utterance | bodyLine => cases h
      | wording text =>
          simp only [accepts, Bool.and_eq_true, Bool.not_eq_true', List.isEmpty_iff,
            List.isEmpty_eq_false_iff] at h
          simp [add, addQuestion, contents, h.2, List.tail_append_of_ne_nil h.1, Item.isBullet]
      | filter f => simp [add, addFilter, contents, Item.isBullet]
      | answer text => simp [add, setAnswer, contents, Item.isBullet]

/-- An item takes no room from another, but that a filter ends the wordings. -/
lemma accepts_add {j : Item} (h : s.accepts i) (hfilter : i.wording?.isSome → j.filter? = none) :
    (s.add j).accepts i := by
  cases s with
  | modelInfo | importLink => cases h
  | intent | legacyEntity => cases i <;> cases j <;> first | rfl | cases h
  | newEntity e =>
      cases i <;> cases j <;> simp_all [add, accepts, addUtterance, addBodyLine, addQuestion,
        addFilter, setAnswer]
  | question q =>
      cases i <;> cases j <;> simp_all [add, accepts, addUtterance, addBodyLine, addQuestion,
        addFilter, setAnswer, Item.wording?, Item.filter?]

/-! ## A list of items -/

lemma prov_foldl_add (items : List Item) (s : Section) : (items.foldl add s).prov = s.prov := by
  induction items generalizing s with
  | nil => rfl
  | cons i items ih => simp [ih]

lemma accepts_foldl_add {items : List Item} (h : s.accepts i)
    (hfilter : i.wording?.isSome → items.filterMap Item.filter? = []) :
    (items.foldl add s).accepts i := by
  induction items generalizing s with
  | nil => exact h
  | cons j items ih =>
      have hj : i.wording?.isSome → j.filter? = none ∧ items.filterMap Item.filter? = [] := by
        intro hi
        have hnil := hfilter hi
        rw [List.filterMap_cons] at hnil
        split at hnil
        · next hnone => exact ⟨hnone, hnil⟩
        · cases hnil
      exact ih (accepts_add h fun hi => (hj hi).1) fun hi => (hj hi).2

/-- A question collects its wordings and its filters, and its last answer stands. -/
lemma foldl_add_question (items : List Item) (q : QuestionSection) :
    items.foldl add (.question q) = .question { q with
      questions := q.questions ++ items.filterMap Item.wording?
      filters := q.filters ++ items.filterMap Item.filter?
      answer := (items.filterMap Item.answer?).getLastD q.answer } := by
  induction items generalizing q with
  | nil => simp
  | cons i items ih =>
      cases i with
      | utterance | bodyLine => exact ih q
      | wording | filter =>
          simp [add, addQuestion, addFilter, ih, List.filterMap_cons, Item.wording?, Item.filter?,
            Item.answer?]
      | answer text =>
          rw [List.foldl_cons, add, setAnswer, ih]
          simp only [List.filterMap_cons, Item.wording?, Item.filter?, Item.answer?,
            List.getLastD_cons]

/-! ## The last section -/

lemma onLast_concat (f : Section → Section) (ss : List Section) (s : Section) :
    onLast f (ss ++ [s]) = ss ++ [f s] := by
  induction ss with
  | nil => rfl
  | cons t ss ih => cases ss <;> simp_all [onLast]

end DialogModel.Section
