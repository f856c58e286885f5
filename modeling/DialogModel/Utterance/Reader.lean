import DialogModel.Utterance.Basic

/-!
# Reading an utterance

An utterance is read character by character.  A `State` holds what has been read of the innermost
label that is still open, and a stack of the labels around it; `step` takes one character and
`read` folds it over the text, so that reading a text is reading its first part and then its
second.

A backslash escapes a brace or a backslash and otherwise stands for itself.  Inside the head of a
label it always stands for itself.  The head of a label is checked when the label closes, hence
after its value: the first fault in that order is the one reported.
-/

namespace DialogModel.Utterance

/-- Why a text is not an utterance. -/
inductive Fault
  /-- A closing brace without an open label. -/
  | unbalanced
  /-- The text ends inside a label. -/
  | unterminated
  /-- An opening brace inside the head of a label, of which `head` has been read. -/
  | braceInHead (head : String)
  /-- A head without an entity. -/
  | missingEntity
  /-- A head with a colon and no role behind it. -/
  | missingRole (entity : String)
  deriving DecidableEq, Repr

/-- The wording of a fault. -/
def Fault.message : Fault → String
  | .unbalanced => "unbalanced '\x7d' in utterance"
  | .unterminated => "unterminated '\x7b' in utterance"
  | .braceInHead head => "unexpected '\x7b' inside entity reference '\x7b" ++ head ++ "'"
  | .missingEntity => "missing entity name in '\x7b\x7d' reference"
  | .missingRole entity => "missing role name after '" ++ entity ++ ":'"

/-! ## Heads -/

open Chars

/-- Splits off one leading `@`. -/
def Head.splitAt (cs : List Char) : Bool × List Char :=
  match cs with
  | '@' :: rest => (true, trim rest)
  | _ => (false, cs)

/-- The entity and the role of a head without its `@`. -/
def Head.splitRole (cs : List Char) : List Char × Option (List Char) :=
  match breakAt? ':' cs with
  | some (entity, role) => (trim entity, some (trim role))
  | none => (cs, none)

/-- The head written as `cs`: a name, or a name and a role with a colon between them, after at
most one `@`. -/
def Head.read (cs : List Char) : Except Fault Head :=
  let (viaAt, named) := Head.splitAt (trim cs)
  let (entity, role) := Head.splitRole named
  if entity.isEmpty then .error .missingEntity
  else if role = some [] then .error (.missingRole (String.ofList entity))
  else .ok { entity := String.ofList entity, role := role.map String.ofList, viaAt }

/-! ## Texts -/

/-- What the reader is inside of. -/
inductive Mode
  /-- Text, of which `buffer` has been read since the last label. -/
  | text (buffer : List Char)
  /-- Text, directly behind a backslash. -/
  | escape (buffer : List Char)
  /-- The head of a label, of which `head` has been read. -/
  | head (head : List Char)
  deriving DecidableEq, Repr, Inhabited

/-- A label whose value is being read: its head, and the nodes before it. -/
structure OpenLabel where
  before : List Node
  head : List Char
  deriving DecidableEq, Repr, Inhabited

/-- The reader between two characters. -/
structure State where
  /-- The labels around the current position, innermost first. -/
  enclosing : List OpenLabel := []
  /-- The nodes read so far inside the innermost of them. -/
  nodes : List Node := []
  mode : Mode := .text []
  deriving DecidableEq, Repr, Inhabited

namespace State

/-- The nodes with the pending text behind them; no node is made of an empty text. -/
def flush (nodes : List Node) (buffer : List Char) : List Node :=
  if buffer.isEmpty then nodes else nodes ++ [.text (String.ofList buffer)]

/-- Whether a backslash escapes the character. -/
def isEscapable (c : Char) : Bool :=
  c == '\x7b' || c == '\x7d' || c == '\\'

/-- Takes an unescaped character of text. -/
def stepText (s : State) (buffer : List Char) (c : Char) : Except Fault State :=
  if c = '\\' then .ok { s with mode := .escape buffer }
  else if c = '\x7b' then .ok { s with nodes := flush s.nodes buffer, mode := .head [] }
  else if c = '\x7d' then
    match s.enclosing with
    | [] => .error .unbalanced
    | label :: outer => do
      let head ← Head.read label.head
      .ok { enclosing := outer, nodes := label.before ++ [.labelled head (flush s.nodes buffer)],
            mode := .text [] }
  else .ok { s with mode := .text (buffer ++ [c]) }

/-- Takes a character of the head of a label. -/
def stepHead (s : State) (head : List Char) (c : Char) : Except Fault State :=
  if c = '=' then .ok { enclosing := ⟨s.nodes, head⟩ :: s.enclosing, nodes := [], mode := .text [] }
  else if c = '\x7d' then do
    let h ← Head.read head
    .ok { s with nodes := s.nodes ++ [.placeholder h], mode := .text [] }
  else if c = '\x7b' then .error (.braceInHead (String.ofList head))
  else .ok { s with mode := .head (head ++ [c]) }

/-- Takes one character. -/
def step (s : State) (c : Char) : Except Fault State :=
  match s.mode with
  | .text buffer => s.stepText buffer c
  | .escape buffer =>
    if isEscapable c then .ok { s with mode := .text (buffer ++ [c]) }
    else s.stepText (buffer ++ ['\\']) c
  | .head head => s.stepHead head c

/-- The utterance, if no label is open at the end of the text. -/
def finish (s : State) : Except Fault (List Node) :=
  match s.mode, s.enclosing with
  | .text buffer, [] => .ok (flush s.nodes buffer)
  | .escape buffer, [] => .ok (flush s.nodes (buffer ++ ['\\']))
  | _, _ => .error .unterminated

end State

/-- The utterance written as `cs`. -/
def readChars (cs : List Char) : Except Fault (List Node) := do
  let s ← cs.foldlM State.step {}
  s.finish

/-- The utterance written as a text. -/
def read (text : String) : Except Fault (List Node) :=
  readChars text.toList

end DialogModel.Utterance
