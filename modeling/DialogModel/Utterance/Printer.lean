import DialogModel.Utterance.Basic

/-!
# Writing an utterance

The text of an utterance tree.  Braces and backslashes of plain text are escaped, so that a
written text reads back as text; heads are written as they are.
-/

namespace DialogModel.Utterance

/-- The text with a backslash before each brace and each backslash. -/
def escape : List Char → List Char
  | [] => []
  | c :: cs =>
    if c = '\x7b' ∨ c = '\x7d' ∨ c = '\\' then '\\' :: c :: escape cs else c :: escape cs

namespace Head

/-- The head as written between braces. -/
def written (h : Head) : List Char :=
  (if h.viaAt then ['@'] else []) ++ h.entity.toList ++
    match h.role with
    | some role => ':' :: role.toList
    | none => []

/-- The placeholder with this head. -/
def placeholderText (h : Head) : List Char :=
  '\x7b' :: (h.written ++ ['\x7d'])

end Head

mutual

/-- The written form of a node. -/
def Node.render : Node → List Char
  | .text content => escape content.toList
  | .placeholder head => head.placeholderText
  | .labelled head value => '\x7b' :: (head.written ++ '=' :: (renderNodes value ++ ['\x7d']))

/-- The written form of an utterance. -/
def renderNodes : List Node → List Char
  | [] => []
  | node :: nodes => node.render ++ renderNodes nodes

end

/-- The written form of an utterance. -/
def render (nodes : List Node) : String :=
  String.ofList (renderNodes nodes)

end DialogModel.Utterance
