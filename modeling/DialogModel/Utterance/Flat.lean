import DialogModel.Utterance.Printer

/-!
# Flattening an utterance

The plain text that an utterance denotes, and the spans of its labels in that text.  Three
functions on the tree say what is there: `rawNodes` is the text, `spansOf` the labels with their
positions, inner labels before the label around them, and `faultIn` the first label that may not
stand where it stands.  `flatten` puts them together and trims the text; positions count
characters, and a position inside what was trimmed off moves to the nearer end.
-/

namespace DialogModel.Utterance

/-- Why an utterance cannot be flattened. -/
inductive FlattenFault
  /-- A label inside the value of another, where that is switched off. -/
  | nestingDisallowed (outer inner : String)
  /-- A placeholder inside the value of a label. -/
  | placeholderInValue (outer inner : String)
  deriving DecidableEq, Repr

namespace FlattenFault

/-- The name of the kind of fault. -/
def name : FlattenFault → String
  | .nestingDisallowed .. => "NestingDisallowed"
  | .placeholderInValue .. => "PlaceholderInValue"

/-- The wording of a fault. -/
def message : FlattenFault → String
  | .nestingDisallowed outer inner =>
    "entity '" ++ inner ++ "' is nested inside the labelled value of '" ++ outer ++
      "', and nested labels are not allowed"
  | .placeholderInValue outer inner =>
    "'\x7b" ++ inner ++ "\x7d' has no value and cannot appear inside the labelled value of '" ++
      outer ++ "'"

end FlattenFault

/-- A label and the characters of a text that it covers. -/
structure Span where
  head : Head
  /-- A placeholder has no value and covers its own written form. -/
  hasValue : Bool
  start : Nat
  /-- The position behind the last character. -/
  stop : Nat
  deriving DecidableEq, Repr, Inhabited

/-- Whether a span covers no character. -/
def Span.isEmpty (s : Span) : Bool :=
  decide (s.stop ≤ s.start)

/-- A text with labelled spans. -/
structure Flat where
  text : String
  /-- The labels that stand in no other, in source order. -/
  labels : List Span
  /-- The labels inside values, each before the label around it. -/
  nested : List Span
  deriving DecidableEq, Repr, Inhabited

/-! ## The text -/

mutual

/-- The text of a node. -/
def Node.raw : Node → List Char
  | .text content => content.toList
  | .placeholder head => head.placeholderText
  | .labelled _ value => rawNodes value

/-- The text of an utterance. -/
def rawNodes : List Node → List Char
  | [] => []
  | node :: nodes => node.raw ++ rawNodes nodes

end

/-! ## The spans -/

mutual

/-- The labels of a node that starts at a position, each with the number of labels around it. -/
def Node.spans (depth start : Nat) : Node → List (Nat × Span)
  | .text _ => []
  | .placeholder head => [(depth, ⟨head, false, start, start + head.placeholderText.length⟩)]
  | .labelled head value =>
    spansOf (depth + 1) start value ++
      [(depth, ⟨head, true, start, start + (rawNodes value).length⟩)]

/-- The labels of an utterance that starts at a position. -/
def spansOf (depth start : Nat) : List Node → List (Nat × Span)
  | [] => []
  | node :: nodes => node.spans depth start ++ spansOf depth (start + node.raw.length) nodes

end

/-! ## The faults -/

mutual

/-- The first label of a node that may not stand in the value of `outer`. -/
def Node.fault? (allowNested : Bool) (outer : Option String) : Node → Option FlattenFault
  | .text _ => none
  | .placeholder head => outer.map fun o => .placeholderInValue o head.entity
  | .labelled head value =>
    match outer with
    | some o =>
      if allowNested then faultIn allowNested (some head.entity) value
      else some (.nestingDisallowed o head.entity)
    | none => faultIn allowNested (some head.entity) value

/-- The first label of an utterance that may not stand in the value of `outer`. -/
def faultIn (allowNested : Bool) (outer : Option String) : List Node → Option FlattenFault
  | [] => none
  | node :: nodes =>
    match node.fault? allowNested outer with
    | some fault => some fault
    | none => faultIn allowNested outer nodes

end

/-! ## The flat utterance -/

/-- Moves a span to the text of `length` characters that is left when `leading` characters are
dropped in front. -/
def Span.shift (leading length : Nat) (s : Span) : Span :=
  { s with start := min (s.start - leading) length, stop := min (s.stop - leading) length }

/-- The trimmed text of an utterance and the spans of its labels in it. -/
def flatOf (nodes : List Node) : Flat :=
  let raw := rawNodes nodes
  let text := Chars.trim raw
  let leading := (raw.takeWhile isBlank).length
  let spans := spansOf 0 0 nodes
  let pick (keep : Nat → Bool) : List Span :=
    (spans.filter fun s => keep s.1).map fun s => s.2.shift leading text.length
  { text := String.ofList text, labels := pick (· == 0), nested := pick (· != 0) }

/-- The flat form of an utterance whose labels all stand where they may. -/
def flatten (nodes : List Node) (allowNested : Bool) : Except FlattenFault Flat :=
  match faultIn allowNested none nodes with
  | some fault => .error fault
  | none => .ok (flatOf nodes)

end DialogModel.Utterance
