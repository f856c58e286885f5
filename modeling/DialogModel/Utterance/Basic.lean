import DialogModel.Text.Basic

/-!
# Utterances

An utterance is text in which parts may be labelled with an entity.  A label has a head, which
names the entity, and may have a value, which is again text with labels: `{city:to=Seattle}`
has the head `city:to` and the value `Seattle`.  A label without a value is a placeholder.

The tree is plain data.  Reading and writing it are in `Utterance.Reader` and `Utterance.Printer`,
the spans it denotes in `Utterance.Flat`.
-/

namespace DialogModel.Utterance

/-- What a label names: an entity, or with `@` an entity or a role. -/
structure Head where
  entity : String
  role : Option String := none
  /-- Whether the head is written with `@` in front. -/
  viaAt : Bool := false
  deriving DecidableEq, Repr, Inhabited

/-- A part of an utterance. -/
inductive Node
  | text (content : String)
  /-- A label without a value. -/
  | placeholder (head : Head)
  /-- A label with a value. -/
  | labelled (head : Head) (value : List Node)
  deriving Repr, Inhabited

mutual

/-- Decides whether two nodes are equal. -/
def Node.decEq : (a b : Node) → Decidable (a = b)
  | .text s, .text t =>
    if h : s = t then isTrue (h ▸ rfl) else isFalse fun e => h (Node.text.inj e)
  | .placeholder g, .placeholder h =>
    if e : g = h then isTrue (e ▸ rfl) else isFalse fun e' => e (Node.placeholder.inj e')
  | .labelled g v, .labelled h w =>
    if e : g = h then
      match decEqNodes v w with
      | isTrue e' => isTrue (by rw [e, e'])
      | isFalse n => isFalse fun e' => n (Node.labelled.inj e').2
    else isFalse fun e' => e (Node.labelled.inj e').1
  | .text _, .placeholder _ => isFalse nofun
  | .text _, .labelled .. => isFalse nofun
  | .placeholder _, .text _ => isFalse nofun
  | .placeholder _, .labelled .. => isFalse nofun
  | .labelled .., .text _ => isFalse nofun
  | .labelled .., .placeholder _ => isFalse nofun

/-- Decides whether two utterances are equal. -/
def decEqNodes : (xs ys : List Node) → Decidable (xs = ys)
  | [], [] => isTrue rfl
  | [], _ :: _ => isFalse nofun
  | _ :: _, [] => isFalse nofun
  | x :: xs, y :: ys =>
    match x.decEq y, decEqNodes xs ys with
    | isTrue e, isTrue e' => isTrue (by rw [e, e'])
    | isFalse n, _ => isFalse fun e => n (List.cons.inj e).1
    | _, isFalse n => isFalse fun e => n (List.cons.inj e).2

end

instance : DecidableEq Node :=
  Node.decEq

end DialogModel.Utterance
