import DialogModel.Model
import DialogModel.Section
import DialogModel.Utterance.Flat

/-!
# Utterances in the model

A line of an intent is an utterance or a pattern.  It is an utterance if it has no labels or if
each label has a value, and then each label registers its entity; it is a pattern if no label has
a value, and then each placeholder registers its entity.  Labels of both sorts may not be mixed.

A label with `@` names an entity or a role.  With a value it names the role if there is such a
role and none is written; in a pattern it is replaced by what it names, and if it names nothing it
is left as written and registers nothing.
-/

namespace DialogModel

open Entity Utterance

namespace Labelling

/-- Why a line of an intent is refused. -/
inductive Fault
  | misplaced (fault : FlattenFault)
  /-- Labels with and without values, in an utterance with the given text. -/
  | mixed (text : String)
  | missingValue (entity : String)
  /-- An entity of a kind that can be labelled by its roles only. -/
  | roleRequired (kind : Kind) (entity : String)
  deriving DecidableEq, Repr

namespace Fault

/-- The code of a fault. -/
def code : Fault → ErrorCode
  | .missingValue _ => .missingLabelledValue
  | _ => .invalidInput

/-- The wording of a fault. -/
def message : Fault → String
  | .misplaced fault => fault.message
  | .mixed text =>
    s!"utterance '{text}' has a mix of entities with labelled values and entities without; " ++
      "use either all labelled values or all placeholders"
  | .missingValue entity => s!"no labelled value found for entity '{entity}'"
  | .roleRequired kind entity =>
    s!"{kind.name} entity '{entity}' can only be labelled with a role, e.g. \x7b" ++ entity ++
      ":<role>=value\x7d"

instance : Cause Fault := ⟨code, message⟩

end Fault

/-- Registers an entity with roles at a line. -/
def declareAt (prov : Provenance) (app : App) (kind : Kind) (name : String) (roles : RoleSet) :
    Except Failure App := do
  let registry ← prov.locate (app.registry.declare kind name roles)
  .ok { app with registry }

/-! ## Labels with values -/

/-- The entity and the role that a label with a value names. -/
def target (reg : Registry) (head : Head) : String × Option String :=
  match head.viaAt, head.role, reg.ownerOf? head.entity with
  | true, none, some owner => (owner, some head.entity)
  | _, role, _ => (head.entity, role)

/-- Registers the entity of a label.  A placeholder of that name becomes a simple entity; an
entity that is not known becomes one too. -/
def registerLabel (prov : Provenance) (app : App) (entity : String) (role : Option String) :
    Except Failure App :=
  let roles := RoleSet.ofList role.toList
  match app.registry.get? entity with
  | none => declareAt prov app .simple entity roles
  | some r =>
    if r.kind.requiresRole && role.isNone then
      .error (prov.failure (Fault.roleRequired r.kind entity))
    else if r.kind = .patternAny then
      declareAt prov { app with registry := app.registry.erase entity } .simple entity
        (r.roles.union roles)
    else declareAt prov app r.kind entity roles

/-- Registers the entity of a label inside a value; it is noted and leaves no span. -/
def resolveNested (prov : Provenance) (app : App) (span : Span) : Except Failure App := do
  let (entity, role) := target app.registry span.head
  let app ← registerLabel prov app entity role
  .ok (app.noteLabel entity role)

/-- Registers the entity of a label and adds the label to those of the utterance. -/
def resolveTop (prov : Provenance) (acc : App × List Label) (span : Span) :
    Except Failure (App × List Label) := do
  let (entity, role) := target acc.1.registry span.head
  let app ← registerLabel prov acc.1 entity role
  .ok (app, acc.2 ++ [{ entity, startPos := span.start, endPos := span.stop - 1, role }])

/-- Adds an utterance whose labels all have values. -/
def addLabelled (prov : Provenance) (intent : String) (flat : Flat) (app : App) :
    Except Failure App := do
  match (flat.nested ++ flat.labels).find? Span.isEmpty with
  | some span => .error (prov.failure (Fault.missingValue span.head.entity))
  | none =>
    let app ← flat.nested.foldlM (resolveNested prov) app
    let (app, labels) ← flat.labels.foldlM (resolveTop prov) (app, [])
    .ok (app.addUtterance { text := flat.text, intent, labels })

/-! ## Patterns -/

/-- What a placeholder with `@` stands for. -/
def resolveReference (reg : Registry) (head : Head) : Head :=
  match reg.ownerOf? head.entity, reg.get? head.entity with
  | some owner, _ => { entity := owner, role := some head.entity }
  | none, some r => { entity := r.name }
  | none, none => head

/-- Registers the entity of a placeholder: its role is added to an entity that is known, and one
that is not known becomes a placeholder that stands for any text. -/
def registerPlaceholder (prov : Provenance) (app : App) (head : Head) : Except Failure App :=
  declareAt prov app ((app.registry.kindOf? head.entity).getD .patternAny) head.entity
    (.ofList head.role.toList)

/-- Adds a node to the text of a pattern. -/
def addPatternNode (prov : Provenance) (acc : App × List Char) :
    Node → Except Failure (App × List Char)
  | .text content => .ok (acc.1, acc.2 ++ escape content.toList)
  | .placeholder head | .labelled head _ =>
    if head.viaAt then
      .ok (acc.1, acc.2 ++ (resolveReference acc.1.registry head).placeholderText)
    else do
      let app ← registerPlaceholder prov acc.1 head
      .ok (app, acc.2 ++ head.placeholderText)

/-- Adds a line without values as a pattern. -/
def addPattern (line : UtteranceLine) (intent : String) (app : App) : Except Failure App := do
  let (app, text) ← line.nodes.foldlM (addPatternNode line.prov) (app, [])
  let pattern := { pattern := String.ofList (Chars.trim text), intent }
  .ok ((app.ensureIntent intent).addPattern pattern).2

end Labelling

open Labelling

/-- Adds a line of an intent. -/
def UtteranceLine.apply (options : Options) (intent : String) (line : UtteranceLine) (app : App) :
    Except Failure App :=
  match flatten line.nodes options.allowNestedLabels with
  | .error fault => .error (line.prov.failure (Fault.misplaced fault))
  | .ok flat =>
    if flat.labels.isEmpty then .ok (app.addUtterance { text := flat.text, intent })
    else if flat.labels.all (!·.hasValue) then addPattern line intent app
    else if flat.labels.all (·.hasValue) then addLabelled line.prov intent flat app
    else .error (line.prov.failure (Fault.mixed flat.text))

/-- Adds an intent with its lines. -/
def IntentSection.apply (options : Options) (s : IntentSection) (m : Model) :
    Except Failure Model := do
  let app ← s.utterances.foldlM (fun app line => line.apply options s.name app)
    (m.app.ensureIntent s.name)
  .ok { m with app }

end DialogModel
