import DialogModel.Entity.Catalog
import DialogModel.Model
import DialogModel.Section

/-!
# Declarations of entities

Both ways of writing a declaration are brought into one form, on which the rules for each kind of
entity are stated.  `Fault` lists what a declaration can do wrong by itself; collisions with other
entities are violations of the registry.

An entity may be declared again.  A declaration takes over the placeholder of the same name, and
list, composite and regex entities take over a simple one; roles carry over and accumulate.
-/

namespace DialogModel

open Entity

/-- A declaration of an entity. -/
structure Declaration where
  name : String
  roles : RoleSet := ∅
  /-- The text of the definition on the line of the declaration, if it has a definition. -/
  inline : Option String := none
  lines : List BodyLine := []
  prov : Provenance
  deriving DecidableEq

namespace Declaration

/-- What a declaration does wrong. -/
inductive Fault
  | unknownType (type name : String)
  | unrecognizedDefinition (typeString name : String)
  | unknownPhraseListFlag (flag : String)
  /-- A kind of entity that has no definition is given one. -/
  | unexpectedDefinition (kind : Kind) (name : String)
  | unknownPrebuilt (name : String)
  | unavailablePrebuilt (type locale : String)
  | missingChildren (name : String)
  | changedChildren (name : String) (existing children : List String)
  | severalPatterns (name : String)
  | malformedPattern (name : String)
  | changedPattern (name existing pattern : String)
  | straySynonym (synonym name : String)
  | phraseListRoles (name : String) (roles : RoleSet)
  | changedFlag (name : String) (existing : Bool)
  /-- A simple entity that has been labelled without a role becomes one of another kind. -/
  | labelledWithoutRole (name : String) (kind : Kind)
  deriving DecidableEq

namespace Fault

/-- The code of a fault. -/
def code : Fault → ErrorCode
  | .missingChildren .. | .changedChildren .. => .invalidCompositeEntity
  | .severalPatterns .. | .malformedPattern .. | .changedPattern .. => .invalidRegexEntity
  | .straySynonym .. => .synonymsNotAList
  | _ => .invalidInput

/-- The wording of the lack of a prebuilt type. -/
def unavailableMessage (type locale : String) : String :=
  s!"prebuilt entity '{type}' is not available for locale '{locale}'"

/-- The wording of a fault. -/
def message : Fault → String
  | .unknownType type name =>
    s!"unknown entity type '{type}' for entity '{name}'. Valid types are: " ++
      "simple, ml, list, composite, regex, prebuilt, patternany, phraselist"
  | .unrecognizedDefinition typeString name =>
    s!"unrecognized definition '{typeString}' for entity '{name}'"
  | .unknownPhraseListFlag flag => s!"unknown phrase list flag '{flag}'"
  | .unexpectedDefinition kind name => s!"{kind.name} entity '{name}' cannot have a definition"
  | .unknownPrebuilt name =>
    s!"'{name}' is not a prebuilt entity type. Valid types are: " ++
      String.intercalate ", " Catalog.types
  | .unavailablePrebuilt type locale => unavailableMessage type locale
  | .missingChildren name =>
    s!"composite entity '{name}' must list its child entities, e.g. '[child1, child2]'"
  | .changedChildren name existing children =>
    s!"composite entity '{name}' is already defined with children [" ++
      String.intercalate ", " existing ++ "]; redefinition with [" ++
      String.intercalate ", " children ++ "] is not allowed"
  | .severalPatterns name =>
    s!"regex entity '{name}' takes exactly one pattern, either inline or on one body line"
  | .malformedPattern name =>
    s!"regex entity '{name}' needs a non-empty pattern delimited by slashes, e.g. /[0-9]+/"
  | .changedPattern name existing pattern =>
    s!"regex entity '{name}' is already defined with pattern /{existing}/; " ++
      s!"redefinition with /{pattern}/ is not allowed"
  | .straySynonym synonym name =>
    s!"synonym '{synonym}' of list entity '{name}' must follow a 'value:' line"
  | .phraseListRoles name roles =>
    s!"phrase list '{name}' cannot have roles, found: " ++ String.intercalate ", " roles.toList
  | .changedFlag name existing =>
    s!"phrase list '{name}' is already defined with interchangeable = " ++
      if existing then "true" else "false"
  | .labelledWithoutRole name kind =>
    s!"cannot label entity '{name}' without a role: it is redefined as a {kind.name} entity " ++
      "after being labelled as a simple one"

instance : Cause Fault := ⟨code, message⟩

end Fault

/-! ## The parts of a declaration -/

/-- Whether a definition is announced or given. -/
def hasDefinition (d : Declaration) : Bool :=
  d.inline.isSome || !d.lines.isEmpty

/-- Whether the line of the declaration itself holds a part of the definition. -/
def hasInline (d : Declaration) : Bool :=
  d.inline.any (!Text.isVacant ·)

/-- Whether a definition is given. -/
def hasBody (d : Declaration) : Bool :=
  d.hasInline || !d.lines.isEmpty

/-- The comma-separated items of the definition. -/
def items (d : Declaration) : List String :=
  (d.inline.toList ++ d.lines.map BodyLine.text).flatMap Text.items

/-- The failure of a declaration. -/
def fail (d : Declaration) (fault : Fault) : Failure :=
  d.prov.failure fault

/-! ## Registering -/

/-- Makes way for a declaration: removes the record that it takes over, and gives back its
roles. -/
def takeOver (app : App) (kind : Kind) (d : Declaration) : Except Failure (RoleSet × App) :=
  match app.registry.get? d.name with
  | none => .ok (∅, app)
  | some r =>
    let released : RoleSet × App := (r.roles, { app with registry := app.registry.erase d.name })
    if r.kind = kind then .ok (∅, app)
    else if r.kind = .patternAny then .ok released
    else if r.kind = .simple ∧ kind.absorbsSimple then
      if app.isLabelledWithoutRole d.name then .error (d.fail (.labelledWithoutRole d.name kind))
      else .ok released
    else .error (d.prov.failure (Registry.Violation.duplicate d.name r.kind kind))

/-- Registers the declared entity with the roles that it takes over and its own. -/
def register (app : App) (kind : Kind) (d : Declaration) : Except Failure App := do
  let (carried, app) ← d.takeOver app kind
  let registry ← d.prov.locate (app.registry.declare kind d.name (carried.union d.roles))
  .ok { app with registry }

/-- Registers an entity of a kind that has no definition. -/
def registerPlain (app : App) (kind : Kind) (d : Declaration) : Except Failure App :=
  if d.hasBody then .error (d.fail (.unexpectedDefinition kind d.name)) else d.register app kind

end Declaration

end DialogModel
