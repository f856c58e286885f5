import DialogModel.Model
import DialogModel.Section

/-!
# Directives about the model

A directive is written `@scope.name = value`.  The scopes `app` and `kb` set a setting of the
application or of the knowledge base; `intent.inherits` and `entity.inherits` say that an intent
or an entity stands for a prebuilt model.  A directive of any other form is ignored with one
warning, and whether it is depends on its text alone.
-/

namespace DialogModel

/-- What a directive asks for. -/
inductive Directive
  | appSetting (key value : String)
  | kbSetting (key value : String)
  | intentInherits (name : String) (inherits : Inherits)
  | entityInherits (name : String) (inherits : Inherits)
  deriving DecidableEq, Repr

namespace Directive

/-- Why a directive is ignored. -/
inductive Fault
  /-- It is not an assignment to a name with `@`. -/
  | malformed (directive : String)
  /-- Its key is not a scope and a name. -/
  | malformedKey (key : String)
  /-- Its key is not known. -/
  | unknown (key : String)
  /-- It does not say what to stand for in the expected form. -/
  | malformedInherits (value : String)
  deriving DecidableEq, Repr

/-- The wording of a fault. -/
def Fault.message : Fault → String
  | .malformed directive =>
    s!"ignoring model info '{directive}': expected '@scope.key = value'"
  | .malformedKey key => s!"ignoring model info '{key}': key must be '<scope>.<name>'"
  | .unknown key => s!"ignoring unknown model info '@{key}'"
  | .malformedInherits value =>
    s!"ignoring inherits '{value}': expected " ++
      "'name : <name> : domain_name : <domain> : model_name : <model>'"

open Chars

/-- The key and the value of a directive. -/
def split? (cs : List Char) : Option (List Char × List Char) :=
  match cs with
  | '@' :: rest =>
    match breakAt? '=' rest with
    | some (key, value) => if (trim key).isEmpty then none else some (trim key, trim value)
    | none => none
  | _ => none

/-- Reads a value of six parts between colons, of which the second is a name and the fourth and
the sixth are the domain and the model. -/
def readInherits? (value : List Char) : Option (String × Inherits) :=
  match (value.splitOn ':').map trim with
  | [_, name, _, domain, _, model] =>
    if name.isEmpty then none
    else some (String.ofList name, ⟨String.ofList domain, String.ofList model⟩)
  | _ => none

/-- Reads what an intent or entity stands for. -/
def readInherits (value : List Char) (f : String → Inherits → Directive) :
    Except Fault Directive :=
  match readInherits? value with
  | some (name, inherits) => .ok (f name inherits)
  | none => .error (.malformedInherits (String.ofList value))

/-- Reads an assignment to a key of a scope. -/
def ofKey (key scope name value : List Char) : Except Fault Directive :=
  if scope = "app".toList then .ok (.appSetting (String.ofList name) (String.ofList value))
  else if scope = "kb".toList then .ok (.kbSetting (String.ofList name) (String.ofList value))
  else if scope = "intent".toList ∧ name = "inherits".toList then
    readInherits value .intentInherits
  else if scope = "entity".toList ∧ name = "inherits".toList then
    readInherits value .entityInherits
  else .error (.unknown (String.ofList key))

/-- The directive written as a text. -/
def read (text : String) : Except Fault Directive :=
  match split? text.toList with
  | none => .error (.malformed text)
  | some (key, value) =>
    match key.splitOn '.' with
    | [scope, name] => ofKey key scope name value
    | _ => .error (.malformedKey (String.ofList key))

/-- Declares an entity that a directive names, if it is new. -/
def declareNamed (reg : Registry) (name : String) : Except Registry.Violation Registry :=
  if (reg.get? name).isSome then .ok reg else reg.declare .simple name ∅

/-- Carries out a directive.  It fails only if the entity that it names is a role. -/
def apply (prov : Provenance) (m : Model) : Directive → Except Failure Model
  | .appSetting key value => .ok { m with app := m.app.setSetting key value }
  | .kbSetting key value => .ok { m with kb := m.kb.setSetting key value }
  | .intentInherits name inherits => .ok { m with app := m.app.setIntentInherits name inherits }
  | .entityInherits name inherits => do
    let registry ← prov.locate (declareNamed m.app.registry name)
    .ok { m with app := { m.app with registry }.setEntityInherits name inherits }

end Directive

namespace ModelInfo

/-- Carries out the directive of a section, if it has one. -/
def apply (info : ModelInfo) (m : Model) : Except Failure Model :=
  match Directive.read info.directive with
  | .ok d => d.apply info.prov m
  | .error _ => .ok m

/-- The warning about a section that is ignored. -/
def warnings (info : ModelInfo) : List Diagnostic :=
  match Directive.read info.directive with
  | .ok _ => []
  | .error fault => [info.prov.warning fault.message]

end ModelInfo

end DialogModel
