import DialogModel.Declaration.Basic

/-!
# Prebuilt entities

A prebuilt entity is declared by the name of its type.  The locale decides under which name the
type is registered; a type that it lacks is an error, or in a verbose compilation a warning.
What happens depends on the declaration and the circumstances and not on the model, so the
warnings can be told without carrying the declaration out.
-/

namespace DialogModel

open Entity

namespace Declaration

/-- What becomes of a prebuilt declaration. -/
inductive Resolution
  /-- It is registered under the name that the locale has for its type. -/
  | registered (type name : String)
  /-- It is skipped, since the locale lacks its type. -/
  | skipped (type : String)
  deriving DecidableEq, Repr

/-- What becomes of a prebuilt declaration, or what is wrong with it. -/
def resolvePrebuilt (ctx : Context) (d : Declaration) : Except Fault Resolution :=
  if d.hasBody then .error (.unexpectedDefinition .prebuilt d.name)
  else
    match Catalog.lookup? d.name with
    | none => .error (.unknownPrebuilt d.name)
    | some type =>
      match Catalog.available? ctx.locale type with
      | some name => .ok (.registered type name)
      | none =>
        if ctx.options.verbose then .ok (.skipped type)
        else .error (.unavailablePrebuilt type ctx.locale)

/-- Declares a prebuilt entity. -/
def declarePrebuilt (ctx : Context) (app : App) (d : Declaration) : Except Failure App := do
  match ← d.prov.locate (d.resolvePrebuilt ctx) with
  | .registered _ name => register app .prebuilt { d with name }
  | .skipped _ => .ok app

/-- The warnings about a prebuilt declaration. -/
def prebuiltWarnings (ctx : Context) (d : Declaration) : List Diagnostic :=
  match d.resolvePrebuilt ctx with
  | .ok (.registered type name) =>
    if name = type then []
    else [d.prov.warning
      s!"prebuilt entity '{type}' is mapped to '{name}' for locale '{ctx.locale}'"]
  | .ok (.skipped type) =>
    [d.prov.warning (Fault.unavailableMessage type ctx.locale ++ "; skipping declaration")]
  | .error _ => []

end Declaration

end DialogModel
