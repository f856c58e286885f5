import DialogModel.Declaration.Basic

/-!
# Composite and regex entities

The declarations whose definition is fixed by the first that gives one.  A composite lists its
children and a regex has one pattern; a later declaration may repeat them, a composite in any
order, and may not change them.
-/

namespace DialogModel

open Entity

namespace Declaration

/-! ## Composites -/

/-- What may surround the name of a child. -/
def isChildPadding (c : Char) : Bool :=
  c == '[' || c == ']' || isBlank c

/-- The children that a declaration lists. -/
def children (d : Declaration) : List String :=
  FirstSeen.ofList
    ((d.items.map fun item => String.ofList (Chars.stripWhere isChildPadding item.toList)).filter
      (!·.isEmpty))

/-- Whether two lists without repetition have the same members. -/
def sameMembers (a b : List String) : Bool :=
  a.length == b.length && a.all fun x => decide (x ∈ b)

/-- The fault in the children of a declaration. -/
def childrenFault? (app : App) (d : Declaration) : Option Fault :=
  if (d.hasDefinition || d.roles.isEmpty) && d.children.isEmpty then
    some (.missingChildren d.name)
  else
    match (app.registry.get? d.name).map Record.detail with
    | some (.composite existing) =>
      if existing.isEmpty || d.children.isEmpty || sameMembers existing d.children then none
      else some (.changedChildren d.name existing d.children)
    | _ => none

/-- Gives a composite its children unless it has some. -/
def setChildren (new : List String) : Detail → Detail
  | .composite existing => .composite (if existing.isEmpty then new else existing)
  | detail => detail

/-- Declares a composite. -/
def declareComposite (app : App) (d : Declaration) : Except Failure App :=
  match d.childrenFault? app with
  | some fault => .error (d.fail fault)
  | none => do
    let app ← d.register app .composite
    .ok { app with registry := app.registry.updateDetail d.name (setChildren d.children) }

/-! ## Regexes -/

/-- The pattern between slashes; an empty one does not count. -/
def readPattern? (text : String) : Option String :=
  match Chars.trim text.toList with
  | '/' :: rest =>
    match Chars.before? '/' rest with
    | some (c :: cs) => some (String.ofList (c :: cs))
    | _ => none
  | _ => none

/-- Where the pattern stands: on the line of the declaration or else on the first line below. -/
def patternSource (d : Declaration) : Option String :=
  d.inline.map fun inline =>
    match Text.isVacant inline, d.lines with
    | true, line :: _ => line.text
    | _, _ => Text.trim inline

/-- The pattern that a declaration gives, if it gives one. -/
def pattern (d : Declaration) : Except Fault (Option String) :=
  if (d.hasInline && !d.lines.isEmpty) || d.lines.length > 1 then
    .error (.severalPatterns d.name)
  else
    match d.patternSource with
    | none => .ok none
    | some text =>
      match readPattern? text with
      | some pattern => .ok (some pattern)
      | none => .error (.malformedPattern d.name)

/-- The fault in giving a pattern to a regex that has another. -/
def patternFault? (app : App) (d : Declaration) (new : Option String) : Option Fault :=
  match new, (app.registry.get? d.name).map Record.detail with
  | some new, some (.regex existing) =>
    if existing.isEmpty || existing = new then none
    else some (.changedPattern d.name existing new)
  | _, _ => none

/-- Gives a regex its pattern unless it has one. -/
def setPattern (new : Option String) : Detail → Detail
  | .regex existing => .regex (if existing.isEmpty then new.getD existing else existing)
  | detail => detail

/-- Declares a regex. -/
def declareRegex (app : App) (d : Declaration) : Except Failure App := do
  let new ← d.prov.locate d.pattern
  match d.patternFault? app new with
  | some fault => .error (d.fail fault)
  | none =>
    let app ← d.register app .regex
    .ok { app with registry := app.registry.updateDetail d.name (setPattern new) }

end Declaration

end DialogModel
