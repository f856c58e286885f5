import DialogModel.Section

/-!
# Headers of entity declarations

The form `type name(interchangeable) hasRoles r₁, r₂ = definition` behind `@`.  Only the type and
the name are required; the flag may also stand as a word of its own, the word `hasRoles` may be
missing, and a clause that starts with `usesFeature` is ignored with a notice.
-/

namespace DialogModel.Entity

/-- Why a declaration has no readable header. -/
inductive HeaderFault
  | missingType
  | missingName (type : String)
  | unknownFlag (flag : String)
  deriving DecidableEq, Repr

/-- The wording of a fault. -/
def HeaderFault.message : HeaderFault → String
  | .missingType => "missing entity type after '@'"
  | .missingName type => "missing entity name after '@ " ++ type ++ "'"
  | .unknownFlag flag => "unknown entity flag '(" ++ flag ++ ")'"

/-- A clause about features, which is not supported. -/
structure FeatureClause where
  clause : String
  entity : String
  deriving DecidableEq, Repr

/-- The wording of the notice that a clause is ignored. -/
def FeatureClause.message (f : FeatureClause) : String :=
  "feature clause '" ++ f.clause ++ "' on entity '" ++ f.entity ++
    "' is not supported and was ignored"

/-- What a header says. -/
structure Header where
  type : String
  name : String
  roles : List String := []
  interchangeable : Bool := false
  /-- The trimmed text behind `=`, if there is one. -/
  inline : Option String := none
  /-- The clause that was ignored. -/
  ignored : Option FeatureClause := none
  deriving DecidableEq, Repr

namespace Header

open Chars

/-- Reads what stands behind the parenthesis of a flag; the only flag is `interchangeable`. -/
def readFlag (cs : List Char) : Except HeaderFault Unit :=
  let flag := trim (dropWhileEnd (· == ')') cs)
  if sameLetters flag "interchangeable".toList then .ok ()
  else .error (.unknownFlag (String.ofList flag))

/-- The name at the front of a word, and whether a flag follows it. -/
def readName (word : List Char) : Except HeaderFault (List Char × Bool) :=
  match breakAt? '(' word with
  | some (name, flag) => (readFlag flag).map fun _ => (name, true)
  | none => .ok (word, false)

/-- Takes a flag that is a word of its own. -/
def takeFlag : List (List Char) → Except HeaderFault (Bool × List (List Char))
  | ('(' :: flag) :: rest => (readFlag flag).map fun _ => (true, rest)
  | ws => .ok (false, ws)

/-- Drops the word that announces roles. -/
def dropHasRoles : List (List Char) → List (List Char)
  | [] => []
  | w :: ws =>
    if sameLetters w "hasroles".toList || sameLetters w "hasrole".toList then ws else w :: ws

/-- Whether a word starts a clause about features. -/
def isFeatureWord (w : List Char) : Bool :=
  sameLetters w "usesfeature".toList || sameLetters w "usesfeatures".toList

/-- The header written as `cs`. -/
def readChars (cs : List Char) : Except HeaderFault Header := do
  let (head, inline) := match breakAt? '=' cs with
    | some (head, inline) => (head, some (String.ofList (trim inline)))
    | none => (cs, none)
  match words head with
  | [] => .error .missingType
  | [type] => .error (.missingName (String.ofList type))
  | type :: nameWord :: rest =>
    let (name, flagged) ← readName nameWord
    if name.isEmpty then .error (.missingName (String.ofList type)) else
    let (flaggedApart, rest) ← takeFlag rest
    let rest := dropHasRoles rest
    let roleWords := rest.takeWhile (!isFeatureWord ·)
    let clause := rest.dropWhile (!isFeatureWord ·)
    .ok {
      type := String.ofList type
      name := String.ofList name
      roles := (roleWords.flatMap items).map String.ofList
      interchangeable := flagged || flaggedApart
      inline
      ignored :=
        if clause.isEmpty then none
        else some {
          clause := String.intercalate " " (clause.map String.ofList)
          entity := String.ofList name } }

/-- The header written as a text. -/
def read (text : String) : Except HeaderFault Header :=
  readChars text.toList

/-- The section that a header opens. -/
def toSection (h : Header) (prov : Provenance) : NewEntity where
  type := h.type
  name := h.name
  roles := h.roles
  interchangeable := h.interchangeable
  definition := h.inline.map fun inline => { inline }
  prov := prov

end Header

end DialogModel.Entity
