import DialogModel.Declaration.Builtin
import DialogModel.Declaration.Shape
import DialogModel.Declaration.Vocabulary

/-!
# The two forms of declarations

An entity is declared by a section that starts with `@` and names its type, or by one that starts
with `$` and whose type has to be told from the shape of its definition.  `Plan` is what both come
to: a declaration and the kind of thing that it declares.
-/

namespace DialogModel

open Entity

namespace Declaration

/-- What a declaration declares. -/
inductive Plan
  | simple
  | patternAny
  /-- A list, with the values that the form of the declaration gives. -/
  | list (given : List Sublist)
  | composite
  | regex
  | prebuilt
  | phraseList (interchangeable : Bool)
  /-- The spellings of a word. -/
  | alterations
  deriving DecidableEq, Repr

/-- Carries out a declaration. -/
def run (ctx : Context) (d : Declaration) (m : Model) (plan : Plan) : Except Failure Model :=
  match plan with
  | .alterations => .ok { m with kb := m.kb.addAlterations d.spellings }
  | .simple => return { m with app := ← d.registerPlain m.app .simple }
  | .patternAny => return { m with app := ← d.registerPlain m.app .patternAny }
  | .list given => return { m with app := ← d.declareList m.app given }
  | .composite => return { m with app := ← d.declareComposite m.app }
  | .regex => return { m with app := ← d.declareRegex m.app }
  | .prebuilt => return { m with app := ← d.declarePrebuilt ctx m.app }
  | .phraseList interchangeable =>
    return { m with app := ← d.declarePhraseList m.app interchangeable }

/-- The warnings about a declaration. -/
def warnings (ctx : Context) (d : Declaration) : Plan → List Diagnostic
  | .prebuilt => d.prebuiltWarnings ctx
  | _ => []

end Declaration

/-! ## Declarations with `@` -/

namespace NewEntity

/-- The declaration of a section. -/
def declaration (e : NewEntity) : Declaration where
  name := e.name
  roles := .ofList e.roles
  inline := e.definition.map Definition.inline
  lines := (e.definition.map Definition.lines).getD []
  prov := e.prov

/-- What a section declares. -/
def plan (e : NewEntity) : Except Declaration.Fault Declaration.Plan :=
  let type := Text.lower e.type
  if type = "simple" ∨ type = "ml" then .ok .simple
  else if type = "list" then .ok (.list [])
  else if type = "composite" then .ok .composite
  else if type = "regex" then .ok .regex
  else if type = "prebuilt" then .ok .prebuilt
  else if type = "patternany" ∨ type = "pattern.any" then .ok .patternAny
  else if type = "phraselist" then .ok (.phraseList e.interchangeable)
  else .error (.unknownType type e.name)

/-- Carries out the declaration of a section. -/
def apply (ctx : Context) (e : NewEntity) (m : Model) : Except Failure Model := do
  let plan ← e.prov.locate e.plan
  e.declaration.run ctx m plan

/-- The warnings about a section. -/
def warnings (ctx : Context) (e : NewEntity) : List Diagnostic :=
  match e.plan with
  | .ok plan => e.declaration.warnings ctx plan
  | .error _ => []

end NewEntity

/-! ## Declarations with `$` -/

namespace LegacyEntity

open Chars

/-- The text before and after the first `roles=` that stands at the start of a word. -/
def breakAtRoles? (atWordStart : Bool) : List Char → Option (List Char × List Char)
  | [] => none
  | c :: cs =>
    match atWordStart, after? "roles=".toList (lower (c :: cs)) with
    | true, some _ => some ([], (c :: cs).drop 6)
    | _, _ => (breakAtRoles? (isBlank c) cs).map fun (before, rest) => (c :: before, rest)

/-- Splits a trailing clause of roles off a definition.  A pattern ends with its last slash, and
its clause is looked for behind that. -/
def splitRoles (typeString : List Char) : List Char × List (List Char) :=
  let isPattern := typeString.head? = some '/'
  let kept := if isPattern then dropWhileEnd (· != '/') typeString else []
  match breakAtRoles? (!isPattern) (typeString.drop kept.length) with
  | some (before, roles) => (trim (kept ++ before), items roles)
  | none => (trim typeString, [])

/-- The definition of a section without its clause of roles. -/
def core (e : LegacyEntity) : List Char :=
  (splitRoles e.typeString.toList).1

/-- The roles of a section. -/
def roles (e : LegacyEntity) : RoleSet :=
  .ofList ((splitRoles e.typeString.toList).2.map String.ofList)

/-- The declaration of a section under a name and with a definition on its line. -/
def declarationAs (e : LegacyEntity) (name : String) (inline : Option String) : Declaration where
  name := name
  roles := e.roles
  inline := inline
  lines := e.lines
  prov := e.prov

/-- Whether a definition announces spellings. -/
def isAlterations (core : List Char) : Bool :=
  match after? "qna-alterations".toList (lower core) with
  | some rest => trim rest == ['=']
  | none => false

/-- What a definition by words declares. -/
def planOfWords (e : LegacyEntity) (words : List (List Char)) :
    Except Declaration.Fault Declaration.Plan :=
  match words.map String.ofList with
  | ["simple"] => .ok .simple
  | ["patternany"] => .ok .patternAny
  | ["pattern.any"] => .ok .patternAny
  | ["phraselist"] => .ok (.phraseList false)
  | ["phraselist", flag] =>
    if flag = "interchangeable" then .ok (.phraseList true)
    else .error (.unknownPhraseListFlag flag)
  | _ => .error (.unrecognizedDefinition e.typeString e.name)

/-- What a section declares, and the declaration. -/
def plan (e : LegacyEntity) : Except Declaration.Fault (Declaration × Declaration.Plan) :=
  let core := e.core
  let text := String.ofList core
  if Text.sameLetters e.name "prebuilt" then .ok (e.declarationAs text none, .prebuilt)
  else if core.head? = some '/' then .ok (e.declarationAs e.name (some text), .regex)
  else if core.head? = some '[' then .ok (e.declarationAs e.name (some text), .composite)
  else if isAlterations core then .ok (e.declarationAs e.name none, .alterations)
  else
    match before? '=' core with
    | some canonicalForm =>
      .ok (e.declarationAs e.name (some ""),
        .list [{ canonicalForm := String.ofList (trim canonicalForm) }])
    | none => (e.planOfWords (words (lower core))).map (e.declarationAs e.name none, ·)

/-- Carries out the declaration of a section. -/
def apply (ctx : Context) (e : LegacyEntity) (m : Model) : Except Failure Model := do
  let (declaration, plan) ← e.prov.locate e.plan
  declaration.run ctx m plan

/-- The warnings about a section. -/
def warnings (ctx : Context) (e : LegacyEntity) : List Diagnostic :=
  match e.plan with
  | .ok (declaration, plan) => declaration.warnings ctx plan
  | .error _ => []

end LegacyEntity

end DialogModel
