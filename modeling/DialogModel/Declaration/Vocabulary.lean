import DialogModel.Declaration.Basic

/-!
# Lists, phrase lists and spellings

The declarations whose definition is a vocabulary.  The lines of a list are values, written with a
colon at the end, and synonyms of the value above them; declaring a list again merges values and
synonyms.  A phrase list is a flat list of phrases with a flag that a later declaration may not
change.  Both only ever grow.
-/

namespace DialogModel

open Entity

namespace Declaration

/-! ## Lists -/

/-- A line of the definition of a list. -/
inductive ListItem
  | value (canonicalForm : String)
  | synonym (text : String)
  deriving DecidableEq, Repr

/-- The item on a line. -/
def ListItem.ofText (text : String) : ListItem :=
  let cs := Chars.trim text.toList
  match Chars.before? ':' cs with
  | some canonicalForm => .value (String.ofList (Chars.trim canonicalForm))
  | none => .synonym (String.ofList cs)

/-- Adds a synonym to the last value, if there is one. -/
def addSynonym? (synonym : String) : List Sublist → Option (List Sublist)
  | [] => none
  | [s] => some [{ s with synonyms := FirstSeen.add s.synonyms synonym }]
  | s :: t :: rest => (addSynonym? synonym (t :: rest)).map (s :: ·)

/-- Takes a line of the definition of a list. -/
def addListLine (name : String) (sublists : List Sublist) (line : BodyLine) :
    Except Failure (List Sublist) :=
  match ListItem.ofText line.text with
  | .value canonicalForm => .ok (sublists ++ [{ canonicalForm }])
  | .synonym text =>
    match addSynonym? text sublists with
    | some sublists => .ok sublists
    | none => .error (line.prov.failure (Fault.straySynonym text name))

/-- The lines of a definition; what stands on the line of the declaration comes first. -/
def definitionLines (d : Declaration) : List BodyLine :=
  (d.inline.toList.filter (!Text.isVacant ·)).map (fun text => { text, prov := d.prov }) ++ d.lines

/-- The values of a list in the order of their lines, after those given by the form of the
declaration. -/
def sublists (d : Declaration) (given : List Sublist) : Except Failure (List Sublist) :=
  d.definitionLines.foldlM (addListLine d.name) given

/-- Merges a value into a list in which no value occurs twice. -/
def mergeSublist (existing : List Sublist) (new : Sublist) : List Sublist :=
  match existing with
  | [] => [new]
  | s :: rest =>
    if s.canonicalForm = new.canonicalForm then
      { s with synonyms := FirstSeen.addAll s.synonyms new.synonyms } :: rest
    else s :: mergeSublist rest new

/-- Merges values into the detail of a list. -/
def mergeSublists (new : List Sublist) : Detail → Detail
  | .list existing => .list (new.foldl mergeSublist existing)
  | detail => detail

/-- Declares a list; `given` are the values that the form of the declaration gives. -/
def declareList (app : App) (d : Declaration) (given : List Sublist) : Except Failure App := do
  let new ← d.sublists given
  let app ← d.register app .list
  .ok { app with registry := app.registry.updateDetail d.name (mergeSublists new) }

/-! ## Phrase lists -/

/-- Declares a phrase list. -/
def declarePhraseList (app : App) (d : Declaration) (interchangeable : Bool) :
    Except Failure App :=
  if !d.roles.isEmpty then .error (d.fail (.phraseListRoles d.name d.roles))
  else
    match app.registry.phraseList? d.name with
    | some existing =>
      if existing.interchangeable = interchangeable then .ok (addPhrases app d interchangeable)
      else .error (d.fail (.changedFlag d.name existing.interchangeable))
    | none => .ok (addPhrases app d interchangeable)
where
  /-- Adds the phrases of a declaration to its list. -/
  addPhrases (app : App) (d : Declaration) (interchangeable : Bool) : App :=
    { app with registry :=
        app.registry.updatePhrases d.name interchangeable (FirstSeen.addAll · d.items) }

/-! ## Spellings -/

/-- The spellings of a word: the word itself and each line below. -/
def spellings (d : Declaration) : List String :=
  FirstSeen.addAll [d.name] ((d.lines.map fun l => Text.trim l.text).filter (!·.isEmpty))

end Declaration

end DialogModel
