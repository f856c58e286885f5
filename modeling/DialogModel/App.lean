import DialogModel.Registry

/-!
# The application

The model of intent recognition that a source file describes: settings, intents, the registry of
entities, and the utterances and patterns that express the intents.  An utterance is identified by
its text and its intent; adding it again merges the labels.
-/

namespace DialogModel

/-- The model of a prebuilt domain that an intent or entity stands for. -/
structure Inherits where
  domainName : String
  modelName : String
  deriving DecidableEq, Repr, Inhabited

/-- A labelled part of an utterance, by the positions of its first and its last character. -/
structure Label where
  entity : String
  startPos : Nat
  endPos : Nat
  role : Option String := none
  deriving DecidableEq, Repr, Inhabited

/-- A text that expresses an intent. -/
structure Example where
  text : String
  intent : String
  labels : List Label := []
  deriving DecidableEq, Repr, Inhabited

/-- A template that expresses an intent. -/
structure Pattern where
  pattern : String
  intent : String
  deriving DecidableEq, Repr, Inhabited

/-- The application described so far. -/
structure App where
  settings : OrderedMap String String := ∅
  /-- The intents by name, with the prebuilt model that each stands for. -/
  intents : OrderedMap String (Option Inherits) := ∅
  registry : Registry := {}
  /-- The prebuilt models that entities stand for; kept when an entity changes its kind. -/
  entityInherits : OrderedMap String Inherits := ∅
  utterances : List Example := []
  patterns : List Pattern := []
  /-- The entities that have been labelled without a role. -/
  unroled : List String := []
  deriving DecidableEq, Inhabited

namespace App

/-- Records a setting. -/
def setSetting (app : App) (key value : String) : App :=
  { app with settings := app.settings.insert key value }

/-- Adds an intent unless it is there. -/
def ensureIntent (app : App) (name : String) : App :=
  if app.intents.contains name then app
  else { app with intents := app.intents.insert name none }

/-- Records the prebuilt model of an intent, adding the intent if necessary. -/
def setIntentInherits (app : App) (name : String) (inherits : Inherits) : App :=
  { app with intents := app.intents.insert name (some inherits) }

/-- Records the prebuilt model of an entity. -/
def setEntityInherits (app : App) (name : String) (inherits : Inherits) : App :=
  { app with entityInherits := app.entityInherits.insert name inherits }

/-- Records that an entity has been labelled. -/
def noteLabel (app : App) (entity : String) (role : Option String) : App :=
  if role.isNone then { app with unroled := FirstSeen.add app.unroled entity } else app

/-- Whether an entity has been labelled without a role. -/
def isLabelledWithoutRole (app : App) (entity : String) : Bool :=
  decide (entity ∈ app.unroled)

/-- Merges an utterance into a list in which no text and intent occur together twice. -/
def mergeExample (u : Example) : List Example → List Example
  | [] => [u]
  | v :: vs =>
    if v.text = u.text ∧ v.intent = u.intent then
      { v with labels := FirstSeen.addAll v.labels u.labels } :: vs
    else v :: mergeExample u vs

/-- Adds an utterance, or its labels to the utterance with the same text and intent. -/
def addUtterance (app : App) (u : Example) : App :=
  let noted := u.labels.foldl (fun app l => app.noteLabel l.entity l.role) app
  { noted with utterances := mergeExample u app.utterances }

/-- Adds a pattern unless it is there, and tells whether it is new. -/
def addPattern (app : App) (p : Pattern) : Bool × App :=
  if p ∈ app.patterns then (false, app)
  else (true, { app with patterns := app.patterns ++ [p] })

end App

end DialogModel
