import DialogModel.App
import DialogModel.Json
import DialogModel.KnowledgeBase

/-!
# The written model

The JSON form of the application, of the knowledge base and of what the compiler reports.
Entities are grouped by kind, each group in registry order.  Settings become fields of the whole
and give way to the fields that every model has.
-/

namespace DialogModel

namespace Inherits

/-- The JSON form of a reference to a prebuilt model. -/
def toJson (i : Inherits) : Json :=
  .object [("domain_name", .str i.domainName), ("model_name", .str i.modelName)]

end Inherits

namespace Entity

/-- The JSON form of a value of a list entity. -/
def Sublist.toJson (s : Sublist) : Json :=
  .object [("canonicalForm", .str s.canonicalForm), ("list", .strings s.synonyms)]

/-- The fields that the detail of an entity adds to its name and its roles. -/
def Detail.fields : Detail → List (String × Json)
  | .list sublists => [("subLists", .arr (sublists.map Sublist.toJson))]
  | .composite children => [("children", .strings children)]
  | .regex pattern => [("regexPattern", .str pattern)]
  | .patternAny explicitList => [("explicitList", .strings explicitList)]
  | .simple | .prebuilt | .phraseList _ => []

/-- The JSON form of an entity that may stand for a prebuilt model. -/
def Record.toJson (inherits : Option Inherits) (r : Record) : Json :=
  .object ([("name", .str r.name), ("roles", .strings r.roles.toList)] ++
    (inherits.map fun i => ("inherits", i.toJson)).toList ++ r.detail.fields)

/-- The JSON form of a phrase list. -/
def Phrases.toJson (name : String) (p : Phrases) : Json :=
  .object [("name", .str name), ("words", .str (String.intercalate "," p.values)),
    ("mode", .bool p.interchangeable), ("activated", .bool true)]

end Entity

/-- The JSON form of a label. -/
def Label.toJson (l : Label) : Json :=
  .object ([("entity", .str l.entity), ("startPos", .num l.startPos), ("endPos", .num l.endPos)] ++
    (l.role.map fun role => ("role", Json.str role)).toList)

/-- The JSON form of an utterance. -/
def Example.toJson (u : Example) : Json :=
  .object [("text", .str u.text), ("intent", .str u.intent),
    ("entities", .arr (u.labels.map Label.toJson))]

/-- The JSON form of a pattern. -/
def Pattern.toJson (p : Pattern) : Json :=
  .object [("pattern", .str p.pattern), ("intent", .str p.intent)]

/-- Settings as fields. -/
def settingFields (settings : OrderedMap String String) : List (String × Json) :=
  settings.toList.map fun (key, value) => (key, .str value)

namespace App

/-- The JSON form of the intents. -/
def intentsJson (app : App) : Json :=
  .arr <| app.intents.toList.map fun (name, inherits) =>
    .object ([("name", .str name)] ++ (inherits.map fun i => ("inherits", i.toJson)).toList)

/-- The JSON form of the entities of one kind. -/
def entitiesJson (app : App) (kind : Entity.Kind) : Json :=
  .arr <| (app.registry.ofKind kind).map fun r => r.toJson (app.entityInherits.get? r.name)

/-- The JSON form of the phrase lists. -/
def phraseListsJson (app : App) : Json :=
  .arr <| app.registry.phraseLists.toList.map fun (name, phrases) => phrases.toJson name

/-- The JSON form of the utterances. -/
def utterancesJson (app : App) : Json :=
  .arr (app.utterances.map Example.toJson)

/-- The JSON form of the patterns. -/
def patternsJson (app : App) : Json :=
  .arr (app.patterns.map Pattern.toJson)

/-- The fields that every application has. -/
def fields (app : App) : List (String × Json) :=
  [("intents", app.intentsJson),
   ("entities", app.entitiesJson .simple),
   ("composites", app.entitiesJson .composite),
   ("closedLists", app.entitiesJson .list),
   ("regex_entities", app.entitiesJson .regex),
   ("prebuiltEntities", app.entitiesJson .prebuilt),
   ("patternAnyEntities", app.entitiesJson .patternAny),
   ("model_features", app.phraseListsJson),
   ("utterances", app.utterancesJson),
   ("patterns", app.patternsJson)]

/-- The JSON form of the application. -/
def toJson (app : App) : Json :=
  .object (settingFields app.settings ++ app.fields)

end App

/-- The JSON form of a pair. -/
def QuestionPair.toJson (p : QuestionPair) : Json :=
  .object [("id", .num p.id), ("answer", .str p.answer), ("source", .str p.source),
    ("questions", .strings p.questions),
    ("metadata", .arr <| p.metadata.map fun (name, value) =>
      .object [("name", .str name), ("value", .str value)])]

namespace KnowledgeBase

/-- The JSON form of the pairs. -/
def pairsJson (kb : KnowledgeBase) : Json :=
  .arr (kb.pairs.map QuestionPair.toJson)

/-- The JSON form of the imported documents. -/
def filesJson (kb : KnowledgeBase) : Json :=
  .arr <| kb.files.map fun f => .object [("fileName", .str f.name), ("fileUri", .str f.uri)]

/-- The JSON form of the spellings. -/
def wordAlterationsJson (kb : KnowledgeBase) : Json :=
  .arr <| kb.alterations.map fun words => .object [("alterations", .strings words)]

/-- The JSON form of the knowledge base without its spellings. -/
def toJson (kb : KnowledgeBase) : Json :=
  .object (settingFields kb.settings ++
    [("qnaList", kb.pairsJson), ("urls", .strings kb.urls), ("files", kb.filesJson)])

/-- The JSON form of the spellings as an object of their own. -/
def alterationsJson (kb : KnowledgeBase) : Json :=
  .object [("wordAlterations", kb.wordAlterationsJson)]

end KnowledgeBase

/-- The JSON form of a diagnostic. -/
def Diagnostic.toJson (d : Diagnostic) : Json :=
  .object [("severity", .str d.severity.name), ("code", .str d.code.name), ("line", .num d.line),
    ("message", .str d.message)]

namespace Failure

/-- The fields that every failure has. -/
def fields (f : Failure) : List (String × Json) :=
  [("code", .str f.code.name), ("file", .str f.file), ("line", .num f.line),
   ("message", .str f.message)]

/-- The JSON form of a failure for its reader, without the folded errors: they are in the
message. -/
def toJson (f : Failure) : Json :=
  .object (("context", .optional f.context) :: f.fields)

/-- The JSON form of a failure that can be read back.  What is missing or empty is left out. -/
def toStoredJson (f : Failure) : Json :=
  .object (f.fields ++ (f.context.map fun c => ("context", Json.str c)).toList ++
    if f.diagnostics.isEmpty then []
    else [("diagnostics", .arr (f.diagnostics.map Diagnostic.toJson))])

end Failure

end DialogModel
