import DialogModel.OrderedMap
import DialogModel.FirstSeen

/-!
# The knowledge base

Questions with their answers, documents to read further answers from, and words that are spelled
in several ways.
-/

namespace DialogModel

/-- An answer and the questions that it answers. -/
structure QuestionPair where
  /-- Assigned by whoever reads the knowledge base. -/
  id : Nat := 0
  answer : String
  source : String
  questions : List String
  metadata : List (String × String) := []
  deriving DecidableEq, Repr, Inhabited

/-- A document other than a web page. -/
structure ImportedFile where
  uri : String
  name : String
  deriving DecidableEq, Repr, Inhabited

/-- The knowledge base described so far. -/
structure KnowledgeBase where
  settings : OrderedMap String String := ∅
  pairs : List QuestionPair := []
  urls : List String := []
  files : List ImportedFile := []
  /-- For each word its spellings, the word itself first. -/
  alterations : List (List String) := []
  deriving DecidableEq, Inhabited

namespace KnowledgeBase

/-- The source of the pairs that a file writes out. -/
def editorialSource : String :=
  "custom editorial"

/-- Records a setting. -/
def setSetting (kb : KnowledgeBase) (key value : String) : KnowledgeBase :=
  { kb with settings := kb.settings.insert key value }

/-- Adds a web page unless it is there. -/
def addUrl (kb : KnowledgeBase) (uri : String) : KnowledgeBase :=
  { kb with urls := FirstSeen.add kb.urls uri }

/-- Adds a document unless one with the same address is there. -/
def addFile (kb : KnowledgeBase) (file : ImportedFile) : KnowledgeBase :=
  if kb.files.any fun f => decide (f.uri = file.uri) then kb
  else { kb with files := kb.files ++ [file] }

/-- Adds a pair. -/
def addPair (kb : KnowledgeBase) (pair : QuestionPair) : KnowledgeBase :=
  { kb with pairs := kb.pairs ++ [pair] }

/-- Adds the spellings of a word. -/
def addAlterations (kb : KnowledgeBase) (words : List String) : KnowledgeBase :=
  { kb with alterations := kb.alterations ++ [words] }

end KnowledgeBase

end DialogModel
