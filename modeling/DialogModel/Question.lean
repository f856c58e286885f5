import DialogModel.Model
import DialogModel.Section

/-!
# Questions

A question section becomes a pair of the knowledge base.  Wordings are trimmed; empty and repeated
ones are dropped.
-/

namespace DialogModel.QuestionSection

/-- The wordings of the question. -/
def wordings (q : QuestionSection) : List String :=
  FirstSeen.ofList ((q.questions.map Text.trim).filter (!·.isEmpty))

/-- The pair that the section describes. -/
def pair (q : QuestionSection) : QuestionPair where
  answer := q.answer
  source := KnowledgeBase.editorialSource
  questions := q.wordings
  metadata := q.filters

/-- Takes a question into the model. -/
def apply (q : QuestionSection) (m : Model) : Model :=
  { m with kb := m.kb.addPair q.pair }

end DialogModel.QuestionSection
