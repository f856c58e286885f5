import DialogModel.Declaration.Forms
import DialogModel.Proofs.Outcome

/-!
# What a section declares

A section with `@` names its type, and the plan is a table of names.  A section with `$` is read by
the shape of its definition, one shape after the other.  `NewEntity.Reads` and `LegacyEntity.Reads`
list the outcomes, the latter with the shape that each of them tells, so that a property of the
declarations is proved outcome by outcome and not along the chain of tests.
-/

namespace DialogModel

open Declaration

namespace NewEntity

/-- How a section with `@` can be read. -/
inductive Reads (e : NewEntity) : Plan → Prop
  | simple : Reads e .simple
  | list : Reads e (.list [])
  | composite : Reads e .composite
  | regex : Reads e .regex
  | prebuilt (h : Text.lower e.type = "prebuilt") : Reads e .prebuilt
  | patternAny : Reads e .patternAny
  | phraseList : Reads e (.phraseList e.interchangeable)

/-- **A section is read in one of the ways listed.** -/
lemma Reads.of_plan {e : NewEntity} {plan : Plan} (h : e.plan = .ok plan) : e.Reads plan := by
  simp only [NewEntity.plan] at h
  split_ifs at h with _ _ _ _ hprebuilt <;> cases h
  · exact .simple
  · exact .list
  · exact .composite
  · exact .regex
  · exact .prebuilt hprebuilt
  · exact .patternAny
  · exact .phraseList

end NewEntity

namespace LegacyEntity

/-- How a section with `$` can be read. -/
inductive Reads (e : LegacyEntity) : Declaration → Plan → Prop
  | prebuilt (h : Text.sameLetters e.name "prebuilt") :
      Reads e (e.declarationAs (String.ofList e.core) none) .prebuilt
  | regex (h : e.core.head? = some '/') :
      Reads e (e.declarationAs e.name (some (String.ofList e.core))) .regex
  | composite (h : e.core.head? = some '[') :
      Reads e (e.declarationAs e.name (some (String.ofList e.core))) .composite
  | alterations (h : isAlterations e.core) : Reads e (e.declarationAs e.name none) .alterations
  /-- The definition is a value and `=`. -/
  | list {value : List Char} (h : Chars.before? '=' e.core = some value) :
      Reads e (e.declarationAs e.name (some ""))
        (.list [{ canonicalForm := String.ofList (Chars.trim value) }])
  | simple : Reads e (e.declarationAs e.name none) .simple
  | patternAny : Reads e (e.declarationAs e.name none) .patternAny
  | phraseList (interchangeable : Bool) :
      Reads e (e.declarationAs e.name none) (.phraseList interchangeable)

variable {e : LegacyEntity}

lemma Reads.of_words {ws : List (List Char)} {plan : Plan} (h : e.planOfWords ws = .ok plan) :
    e.Reads (e.declarationAs e.name none) plan := by
  unfold planOfWords at h
  split at h
  · cases h
    exact .simple
  · cases h
    exact .patternAny
  · cases h
    exact .patternAny
  · cases h
    exact .phraseList false
  · split_ifs at h
    cases h
    exact .phraseList true
  · cases h

/-- **A section is read in one of the ways listed.** -/
lemma Reads.of_plan {d : Declaration} {plan : Plan} (h : e.plan = .ok (d, plan)) :
    e.Reads d plan := by
  simp only [LegacyEntity.plan] at h
  split_ifs at h with hprebuilt hslash hbracket halterations
  · cases h
    exact .prebuilt hprebuilt
  · cases h
    exact .regex hslash
  · cases h
    exact .composite hbracket
  · cases h
    exact .alterations halterations
  · split at h
    · next value hvalue =>
      cases h
      exact .list hvalue
    · cases hwords : e.planOfWords (Chars.words (Chars.lower e.core)) with
      | error fault =>
          rw [hwords] at h
          cases h
      | ok plan' =>
          rw [hwords] at h
          cases h
          exact .of_words hwords

end LegacyEntity

end DialogModel
