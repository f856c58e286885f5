import Mathlib.Tactic.Common
import DialogModel.Model

/-!
# Successful outcomes

Every stage of a compilation is a chain of `Except Failure` computations, and the theory of this
library is about the runs that succeed.  The lemmas here take such a run apart: a chain succeeds if
each link does, and what one round of a loop preserves holds after the loop.
-/

namespace DialogModel

lemma bind_eq_ok_iff {ε α β : Type} {x : Except ε α} {f : α → Except ε β} {b : β} :
    (x >>= f) = .ok b ↔ ∃ a, x = .ok a ∧ f a = .ok b := by
  cases x with
  | error e => simp [bind, Except.bind]
  | ok a => simp [bind, Except.bind]

lemma Provenance.locate_eq_ok_iff {ε α : Type} [Cause ε] {p : Provenance} {x : Except ε α} {a : α} :
    p.locate x = .ok a ↔ x = .ok a := by
  cases x with
  | error e => simp [locate]
  | ok b => simp [locate]

/-- What is known of the result of a computation tells that it has one. -/
lemma exists_ok_of_map_toOption {ε α β : Type} {x : Except ε α} {f : α → β} {b : β}
    (h : x.toOption.map f = some b) : ∃ a, x = .ok a ∧ f a = b := by
  cases x with
  | error e => cases h
  | ok a => exact ⟨a, rfl, Option.some.inj h⟩

/-- What every round of a loop over its items preserves, the loop preserves. -/
lemma foldlM_ok_induction_mem {ε α β : Type} {f : β → α → Except ε β} (motive : β → Prop) :
    ∀ {as : List α} {b b' : β}, (∀ a ∈ as, ∀ b b', motive b → f b a = .ok b' → motive b') →
      motive b → as.foldlM f b = .ok b' → motive b'
  | [], b, b', _, hb, h => by
      cases h
      exact hb
  | a :: as, b, b', hstep, hb, h => by
      obtain ⟨ha, has⟩ := List.forall_mem_cons.mp hstep
      rw [List.foldlM_cons] at h
      obtain ⟨c, hc, h⟩ := bind_eq_ok_iff.mp h
      exact foldlM_ok_induction_mem motive has (ha b c hb hc) h

/-- What every round of a loop preserves, the loop preserves. -/
lemma foldlM_ok_induction {ε α β : Type} {f : β → α → Except ε β} (motive : β → Prop)
    (hstep : ∀ b a b', motive b → f b a = .ok b' → motive b') {as : List α} {b b' : β}
    (hb : motive b) (h : as.foldlM f b = .ok b') : motive b' :=
  foldlM_ok_induction_mem motive (fun a _ b b' => hstep b a b') hb h

/-- What a round of a loop does for its item and no round undoes, holds of every item after the
loop. -/
lemma foldlM_ok_forall {ε α β : Type} {f : β → α → Except ε β} (inv : β → Prop)
    (done : α → β → Prop) (hinv : ∀ b a b', inv b → f b a = .ok b' → inv b')
    (hdone : ∀ b a b', inv b → f b a = .ok b' → done a b')
    (hkeep : ∀ b a b' x, inv b → f b a = .ok b' → done x b → done x b') :
    ∀ {as : List α} {b b' : β}, inv b → as.foldlM f b = .ok b' → ∀ a ∈ as, done a b'
  | [], _, _, _, _ => by simp
  | a :: as, b, b', hb, h => by
      rw [List.foldlM_cons] at h
      obtain ⟨c, hc, h⟩ := bind_eq_ok_iff.mp h
      have hinvc := hinv b a c hb hc
      have hfirst : inv b' ∧ done a b' :=
        foldlM_ok_induction (fun b => inv b ∧ done a b)
          (fun b x b' hb hstep => ⟨hinv b x b' hb.1 hstep, hkeep b x b' a hb.1 hstep hb.2⟩)
          ⟨hinvc, hdone b a c hb hc⟩ h
      exact List.forall_mem_cons.mpr ⟨hfirst.2, foldlM_ok_forall inv done hinv hdone hkeep hinvc h⟩

/-- Two loops whose rounds agree. -/
lemma foldlM_congr {ε α β : Type} {f g : β → α → Except ε β} {as : List α}
    (h : ∀ a ∈ as, ∀ b, f b a = g b a) (b : β) : as.foldlM f b = as.foldlM g b := by
  induction as generalizing b with
  | nil => rfl
  | cons a as ih =>
      obtain ⟨ha, has⟩ := List.forall_mem_cons.mp h
      rw [List.foldlM_cons, List.foldlM_cons, ha b]
      exact congrArg (g b a >>= ·) (funext (ih has))

/-- A loop that succeeds, and another whose rounds do what those of the first do if they
succeed. -/
lemma foldlM_ok_mono {ε α β : Type} {f g : β → α → Except ε β} {as : List α}
    (h : ∀ a ∈ as, ∀ b b', f b a = .ok b' → g b a = .ok b') {b b' : β}
    (hf : as.foldlM f b = .ok b') : as.foldlM g b = .ok b' := by
  induction as generalizing b with
  | nil => exact hf
  | cons a as ih =>
      obtain ⟨ha, has⟩ := List.forall_mem_cons.mp h
      rw [List.foldlM_cons] at hf ⊢
      obtain ⟨c, hc, hf⟩ := bind_eq_ok_iff.mp hf
      exact bind_eq_ok_iff.mpr ⟨c, ha b c hc, ih has hf⟩

/-- A loop of which no round changes anything. -/
lemma foldlM_eq_self {ε α β : Type} {f : β → α → Except ε β} {as : List α} {b : β}
    (h : ∀ a ∈ as, f b a = .ok b) : as.foldlM f b = .ok b := by
  induction as with
  | nil => rfl
  | cons a as ih =>
      obtain ⟨ha, has⟩ := List.forall_mem_cons.mp h
      rw [List.foldlM_cons, ha]
      exact ih has

/-- A loop whose rounds fail or not whatever the loop has done so far: it ends with the first
failure, and without one it does what its rounds do. -/
lemma foldlM_eq_findSome? {ε α β : Type} {f : β → α → Except ε β} {fault? : α → Option ε}
    {next : β → α → β}
    (h : ∀ b a, f b a = ((fault? a).elim (.ok (next b a)) Except.error)) (as : List α) (b : β) :
    as.foldlM f b = (as.findSome? fault?).elim (.ok (as.foldl next b)) Except.error := by
  induction as generalizing b with
  | nil => rfl
  | cons a as ih =>
      rw [List.foldlM_cons, h, List.findSome?_cons]
      cases fault? a with
      | some e => rfl
      | none => exact ih (next b a)

end DialogModel
