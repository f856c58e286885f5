import DialogModel.Proofs.App.Sections
import DialogModel.Proofs.Compile.Reached
import DialogModel.Proofs.Registry.Collision

/-!
# The registry of a compilation

Names and roles never collide: the registry is consistent in every state of a compilation, whatever
the source declares and labels and in whatever order.  The registry starts empty and every section
keeps it sound (`Section.apply_sound`), so nothing is assumed about the source.

A sound registry checks the next declaration exactly: what it refuses and why can be read off its
records (`check_exact`).
-/

namespace DialogModel.Compile

open Entity Registry

variable {options : Options} {probe : Probe} {sections : List Section}

lemma Reached.sound {p : Progress} (h : Reached options probe sections p) :
    p.model.app.registry.Sound :=
  h.induction (motive := fun m => m.app.registry.Sound) Registry.sound_empty
    fun _ _ _ _ hs happly => Section.apply_sound hs happly

lemma sound_of_compile {file source : String} {c : Compilation}
    (h : compile file source options probe = .ok c) : c.model.app.registry.Sound := by
  obtain ⟨ctx, hreached⟩ := reached_of_compile h
  exact hreached.sound

/-- **Names and roles do not collide.**  The registry is consistent between any two sections of a
compilation, also of one that fails later, and in the model of every successful one. -/
theorem registry_consistent (file source : String) (options : Options) (probe : Probe) :
    (∀ p, Reached options probe (Document.read file source).sections p →
      p.model.app.registry.Consistent) ∧
      ∀ c, compile file source options probe = .ok c → c.model.app.registry.Consistent :=
  ⟨fun _ h => h.sound.consistent, fun _ h => (sound_of_compile h).consistent⟩

/-- A source in which a placeholder with a role becomes a list, which keeps the role and is then
labelled by it. -/
def promotedSource : String :=
  "# travel\n- fly to \x7bcity:dest\x7d\n$city:paris=\n- lutetia\n" ++
    "# travel\n- go to \x7b@dest=Rome\x7d\n"

theorem registry_consistent_promotedSource :
    ∃ c ctx, compile "travel" promotedSource {} Probe.offline = .ok c ∧
      Reached {} Probe.offline (Document.read "travel" promotedSource).sections
        ⟨.questions, [], ctx, c.model⟩ ∧
      c.model.app.registry.ownerOf? "dest" = some "city" ∧
      c.model.app.registry.kindOf? "city" = some .list ∧
      c.model.app.registry.Consistent := by
  have hrun : (compile "travel" promotedSource {} Probe.offline).toOption.map (fun c =>
        (c.model.app.registry.ownerOf? "dest", c.model.app.registry.kindOf? "city")) =
      some (some "city", some .list) := by decide +kernel
  cases hc : compile "travel" promotedSource {} Probe.offline with
  | error e =>
      rw [hc] at hrun
      cases hrun
  | ok c =>
      rw [hc] at hrun
      obtain ⟨ctx, hreached⟩ := reached_of_compile hc
      have hresult := Prod.mk.inj (Option.some.inj hrun)
      exact ⟨c, ctx, rfl, hreached, hresult.1, hresult.2,
        (registry_consistent _ _ _ _).1 _ hreached⟩

/-- **The check of a declaration is exact.**  In every state of a compilation the registry accepts a
declaration exactly if no record of another kind has the name, no other record has it among its
roles, and no role of the declaration is the name or a role of another record.  Otherwise it reports
the first of these collisions, with the record at fault. -/
theorem check_exact (file source : String) (options : Options) (probe : Probe) (p : Progress)
    (hp : Reached options probe (Document.read file source).sections p) (kind : Kind)
    (name : String) (roles : RoleSet) :
    ((∃ reg, p.model.app.registry.claim kind name roles = .ok reg) ↔
      KindFree p.model.app.registry.records kind name ∧
        NameFree p.model.app.registry.records name ∧
        ∀ role ∈ roles, RoleFree p.model.app.registry.records name role) ∧
      ∀ v, p.model.app.registry.claim kind name roles = .error v ↔
        Collides p.model.app.registry.records kind name roles v :=
  ⟨hp.sound.exists_claim_iff, fun _ => hp.sound.claim_eq_error_iff⟩

theorem check_exact_promotedSource :
    ∃ c ctx, compile "travel" promotedSource {} Probe.offline = .ok c ∧
      Reached {} Probe.offline (Document.read "travel" promotedSource).sections
        ⟨.questions, [], ctx, c.model⟩ ∧
      Collides c.model.app.registry.records .regex "city" (.ofList ["dest"])
        (.duplicate "city" .list .regex) ∧
      Collides c.model.app.registry.records .simple "dest" (.ofList ["city"])
        (.nameIsRole "dest" "city") ∧
      Collides c.model.app.registry.records .simple "town" (.ofList ["from", "city", "dest"])
        (.roleIsName "city" "town") ∧
      Collides c.model.app.registry.records .simple "town" (.ofList ["from", "dest", "city"])
        (.roleTaken "dest" "town" "city") ∧
      RoleFree c.model.app.registry.records "city" "dest" := by
  have hrun : (compile "travel" promotedSource {} Probe.offline).toOption.map (fun c =>
        ([(.regex, "city", ["dest"]), (.simple, "dest", ["city"]),
          (.simple, "town", ["from", "city", "dest"]), (.simple, "town", ["from", "dest", "city"]),
          (.list, "city", ["dest"])] : List (Kind × String × List String)).map fun (k, n, rs) =>
            c.model.app.registry.violation? k n (.ofList rs)) =
      some [some (.duplicate "city" .list .regex), some (.nameIsRole "dest" "city"),
        some (.roleIsName "city" "town"), some (.roleTaken "dest" "town" "city"), none] := by
    decide +kernel
  obtain ⟨c, hc, hchecks⟩ := exists_ok_of_map_toOption hrun
  obtain ⟨ctx, hreached⟩ := reached_of_compile hc
  have hexact (kind : Kind) (name : String) (roles : RoleSet) :=
    check_exact _ _ _ _ _ hreached kind name roles
  simp only [List.map_cons, List.map_nil, List.cons.injEq, and_true] at hchecks
  obtain ⟨hkind, hname, hrole, htaken, hfree⟩ := hchecks
  refine ⟨c, ctx, hc, hreached, ?_, ?_, ?_, ?_, ?_⟩
  · exact ((hexact _ _ _).2 _).mp (claim_eq_error_iff.mpr hkind)
  · exact ((hexact _ _ _).2 _).mp (claim_eq_error_iff.mpr hname)
  · exact ((hexact _ _ _).2 _).mp (claim_eq_error_iff.mpr hrole)
  · exact ((hexact _ _ _).2 _).mp (claim_eq_error_iff.mpr htaken)
  · exact ((hexact _ _ _).1.mp (exists_claim_iff.mpr hfree)).2.2 "dest" (by decide)

end DialogModel.Compile
