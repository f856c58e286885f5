import DialogModel.Proofs.App.Sections
import DialogModel.Proofs.FirstSeen

/-!
# The application only grows

No change of the application takes anything away.  `App.Grows` says what that means for each part:
a record keeps its name and its roles in their order, and its detail changes in the few ways that
`Detail.Grows` lists; roles keep their owners; intents, patterns and utterances stay in place and
new ones come behind them.

A promotion removes a record and declares it again, so that growth holds of the two together and
not of each.  What carries it is that the roles of the old record are declared first.
-/

namespace DialogModel

/-! ## Lists that grow -/

/-- The members of the first list stand at the front of the second, each of them possibly changed
by `R`. -/
inductive Extends {α : Type} (R : α → α → Prop) : List α → List α → Prop
  | nil (ys : List α) : Extends R [] ys
  | cons {x y : α} {xs ys : List α} (h : R x y) (hs : Extends R xs ys) :
      Extends R (x :: xs) (y :: ys)

namespace Extends

variable {α : Type} {R : α → α → Prop}

lemma refl (hR : ∀ x, R x x) : ∀ xs : List α, Extends R xs xs
  | [] => .nil []
  | x :: xs => .cons (hR x) (refl hR xs)

lemma trans {xs ys zs : List α} (h : Extends R xs ys) (h' : Extends R ys zs)
    (hR : ∀ {x y z}, R x y → R y z → R x z) : Extends R xs zs := by
  induction h generalizing zs with
  | nil => exact .nil zs
  | cons hxy _ ih =>
      cases h' with
      | cons hyz hrest => exact .cons (hR hxy hyz) (ih hrest)

end Extends

lemma OrderedMap.keys_insert {α β : Type} [DecidableEq α] (m : OrderedMap α β) (k : α) (v : β) :
    (m.insert k v).keys = FirstSeen.add m.keys k := by
  have hentries : ∀ es : List (α × β),
      (insertEntry k v es).map Prod.fst = FirstSeen.add (es.map Prod.fst) k := by
    intro es
    induction es with
    | nil => rfl
    | cons e es ih =>
        obtain ⟨k', v'⟩ := e
        by_cases hk : k' = k
        · simp [insertEntry, FirstSeen.add, hk]
        · rw [insertEntry, if_neg hk, List.map_cons, ih, List.map_cons,
            FirstSeen.add_cons_of_ne hk]
  exact hentries m.toList

namespace Entity

/-! ## Records -/

/-- A value of a list keeps its form, and its synonyms grow at the end. -/
structure Sublist.Grows (s t : Sublist) : Prop where
  canonicalForm : t.canonicalForm = s.canonicalForm
  synonyms : s.synonyms <+: t.synonyms

/-- A phrase list keeps its flag, and its values grow at the end. -/
structure Phrases.Grows (p q : Phrases) : Prop where
  interchangeable : q.interchangeable = p.interchangeable
  values : p.values <+: q.values

/-- What may become of the detail of an entity.  Its kind stays, but that a placeholder becomes an
entity of any other kind and a simple entity a list, a composite or a regex. -/
inductive Detail.Grows : Detail → Detail → Prop
  | refl (d : Detail) : Grows d d
  | list {old new : List Sublist} (h : Extends Sublist.Grows old new) :
      Grows (.list old) (.list new)
  /-- A composite without children gets some. -/
  | children (new : List String) : Grows (.composite []) (.composite new)
  /-- A regex without a pattern gets one. -/
  | pattern (new : String) : Grows (.regex "") (.regex new)
  | promoted {explicitList : List String} {d : Detail}
      (h : d.kind ∈ [.simple, .list, .composite, .regex, .prebuilt]) :
      Grows (.patternAny explicitList) d
  | absorbed {d : Detail} (h : d.kind ∈ [.list, .composite, .regex]) : Grows .simple d

/-- A record keeps its roles in their order, and its detail grows. -/
structure Record.Grows (r r' : Record) : Prop where
  detail : r.detail.Grows r'.detail
  roles : r.roles.toList <+: r'.roles.toList

lemma Sublist.Grows.refl (s : Sublist) : s.Grows s :=
  ⟨rfl, List.prefix_refl _⟩

lemma Sublist.Grows.trans {s t u : Sublist} (h : s.Grows t) (h' : t.Grows u) : s.Grows u :=
  ⟨h'.canonicalForm.trans h.canonicalForm, h.synonyms.trans h'.synonyms⟩

namespace Detail.Grows

/-- The kind stays where it is not the kind of a placeholder or of a simple entity. -/
lemma kind_eq {d d' : Detail} (h : d.Grows d') (hany : d.kind ≠ .patternAny)
    (hsimple : d.kind ≠ .simple) : d'.kind = d.kind := by
  cases h with
  | refl => rfl
  | list => rfl
  | children => rfl
  | pattern => rfl
  | promoted => exact absurd rfl hany
  | absorbed => exact absurd rfl hsimple

lemma trans {d d' d'' : Detail} (h : d.Grows d') (h' : d'.Grows d'') : d.Grows d'' := by
  cases h with
  | refl => exact h'
  | list hold =>
      cases h' with
      | refl => exact .list hold
      | list hnew => exact .list (hold.trans hnew Sublist.Grows.trans)
  | children new =>
      cases h' with
      | refl => exact .children new
      | children new' => exact .children new'
  | pattern new =>
      cases h' with
      | refl => exact .pattern new
      | pattern new' => exact .pattern new'
  | promoted hkind =>
      refine .promoted ?_
      by_cases hsimple : d'.kind = .simple
      · cases h' with
        | absorbed habsorbs =>
            have hsub := (List.prefix_append [Kind.list, .composite, .regex] [.prebuilt]).subset
            exact List.mem_cons_of_mem _ (hsub habsorbs)
        | _ => simp_all [Detail.kind]
      · rwa [h'.kind_eq (by rintro hany; simp [hany] at hkind) hsimple]
  | absorbed hkind =>
      refine .absorbed ?_
      rwa [h'.kind_eq (by rintro hany; simp [hany] at hkind) (by rintro hs; simp [hs] at hkind)]

end Detail.Grows

lemma Record.Grows.refl (r : Record) : r.Grows r :=
  ⟨.refl _, List.prefix_refl _⟩

lemma Record.Grows.trans {r r' r'' : Record} (h : r.Grows r') (h' : r'.Grows r'') : r.Grows r'' :=
  ⟨h.detail.trans h'.detail, h.roles.trans h'.roles⟩

lemma Record.grows_addRoles (r : Record) (roles : RoleSet) : r.Grows (r.addRoles roles) := by
  unfold addRoles
  split
  · exact .refl r
  · exact ⟨.refl _, FirstSeen.prefix_addAll _ _⟩

/-- A new record lists the roles that it is declared with. -/
lemma Record.toList_roles_ofKind {kind : Kind} (hkind : kind ≠ .phraseList) (name : String)
    (roles : RoleSet) : ((ofKind kind name).addRoles roles).roles.toList = roles.toList := by
  unfold addRoles
  split
  · next phrases hdetail =>
    have hphrases : (Detail.empty kind).kind = .phraseList := congrArg Detail.kind hdetail
    exact absurd (Detail.kind_empty kind ▸ hphrases) hkind
  · exact FirstSeen.addAll_eq_append roles.nodup fun _ _ => List.not_mem_nil

end Entity

open Entity

/-! ## Details that are completed -/

namespace Declaration

lemma extends_mergeSublist (existing : List Sublist) (new : Sublist) :
    Extends Sublist.Grows existing (mergeSublist existing new) := by
  induction existing with
  | nil => exact .nil _
  | cons s rest ih =>
      unfold mergeSublist
      split
      · exact .cons ⟨rfl, FirstSeen.prefix_addAll _ _⟩ (.refl Sublist.Grows.refl rest)
      · exact .cons (.refl s) ih

lemma extends_foldl_mergeSublist (new existing : List Sublist) :
    Extends Sublist.Grows existing (new.foldl mergeSublist existing) := by
  induction new generalizing existing with
  | nil => exact .refl Sublist.Grows.refl existing
  | cons s new ih => exact (extends_mergeSublist existing s).trans (ih _) Sublist.Grows.trans

lemma Completes.grows {f : Detail → Detail} (hf : Completes f) (d : Detail) : d.Grows (f d) := by
  cases hf with
  | sublists new =>
      cases d with
      | list existing => exact .list (extends_foldl_mergeSublist new existing)
      | _ => exact .refl _
  | children new =>
      cases d with
      | composite existing =>
          cases existing with
          | nil => exact .children new
          | cons child rest => exact .refl _
      | _ => exact .refl _
  | pattern new =>
      cases d with
      | regex existing =>
          by_cases hempty : existing = ""
          · subst hempty
            exact .pattern _
          · simpa [setPattern, hempty] using Detail.Grows.refl (.regex existing)
      | _ => exact .refl _

end Declaration

/-! ## The registry -/

namespace Registry

variable {reg reg' : Registry} {kind : Kind} {name : String} {roles : RoleSet}

/-- Entities, owners and phrase lists stay, and they only grow. -/
structure Grows (reg reg' : Registry) : Prop where
  entities : ∀ {name r}, reg.get? name = some r → ∃ r', reg'.get? name = some r' ∧ r.Grows r'
  owners : ∀ {role e}, reg.ownerOf? role = some e → reg'.ownerOf? role = some e
  phraseLists : ∀ {name p}, reg.phraseList? name = some p →
    ∃ p', reg'.phraseList? name = some p' ∧ p.Grows p'

lemma Grows.refl (reg : Registry) : reg.Grows reg :=
  ⟨fun h => ⟨_, h, .refl _⟩, id, fun h => ⟨_, h, rfl, List.prefix_refl _⟩⟩

lemma Grows.trans {reg'' : Registry} (h : reg.Grows reg') (h' : reg'.Grows reg'') :
    reg.Grows reg'' where
  entities hget := by
    obtain ⟨r', hget', hr'⟩ := h.entities hget
    obtain ⟨r'', hget'', hr''⟩ := h'.entities hget'
    exact ⟨r'', hget'', hr'.trans hr''⟩
  owners howner := h'.owners (h.owners howner)
  phraseLists hget := by
    obtain ⟨p', hget', hp'⟩ := h.phraseLists hget
    obtain ⟨p'', hget'', hp''⟩ := h'.phraseLists hget'
    exact ⟨p'', hget'', hp''.interchangeable.trans hp'.interchangeable,
      hp'.values.trans hp''.values⟩

lemma grows_declared (h : reg.Admits kind name roles) :
    reg.Grows (reg.declared kind name roles) where
  entities {x r} hget := by
    rw [get?_declared]
    split_ifs with hx
    · subst hx
      refine ⟨_, rfl, ?_⟩
      simpa [getOrNew, hget] using r.grows_addRoles roles
    · exact ⟨r, hget, .refl r⟩
  owners {role e} howner := by
    rw [ownerOf?_declared]
    split_ifs with hrole
    · rw [h.role_free role hrole e howner]
    · exact howner
  phraseLists hget := ⟨_, hget, rfl, List.prefix_refl _⟩

lemma grows_promoted {r : Record} (hkind : kind ≠ .phraseList) (hget : reg.get? name = some r)
    (hdetail : r.detail.Grows (.empty kind))
    (h : (reg.erase name).Admits kind name (r.roles.union roles)) :
    reg.Grows ((reg.erase name).declared kind name (r.roles.union roles)) where
  entities {x old} hold := by
    rw [get?_declared]
    split_ifs with hx
    · subst hx
      obtain rfl : r = old := Option.some.inj (hget.symm.trans hold)
      have hnew : (reg.erase name).getOrNew kind name = .ofKind kind name := by
        simp [getOrNew]
      refine ⟨_, rfl, ?_, ?_⟩
      · rw [hnew]
        simpa using hdetail.trans ((Record.ofKind kind name).grows_addRoles _).detail
      · rw [hnew, Record.toList_roles_ofKind hkind]
        exact FirstSeen.prefix_addAll _ _
    · exact ⟨old, by rw [get?_erase, if_neg hx, hold], .refl old⟩
  owners {role e} howner := by
    rw [ownerOf?_declared]
    split_ifs with hrole
    · rw [h.role_free role hrole e howner]
    · exact howner
  phraseLists hget := ⟨_, hget, rfl, List.prefix_refl _⟩

lemma grows_updateDetail {f : Detail → Detail} (hf : ∀ d : Detail, d.Grows (f d))
    (name : String) : reg.Grows (reg.updateDetail name f) where
  entities {x r} hget := by
    rw [get?_updateDetail, hget]
    split_ifs
    · exact ⟨_, rfl, hf r.detail, List.prefix_refl _⟩
    · exact ⟨r, rfl, .refl r⟩
  owners howner := by rwa [ownerOf?_updateDetail]
  phraseLists {x p} hget := by
    refine ⟨p, ?_, rfl, List.prefix_refl _⟩
    unfold updateDetail
    split
    · exact hget
    · exact hget

lemma grows_updatePhrases (name : String) (interchangeable : Bool) (items : List String) :
    reg.Grows (reg.updatePhrases name interchangeable (FirstSeen.addAll · items)) where
  entities hget := ⟨_, hget, .refl _⟩
  owners := id
  phraseLists {x p} hget := by
    have hnew : (reg.updatePhrases name interchangeable (FirstSeen.addAll · items)).phraseList? x =
        if name = x then some { reg.phrasesOrNew name interchangeable with
          values := FirstSeen.addAll (reg.phrasesOrNew name interchangeable).values items }
        else reg.phraseList? x := OrderedMap.get?_insert ..
    rw [hnew]
    split_ifs with hx
    · subst hx
      have hold : reg.phrasesOrNew name interchangeable = p := by simp [phrasesOrNew, hget]
      exact ⟨_, rfl, by rw [hold], by rw [hold]; exact FirstSeen.prefix_addAll _ _⟩
    · exact ⟨p, hget, rfl, List.prefix_refl _⟩

end Registry

/-! ## The application -/

/-- An utterance keeps its text and its intent, and its labels grow at the end. -/
structure Example.Grows (u v : Example) : Prop where
  text : v.text = u.text
  intent : v.intent = u.intent
  labels : u.labels <+: v.labels

lemma Example.Grows.refl (u : Example) : u.Grows u :=
  ⟨rfl, rfl, List.prefix_refl _⟩

lemma Example.Grows.trans {u v w : Example} (h : u.Grows v) (h' : v.Grows w) : u.Grows w :=
  ⟨h'.text.trans h.text, h'.intent.trans h.intent, h.labels.trans h'.labels⟩

namespace App

/-- Nothing is taken away, and what is new comes behind. -/
structure Grows (app app' : App) : Prop where
  registry : app.registry.Grows app'.registry
  intents : app.intents.keys <+: app'.intents.keys
  patterns : app.patterns <+: app'.patterns
  utterances : Extends Example.Grows app.utterances app'.utterances

lemma Grows.refl (app : App) : app.Grows app :=
  ⟨.refl _, List.prefix_refl _, List.prefix_refl _, .refl Example.Grows.refl _⟩

lemma Grows.trans {app app' app'' : App} (h : app.Grows app') (h' : app'.Grows app'') :
    app.Grows app'' :=
  ⟨h.registry.trans h'.registry, h.intents.trans h'.intents, h.patterns.trans h'.patterns,
    h.utterances.trans h'.utterances Example.Grows.trans⟩

/-- A change of the registry alone. -/
lemma grows_of_registry {app : App} {reg : Registry} (h : app.registry.Grows reg) :
    app.Grows { app with registry := reg } :=
  ⟨h, List.prefix_refl _, List.prefix_refl _, .refl Example.Grows.refl _⟩

lemma extends_mergeExample (u : Example) (us : List Example) :
    Extends Example.Grows us (mergeExample u us) := by
  induction us with
  | nil => exact .nil _
  | cons v us ih =>
      unfold mergeExample
      split
      · exact .cons ⟨rfl, rfl, FirstSeen.prefix_addAll _ _⟩ (.refl Example.Grows.refl us)
      · exact .cons (.refl v) ih

lemma noteLabel_eq (app : App) (entity : String) (role : Option String) :
    ∃ unroled, app.noteLabel entity role = { app with unroled } := by
  unfold noteLabel
  split
  · exact ⟨_, rfl⟩
  · exact ⟨app.unroled, rfl⟩

/-- Adding an utterance changes the utterances and the notes about labels. -/
lemma addUtterance_eq (app : App) (u : Example) :
    ∃ unroled, app.addUtterance u =
      { app with utterances := mergeExample u app.utterances, unroled } := by
  have hfold : ∀ (ls : List Label) (app : App), ∃ unroled,
      ls.foldl (fun app l => app.noteLabel l.entity l.role) app = { app with unroled } := by
    intro ls
    induction ls with
    | nil => exact fun app => ⟨app.unroled, rfl⟩
    | cons l ls ih =>
        intro app
        obtain ⟨unroled, hnote⟩ := noteLabel_eq app l.entity l.role
        obtain ⟨unroled', hrest⟩ := ih { app with unroled }
        exact ⟨unroled', by rw [List.foldl_cons, hnote, hrest]⟩
  obtain ⟨unroled, hnoted⟩ := hfold u.labels app
  refine ⟨unroled, ?_⟩
  unfold addUtterance
  rw [hnoted]

lemma addPattern_eq (app : App) (p : Pattern) :
    (app.addPattern p).2 = { app with patterns := FirstSeen.add app.patterns p } := by
  unfold addPattern FirstSeen.add
  split <;> rfl

/-- A record that yields makes way for a new one of a kind that its own may become. -/
lemma Yields.grows {app : App} {r : Record} {name : String} {kind : Kind}
    (h : app.Yields r name kind) (hkind : kind ≠ .phraseList) : r.detail.Grows (.empty kind) := by
  obtain ⟨hne, hany | ⟨hsimple, habsorbs, -⟩⟩ := h
  · cases hdetail : r.detail with
    | patternAny explicitList =>
        refine .promoted ?_
        rw [hany] at hne
        rw [Detail.kind_empty]
        cases kind <;> simp_all
    | _ => simp [Record.kind, hdetail, Detail.kind] at hany
  · cases hdetail : r.detail with
    | simple =>
        refine .absorbed ?_
        rw [Detail.kind_empty]
        cases kind <;> simp_all [Kind.absorbsSimple]
    | _ => simp [Record.kind, hdetail, Detail.kind] at hsimple

/-- **Every change lets the application grow.** -/
lemma Step.grows {app app' : App} (h : Step app app') : app.Grows app' := by
  have hsame := Grows.refl app
  have hintents : ∀ name inherits, app.Grows
      { app with intents := app.intents.insert name inherits } := fun name inherits =>
    ⟨.refl _, OrderedMap.keys_insert app.intents name inherits ▸ FirstSeen.prefix_add _ _,
      hsame.patterns, hsame.utterances⟩
  cases h with
  | setting key value =>
      exact ⟨hsame.registry, hsame.intents, hsame.patterns, hsame.utterances⟩
  | intent name =>
      unfold ensureIntent
      split
      · exact hsame
      · exact hintents name none
  | intentInherits name inherits => exact hintents name (some inherits)
  | entityInherits name inherits =>
      exact ⟨hsame.registry, hsame.intents, hsame.patterns, hsame.utterances⟩
  | declared _ hadm => exact grows_of_registry (Registry.grows_declared hadm)
  | promoted hkind hget hyields hadm =>
      exact grows_of_registry (Registry.grows_promoted hkind hget (hyields.grows hkind) hadm)
  | completed name hf => exact grows_of_registry (Registry.grows_updateDetail hf.grows name)
  | phrases items _ => exact grows_of_registry (Registry.grows_updatePhrases _ _ items)
  | @noted entity role _ =>
      obtain ⟨unroled, hnote⟩ := noteLabel_eq app entity role
      rw [hnote]
      exact ⟨hsame.registry, hsame.intents, hsame.patterns, hsame.utterances⟩
  | @utterance u _ =>
      obtain ⟨unroled, hadd⟩ := addUtterance_eq app u
      rw [hadd]
      exact ⟨hsame.registry, hsame.intents, hsame.patterns, extends_mergeExample u _⟩
  | pattern p =>
      rw [addPattern_eq]
      exact ⟨hsame.registry, hsame.intents, FirstSeen.prefix_add _ _, hsame.utterances⟩

lemma Steps.grows {app app' : App} (h : Steps app app') : app.Grows app' := by
  induction h with
  | refl => exact .refl app
  | tail _ hstep ih => exact ih.trans hstep.grows

end App

/-- A section lets the application grow. -/
lemma Section.apply_grows {ctx : Context} {s : Section} {m m' : Model}
    (hs : m.app.registry.Sound) (h : s.apply ctx m = .ok m') : m.app.Grows m'.app :=
  (Section.apply_steps hs h).grows

end DialogModel
