import DialogModel.Compile
import DialogModel.Proofs.Declaration.Clause
import DialogModel.Proofs.Outcome

/-!
# The two forms of a declaration agree

A `$` declaration and the `@` declaration that stands for the same do the same to every model, with
the same failures and the same warnings.  `SameDeclaration` lists the pairs.  The two forms come to
one plan but not to one declaration: a `$` section has no definition where an `@` section may have
an empty one, and gives the first value of a list in its definition where an `@` section gives it on
a line.  `Alike` says that no handler can tell them apart.
-/

namespace DialogModel

open Entity Chars

/-- A sign behind a text that is not blank is kept, and with it the blanks before it. -/
lemma trim_append_sign {sign : String} {c : Char} (hsign : sign.toList = [c])
    (hc : isBlank c = false) (text : String) :
    trim (text ++ sign).toList = text.toList.dropWhile isBlank ++ [c] := by
  rw [String.toList_append, hsign, trim_concat_of_not_isBlank _ hc]

namespace Declaration

/-! ## Declarations that no handler tells apart -/

/-- Two declarations with their plans do the same to every model, with the same warnings. -/
def Alike (x y : Declaration × Plan) : Prop :=
  ∀ ctx, (∀ m, x.1.run ctx m x.2 = y.1.run ctx m y.2) ∧ x.1.warnings ctx x.2 = y.1.warnings ctx y.2

lemma Alike.refl (x : Declaration × Plan) : Alike x x :=
  fun _ => ⟨fun _ => rfl, rfl⟩

/-- A plan for which an empty definition is as good as none.  A regex or composite is refused if it
has an empty definition, and may have none. -/
def Plan.AllowsVacant : Plan → Prop
  | .simple | .patternAny | .prebuilt | .phraseList _ => True
  | _ => False

lemma items_vacant (d : Declaration) :
    ({ d with inline := some "" } : Declaration).items =
      ({ d with inline := none } : Declaration).items := by
  have hitems : Text.items "" = [] := by decide
  simp [items, hitems]

lemma alike_vacant (d : Declaration) {plan : Plan} (hplan : plan.AllowsVacant) :
    Alike ({ d with inline := none }, plan) ({ d with inline := some "" }, plan) := by
  intro ctx
  cases plan with
  | simple => exact ⟨fun _ => rfl, rfl⟩
  | patternAny => exact ⟨fun _ => rfl, rfl⟩
  | prebuilt => exact ⟨fun _ => rfl, rfl⟩
  | phraseList flag =>
      refine ⟨fun m => ?_, rfl⟩
      simp only [run, declarePhraseList, declarePhraseList.addPhrases, items_vacant]
      rfl
  | alterations | list | composite | regex => cases hplan

/-- The line of a value is read as the value. -/
lemma ofText_value (value : String) :
    ListItem.ofText (value ++ ":") = .value (Text.trim value) := by
  have htrim : trim (value ++ ":").toList = value.toList.dropWhile isBlank ++ [':'] :=
    trim_append_sign rfl (by decide) value
  simp only [ListItem.ofText, htrim, before?_concat, trim_dropWhile, Text.trim]

/-- A first value may be given with the plan or on the first line. -/
lemma alike_firstValue (d : Declaration) (value : String) (header : Provenance) :
    Alike ({ d with inline := some "" }, .list [{ canonicalForm := Text.trim value }])
      ({ d with inline := some "", lines := { text := value ++ ":", prov := header } :: d.lines },
        .list []) := by
  refine fun ctx => ⟨fun m => ?_, rfl⟩
  have hsublists :
      ({ d with inline := some "" } : Declaration).sublists
          [{ canonicalForm := Text.trim value }] =
        ({ d with
            inline := some ""
            lines := { text := value ++ ":", prov := header } :: d.lines } : Declaration).sublists
          [] := by
    have hline : addListLine d.name [] { text := value ++ ":", prov := header } =
        .ok [{ canonicalForm := Text.trim value }] := by
      simp only [addListLine, ofText_value, List.nil_append]
    have hvacant : [""].filter (!Text.isVacant ·) = [] := by decide
    simp only [sublists, definitionLines, Option.toList_some, hvacant, List.map_nil,
      List.nil_append, List.foldlM_cons, hline]
    rfl
  simp only [run, declareList, hsublists]
  rfl

end Declaration

/-! ## Sections that no handler tells apart -/

/-- Two sections do the same if what they declare is alike. -/
lemma apply_eq_of_alike (plan : Declaration.Plan) {e : LegacyEntity} {e' : NewEntity}
    {x : Declaration × Declaration.Plan} (h : e.plan = .ok x) (h' : e'.plan = .ok plan)
    (halike : Declaration.Alike x (e'.declaration, plan)) (ctx : Context) (m : Model) :
    e.apply ctx m = e'.apply ctx m ∧ e.warnings ctx = e'.warnings ctx := by
  obtain ⟨hrun, hwarnings⟩ := halike ctx
  constructor
  · rw [LegacyEntity.apply, NewEntity.apply, h, h']
    exact hrun m
  · rw [LegacyEntity.warnings, NewEntity.warnings, h, h']
    exact hwarnings

/-- The definition that consists of the given lines.  Where there are none, it may be missing. -/
def Definition.IsBody (lines : List BodyLine) (definition : Option Definition) : Prop :=
  definition = some { inline := "", lines } ∨ definition = none ∧ lines = []

/-- A text that opens a list when `=` follows it: it is not taken for a pattern, for a composite
or for the announcement of spellings. -/
structure LegacyEntity.IsValue (value : String) : Prop where
  not_pattern : (Chars.trim value.toList).head? ≠ some '/'
  not_composite : (Chars.trim value.toList).head? ≠ some '['
  not_alterations : Text.lower (Text.trim value) ≠ "qna-alterations"

open LegacyEntity (written HasClause IsRole IsValue)

/-- The pairs of a section with `$` and a section with `@` that declare the same, with the given
roles, lines and place. -/
inductive SameDeclaration (roles : List String) (lines : List BodyLine) (prov : Provenance) :
    LegacyEntity → NewEntity → Prop
  | simple {name : String} {interchangeable : Bool} {definition : Option Definition}
      (hname : Text.sameLetters name "prebuilt" = false)
      (hbody : Definition.IsBody lines definition) :
      SameDeclaration roles lines prov (written name "simple" roles lines prov)
        { type := "simple", name, roles, interchangeable, definition, prov }
  | patternAny {name : String} {interchangeable : Bool} {definition : Option Definition}
      (hname : Text.sameLetters name "prebuilt" = false)
      (hbody : Definition.IsBody lines definition) :
      SameDeclaration roles lines prov (written name "patternany" roles lines prov)
        { type := "patternany", name, roles, interchangeable, definition, prov }
  /-- A pattern may hold anything, also slashes and what looks like a clause. -/
  | regex {name : String} {interchangeable : Bool} (pattern : String)
      (hname : Text.sameLetters name "prebuilt" = false) :
      SameDeclaration roles lines prov (written name ("/" ++ pattern ++ "/") roles lines prov)
        { type := "regex", name, roles, interchangeable,
          definition := some { inline := "/" ++ pattern ++ "/", lines }, prov }
  | composite {name : String} {interchangeable : Bool} {children : String}
      (hname : Text.sameLetters name "prebuilt" = false)
      (hclause : ¬ HasClause ("[" ++ children ++ "]").toList) :
      SameDeclaration roles lines prov (written name ("[" ++ children ++ "]") roles lines prov)
        { type := "composite", name, roles, interchangeable,
          definition := some { inline := "[" ++ children ++ "]", lines }, prov }
  | phraseList {name : String} {definition : Option Definition} (interchangeable : Bool)
      (hname : Text.sameLetters name "prebuilt" = false)
      (hbody : Definition.IsBody lines definition) :
      SameDeclaration roles lines prov
        (written name (if interchangeable then "PhraseList interchangeable" else "PhraseList")
          roles lines prov)
        { type := "phraselist", name, roles, interchangeable, definition, prov }
  /-- The first value stands before `=` in the one form and on a line of its own in the other. -/
  | list {name : String} {interchangeable : Bool} {value : String} (header : Provenance)
      (hname : Text.sameLetters name "prebuilt" = false) (hvalue : IsValue value)
      (hclause : ¬ HasClause (value ++ "=").toList) :
      SameDeclaration roles lines prov (written name (value ++ "=") roles lines prov)
        { type := "list", name, roles, interchangeable,
          definition := some
            { inline := "", lines := { text := value ++ ":", prov := header } :: lines },
          prov }
  /-- The type of a prebuilt entity is its definition in the one form and its name in the other. -/
  | prebuilt {name : String} {interchangeable : Bool} {type : String}
      {definition : Option Definition} (hname : Text.sameLetters name "prebuilt" = true)
      (htrim : Text.trim type = type) (hclause : ¬ HasClause type.toList)
      (hbody : Definition.IsBody lines definition) :
      SameDeclaration roles lines prov (written name type roles lines prov)
        { type := "prebuilt", name := type, roles, interchangeable, definition, prov }

/-! ## What a section with `$` comes to -/

namespace LegacyEntity

/-- A definition that is read as words. -/
@[mk_iff]
structure IsWording (core : List Char) : Prop where
  not_pattern : core.head? ≠ some '/'
  not_composite : core.head? ≠ some '['
  not_alterations : isAlterations core = false
  not_list : before? '=' core = none

instance (core : List Char) : Decidable (IsWording core) :=
  decidable_of_iff' _ (isWording_iff core)

/-- A value and the definition that it opens a list in start alike. -/
lemma head?_value {cs : List Char} {x : Char} (hx : x ≠ '=') (h : (trim cs).head? ≠ some x) :
    (cs.dropWhile isBlank ++ ['=']).head? ≠ some x := by
  cases hdrop : cs.dropWhile isBlank with
  | nil => simpa using Ne.symm hx
  | cons y ys =>
      have hy : isBlank y = false := startsSolid_dropWhile cs y (by rw [hdrop]; rfl)
      have htrim : trim cs = (y :: ys).rdropWhile isBlank := by rw [trim_eq, hdrop]
      have hne : (y :: ys).rdropWhile isBlank ≠ [] := by
        intro hnil
        have hblank := List.rdropWhile_eq_nil_iff.mp hnil y List.mem_cons_self
        rw [hy] at hblank
        cases hblank
      obtain ⟨z, zs, hcons⟩ := List.exists_cons_of_ne_nil hne
      have hprefix : z :: zs <+: y :: ys := hcons ▸ List.rdropWhile_prefix isBlank (y :: ys)
      obtain rfl : z = y := (List.cons_prefix_cons.mp hprefix).1
      rw [htrim, hcons] at h
      simpa using h

/-- Spellings are announced by one word and `=`, with blanks around the word. -/
lemma lower_trim_of_isAlterations {cs : List Char}
    (h : isAlterations (cs.dropWhile isBlank ++ ['='])) :
    lower (trim cs) = "qna-alterations".toList := by
  simp only [isAlterations] at h
  split at h
  · next rest hafter =>
      have hrest : trim rest = ['='] := by simpa using h
      have hcut : lower (cs.dropWhile isBlank) ++ ['='] = "qna-alterations".toList ++ rest := by
        simpa [lower] using after?_eq_some_iff.mp hafter
      obtain rfl | ⟨blanks, x, rfl⟩ := List.eq_nil_or_concat' rest
      · cases hrest
      · rw [← List.append_assoc] at hcut
        obtain ⟨hword, hlast⟩ := List.append_inj' hcut rfl
        obtain rfl : '=' = x := (List.cons.inj hlast).1
        -- All that stands between the word and the sign is blank.
        have hblanks : blanks.dropWhile isBlank = [] := by
          rw [trim_concat_of_not_isBlank _ (by decide)] at hrest
          exact List.append_left_eq_self.mp hrest
        have hnil : blanks.rdropWhile isBlank = [] :=
          List.rdropWhile_eq_nil_iff.mpr (List.dropWhile_eq_nil_iff.mp hblanks)
        have hsolid : EndsSolid "qna-alterations".toList := (trim_eq_self_iff.mp (by decide)).2
        rw [trim_eq, lower_rdropWhile, hword, rdropWhile_append_of_endsSolid _ hsolid, hnil,
          List.append_nil]
  · cases h

section Written

variable {name : String} {roles : List String} {lines : List BodyLine} {prov : Provenance}
  (hroles : ∀ r ∈ roles, IsRole r)
include hroles

lemma declarationAs_written {text : String} (htext : Unclaused text.toList) (n : String)
    (inline : Option String) :
    (written name text roles lines prov).declarationAs n inline =
      { name := n, roles := .ofList roles, inline, lines, prov } := by
  rw [declarationAs, roles_written htext hroles]
  rfl

lemma plan_wording (text : String) {plan : Declaration.Plan}
    (hname : Text.sameLetters name "prebuilt" = false)
    (hclause : ¬ HasClause text.toList) (hcore : IsWording (trim text.toList))
    (hwords : ∀ e : LegacyEntity, e.planOfWords (words (lower (trim text.toList))) = .ok plan) :
    (written name text roles lines prov).plan =
      .ok ({ name, roles := .ofList roles, lines, prov }, plan) := by
  have htext := unclaused_of_not_hasClause hclause
  simp only [LegacyEntity.plan, core_written htext hroles, declarationAs_written hroles htext,
    name_written, hname, hcore.not_pattern, hcore.not_composite, hcore.not_alterations,
    hcore.not_list, hwords, Bool.false_eq_true, if_false]
  rfl

/-- A definition between two signs is not trimmed. -/
lemma core_delimited {text : String} {a b : Char} {cs : List Char}
    (hchars : text.toList = a :: (cs ++ [b])) (ha : isBlank a = false) (hb : isBlank b = false)
    (htext : Unclaused text.toList) : (written name text roles lines prov).core = text.toList := by
  rw [core_written htext hroles, hchars, trim_delimited ha hb]

lemma plan_regex (pattern : String) (hname : Text.sameLetters name "prebuilt" = false) :
    (written name ("/" ++ pattern ++ "/") roles lines prov).plan =
      .ok ({ name, roles := .ofList roles, inline := some ("/" ++ pattern ++ "/"), lines, prov },
        .regex) := by
  have hchars : ("/" ++ pattern ++ "/").toList = '/' :: (pattern.toList ++ ['/']) := by
    simp
  have htext : Unclaused ("/" ++ pattern ++ "/").toList := hchars ▸ unclaused_pattern _
  have hcore : (written name ("/" ++ pattern ++ "/") roles lines prov).core =
      ("/" ++ pattern ++ "/").toList := core_delimited hroles hchars (by decide) (by decide) htext
  have hhead : ("/" ++ pattern ++ "/").toList.head? = some '/' := by rw [hchars]; rfl
  simp only [LegacyEntity.plan, hcore, hhead, declarationAs_written hroles htext, name_written,
    hname, String.ofList_toList, Bool.false_eq_true, if_false, if_true]

lemma plan_composite {children : String} (hname : Text.sameLetters name "prebuilt" = false)
    (hclause : ¬ HasClause ("[" ++ children ++ "]").toList) :
    (written name ("[" ++ children ++ "]") roles lines prov).plan =
      .ok ({ name, roles := .ofList roles, inline := some ("[" ++ children ++ "]"), lines, prov },
        .composite) := by
  have hchars : ("[" ++ children ++ "]").toList = '[' :: (children.toList ++ [']']) := by
    simp
  have htext := unclaused_of_not_hasClause hclause
  have hcore : (written name ("[" ++ children ++ "]") roles lines prov).core =
      ("[" ++ children ++ "]").toList := core_delimited hroles hchars (by decide) (by decide) htext
  have hhead : ("[" ++ children ++ "]").toList.head? = some '[' := by rw [hchars]; rfl
  have hslash : ¬ some '[' = some '/' := by decide
  simp only [LegacyEntity.plan, hcore, hhead, hslash, declarationAs_written hroles htext,
    name_written, hname, String.ofList_toList, Bool.false_eq_true, if_false, if_true]

lemma plan_list {value : String} (hname : Text.sameLetters name "prebuilt" = false)
    (hvalue : IsValue value) (hclause : ¬ HasClause (value ++ "=").toList) :
    (written name (value ++ "=") roles lines prov).plan =
      .ok ({ name, roles := .ofList roles, inline := some "", lines, prov },
        .list [{ canonicalForm := Text.trim value }]) := by
  have htext := unclaused_of_not_hasClause hclause
  have hcore : (written name (value ++ "=") roles lines prov).core =
      value.toList.dropWhile isBlank ++ ['='] :=
    (core_written htext hroles).trans (trim_append_sign rfl (by decide) value)
  have hslash := head?_value (by decide) hvalue.not_pattern
  have hbracket := head?_value (by decide) hvalue.not_composite
  have halterations : isAlterations (value.toList.dropWhile isBlank ++ ['=']) = false := by
    rw [Bool.eq_false_iff]
    intro h
    refine hvalue.not_alterations (String.toList_inj.mp ?_)
    rw [Text.toList_lower, Text.toList_trim]
    exact lower_trim_of_isAlterations h
  simp only [LegacyEntity.plan, hcore, hslash, hbracket, halterations, before?_concat,
    trim_dropWhile, declarationAs_written hroles htext, name_written, hname, Bool.false_eq_true,
    if_false]
  rfl

lemma plan_prebuilt {type : String} (hname : Text.sameLetters name "prebuilt" = true)
    (htrim : Text.trim type = type) (hclause : ¬ HasClause type.toList) :
    (written name type roles lines prov).plan =
      .ok ({ name := type, roles := .ofList roles, lines, prov }, .prebuilt) := by
  have htext := unclaused_of_not_hasClause hclause
  have hcore : String.ofList (written name type roles lines prov).core = type := by
    rw [core_written htext hroles]
    exact htrim
  simp only [LegacyEntity.plan, hcore, declarationAs_written hroles htext, name_written, hname,
    if_true]

end Written

end LegacyEntity

namespace NewEntity

/-- A section whose definition is its lines declares the same without an empty text. -/
lemma alike_declaration {e : NewEntity} {lines : List BodyLine} {plan : Declaration.Plan}
    (hbody : Definition.IsBody lines e.definition) (hplan : plan.AllowsVacant) :
    Declaration.Alike
      ({ name := e.name, roles := .ofList e.roles, inline := none, lines, prov := e.prov }, plan)
      (e.declaration, plan) := by
  obtain hsome | ⟨hnone, rfl⟩ := hbody
  · have hdeclaration : e.declaration =
        { name := e.name, roles := .ofList e.roles, inline := some "", lines, prov := e.prov } := by
      simp [declaration, hsome]
    rw [hdeclaration]
    exact Declaration.alike_vacant
      { name := e.name, roles := .ofList e.roles, lines, prov := e.prov } hplan
  · have hdeclaration : e.declaration =
        { name := e.name, roles := .ofList e.roles, prov := e.prov } := by
      simp [declaration, hnone]
    rw [hdeclaration]
    exact .refl _

end NewEntity

/-! ## The pairs -/

/-- A section with `$` and one with `@` whose definition is its lines agree, if they have one plan
that allows for an empty definition. -/
lemma agree_of_body (plan : Declaration.Plan) {e : LegacyEntity} {e' : NewEntity}
    {lines : List BodyLine}
    (h : e.plan =
      .ok ({ name := e'.name, roles := .ofList e'.roles, lines, prov := e'.prov }, plan))
    (h' : e'.plan = .ok plan) (hbody : Definition.IsBody lines e'.definition)
    (hplan : plan.AllowsVacant) (ctx : Context) (m : Model) :
    e.apply ctx m = e'.apply ctx m ∧ e.warnings ctx = e'.warnings ctx :=
  apply_eq_of_alike plan h h' (NewEntity.alike_declaration hbody hplan) ctx m

/-- **The two forms of a declaration agree.**  A section with `$` and its counterpart with `@` have
the same outcome on every model and under all circumstances: the same model or the same failure,
and the same warnings.  The roles of the former stand in a clause behind its definition, so they
may hold no comma, no blank and no slash. -/
theorem forms_agree (roles : List String) (hroles : ∀ r ∈ roles, IsRole r)
    (lines : List BodyLine) (prov : Provenance) (e : LegacyEntity) (e' : NewEntity)
    (h : SameDeclaration roles lines prov e e') (ctx : Context) (m : Model) :
    (Section.legacyEntity e).apply ctx m = (Section.newEntity e').apply ctx m ∧
      (Section.legacyEntity e).warnings ctx = (Section.newEntity e').warnings ctx := by
  cases h with
  | simple hname hbody =>
      have hlower : Text.lower "simple" = "simple" := by decide
      refine agree_of_body .simple ?_ (by simp [NewEntity.plan, hlower]) hbody trivial ctx m
      exact LegacyEntity.plan_wording hroles "simple" hname (by decide) (by decide) fun _ => rfl
  | patternAny hname hbody =>
      have hlower : Text.lower "patternany" = "patternany" := by decide
      refine agree_of_body .patternAny ?_ (by simp [NewEntity.plan, hlower]) hbody trivial ctx m
      exact LegacyEntity.plan_wording hroles "patternany" hname (by decide) (by decide) fun _ => rfl
  | regex pattern hname =>
      have hlower : Text.lower "regex" = "regex" := by decide
      refine apply_eq_of_alike .regex (LegacyEntity.plan_regex hroles pattern hname)
        (by simp [NewEntity.plan, hlower]) ?_ ctx m
      exact .refl _
  | composite hname hclause =>
      have hlower : Text.lower "composite" = "composite" := by decide
      refine apply_eq_of_alike .composite (LegacyEntity.plan_composite hroles hname hclause)
        (by simp [NewEntity.plan, hlower]) ?_ ctx m
      exact .refl _
  | phraseList flag hname hbody =>
      have hlower : Text.lower "phraselist" = "phraselist" := by decide
      refine agree_of_body (.phraseList flag) ?_ (by simp [NewEntity.plan, hlower]) hbody trivial
        ctx m
      cases flag with
      | false =>
          exact LegacyEntity.plan_wording hroles "PhraseList" hname (by decide) (by decide)
            fun _ => rfl
      | true =>
          exact LegacyEntity.plan_wording hroles "PhraseList interchangeable" hname (by decide)
            (by decide) fun _ => rfl
  | @list name _ value header hname hvalue hclause =>
      have hlower : Text.lower "list" = "list" := by decide
      refine apply_eq_of_alike (.list []) (LegacyEntity.plan_list hroles hname hvalue hclause)
        (by simp [NewEntity.plan, hlower]) ?_ ctx m
      exact Declaration.alike_firstValue { name, roles := .ofList roles, lines, prov } value header
  | prebuilt hname htrim hclause hbody =>
      have hlower : Text.lower "prebuilt" = "prebuilt" := by decide
      refine agree_of_body .prebuilt ?_ (by simp [NewEntity.plan, hlower]) hbody trivial ctx m
      exact LegacyEntity.plan_prebuilt hroles hname htrim hclause

/-- The place of the two declarations below. -/
def codeProv : Provenance where
  file := "orders"
  line := 1
  text := "$code:/x/ roles=y/ Roles=from,to"

/-- A pattern with a slash and a clause in it, and behind it a clause of its own. -/
def codeLegacy : LegacyEntity where
  name := "code"
  typeString := "/x/ roles=y/ Roles=from,to"
  prov := codeProv

/-- The same pattern and the same roles, declared with `@`. -/
def codeEntity : NewEntity where
  type := "regex"
  name := "code"
  roles := ["from", "to"]
  definition := some { inline := "/x/ roles=y/" }
  prov := codeProv

theorem forms_agree_codeLegacy :
    (∀ r ∈ ["from", "to"], IsRole r) ∧
    SameDeclaration ["from", "to"] [] codeProv codeLegacy codeEntity ∧
    ∃ m, (Section.legacyEntity codeLegacy).apply ⟨"en-us", {}, Probe.offline⟩ {} = .ok m ∧
      (Section.newEntity codeEntity).apply ⟨"en-us", {}, Probe.offline⟩ {} = .ok m ∧
      m.app.registry.ownerOf? "to" = some "code" ∧
      (m.app.registry.get? "code").map Record.detail = some (.regex "x/ roles=y") := by
  have hroles : ∀ r ∈ ["from", "to"], IsRole r := by decide
  have hpair : SameDeclaration ["from", "to"] [] codeProv codeLegacy codeEntity := by
    have hwritten : codeLegacy =
        written "code" ("/" ++ "x/ roles=y" ++ "/") ["from", "to"] [] codeProv := by decide
    rw [hwritten]
    exact .regex "x/ roles=y" (by decide)
  have hrun : ((Section.legacyEntity codeLegacy).apply
      ⟨"en-us", {}, Probe.offline⟩ {}).toOption.map (fun m =>
        (m.app.registry.ownerOf? "to", (m.app.registry.get? "code").map Record.detail)) =
      some (some "code", some (.regex "x/ roles=y")) := by decide +kernel
  obtain ⟨m, hm, hresult⟩ := exists_ok_of_map_toOption hrun
  obtain ⟨howner, hdetail⟩ := Prod.mk.inj hresult
  have hagree := forms_agree ["from", "to"] hroles [] codeProv codeLegacy codeEntity hpair
    ⟨"en-us", {}, Probe.offline⟩ {}
  exact ⟨hroles, hpair, m, hm, hagree.1.symm.trans hm, howner, hdetail⟩

/-- Outside patterns a clause in a definition counts: here it ends a list of children early. -/
example : (written "address" "[street, roles=city]" [] [] codeProv).core = "[street,".toList := by
  decide

end DialogModel
