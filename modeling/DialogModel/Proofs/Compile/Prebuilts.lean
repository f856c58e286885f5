import DialogModel.Proofs.App.Prebuilts
import DialogModel.Proofs.Compile.Image
import DialogModel.Proofs.Compile.Options
import DialogModel.Proofs.Declaration.Repetition

/-!
# The prebuilt entities of a compilation

A prebuilt entity is declared by the spelling of its type, and registered under the name that the
locale of the compilation has for it.  The names of a locale are their own names
(`Catalog.available?_of_offered?`): a type that has been substituted once is not substituted again,
so that declarations under a substituted name and under its target come to the same record.

`prebuilts_gathered` says what the records of the finished model are.  Their names are offered by
the locale, and their roles are those of their declarations, of the placeholders that these took
over, and of the labels and placeholders that were written with them (`GivesRole`).
-/

namespace DialogModel

open Entity

/-! ## The catalog -/

namespace Entity.Catalog

/-- The name under which a row of the catalog offers a type. -/
def Locale.offer? (row : Locale) (type : String) : Option String :=
  if type ∈ row.unavailable then none
  else
    match row.substitutions.lookup type with
    | some name => some name
    | none => lookup? type

lemma available?_eq (locale type : String) :
    available? locale type = (localeOf locale).offer? type :=
  rfl

lemma localeOf_mem (name : String) : localeOf name ∈ locales := by
  unfold localeOf
  cases hfind : locales.find? fun l => Text.sameLetters l.name name with
  | none => exact List.mem_cons_self
  | some row => exact List.mem_of_find?_eq_some hfind

/-- No row substitutes a name that it has substituted for another. -/
lemma offer?_offer? : ∀ row ∈ locales, ∀ type ∈ types, ∀ name ∈ row.offer? type,
    name ∈ types ∧ row.offer? name = some name := by
  decide +kernel

/-- The name under which a locale offers the type with a given spelling. -/
def offered? (locale spelling : String) : Option String :=
  (lookup? spelling).bind (available? locale)

/-- **What a locale offers is a type that it offers under its own name.** -/
lemma available?_of_offered? {locale spelling name : String}
    (h : offered? locale spelling = some name) :
    name ∈ types ∧ available? locale name = some name := by
  obtain ⟨type, hlookup, havailable⟩ := Option.bind_eq_some_iff.mp h
  rw [available?_eq] at havailable ⊢
  exact offer?_offer? _ (localeOf_mem locale) type (List.mem_of_find?_eq_some hlookup) name
    havailable

end Entity.Catalog

/-! ## One section -/

/-- A prebuilt type is registered under the name that the locale has for it, or left out. -/
lemma Declaration.declarePrebuilt_eq_ok {d : Declaration} {ctx : Context} {app app' : App}
    (h : d.declarePrebuilt ctx app = .ok app') :
    (∃ name, Catalog.offered? ctx.locale d.name = some name ∧
        register app .prebuilt { d with name } = .ok app') ∨
      Catalog.offered? ctx.locale d.name = none ∧ app' = app := by
  unfold declarePrebuilt at h
  obtain ⟨resolution, hresolve, h⟩ := bind_eq_ok_iff.mp h
  rw [Provenance.locate_eq_ok_iff, resolvePrebuilt_eq_ok_iff] at hresolve
  obtain ⟨-, type, hlookup, ⟨name, havailable, rfl⟩ | ⟨hnone, -, rfl⟩⟩ := hresolve
  · exact .inl ⟨name, by simp [Catalog.offered?, hlookup, havailable], h⟩
  · cases h
    exact .inr ⟨by simp [Catalog.offered?, hlookup, hnone], rfl⟩

namespace Section

variable {ctx : Context} {s : Section} {m m' : Model}

/-- A section declares a prebuilt type that a locale offers under a name. -/
def DeclaresType (locale type : String) (s : Section) (d : Declaration) : Prop :=
  s.Declares d .prebuilt ∧ Catalog.offered? locale d.name = some type

/-- A section names a role of a prebuilt type: it declares the type with the role, or one of its
lines writes the role with the type. -/
inductive NamesRole (locale : String) (s : Section) (type role : String) : Prop
  | declared {d : Declaration} (hd : s.DeclaresType locale type d) (hrole : role ∈ d.roles)
  | written {intent : IntentSection} {line : UtteranceLine} (hs : s = .intent intent)
      (hline : line ∈ intent.utterances) (hwrites : line.Writes type role)

/-- A section takes over a role of a placeholder: it declares a prebuilt type, and the model has a
placeholder of that name with the role. -/
def TakesOver (locale : String) (m : Model) (s : Section) (type role : String) : Prop :=
  (∃ d, s.DeclaresType locale type d) ∧
    ∃ r, m.app.registry.get? type = some r ∧ r.kind = .patternAny ∧ role ∈ r.roles

/-- The roles that prebuilt types have after a section were there before, or the section names or
takes them over; and the types were there before, or it declares them. -/
abbrev GivesPrebuilts (ctx : Context) (s : Section) (m m' : Model) : Prop :=
  Registry.PrebuiltFrom (fun type => ∃ d, s.DeclaresType ctx.locale type d)
    (fun type role => s.NamesRole ctx.locale type role ∨ s.TakesOver ctx.locale m type role)
    m.app.registry m'.app.registry

lemma run_givesPrebuilts {d : Declaration} {plan : Declaration.Plan} (hd : s.Declares d plan)
    (h : d.run ctx m plan = .ok m') : s.GivesPrebuilts ctx m m' := by
  by_cases hplan : plan = .prebuilt
  · subst hplan
    rcases Declaration.declarePrebuilt_eq_ok (Declaration.eq_ok_app h) with
      ⟨name, hname, hreg⟩ | ⟨-, hsame⟩
    · refine Declaration.register_prebuiltFrom (fun _ => ⟨d, hd, hname⟩) ?_ ?_ hreg
      · exact fun _ role hrole => .inl (.declared ⟨hd, hname⟩ hrole)
      · exact fun _ r hget hkind role hrole => .inr ⟨⟨d, hd, hname⟩, r, hget, hkind, hrole⟩
    · unfold GivesPrebuilts
      rw [hsame]
      exact .refl _
  · exact Declaration.run_prebuiltFrom hplan h

/-- **A section gives prebuilt types what it declares, writes and takes over.** -/
lemma apply_givesPrebuilts (hs : m.app.registry.Sound) (h : s.apply ctx m = .ok m') :
    s.GivesPrebuilts ctx m m' := by
  cases s with
  | modelInfo info =>
      simp only [Section.apply, ModelInfo.apply] at h
      split at h
      · exact Directive.apply_prebuiltFrom h
      · cases h
        exact .refl _
  | importLink link =>
      simp only [Section.apply, ImportLink.apply] at h
      split_ifs at h
      · split at h
        · cases h
          exact .refl _
        · cases h
      · cases h
        exact .refl _
  | intent intent =>
      refine (IntentSection.apply_prebuiltFrom hs h).mono (fun _ => id) ?_
      rintro type role ⟨line, hline, hwrites⟩
      exact .inl (.written rfl hline hwrites)
  | newEntity entity =>
      obtain ⟨plan, hplan, h⟩ := bind_eq_ok_iff.mp h
      rw [Provenance.locate_eq_ok_iff] at hplan
      exact run_givesPrebuilts (.newEntity hplan) h
  | legacyEntity entity =>
      obtain ⟨⟨declaration, plan⟩, hplan, h⟩ := bind_eq_ok_iff.mp h
      rw [Provenance.locate_eq_ok_iff] at hplan
      exact run_givesPrebuilts (.legacyEntity hplan) h
  | question question =>
      cases h
      exact .refl _

/-- After a section that declares a prebuilt type, the type has the roles of the declaration. -/
lemma has_of_declaresType {type : String} {d : Declaration}
    (hd : s.DeclaresType ctx.locale type d) (h : s.apply ctx m = .ok m') :
    m'.app.registry.Has .prebuilt type d.roles := by
  rw [apply_of_declares hd.1] at h
  rcases Declaration.declarePrebuilt_eq_ok (Declaration.eq_ok_app h) with
    ⟨name, hname, hreg⟩ | ⟨hnone, -⟩
  · obtain rfl : type = name := Option.some.inj (hd.2.symm.trans hname)
    exact Declaration.has_of_register (by decide) hreg
  · cases hd.2.symm.trans hnone

/-! ## The settings -/

lemma apply_settings_of_run {d : Declaration} {plan : Declaration.Plan}
    (h : d.run ctx m plan = .ok m') : m'.app.settings = m.app.settings := by
  obtain ⟨registry, happ⟩ := Declaration.run_registry h
  rw [happ]

end Section

lemma UtteranceLine.apply_settings {options : Options} {intent : String} {line : UtteranceLine}
    {app app' : App} (hs : app.registry.Sound) (h : line.apply options intent app = .ok app') :
    app'.settings = app.settings := by
  have hflat := (UtteranceLine.apply_eq_ok hs h).1
  unfold apply at h
  rw [hflat] at h
  simp only at h
  split_ifs at h with hempty hnone hall
  · cases h
    obtain ⟨unroled, hadd⟩ := App.addUtterance_eq app { text := line.flat.text, intent }
    rw [hadd]
  · have htemplate : line.isTemplate := by simp [isTemplate, hempty, hnone]
    obtain ⟨p, -, registry, intents, rfl⟩ :=
      Labelling.addPattern_eq_ok hs (fun _ _ => not_labelled_of_isTemplate htemplate) h
    rfl
  · obtain ⟨-, registry, unroled, labels, -, rfl⟩ := Labelling.addLabelled_eq_ok h
    rfl

/-- Only directives change the settings. -/
lemma Section.apply_settings {ctx : Context} {s : Section} {m m' : Model}
    (hs : m.app.registry.Sound) (hpass : s.pass ≠ .directives) (h : s.apply ctx m = .ok m') :
    m'.app.settings = m.app.settings := by
  cases s with
  | modelInfo info => exact absurd rfl hpass
  | importLink link =>
      simp only [Section.apply, ImportLink.apply] at h
      split_ifs at h
      · split at h
        · cases h
          rfl
        · cases h
      · cases h
        rfl
  | intent intent =>
      obtain ⟨app, hlines, h⟩ := bind_eq_ok_iff.mp h
      cases h
      have hstart : (m.app.ensureIntent intent.name).settings = m.app.settings := by
        unfold App.ensureIntent
        split <;> rfl
      have hrun := foldlM_ok_induction
        (fun b => b.registry.Sound ∧ b.settings = m.app.settings)
        (fun b line b' hb hstep => ⟨(UtteranceLine.apply_steps hb.1 hstep).sound hb.1,
          (UtteranceLine.apply_settings hb.1 hstep).trans hb.2⟩)
        ⟨by simpa using hs, hstart⟩ hlines
      exact hrun.2
  | newEntity entity =>
      obtain ⟨plan, -, h⟩ := bind_eq_ok_iff.mp h
      exact apply_settings_of_run h
  | legacyEntity entity =>
      obtain ⟨⟨declaration, plan⟩, -, h⟩ := bind_eq_ok_iff.mp h
      exact apply_settings_of_run h
  | question question =>
      cases h
      rfl

/-! ## The run -/

lemma Section.Declares.pass_eq {s : Section} {d : Declaration} {plan : Declaration.Plan}
    (h : s.Declares d plan) : s.pass = .entities := by
  cases h <;> rfl

namespace Compile

variable {options : Options} {probe : Probe} {sections : List Section}

/-- The sections that are left of a pass are those of the pass. -/
lemma Reached.pass_eq {p : Progress} (h : Reached options probe sections p) :
    ∀ s ∈ p.rest, s.pass = p.pass := by
  induction h with
  | start | imports _ _ | entities _ _ | questions _ _ => exact fun s hs => (mem_sectionsOf.mp hs).2
  | step _ _ ih => exact fun s hs => ih s (List.mem_cons_of_mem _ hs)

/-- After the directives the circumstances stay the same. -/
lemma Reached.ctx_eq {p : Progress} (h : Reached options probe sections p)
    (hpass : p.pass ≠ .directives) {ctx : Context} {m : Model}
    (hrun : runPasses options probe sections = .ok (ctx, m)) : p.ctx = ctx := by
  rw [runPasses_eq_of_reached h] at hrun
  obtain ⟨m₁, -, hafter⟩ := bind_eq_ok_iff.mp hrun
  cases hp : p.pass with
  | directives => exact absurd hp hpass
  | imports =>
      rw [hp] at hafter
      obtain ⟨m₂, -, hafter⟩ := bind_eq_ok_iff.mp hafter
      obtain ⟨m₃, -, hafter⟩ := bind_eq_ok_iff.mp hafter
      exact congrArg Prod.fst (Except.ok.inj hafter)
  | entities =>
      rw [hp] at hafter
      obtain ⟨m₂, -, hafter⟩ := bind_eq_ok_iff.mp hafter
      exact congrArg Prod.fst (Except.ok.inj hafter)
  | questions =>
      rw [hp] at hafter
      exact congrArg Prod.fst (Except.ok.inj hafter)

/-- After the directives the locale is that of the settings, which stay the same. -/
lemma Reached.locale_eq {p : Progress} (h : Reached options probe sections p)
    (hpass : p.pass ≠ .directives) : p.ctx.locale = locale options p.model.app := by
  induction h with
  | start => exact absurd rfl hpass
  | @step pass s rest ctx m m' hreached happly ih =>
      have hs : s.pass ≠ .directives := hreached.pass_eq s List.mem_cons_self ▸ hpass
      have hsame := Section.apply_settings hreached.sound hs happly
      simpa [locale, hsame] using ih hpass
  | imports _ _ => rfl
  | entities _ ih | questions _ ih => exact ih (by simp)

/-- What the sections give to prebuilt types, the model has of them and no more. -/
lemma Reached.prebuiltFrom {new : String → Prop} {given : String → String → Prop}
    (hnew : ∀ {pass s rest ctx m}, Reached options probe sections ⟨pass, s :: rest, ctx, m⟩ →
      ∀ {type d}, s.DeclaresType ctx.locale type d → new type)
    (hgiven : ∀ {pass s rest ctx m}, Reached options probe sections ⟨pass, s :: rest, ctx, m⟩ →
      ∀ {type role}, s.NamesRole ctx.locale type role ∨ s.TakesOver ctx.locale m type role →
        given type role)
    {p : Progress} (h : Reached options probe sections p) :
    Registry.PrebuiltFrom new given {} p.model.app.registry := by
  induction h with
  | start => exact .refl _
  | step hreached happly ih =>
      refine ih.trans ((Section.apply_givesPrebuilts hreached.sound happly).mono ?_ ?_)
      · exact fun type ⟨d, hd⟩ => hnew hreached hd
      · exact fun type role h => hgiven hreached h
  | imports _ ih | entities _ ih | questions _ ih => exact ih

/-- A compilation gives a prebuilt type a role: a section of the document names it, or a section
that the compilation reaches takes it over. -/
def GivesRole (options : Options) (probe : Probe) (sections : List Section) (locale : String)
    (type role : String) : Prop :=
  (∃ s ∈ sections, s.NamesRole locale type role) ∨
    ∃ pass s rest ctx m, Reached options probe sections ⟨pass, s :: rest, ctx, m⟩ ∧
      s.TakesOver locale m type role

section

variable {ctx : Context} {m : Model} (hrun : runPasses options probe sections = .ok (ctx, m))
include hrun

/-- Entities are declared for the locale of the finished model. -/
lemma Reached.locale_of_declares {pass : Pass} {s : Section} {rest : List Section} {ctx' : Context}
    {m' : Model} (h : Reached options probe sections ⟨pass, s :: rest, ctx', m'⟩) {d : Declaration}
    {plan : Declaration.Plan} (hd : s.Declares d plan) :
    ctx'.locale = locale options m.app := by
  have hpass : pass = .entities := (h.pass_eq s List.mem_cons_self).symm.trans hd.pass_eq
  have hctx : ctx' = ctx := h.ctx_eq (by simp [hpass]) hrun
  rw [hctx]
  exact (reached_of_runPasses hrun).locale_eq (by simp)

/-- The prebuilt types of the finished model are offered by the locale and their roles are given. -/
lemma prebuiltFrom_of_runPasses :
    Registry.PrebuiltFrom
      (fun type => type ∈ Catalog.types ∧
        Catalog.available? (locale options m.app) type = some type)
      (GivesRole options probe sections (locale options m.app)) {} m.app.registry := by
  refine Reached.prebuiltFrom ?_ ?_ (reached_of_runPasses hrun)
  · intro pass s rest ctx' m' hreached type d hd
    rw [← hreached.locale_of_declares hrun hd.1]
    exact Catalog.available?_of_offered? hd.2
  · intro pass s rest ctx' m' hreached type role hrole
    have hs : s ∈ sections := hreached.mem_of_mem_rest s List.mem_cons_self
    rcases hrole with (⟨hd, hrole⟩ | ⟨hintent, hline, hwrites⟩) | ⟨⟨d, hd⟩, htaken⟩
    · rw [hreached.locale_of_declares hrun hd.1] at hd
      exact .inl ⟨s, hs, .declared hd hrole⟩
    · exact .inl ⟨s, hs, .written hintent hline hwrites⟩
    · rw [hreached.locale_of_declares hrun hd.1] at hd
      exact .inr ⟨pass, s, rest, ctx', m', hreached, ⟨d, hd⟩, htaken⟩

/-- A role that an entity has in some state it has in the finished model. -/
lemma Reached.role_kept {p : Progress} (h : Reached options probe sections p) {name role : String}
    {old r : Record} (hold : p.model.app.registry.get? name = some old) (hrole : role ∈ old.roles)
    (hget : m.app.registry.get? name = some r) : role ∈ r.roles := by
  obtain ⟨r', hget', hgrows⟩ := (h.grows hrun).registry.entities hold
  obtain rfl : r' = r := Option.some.inj (hget'.symm.trans hget)
  exact hgrows.roles.subset hrole

/-- What is declared as a prebuilt type stays one, with the roles of the declaration. -/
lemma has_of_declaresType {s : Section} (hs : s ∈ sections) {type : String} {d : Declaration}
    (hd : s.DeclaresType (locale options m.app) type d) :
    m.app.registry.Has .prebuilt type d.roles := by
  obtain ⟨pass, ctx', rest, m₁, m₂, hreached, happly⟩ := exists_reached_of_mem hs hrun
  rw [← hreached.locale_of_declares hrun hd.1] at hd
  obtain ⟨old, hold, hkind, hroles⟩ := Section.has_of_declaresType hd happly
  obtain ⟨r, hget, hgrows⟩ := ((hreached.step happly).grows hrun).registry.entities hold
  refine ⟨r, hget, ?_, fun role hrole => hgrows.roles.subset (hroles role hrole)⟩
  have hdetail : old.detail.kind = .prebuilt := hkind
  exact (hgrows.detail.kind_eq (by simp [hdetail]) (by simp [hdetail])).trans hdetail

/-- A role that a section names with a prebuilt type is one of the type. -/
lemma role_of_namesRole {s : Section} (hs : s ∈ sections) {type role : String} {r : Record}
    (h : s.NamesRole (locale options m.app) type role)
    (hget : m.app.registry.get? type = some r) : role ∈ r.roles := by
  cases h with
  | declared hd hrole =>
      obtain ⟨r', hget', -, hroles⟩ := has_of_declaresType hrun hs hd
      obtain rfl : r' = r := Option.some.inj (hget'.symm.trans hget)
      exact hroles role hrole
  | written hintent hline hwrites =>
      subst hintent
      obtain ⟨pass, ctx', rest, m₁, m₂, hreached, happly⟩ := exists_reached_of_mem hs hrun
      obtain ⟨old, hold, hrole⟩ :=
        IntentSection.exists_role_of_apply hreached.sound happly hline hwrites
      exact (hreached.step happly).role_kept hrun hold hrole hget

end

/-- **Prebuilt entities are gathered from what is declared and written.**  Every prebuilt entity of
a compiled model is a type of the catalog that the locale offers under its own name.  Its roles are
those that the sections of the source name with it, in a declaration under any spelling that the
locale maps to it or in a line, and those of the placeholder that its declaration took over.  And
every declaration that the locale maps to a type has come to that one record. -/
theorem prebuilts_gathered (file source : String) (options : Options) (probe : Probe)
    (c : Compilation) (h : compile file source options probe = .ok c) :
    (∀ r ∈ c.model.app.registry.records, r.kind = .prebuilt →
      (r.name ∈ Catalog.types ∧
        Catalog.available? (locale options c.model.app) r.name = some r.name) ∧
      ∀ role, role ∈ r.roles ↔
        GivesRole options probe (Document.read file source).sections
          (locale options c.model.app) r.name role) ∧
    ∀ s ∈ (Document.read file source).sections, ∀ type d,
      s.DeclaresType (locale options c.model.app) type d →
        c.model.app.registry.Has .prebuilt type d.roles := by
  obtain ⟨-, ctx, hrun⟩ := compile_eq_ok h
  refine ⟨fun r hr hkind => ?_, fun s hs type d hd => has_of_declaresType hrun hs hd⟩
  have hget := (sound_of_compile h).get?_name hr
  have hfrom := prebuiltFrom_of_runPasses hrun
  refine ⟨?_, fun role => ⟨fun hrole => ?_, fun hgiven => ?_⟩⟩
  · have htype : c.model.app.registry.kindOf? r.name = some .prebuilt := by
      simp [Registry.kindOf?, hget, hkind]
    exact (hfrom.types htype).resolve_left (by rintro ⟨⟩)
  · exact (hfrom.roles ⟨r, hget, hkind, hrole⟩).resolve_left (by rintro ⟨_, ⟨⟩, -⟩)
  · rcases hgiven with ⟨s, hs, hnames⟩ | ⟨pass, s, rest, ctx', m', hreached, -, old, hold, -, hrole⟩
    · exact role_of_namesRole hrun hs hnames hget
    · exact hreached.role_kept hrun hold hrole hget

/-- A source that declares one type under two names, after a placeholder and before a label inside
another. -/
def meetingSource : String :=
  "> !# @app.culture = FR-fr\n# meet\n- at \x7bdatetimeV2:when\x7d\n" ++
    "@ prebuilt DateTime hasRoles from\n$PREBUILT:datetimeV2 Roles=to\n" ++
    "# book\n- book \x7bspan=\x7bdatetimeV2:until=noon\x7d sharp\x7d\n"

theorem prebuilts_gathered_meetingSource :
    ∃ c r, compile "meet" meetingSource {} Probe.offline = .ok c ∧
      r ∈ c.model.app.registry.records ∧ r.name = "datetimeV2" ∧ r.kind = .prebuilt ∧
      c.model.app.registry.get? "datetime" = none ∧
      Catalog.available? "fr-fr" "datetimeV2" = some "datetimeV2" ∧
      ∀ role, role ∈ ["when", "from", "to", "until"] ↔
        GivesRole {} Probe.offline (Document.read "meet" meetingSource).sections "fr-fr"
          "datetimeV2" role := by
  have hcompile : (compile "meet" meetingSource {} Probe.offline).toOption.map (fun c =>
        (locale {} c.model.app, c.model.app.registry.get? "datetime",
          (c.model.app.registry.get? "datetimeV2").map fun r => (r.kind, r.roles.toList))) =
      some ("fr-fr", none, some (.prebuilt, ["when", "from", "to", "until"])) := by
    decide +kernel
  obtain ⟨c, hc, hresult⟩ := exists_ok_of_map_toOption hcompile
  simp only [Prod.mk.injEq] at hresult
  obtain ⟨hlocale, hnone, hfound⟩ := hresult
  obtain ⟨r, hget, hr⟩ := Option.map_eq_some_iff.mp hfound
  obtain ⟨hkind, hroles⟩ := Prod.mk.inj hr
  have hs := sound_of_compile hc
  have hmem : r ∈ c.model.app.registry.records := Registry.mem_records_iff.mpr ⟨_, hget⟩
  obtain ⟨⟨-, havailable⟩, hgathered⟩ :=
    (prebuilts_gathered "meet" meetingSource {} Probe.offline c hc).1 r hmem hkind
  rw [hs.name_eq hget, hlocale] at havailable hgathered
  refine ⟨c, r, hc, hmem, hs.name_eq hget, hkind, hnone, havailable, fun role => ?_⟩
  rw [← hroles]
  exact hgathered role

end Compile

end DialogModel
