import Mathlib.Data.List.Flatten
import Mathlib.Data.List.Nodup
import DialogModel.Proofs.Document.FrontEnd

/-!
# What becomes of a bullet

A bullet outside an answer should reach the section of its chapter or be reported.  It does, unless
a directive stands between the header and the bullet: the front end then looks for the section in
the wrong place, and a bullet that reads as an item is lost without a word.  `bullets_accounted`
says what becomes of every bullet of every list of lines, so that the lost ones are known exactly.
-/

namespace DialogModel

/-- Whether a line of this kind is a bullet. -/
def LineKind.isBullet : LineKind → Bool
  | .bullet _ => true
  | _ => false

namespace Document

open Section (Item)

lemma Reading.kept?_eq_some_iff {r : Reading} {interrupted : Bool} {i : Item} :
    r.kept? interrupted = some i ↔ r = .item i ∧ interrupted = false := by
  cases r <;> cases interrupted <;> simp [kept?]

namespace Chapter

variable {file : String} {c : Chapter} {l : Line} {i : Item}

/-- The bullets outside the answer, each with the chapter as it stands before the bullet. -/
def bullets (c : Chapter) : List (Chapter × Line) :=
  c.trail.filter fun (before, l) => !before.inAnswer && l.kind.isBullet

/-- The item by which a bullet reaches the section of its chapter. -/
def attached? (file : String) : Chapter × Line → Option Item
  | (before, l) => (before.reading file l).kept? before.interrupted

/-- The diagnostic about a bullet. -/
def reported? (file : String) : Chapter × Line → Option Diagnostic
  | (before, l) => (before.reading file l).report? l.number

/-- A bullet is lost if it reads as an item and a directive stands before it. -/
def Lost (file : String) : Chapter × Line → Prop
  | (before, l) => before.interrupted ∧ ∃ i, before.reading file l = .item i

lemma bullets_add :
    (c.add l).bullets =
      c.bullets ++ if c.inAnswer = false ∧ l.kind.isBullet then [(c, l)] else [] := by
  rw [bullets, trail_add, List.filter_append]
  congr 1
  split_ifs with h
  · simp [h]
  · simpa using h

/-! ## Attached bullets -/

lemma contents_blank {s : Section} (h : c.blank file = some s) : s.contents = [] := by
  obtain ⟨hh, -, hs⟩ := Option.bind_eq_some_iff.mp h
  split at hs
  · obtain rfl := Option.some.inj hs
    rfl
  · obtain rfl := Option.some.inj hs
    rfl
  · split at hs
    · next header _ =>
        obtain rfl := Option.some.inj hs
        cases hinline : header.inline <;> simp [Section.contents, Entity.Header.toSection, hinline]
    · cases hs
  · obtain rfl := Option.some.inj hs
    rfl
  · obtain rfl := Option.some.inj hs
    rfl
  · cases hs

lemma prov_opened {s : Section} (h : s ∈ c.opened file) :
    ∃ hh ∈ c.header, s.prov = hh.prov file := by
  obtain ⟨b, hblank, rfl⟩ := Option.map_eq_some_iff.mp h
  obtain ⟨hh, hheader, hb⟩ := Option.bind_eq_some_iff.mp hblank
  refine ⟨hh, hheader, ?_⟩
  rw [Section.prov_foldl_add]
  split at hb <;> try split at hb
  all_goals first
    | cases hb; done
    | obtain rfl := Option.some.inj hb; rfl

lemma header_ended (c : Chapter) : c.ended.header = c.header := by
  rw [ended]
  split_ifs <;> rfl

lemma isBullet_of_reading (h : c.reading file l = .item i) :
    i.isBullet ↔ c.inAnswer = false ∧ l.kind.isBullet := by
  obtain ⟨hin, -, rfl⟩ | ⟨hin, text, hkind, hbullet⟩ := reading_eq_item h
  · simp [Item.isBullet, hin]
  · obtain ⟨-, nodes, rfl⟩ | ⟨-, rfl⟩ | ⟨-, rfl⟩ | ⟨-, filter, rfl⟩ :=
      bulletReading_eq_item hbullet <;> simp [Item.isBullet, hin, hkind, LineKind.isBullet]

lemma filtering_eq_of_place {filters answered : Bool} (h : c.place = .question filters answered) :
    c.filtering = filters := by
  rw [place_of_isQuestion (isQuestion_of_place h)] at h
  cases h
  rfl

/-- Filters stand below their heading only. -/
lemma filters_eq_nil (h : c.filtering = false) : (c.items file).filterMap Item.filter? = [] := by
  induction c using Chapter.induction with
  | hheader hh => rfl
  | hadd c l ih =>
      have hc : c.filtering = false := by
        rw [filtering_add, Bool.or_eq_false_iff] at h
        exact h.1
      rw [items_add, List.filterMap_append, ih hc, List.nil_append]
      cases hr : c.reading file l with
      | silent | info | fault => rfl
      | item i =>
          obtain ⟨-, -, rfl⟩ | ⟨-, text, -, hbullet⟩ := reading_eq_item hr
          · cases c.interrupted <;> rfl
          · obtain ⟨-, nodes, rfl⟩ | ⟨-, rfl⟩ | ⟨-, rfl⟩ | ⟨hplace, filter, rfl⟩ :=
              bulletReading_eq_item hbullet
            · cases c.interrupted <;> rfl
            · cases c.interrupted <;> rfl
            · cases c.interrupted <;> rfl
            · rw [filtering_eq_of_place hplace] at hc
              cases hc

/-- The section of a chapter has room for every item below its header. -/
lemma accepts_opened (h : c.reading file l = .item i) :
    ∃ s, c.opened file = some s ∧ s.accepts i := by
  obtain ⟨s, hblank, hroom⟩ := exists_blank_of_reading h
  refine ⟨_, by rw [opened, hblank, Option.map_some], Section.accepts_foldl_add hroom ?_⟩
  intro hwording
  obtain ⟨-, -, rfl⟩ | ⟨-, text, -, hbullet⟩ := reading_eq_item h
  · cases hwording
  · obtain ⟨-, nodes, rfl⟩ | ⟨-, rfl⟩ | ⟨hplace, rfl⟩ | ⟨-, filter, rfl⟩ :=
      bulletReading_eq_item hbullet
    · cases hwording
    · cases hwording
    · exact filters_eq_nil (filtering_eq_of_place hplace)
    · cases hwording

lemma opened_add :
    (c.add l).opened file = (c.opened file).map fun s =>
      ((c.reading file l).kept? c.interrupted).toList.foldl Section.add s := by
  simp [opened, items_add, Function.comp_def]

/-- **The section of a chapter holds the attached bullets, in the order of the source.** -/
lemma contents_opened (file : String) (c : Chapter) :
    (c.opened file).elim [] Section.contents = c.bullets.filterMap (attached? file) := by
  induction c using Chapter.induction with
  | hheader hh =>
      cases hblank : Chapter.blank file { header := hh } with
      | none => simp [opened, hblank, bullets, trail_header]
      | some s => simp [opened, hblank, bullets, items, trail_header, contents_blank hblank]
  | hadd c l ih =>
      have hattached : attached? file (c, l) = (c.reading file l).kept? c.interrupted := rfl
      rw [opened_add, bullets_add, List.filterMap_append, ← ih]
      cases hkept : (c.reading file l).kept? c.interrupted with
      | none =>
          rw [hkept] at hattached
          cases c.opened file <;> split_ifs <;> simp [hattached]
      | some i =>
          rw [hkept] at hattached
          obtain ⟨hr, -⟩ := Reading.kept?_eq_some_iff.mp hkept
          obtain ⟨s, hopened, hroom⟩ := accepts_opened hr
          simp only [hopened, Option.map_some, Option.elim_some, Option.toList_some,
            List.foldl_cons, List.foldl_nil]
          rw [Section.contents_add hroom]
          by_cases hbullet : i.isBullet
          · simp [hbullet, (isBullet_of_reading hr).mp hbullet, hattached]
          · have hline : ¬ (c.inAnswer = false ∧ l.kind.isBullet) :=
              fun hline => hbullet ((isBullet_of_reading hr).mpr hline)
            simp [hbullet, hline]

lemma bullets_ended (c : Chapter) : c.ended.bullets = c.bullets := by
  rw [ended]
  split_ifs
  · simp [bullets_add, endFence, LineKind.isBullet]
  · rfl

/-! ## Reported bullets -/

lemma sublist_lineErrors (file : String) (c : Chapter) :
    (c.bullets.filterMap (reported? file)).Sublist (c.lineErrors file) := by
  rw [lineErrors]
  refine List.Sublist.trans ?_ (List.sublist_append_right _ _)
  exact List.filter_sublist.filterMap _

lemma exists_item_or_fault {b : Chapter × Line} (h : b ∈ c.bullets) (file : String) :
    (∃ i, b.1.reading file b.2 = .item i) ∨ ∃ f, b.1.reading file b.2 = .fault f := by
  obtain ⟨before, l⟩ := b
  obtain ⟨-, hb⟩ := List.mem_filter.mp h
  simp only [Bool.and_eq_true, Bool.not_eq_true'] at hb
  cases hkind : l.kind with
  | bullet text =>
      simp only [reading, hb.1, Bool.false_eq_true, if_false, hkind, bulletReading, filterReading]
      repeat' split
      all_goals simp
  | _ => simp [hkind, LineKind.isBullet] at hb

/-- A bullet that is not lost is attached or reported, and not both. -/
lemma xor_attached_reported {b : Chapter × Line} (h : b ∈ c.bullets) (file : String) :
    ¬ Lost file b ↔ Xor (attached? file b).isSome (reported? file b).isSome := by
  obtain ⟨i, hr⟩ | ⟨f, hr⟩ := exists_item_or_fault h file
  · cases hint : b.1.interrupted <;>
      simp [Lost, attached?, reported?, hr, hint, Reading.kept?, Reading.report?, Xor]
  · simp [Lost, attached?, reported?, hr, Reading.kept?, Reading.report?, Xor]

lemma isError_of_reported {b : Chapter × Line} {d : Diagnostic} (h : d ∈ reported? file b) :
    d.isError ∧ d.line = b.2.number := by
  obtain ⟨before, l⟩ := b
  simp only [reported?] at h
  cases hr : before.reading file l with
  | fault f =>
      rw [hr] at h
      obtain rfl := Option.some.inj h
      exact ⟨rfl, rfl⟩
  | silent | info | item => simp [hr, Reading.report?] at h

/-! ## The lines that errors are about -/

lemma map_snd_trail (c : Chapter) : c.trail.map Prod.snd = c.body := by
  induction c using Chapter.induction with
  | hheader hh => rfl
  | hadd c l ih =>
      rw [trail_add, List.map_append, ih]
      rfl

lemma mem_body_iff : l ∈ c.body ↔ ∃ before, (before, l) ∈ c.trail := by
  rw [← map_snd_trail]
  simp

lemma exists_fence (h : c.fences ≠ 0) :
    ∃ l ∈ c.body, l.kind = .fence ∧ c.fenceNumber = l.number := by
  rw [ne_eq, fences_eq_zero_iff, ← ne_eq, Option.ne_none_iff_exists'] at h
  obtain ⟨l, hfind⟩ := h
  refine ⟨l, List.mem_of_find?_eq_some hfind, by simpa using List.find?_some hfind, ?_⟩
  simp [fenceNumber, hfind]

/-- An error is about a header, about a line at fault or about a fence. -/
lemma exists_line_of_mem_errors {d : Diagnostic} (h : d ∈ c.errors file) :
    (∃ hh ∈ c.header, d.line = hh.number) ∨
    ∃ p ∈ c.trail, d.line = p.2.number ∧
      ((∃ f, p.1.reading file p.2 = .fault f) ∨ p.2.kind = .fence) := by
  simp only [errors, lineErrors, List.mem_append, Option.mem_toList, List.mem_filterMap] at h
  obtain (hd | ⟨⟨before, l⟩, hmem, hd⟩) | hd := h
  · left
    obtain ⟨hh, hheader, hd⟩ := Option.bind_eq_some_iff.mp hd
    refine ⟨hh, hheader, ?_⟩
    split at hd
    · split at hd
      · cases hd
      · obtain rfl := Option.some.inj hd
        rfl
    · cases hd
  · right
    refine ⟨(before, l), hmem, ?_⟩
    dsimp only at hd ⊢
    cases hr : before.reading file l with
    | fault f =>
        rw [hr] at hd
        obtain rfl := Option.some.inj hd
        exact ⟨rfl, .inl ⟨f, rfl⟩⟩
    | silent | info | item => simp [hr, Reading.report?] at hd
  · simp only [endError?] at hd
    split at hd
    · next question number raw hheader =>
        split_ifs at hd with hzero hint hone
        · obtain rfl := Option.some.inj hd
          exact .inl ⟨_, hheader, rfl⟩
        · right
          obtain rfl := Option.some.inj hd
          obtain ⟨l, hl, hfence, hnumber⟩ := exists_fence hzero
          obtain ⟨before, hmem⟩ := mem_body_iff.mp hl
          exact ⟨(before, l), hmem, hnumber, .inr hfence⟩
    · cases hd

end Chapter

namespace IsCut

variable {lines : List Line} {cs : List Chapter} {c : Chapter}

lemma mem_of_mem_trail (h : IsCut lines cs) (hc : c ∈ cs) {p : Chapter × Line}
    (hp : p ∈ c.trail) : p.2 ∈ lines := by
  rw [← h.lines_eq]
  refine List.mem_flatMap.mpr ⟨c, hc, List.mem_append_right _ ?_⟩
  exact Chapter.mem_body_iff.mpr ⟨_, hp⟩

lemma mem_of_mem_header (h : IsCut lines cs) (hc : c ∈ cs) {l : Line} (hl : l ∈ c.header) :
    l ∈ lines := by
  rw [← h.lines_eq]
  refine List.mem_flatMap.mpr ⟨c, hc, List.mem_append_left _ ?_⟩
  exact Option.mem_toList.mpr hl

/-- A line that occurs once in the source is read once. -/
lemma nodup_trails (h : IsCut lines cs) (hlines : lines.Nodup) :
    ((cs.flatMap Chapter.trail).map Prod.snd).Nodup := by
  refine List.Nodup.sublist ?_ hlines
  rw [← h.lines_eq, List.map_flatMap]
  refine List.Sublist.flatMap_right _ fun c _ => ?_
  rw [Chapter.map_snd_trail]
  exact List.sublist_append_right _ _

end IsCut

/-- Where no two lines have one number, no error is about a lost bullet. -/
lemma not_reported_of_lost {file : String} {lines : List Line} {c : Chapter} {b : Chapter × Line}
    (hnumbers : (lines.map Line.number).Nodup) (hc : c ∈ chapters lines) (hb : b ∈ c.bullets)
    (hlost : Chapter.Lost file b) {d : Diagnostic} (hd : d ∈ (ofLines file lines).errors) :
    d.line ≠ b.2.number := by
  intro hline
  obtain ⟨-, i, hitem⟩ := hlost
  obtain ⟨htrail, hkind⟩ := List.mem_filter.mp hb
  have hcut := isCut_chapters lines
  have hb' := hcut.mem_of_mem_trail hc htrail
  rw [ofLines_errors] at hd
  obtain ⟨c', hc', hd⟩ := List.mem_flatMap.mp hd
  obtain ⟨hh, hheader, hnumber⟩ | ⟨p, hp, hnumber, hfault⟩ := Chapter.exists_line_of_mem_errors hd
  · obtain rfl : hh = b.2 :=
      List.inj_on_of_nodup_map hnumbers (hcut.mem_of_mem_header hc' hheader) hb'
        (hnumber.symm.trans hline)
    have hisHeader := hcut.isHeader c' hc' _ hheader
    cases hk : b.2.kind <;> simp [hk, LineKind.isBullet, LineKind.isHeader] at hkind hisHeader
  · have hsame : p.2 = b.2 :=
      List.inj_on_of_nodup_map hnumbers (hcut.mem_of_mem_trail hc' hp) hb'
        (hnumber.symm.trans hline)
    obtain rfl : p = b :=
      List.inj_on_of_nodup_map (hcut.nodup_trails (List.Nodup.of_map _ hnumbers))
        (List.mem_flatMap.mpr ⟨c', hc', hp⟩) (List.mem_flatMap.mpr ⟨c, hc, htrail⟩) hsame
    obtain ⟨f, hf⟩ | hfence := hfault
    · rw [hitem] at hf
      cases hf
    · simp [hfence, LineKind.isBullet] at hkind

/-- **What becomes of the bullets.**  The lines are cut at the headers, and every section but a
directive stands for a header and holds the attached bullets of its chapter, each once and in the
order of the source.  The reports about bullets are among the errors, in that order too.  A bullet
is attached or reported, and not both, exactly if it is not lost; a lost one leaves no trace. -/
theorem bullets_accounted (file : String) (lines : List Line) :
    IsCut lines (chapters lines) ∧
    (ofLines file lines).sections = (chapters lines).flatMap (fun c => c.ended.sections file) ∧
    ((chapters lines).flatMap fun c => c.bullets.filterMap (Chapter.reported? file)).Sublist
      (ofLines file lines).errors ∧
    ∀ c ∈ chapters lines,
      (∀ s ∈ c.ended.opened file, ∃ h ∈ c.header, s.prov = h.prov file) ∧
      (c.ended.opened file).elim [] Section.contents =
        c.bullets.filterMap (Chapter.attached? file) ∧
      ∀ b ∈ c.bullets,
        (¬ Chapter.Lost file b ↔
          Xor (Chapter.attached? file b).isSome (Chapter.reported? file b).isSome) ∧
        (∀ d ∈ Chapter.reported? file b, d.isError ∧ d.line = b.2.number) ∧
        ((lines.map Line.number).Nodup → Chapter.Lost file b →
          ∀ d ∈ (ofLines file lines).errors, d.line ≠ b.2.number) := by
  refine ⟨isCut_chapters lines, ofLines_sections file lines, ?_, ?_⟩
  · rw [ofLines_errors]
    refine List.Sublist.flatMap_right _ fun c _ => ?_
    exact (Chapter.sublist_lineErrors file c).trans (List.sublist_append_left _ _)
  · intro c hc
    refine ⟨?_, ?_, ?_⟩
    · intro s hs
      rw [← Chapter.header_ended]
      exact Chapter.prov_opened hs
    · rw [Chapter.contents_opened, Chapter.bullets_ended]
    · intro b hb
      refine ⟨Chapter.xor_attached_reported hb file, ?_, ?_⟩
      · intro d hd
        exact Chapter.isError_of_reported hd
      · intro hnumbers hlost d hd
        exact not_reported_of_lost hnumbers hc hb hlost hd

/-- A source with a bullet of each fate: one is attached, one is reported and one is lost. -/
def mixedSource : String :=
  "# greet\n- hi\n- \x7bopen\n> !# @app.name = demo\n- hello\n"

theorem bullets_accounted_mixedSource :
    ∃ c ∈ chapters (Line.scan mixedSource),
      c.bullets.map (fun b => (b.2.number, (Chapter.attached? "greet.lu" b).isSome,
        (Chapter.reported? "greet.lu" b).isSome)) =
          [(2, true, false), (3, false, true), (5, false, false)] ∧
      (c.ended.opened "greet.lu").elim [] Section.contents =
        c.bullets.filterMap (Chapter.attached? "greet.lu") ∧
      ∀ b ∈ c.bullets, b.2.number = 5 → Chapter.Lost "greet.lu" b ∧
        ∀ d ∈ (Document.read "greet.lu" mixedSource).errors, d.line ≠ 5 := by
  obtain ⟨c, hc, hfates⟩ : ∃ c ∈ chapters (Line.scan mixedSource),
      c.bullets.map (fun b => (b.2.number, (Chapter.attached? "greet.lu" b).isSome,
        (Chapter.reported? "greet.lu" b).isSome)) =
          [(2, true, false), (3, false, true), (5, false, false)] := by decide +kernel
  obtain ⟨-, hcontents, hbullets⟩ :=
    (bullets_accounted "greet.lu" (Line.scan mixedSource)).2.2.2 c hc
  refine ⟨c, hc, hfates, hcontents, ?_⟩
  intro b hb hnumber
  obtain ⟨hxor, -, hsilent⟩ := hbullets b hb
  have hfate := List.mem_map_of_mem (f := fun b : Chapter × Line => (b.2.number,
    (Chapter.attached? "greet.lu" b).isSome, (Chapter.reported? "greet.lu" b).isSome)) hb
  rw [hfates] at hfate
  have hlost : Chapter.Lost "greet.lu" b := by
    by_contra hlost
    have hone := hxor.mp hlost
    simp_all [Xor]
  refine ⟨hlost, ?_⟩
  rw [← hnumber]
  exact hsilent (by decide +kernel) hlost

/-- A source in which a directive stands between an intent and its utterance. -/
def interruptedSource : String :=
  "# greet\n> !# @app.name = demo\n- hello\n"

theorem bullet_lost_interruptedSource :
    (∃ c ∈ chapters (Line.scan interruptedSource), ∃ b ∈ c.bullets,
      b.2.kind = .bullet "hello" ∧
        c.header.map Line.kind = some (.intentHeader "greet")) ∧
    (Document.read "greet.lu" interruptedSource).errors = [] ∧
    ∀ s ∈ (Document.read "greet.lu" interruptedSource).sections, s.contents = [] := by
  decide +kernel

end Document

end DialogModel
