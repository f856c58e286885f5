import DialogModel.Proofs.App.Failures
import DialogModel.Proofs.Document.Bullets

/-!
# The places of a document

Every place that a section carries is that of a line of the source: the file, the number and the
text of one and the same line.  The header gives the place of its section and each bullet that of
its item (`Chapter.exists_line_of_mem_provs`), and since the chapters are a cut of the source this
holds of the whole document.  The errors of the front end are at lines of the source as well.
-/

namespace DialogModel

namespace Section

/-- The place of an item that keeps one. -/
def Item.prov? : Item → Option Provenance
  | .utterance line => some line.prov
  | .bodyLine line => some line.prov
  | _ => none

lemma provs_eq (s : Section) : s.provs = s.prov :: s.contents.filterMap Item.prov? := by
  cases s with
  | modelInfo s => rfl
  | importLink s => rfl
  | intent s => simp [provs, contents, prov, Item.prov?, Function.comp_def]
  | newEntity s => simp [provs, contents, prov, Item.prov?, Function.comp_def]
  | legacyEntity s => simp [provs, contents, prov, Item.prov?, Function.comp_def]
  | question s =>
      -- Neither a wording nor a filter keeps its place.
      have hnone : ∀ i ∈ (question s).contents, i.prov? = none := by
        intro i hi
        rcases List.mem_append.mp hi with hi | hi
        · obtain ⟨text, -, rfl⟩ := List.mem_map.mp hi
          rfl
        · obtain ⟨filter, -, rfl⟩ := List.mem_map.mp hi
          rfl
      rw [List.filterMap_eq_nil_iff.mpr hnone]
      rfl

end Section

namespace Document

open Section (Item)

namespace Chapter

variable {file : String} {c : Chapter} {l : Line} {s : Section} {p : Provenance}

lemma eq_prov_of_reading {i : Item} (h : c.reading file l = .item i) (hp : p ∈ i.prov?) :
    p = l.prov file := by
  obtain ⟨-, -, rfl⟩ | ⟨-, text, -, hbullet⟩ := reading_eq_item h
  · cases hp
  · obtain ⟨-, nodes, rfl⟩ | ⟨-, rfl⟩ | ⟨-, rfl⟩ | ⟨-, filter, rfl⟩ := bulletReading_eq_item hbullet
    · exact (Option.some.inj hp).symm
    · exact (Option.some.inj hp).symm
    · cases hp
    · cases hp

/-- The section of a chapter is at its header, and its items are at bullets of the chapter. -/
lemma exists_line_of_mem_provs_opened (hs : s ∈ c.opened file) (hp : p ∈ s.provs) :
    ∃ l ∈ c.header.toList ++ c.bullets.map Prod.snd, p = l.prov file := by
  rw [Section.provs_eq] at hp
  rcases List.mem_cons.mp hp with rfl | hp
  · obtain ⟨hh, hheader, hprov⟩ := prov_opened hs
    exact ⟨hh, List.mem_append_left _ (Option.mem_toList.mpr hheader), hprov⟩
  · obtain ⟨i, hi, hp⟩ := List.mem_filterMap.mp hp
    have hcontents := contents_opened file c
    rw [Option.mem_def.mp hs, Option.elim_some] at hcontents
    rw [hcontents] at hi
    obtain ⟨b, hb, hattached⟩ := List.mem_filterMap.mp hi
    obtain ⟨hreading, -⟩ := Reading.kept?_eq_some_iff.mp hattached
    exact ⟨b.2, List.mem_append_right _ (List.mem_map_of_mem hb),
      eq_prov_of_reading hreading hp⟩

/-- A directive is at its own line. -/
lemma exists_line_of_mem_infos (hs : s ∈ c.infos file) :
    ∃ b ∈ c.trail, b.2.kind.isModelInfo ∧ s.provs = [b.2.prov file] := by
  obtain ⟨⟨before, l⟩, hmem, hinfo⟩ := List.mem_filterMap.mp hs
  refine ⟨(before, l), hmem, ?_⟩
  dsimp only at hinfo ⊢
  have hline := reading_info?_isSome (c := before) (l := l) file
  rw [hinfo, Option.isSome_some, eq_comm, Bool.and_eq_true, Bool.not_eq_true'] at hline
  refine ⟨hline.2, ?_⟩
  cases hkind : l.kind with
  | modelInfo directive =>
      simp only [reading, hline.1, hkind, Reading.info?] at hinfo
      obtain rfl := Option.some.inj hinfo
      rfl
  | _ => simp [hkind, LineKind.isModelInfo] at hline

/-- The end of the source adds at most a fence. -/
lemma mem_trail_of_mem_trail_ended {b : Chapter × Line} (h : b ∈ c.ended.trail)
    (hkind : b.2.kind ≠ .fence) : b ∈ c.trail := by
  rw [ended] at h
  split_ifs at h
  · rw [trail_add] at h
    rcases List.mem_append.mp h with h | h
    · exact h
    · obtain rfl := List.mem_singleton.mp h
      exact absurd rfl hkind
  · exact h

lemma exists_line_of_mem_provs (hs : s ∈ c.ended.sections file) (hp : p ∈ s.provs) :
    ∃ l ∈ c.lines, p = l.prov file := by
  rcases List.mem_append.mp hs with hs | hs
  · obtain ⟨l, hl, hprov⟩ := exists_line_of_mem_provs_opened (Option.mem_toList.mp hs) hp
    rw [header_ended, bullets_ended] at hl
    refine ⟨l, ?_, hprov⟩
    rcases List.mem_append.mp hl with hl | hl
    · exact List.mem_append_left _ hl
    · obtain ⟨⟨before, l⟩, hb, rfl⟩ := List.mem_map.mp hl
      exact List.mem_append_right _ (mem_body_iff.mpr ⟨before, List.mem_of_mem_filter hb⟩)
  · obtain ⟨⟨before, l⟩, hb, hkind, hprovs⟩ := exists_line_of_mem_infos hs
    rw [hprovs] at hp
    have hfence : l.kind ≠ .fence := by
      intro h
      simp [h, LineKind.isModelInfo] at hkind
    have htrail : (before, l) ∈ c.trail := mem_trail_of_mem_trail_ended hb hfence
    exact ⟨l, List.mem_append_right _ (mem_body_iff.mpr ⟨before, htrail⟩),
      List.mem_singleton.mp hp⟩

end Chapter

variable {file : String} {lines : List Line}

/-- **Every place in a document is that of a line.** -/
lemma exists_line_of_mem_provs {s : Section} {p : Provenance}
    (hs : s ∈ (ofLines file lines).sections) (hp : p ∈ s.provs) : ∃ l ∈ lines, p = l.prov file := by
  rw [ofLines_sections] at hs
  obtain ⟨c, hc, hs⟩ := List.mem_flatMap.mp hs
  obtain ⟨l, hl, hprov⟩ := Chapter.exists_line_of_mem_provs hs hp
  refine ⟨l, ?_, hprov⟩
  rw [← (isCut_chapters lines).lines_eq]
  exact List.mem_flatMap.mpr ⟨c, hc, hl⟩

/-- **Every error of the front end is at a line.** -/
lemma exists_line_of_mem_errors {d : Diagnostic} (hd : d ∈ (ofLines file lines).errors) :
    ∃ l ∈ lines, d.line = l.number := by
  rw [ofLines_errors] at hd
  obtain ⟨c, hc, hd⟩ := List.mem_flatMap.mp hd
  have hcut := isCut_chapters lines
  obtain ⟨hh, hheader, hnumber⟩ | ⟨b, hb, hnumber, -⟩ := Chapter.exists_line_of_mem_errors hd
  · exact ⟨hh, hcut.mem_of_mem_header hc hheader, hnumber⟩
  · exact ⟨b.2, hcut.mem_of_mem_trail hc hb, hnumber⟩

end Document

/-- A scanned line has the text that its number stands for. -/
lemma Line.getElem?_of_mem_scan {source : String} {l : Line} (h : l ∈ scan source) :
    1 ≤ l.number ∧ l.number ≤ (Text.lines source).length ∧
      (Text.lines source)[l.number - 1]? = some l.raw := by
  obtain ⟨i, hi, rfl⟩ := List.mem_mapIdx.mp h
  simp [Text.lines, hi, Nat.succ_le_of_lt hi]

end DialogModel
