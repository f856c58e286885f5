import DialogModel.Proofs.Document.Bullets
import DialogModel.Proofs.Text.Chars

/-!
# Where the texts of a document come from

What a section holds has been read from a bullet below its header, and its name from the header
itself.  Both are cut out of a scanned line, and the scan trims what it cuts out.  A bullet may well
be empty; the name of an entity declared with `$` may not.
-/

namespace DialogModel

/-! ## Scanned lines -/

namespace LineKind

/-- The texts of a line are trimmed, and the name of an entity is not empty. -/
def IsTidy : LineKind → Prop
  | .bullet text => Text.trim text = text
  | .legacyEntity name _ => Text.trim name = name ∧ name ≠ ""
  | _ => True

lemma isTidy_ofHeader (rest : List Char) : (ofHeader rest).IsTidy := by
  unfold ofHeader
  split <;> trivial

lemma isTidy_ofLegacy (rest : List Char) : (ofLegacy rest).IsTidy := by
  unfold ofLegacy
  split
  · split_ifs with hempty
    · trivial
    · exact ⟨by simp [Text.trim], by simpa using hempty⟩
  · trivial

lemma isTidy_ofLink (rest : List Char) : (ofLink rest).IsTidy := by
  unfold ofLink
  split
  · split_ifs <;> trivial
  · trivial

lemma isTidy_classify (raw : List Char) : (classify raw).IsTidy := by
  unfold classify ofTrimmed
  split_ifs
  · trivial
  · trivial
  · split
    · trivial
    · split <;> trivial
    · exact isTidy_ofHeader _
    · trivial
    · exact isTidy_ofLegacy _
    · exact isTidy_ofLink _
    · split_ifs
      · simp [IsTidy, Text.trim]
      · trivial

end LineKind

lemma Line.isTidy_of_mem_scan {source : String} {l : Line} (h : l ∈ scan source) :
    l.kind.IsTidy := by
  obtain ⟨i, hi, rfl⟩ := List.mem_mapIdx.mp h
  exact LineKind.isTidy_classify _

/-! ## Sections -/

/-- The name of an entity declared with `$`. -/
def Section.legacyName? : Section → Option String
  | .legacyEntity e => some e.name
  | _ => none

lemma Section.legacyName?_foldl_add (s : Section) (items : List Item) :
    (items.foldl add s).legacyName? = s.legacyName? := by
  induction items generalizing s with
  | nil => rfl
  | cons i items ih =>
      rw [List.foldl_cons, ih]
      cases i <;> cases s <;> rfl

namespace Document

open Section (Item)

variable {file : String} {lines : List Line} {s : Section}

/-- The header of a section declared with `$` has its name. -/
lemma Chapter.header_of_legacyName? {c : Chapter} {name : String} (hs : s ∈ c.opened file)
    (hname : s.legacyName? = some name) :
    ∃ h ∈ c.header, ∃ definition, h.kind = .legacyEntity name definition := by
  obtain ⟨b, hblank, rfl⟩ := Option.map_eq_some_iff.mp hs
  rw [Section.legacyName?_foldl_add] at hname
  obtain ⟨h, hheader, hb⟩ := Option.bind_eq_some_iff.mp hblank
  refine ⟨h, hheader, ?_⟩
  cases hkind : h.kind with
  | legacyEntity name' definition =>
      simp only [hkind, Option.some.injEq] at hb
      subst hb
      cases hname
      exact ⟨definition, rfl⟩
  | newEntity text =>
      simp only [hkind] at hb
      split at hb
      · cases hb
        cases hname
      · cases hb
  | intentHeader | questionHeader | importLink =>
      simp only [hkind, Option.some.injEq] at hb
      subst hb
      cases hname
  | _ =>
      simp only [hkind] at hb
      cases hb

lemma Chapter.read_of_bulletReading {c : Chapter} {l : Line} {text : String} {line : UtteranceLine}
    (h : c.bulletReading file l text = .item (.utterance line)) :
    Utterance.read text = .ok line.nodes := by
  unfold bulletReading at h
  split at h
  · cases h
  · split at h
    · next nodes hread =>
      cases h
      exact hread
    · cases h
  · cases h
  · cases h
  · unfold filterReading at h
    split at h
    · split_ifs at h
      cases h
    · cases h
  · cases h

/-- **The name of an entity declared with `$` stands in a line of the source.** -/
lemma exists_line_of_legacyName? {name : String} (hs : s ∈ (ofLines file lines).sections)
    (hname : s.legacyName? = some name) :
    ∃ l ∈ lines, ∃ definition, l.kind = .legacyEntity name definition := by
  rw [ofLines_sections] at hs
  obtain ⟨c, hc, hs⟩ := List.mem_flatMap.mp hs
  rcases List.mem_append.mp hs with hs | hs
  · obtain ⟨h, hheader, hkind⟩ := Chapter.header_of_legacyName? (Option.mem_toList.mp hs) hname
    rw [Chapter.header_ended] at hheader
    exact ⟨h, (isCut_chapters lines).mem_of_mem_header hc hheader, hkind⟩
  · obtain ⟨info, rfl⟩ := Chapter.exists_modelInfo_of_mem_infos hs
    cases hname

/-- **What a section holds has been read from a bullet of the source.** -/
lemma exists_bullet_of_mem_contents {i : Item} (hs : s ∈ (ofLines file lines).sections)
    (hi : i ∈ s.contents) :
    ∃ l ∈ lines, ∃ text c, l.kind = .bullet text ∧
      Chapter.bulletReading file c l text = .item i := by
  rw [ofLines_sections] at hs
  obtain ⟨c, hc, hs⟩ := List.mem_flatMap.mp hs
  rcases List.mem_append.mp hs with hs | hs
  · have hcontents := Chapter.contents_opened file c.ended
    rw [Option.mem_toList.mp hs, Option.elim_some, Chapter.bullets_ended] at hcontents
    rw [hcontents] at hi
    obtain ⟨⟨before, l⟩, hb, hattached⟩ := List.mem_filterMap.mp hi
    obtain ⟨hmem, hbullet⟩ := List.mem_filter.mp hb
    obtain ⟨hreading, -⟩ := Reading.kept?_eq_some_iff.mp hattached
    obtain ⟨hin, -, -⟩ | ⟨-, text, hkind, hitem⟩ := Chapter.reading_eq_item hreading
    · simp [hin] at hbullet
    · exact ⟨l, (isCut_chapters lines).mem_of_mem_trail hc hmem, text, before, hkind, hitem⟩
  · obtain ⟨info, rfl⟩ := Chapter.exists_modelInfo_of_mem_infos hs
    cases hi

/-- The nodes of a line have been read from a trimmed text. -/
lemma exists_read_of_mem_utterances {source : String} {intent : IntentSection}
    (hs : .intent intent ∈ (Document.read file source).sections) {line : UtteranceLine}
    (hline : line ∈ intent.utterances) :
    ∃ text, Text.trim text = text ∧ Utterance.read text = .ok line.nodes := by
  have hi : Item.utterance line ∈ (Section.intent intent).contents := List.mem_map_of_mem hline
  obtain ⟨l, hl, text, c, hkind, hitem⟩ := exists_bullet_of_mem_contents hs hi
  have htidy := Line.isTidy_of_mem_scan hl
  rw [hkind] at htidy
  exact ⟨text, htidy, Chapter.read_of_bulletReading hitem⟩

end Document

end DialogModel
