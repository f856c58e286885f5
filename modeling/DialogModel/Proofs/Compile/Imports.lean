import DialogModel.Proofs.App.Failures
import DialogModel.Proofs.App.Image
import DialogModel.Proofs.Compile.Reached
import DialogModel.Proofs.Text.Chars

/-!
# The links of a document

A link is filed in one of three lists, and which one depends on its path alone: on whether the path
is a web address, and on what the probe answers for it.  So the lists have no path in common, and
each holds its paths once, in the order in which the document first mentions them.

Whether a link fails does not depend on the model either.  A pass over links is therefore a search
for the first that fails, and if none does, a loop that cannot fail (`foldlM_eq_findSome?`).
-/

namespace DialogModel

/-! ## One link -/

namespace ImportLink

/-- A path is a web address: it starts with the scheme `http` or `https`, in any case. -/
def IsWeb (path : String) : Prop :=
  ∃ scheme rest, path = scheme ++ rest ∧
    (Text.lower scheme = "http://" ∨ Text.lower scheme = "https://")

/-- A content type is that of a web page: it holds `text/html` in any case. -/
def IsHtml (contentType : String) : Prop :=
  ∃ before word after, contentType = before ++ word ++ after ∧ Text.lower word = "text/html"

/-- A path is that of a web page. -/
def IsPage (probe : Probe) (path : String) : Prop :=
  IsWeb path ∧ ∃ contentType, probe path = .ok contentType ∧ IsHtml contentType

/-- A path is that of another document on the web. -/
def IsDocument (probe : Probe) (path : String) : Prop :=
  IsWeb path ∧ ∃ contentType, probe path = .ok contentType ∧ ¬ IsHtml contentType

/-- A path is a web address that cannot be reached. -/
def Fails (probe : Probe) (path : String) : Prop :=
  IsWeb path ∧ ∃ reason, probe path = .error reason

lemma startsWith_iff {word path : String} :
    (Chars.after? word.toList (Chars.lower path.toList)).isSome ↔
      ∃ scheme rest, path = scheme ++ rest ∧ Text.lower scheme = word := by
  rw [Chars.isSome_after?_iff, Chars.isPrefix_lower_iff]
  constructor
  · rintro ⟨front, rest, hpath, hfront⟩
    refine ⟨String.ofList front, String.ofList rest, String.toList_injective ?_,
      String.toList_injective ?_⟩
    · simpa using hpath
    · simpa using hfront
  · rintro ⟨scheme, rest, rfl, rfl⟩
    exact ⟨scheme.toList, rest.toList, by simp, by simp⟩

lemma isWebAddress_iff {path : String} : isWebAddress path = true ↔ IsWeb path := by
  simp only [isWebAddress, Bool.or_eq_true, startsWith_iff, IsWeb, and_or_left, exists_or]

lemma isPage_iff {contentType : String} : isPage contentType = true ↔ IsHtml contentType := by
  rw [isPage, Chars.hasInfix_iff, Chars.isInfix_lower_iff]
  constructor
  · rintro ⟨before, part, after, htype, hpart⟩
    refine ⟨String.ofList before, String.ofList part, String.ofList after,
      String.toList_injective ?_, String.toList_injective ?_⟩
    · simpa using htype
    · simpa using hpart
  · rintro ⟨before, word, after, rfl, hword⟩
    exact ⟨before.toList, word.toList, after.toList, by simp, by rw [← Text.toList_lower, hword]⟩

instance : DecidablePred IsWeb := fun _ =>
  decidable_of_iff _ isWebAddress_iff

instance : DecidablePred IsHtml := fun _ =>
  decidable_of_iff _ isPage_iff

instance (probe : Probe) : DecidablePred (IsPage probe) := fun path =>
  decidable_of_iff (IsWeb path ∧ ∃ contentType ∈ (probe path).toOption, IsHtml contentType) <| by
    cases h : probe path <;> simp [IsPage, h, Except.toOption]

instance (probe : Probe) : DecidablePred (IsDocument probe) := fun path =>
  decidable_of_iff (IsWeb path ∧ ∃ contentType ∈ (probe path).toOption, ¬ IsHtml contentType) <| by
    cases h : probe path <;> simp [IsDocument, h, Except.toOption]

instance (probe : Probe) : DecidablePred (Fails probe) := fun path =>
  decidable_of_iff (IsWeb path ∧ (probe path).toOption = none) <| by
    cases h : probe path <;> simp [Fails, h, Except.toOption]

/-- The failure of a link that cannot be reached. -/
def failure? (probe : Probe) (link : ImportLink) : Option Failure :=
  if isWebAddress link.path then
    match probe link.path with
    | .ok _ => none
    | .error reason => some (link.prov.failure (Unreachable.mk link.path reason))
  else none

/-- A document is added unless there is one with its address. -/
lemma map_uri_addFile (kb : KnowledgeBase) (file : ImportedFile) :
    (kb.addFile file).files.map ImportedFile.uri =
      FirstSeen.add (kb.files.map ImportedFile.uri) file.uri := by
  have hany : (kb.files.any fun f => decide (f.uri = file.uri)) = true ↔
      file.uri ∈ kb.files.map ImportedFile.uri := by simp
  unfold KnowledgeBase.addFile FirstSeen.add
  simp only [hany]
  split_ifs
  · rfl
  · exact List.map_append

/-- The model with a link filed in the list that its path belongs to. -/
def filed (probe : Probe) (m : Model) (link : ImportLink) : Model :=
  { m with
    additionalFiles :=
      if IsWeb link.path then m.additionalFiles
      else FirstSeen.add m.additionalFiles link.path
    kb := { m.kb with
      urls :=
        if IsPage probe link.path then FirstSeen.add m.kb.urls link.path else m.kb.urls
      files :=
        if IsDocument probe link.path then (m.kb.addFile ⟨link.path, link.description⟩).files
        else m.kb.files } }

/-- **A link fails, or it is filed.** -/
lemma apply_eq (probe : Probe) (m : Model) (link : ImportLink) :
    link.apply probe m = (link.failure? probe).elim (.ok (filed probe m link)) Except.error := by
  unfold apply failure? filed
  by_cases hweb : IsWeb link.path
  · rw [if_pos (isWebAddress_iff.mpr hweb), if_pos (isWebAddress_iff.mpr hweb), if_pos hweb]
    cases hprobe : probe link.path with
    | error reason => rfl
    | ok contentType =>
        by_cases hpage : IsHtml contentType
        · simp [file, isPage_iff.mpr hpage, IsPage, IsDocument, hweb, hprobe, hpage,
            KnowledgeBase.addUrl]
        · have hnot : isPage contentType = false := by simpa [← isPage_iff] using hpage
          simp only [file, hnot, IsPage, IsDocument, hweb, hprobe, hpage, Bool.false_eq_true,
            if_false, Except.ok.injEq, exists_eq_left', and_false, not_false_eq_true, and_true,
            if_true, Option.elim_none]
          unfold KnowledgeBase.addFile
          split_ifs <;> rfl
  · have hnot : isWebAddress link.path = false := by simpa [← isWebAddress_iff] using hweb
    simp [hnot, hweb, IsPage, IsDocument]

lemma failure?_eq_some_iff {probe : Probe} {link : ImportLink} {e : Failure} :
    link.failure? probe = some e ↔ IsWeb link.path ∧ ∃ reason, probe link.path = .error reason ∧
      e = link.prov.failure (Unreachable.mk link.path reason) := by
  rw [← isWebAddress_iff, failure?]
  split_ifs with hweb
  · cases hprobe : probe link.path <;> simp [hweb, eq_comm]
  · simp [hweb]

lemma failure?_eq_none_iff {probe : Probe} {link : ImportLink} :
    link.failure? probe = none ↔ ¬ Fails probe link.path := by
  rw [Option.eq_none_iff_forall_ne_some, Fails]
  constructor
  · rintro hnone ⟨hweb, reason, hprobe⟩
    exact hnone _ (failure?_eq_some_iff.mpr ⟨hweb, reason, hprobe, rfl⟩)
  · intro hreached e he
    obtain ⟨hweb, reason, hprobe, -⟩ := failure?_eq_some_iff.mp he
    exact hreached ⟨hweb, reason, hprobe⟩

/-! ## Several links -/

/-- The paths of some links that are of a sort, each once, in the order in which they first
appear. -/
def pathsWhere (p : String → Prop) [DecidablePred p] (links : List ImportLink) : List String :=
  FirstSeen.ofList ((links.map path).filter fun path => decide (p path))

/-- The first link with a path. -/
def first? (links : List ImportLink) (path : String) : Option ImportLink :=
  links.find? fun link => decide (link.path = path)

lemma pathsWhere_concat (p : String → Prop) [DecidablePred p] (links : List ImportLink)
    (link : ImportLink) :
    pathsWhere p (links ++ [link]) =
      if p link.path then FirstSeen.add (pathsWhere p links) link.path else pathsWhere p links := by
  unfold pathsWhere
  split_ifs with hp
  · simp [hp, FirstSeen.ofList_concat]
  · simp [hp]

lemma mem_pathsWhere {p : String → Prop} [DecidablePred p] {links : List ImportLink}
    {path : String} : path ∈ pathsWhere p links ↔ (∃ link ∈ links, link.path = path) ∧ p path := by
  simp [pathsWhere]

lemma nodup_pathsWhere (p : String → Prop) [DecidablePred p] (links : List ImportLink) :
    (pathsWhere p links).Nodup :=
  FirstSeen.nodup_ofList _

/-- Sorts that exclude each other have no path in common. -/
lemma disjoint_pathsWhere {p q : String → Prop} [DecidablePred p] [DecidablePred q]
    (h : ∀ path, p path → ¬ q path) (links : List ImportLink) :
    (pathsWhere p links).Disjoint (pathsWhere q links) :=
  fun path hp hq => h path (mem_pathsWhere.mp hp).2 (mem_pathsWhere.mp hq).2

/-- The three lists of a model hold some links, each in the list that its path belongs to. -/
structure Filed (probe : Probe) (links : List ImportLink) (m : Model) : Prop where
  locals : m.additionalFiles = pathsWhere (¬ IsWeb ·) links
  pages : m.kb.urls = pathsWhere (IsPage probe) links
  documents : m.kb.files.map ImportedFile.uri = pathsWhere (IsDocument probe) links
  /-- A document has the description of the first link to it. -/
  names : ∀ f ∈ m.kb.files, (first? links f.uri).map description = some f.name

namespace Filed

variable {probe : Probe} {links : List ImportLink} {m : Model} {link : ImportLink}

/-- A document that is not filed yet is mentioned for the first time. -/
lemma first?_eq_none (h : Filed probe links m) (hdoc : IsDocument probe link.path)
    (hnew : ∀ f ∈ m.kb.files, f.uri ≠ link.path) : first? links link.path = none := by
  refine List.find?_eq_none.mpr fun l hl => ?_
  rw [decide_eq_true_eq]
  intro hpath
  have hmem : link.path ∈ m.kb.files.map ImportedFile.uri :=
    h.documents ▸ mem_pathsWhere.mpr ⟨⟨l, hl, hpath⟩, hdoc⟩
  obtain ⟨f, hf, huri⟩ := List.mem_map.mp hmem
  exact hnew f hf huri

lemma first?_concat (h : Filed probe links m) {f : ImportedFile} (hf : f ∈ m.kb.files) :
    (first? (links ++ [link]) f.uri).map description = some f.name := by
  obtain ⟨l, hl, hname⟩ := Option.map_eq_some_iff.mp (h.names f hf)
  unfold first? at hl ⊢
  rw [List.find?_append, hl]
  exact congrArg some hname

/-- **A link that is filed joins the links of the model.** -/
lemma step (h : Filed probe links m) (link : ImportLink) :
    Filed probe (links ++ [link]) (filed probe m link) where
  locals := by
    rw [pathsWhere_concat, ← h.locals, filed, ite_not]
  pages := by
    rw [pathsWhere_concat, ← h.pages]
    rfl
  documents := by
    rw [pathsWhere_concat, ← h.documents]
    dsimp only [filed]
    by_cases hdoc : IsDocument probe link.path
    · rw [if_pos hdoc, if_pos hdoc, map_uri_addFile]
    · rw [if_neg hdoc, if_neg hdoc]
  names := by
    intro f hf
    simp only [filed] at hf
    split_ifs at hf with hdoc
    · unfold KnowledgeBase.addFile at hf
      split_ifs at hf with hany
      · exact h.first?_concat hf
      · rcases List.mem_append.mp hf with hf | hf
        · exact h.first?_concat hf
        · obtain rfl := List.mem_singleton.mp hf
          have hnew : ∀ f ∈ m.kb.files, f.uri ≠ link.path := by simpa using hany
          have hnone := h.first?_eq_none hdoc hnew
          unfold first? at hnone ⊢
          simp [List.find?_append, hnone]
    · exact h.first?_concat hf

lemma foldl (h : Filed probe links m) (new : List ImportLink) :
    Filed probe (links ++ new) (new.foldl (filed probe) m) := by
  induction new generalizing links m with
  | nil => simpa using h
  | cons link new ih => simpa using ih (h.step link)

end Filed

/-- Links change the three lists and nothing else. -/
lemma foldl_filed_eq (probe : Probe) (links : List ImportLink) (m : Model) :
    ∃ urls files additionalFiles, links.foldl (filed probe) m =
      { m with kb := { m.kb with urls, files }, additionalFiles } := by
  induction links generalizing m with
  | nil => exact ⟨_, _, _, rfl⟩
  | cons link links ih =>
      obtain ⟨urls, files, additionalFiles, heq⟩ := ih (filed probe m link)
      exact ⟨urls, files, additionalFiles, heq⟩

end ImportLink

/-! ## The pass over the links -/

/-- The link that a section is. -/
def Section.link? : Section → Option ImportLink
  | .importLink link => some link
  | _ => none

namespace Compile

open ImportLink

/-- The links of a document, in the order of the source. -/
def linksOf (sections : List Section) : List ImportLink :=
  sections.filterMap Section.link?

lemma filterMap_link?_sectionsOf (sections : List Section) (pass : Pass) :
    (sectionsOf pass sections).filterMap Section.link? =
      if pass = .imports then linksOf sections else [] :=
  filterMap_sectionsOf (fun s hs => by cases s <;> first | rfl | exact absurd rfl hs) pass

/-- The pass over the links is a loop over them. -/
lemma runPass_imports (ctx : Context) (sections : List Section) (m : Model) :
    runPass ctx sections m .imports =
      (linksOf sections).foldlM (fun m link => link.apply ctx.probe m) m := by
  have hlinks : (sectionsOf .imports sections).filterMap Section.link? = linksOf sections :=
    (filterMap_link?_sectionsOf sections .imports).trans (if_pos rfl)
  have hloop : ∀ (ss : List Section) (m : Model), (∀ s ∈ ss, s.pass = .imports) →
      ss.foldlM (Section.apply ctx) m =
        (ss.filterMap Section.link?).foldlM (fun m link => link.apply ctx.probe m) m := by
    intro ss
    induction ss with
    | nil => exact fun _ _ => rfl
    | cons s ss ih =>
        intro m hall
        obtain ⟨hs, hss⟩ := List.forall_mem_cons.mp hall
        cases s with
        | importLink link =>
            have hlink : (Section.importLink link :: ss).filterMap Section.link? =
                link :: ss.filterMap Section.link? := List.filterMap_cons_some rfl
            rw [List.foldlM_cons, hlink, List.foldlM_cons]
            exact congrArg (link.apply ctx.probe m >>= ·) (funext fun m' => ih m' hss)
        | _ => cases hs
  rw [← hlinks]
  exact hloop _ m fun s hs => (mem_sectionsOf.mp hs).2

lemma runPass_imports_eq (ctx : Context) (sections : List Section) (m : Model) :
    runPass ctx sections m .imports =
      ((linksOf sections).findSome? (failure? ctx.probe)).elim
        (.ok ((linksOf sections).foldl (filed ctx.probe) m)) Except.error := by
  rw [runPass_imports]
  exact foldlM_eq_findSome? (fun m link => ImportLink.apply_eq ctx.probe m link) _ m

/-- Three lists of paths that exclude each other hold no path twice. -/
lemma nodup_of_filed {probe : Probe} {links : List ImportLink} {m : Model}
    (h : Filed probe links m) :
    (m.additionalFiles ++ m.kb.urls ++ m.kb.files.map ImportedFile.uri).Nodup := by
  rw [h.locals, h.pages, h.documents]
  have hpages := disjoint_pathsWhere (p := (¬ IsWeb ·)) (q := IsPage probe)
    (fun _ hlocal hpage => hlocal hpage.1) links
  have hdocuments := disjoint_pathsWhere (p := (¬ IsWeb ·)) (q := IsDocument probe)
    (fun _ hlocal hdoc => hlocal hdoc.1) links
  have hboth := disjoint_pathsWhere (p := IsPage probe) (q := IsDocument probe) (fun path => by
    rintro ⟨-, contentType, hprobe, hhtml⟩ ⟨-, contentType', hprobe', hother⟩
    obtain rfl : contentType = contentType' := Except.ok.inj (hprobe.symm.trans hprobe')
    exact hother hhtml) links
  refine ((nodup_pathsWhere _ links).append (nodup_pathsWhere _ links) hpages).append
    (nodup_pathsWhere _ links) ?_
  rw [List.disjoint_append_left]
  exact ⟨hdocuments, hboth⟩

/-- **Links are filed without loss and without repetition.**  The pass over the links of a document
succeeds exactly if every web address among them can be reached, and otherwise it fails at the first
that cannot.  If it succeeds, the local paths, the web pages and the other documents stand in a list
each, in the order in which they first appear; no path stands in two lists or twice in one; a
document has the description of the first link to it; and nothing else in the model has changed. -/
theorem imports_filed (ctx : Context) (sections : List Section) (m : Model)
    (hurls : m.kb.urls = []) (hfiles : m.kb.files = []) (hlocals : m.additionalFiles = []) :
    ((∃ m', runPass ctx sections m .imports = .ok m') ↔
        ∀ link ∈ linksOf sections, ¬ Fails ctx.probe link.path) ∧
      (∀ e, runPass ctx sections m .imports = .error e → ∃ before link after,
        linksOf sections = before ++ link :: after ∧ (∀ l ∈ before, ¬ Fails ctx.probe l.path) ∧
          Fails ctx.probe link.path ∧ e.code = .invalidUri ∧ e.IsAt link.prov) ∧
      ∀ m', runPass ctx sections m .imports = .ok m' →
        Filed ctx.probe (linksOf sections) m' ∧
          (m'.additionalFiles ++ m'.kb.urls ++ m'.kb.files.map ImportedFile.uri).Nodup ∧
          ∃ urls files additionalFiles,
            m' = { m with kb := { m.kb with urls, files }, additionalFiles } := by
  rw [runPass_imports_eq]
  cases hfind : (linksOf sections).findSome? (failure? ctx.probe) with
  | none =>
      have hreached : ∀ link ∈ linksOf sections, ¬ Fails ctx.probe link.path := fun link hlink =>
        failure?_eq_none_iff.mp (List.findSome?_eq_none_iff.mp hfind link hlink)
      refine ⟨iff_of_true ⟨_, rfl⟩ hreached, nofun, fun m' hm' => ?_⟩
      have hstart : Filed ctx.probe [] m :=
        ⟨hlocals, hurls, by rw [hfiles]; rfl, by simp [hfiles]⟩
      have hfiled := hstart.foldl (linksOf sections)
      cases hm'
      exact ⟨hfiled, nodup_of_filed hfiled, foldl_filed_eq _ _ m⟩
  | some e =>
      obtain ⟨before, link, after, hlinks, he, hbefore⟩ := List.findSome?_eq_some_iff.mp hfind
      obtain ⟨hweb, reason, hprobe, rfl⟩ := failure?_eq_some_iff.mp he
      have hfails : Fails ctx.probe link.path := ⟨hweb, reason, hprobe⟩
      refine ⟨iff_of_false nofun fun h => ?_, fun e' he' => ?_, nofun⟩
      · exact h link (by simp [hlinks]) hfails
      · cases he'
        exact ⟨before, link, after, hlinks, fun l hl => failure?_eq_none_iff.mp (hbefore l hl),
          hfails, rfl, link.prov.failure_isAt _⟩

/-- Links of the three sorts, some of them twice and under another description. -/
def mixedLinks : List Section :=
  [("faq", "HTTPS://a.test/faq"), ("more", "./more.lu"), ("manual", "https://a.test/manual"),
    ("again", "https://a.test/manual"), ("page", "http://a.test"), ("same", "./more.lu")].mapIdx
      fun i (description, path) => .importLink ⟨description, path, ⟨"links", i + 1, ""⟩⟩

/-- A probe that reaches two of the addresses, or with `up` all three. -/
def mixedProbe (up : Bool) : Probe :=
  Probe.ofAnswers
    [("HTTPS://a.test/faq", .ok "Text/HTML; charset=utf-8"),
      ("https://a.test/manual", .ok "application/pdf"),
      ("http://a.test", if up then .ok "text/html" else .error "refused")]

theorem imports_filed_mixedLinks :
    (∃ m, runPass { locale := "en-us", probe := mixedProbe true } mixedLinks {} .imports = .ok m ∧
      m.additionalFiles = ["./more.lu"] ∧ m.kb.urls = ["HTTPS://a.test/faq", "http://a.test"] ∧
      m.kb.files = [⟨"https://a.test/manual", "manual"⟩]) ∧
    ∃ e,
      runPass { locale := "en-us", probe := mixedProbe false } mixedLinks {} .imports = .error e ∧
      e.code = .invalidUri ∧ e.line = 5 := by
  constructor
  · obtain ⟨hiff, -, hok⟩ := imports_filed { locale := "en-us", probe := mixedProbe true }
      mixedLinks {} rfl rfl rfl
    obtain ⟨m, hm⟩ := hiff.mpr (by decide +kernel)
    obtain ⟨hfiled, -, -⟩ := hok m hm
    refine ⟨m, hm, hfiled.locals.trans (by decide +kernel), hfiled.pages.trans (by decide +kernel),
      ?_⟩
    have huris : m.kb.files.map ImportedFile.uri = ["https://a.test/manual"] :=
      hfiled.documents.trans (by decide +kernel)
    obtain ⟨f, hfiles, huri⟩ := List.map_eq_singleton_iff.mp huris
    have hname := hfiled.names f (by simp [hfiles])
    have hfirst : (first? (linksOf mixedLinks) "https://a.test/manual").map description =
        some "manual" := by decide +kernel
    rw [huri, hfirst] at hname
    rw [hfiles, ← huri, Option.some.inj hname]
  · obtain ⟨hiff, herror, -⟩ := imports_filed { locale := "en-us", probe := mixedProbe false }
      mixedLinks {} rfl rfl rfl
    have hline : ∀ link ∈ linksOf mixedLinks, Fails (mixedProbe false) link.path →
        link.prov.line = 5 := by decide +kernel
    have hsome : ¬ ∀ link ∈ linksOf mixedLinks, ¬ Fails (mixedProbe false) link.path := by
      decide +kernel
    cases hrun :
        runPass { locale := "en-us", probe := mixedProbe false } mixedLinks {} .imports with
    | ok m => exact absurd (hiff.mp ⟨m, hrun⟩) hsome
    | error e =>
        obtain ⟨before, link, after, hlinks, -, hfails, hcode, hat⟩ := herror e hrun
        exact ⟨e, rfl, hcode, hat.line.trans (hline link (by simp [hlinks]) hfails)⟩

end Compile

end DialogModel
