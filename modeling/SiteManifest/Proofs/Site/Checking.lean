import SiteManifest.Proofs.Site.Faults
import SiteManifest.Proofs.Site.Findings

/-!
# Checks and faults

The checks report an error exactly where there is a fault, part by part: each check of a part finds
the errors of its rules, and the check of the whole puts them where the part is written.

## Main statements

* `Link.hasErrorAt_check`, `Preset.hasErrorAt_check` and so on: one statement for each check.
* `Site.error_iff_fault`: the errors reported of a site are its faults.
-/
namespace SiteManifest

open Text

variable {steps : List Step}

/-! ## Errors of the parts -/

theorem hasErrorAt_each_iff_faultAmong {look : α → List Finding} {fault : α → List Step → Prop}
    (spec : ∀ a rest, HasErrorAt (look a) rest ↔ fault a rest) {as : List α} :
    HasErrorAt (Located.each look 0 as) steps ↔ FaultAmong fault as steps := by
  rw [hasErrorAt_each]
  constructor
  · rintro ⟨i, a, rest, ha, rfl, error⟩
    exact .intro ha ((spec a rest).1 error)
  · rintro ⟨ha, fault⟩
    exact ⟨_, _, _, ha, rfl, (spec _ _).2 fault⟩

theorem Link.hasErrorAt_checkPage {path : String} :
    HasErrorAt (checkPage path) steps ↔ IsBlank path ∧ steps = [] := by
  unfold checkPage
  split
  next blank => simp [blank, Issue.isWarning]
  next text =>
    -- A page that looks like a URL is a warning only.
    split <;> simp [text, Issue.isWarning]

theorem Link.hasErrorAt_checkUrl {url : String} :
    HasErrorAt (checkUrl url) steps ↔ (IsBlank url ∨ ¬IsAbsolute url) ∧ steps = [] := by
  unfold checkUrl IsAbsolute
  split
  next blank => simp [blank, Issue.isWarning]
  next text => cases Url.parse url <;> simp [text, Issue.isWarning]

theorem Link.hasErrorAt_checkTarget {l : Link} :
    HasErrorAt l.checkTarget steps ↔
      (l.page.isSome = l.href.isSome ∧ steps = []) ∨
        (∃ path, l.page = some path ∧ l.href = none ∧ IsBlank path ∧ steps = [.key "to"]) ∨
        ∃ url, l.page = none ∧ l.href = some url ∧ (IsBlank url ∨ ¬IsAbsolute url) ∧
          steps = [.key "href"] := by
  unfold checkTarget
  cases l.page <;> cases l.href <;>
    simp [hasErrorAt_below, hasErrorAt_checkPage, hasErrorAt_checkUrl, Issue.isWarning, and_comm,
      and_left_comm]

theorem Link.hasErrorAt_check {l : Link} : HasErrorAt l.check steps ↔ l.FaultAt steps := by
  unfold check
  rw [hasErrorAt_append, hasErrorAt_below, hasErrorAt_checkTarget]
  constructor
  · rintro (⟨_, rfl, label⟩ | ⟨h, rfl⟩ | ⟨path, hp, hu, blank, rfl⟩ | ⟨url, hp, hu, bad, rfl⟩)
    · obtain ⟨blank, rfl⟩ := hasErrorAt_requireText.1 label
      exact .label blank
    · cases hp : l.page with
      | none => exact .noTarget hp (by simpa [hp] using h)
      | some path =>
        have external : l.href.isSome = true := by rw [← h, hp]; rfl
        obtain ⟨url, hu⟩ := Option.isSome_iff_exists.1 external
        exact .twoTargets hp hu
    · exact .page hp hu blank
    · exact .href hp hu bad
  · rintro (blank | ⟨hp, hu⟩ | ⟨hp, hu⟩ | ⟨hp, hu, blank⟩ | ⟨hp, hu, bad⟩)
    · exact .inl ⟨[], rfl, hasErrorAt_requireText.2 ⟨blank, rfl⟩⟩
    · exact .inr (.inl ⟨by rw [hp, hu]; rfl, rfl⟩)
    · exact .inr (.inl ⟨by rw [hp, hu], rfl⟩)
    · exact .inr (.inr (.inl ⟨_, hp, hu, blank, rfl⟩))
    · exact .inr (.inr (.inr ⟨_, hp, hu, bad, rfl⟩))

theorem Link.hasErrorAt_checkAll {links : List Link} :
    HasErrorAt (checkAll links) steps ↔ FaultAmong FaultAt links steps :=
  hasErrorAt_each_iff_faultAmong fun _ _ => hasErrorAt_check

theorem Logo.mem_images {l : Logo} {image : Located String} :
    image ∈ l.images ↔ image = ⟨[.key "src"], l.src⟩ ∨
      ∃ dark, l.srcDark = some dark ∧ image = ⟨[.key "srcDark"], dark⟩ := by
  unfold images
  cases l.srcDark <;> simp

theorem Logo.hasErrorAt_check {l : Logo} : HasErrorAt l.check steps ↔ l.FaultAt steps := by
  simp only [check, hasErrorAt_flatMap, hasErrorAt_when, hasErrorAt_singleton]
  constructor
  · rintro ⟨image, himage, blank, _, rfl⟩
    rcases mem_images.1 himage with rfl | ⟨dark, hd, rfl⟩
    · exact .src blank
    · exact .srcDark hd blank
  · rintro (blank | ⟨hd, blank⟩)
    · exact ⟨_, mem_images.2 (.inl rfl), blank, rfl, rfl⟩
    · exact ⟨_, mem_images.2 (.inr ⟨_, hd, rfl⟩), blank, rfl, rfl⟩

theorem Prism.hasErrorAt_checkName {name : String} :
    HasErrorAt (checkName name) steps ↔ IsBlank name ∧ steps = [] := by
  unfold checkName
  split
  next blank => simp [blank, Issue.isWarning]
  next text => split <;> simp [text, Issue.isWarning]

theorem Prism.hasErrorAt_check {p : Prism} : HasErrorAt p.check steps ↔ p.FaultAt steps := by
  unfold check
  rw [hasErrorAt_append, hasErrorAt_below, hasErrorAt_below_elim]
  simp only [hasErrorAt_checkName]
  constructor
  · rintro (⟨_, rfl, blank, rfl⟩ | ⟨dark, _, hd, ⟨blank, rfl⟩, rfl⟩)
    · exact .theme blank
    · exact .darkTheme hd blank
  · rintro (blank | ⟨hd, blank⟩)
    · exact .inl ⟨_, rfl, blank, rfl⟩
    · exact .inr ⟨_, _, hd, ⟨blank, rfl⟩, rfl⟩

theorem FooterSection.hasErrorAt_check {c : FooterSection} :
    HasErrorAt c.check steps ↔ c.FaultAt steps := by
  -- A section without links is worth a warning, not an error.
  have harmless : Issue.emptySection.isWarning = true := rfl
  simp only [check, hasErrorAt_append, hasErrorAt_below, hasErrorAt_requireText, hasErrorAt_when,
    hasErrorAt_here, harmless, Bool.true_eq_false, false_and, and_false, false_or,
    Link.hasErrorAt_checkAll]
  constructor
  · rintro (⟨_, rfl, blank, rfl⟩ | ⟨_, rfl, among⟩)
    · exact .title blank
    · exact .items among
  · rintro (blank | among)
    · exact .inl ⟨_, rfl, blank, rfl⟩
    · exact .inr ⟨_, rfl, among⟩

theorem FooterSection.hasErrorAt_checkAll {sections : List FooterSection} :
    HasErrorAt (checkAll sections) steps ↔ FaultAmong FaultAt sections steps :=
  hasErrorAt_each_iff_faultAmong fun _ _ => hasErrorAt_check

theorem Navbar.hasErrorAt_check {n : Navbar} : HasErrorAt n.check steps ↔ n.FaultAt steps := by
  cases n with
  | bare links =>
    rw [check, Link.hasErrorAt_checkAll]
    constructor
    · intro among
      exact .bare among
    · rintro ⟨among⟩
      exact among
  | table t =>
    simp only [check, NavbarTable.check, hasErrorAt_append, hasErrorAt_below_elim,
      Logo.hasErrorAt_check, Link.hasErrorAt_checkAll]
    constructor
    · rintro (⟨logo, rest, hl, fault, rfl⟩ | ⟨links, rest, hl, among, rfl⟩)
      · exact .logo hl fault
      · exact .links hl among
    · rintro (_ | ⟨hl, fault⟩ | ⟨hl, among⟩)
      · exact .inl ⟨_, _, hl, fault, rfl⟩
      · exact .inr ⟨_, _, hl, among, rfl⟩

theorem Footer.hasErrorAt_check {f : Footer} : HasErrorAt f.check steps ↔ f.FaultAt steps := by
  cases f with
  | bare sections =>
    rw [check, FooterSection.hasErrorAt_checkAll]
    constructor
    · intro among
      exact .bare among
    · rintro ⟨among⟩
      exact among
  | table t =>
    simp only [check, FooterTable.check, hasErrorAt_below_elim, FooterSection.hasErrorAt_checkAll]
    constructor
    · rintro ⟨sections, rest, hs, among, rfl⟩
      exact .links hs among
    · rintro (_ | ⟨hs, among⟩)
      exact ⟨_, _, hs, among, rfl⟩

/-! ## Errors of a preset -/

theorem Preset.hasErrorAt_checkFile {v : Json} :
    HasErrorAt (checkFile v) steps ↔ ¬NamesFile v ∧ steps = [] := by
  unfold checkFile NamesFile
  cases v <;> simp [Json.asString?, Issue.isWarning]

theorem Preset.hasErrorAt_checkFiles {v : Json} :
    HasErrorAt (checkFiles v) steps ↔
      ((∀ vs, v ≠ .list vs) ∧ ¬NamesFile v ∧ steps = []) ∨
        ∃ vs i w, v = .list vs ∧ vs[i]? = some w ∧ ¬NamesFile w ∧ steps = [.index i] := by
  unfold checkFiles
  split
  next vs =>
    rw [hasErrorAt_each]
    constructor
    · rintro ⟨i, w, _, hw, rfl, error⟩
      obtain ⟨bad, rfl⟩ := hasErrorAt_checkFile.1 error
      exact .inr ⟨vs, i, w, rfl, hw, bad, rfl⟩
    · rintro (⟨h, _⟩ | ⟨_, i, w, ⟨⟩, hw, bad, rfl⟩)
      · exact absurd rfl (h vs)
      · exact ⟨i, w, [], hw, rfl, hasErrorAt_checkFile.2 ⟨bad, rfl⟩⟩
  next h =>
    rw [hasErrorAt_checkFile]
    constructor
    · intro error
      exact .inl ⟨h, error⟩
    · rintro (⟨_, error⟩ | ⟨vs, _, _, rfl, _⟩)
      · exact error
      · exact absurd rfl (h vs)

/-- Only tables have something under a key. -/
theorem Json.get?_eq_none {v : Json} (h : ∀ members, v ≠ .table members) {key : String} :
    v.get? key = none := by
  unfold get?
  split
  next members => exact absurd rfl (h members)
  next => rfl

theorem Preset.hasErrorAt_checkDocs {v : Json} :
    HasErrorAt (checkDocs v) steps ↔
      ((∀ docs, v ≠ .table docs) ∧ v ≠ .bool false ∧ steps = []) ∨
        ∃ w rest, v.get? "sidebarPath" = some w ∧ HasErrorAt (checkFile w) rest ∧
          steps = .key "sidebarPath" :: rest := by
  unfold checkDocs
  split
  next docs => simp [hasErrorAt_below_elim, Json.get?]
  next => simp [Json.get?]
  next table off =>
    have wrong : (∀ docs, v ≠ .table docs) ∧ v ≠ .bool false := ⟨table, off⟩
    simp [Json.get?_eq_none table, ← and_assoc, wrong, Issue.isWarning]

theorem Preset.hasErrorAt_checkTheme {v : Json} :
    HasErrorAt (checkTheme v) steps ↔
      ((∀ theme, v ≠ .table theme) ∧ steps = []) ∨
        ∃ w rest, v.get? "customCss" = some w ∧ HasErrorAt (checkFiles w) rest ∧
          steps = .key "customCss" :: rest := by
  unfold checkTheme
  split
  next theme => simp [hasErrorAt_below_elim, Json.get?]
  next table =>
    have wrong : ∀ theme, v ≠ .table theme := table
    simp [Json.get?_eq_none table, wrong, Issue.isWarning]

theorem Preset.option?_key {p : Preset} {key : String} :
    p.option? [key] = p.options?.bind fun options => options.lookup key := by
  simp [option?, Json.follow?, Json.get?]

/-- An option of an option is what its table has under the key. -/
theorem Preset.option?_pair {p : Preset} {key inner : String} {w : Json} :
    p.option? [key, inner] = some w ↔ ∃ v, p.option? [key] = some v ∧ v.get? inner = some w := by
  rw [← Option.bind_eq_some_iff]
  simp [option?, Json.follow?, Option.bind_assoc]

theorem Preset.hasErrorAt_checkOptions {p : Preset} :
    HasErrorAt (p.options?.elim [] checkOptions) steps ↔
      (∃ v rest, p.option? ["docs"] = some v ∧ HasErrorAt (checkDocs v) rest ∧
          steps = .key "docs" :: rest) ∨
        ∃ v rest, p.option? ["theme"] = some v ∧ HasErrorAt (checkTheme v) rest ∧
          steps = .key "theme" :: rest := by
  rw [option?_key, option?_key]
  cases p.options? with
  | none => simp
  | some options =>
    rw [Option.elim_some, Option.bind_some, Option.bind_some, checkOptions, hasErrorAt_append,
      hasErrorAt_below_elim, hasErrorAt_below_elim]

theorem Preset.hasErrorAt_check {p : Preset} : HasErrorAt p.check steps ↔ p.FaultAt steps := by
  unfold check
  rw [hasErrorAt_append, hasErrorAt_requireText, hasErrorAt_below]
  simp only [hasErrorAt_checkOptions, hasErrorAt_checkDocs, hasErrorAt_checkTheme,
    hasErrorAt_checkFiles, hasErrorAt_checkFile]
  constructor
  · rintro (⟨blank, rfl⟩ | ⟨_, rfl, ⟨v, _, hv, error, rfl⟩ | ⟨v, _, hv, error, rfl⟩⟩)
    · exact .name blank
    · rcases error with ⟨table, off, rfl⟩ | ⟨w, _, hw, ⟨bad, rfl⟩, rfl⟩
      · exact .docs hv table off
      · exact .sidebarPath (option?_pair.2 ⟨v, hv, hw⟩) bad
    · rcases error with ⟨table, rfl⟩ | ⟨w, _, hw, error, rfl⟩
      · exact .theme hv table
      · have css := option?_pair.2 ⟨v, hv, hw⟩
        rcases error with ⟨single, bad, rfl⟩ | ⟨vs, i, u, rfl, hu, bad, rfl⟩
        · exact .customCss css single bad
        · exact .stylesheet css hu bad
  · intro fault
    cases fault with
    | name blank => exact .inl ⟨blank, rfl⟩
    | docs hv table off => exact .inr ⟨_, rfl, .inl ⟨_, [], hv, .inl ⟨table, off, rfl⟩, rfl⟩⟩
    | sidebarPath hw bad =>
      obtain ⟨v, hv, hw⟩ := option?_pair.1 hw
      exact .inr ⟨_, rfl, .inl ⟨v, _, hv, .inr ⟨_, [], hw, ⟨bad, rfl⟩, rfl⟩, rfl⟩⟩
    | theme hv table => exact .inr ⟨_, rfl, .inr ⟨_, [], hv, .inl ⟨table, rfl⟩, rfl⟩⟩
    | customCss hw single bad =>
      obtain ⟨v, hv, hw⟩ := option?_pair.1 hw
      exact .inr ⟨_, rfl, .inr ⟨v, _, hv, .inr ⟨_, [], hw, .inl ⟨single, bad, rfl⟩, rfl⟩, rfl⟩⟩
    | stylesheet hw hu bad =>
      obtain ⟨v, hv, hw⟩ := option?_pair.1 hw
      refine .inr ⟨_, rfl, .inr ⟨v, _, hv, .inr ⟨_, _, hw, .inr ?_, rfl⟩, rfl⟩⟩
      exact ⟨_, _, _, rfl, hu, bad, rfl⟩

/-! ## Errors of a site -/

namespace Site

theorem hasErrorAt_checkUrl {url : String} :
    HasErrorAt (checkUrl url) steps ↔ ¬IsOrigin url ∧ steps = [] := by
  unfold checkUrl
  cases parsed : Url.parse url with
  | error fault => simp [IsOrigin, parsed, Issue.isWarning]
  | ok u =>
    have origin : IsOrigin url ↔ u.scheme ∈ ["http", "https"] ∧ u.host.isNone = false := by
      simp [IsOrigin, parsed, Option.isSome_iff_ne_none]
    simp only [checkOrigin, hasErrorAt_append, hasErrorAt_unless, hasErrorAt_when,
      hasErrorAt_here, Issue.isWarning, origin]
    by_cases web : u.scheme ∈ ["http", "https"] <;> cases u.host <;> simp [web]

theorem hasErrorAt_checkBaseUrl {baseUrl : String} :
    HasErrorAt (checkBaseUrl baseUrl) steps ↔ baseUrl.toList.head? ≠ some '/' ∧ steps = [] := by
  unfold checkBaseUrl
  split
  next empty => simp [empty, Issue.isWarning]
  next c cs chars =>
    by_cases start : c = '/'
    · -- A missing slash at the end is a warning only.
      simp [chars, start, hasErrorAt_unless, Issue.isWarning]
    · simp [chars, start, Issue.isWarning]

theorem hasErrorAt_checkMetadata {s : Site} :
    HasErrorAt s.checkMetadata steps ↔
      (IsBlank s.title ∧ steps = [.key "title"]) ∨ (¬IsOrigin s.url ∧ steps = [.key "url"]) ∨
        (s.baseUrl.toList.head? ≠ some '/' ∧ steps = [.key "baseUrl"]) ∨
        ∃ path, s.favicon = some path ∧ IsBlank path ∧ steps = [.key "favicon"] := by
  simp only [checkMetadata, hasErrorAt_append, hasErrorAt_below_elim, or_assoc]
  simp only [hasErrorAt_below, hasErrorAt_requireText, hasErrorAt_checkUrl,
    hasErrorAt_checkBaseUrl]
  constructor
  · rintro (⟨_, rfl, blank, rfl⟩ | ⟨_, rfl, bad, rfl⟩ | ⟨_, rfl, bad, rfl⟩ |
      ⟨path, _, hf, ⟨blank, rfl⟩, rfl⟩)
    · exact .inl ⟨blank, rfl⟩
    · exact .inr (.inl ⟨bad, rfl⟩)
    · exact .inr (.inr (.inl ⟨bad, rfl⟩))
    · exact .inr (.inr (.inr ⟨path, hf, blank, rfl⟩))
  · rintro (⟨blank, rfl⟩ | ⟨bad, rfl⟩ | ⟨bad, rfl⟩ | ⟨path, hf, blank, rfl⟩)
    · exact .inl ⟨_, rfl, blank, rfl⟩
    · exact .inr (.inl ⟨_, rfl, bad, rfl⟩)
    · exact .inr (.inr (.inl ⟨_, rfl, bad, rfl⟩))
    · exact .inr (.inr (.inr ⟨path, _, hf, ⟨blank, rfl⟩, rfl⟩))

/-- What is found in the theme table, counted from the site. -/
def inTheme (s : Site) (look : Theme → List Finding) : List Finding :=
  Located.below (.key "themeConfig") (s.theme.elim [] look)

theorem hasErrorAt_inTheme {s : Site} {look : Theme → List Finding} :
    HasErrorAt (s.inTheme look) steps ↔
      ∃ t rest, s.theme = some t ∧ HasErrorAt (look t) rest ∧
        steps = .key "themeConfig" :: rest := by
  rw [inTheme, hasErrorAt_below_elim]

theorem hasErrorAt_inTheme_append {s : Site} {look more : Theme → List Finding} :
    HasErrorAt (s.inTheme fun t => look t ++ more t) steps ↔
      HasErrorAt (s.inTheme look) steps ∨ HasErrorAt (s.inTheme more) steps := by
  simp only [hasErrorAt_inTheme, hasErrorAt_append, or_and_right, and_or_left, exists_or]

/-- What a check finds in a section, wherever in the site it is written. -/
def checkWritten (s : Site) (key : String) (outer : Option α) (inner : Theme → Option α)
    (check : α → List Finding) : List Finding :=
  Located.below (.key key) (outer.elim [] check) ++
    s.inTheme fun t => Located.below (.key key) ((inner t).elim [] check)

theorem hasErrorAt_checkWritten {s : Site} {key : String} {outer : Option α}
    {inner : Theme → Option α} {check : α → List Finding} :
    HasErrorAt (s.checkWritten key outer inner check) steps ↔
      ∃ place rest a, s.WrittenAt key outer inner place a ∧ HasErrorAt (check a) rest ∧
        steps = place ++ rest := by
  simp only [checkWritten, hasErrorAt_append, hasErrorAt_inTheme, hasErrorAt_below_elim]
  constructor
  · rintro (⟨a, rest, ha, error, rfl⟩ | ⟨t, _, ht, ⟨a, rest, ha, error, rfl⟩, rfl⟩)
    · exact ⟨_, rest, a, .outer ha, error, rfl⟩
    · exact ⟨_, rest, a, .inner ht ha, error, rfl⟩
  · rintro ⟨_, rest, a, ha | ⟨ht, ha⟩, error, rfl⟩
    · exact .inl ⟨a, rest, ha, error, rfl⟩
    · exact .inr ⟨_, _, ht, ⟨a, rest, ha, error, rfl⟩, rfl⟩

theorem hasErrorAt_checkOnce {s : Site} {key : String} {outer : Option α}
    {inner : Theme → Option α} :
    HasErrorAt (s.inTheme fun t => checkOnce key outer (inner t)) steps ↔
      s.WrittenTwice outer inner ∧ steps = [.key "themeConfig", .key key] := by
  simp only [hasErrorAt_inTheme, checkOnce, hasErrorAt_when, hasErrorAt_singleton,
    Bool.and_eq_true]
  constructor
  · rintro ⟨t, _, ht, ⟨⟨ho, hi⟩, _, rfl⟩, rfl⟩
    exact ⟨⟨ho, t, ht, hi⟩, rfl⟩
  · rintro ⟨⟨ho, t, ht, hi⟩, rfl⟩
    exact ⟨t, _, ht, ⟨⟨ho, hi⟩, rfl, rfl⟩, rfl⟩

theorem hasErrorAt_checkPresets {s : Site} :
    HasErrorAt (Located.below (.key "presets") (Located.each Preset.check 0 s.presetList)) steps ↔
      ∃ presets rest, s.presets = some presets ∧ FaultAmong Preset.FaultAt presets rest ∧
        steps = .key "presets" :: rest := by
  have row {presets : List Preset} {rest : List Step} :
      HasErrorAt (Located.each Preset.check 0 presets) rest ↔
        FaultAmong Preset.FaultAt presets rest :=
    hasErrorAt_each_iff_faultAmong fun _ _ => Preset.hasErrorAt_check
  rw [hasErrorAt_below, presetList]
  cases s.presets with
  | none => simp [Located.each]
  | some presets =>
    rw [Option.getD_some]
    constructor
    · rintro ⟨rest, rfl, error⟩
      exact ⟨presets, rest, rfl, row.1 error, rfl⟩
    · rintro ⟨_, rest, ⟨⟩, among, rfl⟩
      exact ⟨rest, rfl, row.2 among⟩

/-- The checks, sorted by what they look at and not by where it is written. -/
theorem hasErrorAt_check_iff_parts {s : Site} :
    HasErrorAt s.check steps ↔
      HasErrorAt s.checkMetadata steps ∨
        HasErrorAt (s.checkWritten "navbar" s.navbar Theme.navbar Navbar.check) steps ∨
        HasErrorAt (s.checkWritten "footer" s.footer Theme.footer Footer.check) steps ∨
        HasErrorAt (s.checkWritten "prism" s.prism Theme.prism Prism.check) steps ∨
        HasErrorAt (s.inTheme fun t => checkOnce "navbar" s.navbar t.navbar) steps ∨
        HasErrorAt (s.inTheme fun t => checkOnce "footer" s.footer t.footer) steps ∨
        HasErrorAt (s.inTheme fun t => checkOnce "prism" s.prism t.prism) steps ∨
        HasErrorAt (Located.below (.key "presets") (Located.each Preset.check 0 s.presetList))
          steps := by
  have theme : HasErrorAt (Located.below (.key "themeConfig") (s.theme.elim [] s.checkTheme))
      steps ↔ HasErrorAt (s.inTheme s.checkTheme) steps := Iff.rfl
  simp only [check, checkWritten, hasErrorAt_append, theme]
  unfold checkTheme Theme.check
  simp only [hasErrorAt_inTheme_append]
  rw [iff_iff_eq]
  ac_rfl

theorem hasErrorAt_check {s : Site} : HasErrorAt s.check steps ↔ s.FaultAt steps := by
  rw [hasErrorAt_check_iff_parts, faultAt_iff]
  simp only [hasErrorAt_checkMetadata, hasErrorAt_checkWritten, hasErrorAt_checkOnce,
    hasErrorAt_checkPresets, Navbar.hasErrorAt_check, Footer.hasErrorAt_check,
    Prism.hasErrorAt_check, or_assoc]

/-- The checks are sound and complete, place by place: they find an error where there is a fault and
nowhere else. So the paths that errors are reported at are those of the faults. -/
theorem error_iff_fault (s : Site) :
    (∀ steps, HasErrorAt s.check steps ↔ s.FaultAt steps) ∧
      ∀ path, (∃ d ∈ s.diagnostics.errors, d.field = path) ↔
        ∃ steps, s.FaultAt steps ∧ path = .ofSteps steps := by
  have located (steps : List Step) : HasErrorAt s.check steps ↔ s.FaultAt steps :=
    hasErrorAt_check
  refine ⟨located, fun path => ?_⟩
  rw [diagnostics, Diagnostics.exists_mem_errors_iff]
  simp only [located]

end Site

end SiteManifest
