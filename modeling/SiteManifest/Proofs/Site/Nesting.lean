import SiteManifest.Proofs.Shape.Visits
import SiteManifest.Proofs.Site.Loading

/-!
# Sections moved into the theme table

A manifest without a theme table can keep any of its navbar, footer and prism sections in such a
table instead. Visiting it then meets the same as before, one step further in, and reading it gives
the same site with these sections in its theme.

## Main definitions

* `Nests`: one table is another with some sections moved into a theme table.
* `Located.nest`: where something stands after the sections were moved.
* `Site.nest`: a site with some of its sections in its theme.

## Main statements

* `Nests.visit_perm`: what a visit of the nested table meets.
* `Nests.result_eq_ok_iff`: what is read of the nested table.
-/
namespace SiteManifest

variable {sections : List String}

/-! ## Places after the move -/

/-- Whether steps lead into one of the sections. -/
def leadsInto (sections : List String) : List Step → Bool
  | .key key :: _ => key ∈ sections
  | _ => false

/-- The same thing where it stands when the sections are in the theme table. -/
def Located.nest (sections : List String) (x : Located α) : Located α :=
  if leadsInto sections x.steps then x.under (.key "themeConfig") else x

namespace Located

theorem map_nest_below_of_mem {key : String} (h : key ∈ sections) (xs : List (Located α)) :
    (below (.key key) xs).map (nest sections) =
      below (.key "themeConfig") (below (.key key) xs) := by
  simp [below, nest, under, leadsInto, h]

theorem map_nest_below_of_not_mem {key : String} (h : key ∉ sections) (xs : List (Located α)) :
    (below (.key key) xs).map (nest sections) = below (.key key) xs := by
  simp [below, nest, under, leadsInto, h]

@[simp] theorem what_nest (x : Located α) : (x.nest sections).what = x.what := by
  unfold nest
  split <;> rfl

theorem below_append (step : Step) (xs ys : List (Located α)) :
    below step (xs ++ ys) = below step xs ++ below step ys :=
  List.map_append

end Located

/-! ## Tables -/

theorem lookup_of_perm {ms ns : Members} (h : ms.Perm ns) (once : (ms.map (·.1)).Nodup)
    (key : String) : ms.lookup key = ns.lookup key := by
  have once' := (h.map (·.1)).nodup_iff.1 once
  ext v
  rw [← Json.mem_iff_lookup_eq_some once, ← Json.mem_iff_lookup_eq_some once', h.mem_iff]

theorem lookup_filter (ms : Members) (p : String → Bool) (key : String) :
    (ms.filter fun m => p m.1).lookup key = if p key then ms.lookup key else none := by
  induction ms with
  | nil => simp
  | cons m ms ih =>
    obtain ⟨name, v⟩ := m
    by_cases same : key = name
    · subst same
      cases h : p key
      · simpa [h] using ih
      · simp [h]
    · have other : (key == name) = false := beq_false_of_ne same
      cases h : p name <;> simp [h, ih, List.lookup_cons, other]

/-- The second table is the first one, which has no theme table, with some sections moved into such
a table, whose key may stand anywhere. -/
structure Nests (sections : List String) (members nested : Members) : Prop where
  movable : ∀ key ∈ sections, key ∈ ["navbar", "footer", "prism"]
  keysOnce : (Json.table members).KeysOnce
  no_theme : "themeConfig" ∉ members.map (·.1)
  exists_perm : ∃ theme : Members,
    theme.Perm (members.filter (·.1 ∈ sections)) ∧
      nested.Perm (("themeConfig", .table theme) :: members.filter (·.1 ∉ sections))

namespace Nests

variable {members nested : Members}

theorem not_mem_of_not_movable (h : Nests sections members nested) {key : String}
    (other : key ∉ ["navbar", "footer", "prism"]) : key ∉ sections :=
  fun hk => other (h.movable key hk)

/-- What stands under the keys of the nested table, and in its theme table. -/
theorem exists_theme (h : Nests sections members nested) :
    ∃ theme : Members, nested.lookup "themeConfig" = some (.table theme) ∧
      (∀ key, theme.lookup key = if key ∈ sections then members.lookup key else none) ∧
      ∀ key ≠ "themeConfig", nested.lookup key =
        if key ∈ sections then none else members.lookup key := by
  obtain ⟨theme, themePerm, perm⟩ := h.exists_perm
  have themeOnce : (theme.map (·.1)).Nodup :=
    (themePerm.map _).nodup_iff.2 (h.keysOnce.1.sublist (List.filter_sublist.map _))
  have keptOnce : ((members.filter (·.1 ∉ sections)).map (·.1)).Nodup :=
    h.keysOnce.1.sublist (List.filter_sublist.map _)
  have nestedOnce : (nested.map (·.1)).Nodup := by
    refine (perm.map _).nodup_iff.2 (List.nodup_cons.2 ⟨fun hk => h.no_theme ?_, keptOnce⟩)
    exact (List.filter_sublist.map _).subset hk
  refine ⟨theme, ?_, fun key => ?_, fun key other => ?_⟩
  · rw [lookup_of_perm perm nestedOnce, List.lookup_cons_self]
  · rw [lookup_of_perm themePerm themeOnce, lookup_filter members (· ∈ sections)]
    simp
  · rw [lookup_of_perm perm nestedOnce, List.lookup_cons, beq_false_of_ne other]
    simpa using lookup_filter members (· ∉ sections) key

end Nests

/-! ## Visits -/

/-- The events of one member of a table. -/
def visitMember (keys : List String) (visit : String → Json → List Event) (m : String × Json) :
    List Event :=
  Located.below (.key m.1) (if m.1 ∈ keys then visit m.1 m.2 else [.here .unknown])

theorem visitMembers_eq_flatMap {keys : List String} {visit : String → Json → List Event}
    {members : Members} :
    visitMembers keys visit members = members.flatMap (visitMember keys visit) := by
  induction members with
  | nil => rfl
  | cons m members ih =>
    rw [visitMembers, ih, List.flatMap_cons, visitMember]
    split <;> rfl

theorem map_nest_flatMap_of_mem {ms : Members} {keys : List String}
    {visit : String → Json → List Event} (h : ∀ m ∈ ms, m.1 ∈ sections) :
    (ms.flatMap (visitMember keys visit)).map (Located.nest sections) =
      Located.below (.key "themeConfig") (ms.flatMap (visitMember keys visit)) := by
  rw [Located.below, List.map_flatMap, List.map_flatMap]
  exact List.flatMap_congr fun m hm => Located.map_nest_below_of_mem (h m hm) _

theorem map_nest_flatMap_of_not_mem {ms : Members} {keys : List String}
    {visit : String → Json → List Event} (h : ∀ m ∈ ms, m.1 ∉ sections) :
    (ms.flatMap (visitMember keys visit)).map (Located.nest sections) =
      ms.flatMap (visitMember keys visit) := by
  rw [List.map_flatMap]
  exact List.flatMap_congr fun m hm => Located.map_nest_below_of_not_mem (h m hm) _

namespace Site

/-- The events of one member of a site, and of its theme. -/
def visitEntry (m : String × Json) : List Event := visitMember fields.keys fields.visitKey m

def visitThemeEntry (m : String × Json) : List Event :=
  visitMember Theme.fields.keys Theme.fields.visitKey m

/-- A section is visited in the theme table as it is at the top level. -/
theorem visitThemeEntry_eq {m : String × Json} (h : m.1 ∈ ["navbar", "footer", "prism"]) :
    visitThemeEntry m = visitEntry m := by
  obtain ⟨key, v⟩ := m
  simp only [List.mem_cons, List.not_mem_nil, or_false] at h
  rcases h with rfl | rfl | rfl <;>
    simp [visitThemeEntry, visitEntry, visitMember, Theme.fields, fields, Fields.keys,
      Fields.visitKey]

theorem visitEntry_theme {theme : Members} :
    visitEntry ("themeConfig", .table theme) =
      Located.below (.key "themeConfig") (theme.flatMap visitThemeEntry) := by
  have entry (v : Json) : visitEntry ("themeConfig", v) =
      Located.below (.key "themeConfig") (Theme.shape.visit v) := by
    simp [visitEntry, visitMember, fields, Fields.keys, Fields.visitKey]
  have table : Theme.shape.visit (.table theme) =
      visitMembers Theme.fields.keys Theme.fields.visitKey theme := List.append_nil _
  rw [entry, table, visitMembers_eq_flatMap]
  rfl

theorem visit_table (members : Members) :
    shape.visit (.table members) = members.flatMap visitEntry ++ fields.visitMissing members := by
  have table : shape.visit (.table members) =
      visitMembers fields.keys fields.visitKey members ++ fields.visitMissing members := rfl
  rw [table, visitMembers_eq_flatMap]
  rfl

theorem visitMissing_eq (members : Members) :
    fields.visitMissing members =
      ["title", "url", "baseUrl"].flatMap fun key =>
        if (members.lookup key).isSome then [] else [⟨[.key key], .misfit (.missing key)⟩] := by
  simp [fields, Fields.visitMissing]

end Site

namespace Nests

variable {members nested : Members}

/-- No key that a site needs can be moved. -/
theorem visitMissing_eq (h : Nests sections members nested) :
    Site.fields.visitMissing nested =
      (Site.fields.visitMissing members).map (Located.nest sections) := by
  obtain ⟨_, _, _, kept⟩ := h.exists_theme
  rw [Site.visitMissing_eq, Site.visitMissing_eq, List.map_flatMap]
  refine List.flatMap_congr fun key needed => ?_
  have stays : key ∉ sections := by
    refine h.not_mem_of_not_movable fun movable => ?_
    revert key
    decide
  have other : key ≠ "themeConfig" := by
    rintro rfl
    revert needed
    decide
  rw [kept key other, if_neg stays]
  split
  · rfl
  · exact (Located.map_nest_below_of_not_mem stays [Event.misfit (.missing key)]).symm

/-- A visit of the nested table meets the same, one step further in where a section was moved. -/
theorem visit_perm (h : Nests sections members nested) :
    (Site.shape.visit (.table nested)).Perm
      ((Site.shape.visit (.table members)).map (Located.nest sections)) := by
  obtain ⟨theme, themePerm, perm⟩ := h.exists_perm
  have moved : ∀ m ∈ members.filter (·.1 ∈ sections), m.1 ∈ sections := by
    simp
  have kept : ∀ m ∈ members.filter (·.1 ∉ sections), m.1 ∉ sections := by
    simp
  have movedAway : ((members.filter (·.1 ∈ sections)).flatMap Site.visitEntry).map
      (Located.nest sections) = Located.below (.key "themeConfig")
        ((members.filter (·.1 ∈ sections)).flatMap Site.visitEntry) :=
    map_nest_flatMap_of_mem moved
  have keptStays : ((members.filter (·.1 ∉ sections)).flatMap Site.visitEntry).map
      (Located.nest sections) = (members.filter (·.1 ∉ sections)).flatMap Site.visitEntry :=
    map_nest_flatMap_of_not_mem kept
  have split : (members.filter (·.1 ∈ sections) ++ members.filter (·.1 ∉ sections)).Perm
      members := by
    simpa using List.filter_append_perm (·.1 ∈ sections) members
  have inTheme : (theme.flatMap Site.visitThemeEntry).Perm
      ((members.filter (·.1 ∈ sections)).flatMap Site.visitEntry) := by
    refine (themePerm.flatMap_right _).trans (.of_eq (List.flatMap_congr fun m hm => ?_))
    exact Site.visitThemeEntry_eq (h.movable _ (moved m hm))
  -- On both sides the members that are moved are visited first, then those that stay.
  have entries : (nested.flatMap Site.visitEntry).Perm
      ((members.flatMap Site.visitEntry).map (Located.nest sections)) := by
    refine .trans ?_ ((split.flatMap_right Site.visitEntry).map _)
    rw [List.flatMap_append, List.map_append, movedAway, keptStays]
    refine (perm.flatMap_right Site.visitEntry).trans ?_
    rw [List.flatMap_cons, Site.visitEntry_theme]
    exact (inTheme.map _).append_right _
  rw [Site.visit_table, Site.visit_table, List.map_append, h.visitMissing_eq]
  exact entries.append_right _

end Nests

/-! ## Reading -/

/-- What stays of a section at the top level. -/
def outside (sections : List String) (key : String) (o : Option α) : Option α :=
  if key ∈ sections then none else o

/-- What is moved of a section. -/
def inside (sections : List String) (key : String) (o : Option α) : Option α :=
  if key ∈ sections then o else none

/-- The site with some of its sections in the theme. -/
def Site.nest (sections : List String) (s : Site) : Site :=
  { s with
    navbar := outside sections "navbar" s.navbar
    footer := outside sections "footer" s.footer
    prism := outside sections "prism" s.prism
    theme := some
      { hideOnScroll := none
        prism := inside sections "prism" s.prism
        navbar := inside sections "navbar" s.navbar
        footer := inside sections "footer" s.footer } }

theorem rel_outside {r : Json → α → Prop} {found : Option Json} {o : Option α}
    (h : Option.Rel r found o) (key : String) :
    Option.Rel r (if key ∈ sections then none else found) (outside sections key o) := by
  unfold outside
  split
  · exact .none
  · exact h

theorem rel_inside {r : Json → α → Prop} {found : Option Json} {o : Option α}
    (h : Option.Rel r found o) (key : String) :
    Option.Rel r (if key ∈ sections then found else none) (inside sections key o) := by
  unfold inside
  split
  · exact h
  · exact .none

/-- The key at the end stays what it is. -/
theorem Site.unknownKey_nest (e : Located α) :
    unknownKey (e.nest sections).steps = (unknownKey e.steps).nest sections := by
  obtain ⟨steps, what⟩ := e
  cases steps with
  | nil => rfl
  | cons step steps =>
    have last : lastKey (.key "themeConfig" :: step :: steps) = lastKey (step :: steps) := by
      rw [lastKey, List.getLast?_cons_cons, lastKey]
    have key (p : List Step) : (unknownKey p).steps = p := rfl
    unfold Located.nest
    rw [key]
    split
    · simp only [unknownKey, Located.under, last]
    · rfl

namespace Nests

variable {members nested : Members}

theorem lookup_of_not_movable (h : Nests sections members nested) (key : String)
    (other : key ∉ ["navbar", "footer", "prism"]) (noTheme : key ≠ "themeConfig") :
    nested.lookup key = members.lookup key := by
  obtain ⟨_, _, _, kept⟩ := h.exists_theme
  rw [kept key noTheme, if_neg (h.not_mem_of_not_movable other)]

/-- The theme table holds the sections that were moved. -/
theorem holds_theme (h : Nests sections members nested) {navbar : Option Navbar}
    {footer : Option Footer} {prism : Option Prism}
    (hn : Option.Rel Navbar.shape.Holds (members.lookup "navbar") navbar)
    (hf : Option.Rel Footer.shape.Holds (members.lookup "footer") footer)
    (hp : Option.Rel Prism.shape.Holds (members.lookup "prism") prism) {theme : Members}
    (moved : ∀ key, theme.lookup key = if key ∈ sections then members.lookup key else none) :
    Theme.shape.Holds (.table theme) ⟨none, inside sections "prism" prism,
      inside sections "navbar" navbar, inside sections "footer" footer⟩ := by
  have hideOnScroll : theme.lookup "hideOnScroll" = none := by
    rw [moved, if_neg (h.not_mem_of_not_movable (by decide))]
  refine .inl ⟨theme, rfl, ?_⟩
  simp only [Theme.fields, Fields.Hold, Source.ofTable, moved "prism", moved "navbar",
    moved "footer", hideOnScroll]
  exact ⟨.none, rel_inside hp _, rel_inside hn _, rel_inside hf _, trivial⟩

theorem holds_nest (h : Nests sections members nested) {s : Site}
    (holds : Site.shape.Holds (.table members) s) :
    s.theme = none ∧ Site.shape.Holds (.table nested) (s.nest sections) := by
  obtain ⟨theme, found, moved, kept⟩ := h.exists_theme
  obtain ⟨_, ⟨⟩, hold⟩ | ⟨_, ⟨⟩, _⟩ := holds
  simp only [Site.fields, Fields.Hold, Source.ofTable] at hold
  obtain ⟨title, tagline, url, baseUrl, favicon, organization, project, navbar, footer, prism,
    noTheme, presets, _⟩ := hold
  have absent : members.lookup "themeConfig" = none := by
    rw [← Option.not_isSome_iff_eq_none, isSome_lookup_iff]
    exact h.no_theme
  rw [absent] at noTheme
  have stays := h.lookup_of_not_movable
  refine ⟨?_, .inl ⟨nested, rfl, ?_⟩⟩
  · cases hs : s.theme with
    | none => rfl
    | some t => rw [hs] at noTheme; contradiction
  · simp only [Site.fields, Fields.Hold, Source.ofTable, found, kept "navbar" (by decide),
      kept "footer" (by decide), kept "prism" (by decide), stays "title" (by decide) (by decide),
      stays "tagline" (by decide) (by decide), stays "url" (by decide) (by decide),
      stays "baseUrl" (by decide) (by decide), stays "favicon" (by decide) (by decide),
      stays "organizationName" (by decide) (by decide),
      stays "projectName" (by decide) (by decide), stays "presets" (by decide) (by decide)]
    exact ⟨title, tagline, url, baseUrl, favicon, organization, project, rel_outside navbar _,
      rel_outside footer _, rel_outside prism _,
      .some (h.holds_theme navbar footer prism moved), presets, trivial⟩

theorem allFit_iff (h : Nests sections members nested) :
    AllFit (Site.shape.visit (.table nested)) ↔ AllFit (Site.shape.visit (.table members)) := by
  simp only [AllFit, h.visit_perm.mem_iff, List.forall_mem_map, Located.what_nest]

theorem result_eq_ok (h : Nests sections members nested) {s : Site}
    (ok : (Site.shape.decode (.table members)).result = .ok s) :
    s.theme = none ∧ (Site.shape.decode (.table nested)).result = .ok (s.nest sections) := by
  obtain ⟨fit, read⟩ := Shape.result_decode_eq_ok_iff.1 ok
  obtain ⟨noTheme, holds⟩ := h.holds_nest ((Site.shape.read_eq_some_iff _ s).1 read)
  exact ⟨noTheme, Shape.result_decode_eq_ok_iff.2
    ⟨h.allFit_iff.2 fit, (Site.shape.read_eq_some_iff _ _).2 holds⟩⟩

/-- The nested table is read exactly if the other one is, and then its sections are in the theme. -/
theorem result_eq_ok_iff (h : Nests sections members nested) {t : Site} :
    (Site.shape.decode (.table nested)).result = .ok t ↔
      ∃ s, (Site.shape.decode (.table members)).result = .ok s ∧ s.nest sections = t := by
  constructor
  · intro ok
    obtain ⟨fit, _⟩ := Shape.result_decode_eq_ok_iff.1 ok
    have accepts := (Site.shape.allFit_visit_iff _).1 (h.allFit_iff.1 fit)
    obtain ⟨s, read⟩ := Shape.exists_result_decode_eq_ok_iff.2 accepts
    exact ⟨s, read, Except.ok.inj ((h.result_eq_ok read).2.symm.trans ok)⟩
  · rintro ⟨s, ok, rfl⟩
    exact (h.result_eq_ok ok).2

/-- The same is unknown, one step further in where a section was moved. -/
theorem unknown_perm (h : Nests sections members nested) {s : Site}
    (ok : (Site.shape.decode (.table members)).result = .ok s) :
    ((Site.shape.decode (.table nested)).unknown.map Site.unknownKey).Perm
      (((Site.shape.decode (.table members)).unknown.map Site.unknownKey).map
        (Located.nest sections)) := by
  obtain ⟨fit, _⟩ := Shape.result_decode_eq_ok_iff.1 ok
  rw [Shape.unknown_decode fit, Shape.unknown_decode (h.allFit_iff.2 fit)]
  simp only [List.map_map]
  refine (h.visit_perm.map _).trans (.of_eq ?_)
  rw [List.map_map]
  exact List.map_congr_left fun e _ => Site.unknownKey_nest e

end Nests

end SiteManifest
