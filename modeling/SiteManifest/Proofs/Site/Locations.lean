import Mathlib.Logic.ExistsUnique
import SiteManifest.Proofs.FieldPath
import SiteManifest.Proofs.Site.Checking
import SiteManifest.Site.Load

/-!
# Places and their paths

The path of a place is built in three ways. The checks join the paths of parts on their way inwards;
the place of a misfit is a row of segments, written one after the other; the place of an unknown key
is known as a part of the place around it, which is written first. All of them write the same text,
and as long as keys are plain the text belongs to this place alone. So an error at a path is an error
at one place.

## Main definitions

* `FieldPath.ofJoins`, `FieldPath.ofSegments`, `Enclosed.path`: the three ways.

## Main statements

* `FieldPath.ofJoins_eq`, `FieldPath.ofSegments_eq`, `Enclosed.path_eq`: they are one.
* `Diagnostics.hasErrorAt_iff_existsUnique`: an error at a path has one place.
* `Site.hasErrorAt_iff_existsUnique`: an error of the checks is that of one fault.
* `FieldPath.tells_place`: paths of plain keys identify places.
-/
namespace SiteManifest

/-! ## Joining on the way inwards -/

namespace FieldPath

variable {steps : List Step}

/-- A step as the checks go it. -/
def enter (path : FieldPath) : Step → FieldPath
  | .key name => path.join ⟨name⟩
  | .index i => path.index i

/-- The path that the checks have joined behind some steps. -/
def ofJoins (steps : List Step) : FieldPath := steps.foldl enter root

theorem foldl_enter (plain : PlainSteps steps) (path : FieldPath) :
    steps.foldl enter path = path.extend steps := by
  induction steps generalizing path with
  | nil => rfl
  | cons step steps ih =>
    cases step with
    | key name =>
      rw [List.foldl_cons, enter, join_key plain.1.nonempty, ih plain.2]
      rfl
    | index i => exact ih plain (path.index i)

theorem ofJoins_eq (plain : PlainSteps steps) : ofJoins steps = ofSteps steps :=
  foldl_enter plain root

/-- Going on behind a place is joining the path that starts there. -/
theorem join_ofJoins_key {name : String} {rest : List Step}
    (plain : PlainSteps (.key name :: rest)) (steps : List Step) :
    (ofJoins steps).join (ofJoins (.key name :: rest)) = ofJoins (steps ++ .key name :: rest) := by
  have onward : ofJoins (steps ++ .key name :: rest) =
      (Step.key name :: rest).foldl enter (ofJoins steps) := List.foldl_append
  rw [onward, foldl_enter plain, ofJoins_eq plain, join_ofSteps_key plain.1.nonempty]

theorem ofJoins_injective {other : List Step} (plain : PlainSteps steps)
    (plain' : PlainSteps other) (same : (ofJoins steps).text = (ofJoins other).text) :
    steps = other := by
  rw [ofJoins_eq plain, ofJoins_eq plain'] at same
  exact ofSteps_injective plain plain' (congrArg mk same)

end FieldPath

/-! ## Segments in a row -/

/-- What a reader keeps of its way to a place. -/
inductive Segment where
  | index (i : Nat)
  | key (name : String)
  /-- Something that is no step and that no path shows, such as the variant of a choice. -/
  | silent
  deriving DecidableEq, Repr

def Segment.step? : Segment → Option Step
  | .index i => some (.index i)
  | .key name => some (.key name)
  | .silent => none

namespace FieldPath

def pushSegment (path : FieldPath) : Segment → FieldPath
  | .index i => path.index i
  | .key name => path.key name
  | .silent => path

/-- The path of the place where a reader stopped. -/
def ofSegments (segments : List Segment) : FieldPath := segments.foldl pushSegment root

theorem foldl_pushSegment (segments : List Segment) (path : FieldPath) :
    segments.foldl pushSegment path = path.extend (segments.filterMap Segment.step?) := by
  induction segments generalizing path with
  | nil => rfl
  | cons segment segments ih =>
    rw [List.foldl_cons, ih]
    cases segment <;> rfl

theorem ofSegments_eq (segments : List Segment) :
    ofSegments segments = ofSteps (segments.filterMap Segment.step?) :=
  foldl_pushSegment segments root

end FieldPath

/-! ## Places in places -/

/-- A place as a part of the place around it. -/
inductive Enclosed where
  | root
  | index (outer : Enclosed) (i : Nat)
  | key (outer : Enclosed) (name : String)
  /-- The same place, looked at through something that wraps the value there. -/
  | wrapped (outer : Enclosed)
  deriving DecidableEq, Repr

namespace Enclosed

def steps : Enclosed → List Step
  | root => []
  | index outer i => outer.steps ++ [.index i]
  | key outer name => outer.steps ++ [.key name]
  | wrapped outer => outer.steps

/-- The path of a place, behind that of the place around it. -/
def path : Enclosed → FieldPath
  | root => .root
  | index outer i => outer.path.index i
  | key outer name => outer.path.key name
  | wrapped outer => outer.path

/-- The key of a place, if it is that of a key. -/
def key? : Enclosed → Option String
  | root | index .. => none
  | key _ name => some name
  | wrapped outer => outer.key?

theorem path_eq (place : Enclosed) : place.path = .ofSteps place.steps := by
  induction place with
  | root => rfl
  | index outer i ih => rw [path, ih, steps, FieldPath.ofSteps_concat, FieldPath.push]
  | key outer name ih => rw [path, ih, steps, FieldPath.ofSteps_concat, FieldPath.push]
  | wrapped outer ih => exact ih

theorem getD_key? (place : Enclosed) : place.key?.getD "" = Site.lastKey place.steps := by
  induction place with
  | root => rfl
  | index outer i =>
    rw [steps, Site.lastKey, List.getLast?_concat]
    rfl
  | key outer name =>
    rw [steps, Site.lastKey, List.getLast?_concat]
    rfl
  | wrapped outer ih => exact ih

end Enclosed

/-! ## Errors at a path -/

theorem Diagnostics.hasErrorAt_iff {d : Diagnostics} {p : String} :
    d.hasErrorAt p = true ↔ ∃ e ∈ d.errors, e.field.text = p := by
  simp [hasErrorAt]

/-- Errors that stand at places with plain keys are told apart by their paths. -/
theorem Diagnostics.hasErrorAt_iff_existsUnique {d : Diagnostics}
    (placed : ∀ e ∈ d.errors, ∃ steps, FieldPath.PlainSteps steps ∧ e.field = .ofJoins steps)
    (p : String) :
    d.hasErrorAt p = true ↔
      ∃! steps, FieldPath.PlainSteps steps ∧ (FieldPath.ofJoins steps).text = p ∧
        ∃ e ∈ d.errors, e.field = .ofJoins steps := by
  rw [hasErrorAt_iff]
  constructor
  · rintro ⟨e, he, rfl⟩
    obtain ⟨steps, plain, field⟩ := placed e he
    refine ⟨steps, ⟨plain, by rw [field], e, he, field⟩, ?_⟩
    rintro other ⟨plain', same, -⟩
    exact FieldPath.ofJoins_injective plain' plain (by rw [same, field])
  · rintro ⟨steps, ⟨-, rfl, e, he, field⟩, -⟩
    exact ⟨e, he, by rw [field]⟩

/-! ## Faults of a site -/

open FieldPath (PlainSteps IsPlain)

section Faults

variable {steps : List Step}

theorem FieldPath.plainSteps_append {more : List Step} :
    PlainSteps (steps ++ more) ↔ PlainSteps steps ∧ PlainSteps more := by
  induction steps with
  | nil => simp [PlainSteps]
  | cons step steps ih => cases step <;> simp [PlainSteps, ih, and_assoc]

theorem FaultAmong.plainSteps {fault : α → List Step → Prop} {as : List α}
    (h : FaultAmong fault as steps) (plain : ∀ a rest, fault a rest → PlainSteps rest) :
    PlainSteps steps := by
  obtain ⟨_, fault⟩ := h
  have rest := plain _ _ fault
  exact rest

theorem Link.FaultAt.plainSteps (l : Link) (steps : List Step) (h : l.FaultAt steps) :
    PlainSteps steps := by
  cases h <;> decide

theorem Logo.FaultAt.plainSteps {l : Logo} (h : l.FaultAt steps) : PlainSteps steps := by
  cases h <;> decide

theorem Prism.FaultAt.plainSteps {p : Prism} (h : p.FaultAt steps) : PlainSteps steps := by
  cases h <;> decide

theorem FooterSection.FaultAt.plainSteps (c : FooterSection) (steps : List Step)
    (h : c.FaultAt steps) : PlainSteps steps := by
  cases h with
  | title => decide
  | items among => exact ⟨by decide, among.plainSteps Link.FaultAt.plainSteps⟩

theorem Navbar.FaultAt.plainSteps {n : Navbar} (h : n.FaultAt steps) : PlainSteps steps := by
  cases h with
  | bare among => exact among.plainSteps Link.FaultAt.plainSteps
  | logo _ fault => exact ⟨by decide, fault.plainSteps⟩
  | links _ among => exact ⟨by decide, among.plainSteps Link.FaultAt.plainSteps⟩

theorem Footer.FaultAt.plainSteps {f : Footer} (h : f.FaultAt steps) : PlainSteps steps := by
  cases h with
  | bare among => exact among.plainSteps FooterSection.FaultAt.plainSteps
  | links _ among => exact ⟨by decide, among.plainSteps FooterSection.FaultAt.plainSteps⟩

theorem Preset.FaultAt.plainSteps (p : Preset) (steps : List Step) (h : p.FaultAt steps) :
    PlainSteps steps := by
  cases h with
  | stylesheet => exact ⟨by decide, by decide, trivial⟩
  | name | docs | sidebarPath | theme | customCss => decide

namespace Site

variable {s : Site}

theorem WrittenAt.plainSteps {key : String} {outer : Option α} {inner : Theme → Option α} {a : α}
    (h : s.WrittenAt key outer inner steps a) (plain : IsPlain key) : PlainSteps steps := by
  cases h with
  | outer => exact ⟨plain, trivial⟩
  | inner => exact ⟨by decide, plain, trivial⟩

/-- All faults of a site stand at places with plain keys. -/
theorem FaultAt.plainSteps (h : s.FaultAt steps) : PlainSteps steps := by
  cases h with
  | title | url | baseUrl | favicon | navbarTwice | footerTwice | prismTwice => decide
  | navbar written fault =>
    exact FieldPath.plainSteps_append.2 ⟨written.plainSteps (by decide), fault.plainSteps⟩
  | footer written fault =>
    exact FieldPath.plainSteps_append.2 ⟨written.plainSteps (by decide), fault.plainSteps⟩
  | prism written fault =>
    exact FieldPath.plainSteps_append.2 ⟨written.plainSteps (by decide), fault.plainSteps⟩
  | presets _ among => exact ⟨by decide, among.plainSteps Preset.FaultAt.plainSteps⟩

/-- The checks report an error at a path exactly if it is the path of a fault, and of one only. -/
theorem hasErrorAt_iff_existsUnique (s : Site) (p : String) :
    s.diagnostics.hasErrorAt p = true ↔
      ∃! steps, s.FaultAt steps ∧ (FieldPath.ofJoins steps).text = p := by
  have reported (path : FieldPath) : (∃ e ∈ s.diagnostics.errors, e.field = path) ↔
      ∃ steps, s.FaultAt steps ∧ path = .ofSteps steps := by
    rw [diagnostics, Diagnostics.exists_mem_errors_iff]
    simp only [hasErrorAt_check]
  rw [Diagnostics.hasErrorAt_iff]
  constructor
  · rintro ⟨e, he, rfl⟩
    obtain ⟨steps, fault, field⟩ := (reported e.field).1 ⟨e, he, rfl⟩
    have plain := fault.plainSteps
    refine ⟨steps, ⟨fault, by rw [field, FieldPath.ofJoins_eq plain]⟩, ?_⟩
    rintro other ⟨fault', same⟩
    rw [field, ← FieldPath.ofJoins_eq plain] at same
    exact FieldPath.ofJoins_injective fault'.plainSteps plain same
  · rintro ⟨steps, ⟨fault, rfl⟩, -⟩
    obtain ⟨e, he, field⟩ := (reported (.ofSteps steps)).2 ⟨steps, fault, rfl⟩
    exact ⟨e, he, by rw [field, FieldPath.ofJoins_eq fault.plainSteps]⟩

end Site

end Faults

/-! ## Identified places -/

namespace FieldPath

/-- Paths identify places. Whether the path of a place is joined by the checks or written by a reader,
it is the same text. Joining is going on from a place, so it does not matter in which order paths are
joined, and the path of the whole adds nothing. Different places with plain keys, such as those of all
records, have different texts, so that an error at a path has one place; one that the checks report
is that of one fault. -/
theorem tells_place :
    (∀ steps, PlainSteps steps →
      ofJoins steps = ofSteps steps ∧
        (∀ segments, segments.filterMap Segment.step? = steps →
          ofJoins steps = ofSegments segments) ∧
        ∀ place : Enclosed, place.steps = steps →
          ofJoins steps = place.path ∧ place.key?.getD "" = Site.lastKey steps) ∧
    (∀ steps name rest, PlainSteps (.key name :: rest) →
      (ofJoins steps).join (ofJoins (.key name :: rest)) = ofJoins (steps ++ .key name :: rest)) ∧
    (∀ first second third : FieldPath,
      (first.join second).join third = first.join (second.join third)) ∧
    (∀ path : FieldPath, root.join path = path ∧ path.join root = path) ∧
    (∀ steps other, PlainSteps steps → PlainSteps other →
      (ofJoins steps).text = (ofJoins other).text → steps = other) ∧
    (∀ key ∈ Site.knownKeys, IsPlain key) ∧
    (∀ d : Diagnostics, (∀ e ∈ d.errors, ∃ steps, PlainSteps steps ∧ e.field = ofJoins steps) →
      ∀ p, d.hasErrorAt p = true ↔
        ∃! steps, PlainSteps steps ∧ (ofJoins steps).text = p ∧
          ∃ e ∈ d.errors, e.field = ofJoins steps) ∧
    ∀ (s : Site) (p : String), s.diagnostics.hasErrorAt p = true ↔
      ∃! steps, s.FaultAt steps ∧ (ofJoins steps).text = p := by
  refine ⟨fun steps plain => ⟨ofJoins_eq plain, fun segments same => ?_, fun place same => ?_⟩,
    fun steps _ _ plain => join_ofJoins_key plain steps, join_assoc,
    fun path => ⟨root_join path, join_root path⟩,
    fun _ _ plain plain' => ofJoins_injective plain plain', by decide,
    fun _ placed => Diagnostics.hasErrorAt_iff_existsUnique placed,
    Site.hasErrorAt_iff_existsUnique⟩
  · rw [ofJoins_eq plain, ofSegments_eq, same]
  · rw [ofJoins_eq plain, place.path_eq, place.getD_key?, same]
    exact ⟨rfl, rfl⟩

/-- The place of the sidebar of the first preset, and an error there. -/
def sidebarSteps : List Step :=
  [.key "presets", .index 0, .index 1, .key "docs", .key "sidebarPath"]

def sidebarError : Diagnostics :=
  .ofError ⟨⟨"presets[0][1].docs.sidebarPath"⟩, "expected a string, found a number", none⟩

theorem sidebar_tells_place :
    PlainSteps sidebarSteps ∧
      ofJoins sidebarSteps = ofSegments [.silent, .key "presets", .index 0, .index 1, .key "docs",
        .silent, .key "sidebarPath"] ∧
      ofJoins sidebarSteps =
        (((((Enclosed.root.key "presets").index 0).wrapped.index 1).key "docs").key
          "sidebarPath").path ∧
      (ofJoins [.key "presets", .index 0, .index 1]).join (ofJoins [.key "docs", .key "sidebarPath"]) =
        ofJoins sidebarSteps ∧
      PlainSteps [.index 0, .key "label"] ∧
      (ofJoins [.index 0, .key "label"]).text ≠ (ofJoins sidebarSteps).text ∧
      ∃! steps, PlainSteps steps ∧ (ofJoins steps).text = "presets[0][1].docs.sidebarPath" ∧
        ∃ e ∈ sidebarError.errors, e.field = ofJoins steps := by
  have plain : PlainSteps sidebarSteps := by decide
  have row : PlainSteps [.index 0, .key "label"] := by decide
  have field : (FieldPath.mk "presets[0][1].docs.sidebarPath") = ofJoins sidebarSteps := by
    decide
  obtain ⟨builders, joins, -, -, injective, -, errors, -⟩ := tells_place
  obtain ⟨-, segments, places⟩ := builders sidebarSteps plain
  refine ⟨plain, segments _ rfl, (places _ rfl).1, ?_, row, fun same => ?_, ?_⟩
  · exact joins [.key "presets", .index 0, .index 1] "docs" [.key "sidebarPath"]
      (by decide)
  · exact absurd (injective _ _ row plain same) (by decide)
  · refine (errors sidebarError (fun e he => ?_) _).1 (by decide)
    rw [List.mem_singleton.1 he]
    exact ⟨sidebarSteps, plain, field⟩

/-- A key that holds a mark is not told from the keys on both sides of it. -/
example : ofJoins [.key "navbar.links"] = ofJoins [.key "navbar", .key "links"] := by decide

end FieldPath

end SiteManifest
