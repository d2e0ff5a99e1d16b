import SiteManifest.Proofs.Text.Casing
import SiteManifest.Site.Load

/-!
# Known and suggested keys

The keys of a record are made of the names of its fields, in two ways: one for the keys that are
read and written, and one for those that are known and suggested. Both make the same keys. No two of
them are spellings of one key, so the suggestion for an unknown key is the one known key that it
spells, in whatever order the known keys are tried.

## Main definitions

* `Record`: the records of a manifest, with their fields and casings.

## Main statements

* `Record.keys_eq_map_rename`: the known keys of a record are those that are read.
* `Site.suggestKey_of_mem_names`: the name of a field is told its key.
* `Site.suggestKey_unambiguous`: which key is suggested.
-/
namespace SiteManifest

open Text

/-! ## Keys of the fields -/

/-- The records of a manifest. -/
inductive Record where
  | site
  | link
  | navbar
  | logo
  | footer
  | footerSection
  | prism
  | theme
  deriving DecidableEq, Repr

namespace Record

def all : List Record := [site, link, navbar, logo, footer, footerSection, prism, theme]

theorem mem_all (r : Record) : r ∈ all := by cases r <;> decide

def keys : Record → List String
  | site => Site.fields.keys
  | link => Link.fields.keys
  | navbar => NavbarTable.fields.keys
  | logo => Logo.fields.keys
  | footer => FooterTable.fields.keys
  | footerSection => FooterSection.fields.keys
  | prism => Prism.fields.keys
  | theme => Theme.fields.keys

/-- The names of the fields, in their order. A site also has a field for the directory that it was
read from, which has no key. -/
def names : Record → List String
  | site => ["title", "tagline", "url", "base_url", "favicon", "organization_name",
      "project_name", "navbar", "footer", "prism", "theme_config", "presets"]
  | link => ["to", "href", "label", "position"]
  | navbar => ["title", "logo", "hide_on_scroll", "links"]
  | logo => ["alt", "src", "src_dark"]
  | footer => ["style", "links"]
  | footerSection => ["title", "items"]
  | prism => ["theme", "dark_theme"]
  | theme => ["hide_on_scroll", "prism", "navbar", "footer"]

/-- The casing of the keys that are known, in paths and in suggestions. -/
def knownCasing : Record → Casing
  | link | footer | footerSection => .snake
  | site | navbar | logo | prism | theme => .camel

/-- The casing of the keys that are read and written. -/
def readCasing : Record → Casing
  | footer | footerSection => .snake
  | site | link | navbar | logo | prism | theme => .camel

variable {r : Record} {name : String}

theorem keys_eq_map_apply (r : Record) : r.keys = r.names.map r.knownCasing.apply := by
  cases r <;> decide

theorem small_of_mem_names (h : name ∈ r.names) :
    ∀ c ∈ name.toList.find? (· ≠ '_'), c.isUpper = false := by
  have small : ∀ name ∈ r.names, (name.toList.find? (· ≠ '_')).all (!Char.isUpper ·) = true := by
    cases r <;> decide
  simpa [Option.all_eq_true] using small name h

/-- Only links are known by another casing than they are read in, and the names of their fields have
no underscores. -/
theorem apply_knownCasing (h : name ∈ r.names) :
    r.knownCasing.apply name = r.readCasing.apply name := by
  cases r with
  | link =>
    have plain : ∀ name ∈ link.names, '_' ∉ name.toList := by decide
    rw [Casing.apply_of_notMem _ (plain name h), Casing.apply_of_notMem _ (plain name h)]
  | site | navbar | logo | footer | footerSection | prism | theme => rfl

/-- A record is read under the keys that are known of it. -/
theorem keys_eq_map_rename (r : Record) : r.keys = r.names.map r.readCasing.rename := by
  rw [keys_eq_map_apply]
  refine List.map_congr_left fun name h => ?_
  rw [apply_knownCasing h, Casing.apply_eq_rename _ (small_of_mem_names h)]

end Record

namespace Site

theorem knownKeys_eq_flatMap : knownKeys = Record.all.flatMap Record.keys := by decide

theorem mem_knownKeys_iff {key : String} : key ∈ knownKeys ↔ ∃ r : Record, key ∈ r.keys := by
  rw [knownKeys_eq_flatMap, List.mem_flatMap]
  exact exists_congr fun r => and_iff_right r.mem_all

/-! ## Keys that differ in more than their spelling -/

/-- Keys among which no two have the same squashed form. -/
def Distinguishable (keys : List String) : Prop :=
  ∀ known ∈ keys, ∀ other ∈ keys, squash known = squash other → known = other

instance (keys : List String) : Decidable (Distinguishable keys) :=
  inferInstanceAs (Decidable (∀ known ∈ keys, ∀ other ∈ keys, _ → _))

variable {key known : String} {keys : List String}

/-- A key that is found is known and spelt otherwise than the unknown one. -/
theorem of_suggestKey_eq_some (h : suggestKey key keys = some known) :
    known ∈ keys ∧ known ≠ key ∧ squash known = squash key := by
  have found := List.find?_some h
  rw [Bool.and_eq_true, decide_eq_true_eq, decide_eq_true_eq] at found
  exact ⟨List.mem_of_find?_eq_some h, found⟩

/-- Among distinguishable keys only one can be suggested, and none for one of them. -/
theorem Distinguishable.suggestKey_eq_some_iff (h : Distinguishable keys) :
    suggestKey key keys = some known ↔ key ∉ keys ∧ known ∈ keys ∧ squash known = squash key := by
  constructor
  · intro suggested
    obtain ⟨mem, differs, same⟩ := of_suggestKey_eq_some suggested
    exact ⟨fun listed => differs (h known mem key listed same), mem, same⟩
  · rintro ⟨unlisted, mem, same⟩
    have differs : known ≠ key := fun eq => unlisted (eq ▸ mem)
    have isSome : (suggestKey key keys).isSome := by
      rw [suggestKey, List.find?_isSome]
      exact ⟨known, mem, by simp [differs, same]⟩
    obtain ⟨found, suggested⟩ := Option.isSome_iff_exists.1 isSome
    obtain ⟨foundMem, -, foundSame⟩ := of_suggestKey_eq_some suggested
    rw [suggested, h found foundMem known mem (foundSame.trans same.symm)]

/-- Neither the order of the keys nor their repetition changes what is suggested. -/
theorem Distinguishable.suggestKey_congr (h : Distinguishable keys) {others : List String}
    (same : ∀ known, known ∈ others ↔ known ∈ keys) :
    suggestKey key others = suggestKey key keys := by
  have h' : Distinguishable others := fun known mem other mem' =>
    h known ((same known).1 mem) other ((same other).1 mem')
  ext known
  rw [h'.suggestKey_eq_some_iff, h.suggestKey_eq_some_iff, same, same]

theorem distinguishable_knownKeys : Distinguishable knownKeys := by
  decide +kernel

theorem underscore_notMem_of_mem_knownKeys : ∀ known ∈ knownKeys, '_' ∉ known.toList := by
  decide

/-- Whoever writes the name of a field in place of its key is told the key. -/
theorem suggestKey_of_mem_names {r : Record} {name : String} (h : name ∈ r.names)
    (differs : r.knownCasing.apply name ≠ name) :
    suggestKey name knownKeys = some (r.knownCasing.apply name) := by
  have unlisted : name ∉ knownKeys := fun mem =>
    differs (r.knownCasing.apply_of_notMem (underscore_notMem_of_mem_knownKeys name mem))
  have listed : r.knownCasing.apply name ∈ knownKeys := by
    refine mem_knownKeys_iff.2 ⟨r, ?_⟩
    rw [Record.keys_eq_map_apply]
    exact List.mem_map_of_mem h
  exact distinguishable_knownKeys.suggestKey_eq_some_iff.2
    ⟨unlisted, listed, r.knownCasing.squash_apply name⟩

/-- A known key is suggested for a text exactly if the text is not a known key itself and spells this
one. At most one known key does, so that the order of the known keys does not matter; unknown texts
that spell the same key get the same suggestion, and a known key at the wrong place gets no hint. -/
theorem suggestKey_unambiguous (key : String) :
    (∀ known, suggestKey key knownKeys = some known ↔
      key ∉ knownKeys ∧ known ∈ knownKeys ∧ squash known = squash key) ∧
    (∀ known ∈ knownKeys, ∀ other ∈ knownKeys,
      squash known = squash key → squash other = squash key → known = other) ∧
    (∀ keys, (∀ known, known ∈ keys ↔ known ∈ knownKeys) →
      suggestKey key keys = suggestKey key knownKeys) ∧
    (∀ other, key ∉ knownKeys → other ∉ knownKeys → SameKey key other →
      suggestKey key knownKeys = suggestKey other knownKeys) ∧
    ∀ steps, lastKey steps = key → key ∈ knownKeys → (unknownKey steps).what.hint? = none := by
  have spells {key known : String} : suggestKey key knownKeys = some known ↔
      key ∉ knownKeys ∧ known ∈ knownKeys ∧ squash known = squash key :=
    distinguishable_knownKeys.suggestKey_eq_some_iff
  refine ⟨fun known => spells, fun known mem other mem' same same' => ?_, fun keys same => ?_,
    fun other unlisted unlisted' sameKey => ?_, fun steps last listed => ?_⟩
  · exact distinguishable_knownKeys known mem other mem' (same.trans same'.symm)
  · exact distinguishable_knownKeys.suggestKey_congr same
  · ext known
    rw [spells, spells, sameKey_iff.1 sameKey]
    exact and_congr_left fun _ => iff_of_true unlisted unlisted'
  · have none : suggestKey key knownKeys = none := by
      rw [Option.eq_none_iff_forall_ne_some]
      exact fun known suggested => (spells.1 suggested).1 listed
    rw [unknownKey, last]
    simp only [Issue.hint?, none, Option.map_none]

/-- Two spellings of one key, and a key of links that stands among the keys of a site. -/
theorem baseUrl_suggestKey_unambiguous :
    SameKey "base_URL" "BASE-url" ∧ suggestKey "base_URL" knownKeys = some "baseUrl" ∧
      suggestKey "BASE-url" knownKeys = some "baseUrl" ∧
      suggestKey "base_URL" knownKeys.reverse = some "baseUrl" ∧
      "label" ∈ knownKeys ∧ (unknownKey [.key "label"]).what.hint? = none := by
  have same : SameKey "base_URL" "BASE-url" := sameKey_iff.2 (by decide +kernel)
  have unlisted : "base_URL" ∉ knownKeys := by decide +kernel
  have unlisted' : "BASE-url" ∉ knownKeys := by decide +kernel
  have listed : "label" ∈ knownKeys := by decide +kernel
  obtain ⟨spells, -, orderFree, sameFor, -⟩ := suggestKey_unambiguous "base_URL"
  have suggested : suggestKey "base_URL" knownKeys = some "baseUrl" :=
    (spells "baseUrl").2 ⟨unlisted, by decide +kernel, by decide +kernel⟩
  refine ⟨same, suggested, (sameFor "BASE-url" unlisted unlisted' same).symm.trans suggested,
    (orderFree _ fun _ => List.mem_reverse).trans suggested, listed, ?_⟩
  exact (suggestKey_unambiguous "label").2.2.2.2 [.key "label"] rfl listed

end Site

end SiteManifest
