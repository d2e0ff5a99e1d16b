import SiteManifest.Proofs.Shape.Unknown
import SiteManifest.Proofs.Site.Loading

/-!
# Unknown keys of a manifest

Loading tells of every key that a record does not have, once, in the order of reading, and ahead of
everything that the checks find. It tells of nothing else as unknown, and the keys that it tells of
make no other difference. If reading stops at a misfit, the unknown keys before that place are told,
and then the misfit alone.

## Main statements

* `Site.load_tells_unknown_keys`: what loading says of unknown keys.
-/
namespace SiteManifest

/-- A value that fits has no pair that is too long. -/
theorem Wanted.not_surplusAt_of_allFit {s : Shape α} (once : s.KeysOnce) {v : Json}
    (vOnce : v.KeysOnce) (fit : AllFit (s.visit v)) {steps : List Step} :
    ¬(Wanted.shape s).SurplusAt v steps := by
  rintro ⟨place, x, vs, hx, pair, hv, long, rfl⟩
  have refuses : ∃ m, x.Refuses (.list vs) m := by
    unfold IsPair at pair
    split at pair
    · exact ⟨_, .length (by omega)⟩
    · contradiction
  obtain ⟨m, refuses⟩ := refuses
  have met := (s.mem_visit_iff once vOnce).2 ⟨place, x, _, _, hx, hv, .refused refuses, rfl⟩
  exact absurd (fit _ met) nofun

namespace Site

/-- What is wanted of a manifest. -/
abbrev wanted : Wanted := .shape shape

/-- The error about something unknown. -/
def unknownError (steps : List Step) : Diagnostic := (unknownKey steps).diagnostic .root

/-- The error about a misfit. -/
def misfitError (m : Located Misfit) : Diagnostic := (misfit m).diagnostic .root

theorem unknownError_key (place : List Step) (key : String) :
    unknownError (place ++ [.key key]) =
      ⟨(FieldPath.ofSteps place).key key, "unknown field \x60" ++ key ++ "\x60",
        (suggestKey key knownKeys).map fun known => "did you mean \x60" ++ known ++ "\x60?"⟩ := by
  have last : lastKey (place ++ [.key key]) = key := by
    rw [lastKey, List.getLast?_concat]
  have field : FieldPath.root.extend (place ++ [.key key]) = (FieldPath.ofSteps place).key key :=
    FieldPath.ofSteps_concat place (.key key)
  unfold unknownError Finding.diagnostic unknownKey Located.path
  dsimp only
  rw [field, last]
  -- Which key is suggested does not matter, and it is long to compute.
  generalize suggestKey key knownKeys = suggestion
  rfl

/-- The diagnostics of what is unknown, followed by those of findings. -/
theorem ofFindings_unknown_append {unknown : List (List Step)} {findings : List Finding} :
    Diagnostics.ofFindings .root (unknown.map unknownKey ++ findings) =
      ⟨unknown.map unknownError ++ (Diagnostics.ofFindings .root findings).errors,
        (Diagnostics.ofFindings .root findings).warnings⟩ := by
  have errors : (unknown.map unknownKey).filter Finding.isError = unknown.map unknownKey :=
    List.filter_eq_self.2 (by simp [isError_unknownKey])
  have warnings : (unknown.map unknownKey).filter (!Finding.isError ·) = [] :=
    List.filter_eq_nil_iff.2 (by simp [isError_unknownKey])
  simp only [Diagnostics.ofFindings, List.filter_append, errors, warnings, List.map_append,
    List.map_map, List.nil_append]
  rfl

theorem load_of_result_eq_ok {raw : Json} {site : Site}
    (h : (shape.decode raw).result = .ok site) :
    load raw =
      (Diagnostics.mk ((shape.decode raw).unknown.map unknownError ++ site.diagnostics.errors)
        site.diagnostics.warnings).toExcept.map fun warnings => (site, warnings) := by
  simp only [load, findings, h, ofFindings_unknown_append, diagnostics]

theorem load_of_result_eq_error {raw : Json} {m : Located Misfit}
    (h : (shape.decode raw).result = .error m) :
    load raw = .error ⟨(shape.decode raw).unknown.map unknownError ++ [misfitError m], []⟩ := by
  simp only [load, findings, h, ofFindings_unknown_append]
  rfl

/-- Loading tells of the unknown keys of a manifest, of each of them once and in the order of
reading, before anything that the checks find; options are passed over, and without the unknown keys
the same site is loaded with the same findings. If reading stops at a misfit, what is told as
unknown stands before that place, and the misfit is the last thing that is told. -/
theorem load_tells_unknown_keys (raw : Json.Raw) :
    (∀ site, (shape.decode raw.value).result = .ok site →
      ∃ unknown, raw.value.Enumerates (wanted.UnknownKeyAt raw.value) unknown ∧
        (∀ steps ∈ unknown, ∀ inside, wanted.at? inside = some .options → ¬inside <+: steps) ∧
        load raw.value = (Diagnostics.mk (unknown.map unknownError ++ site.diagnostics.errors)
          site.diagnostics.warnings).toExcept.map (fun warnings => (site, warnings)) ∧
        shape.decode (raw.value.without (· ∈ unknown)) = ⟨[], .ok site⟩ ∧
        load (raw.value.without (· ∈ unknown)) =
          site.diagnostics.toExcept.map fun warnings => (site, warnings)) ∧
    (∀ m, (shape.decode raw.value).result = .error m →
      ∃ unknown, raw.value.Enumerates (fun steps => (wanted.UnknownKeyAt raw.value steps ∨
          wanted.SurplusAt raw.value steps) ∧ raw.value.Before steps m.steps) unknown ∧
        load raw.value = .error ⟨unknown.map unknownError ++ [misfitError m], []⟩) ∧
    ∀ place key, unknownError (place ++ [.key key]) =
      ⟨(FieldPath.ofSteps place).key key, "unknown field \x60" ++ key ++ "\x60",
        (suggestKey key knownKeys).map fun known => "did you mean \x60" ++ known ++ "\x60?"⟩ := by
  refine ⟨fun site ok => ?_, fun m error => ?_, unknownError_key⟩
  · obtain ⟨fit, _⟩ := Shape.result_decode_eq_ok_iff.1 ok
    have told := Shape.enumerates_unknown keysOnce_shape raw.once ok
    have pruned := Shape.decode_without_unknown keysOnce_shape raw.once ok
    refine ⟨(shape.decode raw.value).unknown, ⟨fun steps => ?_, told.inOrder, told.nodup⟩, ?_,
      load_of_result_eq_ok ok, pruned, load_of_decode pruned⟩
    · rw [told.mem_iff, Wanted.finds_unknown_iff,
        or_iff_left (Wanted.not_surplusAt_of_allFit keysOnce_shape raw.once fit)]
    · intro steps hs inside options
      exact Wanted.not_prefix_of_finds_unknown ((told.mem_iff steps).1 hs) options
  · have told := Shape.enumerates_unknown_before keysOnce_shape raw.once error
    refine ⟨(shape.decode raw.value).unknown, ⟨fun steps => ?_, told.inOrder, told.nodup⟩,
      load_of_result_eq_error error⟩
    rw [told.mem_iff, Wanted.finds_unknown_iff]

/-- A manifest with a key that no record has and one of another record. -/
def misspeltTable : Json.Raw where
  value := .table [("baseUrl", .string "/"), ("titel", .string "T"), ("title", .string "T"),
    ("url", .string "https://example.com"),
    ("navbar", .list [.table [("label", .string "L"), ("title", .null), ("to", .string "docs/a"),
      ("position", .string "left")]]),
    ("presets", .list [.list [.string "p", .table [("docs", .bool false), ("more", .null)]]])]
  once := by simp [Json.KeysOnce, Json.KeysOnceItems, Json.KeysOnceMembers]

/-- A manifest with a preset of three items, and unknown keys on both sides of it. -/
def surplusTable : Json.Raw where
  value := .table [("titel", .string "T"),
    ("presets", .list [.list [.string "p", .table [], .null]]), ("tilte", .string "T")]
  once := by simp [Json.KeysOnce, Json.KeysOnceItems, Json.KeysOnceMembers]

theorem samples_load_tells_unknown_keys :
    ((shape.decode misspeltTable.value).result = .ok sampleSite ∧
      ∃ unknown, misspeltTable.value.Enumerates (wanted.UnknownKeyAt misspeltTable.value) unknown) ∧
    ∃ m, (shape.decode surplusTable.value).result = .error m ∧
      ∃ unknown : List (List Step),
        load surplusTable.value = .error ⟨unknown.map unknownError ++ [misfitError m], []⟩ := by
  have read : (shape.decode misspeltTable.value).result = .ok sampleSite := by
    decide +kernel
  have stopped : (shape.decode surplusTable.value).result =
      .error ⟨[.key "presets", .index 0],
        .wrongLength 3 "a preset name or a [name, options] pair"⟩ := by
    decide +kernel
  obtain ⟨unknown, enumerates, _⟩ :=
    (load_tells_unknown_keys misspeltTable).1 sampleSite read
  obtain ⟨before, _, load⟩ := (load_tells_unknown_keys surplusTable).2.1 _ stopped
  exact ⟨⟨read, unknown, enumerates⟩, _, stopped, before, load⟩

end Site

end SiteManifest
