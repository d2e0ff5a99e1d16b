import SiteManifest.Proofs.FieldPath
import SiteManifest.Proofs.Site.Pointing
import SiteManifest.Proofs.Site.UnknownKeys

/-!
# What loading tells

Loading ends with a site and warnings about it, or with all that speaks against the manifest. Either
way everything that is told points at a place in the manifest: at something unknown, at a value that
is not what is wanted there, at a table and the key that it misses, or at what the checks found.

## Main definitions

* `Site.told`: the warnings about a site, or what speaks against it.
* `errorPath`: the path of a misfit, as its message gives it.

## Main statements

* `Site.told_points_into`: everything that is told has its place in the manifest.
-/
namespace SiteManifest

/-! ## Messages about missing keys -/

/-- The key that a message says is missing, as it is told from the text alone. -/
def missingField? (message : String) : Option String :=
  (message.toList.dropPrefix? "missing field \x60".toList).bind fun rest =>
    if rest.getLast? = some '\x60' then some (String.ofList rest.dropLast) else none

/-- The path of an error about the value at a place: a message about a missing key adds the key. -/
def errorPath (place : List Step) (message : String) : FieldPath :=
  (missingField? message).elim (.ofSteps place) fun key => (FieldPath.ofSteps place).join ⟨key⟩

theorem missingField?_missing (key : String) :
    missingField? (Misfit.missing key).message = some key := by
  have opened : (Misfit.missing key).message.toList =
      "missing field \x60".toList ++ (key.toList ++ ['\x60']) := by
    show ("missing field \x60" ++ key ++ "\x60").toList = _
    rw [String.toList_append, String.toList_append, List.append_assoc]
    rfl
  rw [missingField?, opened, List.dropPrefix?_append_of_beq _ BEq.rfl, Option.bind_some,
    if_pos List.getLast?_concat, List.dropLast_concat, String.ofList_toList]

theorem missingField?_eq_none {opening : String} {c : Char} {cs : List Char}
    (h : opening.toList = c :: cs) (hc : c ≠ 'm') (rest : String) :
    missingField? (opening ++ rest) = none := by
  have other : (c :: (cs ++ rest.toList)).dropPrefix? "missing field \x60".toList = none := by
    have opening : "missing field \x60".toList = 'm' :: "issing field \x60".toList := rfl
    rw [opening, List.dropPrefix?, if_neg (by simpa using hc)]
  rw [missingField?, String.toList_append, h, List.cons_append, other, Option.bind_none]

/-- No other message is mistaken for one about a missing key, whatever texts of the manifest it
quotes. -/
theorem missingField?_message_eq_none {m : Misfit} (h : ∀ key, m ≠ .missing key) :
    missingField? m.message = none := by
  cases m with
  | missing key => exact absurd rfl (h key)
  | mistyped found expected =>
    have message : (Misfit.mistyped found expected).message =
        "invalid type: " ++ found.described ++ ", expected " ++ expected := rfl
    rw [message, String.append_assoc, String.append_assoc]
    exact missingField?_eq_none rfl (by decide) _
  | manyKeys =>
    have message : Misfit.manyKeys.message =
        "invalid value: map, expected map with a single key" ++ "" := String.append_empty.symm
    rw [message]
    exact missingField?_eq_none rfl (by decide) _
  | unknownVariant name known =>
    have message : (Misfit.unknownVariant name known).message =
        "unknown variant \x60" ++ name ++ "\x60, expected " ++ alternatives known := rfl
    rw [message, String.append_assoc, String.append_assoc]
    exact missingField?_eq_none rfl (by decide) _
  | wrongLength length expected =>
    have message : (Misfit.wrongLength length expected).message =
        "invalid length " ++ toString length ++ ", expected " ++ expected := rfl
    rw [message, String.append_assoc, String.append_assoc]
    exact missingField?_eq_none rfl (by decide) _

theorem missingField?_message_eq_some_iff {m : Misfit} {key : String} :
    missingField? m.message = some key ↔ m = .missing key := by
  constructor
  · intro h
    cases m with
    | missing name =>
      rw [missingField?_missing] at h
      rw [Option.some.inj h]
    | mistyped | manyKeys | unknownVariant | wrongLength =>
      rw [missingField?_message_eq_none (by simp)] at h
      contradiction
  · rintro rfl
    exact missingField?_missing key

namespace Site

/-- No key of the schema is empty. -/
theorem namesKeys_shape : shape.EveryKey (· ≠ "") := by
  simp [shape, fields, Preset.shape, Navbar.shape, NavbarTable.fields, Logo.shape, Logo.fields,
    Link.shape, Link.fields, Footer.shape, FooterTable.fields, FooterSection.shape,
    FooterSection.fields, Prism.shape, Prism.fields, Theme.shape, Theme.fields, Shape.EveryKey,
    Fields.EveryKey]

/-! ## All that is told -/

/-- All that loading tells: the warnings about a site, or what speaks against it. -/
def told (raw : Json) : Diagnostics :=
  match load raw with
  | .ok (_, warnings) => warnings
  | .error diagnostics => diagnostics

/-- Whether a manifest is loaded or not, all that is found of it is told. -/
theorem told_eq_ofFindings (raw : Json) :
    told raw = .ofFindings .root (findings (shape.decode raw)) := by
  simp only [told, load, Diagnostics.toExcept]
  generalize Diagnostics.ofFindings .root (findings (shape.decode raw)) = d
  cases (shape.decode raw).result with
  | error m => rfl
  | ok site => cases d.hasErrors <;> rfl

theorem field_diagnostic (f : Finding) : (f.diagnostic .root).field = .ofSteps f.steps := rfl

theorem field_unknownError (steps : List Step) : (unknownError steps).field = .ofSteps steps := rfl

theorem field_misfitError (m : Located Misfit) : (misfitError m).field = .ofSteps m.steps := rfl

theorem told_of_result_eq_ok {raw : Json} {site : Site} (h : (shape.decode raw).result = .ok site) :
    told raw = ⟨(shape.decode raw).unknown.map unknownError ++ site.diagnostics.errors,
      site.diagnostics.warnings⟩ := by
  rw [told_eq_ofFindings, findings_of_result_eq_ok h, ofFindings_unknown_append, diagnostics]

theorem told_of_result_eq_error {raw : Json} {m : Located Misfit}
    (h : (shape.decode raw).result = .error m) :
    told raw = ⟨(shape.decode raw).unknown.map unknownError ++ [misfitError m], []⟩ := by
  rw [told, load_of_result_eq_error h]

theorem unknownAt_of_mem {raw : Json.Raw} {steps : List Step}
    (h : steps ∈ (shape.decode raw.value).unknown) :
    wanted.UnknownKeyAt raw.value steps ∨ wanted.SurplusAt raw.value steps := by
  rw [← Wanted.finds_unknown_iff]
  cases result : (shape.decode raw.value).result with
  | ok site => exact ((Shape.enumerates_unknown keysOnce_shape raw.once result).mem_iff steps).1 h
  | error m =>
    exact (((Shape.enumerates_unknown_before keysOnce_shape raw.once result).mem_iff steps).1 h).1

/-- What is reported of a site is a finding of its checks. -/
theorem mem_check_of_mem_diagnostics (site : Site) {d : Diagnostic}
    (h : d ∈ site.diagnostics.errors ++ site.diagnostics.warnings) :
    ∃ f ∈ site.check, d = f.diagnostic .root := by
  simp only [diagnostics, Diagnostics.ofFindings, List.mem_append, List.mem_map,
    List.mem_filter] at h
  rcases h with ⟨f, ⟨hf, _⟩, told⟩ | ⟨f, ⟨hf, _⟩, told⟩
  · exact ⟨f, hf, told.symm⟩
  · exact ⟨f, hf, told.symm⟩

/-- The path of a misfit is told by its message and the place of the value that is at fault. -/
theorem exists_place_of_misfit {raw : Json.Raw} {m : Located Misfit}
    (h : (shape.decode raw.value).result = .error m) :
    ∃ place, (misfitError m).field = errorPath place m.what.message ∧
      ((missingField? m.what.message = none ∧ wanted.RefusedAt raw.value place m.what) ∨
        ∃ key, missingField? m.what.message = some key ∧ wanted.MissingAt raw.value place key) := by
  obtain ⟨steps, what⟩ := m
  obtain ⟨_, _, visit, _⟩ := Shape.exists_result_eq_error h
  have met : ⟨steps, .misfit what⟩ ∈ shape.visit raw.value := by
    rw [visit]
    exact List.mem_append_right _ List.mem_cons_self
  have found := (shape.mem_visit_iff keysOnce_shape raw.once).1 met
  rcases Wanted.finds_misfit_iff.1 found with refused | ⟨place, key, missing, rfl, rfl⟩
  · have silent : missingField? what.message = none := by
      refine missingField?_message_eq_none fun key same => ?_
      obtain ⟨x, u, _, _, refuses⟩ := refused
      exact Wanted.not_refuses_missing (same ▸ refuses)
    refine ⟨steps, ?_, .inl ⟨silent, refused⟩⟩
    rw [errorPath, silent, field_misfitError, Option.elim_none]
  · have named := missingField?_missing key
    refine ⟨place, ?_, .inr ⟨key, named, missing⟩⟩
    obtain ⟨x, rules, _, hx, hr, _, _, rule, hrule, _, rfl⟩ := missing
    have every : wanted.EveryKey (· ≠ "") := namesKeys_shape
    have nonempty := (every.at hx).of_mem_rules hr hrule
    rw [errorPath, named, Option.elim_some, FieldPath.join_key nonempty, field_misfitError,
      FieldPath.ofSteps_concat, FieldPath.push]

/-- Everything that loading tells has its place in the manifest. What is unknown is there, and so is
the value that a misfit is about. Only the path of a key that is missing goes one step further than
the table that misses it, and only the message about such a key says so. The findings of the checks
are there if the records of the manifest are tables. -/
theorem told_points_into (raw : Json.Raw) :
    (∀ d ∈ (told raw.value).errors ++ (told raw.value).warnings,
      (∃ steps v, d = unknownError steps ∧ d.field = .ofSteps steps ∧ raw.value.at? steps = some v ∧
        (wanted.UnknownKeyAt raw.value steps ∨ wanted.SurplusAt raw.value steps)) ∨
      (∃ m place, (shape.decode raw.value).result = .error m ∧ d = misfitError m ∧
        d.field = errorPath place d.message ∧
        ((missingField? d.message = none ∧ wanted.RefusedAt raw.value place m.what) ∨
          ∃ key, missingField? d.message = some key ∧ wanted.MissingAt raw.value place key)) ∨
      ∃ site, (shape.decode raw.value).result = .ok site ∧
        d ∈ site.diagnostics.errors ++ site.diagnostics.warnings) ∧
    (∀ site, (shape.decode raw.value).result = .ok site →
      shape.Spelled Json.IsTable (fun _ => True) raw.value →
      ∀ d ∈ site.diagnostics.errors ++ site.diagnostics.warnings,
        ∃ steps v, d.field = .ofSteps steps ∧ raw.value.at? steps = some v) ∧
    ∀ (m : Misfit) (key : String), missingField? m.message = some key ↔ m = .missing key := by
  have unknown (steps : List Step) (h : steps ∈ (shape.decode raw.value).unknown) :
      ∃ v, raw.value.at? steps = some v :=
    (unknownAt_of_mem h).elim Wanted.UnknownKeyAt.exists_at? Wanted.SurplusAt.exists_at?
  refine ⟨fun d hd => ?_, fun site ok tables d hd => ?_, fun m key =>
    missingField?_message_eq_some_iff⟩
  · cases result : (shape.decode raw.value).result with
    | ok site =>
      rw [told_of_result_eq_ok result] at hd
      simp only [List.append_assoc] at hd
      rcases List.mem_append.1 hd with hd | hd
      · obtain ⟨steps, hs, told⟩ := List.mem_map.1 hd
        obtain ⟨v, hv⟩ := unknown steps hs
        have field : d.field = .ofSteps steps := by rw [← told, field_unknownError]
        exact .inl ⟨steps, v, told.symm, field, hv, unknownAt_of_mem hs⟩
      · exact .inr (.inr ⟨site, rfl, hd⟩)
    | error m =>
      rw [told_of_result_eq_error result] at hd
      simp only [List.append_nil] at hd
      rcases List.mem_append.1 hd with hd | hd
      · obtain ⟨steps, hs, told⟩ := List.mem_map.1 hd
        obtain ⟨v, hv⟩ := unknown steps hs
        have field : d.field = .ofSteps steps := by rw [← told, field_unknownError]
        exact .inl ⟨steps, v, told.symm, field, hv, unknownAt_of_mem hs⟩
      · obtain rfl := List.mem_singleton.1 hd
        obtain ⟨place, spec⟩ := exists_place_of_misfit result
        exact .inr (.inl ⟨m, place, rfl, rfl, spec⟩)
  · obtain ⟨f, hf, told⟩ := site.mem_check_of_mem_diagnostics hd
    obtain ⟨w, hw⟩ := pointInto_of_tables ok tables f hf
    exact ⟨f.steps, w, by rw [told, field_diagnostic], hw⟩

/-- A manifest with texts that are blank, at the top level and in a section. -/
def blankTable : Json.Raw where
  value := .table [("title", .string " "), ("url", .string "https://example.com"),
    ("baseUrl", .string "/"), ("prism", .table [("theme", .string "")])]
  once := by simp [Json.KeysOnce, Json.KeysOnceMembers]

def blankSite : Site where
  title := " "
  tagline := none
  url := "https://example.com"
  baseUrl := "/"
  favicon := none
  organizationName := none
  projectName := none
  navbar := none
  footer := none
  prism := some ⟨"", none⟩
  theme := none
  presets := none

theorem blank_told_points_into :
    (shape.decode blankTable.value).result = .ok blankSite ∧
      shape.Spelled Json.IsTable (fun _ => True) blankTable.value ∧
      ∀ d ∈ blankSite.diagnostics.errors ++ blankSite.diagnostics.warnings,
        ∃ steps v, d.field = .ofSteps steps ∧ blankTable.value.at? steps = some v := by
  have read : (shape.decode blankTable.value).result = .ok blankSite := by
    decide +kernel
  have tables : shape.Spelled Json.IsTable (fun _ => True) blankTable.value := by
    simp [blankTable, shape, fields, Prism.shape, Prism.fields, Shape.Spelled,
      Fields.SpelledTable, Json.IsTable]
  exact ⟨read, tables, (told_points_into blankTable).2.1 blankSite read tables⟩

end Site

end SiteManifest
