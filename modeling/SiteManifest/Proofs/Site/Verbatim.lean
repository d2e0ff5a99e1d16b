import SiteManifest.Proofs.Site.Reloading

/-!
# Options that are passed through

The options of presets belong to the build tool, so a site keeps them as they were read. What a text
in TOML is read as has every form that TOML has, except where a number was undefined: such a number
has become null. Without one in the options, the site is written again and its options are read as
they were; with one, the site has no text in TOML any more.

## Main statements

* `Site.part?_presets`: a site keeps the value of its presets.
* `Site.presets_through_toml`: when the presets of a text in TOML are written to TOML again.
-/
namespace SiteManifest

variable {path : Path} {text : String} {raw : Json} {members : Members} {s : Site}
  {warnings : Diagnostics}

namespace Site

/-! ## What is kept of presets -/

/-- A site keeps the value of its presets, whatever their options are. -/
theorem part?_presets (ok : load (.table members) = .ok (s, warnings)) :
    (Json.table members).part? (.key "presets") = s.presets.map fun ps =>
      .list (ps.map Preset.shape.write) := by
  obtain ⟨decoded, _⟩ := load_eq_ok_iff.1 ok
  have result : (shape.decode (.table members)).result = .ok s := by rw [decoded]
  have related := rel_presets (Shape.result_decode_eq_ok_iff_holds.1 result).2
  change members.lookup "presets" = _
  generalize members.lookup "presets" = found at related ⊢
  generalize s.presets = presets at related ⊢
  cases related with
  | none => rfl
  | some holds =>
    obtain ⟨vs, rfl, items⟩ := holds
    have written := items.imp fun v p holds => (Shape.write_nameOrPair_of_holds holds).symm
    rw [← List.forall₂_map_right_iff, List.forall₂_eq_eq_eq] at written
    exact congrArg (some ∘ Json.list) written

/-! ## Texts in TOML -/

theorem exists_load_of_ofText {format : Format} (ok : ofText path format text = .ok (s, warnings)) :
    ∃ raw, format.parse text = .ok raw ∧ load raw = .ok (s, warnings) := by
  unfold ofText at ok
  split at ok
  · contradiction
  next raw parsed => exact ⟨raw, parsed, except_mapError_eq_ok_iff.1 ok⟩

/-- What a text in TOML is read as: a table with each key once, whose integers are small. -/
theorem exists_table_of_parse (parsed : Format.toml.parse text = .ok raw) :
    ∃ members, raw = .table members ∧ (Json.table members).KeysOnce ∧
      Toml.Small (.table members) := by
  simp only [Format.parse] at parsed
  split at parsed
  next v found =>
    obtain rfl := Except.ok.inj parsed
    obtain ⟨lines, _, made⟩ := Option.bind_eq_some_iff.1 found
    obtain ⟨t, _, made⟩ := Option.bind_eq_some_iff.1 made
    obtain rfl := Option.some.inj made
    exact ⟨_, rfl, Toml.keysOnce_parse? found, Toml.small_parse? found⟩
  next => contradiction

/-- What has no form in a site that was read is what had become null in its presets. -/
theorem fault?_toJson_iff_of_parse (parsed : Format.toml.parse text = .ok raw)
    (ok : load raw = .ok (s, warnings)) :
    (Toml.fault? s.toJson = none ↔ ∀ steps, raw.at? (.key "presets" :: steps) ≠ some .null) ∧
      (Toml.fault? s.toJson = some .null ↔
        ∃ steps, raw.at? (.key "presets" :: steps) = some .null) := by
  obtain ⟨members, rfl, read⟩ := exists_table_of_parse parsed
  have parts := (Toml.kept_small.table.1 read).2
  have kept : Toml.fault? s.toJson =
      ((Json.table members).part? (.key "presets")).bind Toml.fault? := by
    rw [fault?_toJson, part?_presets ok, Option.bind_map]
    rfl
  rw [kept]
  constructor
  · simp only [Option.bind_eq_none_iff, ne_eq, Json.at?_cons_eq_some_iff, not_exists, not_and]
    constructor
    · intro fine steps w part
      exact (Toml.fault?_eq_none_iff_of_small (parts _ (mem_of_lookup part))).1 (fine w part) steps
    · intro noNull w part
      exact (Toml.fault?_eq_none_iff_of_small (parts _ (mem_of_lookup part))).2 fun steps =>
        noNull steps w part
  · simp only [Option.bind_eq_some_iff, Json.at?_cons_eq_some_iff]
    rw [exists_comm]
    refine exists_congr fun w => ?_
    rw [exists_and_left]
    refine and_congr_right fun part => ?_
    exact Toml.fault?_eq_null_iff_of_small (parts _ (mem_of_lookup part))

/-- The presets of a site that was read from TOML are written to TOML and read again as they were,
unless a number in them is undefined and has become null: then the site has no text in TOML. -/
theorem presets_through_toml (path : Path) (text : String)
    (ok : ofText path .toml text = .ok (s, warnings)) (nests : s.toJson.nesting ≤ 64) :
    ∃ raw, Format.toml.parse text = .ok raw ∧
      ((∀ steps, raw.at? (.key "presets" :: steps) ≠ some .null) →
        ∃ out again, s.render .toml = .ok out ∧ Format.toml.parse out = .ok again ∧
          again.part? (.key "presets") = raw.part? (.key "presets")) ∧
      ((∃ steps, raw.at? (.key "presets" :: steps) = some .null) →
        s.render .toml = .error (.unwritable "unsupported unit type")) := by
  obtain ⟨raw, parsed, loaded⟩ := exists_load_of_ofText ok
  obtain ⟨written, unwritten⟩ := fault?_toJson_iff_of_parse parsed loaded
  refine ⟨raw, parsed, fun noNull => ?_, fun null => ?_⟩
  · obtain ⟨whole, rfl⟩ := Format.exists_raw_of_parse parsed
    obtain ⟨out, rendered, read⟩ := exists_ofText_toml path loaded nests (written.2 noNull)
    obtain ⟨again, parsedAgain, loadedAgain⟩ := exists_load_of_ofText read
    obtain ⟨members, table, _⟩ := exists_table_of_parse parsed
    obtain ⟨read, rfl, _⟩ := exists_table_of_parse parsedAgain
    refine ⟨out, _, rendered, parsedAgain, ?_⟩
    rw [table] at loaded ⊢
    rw [part?_presets loadedAgain, part?_presets loaded]
  · have refused : Toml.render s.toJson = .error .null := by
      unfold Toml.render
      rw [unwritten.2 null]
    rw [render, Format.render, refused]
    rfl

/-! ## A site with one option -/

open Number Text Toml

def titleMembers : Members :=
  [("title", .string "T"), ("url", .string "https://example.com"), ("baseUrl", .string "/")]

/-- Presets of which one has a ratio for an option. -/
def ratioPresets (ratio : Json) : Json := .list [.list [.string "p", .table [("ratio", ratio)]]]

def ratioTable (ratio : Json) : Json :=
  .table (titleMembers ++ [("presets", ratioPresets ratio)])

def ratioSite (ratio : Json) : Site where
  title := "T"
  tagline := none
  url := "https://example.com"
  baseUrl := "/"
  favicon := none
  organizationName := none
  projectName := none
  navbar := none
  footer := none
  prism := none
  theme := none
  presets := some [.configured "p" [("ratio", ratio)]]

/-- What stands for the options in a text, with a word for the ratio. -/
def optionChars (word rest : List Char) : List Char :=
  '\x7b' :: ' ' :: (keyChars "ratio" ++ ' ' :: '=' :: ' ' :: (word ++ ' ' :: '\x7d' :: rest))

/-- What stands for the presets. -/
def presetChars (word rest : List Char) : List Char :=
  '[' :: '[' :: (textChars "p" ++ ',' :: ' ' :: optionChars word (']' :: ']' :: rest))

/-- The text of the site. -/
def ratioChars (word : List Char) : List Char :=
  pairLines titleMembers ++ (keyChars "presets" ++ ' ' :: '=' :: ' ' :: presetChars word ['\n'])

/-- A word is read as a value wherever values end. -/
def Means (word : List Char) (v : Json) : Prop :=
  ∀ depth rest, EndsValue rest → Reads (value? depth) (word ++ rest) v rest

variable {word : List Char} {ratio : Json}

theorem reads_optionChars (means : Means word ratio) (rest : List Char) :
    Reads (value? 77) (optionChars word rest) (.table [("ratio", ratio)]) rest := by
  have pair := reads_pair? [] "ratio" (by decide) (skipBlanks_blank_keyChars "ratio" _)
    (means 76 _ (.brace rest))
  have start : skipBlanks (' ' :: (keyChars "ratio" ++ ' ' :: '=' :: ' ' ::
      (word ++ ' ' :: '\x7d' :: rest))) =
        keyChars "ratio" ++ ' ' :: '=' :: ' ' :: (word ++ ' ' :: '\x7d' :: rest) := rfl
  have noBrace : (keyChars "ratio").head? = some 'r' := rfl
  have pairs := reads_pairs?_of_more (by simp [start, noBrace]) (reads_morePairs?_last pair rfl)
  exact reads_value?_table pairs rfl

theorem reads_presetChars (means : Means word ratio) (rest : List Char) :
    Reads (value? maxDepth) (presetChars word rest) (ratioPresets ratio) rest := by
  have closing (rest : List Char) : skipFiller (']' :: rest) = ']' :: rest :=
    skipFiller_mark (by simp) rest
  have bracket (cs : List Char) : skipFiller ('[' :: cs) = '[' :: cs :=
    skipFiller_cons rfl (by decide) (by decide)
  have brace (cs : List Char) : skipFiller (' ' :: '\x7b' :: cs) = '\x7b' :: cs :=
    (skipFiller_blank rfl).trans (skipFiller_cons rfl (by decide) (by decide))
  have quote (cs : List Char) : skipFiller (textChars "p" ++ cs) = textChars "p" ++ cs :=
    skipFiller_cons rfl (by decide) (by decide)
  have options : Reads (items? 77) (' ' :: optionChars word (']' :: ']' :: rest))
      [.table [("ratio", ratio)]] (']' :: rest) :=
    reads_items?_last (brace _) (by decide) (reads_optionChars means _) (closing _)
  have ends : EndsValue (',' :: ' ' :: optionChars word (']' :: ']' :: rest)) := .mark _ (by simp)
  have pair := reads_value?_list (reads_items?_cons (quote _) (by decide)
    (reads_value?_string "p" ends.noQuote) (skipFiller_mark (by simp) _) options)
  exact reads_value?_list (reads_items?_last (bracket _) (by decide) pair (closing rest))

theorem readsBack_titleMembers : ∀ m ∈ titleMembers, hasHeader m.2 = false → ReadsBack m.2 := by
  simp [titleMembers, readsBack_string]

/-- The text is read as a site with what the word stands for. -/
theorem parse_ratioChars (means : Means word ratio) (noReturn : '\r' ∉ word) :
    Format.toml.parse (String.ofList (ratioChars word)) = .ok (ratioTable ratio) := by
  have plain : '\r' ∉ ratioChars word := by
    have titles := return_not_mem_pairLines_members titleMembers
    have key := return_not_mem_keyChars "presets"
    have option := return_not_mem_keyChars "ratio"
    have name := return_not_mem_textChars "p"
    simp [ratioChars, presetChars, optionChars, titles, key, option, name, noReturn]
  have last := lines?_pair "presets" (reads_presetChars means ['\n']) rfl
  have lines : lines? (ratioChars word) =
      some (plainPairs titleMembers ++ [.pair ⟨[], "presets", ratioPresets ratio⟩]) := by
    rw [ratioChars, lines?_pairLines readsBack_titleMembers, last, lines?_nil]
    rfl
  rw [Format.parse, parse?_of_lines? plain lines rfl]
  rfl

/-! ## Two ratios -/

/-- One half. -/
def half : Json := .number (.real ⟨false, ⟨1022, by decide⟩, ⟨0, by decide⟩⟩)

theorem means_half : Means ['0', '.', '5'] half := by
  intro depth rest ends
  have chars : valueChars half = ['0', '.', '5'] := rfl
  rw [← chars]
  exact reads_value?_number rfl ends

theorem means_nan : Means ['n', 'a', 'n'] .null := by
  intro depth rest ends
  have word := reads_wordFound? ['n', 'a', 'n'] (by simp) (by simp [isWordChar]) rfl ends
  exact reads_value?_word (by decide) (by decide) word

def halfText : String :=
  "title = \"T\"\nurl = \"https://example.com\"\nbaseUrl = \"/\"\n" ++
    "presets = [[\"p\", \x7b ratio = 0.5 \x7d]]\n"

theorem parse_half : Format.toml.parse halfText = .ok (ratioTable half) := by
  have text : halfText = String.ofList (ratioChars ['0', '.', '5']) := by decide +kernel
  rw [text]
  exact parse_ratioChars means_half (by decide)

/-- One half is written and read again. -/
theorem half_presets_through_toml :
    ofText textPath .toml halfText = .ok (ratioSite half, .empty) ∧
      (ratioSite half).toJson.nesting ≤ 64 ∧
        ∃ out again, (ratioSite half).render .toml = .ok out ∧ Format.toml.parse out = .ok again ∧
          again.part? (.key "presets") = some (ratioPresets half) := by
  have loaded : load (ratioTable half) = .ok (ratioSite half, .empty) := by decide +kernel
  have read := ofText_of_parse textPath parse_half loaded
  have nests : (ratioSite half).toJson.nesting ≤ 64 := by decide +kernel
  obtain ⟨raw, parsed, written, _⟩ := presets_through_toml textPath halfText read nests
  obtain rfl := Except.ok.inj (parse_half.symm.trans parsed)
  have noNull : ∀ steps, (ratioTable half).at? (.key "presets" :: steps) ≠ some .null := by
    intro steps found
    have fine : fault? (ratioTable half) = none := by decide +kernel
    have null := fault?_at? fine found
    simp [fault?] at null
  exact ⟨read, nests, written noNull⟩

def nanText : String :=
  "title = \"T\"\nurl = \"https://example.com\"\nbaseUrl = \"/\"\n" ++
    "presets = [[\"p\", \x7b ratio = nan \x7d]]\n"

/-- An undefined number is accepted among the options, and cannot be written again. -/
theorem nan_option_unwritable :
    ofText textPath .toml nanText = .ok (ratioSite .null, .empty) ∧
      (ratioSite .null).toJson.nesting ≤ 64 ∧
        (ratioSite .null).render .toml = .error (.unwritable "unsupported unit type") := by
  have text : nanText = String.ofList (ratioChars ['n', 'a', 'n']) := by decide +kernel
  have loaded : load (ratioTable .null) = .ok (ratioSite .null, .empty) := by decide +kernel
  refine ⟨?_, by decide +kernel, rfl⟩
  rw [text]
  exact ofText_of_parse textPath (parse_ratioChars means_nan (by decide)) loaded

end Site

end SiteManifest
