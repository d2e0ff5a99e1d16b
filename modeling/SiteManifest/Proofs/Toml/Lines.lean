import SiteManifest.Proofs.Toml.Texts

/-!
# Lines of TOML

Pairs and headers are read back from their lines, one line at a time.

## Main definitions

* `ReadsBack`: a value is read from what is written for it at the end of a line.

## Main statements

* `reads_keyParts?`: a dotted key is read as it was written.
* `lines?_pairLines`, `lines?_headerLine`: lines are read, and the reader goes on behind them.
* `parse?_of_lines?`: a text is read if its lines are.
-/
namespace SiteManifest.Toml

open Text

variable {c : Char} {cs rest after mid tail : List Char} {key : String} {keys path : List String}

/-! ## Keys -/

/-- A key is written with a character at its start that no line starts with for another reason, and
that does not end a table. -/
theorem exists_keyChars_eq (key : String) :
    ∃ c cs, keyChars key = c :: cs ∧ isBlank c = false ∧ c ∉ ['#', '\n', '[', '\x7d'] := by
  unfold keyChars
  simp only [Bool.and_eq_true, Bool.not_eq_true', List.all_eq_true]
  split_ifs with bare basic literal
  · cases chars : key.toList with
    | nil => simp [chars] at bare
    | cons c cs =>
      have first : isBareKeyChar c = true := bare.2 c (by rw [chars]; exact .head cs)
      refine ⟨c, cs, rfl, ?_, ?_⟩
      · cases blank : isBlank c with
        | false => rfl
        | true =>
          simp only [isBlank, Bool.or_eq_true, beq_iff_eq] at blank
          rcases blank with rfl | rfl <;> contradiction
      · intro h
        simp only [List.mem_cons, List.not_mem_nil, or_false] at h
        rcases h with rfl | rfl | rfl | rfl <;> contradiction
  · exact ⟨_, _, rfl, rfl, by decide⟩
  · exact ⟨_, _, rfl, rfl, by decide⟩
  · exact ⟨_, _, rfl, rfl, by decide⟩

theorem skipBlanks_keyChars (key : String) (rest : List Char) :
    skipBlanks (keyChars key ++ rest) = keyChars key ++ rest := by
  obtain ⟨c, cs, start, notBlank, _⟩ := exists_keyChars_eq key
  rw [start]
  exact List.dropWhile_cons_of_neg (by simp [notBlank])

theorem reads_keyPart?_bare {name : List Char} (nonempty : name ≠ [])
    (bare : ∀ c ∈ name, isBareKeyChar c = true) (h : ∀ c ∈ rest.head?, isBareKeyChar c = false) :
    Reads keyPart? (name ++ rest) (String.ofList name) rest := by
  have taken : (name ++ rest).takeWhile isBareKeyChar = name := takeWhile_append_of_head bare h
  have dropped : (name ++ rest).dropWhile isBareKeyChar = rest := dropWhile_append_of_head bare h
  refine ⟨?_, ?_⟩
  · rw [List.length_append]
    have := List.length_pos_iff.2 nonempty
    omega
  · unfold keyPart?
    split
    next none => exact absurd (taken.symm.trans none) nonempty
    next found =>
      simp only [← found, taken, dropped]

theorem reads_keyPart?_quoted (hc : isBareKeyChar c = false)
    (h : Reads lineText? (c :: cs) key rest) : Reads keyPart? (c :: cs) key rest := by
  obtain ⟨shorter, found⟩ := h
  refine ⟨shorter, ?_⟩
  have none : (c :: cs).takeWhile isBareKeyChar = [] := by simp [hc]
  unfold keyPart?
  split
  next => exact found
  next other =>
    rw [none] at other
    contradiction

/-- A part of a key is read as it was written, bare or between quotes. -/
theorem reads_keyPart? (key : String) (h : ∀ c ∈ rest.head?, isBareKeyChar c = false) :
    Reads keyPart? (keyChars key ++ rest) key rest := by
  have same : String.ofList key.toList = key := String.ofList_toList
  suffices Reads keyPart? (keyChars key ++ rest) (String.ofList key.toList) rest by
    rwa [same] at this
  have basic : Reads keyPart? (basicText key.toList ++ rest) (String.ofList key.toList) rest := by
    have read := reads_lineText?_basic (reads_basicRest? key.toList rest)
    have found := reads_keyPart?_quoted rfl read
    simpa [basicText] using found
  unfold keyChars
  simp only [Bool.and_eq_true, Bool.not_eq_true', decide_eq_true_eq, List.all_eq_true,
    List.isEmpty_eq_false_iff]
  split_ifs with bare plain literal
  · exact reads_keyPart?_bare bare.1 bare.2 h
  · exact basic
  · obtain ⟨⟨control, lineEnd⟩, quote⟩ := literal
    have visible := isLiteral_of_visible (visible_of_not_hasControl control) quote lineEnd
    have found := reads_keyPart?_quoted rfl
      (reads_lineText?_literal (reads_literalRest? visible rest))
    simpa [literalText] using found
  · exact basic

/-! ## Dotted keys -/

theorem reads_keyParts?_last (first : Reads keyPart? (skipBlanks cs) key after)
    (h : skipBlanks after = rest) (notDot : rest.head? ≠ some '.') :
    Reads keyParts? cs [key] rest := by
  obtain ⟨shorter, found⟩ := first
  refine ⟨?_, ?_⟩
  · have := length_skipBlanks_le cs
    have := length_skipBlanks_le after
    rw [h] at this
    omega
  · unfold keyParts?
    rw [found]
    dsimp only
    split
    next dot =>
      rw [← h, dot] at notDot
      exact absurd rfl notDot
    next => simp only [h]

theorem reads_keyParts?_cons (first : Reads keyPart? (skipBlanks cs) key after)
    (h : skipBlanks after = '.' :: mid) (more : Reads keyParts? mid keys rest) :
    Reads keyParts? cs (key :: keys) rest := by
  obtain ⟨within, found⟩ := first
  obtain ⟨shorter, more⟩ := more
  refine ⟨?_, ?_⟩
  · have := length_skipBlanks_le cs
    have := length_lt_of_skipBlanks h
    omega
  · unfold keyParts?
    rw [found]
    dsimp only
    split
    next dot =>
      obtain ⟨-, rfl⟩ := List.cons.inj (dot.symm.trans h)
      rw [more]
      rfl
    next other => exact absurd h (other _)

/-- What stands behind a dotted key does not belong to it. -/
structure EndsKey (rest : List Char) : Prop where
  notBare : ∀ c ∈ rest.head?, isBareKeyChar c = false
  notDot : (skipBlanks rest).head? ≠ some '.'

/-- A dotted key is written with a character at its start that no line starts with for another
reason. -/
theorem exists_pathChars_eq (path : List String) (nonempty : path ≠ []) :
    ∃ c cs, pathChars path = c :: cs ∧ isBlank c = false ∧ c ∉ ['#', '\n', '[', '\x7d'] := by
  match path with
  | [] => exact absurd rfl nonempty
  | [key] => exact exists_keyChars_eq key
  | key :: next :: path =>
    obtain ⟨c, cs, start, rest⟩ := exists_keyChars_eq key
    exact ⟨c, cs ++ '.' :: pathChars (next :: path), by simp [pathChars, start], rest⟩

theorem skipBlanks_pathChars (nonempty : path ≠ []) (rest : List Char) :
    skipBlanks (pathChars path ++ rest) = pathChars path ++ rest := by
  obtain ⟨c, cs, start, notBlank, _⟩ := exists_pathChars_eq path nonempty
  rw [start]
  exact List.dropWhile_cons_of_neg (by simp [notBlank])

/-- A dotted key is read as it was written, whatever blanks stand in front of it. -/
theorem reads_keyParts? (path : List String) (nonempty : path ≠ [])
    (start : skipBlanks cs = pathChars path ++ rest) (h : EndsKey rest) :
    Reads keyParts? cs path (skipBlanks rest) := by
  induction path generalizing cs with
  | nil => exact absurd rfl nonempty
  | cons key path ih =>
    cases path with
    | nil =>
      refine reads_keyParts?_last ?_ rfl h.notDot
      rw [start]
      exact reads_keyPart? key h.notBare
    | cons next path =>
      have text : skipBlanks cs = keyChars key ++ '.' :: (pathChars (next :: path) ++ rest) := by
        simp [start, pathChars]
      have first : Reads keyPart? (skipBlanks cs) key
          ('.' :: (pathChars (next :: path) ++ rest)) := by
        rw [text]
        refine reads_keyPart? key fun c hc => ?_
        obtain rfl : '.' = c := Option.some.inj hc
        rfl
      have more := List.cons_ne_nil next path
      exact reads_keyParts?_cons first rfl (ih more (skipBlanks_pathChars more rest))

theorem reads_dottedKey? (key : String) (short : path.length + 1 ≤ maxDepth)
    (start : skipBlanks cs = pathChars (path ++ [key]) ++ rest) (h : EndsKey rest) :
    Reads dottedKey? cs (path, key) (skipBlanks rest) := by
  obtain ⟨shorter, found⟩ := reads_keyParts? (path ++ [key]) (by simp) start h
  refine ⟨shorter, ?_⟩
  unfold dottedKey?
  rw [found]
  simp [short, Found.map]

/-! ## Values under keys -/

theorem skipBlanks_cons (hc : isBlank c = false) : skipBlanks (c :: cs) = c :: cs :=
  List.dropWhile_cons_of_neg (by simp [hc])

theorem endsKey_blank (cs : List Char) : EndsKey (' ' :: '=' :: cs) where
  notBare := by simp [isBareKeyChar]
  notDot := by
    have start : skipBlanks (' ' :: '=' :: cs) = '=' :: cs := rfl
    simp [start]

/-- A text of TOML starts with a quote. -/
theorem exists_textChars_eq (s : String) :
    ∃ c cs, textChars s = c :: cs ∧ (c = '"' ∨ c = '\'') := by
  unfold textChars
  simp only
  split_ifs
  · exact ⟨_, _, rfl, .inl rfl⟩
  · exact ⟨_, _, rfl, .inr rfl⟩
  · exact ⟨_, _, rfl, .inl rfl⟩
  · exact ⟨_, _, rfl, .inr rfl⟩
  · exact ⟨_, _, rfl, .inl rfl⟩
  · exact ⟨_, _, rfl, .inl rfl⟩

theorem reads_value?_string (s : String) {depth : Nat} (h : NoQuote rest) :
    Reads (value? depth) (textChars s ++ rest) (.string s) rest := by
  obtain ⟨shorter, found⟩ := reads_text? s h
  obtain ⟨c, cs, start, quote⟩ := exists_textChars_eq s
  refine ⟨shorter, ?_⟩
  revert shorter
  rw [start, List.cons_append]
  intro shorter found
  unfold value?
  rw [if_pos (by simpa using quote), found]
  rfl

theorem wordFound?_blank (cs : List Char) (hc : isBlank c = true) :
    wordFound? (c :: cs) = none := by
  have date : date? [] = none := rfl
  simp only [isBlank, Bool.or_eq_true, beq_iff_eq] at hc
  rcases hc with rfl | rfl
  · cases cs with
    | nil => simp [wordFound?, isWordChar]
    | cons d cs => simp [wordFound?, isWordChar, date]
  · simp [wordFound?, isWordChar]

/-- No value starts with a blank. -/
theorem skipBlanks_of_reads_value? {depth : Nat} {v : Json}
    (value : Reads (value? depth) cs v rest) : skipBlanks cs = cs := by
  obtain ⟨shorter, found⟩ := value
  cases cs with
  | nil => rfl
  | cons c cs =>
    cases blank : isBlank c with
    | false => exact skipBlanks_cons blank
    | true =>
      have nothing := wordFound?_blank cs blank
      simp only [isBlank, Bool.or_eq_true, beq_iff_eq] at blank
      rcases blank with rfl | rfl
      · unfold value? at found
        simp [nothing] at found
      · unfold value? at found
        simp [nothing] at found

/-- A pair is read if its value is. -/
theorem reads_pair? (path : List String) (key : String) {depth : Nat} {v : Json}
    (short : path.length + 1 ≤ maxDepth)
    (start : skipBlanks after = pathChars (path ++ [key]) ++ ' ' :: '=' :: ' ' :: cs)
    (value : Reads (value? depth) cs v rest) :
    Reads (pair? depth) after ⟨path, key, v⟩ rest := by
  obtain ⟨within, keys⟩ := reads_dottedKey? key short start (endsKey_blank (' ' :: cs))
  have blank : skipBlanks (' ' :: cs) = cs := skipBlanks_of_reads_value? value
  rw [← blank] at value
  obtain ⟨shorter, value⟩ := value
  refine ⟨?_, ?_⟩
  · rw [blank] at shorter
    have behind : (skipBlanks (' ' :: '=' :: ' ' :: cs)).length = cs.length + 2 := rfl
    omega
  · unfold pair?
    rw [keys]
    dsimp only
    split
    next rest h =>
      obtain rfl : ' ' :: cs = rest := (List.cons.inj h).2
      rw [value]
      rfl
    next other => exact absurd rfl (other _)

/-! ## Headers -/

theorem endsKey_bracket (rest : List Char) : EndsKey (']' :: rest) where
  notBare := by simp [isBareKeyChar]
  notDot := by
    rw [skipBlanks_cons rfl]
    simp

/-- A header is read behind its first brackets. -/
theorem reads_header? (isArray : Bool) (key : String) (rest : List Char)
    (short : path.length + 1 ≤ maxDepth) :
    Reads (header? isArray)
      (pathChars (path ++ [key]) ++ ']' :: ((if isArray then [']'] else []) ++ rest))
      (.header isArray path key) rest := by
  obtain ⟨shorter, found⟩ := reads_dottedKey? key short (skipBlanks_pathChars (by simp) _)
    (endsKey_bracket ((if isArray then [']'] else []) ++ rest))
  refine ⟨by simp only [List.length_append, List.length_cons]; omega, ?_⟩
  unfold header?
  rw [found]
  cases isArray with
  | true => rfl
  | false => rfl

/-! ## Lines -/

theorem skipComment_cons (hc : c ≠ '#') : skipComment (c :: cs) = c :: cs := by
  unfold skipComment
  split
  next h => exact absurd (List.cons.inj h).1 hc
  next => rfl

theorem skipFiller_lineEnd (cs : List Char) : skipFiller ('\n' :: cs) = skipFiller cs := by
  have here : skipComment (skipBlanks ('\n' :: cs)) = '\n' :: cs := rfl
  rw [skipFiller]
  split
  next rest h =>
    obtain rfl : cs = rest := (List.cons.inj (here.symm.trans h)).2
    rfl
  next other => exact absurd here (other cs)

theorem skipFiller_cons (blank : isBlank c = false) (notComment : c ≠ '#') (notEnd : c ≠ '\n') :
    skipFiller (c :: cs) = c :: cs := by
  have here : skipComment (skipBlanks (c :: cs)) = c :: cs := by
    rw [skipBlanks_cons blank, skipComment_cons notComment]
  rw [skipFiller]
  split
  next rest lineEnd => exact absurd (List.cons.inj (here.symm.trans lineEnd)).1 notEnd
  next => exact here

/-- The next line is read, and the reader goes on behind its end. -/
theorem lines?_of_reads {line : Line} (start : skipFiller cs = c :: tail)
    (read : Reads line? (c :: tail) line after) (ends : afterLine? after = some rest) :
    lines? cs = (lines? rest).map (line :: ·) := by
  obtain ⟨shorter, found⟩ := read
  rw [lines?]
  split
  next nothing =>
    rw [start] at nothing
    contradiction
  next d ds here =>
    obtain ⟨rfl, rfl⟩ := List.cons.inj (start.symm.trans here)
    rw [found]
    dsimp only
    split
    next none =>
      rw [ends] at none
      contradiction
    next next some =>
      obtain rfl := Option.some.inj (ends.symm.trans some)
      rfl

theorem lines?_nil : lines? [] = some [] := by
  have nothing : skipFiller [] = [] := by
    rw [skipFiller]
    rfl
  rw [lines?]
  split
  next => rfl
  next other =>
    rw [nothing] at other
    contradiction

theorem reads_line?_pair (key : String) {v : Json} (value : Reads (value? maxDepth) cs v rest) :
    Reads line? (keyChars key ++ ' ' :: '=' :: ' ' :: cs) (.pair ⟨[], key, v⟩) rest := by
  have pair : Reads (pair? maxDepth) (keyChars key ++ ' ' :: '=' :: ' ' :: cs) ⟨[], key, v⟩ rest :=
    reads_pair? [] key (by decide) (skipBlanks_keyChars key _) value
  obtain ⟨shorter, found⟩ := pair
  refine ⟨shorter, ?_⟩
  obtain ⟨c, tail, first, _, other⟩ := exists_keyChars_eq key
  have notBracket : c ≠ '[' := fun same => other (by simp [same])
  rw [line?, found]
  · rfl
  · simp [first, notBracket]
  · simp [first, notBracket]

/-- A pair on a line of its own, whatever its value is written as. -/
theorem lines?_pair (key : String) {v : Json} (value : Reads (value? maxDepth) cs v after)
    (ends : afterLine? after = some rest) :
    lines? (keyChars key ++ ' ' :: '=' :: ' ' :: cs) =
      (lines? rest).map (.pair ⟨[], key, v⟩ :: ·) := by
  obtain ⟨c, tail, first, blank, other⟩ := exists_keyChars_eq key
  have notComment : c ≠ '#' := fun same => other (by simp [same])
  have notEnd : c ≠ '\n' := fun same => other (by simp [same])
  have read := reads_line?_pair key value
  simp only [first, List.cons_append] at read ⊢
  exact lines?_of_reads (skipFiller_cons blank notComment notEnd) read ends

theorem lines?_pairLine (key : String) {v : Json}
    (value : Reads (value? maxDepth) (cs ++ '\n' :: rest) v ('\n' :: rest)) :
    lines? (keyChars key ++ [' ', '=', ' '] ++ cs ++ '\n' :: rest) =
      (lines? rest).map (.pair ⟨[], key, v⟩ :: ·) := by
  have line := lines?_pair key value rfl
  simpa using line

theorem reads_line?_header (isArray : Bool) (key : String) (rest : List Char)
    (short : path.length + 1 ≤ maxDepth) :
    Reads line?
      ('[' :: ((if isArray then ['['] else []) ++
        (pathChars (path ++ [key]) ++ ']' :: ((if isArray then [']'] else []) ++ rest))))
      (.header isArray path key) rest := by
  obtain ⟨shorter, found⟩ := reads_header? isArray key rest short
  refine ⟨by simp only [List.length_append, List.length_cons] at shorter ⊢; omega, ?_⟩
  cases isArray with
  | true =>
    have step (text : List Char) : line? ('[' :: '[' :: text) =
        (header? true text).map fun line => (line.behindChar '[').behindChar '[' := rfl
    exact (step _).trans (congrArg _ found)
  | false =>
    obtain ⟨c, tail, first, _, other⟩ := exists_pathChars_eq (path ++ [key]) (by simp)
    have notBracket : c ≠ '[' := fun same => other (by simp [same])
    have step (text : List Char) (h : ∀ cs, text ≠ '[' :: cs) : line? ('[' :: text) =
        (header? false text).map (·.behindChar '[') := by
      rw [line?]
      intro cs same
      exact h cs same
    refine (step _ fun cs same => ?_).trans (congrArg _ found)
    rw [first] at same
    exact notBracket (List.cons.inj same).1

theorem skipFiller_bracket (isFirst : Bool) (cs : List Char) :
    skipFiller ((if isFirst then [] else ['\n']) ++ '[' :: cs) = '[' :: cs := by
  have here : skipFiller ('[' :: cs) = '[' :: cs := skipFiller_cons rfl (by decide) (by decide)
  cases isFirst with
  | true => exact here
  | false => exact (skipFiller_lineEnd _).trans here

/-- A header on a line of its own, behind an empty line or not. -/
theorem lines?_headerLine (isFirst isArray : Bool) (path : List String)
    (short : path.length + 1 ≤ maxDepth) :
    lines? (headerLine isFirst isArray (path ++ [key]) ++ rest) =
      (lines? rest).map (.header isArray path key :: ·) := by
  have text : headerLine isFirst isArray (path ++ [key]) ++ rest =
      (if isFirst then [] else ['\n']) ++ '[' :: ((if isArray then ['['] else []) ++
        (pathChars (path ++ [key]) ++
          ']' :: ((if isArray then [']'] else []) ++ '\n' :: rest))) := by
    cases isArray <;> simp [headerLine]
  rw [text]
  exact lines?_of_reads (skipFiller_bracket isFirst _) (reads_line?_header isArray key _ short) rfl

/-! ## The lines of a table -/

/-- A value is read back from the text that stands for it at the end of a line. -/
def ReadsBack (v : Json) : Prop :=
  ∀ rest, Reads (value? maxDepth) (valueChars v ++ '\n' :: rest) v ('\n' :: rest)

theorem readsBack_string (s : String) : ReadsBack (.string s) := by
  intro rest
  have noQuote : NoQuote ('\n' :: rest) := by simp [NoQuote]
  have text : valueChars (.string s) = textChars s := by rw [valueChars]
  rw [text]
  exact reads_value?_string s noQuote

/-- The lines of the members that are written without a header. -/
def plainPairs (members : List (String × Json)) : List Line :=
  (members.filter fun (_, v) => !hasHeader v).map fun (k, v) => .pair ⟨[], k, v⟩

/-- The members without a header are read, line by line. -/
theorem lines?_pairLines {members : List (String × Json)}
    (h : ∀ member ∈ members, hasHeader member.2 = false → ReadsBack member.2) :
    lines? (pairLines members ++ rest) = (lines? rest).map (plainPairs members ++ ·) := by
  induction members with
  | nil => simp [pairLines, plainPairs]
  | cons member members ih =>
    obtain ⟨k, v⟩ := member
    have ih := ih fun member mem => h member (.tail _ mem)
    cases header : hasHeader v with
    | true => simpa [pairLines, plainPairs, header] using ih
    | false =>
      have first := lines?_pairLine k (h (k, v) (.head _) header (pairLines members ++ rest))
      have text : pairLines ((k, v) :: members) ++ rest =
          keyChars k ++ [' ', '=', ' '] ++ valueChars v ++ '\n' :: (pairLines members ++ rest) := by
        simp [pairLines, header]
      have lines : plainPairs ((k, v) :: members) = .pair ⟨[], k, v⟩ :: plainPairs members := by
        simp [plainPairs, header]
      rw [text, first, ih, lines, Option.map_map]
      rfl

/-! ## Carriage returns -/

theorem return_not_mem_keyChars (key : String) : '\r' ∉ keyChars key := by
  have bare {cs : List Char} (h : ∀ c ∈ cs, isBareKeyChar c = true) : '\r' ∉ cs := by
    intro mem
    have := h '\r' mem
    contradiction
  unfold keyChars
  simp only [Bool.and_eq_true, Bool.not_eq_true', List.all_eq_true]
  split_ifs with name basic literal
  · exact bare name.2
  · exact return_not_mem_basicText _
  · simp [literalText, return_not_mem_of_not_hasControl literal.1.1]
  · exact return_not_mem_basicText _

theorem return_not_mem_pathChars (path : List String) : '\r' ∉ pathChars path := by
  induction path with
  | nil => simp [pathChars]
  | cons key path ih =>
    cases path with
    | nil => exact return_not_mem_keyChars key
    | cons next path => simp [pathChars, return_not_mem_keyChars, ih]

theorem return_not_mem_headerLine (isFirst isArray : Bool) (path : List String) :
    '\r' ∉ headerLine isFirst isArray path := by
  cases isFirst <;> cases isArray <;> simp [headerLine, return_not_mem_pathChars]

theorem return_not_mem_pairLines {members : List (String × Json)}
    (h : ∀ member ∈ members, hasHeader member.2 = false → '\r' ∉ valueChars member.2) :
    '\r' ∉ pairLines members := by
  induction members with
  | nil => simp [pairLines]
  | cons member members ih =>
    obtain ⟨k, v⟩ := member
    have ih := ih fun member mem => h member (.tail _ mem)
    cases header : hasHeader v with
    | true => simp [pairLines, header, ih]
    | false =>
      have first := h (k, v) (.head _) header
      simp [pairLines, header, return_not_mem_keyChars, first, ih]

/-! ## Whole texts -/

theorem plainLines_of_not_mem (h : '\r' ∉ cs) : plainLines cs = cs := by
  induction cs with
  | nil => rfl
  | cons c cs ih =>
    simp only [List.mem_cons, not_or] at h
    rw [plainLines, ih h.2]
    exact fun _ same => absurd same.symm h.1

/-- No line starts with the mark of the byte order. -/
theorem lines?_mark (mark : c.toNat = 0xFEFF) : lines? (c :: cs) = none := by
  obtain rfl : c = Char.ofNat 0xFEFF := by rw [← mark, Char.ofNat_toNat]
  have start : skipFiller (Char.ofNat 0xFEFF :: cs) = Char.ofNat 0xFEFF :: cs :=
    skipFiller_cons rfl (by decide) (by decide)
  have noKey : keyPart? (skipBlanks (Char.ofNat 0xFEFF :: cs)) = none := rfl
  have noPair : line? (Char.ofNat 0xFEFF :: cs) = none := by
    rw [line?, pair?, dottedKey?, keyParts?, noKey]
    · rfl
    · simp
    · simp
  rw [lines?]
  split
  next nothing =>
    rw [start] at nothing
    contradiction
  next d ds here =>
    obtain ⟨rfl, rfl⟩ := List.cons.inj (start.symm.trans here)
    rw [noPair]

theorem withoutMark_of_lines? {lines : List Line} (read : lines? cs = some lines) :
    withoutMark cs = cs := by
  cases cs with
  | nil => rfl
  | cons c cs =>
    refine if_neg fun mark => ?_
    rw [lines?_mark mark] at read
    contradiction

theorem parse?_of_lines? {lines : List Line} {t : Table} (plain : '\r' ∉ cs)
    (read : lines? cs = some lines) (table : (Document.ofLines lines).table? = some t) :
    parse? (String.ofList cs) = some t.toJson := by
  have text : plainLines (withoutMark cs) = cs := by
    rw [withoutMark_of_lines? read, plainLines_of_not_mem plain]
  unfold parse?
  rw [String.toList_ofList, text, read]
  simp only [Option.bind_eq_bind, Option.bind_some, table]

end SiteManifest.Toml
