import SiteManifest.Toml.Document
import SiteManifest.Toml.Lexeme
import SiteManifest.Toml.Scalar

/-!
# Reading TOML text

A text is a row of lines: values under dotted keys, headers of tables and of elements of arrays. The
lines are read first and then put together, and either step may refuse the text.
-/
namespace SiteManifest.Toml

open Text

/-- How deep brackets may nest, and how many parts a dotted key may have. -/
def maxDepth : Nat := 79

/-! ## Keys -/

def isBareKeyChar (c : Char) : Bool := c.isAlphanum || c == '_' || c == '-'

theorem length_lt_of_takeWhile {p : Char → Bool} {c : Char} {word cs : List Char}
    (h : cs.takeWhile p = c :: word) : (cs.dropWhile p).length < cs.length := by
  have := congrArg List.length (List.takeWhile_append_dropWhile (p := p) (l := cs))
  rw [h, List.length_append, List.length_cons] at this
  omega

/-- One part of a dotted key. -/
def keyPart? (cs : List Char) : Option (Found String cs) :=
  match h : cs.takeWhile isBareKeyChar with
  | [] => lineText? cs
  | c :: name =>
    some ⟨String.ofList (c :: name), cs.dropWhile isBareKeyChar, length_lt_of_takeWhile h⟩

/-- The parts of a dotted key, with blanks around each of them. -/
def keyParts? (cs : List Char) : Option (Found (List String) cs) :=
  match keyPart? (skipBlanks cs) with
  | none => none
  | some part =>
    have within := part.shorter_of_le (length_skipBlanks_le cs)
    match h : skipBlanks part.rest with
    | '.' :: rest =>
      have shorter := Nat.lt_trans (length_lt_of_skipBlanks h) within
      (keyParts? rest).map fun more => (more.map (part.value :: ·)).behind shorter
    | rest =>
      some ⟨[part.value], rest, Nat.lt_of_le_of_lt (h ▸ length_skipBlanks_le part.rest) within⟩
termination_by cs.length

/-- A dotted key: the way to a table, and the key in it. -/
def dottedKey? (cs : List Char) : Option (Found (List String × String) cs) := do
  let parts ← keyParts? cs
  if parts.value.length ≤ maxDepth then
    let key ← parts.value.getLast?
    some (parts.map fun names => (names.dropLast, key))
  else none

/-! ## Values -/

/-- The characters that end a value that is written as a word. -/
def isWordChar (c : Char) : Bool := c ∉ [' ', '\t', '\n', '#', ',', ']', '\x7d']

/-- A word of its own. A day may be followed by a time behind one blank. -/
def wordFound? (cs : List Char) : Option (Found Json cs) :=
  let word := cs.takeWhile isWordChar
  let rest := cs.dropWhile isWordChar
  let (word, rest) :=
    match rest with
    | ' ' :: c :: cs =>
      if (date? word).isSome && c.isDigit then
        (word ++ ' ' :: (c :: cs).takeWhile isWordChar, (c :: cs).dropWhile isWordChar)
      else (word, rest)
    | _ => (word, rest)
  if h : rest.length < cs.length then (word? word).map fun v => ⟨v, rest, h⟩ else none

mutual

/-- A value within `depth` more levels of nesting. -/
def value? (depth : Nat) (cs : List Char) : Option (Found Json cs) :=
  match cs with
  | [] => none
  | c :: rest =>
    if c = '"' || c = '\'' then (text? (c :: rest)).map (·.map .string)
    else if c = '[' then
      match depth with
      | 0 => none
      | depth + 1 => (items? depth rest).map fun vs => (vs.map .list).behindChar c
    else if c = '\x7b' then
      match depth with
      | 0 => none
      | depth + 1 =>
        match pairs? depth rest with
        | none => none
        | some ps =>
          (Table.insertAll [] ps.value).map fun t => (ps.map fun _ => t.toJson).behindChar c
    else wordFound? (c :: rest)
termination_by (cs.length, 0)

/-- The items of an array after its bracket. -/
def items? (depth : Nat) (cs : List Char) : Option (Found (List Json) cs) :=
  match h : skipFiller cs with
  | [] => none
  | c :: rest =>
    have within := length_le_of_skipFiller h
    if c = ']' then some ⟨[], rest, within⟩
    else
      match value? depth (c :: rest) with
      | none => none
      | some v =>
        have inItem := v.shorter_of_le within
        match hv : skipFiller v.rest with
        | ',' :: after =>
          have shorter := Nat.lt_trans (length_le_of_skipFiller hv) inItem
          (items? depth after).map fun vs => (vs.map (v.value :: ·)).behind shorter
        | ']' :: after =>
          some ⟨[v.value], after, Nat.lt_trans (length_le_of_skipFiller hv) inItem⟩
        | _ => none
termination_by (cs.length, 1)
decreasing_by
  · rcases Nat.lt_or_eq_of_le within with shorter | equal
    · exact Prod.Lex.left _ _ shorter
    · exact equal ▸ Prod.Lex.right _ Nat.zero_lt_one
  · exact Prod.Lex.left _ _ shorter

/-- The pairs of an inline table after its brace. -/
def pairs? (depth : Nat) (cs : List Char) : Option (Found (List Pair) cs) :=
  match h : skipBlanks cs with
  | '\x7d' :: rest =>
    some ⟨[], rest, length_lt_of_skipBlanks h⟩
  | _ => morePairs? depth cs
termination_by (cs.length, 3)

/-- At least one pair up to the closing brace. -/
def morePairs? (depth : Nat) (cs : List Char) : Option (Found (List Pair) cs) :=
  match pair? depth cs with
  | none => none
  | some p =>
    match h : skipBlanks p.rest with
    | ',' :: after =>
      have shorter := Nat.lt_trans (length_lt_of_skipBlanks h) p.shorter
      (morePairs? depth after).map fun ps => (ps.map (p.value :: ·)).behind shorter
    | '\x7d' :: after =>
      some ⟨[p.value], after, Nat.lt_trans (length_lt_of_skipBlanks h) p.shorter⟩
    | _ => none
termination_by (cs.length, 2)

/-- A dotted key and its value. -/
def pair? (depth : Nat) (cs : List Char) : Option (Found Pair cs) :=
  match dottedKey? cs with
  | none => none
  | some key =>
    match h : key.rest with
    | '=' :: rest =>
      have within := Nat.lt_of_le_of_lt (length_skipBlanks_le rest) (key.shorter_of_rest h)
      (value? depth (skipBlanks rest)).map fun v =>
        (v.map fun v => ⟨key.value.1, key.value.2, v⟩).behind within
    | _ => none
termination_by (cs.length, 1)

end

/-! ## Lines -/

inductive Line where
  | pair (p : Pair)
  | header (isArray : Bool) (path : List String) (key : String)

/-- A header after its bracket or brackets. -/
def header? (isArray : Bool) (cs : List Char) : Option (Found Line cs) :=
  match dottedKey? cs with
  | none => none
  | some key =>
    match isArray, h : key.rest with
    | true, ']' :: ']' :: rest =>
      have within := key.shorter_of_rest h
      some ⟨.header true key.value.1 key.value.2, rest, Nat.lt_of_succ_lt within⟩
    | false, ']' :: rest =>
      some ⟨.header false key.value.1 key.value.2, rest, key.shorter_of_rest h⟩
    | _, _ => none

def line? (cs : List Char) : Option (Found Line cs) :=
  match cs with
  | '[' :: '[' :: rest => (header? true rest).map fun line => (line.behindChar '[').behindChar '['
  | '[' :: rest => (header? false rest).map (·.behindChar '[')
  | cs => (pair? maxDepth cs).map (·.map .pair)

/-- The text after the end of a line, which may have a comment. -/
def afterLine? (cs : List Char) : Option (List Char) :=
  match skipComment (skipBlanks cs) with
  | [] => some []
  | '\n' :: rest => some rest
  | _ => none

theorem length_afterLine?_le {cs rest : List Char} (h : afterLine? cs = some rest) :
    rest.length ≤ cs.length := by
  unfold afterLine? at h
  split at h
  · obtain rfl := Option.some.inj h
    exact Nat.zero_le _
  · next hc =>
    obtain rfl := Option.some.inj h
    exact Nat.le_of_lt (length_lt_of_skipComment hc)
  · contradiction

/-- The lines of a text. Blanks, empty lines and comments stand between them. -/
def lines? (cs : List Char) : Option (List Line) :=
  match h : skipFiller cs with
  | [] => some []
  | c :: rest =>
    match line? (c :: rest) with
    | none => none
    | some line =>
      match ha : afterLine? line.rest with
      | none => none
      | some after =>
        have within := line.shorter_of_le (length_le_of_skipFiller h)
        have := Nat.lt_of_le_of_lt (length_afterLine?_le ha) within
        (lines? after).map (line.value :: ·)
termination_by cs.length

/-- The lines before the first header, and the lines below each header. -/
def Document.ofLines : List Line → Document
  | [] => ⟨[], []⟩
  | .pair p :: rest =>
    let d := ofLines rest
    ⟨p :: d.pairs, d.sections⟩
  | .header isArray path key :: rest =>
    let d := ofLines rest
    ⟨[], ⟨isArray, path, key, d.pairs⟩ :: d.sections⟩

/-- The value of a whole text. -/
def parse? (text : String) : Option Json := do
  let lines ← lines? (plainLines (withoutMark text.toList))
  let table ← (Document.ofLines lines).table?
  some table.toJson

end SiteManifest.Toml
