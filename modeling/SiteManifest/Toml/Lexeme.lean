import SiteManifest.Text.Digits
import SiteManifest.Text.Found

/-!
# Lexemes of TOML

Blanks, comments and quoted texts. A line ends with a line feed; the carriage return that may stand
before it is dropped from the whole text first.
-/
namespace SiteManifest.Toml

open Text

/-- The text with plain line ends, and without the mark of the byte order at its start. -/
def plainLines : List Char → List Char
  | [] => []
  | '\r' :: '\n' :: cs => '\n' :: plainLines cs
  | c :: cs => c :: plainLines cs

def withoutMark : List Char → List Char
  | [] => []
  | c :: cs => if c.toNat = 0xFEFF then cs else c :: cs

def isBlank (c : Char) : Bool := c == ' ' || c == '\t'

def skipBlanks (cs : List Char) : List Char := cs.dropWhile isBlank

theorem length_skipBlanks_le (cs : List Char) : (skipBlanks cs).length ≤ cs.length :=
  (List.dropWhile_suffix isBlank).length_le

theorem length_lt_of_skipBlanks {c : Char} {rest cs : List Char} (h : skipBlanks cs = c :: rest) :
    rest.length < cs.length := length_lt_of_dropWhile h

/-- Whatever can be seen, tabs included. -/
def isVisible (c : Char) : Bool := c == '\t' || (0x20 ≤ c.toNat && c.toNat ≠ 0x7F)

/-- The text after a comment, if there is one. -/
def skipComment (cs : List Char) : List Char :=
  match cs with
  | '#' :: rest => rest.dropWhile isVisible
  | cs => cs

theorem length_skipComment_le (cs : List Char) : (skipComment cs).length ≤ cs.length := by
  unfold skipComment
  split
  · exact Nat.le_succ_of_le (List.dropWhile_suffix isVisible).length_le
  · exact Nat.le_refl _

theorem length_skipComment_skipBlanks_le (cs : List Char) :
    (skipComment (skipBlanks cs)).length ≤ cs.length :=
  Nat.le_trans (length_skipComment_le _) (length_skipBlanks_le cs)

theorem length_lt_of_skipComment {c : Char} {rest cs : List Char}
    (h : skipComment (skipBlanks cs) = c :: rest) : rest.length < cs.length :=
  length_lt_of_cons_le (h ▸ length_skipComment_skipBlanks_le cs)

/-- The text after blanks, comments and line ends. -/
def skipFiller (cs : List Char) : List Char :=
  match h : skipComment (skipBlanks cs) with
  | '\n' :: rest =>
    have := length_lt_of_skipComment h
    skipFiller rest
  | rest => rest
termination_by cs.length

theorem length_skipFiller_le (cs : List Char) : (skipFiller cs).length ≤ cs.length := by
  fun_induction skipFiller cs with
  | case1 cs rest h shorter ih => exact Nat.le_trans ih (Nat.le_of_lt shorter)
  | case2 cs h => exact length_skipComment_skipBlanks_le cs

theorem length_le_of_skipFiller {cs ds : List Char} (h : skipFiller cs = ds) :
    ds.length ≤ cs.length := h ▸ length_skipFiller_le cs

/-! ## Escapes -/

/-- The character whose code point has the given digits. -/
def codePoint? (cs : List Char) : Option Char := do
  let n ← digits? 16 cs
  if n.isValidChar then some (Char.ofNat n) else none

theorem length_drop_lt {width : Nat} {cs : List Char} (h : 0 < width)
    (hw : width ≤ cs.length) : (cs.drop width).length < cs.length := by
  rw [List.length_drop]
  omega

/-- A character named by its code point in so many digits. -/
def numbered? (width : Nat) (cs : List Char) : Option (Found Char cs) :=
  if h : 0 < width ∧ width ≤ cs.length then
    (codePoint? (cs.take width)).map fun c => ⟨c, cs.drop width, length_drop_lt h.1 h.2⟩
  else none

/-- What a letter stands for behind a backslash. -/
def named? (c : Char) : Option Char :=
  if c = 'b' then some '\x08'
  else if c = 'f' then some '\x0c'
  else if c = 'n' then some '\n'
  else if c = 'r' then some '\r'
  else if c = 't' then some '\t'
  else if c = '"' then some '"'
  else if c = '\\' then some '\\'
  else none

/-- An escape after its backslash. -/
def escape? (cs : List Char) : Option (Found Char cs) :=
  match cs with
  | [] => none
  | c :: rest =>
    if c = 'u' then (numbered? 4 rest).map (·.behindChar c)
    else if c = 'U' then (numbered? 8 rest).map (·.behindChar c)
    else (named? c).map fun d => ⟨d, rest, length_lt_cons c rest⟩

/-! ## Quoted texts -/

/-- The characters that stand for themselves between double quotes. -/
def isBasic (c : Char) : Bool := isVisible c && c != '"' && c != '\\'

/-- The characters that stand for themselves between single quotes. -/
def isLiteral (c : Char) : Bool := isVisible c && c != '\''

/-- A text after its opening double quote. -/
def basicRest? (cs : List Char) : Option (Found (List Char) cs) :=
  match cs with
  | [] => none
  | c :: rest =>
    have shorter := length_lt_cons c rest
    if c = '"' then some ⟨[], rest, shorter⟩
    else if c = '\\' then
      match escape? rest with
      | none => none
      | some e =>
        have within := e.shorter_of_lt shorter
        (basicRest? e.rest).map fun more => (more.map (e.value :: ·)).behind within
    else if isBasic c then (basicRest? rest).map fun more => (more.map (c :: ·)).behindChar c
    else none
termination_by cs.length
decreasing_by all_goals assumption

/-- A text after its opening single quote. -/
def literalRest? (cs : List Char) : Option (Found (List Char) cs) :=
  match h : cs.dropWhile isLiteral with
  | '\'' :: rest =>
    some ⟨cs.takeWhile isLiteral, rest, length_lt_of_dropWhile h⟩
  | _ => none

/-! ## Texts of several lines -/

/-- The quotes that still belong to a text at its end: up to two before the closing three. -/
def closing (quote : Char) (cs : List Char) : List Char × List Char :=
  match cs with
  | a :: b :: rest =>
    if a = quote && b = quote then ([a, b], rest)
    else if a = quote then ([a], b :: rest)
    else ([], cs)
  | [a] => if a = quote then ([a], []) else ([], cs)
  | [] => ([], [])

theorem length_closing_le (quote : Char) (cs : List Char) :
    (closing quote cs).2.length ≤ cs.length := by
  unfold closing
  split
  · split
    · simp; omega
    · split <;> simp
  · split <;> simp
  · simp

theorem length_closing_lt (quote : Char) (cs : List Char) :
    (closing quote cs).2.length < (quote :: quote :: quote :: cs).length :=
  Nat.lt_of_le_of_lt (length_closing_le quote cs) (by simp only [List.length_cons]; omega)

/-- A first line end that does not count. -/
def dropLineEnd : List Char → List Char
  | '\n' :: cs => cs
  | cs => cs

theorem length_dropLineEnd_le (cs : List Char) : (dropLineEnd cs).length ≤ cs.length := by
  unfold dropLineEnd
  split <;> simp

theorem length_dropLineEnd_lt (quote : Char) (cs : List Char) :
    (dropLineEnd cs).length < (quote :: quote :: quote :: cs).length :=
  Nat.lt_of_le_of_lt (length_dropLineEnd_le cs) (by simp only [List.length_cons]; omega)

def isBlankOrLineEnd (c : Char) : Bool := isBlank c || c == '\n'

/-- The text after a line that a backslash continues: all blanks and line ends are left out. -/
def continued? (cs : List Char) : Option (List Char) :=
  if (skipBlanks cs).head? = some '\n' then some (cs.dropWhile isBlankOrLineEnd) else none

theorem length_continued?_le {cs rest : List Char} (h : continued? cs = some rest) :
    rest.length ≤ cs.length := by
  unfold continued? at h
  split at h
  · obtain rfl := Option.some.inj h
    exact (List.dropWhile_suffix isBlankOrLineEnd).length_le
  · simp at h

theorem length_continued?_lt {cs rest : List Char} (c : Char) (h : continued? cs = some rest) :
    rest.length < (c :: cs).length := Nat.lt_succ_of_le (length_continued?_le h)

/-- A text after its three opening double quotes. -/
def basicLines? (cs : List Char) : Option (Found (List Char) cs) :=
  match cs with
  | [] => none
  | '"' :: '"' :: '"' :: rest =>
    some ⟨(closing '"' rest).1, (closing '"' rest).2, length_closing_lt '"' rest⟩
  | c :: rest =>
    have shorter := length_lt_cons c rest
    if c = '\\' then
      match h : continued? rest with
      | some after =>
        have within := length_continued?_lt c h
        (basicLines? after).map (·.behind within)
      | none =>
        match escape? rest with
        | none => none
        | some e =>
          have within := e.shorter_of_lt shorter
          (basicLines? e.rest).map fun more => (more.map (e.value :: ·)).behind within
    else if isVisible c || c = '\n' then
      (basicLines? rest).map fun more => (more.map (c :: ·)).behindChar c
    else none
termination_by cs.length
decreasing_by all_goals assumption

/-- A text after its three opening single quotes. -/
def literalLines? (cs : List Char) : Option (Found (List Char) cs) :=
  match cs with
  | [] => none
  | '\'' :: '\'' :: '\'' :: rest =>
    some ⟨(closing '\'' rest).1, (closing '\'' rest).2, length_closing_lt '\'' rest⟩
  | c :: rest =>
    if isVisible c || c = '\n' then
      (literalLines? rest).map fun more => (more.map (c :: ·)).behindChar c
    else none

/-- A quoted text on one line. -/
def lineText? (cs : List Char) : Option (Found String cs) :=
  match cs with
  | '"' :: rest => (basicRest? rest).map fun t => (t.map String.ofList).behindChar '"'
  | '\'' :: rest => (literalRest? rest).map fun t => (t.map String.ofList).behindChar '\''
  | _ => none

/-- A quoted text. Three quotes open one of several lines, whose first line end does not count. -/
def text? (cs : List Char) : Option (Found String cs) :=
  match cs with
  | '"' :: '"' :: '"' :: rest =>
    have within := length_dropLineEnd_lt '"' rest
    (basicLines? (dropLineEnd rest)).map fun t => (t.map String.ofList).behind within
  | '\'' :: '\'' :: '\'' :: rest =>
    have within := length_dropLineEnd_lt '\'' rest
    (literalLines? (dropLineEnd rest)).map fun t => (t.map String.ofList).behind within
  | cs => lineText? cs

end SiteManifest.Toml
