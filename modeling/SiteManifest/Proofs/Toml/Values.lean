import SiteManifest.Proofs.Json.RoundTrip
import SiteManifest.Proofs.Toml.Floats

/-!
# Values of TOML

Every value that TOML has a form for is read back from what stands for it on the right of a key:
arrays item by item, inline tables pair by pair.

## Main statements

* `reads_value?`: values are read as they were written, whatever stands behind them.
* `readsBack_of_fault?_eq_none`: so are the values at the end of a line.
* `return_not_mem_valueChars`: values are written without carriage returns.
-/
namespace SiteManifest.Toml

open Json (KeysOnceItems KeysOnceMembers nestingItems nestingMembers)
open Number Text

variable {c : Char} {cs rest after mid tail : List Char} {depth : Nat} {v : Json} {vs : List Json}

/-! ## Words -/

theorem reads_value?_word (notText : c ≠ '"' ∧ c ≠ '\'') (notOpen : c ≠ '[' ∧ c ≠ '\x7b')
    (word : Reads wordFound? (c :: cs) v rest) : Reads (value? depth) (c :: cs) v rest := by
  obtain ⟨shorter, found⟩ := word
  refine ⟨shorter, ?_⟩
  unfold value?
  rw [if_neg (by simpa using notText), if_neg notOpen.1, if_neg notOpen.2, found]

theorem reads_value?_bool (b : Bool) (h : EndsValue rest) :
    Reads (value? depth) ((toString b).toList ++ rest) (.bool b) rest := by
  cases b with
  | true =>
    have word := reads_wordFound? ['t', 'r', 'u', 'e'] (by simp) (by simp [isWordChar])
      (v := .bool true) rfl h
    exact reads_value?_word (by decide) (by decide) word
  | false =>
    have word := reads_wordFound? ['f', 'a', 'l', 's', 'e'] (by simp) (by simp [isWordChar])
      (v := .bool false) rfl h
    exact reads_value?_word (by decide) (by decide) word

/-- What numbers are written with. -/
def IsNumberChar (c : Char) : Prop := c.isDigit = true ∨ c = '.' ∨ c = '-'

theorem IsNumberChar.ne {d : Char} (h : IsNumberChar c) (noDigit : d.isDigit = false)
    (other : d ∉ ['.', '-']) : c ≠ d := by
  simp only [List.mem_cons, List.not_mem_nil, or_false, not_or] at other
  rcases h with digit | rfl | rfl
  · exact ne_of_isDigit digit noDigit
  · exact Ne.symm other.1
  · exact Ne.symm other.2

theorem IsNumberChar.isWordChar (h : IsNumberChar c) : isWordChar c = true := by
  rcases h with digit | rfl | rfl
  · have other {d : Char} (hd : d.isDigit = false) : c ≠ d := ne_of_isDigit digit hd
    simp [Toml.isWordChar, other]
  · rfl
  · rfl

theorem isNumberChar_of_mem {n : Numeral} (h : c ∈ valueChars (.number n)) : IsNumberChar c := by
  cases n with
  | integer n =>
    obtain ⟨d, ds, text, first, digits⟩ := exists_integerChars_eq n.value
    rw [valueChars, ← integerChars, text] at h
    rcases List.mem_cons.1 h with rfl | h
    · exact first.symm.imp_right .inr
    · exact .inl (digits c h)
  | real x =>
    obtain ⟨whole, fraction, text, spells⟩ := exists_write x
    rw [valueChars, text] at h
    exact mem_floatChars spells h

theorem exists_valueChars_number_eq (n : Numeral) : ∃ c cs, valueChars (.number n) = c :: cs := by
  cases n with
  | integer n =>
    obtain ⟨c, cs, text, _⟩ := exists_integerChars_eq n.value
    exact ⟨c, cs, by rw [valueChars]; exact text⟩
  | real x =>
    obtain ⟨whole, fraction, text, _⟩ := exists_write x
    have point : '.' ∈ valueChars (.number (.real x)) := by
      rw [valueChars, text, floatChars]
      simp
    exact List.exists_cons_of_ne_nil (List.ne_nil_of_mem point)

/-- A number that TOML has a form for is a word, which is read as the number. -/
theorem word?_valueChars {n : Numeral} (fine : fault? (.number n) = none) :
    word? (valueChars (.number n)) = some (.number n) := by
  cases n with
  | integer n =>
    rw [valueChars]
    exact word?_integerChars (by simpa [fault?] using fine)
  | real x =>
    rw [valueChars]
    exact word?_write x

theorem reads_value?_number {n : Numeral} (fine : fault? (.number n) = none) (h : EndsValue rest) :
    Reads (value? depth) (valueChars (.number n) ++ rest) (.number n) rest := by
  obtain ⟨c, cs, text⟩ := exists_valueChars_number_eq n
  have read := word?_valueChars fine
  have chars : ∀ d ∈ c :: cs, IsNumberChar d := fun d mem => isNumberChar_of_mem (text ▸ mem)
  rw [text] at read ⊢
  have word := reads_wordFound? (c :: cs) (List.cons_ne_nil c cs)
    (fun d mem => (chars d mem).isWordChar) read h
  have other {d : Char} (noDigit : d.isDigit = false) (noMark : d ∉ ['.', '-']) : c ≠ d :=
    (chars c (.head cs)).ne noDigit noMark
  exact reads_value?_word ⟨other rfl (by decide), other rfl (by decide)⟩
    ⟨other rfl (by decide), other rfl (by decide)⟩ word

/-! ## Arrays, one step at a time -/

theorem reads_value?_list (items : Reads (items? depth) cs vs rest) :
    Reads (value? (depth + 1)) ('[' :: cs) (.list vs) rest := by
  obtain ⟨shorter, found⟩ := items
  refine ⟨Nat.lt_trans shorter (length_lt_cons '[' cs), ?_⟩
  unfold value?
  rw [if_neg (by decide), if_pos rfl]
  dsimp only
  rw [found]
  rfl

theorem reads_items?_nil (start : skipFiller cs = ']' :: rest) : Reads (items? depth) cs [] rest := by
  refine ⟨length_le_of_skipFiller start, ?_⟩
  rw [items?]
  split
  next none =>
    rw [start] at none
    contradiction
  next c tail here =>
    obtain ⟨rfl, rfl⟩ := List.cons.inj (start.symm.trans here)
    rfl

theorem reads_items?_last (start : skipFiller cs = c :: tail) (notEnd : c ≠ ']')
    (value : Reads (value? depth) (c :: tail) v after) (ends : skipFiller after = ']' :: rest) :
    Reads (items? depth) cs [v] rest := by
  obtain ⟨shorter, found⟩ := value
  have within := length_le_of_skipFiller start
  have behind : rest.length < after.length := length_le_of_skipFiller ends
  refine ⟨by omega, ?_⟩
  rw [items?]
  split
  next none =>
    rw [start] at none
    contradiction
  next d ds here =>
    obtain ⟨rfl, rfl⟩ := List.cons.inj (start.symm.trans here)
    rw [if_neg notEnd, found]
    dsimp only
    split
    next comma => simp [ends] at comma
    next closing =>
      obtain ⟨-, rfl⟩ := List.cons.inj (ends.symm.trans closing)
      rfl
    next other => exact absurd ends (other _)

theorem reads_items?_cons (start : skipFiller cs = c :: tail) (notEnd : c ≠ ']')
    (value : Reads (value? depth) (c :: tail) v after) (ends : skipFiller after = ',' :: mid)
    (more : Reads (items? depth) mid vs rest) : Reads (items? depth) cs (v :: vs) rest := by
  obtain ⟨within, found⟩ := value
  obtain ⟨shorter, more⟩ := more
  have inText := length_le_of_skipFiller start
  have behind : mid.length < after.length := length_le_of_skipFiller ends
  refine ⟨by omega, ?_⟩
  rw [items?]
  split
  next none =>
    rw [start] at none
    contradiction
  next d ds here =>
    obtain ⟨rfl, rfl⟩ := List.cons.inj (start.symm.trans here)
    rw [if_neg notEnd, found]
    dsimp only
    split
    next comma =>
      obtain ⟨-, rfl⟩ := List.cons.inj (ends.symm.trans comma)
      rw [more]
      rfl
    next closing => simp [ends] at closing
    next other _ => exact absurd ends (other _)

/-! ## Inline tables, one step at a time -/

variable {p : Pair} {ps : List Pair}

theorem reads_morePairs?_last (pair : Reads (pair? depth) cs p after)
    (ends : skipBlanks after = '\x7d' :: rest) : Reads (morePairs? depth) cs [p] rest := by
  obtain ⟨shorter, found⟩ := pair
  have behind := length_lt_of_skipBlanks ends
  refine ⟨Nat.lt_trans behind shorter, ?_⟩
  rw [morePairs?, found]
  dsimp only
  split
  next comma => simp [ends] at comma
  next closing =>
    obtain ⟨-, rfl⟩ := List.cons.inj (ends.symm.trans closing)
    rfl
  next other => exact absurd ends (other _)

theorem reads_morePairs?_cons (pair : Reads (pair? depth) cs p after)
    (ends : skipBlanks after = ',' :: mid) (more : Reads (morePairs? depth) mid ps rest) :
    Reads (morePairs? depth) cs (p :: ps) rest := by
  obtain ⟨within, found⟩ := pair
  obtain ⟨shorter, more⟩ := more
  have behind := length_lt_of_skipBlanks ends
  refine ⟨Nat.lt_trans shorter (Nat.lt_trans behind within), ?_⟩
  rw [morePairs?, found]
  dsimp only
  split
  next comma =>
    obtain ⟨-, rfl⟩ := List.cons.inj (ends.symm.trans comma)
    rw [more]
    rfl
  next closing => simp [ends] at closing
  next other _ => exact absurd ends (other _)

theorem reads_pairs?_nil (ends : skipBlanks cs = '\x7d' :: rest) :
    Reads (pairs? depth) cs [] rest := by
  refine ⟨length_lt_of_skipBlanks ends, ?_⟩
  rw [pairs?]
  split
  next closing =>
    obtain ⟨-, rfl⟩ := List.cons.inj (ends.symm.trans closing)
    rfl
  next other => exact absurd ends (other _)

theorem reads_pairs?_of_more (start : (skipBlanks cs).head? ≠ some '\x7d')
    (pairs : Reads (morePairs? depth) cs ps rest) : Reads (pairs? depth) cs ps rest := by
  obtain ⟨shorter, found⟩ := pairs
  refine ⟨shorter, ?_⟩
  rw [pairs?]
  split
  next closing => simp [closing] at start
  next => exact found

theorem reads_value?_table {t : Table} (pairs : Reads (pairs? depth) cs ps rest)
    (table : Table.insertAll [] ps = some t) :
    Reads (value? (depth + 1)) ('\x7b' :: cs) t.toJson rest := by
  obtain ⟨shorter, found⟩ := pairs
  refine ⟨Nat.lt_trans shorter (length_lt_cons '\x7b' cs), ?_⟩
  unfold value?
  rw [if_neg (by decide), if_neg (by decide), if_pos rfl]
  dsimp only
  rw [found]
  dsimp only
  rw [table]
  rfl

/-! ## Tables of plain values -/

/-- Members as pairs, each under a key of its own. -/
def pairsOf (members : Members) : List Pair := members.map fun (key, v) => ⟨[], key, v⟩

/-- Members as the values of a table. -/
def valuesOf (members : Members) : Table := members.map fun (key, v) => (key, .value v)

theorem lookup_eq_none_of_not_mem {β : Type} {t : List (String × β)} {key : String}
    (fresh : key ∉ t.map (·.1)) : t.lookup key = none := by
  refine List.lookup_eq_none_iff.2 fun entry mem => ?_
  have other : entry.1 ≠ key := fun same => fresh (List.mem_map.2 ⟨entry, mem, same⟩)
  simpa using other.symm

theorem insert_of_not_mem {t : Table} {key : String} (fresh : key ∉ t.map (·.1)) (v : Json) :
    t.insert [] key v = some (t ++ [(key, .value v)]) := by
  simp [Table.insert, Table.update, lookup_eq_none_of_not_mem fresh]

/-- Pairs under keys of their own are put at the end of a table, one by one. -/
theorem insertAll_pairsOf (t : Table) (members : Members)
    (once : (t.map (·.1) ++ members.map (·.1)).Nodup) :
    t.insertAll (pairsOf members) = some (t ++ valuesOf members) := by
  induction members generalizing t with
  | nil => simp [pairsOf, valuesOf, Table.insertAll]
  | cons m members ih =>
    obtain ⟨key, v⟩ := m
    have fresh : key ∉ t.map (·.1) := by
      simp only [List.map_cons, List.nodup_append] at once
      grind
    have others := ih (t ++ [(key, .value v)]) (by simpa using once)
    have step : t.insertAll (pairsOf ((key, v) :: members)) =
        (t.insert [] key v).bind fun t => t.insertAll (pairsOf members) := rfl
    rw [step, insert_of_not_mem fresh, Option.bind_some, others]
    simp [valuesOf]

theorem membersToJson_valuesOf (members : Members) : membersToJson (valuesOf members) = members := by
  induction members with
  | nil => simp [valuesOf, membersToJson]
  | cons m members ih =>
    rw [valuesOf] at ih
    simp [valuesOf, membersToJson, Node.toJson, ih]

/-! ## Values -/

/-- The text of a value starts neither with filler nor with what ends an array. -/
theorem exists_valueChars_eq (fine : fault? v = none) :
    ∃ c cs, valueChars v = c :: cs ∧ isBlank c = false ∧ c ∉ ['#', '\n', ']'] := by
  match v with
  | .null => simp [fault?] at fine
  | .bool true => exact ⟨'t', _, by rw [valueChars]; rfl, rfl, by decide⟩
  | .bool false => exact ⟨'f', _, by rw [valueChars]; rfl, rfl, by decide⟩
  | .number n =>
    obtain ⟨c, cs, text⟩ := exists_valueChars_number_eq n
    have first : IsNumberChar c := isNumberChar_of_mem (text ▸ List.mem_cons_self)
    have other {d : Char} (noDigit : d.isDigit = false) (noMark : d ∉ ['.', '-']) : c ≠ d :=
      first.ne noDigit noMark
    exact ⟨c, cs, text, by simp [isBlank, other], by simp [other]⟩
  | .string s =>
    obtain ⟨c, cs, text, quote⟩ := exists_textChars_eq s
    refine ⟨c, cs, by rw [valueChars, text], ?_⟩
    rcases quote with rfl | rfl <;> decide
  | .list [] | .list [_] | .list (_ :: _ :: _) => exact ⟨'[', _, by rw [valueChars], rfl, by decide⟩
  | .table [] | .table ((_, _) :: _) => exact ⟨'\x7b', _, by rw [valueChars], rfl, by decide⟩

/-- An item starts where its text starts, whatever blanks and line ends stand in front of it. -/
theorem exists_skipFiller_eq (fine : fault? v = none)
    (front : skipFiller cs = skipFiller (valueChars v ++ rest)) :
    ∃ c tail, skipFiller cs = c :: tail ∧ c :: tail = valueChars v ++ rest ∧ c ≠ ']' := by
  obtain ⟨c, tail, text, blank, other⟩ := exists_valueChars_eq fine
  simp only [List.mem_cons, List.not_mem_nil, or_false, not_or] at other
  refine ⟨c, tail ++ rest, ?_, by rw [text]; rfl, other.2.2⟩
  rw [front, text]
  exact skipFiller_cons blank other.1 other.2.1

theorem skipFiller_blank (blank : isBlank c = true) : skipFiller (c :: cs) = skipFiller cs := by
  have same : skipBlanks (c :: cs) = skipBlanks cs := List.dropWhile_cons_of_pos blank
  rw [skipFiller, skipFiller]
  split
  next rest here =>
    rw [same] at here
    split
    next rest' there => exact congrArg skipFiller (List.cons.inj (here.symm.trans there)).2
    next other => exact absurd here (other rest)
  next other =>
    rw [same] at other
    split
    next rest there => exact absurd there (other rest)
    next => rw [same]

/-- An item stands on a line of its own, behind four blanks. -/
theorem skipFiller_itemLine (chars tail : List Char) :
    skipFiller (itemLine chars ++ tail) = skipFiller (chars ++ ',' :: tail) := by
  have text : itemLine chars ++ tail =
      '\n' :: ' ' :: ' ' :: ' ' :: ' ' :: (chars ++ ',' :: tail) := by
    simp [itemLine, List.replicate]
  rw [text, skipFiller_lineEnd, skipFiller_blank rfl, skipFiller_blank rfl, skipFiller_blank rfl,
    skipFiller_blank rfl]

theorem skipFiller_mark (h : c ∈ [',', ']']) (cs : List Char) :
    skipFiller (c :: cs) = c :: cs := by
  simp only [List.mem_cons, List.not_mem_nil, or_false] at h
  rcases h with rfl | rfl
  · exact skipFiller_cons rfl (by decide) (by decide)
  · exact skipFiller_cons rfl (by decide) (by decide)

theorem skipBlanks_blank_keyChars (key : String) (rest : List Char) :
    skipBlanks (' ' :: (keyChars key ++ rest)) = pathChars ([] ++ [key]) ++ rest :=
  (List.dropWhile_cons_of_pos rfl).trans (skipBlanks_keyChars key rest)

/-- The text of members: behind a comma, a blank and the first of them. -/
theorem memberChars_cons (key : String) (v : Json) (ms : Members) :
    memberChars ((key, v) :: ms) =
      ',' :: ' ' :: (keyChars key ++ ' ' :: '=' :: ' ' :: (valueChars v ++ memberChars ms)) := by
  simp [memberChars]

mutual

/-- A value that TOML has a form for is read from its text, whatever stands behind it. -/
theorem reads_value? (v : Json) {depth : Nat} {rest : List Char} (fine : fault? v = none)
    (once : v.KeysOnce) (nests : v.nesting ≤ depth) (ends : EndsValue rest) :
    Reads (value? depth) (valueChars v ++ rest) v rest := by
  match v, depth with
  | .null, _ => simp [fault?] at fine
  | .bool b, _ =>
    rw [valueChars]
    exact reads_value?_bool b ends
  | .number n, _ => exact reads_value?_number fine ends
  | .string s, _ =>
    rw [valueChars]
    exact reads_value?_string s ends.noQuote
  | .list _, 0 | .table _, 0 => simp [Json.nesting] at nests
  | .list [], depth + 1 =>
    rw [valueChars]
    exact reads_value?_list (reads_items?_nil (skipFiller_mark (by simp) rest))
  | .list [v], depth + 1 =>
    have fine : fault? v = none := by simpa [fault?, itemFault?] using fine
    have nests : v.nesting ≤ depth := by simpa [Json.nesting, nestingItems] using nests
    have value := reads_value? v fine once.1 nests
      (EndsValue.mark (c := ']') rest (by simp))
    have front : skipFiller (valueChars v ++ ']' :: rest) = skipFiller (valueChars v ++ ']' :: rest) :=
      rfl
    obtain ⟨c, tail, start, text, notEnd⟩ := exists_skipFiller_eq fine front
    rw [← text] at value
    have items := reads_items?_last start notEnd value (skipFiller_mark (by simp) rest)
    simpa [valueChars] using reads_value?_list items
  | .list (v :: w :: vs), depth + 1 =>
    have items := reads_items? (v :: w :: vs) rest fine once (Nat.le_of_succ_le_succ nests)
    simpa [valueChars, itemLines] using reads_value?_list items
  | .table [], depth + 1 =>
    rw [valueChars]
    have closing : skipBlanks ('\x7d' :: rest) = '\x7d' :: rest := skipBlanks_cons rfl
    exact reads_value?_table (reads_pairs?_nil closing) rfl
  | .table ((key, v) :: ms), depth + 1 =>
    obtain ⟨keysOnce, membersOnce⟩ := once
    have pairs := reads_morePairs? ((key, v) :: ms) rest fine membersOnce
      (Nat.le_of_succ_le_succ nests) (memberChars_cons key v ms)
    have start : (skipBlanks (' ' :: (keyChars key ++ ' ' :: '=' :: ' ' ::
        (valueChars v ++ memberChars ms)) ++ ' ' :: '\x7d' :: rest)).head? ≠ some '\x7d' := by
      obtain ⟨c, cs, first, _, other⟩ := exists_keyChars_eq key
      have notBrace : c ≠ '\x7d' := fun same => other (by simp [same])
      rw [List.cons_append, List.append_assoc, skipBlanks_blank_keyChars]
      simpa [pathChars, first] using notBrace
    have table := insertAll_pairsOf [] ((key, v) :: ms) (by simpa using keysOnce)
    have read := reads_value?_table (reads_pairs?_of_more start pairs) table
    rw [List.nil_append, Table.toJson, membersToJson_valuesOf] at read
    simpa [valueChars] using read

theorem reads_items? (vs : List Json) {depth : Nat} (rest : List Char)
    (fine : itemFault? vs = none) (once : KeysOnceItems vs) (nests : nestingItems vs ≤ depth) :
    Reads (items? depth) (itemLines vs ++ '\n' :: ']' :: rest) vs rest := by
  match vs with
  | [] =>
    rw [itemLines]
    exact reads_items?_nil ((skipFiller_lineEnd _).trans (skipFiller_mark (by simp) rest))
  | v :: vs =>
    obtain ⟨here, below⟩ := Nat.max_le.1 nests
    obtain ⟨fine, others⟩ : fault? v = none ∧ itemFault? vs = none := by
      simpa [itemFault?] using fine
    have value := reads_value? v fine once.1 here
      (EndsValue.mark (c := ',') (itemLines vs ++ '\n' :: ']' :: rest) (by simp))
    have more := reads_items? vs rest others once.2 below
    obtain ⟨c, tail, start, text, notEnd⟩ := exists_skipFiller_eq fine
      (skipFiller_itemLine (valueChars v) (itemLines vs ++ '\n' :: ']' :: rest))
    rw [← text] at value
    rw [itemLines, List.append_assoc]
    exact reads_items?_cons start notEnd value (skipFiller_mark (by simp) _) more

theorem reads_morePairs? (ms : Members) {depth : Nat} {cs : List Char} (rest : List Char)
    (fine : memberFault? ms = none) (once : KeysOnceMembers ms)
    (nests : nestingMembers ms ≤ depth) (text : memberChars ms = ',' :: cs) :
    Reads (morePairs? depth) (cs ++ ' ' :: '\x7d' :: rest) (pairsOf ms) rest := by
  match ms with
  | [] => simp [memberChars] at text
  | [(key, v)] =>
    have fine : fault? v = none := by simpa [memberFault?] using fine
    have value := reads_value? v fine once.1 (Nat.max_le.1 nests).1 (.brace rest)
    have pair := reads_pair? [] key (by decide) (skipBlanks_blank_keyChars key _) value
    have chars := (List.cons.inj ((memberChars_cons key v []).symm.trans text)).2
    simpa [← chars, memberChars, pairsOf] using reads_morePairs?_last pair rfl
  | (key, v) :: (next, w) :: ms =>
    obtain ⟨here, below⟩ := Nat.max_le.1 nests
    obtain ⟨fine, others⟩ : fault? v = none ∧ memberFault? ((next, w) :: ms) = none := by
      simpa only [memberFault?, Option.or_eq_none_iff] using fine
    obtain ⟨tail, behind⟩ : ∃ tail, memberChars ((next, w) :: ms) = ',' :: tail :=
      ⟨_, memberChars_cons next w ms⟩
    have more := reads_morePairs? ((next, w) :: ms) rest others once.2 below behind
    have value := reads_value? v fine once.1 here
      (.mark (c := ',') (tail ++ ' ' :: '\x7d' :: rest) (by simp))
    have pair := reads_pair? [] key (by decide) (skipBlanks_blank_keyChars key _) value
    have chars := (List.cons.inj ((memberChars_cons key v ((next, w) :: ms)).symm.trans text)).2
    have found := reads_morePairs?_cons pair (skipBlanks_cons rfl) more
    rw [← chars, behind]
    simpa [pairsOf] using found

end

/-! ## Ends of lines -/

theorem readsBack_of_fault?_eq_none {v : Json} (fine : fault? v = none) (once : v.KeysOnce)
    (nests : v.nesting ≤ maxDepth) : ReadsBack v := fun rest =>
  reads_value? v fine once nests (.mark (c := '\n') rest (by simp))

/-! ## Carriage returns -/

theorem return_not_mem_itemLine {chars : List Char} (h : '\r' ∉ chars) : '\r' ∉ itemLine chars := by
  simp [itemLine, h, List.replicate]

mutual

/-- A value is written without carriage returns, which would not all be read. -/
theorem return_not_mem_valueChars (v : Json) : '\r' ∉ valueChars v := by
  match v with
  | .null => simp [valueChars]
  | .bool b =>
    rw [valueChars]
    cases b <;> decide
  | .number n =>
    intro mem
    exact (isNumberChar_of_mem mem).ne rfl (by decide) rfl
  | .string s =>
    rw [valueChars]
    exact return_not_mem_textChars s
  | .list [] => simp [valueChars]
  | .list [v] =>
    have item := return_not_mem_valueChars v
    simp [valueChars, item]
  | .list (v :: w :: vs) =>
    have items := return_not_mem_itemLines (v :: w :: vs)
    simpa [valueChars, itemLines] using items
  | .table [] => simp [valueChars]
  | .table ((key, v) :: ms) =>
    have members := return_not_mem_memberChars ((key, v) :: ms)
    simpa [valueChars, memberChars] using members

theorem return_not_mem_itemLines (vs : List Json) : '\r' ∉ itemLines vs := by
  match vs with
  | [] => simp [itemLines]
  | v :: vs =>
    have first := return_not_mem_itemLine (return_not_mem_valueChars v)
    have others := return_not_mem_itemLines vs
    simp [itemLines, first, others]

theorem return_not_mem_memberChars (ms : Members) : '\r' ∉ memberChars ms := by
  match ms with
  | [] => simp [memberChars]
  | (key, v) :: ms =>
    have first := return_not_mem_valueChars v
    have others := return_not_mem_memberChars ms
    simp [memberChars, return_not_mem_keyChars, first, others]

end

end SiteManifest.Toml
