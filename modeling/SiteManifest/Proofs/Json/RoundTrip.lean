import SiteManifest.Json.Parser
import SiteManifest.Proofs.Json.Keys
import SiteManifest.Proofs.Json.Numbers

/-!
# Values of JSON written and read

A value without floats is read back from its text, in either spacing, as long as it nests no deeper
than the reader goes and has its keys once.

## Main definitions

* `Integral`: all numbers of a value are integers.
* `nesting`: how deep the lists and tables of a value nest.

## Main statements

* `reads_value`: a value is read from its text, whatever stands behind it.
* `parse_pretty`: a value that was written is read again.
-/
namespace SiteManifest.Json

open Lexeme Number Text

/-! ## Readers, one step at a time -/

section Steps

variable {depth : Nat} {c : Char} {cs rest mid tail : List Char} {v : Json} {vs : List Json}
  {key : String} {ms : Members}

theorem reads_value_string {s : List Char} (h : skipBlanks cs = '"' :: rest)
    (read : Reads stringRest rest s tail) :
    Reads (value depth) cs (.string (String.ofList s)) tail := by
  obtain ⟨shorter, found⟩ := read
  refine ⟨Nat.lt_trans shorter (length_lt_of_skipBlanks h), ?_⟩
  unfold value
  split
  next none => simp [none] at h
  next start =>
    obtain ⟨rfl, rfl⟩ := List.cons.inj (start.symm.trans h)
    simp only [if_pos, found]
    rfl

theorem reads_value_list (h : skipBlanks cs = '[' :: rest)
    (read : Reads (items depth) rest vs tail) : Reads (value (depth + 1)) cs (.list vs) tail := by
  obtain ⟨shorter, found⟩ := read
  refine ⟨Nat.lt_trans shorter (length_lt_of_skipBlanks h), ?_⟩
  unfold value
  split
  next none => simp [none] at h
  next start =>
    obtain ⟨rfl, rfl⟩ := List.cons.inj (start.symm.trans h)
    have notQuote : '[' ≠ '"' := by decide
    simp only [if_neg notQuote, if_pos, found]
    rfl

theorem reads_value_table (h : skipBlanks cs = '\x7b' :: rest)
    (read : Reads (members depth) rest ms tail) :
    Reads (value (depth + 1)) cs (tableOf ms) tail := by
  obtain ⟨shorter, found⟩ := read
  refine ⟨Nat.lt_trans shorter (length_lt_of_skipBlanks h), ?_⟩
  unfold value
  split
  next none => simp [none] at h
  next start =>
    obtain ⟨rfl, rfl⟩ := List.cons.inj (start.symm.trans h)
    have notQuote : '\x7b' ≠ '"' := by decide
    have notBracket : '\x7b' ≠ '[' := by decide
    simp only [if_neg notQuote, if_neg notBracket, if_pos, found]
    rfl

theorem reads_value_scalar (h : skipBlanks cs = c :: rest) (hc : c ∉ ['"', '[', '\x7b'])
    (shorter : tail.length ≤ rest.length) (found : scalar c rest = .ok (v, tail)) :
    Reads (value depth) cs v tail := by
  simp only [List.mem_cons, List.not_mem_nil, or_false, not_or] at hc
  have within : tail.length < (c :: rest).length := Nat.lt_succ_of_le shorter
  have scalarFound : scalarFound c rest = .ok ⟨v, tail, within⟩ := by
    unfold Json.scalarFound
    rw [found]
    exact dif_pos within
  refine ⟨Nat.lt_of_le_of_lt shorter (length_lt_of_skipBlanks h), ?_⟩
  unfold value
  split
  next none => simp [none] at h
  next start =>
    obtain ⟨rfl, rfl⟩ := List.cons.inj (start.symm.trans h)
    simp only [if_neg hc.1, if_neg hc.2.1, if_neg hc.2.2, scalarFound]

theorem reads_items_nil (h : skipBlanks cs = ']' :: rest) : Reads (items depth) cs [] rest := by
  refine ⟨length_lt_of_skipBlanks h, ?_⟩
  unfold items
  split
  next none => simp [none] at h
  next start =>
    obtain ⟨rfl, rfl⟩ := List.cons.inj (start.symm.trans h)
    rfl

theorem reads_items_cons (h : skipBlanks cs = c :: rest) (hc : c ≠ ']')
    (first : Reads (value depth) cs v mid) (more : Reads (moreItems depth) mid vs tail) :
    Reads (items depth) cs (v :: vs) tail := by
  obtain ⟨within, first⟩ := first
  obtain ⟨shorter, more⟩ := more
  refine ⟨Nat.lt_trans shorter within, ?_⟩
  unfold items
  split
  next none => simp [none] at h
  next start =>
    obtain ⟨rfl, rfl⟩ := List.cons.inj (start.symm.trans h)
    simp only [if_neg hc, first, more]
    rfl

theorem reads_moreItems_nil (h : skipBlanks cs = ']' :: rest) :
    Reads (moreItems depth) cs [] rest := by
  refine ⟨length_lt_of_skipBlanks h, ?_⟩
  unfold moreItems
  split
  next none => simp [none] at h
  next start =>
    obtain ⟨rfl, rfl⟩ := List.cons.inj (start.symm.trans h)
    rfl

theorem reads_moreItems_cons (h : skipBlanks cs = ',' :: rest) (hr : skipBlanks rest = c :: after)
    (hc : c ≠ ']') (first : Reads (value depth) rest v mid)
    (more : Reads (moreItems depth) mid vs tail) : Reads (moreItems depth) cs (v :: vs) tail := by
  obtain ⟨within, first⟩ := first
  obtain ⟨shorter, more⟩ := more
  refine ⟨Nat.lt_trans shorter (Nat.lt_trans within (length_lt_of_skipBlanks h)), ?_⟩
  unfold moreItems
  split
  next none => simp [none] at h
  next start =>
    obtain ⟨rfl, rfl⟩ := List.cons.inj (start.symm.trans h)
    have notBracket : ',' ≠ ']' := by decide
    simp only [if_neg notBracket, if_pos, hr]
    split
    next none => contradiction
    next bracket => exact absurd (List.cons.inj bracket).1 hc
    next => simp only [first, more]; rfl

theorem reads_members_nil (h : skipBlanks cs = '\x7d' :: rest) :
    Reads (members depth) cs [] rest := by
  refine ⟨length_lt_of_skipBlanks h, ?_⟩
  unfold members
  split
  next none => simp [none] at h
  next start =>
    obtain ⟨rfl, rfl⟩ := List.cons.inj (start.symm.trans h)
    rfl

theorem reads_members_cons (h : skipBlanks cs = '"' :: rest)
    (first : Reads (member depth) rest (key, v) mid)
    (more : Reads (moreMembers depth) mid ms tail) :
    Reads (members depth) cs ((key, v) :: ms) tail := by
  obtain ⟨within, first⟩ := first
  obtain ⟨shorter, more⟩ := more
  refine ⟨Nat.lt_trans shorter (Nat.lt_trans within (length_lt_of_skipBlanks h)), ?_⟩
  unfold members
  split
  next none => simp [none] at h
  next start =>
    obtain ⟨rfl, rfl⟩ := List.cons.inj (start.symm.trans h)
    have notBrace : '"' ≠ '\x7d' := by decide
    simp only [if_neg notBrace, if_pos, first, more]
    rfl

theorem reads_moreMembers_nil (h : skipBlanks cs = '\x7d' :: rest) :
    Reads (moreMembers depth) cs [] rest := by
  refine ⟨length_lt_of_skipBlanks h, ?_⟩
  unfold moreMembers
  split
  next none => simp [none] at h
  next start =>
    obtain ⟨rfl, rfl⟩ := List.cons.inj (start.symm.trans h)
    rfl

theorem reads_moreMembers_cons (h : skipBlanks cs = ',' :: rest)
    (hr : skipBlanks rest = '"' :: after) (first : Reads (member depth) after (key, v) mid)
    (more : Reads (moreMembers depth) mid ms tail) :
    Reads (moreMembers depth) cs ((key, v) :: ms) tail := by
  obtain ⟨within, first⟩ := first
  obtain ⟨shorter, more⟩ := more
  have inKey := Nat.lt_trans (length_lt_of_skipBlanks hr) (length_lt_of_skipBlanks h)
  refine ⟨Nat.lt_trans shorter (Nat.lt_trans within inKey), ?_⟩
  unfold moreMembers
  split
  next none => simp [none] at h
  next start =>
    obtain ⟨rfl, rfl⟩ := List.cons.inj (start.symm.trans h)
    have notBrace : ',' ≠ '\x7d' := by decide
    simp only [if_neg notBrace, if_pos]
    split
    next none => simp [none] at hr
    next quote =>
      obtain ⟨rfl, rfl⟩ := List.cons.inj (quote.symm.trans hr)
      simp only [if_pos, first, more]
      rfl

theorem reads_member {s : List Char} (name : Reads stringRest cs s mid)
    (h : skipBlanks mid = ':' :: rest) (read : Reads (value depth) rest v tail) :
    Reads (member depth) cs (String.ofList s, v) tail := by
  obtain ⟨within, name⟩ := name
  obtain ⟨shorter, found⟩ := read
  have inName := Nat.lt_trans (length_lt_of_skipBlanks h) within
  refine ⟨Nat.lt_trans shorter inName, ?_⟩
  unfold member
  rw [name]
  dsimp only
  split
  next none => simp [none] at h
  next start =>
    obtain ⟨rfl, rfl⟩ := List.cons.inj (start.symm.trans h)
    simp only [if_pos, found]
    rfl

end Steps

/-! ## What a text starts with -/

/-- Every number of the value is an integer. -/
def IsInteger : Numeral → Prop
  | .integer _ => True
  | .real _ => False

mutual

/-- All numbers of the value, at any depth, are integers. -/
def Integral : Json → Prop
  | .number n => IsInteger n
  | .list vs => IntegralItems vs
  | .table members => IntegralMembers members
  | .null | .bool _ | .string _ => True

def IntegralItems : List Json → Prop
  | [] => True
  | v :: vs => v.Integral ∧ IntegralItems vs

def IntegralMembers : List (String × Json) → Prop
  | [] => True
  | (_, v) :: members => v.Integral ∧ IntegralMembers members

end

mutual

/-- How many lists and tables the value has one inside the other. -/
def nesting : Json → Nat
  | .list vs => nestingItems vs + 1
  | .table members => nestingMembers members + 1
  | .null | .bool _ | .number _ | .string _ => 0

def nestingItems : List Json → Nat
  | [] => 0
  | v :: vs => max v.nesting (nestingItems vs)

def nestingMembers : List (String × Json) → Nat
  | [] => 0
  | (_, v) :: members => max v.nesting (nestingMembers members)

end

/-- Nothing is written between the parts of a value but blanks. -/
structure Spacing.Blank (spacing : Spacing) : Prop where
  lineBreak (depth : Nat) : ∀ c ∈ spacing.lineBreak depth, isBlank c = true
  afterKey : ∃ blanks, spacing.afterKey = ':' :: blanks ∧ ∀ c ∈ blanks, isBlank c = true

theorem blank_indented : Spacing.indented.Blank where
  lineBreak depth := by
    intro c hc
    rcases List.mem_cons.1 hc with rfl | hc
    · rfl
    · rw [List.eq_of_mem_replicate hc]
      rfl
  afterKey := ⟨[' '], rfl, by simp [isBlank]⟩

theorem skipBlanks_append {blanks cs : List Char} {c : Char}
    (h : ∀ b ∈ blanks, isBlank b = true) (hc : isBlank c = false) :
    skipBlanks (blanks ++ c :: cs) = c :: cs := by
  rw [skipBlanks, List.dropWhile_append_of_pos h, List.dropWhile_cons_of_neg (by simp [hc])]

variable {spacing : Spacing}

/-- The text of a value starts neither with a blank nor with what ends a list. -/
theorem exists_chars_eq_cons (spacing : Spacing) {v : Json} (integral : v.Integral) (depth : Nat) :
    ∃ c cs, v.chars spacing depth = c :: cs ∧ isBlank c = false ∧ c ≠ ']' := by
  match v with
  | .null | .bool true | .bool false | .string _ | .list [] | .list (_ :: _) | .table []
  | .table ((_, _) :: _) => exact ⟨_, _, rfl, rfl, by decide⟩
  | .number (.integer n) =>
    obtain ⟨c, cs, text, start, _⟩ := scalar_integer n
    refine ⟨c, cs, text, ?_⟩
    rcases start with rfl | digit
    · decide
    · constructor
      · cases blank : isBlank c with
        | false => rfl
        | true =>
          simp only [isBlank, Bool.or_eq_true, beq_iff_eq] at blank
          rcases blank with ((rfl | rfl) | rfl) | rfl <;> contradiction
      · rintro rfl
        contradiction

theorem skipBlanks_comma (cs : List Char) : skipBlanks (',' :: cs) = ',' :: cs := rfl

/-- Behind blanks a value starts with something that does not end a list. -/
theorem exists_skipBlanks_eq_cons {v : Json} (integral : v.Integral) {level : Nat}
    {blanks rest : List Char} (hb : ∀ b ∈ blanks, isBlank b = true) :
    ∃ c cs, skipBlanks (blanks ++ (v.chars spacing level ++ rest)) = c :: cs ∧ c ≠ ']' := by
  obtain ⟨c, cs, text, hc, notEnd⟩ := exists_chars_eq_cons spacing integral level
  rw [text]
  exact ⟨c, cs ++ rest, skipBlanks_append hb hc, notEnd⟩

/-! ## Values -/

theorem insert_eq_concat {members : Members} {key : String} {v : Json}
    (fresh : key ∉ members.map (·.1)) : insert members key v = members ++ [(key, v)] := by
  induction members with
  | nil => rfl
  | cons m members ih =>
    simp only [List.map_cons, List.mem_cons, not_or] at fresh
    rw [insert, if_neg fun same => fresh.1 same.symm, ih fresh.2]
    rfl

theorem foldl_insert_eq_append (done : Members) {members : Members}
    (once : ((done ++ members).map (·.1)).Nodup) :
    members.foldl (fun done m => insert done m.1 m.2) done = done ++ members := by
  induction members generalizing done with
  | nil => exact (List.append_nil done).symm
  | cons m members ih =>
    have fresh : m.1 ∉ done.map (·.1) := by
      simp only [List.map_append, List.map_cons, List.nodup_append] at once
      grind
    rw [List.foldl_cons, insert_eq_concat fresh, ih _ (by simpa using once)]
    exact List.append_assoc done [m] members

/-- Members whose keys differ make a table as they are. -/
theorem tableOf_eq {members : Members} (once : (members.map (·.1)).Nodup) :
    tableOf members = .table members :=
  congrArg Json.table (foldl_insert_eq_append [] once)

theorem endsInteger_of_blanks {blanks rest : List Char} {c : Char}
    (h : ∀ b ∈ blanks, isBlank b = true) (hc : EndsInteger (c :: rest)) :
    EndsInteger (blanks ++ c :: rest) := by
  cases blanks with
  | nil => exact hc
  | cons b blanks =>
    intro d hd
    obtain rfl : b = d := Option.some.inj hd
    have blank := h b (.head _)
    simp only [isBlank, Bool.or_eq_true, beq_iff_eq] at blank
    rcases blank with ((rfl | rfl) | rfl) | rfl <;> decide

theorem endsInteger_of_mark {c : Char} {rest : List Char} (h : c ∈ [',', ']', '\x7d']) :
    EndsInteger (c :: rest) := by
  intro d hd
  obtain rfl : c = d := Option.some.inj hd
  simp only [List.mem_cons, List.not_mem_nil, or_false] at h
  rcases h with rfl | rfl | rfl <;> decide

theorem endsInteger_itemChars (spacing : Spacing) (depth : Nat) (vs : List Json) {rest : List Char}
    (h : EndsInteger rest) : EndsInteger (itemChars spacing depth vs ++ rest) := by
  cases vs with
  | nil => exact h
  | cons v vs => exact endsInteger_of_mark (.head _)

theorem endsInteger_memberChars (spacing : Spacing) (depth : Nat) (ms : Members) {rest : List Char}
    (h : EndsInteger rest) : EndsInteger (memberChars spacing depth ms ++ rest) := by
  cases ms with
  | nil => exact h
  | cons m ms => exact endsInteger_of_mark (.head _)

/-- A member is read once its value is: the key, the mark behind it and blanks stand before it. -/
theorem reads_member_of_value (blank : spacing.Blank) (key : String) {depth : Nat} {v : Json}
    {text tail : List Char}
    (read : ∀ blanks : List Char, (∀ b ∈ blanks, isBlank b = true) →
      Reads (value depth) (blanks ++ text) v tail) :
    Reads (member depth) (key.toList.flatMap escapedChar ++ '"' :: (spacing.afterKey ++ text))
      (key, v) tail := by
  obtain ⟨blanks, after, hb⟩ := blank.afterKey
  have start : skipBlanks (spacing.afterKey ++ text) = ':' :: (blanks ++ text) := by
    rw [after]
    rfl
  have found := reads_member (reads_stringRest key.toList _) start (read blanks hb)
  rwa [String.ofList_toList] at found

mutual

/-- A value is read from its text, whatever blanks stand in front and whatever stands behind. -/
theorem reads_value (blank : spacing.Blank) (v : Json) (level : Nat) (rest : List Char)
    {depth : Nat} {blanks : List Char} (integral : v.Integral) (once : v.KeysOnce)
    (nests : v.nesting ≤ depth) (hb : ∀ b ∈ blanks, isBlank b = true) (ends : EndsInteger rest) :
    Reads (value depth) (blanks ++ (v.chars spacing level ++ rest)) v rest := by
  have start {c : Char} (hc : isBlank c = false) (cs : List Char) :
      skipBlanks (blanks ++ c :: cs) = c :: cs := skipBlanks_append hb hc
  match v with
  | .null => exact reads_value_scalar (start (c := 'n') rfl _) (by decide) (by simp; omega) rfl
  | .bool true => exact reads_value_scalar (start (c := 't') rfl _) (by decide) (by simp; omega) rfl
  | .bool false =>
    exact reads_value_scalar (start (c := 'f') rfl _) (by decide) (by simp; omega) rfl
  | .number (.integer n) =>
    obtain ⟨c, cs, text, first, read⟩ := scalar_integer n
    rw [chars, text]
    have notBlank : isBlank c = false := by
      obtain ⟨d, ds, same, hd, _⟩ := exists_chars_eq_cons spacing integral level
      rw [chars, text] at same
      rwa [(List.cons.inj same).1]
    have other : c ∉ ['"', '[', '\x7b'] := by
      rcases first with rfl | digit
      · decide
      · intro h
        simp only [List.mem_cons, List.not_mem_nil, or_false] at h
        rcases h with rfl | rfl | rfl <;> contradiction
    exact reads_value_scalar (start notBlank _) other (by simp) (read rest ends)
  | .string s =>
    have text : (Json.string s).chars spacing level ++ rest =
        '"' :: (s.toList.flatMap escapedChar ++ '"' :: rest) := by
      simp [chars, stringChars]
    have read := reads_stringRest s.toList rest
    have found : Reads (value depth) _ _ rest := reads_value_string (start rfl _) read
    rwa [String.ofList_toList, ← text] at found
  | .list [] =>
    obtain ⟨depth, rfl⟩ : ∃ d, depth = d + 1 := Nat.exists_eq_add_one.2 nests
    exact reads_value_list (start (c := '[') rfl _) (reads_items_nil rfl)
  | .list (v :: vs) =>
    obtain ⟨depth, rfl⟩ : ∃ d, depth = d + 1 :=
      Nat.exists_eq_add_one.2 (Nat.lt_of_lt_of_le (Nat.succ_pos _) nests)
    simp only [nesting, nestingItems, Nat.add_le_add_iff_right, Nat.max_le] at nests
    have closing : EndsInteger (spacing.lineBreak level ++ ']' :: rest) :=
      endsInteger_of_blanks (blank.lineBreak level) (endsInteger_of_mark (by simp))
    have first := reads_value blank v (level + 1) _ integral.1 once.1 nests.1
      (blank.lineBreak (level + 1))
      (endsInteger_itemChars spacing (level + 1) vs closing)
    have more := reads_moreItems blank vs (level + 1) rest integral.2 once.2
      nests.2 (blank.lineBreak level)
    obtain ⟨c, cs, opening, notEnd⟩ := exists_skipBlanks_eq_cons integral.1
      (blank.lineBreak (level + 1))
    have found := reads_value_list (start (c := '[') rfl _)
      (reads_items_cons opening notEnd first more)
    simpa [chars] using found
  | .table [] =>
    obtain ⟨depth, rfl⟩ : ∃ d, depth = d + 1 := Nat.exists_eq_add_one.2 nests
    exact reads_value_table (start (c := '\x7b') rfl _) (reads_members_nil rfl)
  | .table ((key, v) :: ms) =>
    obtain ⟨depth, rfl⟩ : ∃ d, depth = d + 1 :=
      Nat.exists_eq_add_one.2 (Nat.lt_of_lt_of_le (Nat.succ_pos _) nests)
    simp only [nesting, nestingMembers, Nat.add_le_add_iff_right, Nat.max_le] at nests
    have closing : EndsInteger (spacing.lineBreak level ++ '\x7d' :: rest) :=
      endsInteger_of_blanks (blank.lineBreak level) (endsInteger_of_mark (by simp))
    have first := reads_member_of_value blank key fun blanks hb =>
      reads_value blank v (level + 1) _ integral.1 once.2.1 nests.1 hb
        (endsInteger_memberChars spacing (level + 1) ms closing)
    have more := reads_moreMembers blank ms (level + 1) rest integral.2 once.2.2
      nests.2 (blank.lineBreak level)
    have members := reads_members_cons
      (skipBlanks_append (c := '"') (blank.lineBreak (level + 1)) rfl) first more
    have found := reads_value_table (start (c := '\x7b') rfl _) members
    rw [tableOf_eq once.1] at found
    simpa [chars, stringChars] using found

theorem reads_moreItems (blank : spacing.Blank) (vs : List Json) (level : Nat) (rest : List Char)
    {depth : Nat} {blanks : List Char} (integral : IntegralItems vs) (once : KeysOnceItems vs)
    (nests : nestingItems vs ≤ depth) (hb : ∀ b ∈ blanks, isBlank b = true) :
    Reads (moreItems depth) (itemChars spacing level vs ++ (blanks ++ ']' :: rest)) vs rest := by
  match vs with
  | [] => exact reads_moreItems_nil (skipBlanks_append hb rfl)
  | v :: vs =>
    obtain ⟨here, below⟩ := Nat.max_le.1 nests
    have closing : EndsInteger (blanks ++ ']' :: rest) :=
      endsInteger_of_blanks hb (endsInteger_of_mark (by simp))
    have first := reads_value blank v level _ integral.1 once.1 here
      (blank.lineBreak level)
      (endsInteger_itemChars spacing level vs closing)
    have more := reads_moreItems blank vs level rest integral.2 once.2 below hb
    obtain ⟨c, cs, opening, notEnd⟩ := exists_skipBlanks_eq_cons integral.1 (blank.lineBreak level)
    have found := reads_moreItems_cons (skipBlanks_comma _) opening notEnd first more
    simpa [itemChars] using found

theorem reads_moreMembers (blank : spacing.Blank) (ms : Members) (level : Nat) (rest : List Char)
    {depth : Nat} {blanks : List Char} (integral : IntegralMembers ms) (once : KeysOnceMembers ms)
    (nests : nestingMembers ms ≤ depth) (hb : ∀ b ∈ blanks, isBlank b = true) :
    Reads (moreMembers depth) (memberChars spacing level ms ++ (blanks ++ '\x7d' :: rest)) ms
      rest := by
  match ms with
  | [] => exact reads_moreMembers_nil (skipBlanks_append hb rfl)
  | (key, v) :: ms =>
    obtain ⟨here, below⟩ := Nat.max_le.1 nests
    have closing : EndsInteger (blanks ++ '\x7d' :: rest) :=
      endsInteger_of_blanks hb (endsInteger_of_mark (by simp))
    have first := reads_member_of_value blank key fun blanks hb =>
      reads_value blank v level _ integral.1 once.1 here hb
        (endsInteger_memberChars spacing level ms closing)
    have more := reads_moreMembers blank ms level rest integral.2 once.2 below hb
    have found := reads_moreMembers_cons (skipBlanks_comma _)
      (skipBlanks_append (c := '"') (blank.lineBreak level) rfl) first more
    simpa [memberChars, stringChars] using found

end

/-! ## Whole texts -/

theorem parseWithin_eq_ok {depth : Nat} {text : String} {v : Json} {rest : List Char}
    (read : Reads (value depth) text.toList v rest) (done : skipBlanks rest = []) :
    parseWithin depth text = .ok v := by
  obtain ⟨_, found⟩ := read
  rw [parseWithin, found]
  dsimp only
  rw [done]

/-- A value is read back from the text of it. -/
theorem parse_pretty {v : Json} (integral : v.Integral) (once : v.KeysOnce)
    (nests : v.nesting ≤ maxDepth) : parse (pretty v) = .ok v := by
  have ends : EndsInteger ['\n'] := by
    intro c hc
    obtain rfl : '\n' = c := Option.some.inj hc
    decide
  have read := reads_value blank_indented v 0 _ integral once nests (List.forall_mem_nil _) ends
  have text : (pretty v).toList = [] ++ (v.chars .indented 0 ++ ['\n']) := String.toList_ofList
  rw [← text] at read
  exact parseWithin_eq_ok read rfl

end SiteManifest.Json
