import SiteManifest.Proofs.Json.Keys
import SiteManifest.Toml.Parser

/-!
# Keys of TOML documents

A document refuses a key that is written twice, so the value it becomes has every key once. What is
kept while the document grows is said of the value that a table would become now: every way of
adding to a table keeps it, and so does every line. Nothing in this depends on what exactly is said
of values, as long as it is said of their parts.

## Main definitions

* `Scalar`: the values that have no parts, except for integers that are refused.
* `Kept`: a property that holds of a value exactly if it holds of its parts.

## Main statements

* `Kept.of_parse?`: such a property holds of every value that a document becomes.
* `keysOnce_parse?`: a value that a document becomes has each key once.
-/
namespace SiteManifest.Toml

open Number Text

/-! ## Properties of parts -/

/-- A value without parts. Undefined numbers have become null. -/
inductive Scalar : Json → Prop where
  | undefined : Scalar .null
  | bool (b : Bool) : Scalar (.bool b)
  | integer {n : Integer} (small : n.value < 0x8000000000000000) : Scalar (.number (.integer n))
  | real (x : Binary64) : Scalar (.number (.real x))
  | string (s : String) : Scalar (.string s)

/-- A property that holds of a value exactly if it holds of its parts, which have keys of their
own. -/
structure Kept (P : Json → Prop) : Prop where
  scalar {v : Json} : Scalar v → P v
  list {vs : List Json} : P (.list vs) ↔ ∀ v ∈ vs, P v
  table {members : Members} : P (.table members) ↔ (members.map (·.1)).Nodup ∧ ∀ m ∈ members, P m.2

/-! ## Tables and the values they become -/

theorem membersToJson_eq_map (t : Table) :
    membersToJson t = t.map fun m => (m.1, m.2.toJson) := by
  induction t with
  | nil => rfl
  | cons m t ih => rw [membersToJson, ih, List.map_cons]

theorem mem_tablesToJson {after : List Json} {ts : List Table} {v : Json} :
    v ∈ tablesToJson after ts ↔ v ∈ after ∨ ∃ t ∈ ts, v = Table.toJson t := by
  induction ts generalizing after with
  | nil => simp [tablesToJson]
  | cons t ts ih => simp [tablesToJson, ih, Table.toJson, or_assoc, or_left_comm]

/-- What is kept of the value that stands in a line. -/
def Line.Keeps (P : Json → Prop) : Line → Prop
  | .pair p => P p.value
  | .header _ _ _ => True

namespace Table

theorem not_mem_keys_of_lookup {t : Table} {key : String} (h : t.lookup key = none) :
    key ∉ t.map (·.1) := by
  intro hk
  obtain ⟨m, hm, rfl⟩ := List.mem_map.1 hk
  simpa using List.lookup_eq_none_iff.1 h m hm

theorem map_fst_replace {key : String} {n : Node} {t : Table} :
    (t.replace key n).map (·.1) = t.map (·.1) := by
  induction t with
  | nil => rfl
  | cons m t ih =>
    unfold replace
    split <;> simp [ih]

theorem erase_sublist {key : String} {t : Table} : (t.erase key).Sublist t := by
  induction t with
  | nil => exact .slnil
  | cons m t ih =>
    unfold erase
    split
    · exact List.sublist_cons_self m t
    · exact ih.cons_cons m

theorem not_mem_keys_erase {key : String} {t : Table} (once : (t.map (·.1)).Nodup) :
    key ∉ (t.erase key).map (·.1) := by
  induction t with
  | nil => simp [erase]
  | cons m t ih =>
    obtain ⟨fresh, once⟩ := List.nodup_cons.1 once
    unfold erase
    split
    next same => exact same ▸ fresh
    next other => simpa [Ne.symm other] using ih once

end Table

namespace Kept

variable {P : Json → Prop}

/-! ## Adding to a table -/

/-- What is kept of the value that a table becomes. -/
theorem toJson_iff (kept : Kept P) {t : Table} :
    P t.toJson ↔ (t.map (·.1)).Nodup ∧ ∀ m ∈ t, P m.2.toJson := by
  rw [Table.toJson, membersToJson_eq_map, kept.table, List.map_map, List.forall_mem_map]
  exact Iff.rfl

theorem tables_iff (kept : Kept P) {ts : List Table} :
    P (Node.tables ts).toJson ↔ ∀ t ∈ ts, P t.toJson := by
  simp only [Node.toJson, kept.list, mem_tablesToJson, List.not_mem_nil, false_or]
  constructor
  · intro h t ht
    exact h _ ⟨t, ht, rfl⟩
  · rintro h _ ⟨t, ht, rfl⟩
    exact h t ht

theorem nil (kept : Kept P) : P (Table.toJson []) :=
  kept.toJson_iff.2 ⟨List.nodup_nil, List.forall_mem_nil _⟩

theorem of_lookup (kept : Kept P) {t : Table} {key : String} {n : Node} (h : P t.toJson)
    (found : t.lookup key = some n) : P n.toJson := by
  obtain ⟨before, after, rfl, _⟩ := List.lookup_eq_some_iff.1 found
  exact (kept.toJson_iff.1 h).2 _ (List.mem_append_right before (.head after))

/-- A key that is not there yet can be added. -/
theorem append (kept : Kept P) {t : Table} {key : String} {n : Node} (h : P t.toJson)
    (fresh : key ∉ t.map (·.1)) (hn : P n.toJson) :
    P (Table.toJson (t ++ [(key, n)])) := by
  obtain ⟨once, nodes⟩ := kept.toJson_iff.1 h
  refine kept.toJson_iff.2 ⟨?_, fun m hm => ?_⟩
  · rw [List.map_append, List.map_singleton, ← List.concat_eq_append]
    exact once.concat fresh
  · rcases List.mem_append.1 hm with hm | hm
    · exact nodes m hm
    · rw [List.mem_singleton.1 hm]
      exact hn

/-- What a key has can be put in the place of something else. -/
theorem replace (kept : Kept P) {t : Table} {key : String} {n : Node} (h : P t.toJson)
    (hn : P n.toJson) : P (t.replace key n).toJson := by
  obtain ⟨once, nodes⟩ := kept.toJson_iff.1 h
  refine kept.toJson_iff.2 ⟨by rwa [Table.map_fst_replace], ?_⟩
  clear h once
  induction t with
  | nil => exact List.forall_mem_nil _
  | cons m t ih =>
    obtain ⟨here, below⟩ := List.forall_mem_cons.1 nodes
    unfold Table.replace
    split
    · exact List.forall_mem_cons.2 ⟨hn, below⟩
    · exact List.forall_mem_cons.2 ⟨here, ih below⟩

/-- What a key has can be moved to the end. -/
theorem moveToEnd (kept : Kept P) {t : Table} {key : String} {n : Node} (h : P t.toJson)
    (hn : P n.toJson) : P (Table.toJson (t.erase key ++ [(key, n)])) := by
  obtain ⟨once, nodes⟩ := kept.toJson_iff.1 h
  have rest : P (t.erase key).toJson :=
    kept.toJson_iff.2 ⟨(Table.erase_sublist.map _).nodup once,
      fun m hm => nodes m (Table.erase_sublist.subset hm)⟩
  exact kept.append rest (Table.not_mem_keys_erase once) hn


/-- A change somewhere in a table keeps what the change itself keeps. -/
theorem of_update (kept : Kept P) {origin here : Origin} {change : Origin → Table → Option Table}
    (keeps : ∀ o u u', P u.toJson → change o u = some u' → P u'.toJson)
    {path : List String} {t t' : Table} (h : P t.toJson)
    (changed : Table.update origin change here path t = some t') : P t'.toJson := by
  induction path generalizing here t t' with
  | nil => exact keeps here t t' h changed
  | cons key path ih =>
    unfold Table.update at changed
    split at changed
    next missing =>
      obtain ⟨u, hu, rfl⟩ := Option.map_eq_some_iff.1 changed
      exact kept.append h (Table.not_mem_keys_of_lookup missing) (ih kept.nil hu)
    next => contradiction
    next o u found =>
      split at changed
      · contradiction
      · obtain ⟨u', hu, rfl⟩ := Option.map_eq_some_iff.1 changed
        exact kept.replace h (ih (kept.of_lookup h found) hu)
    next => contradiction
    next u us found =>
      obtain ⟨u', hu, rfl⟩ := Option.map_eq_some_iff.1 changed
      have all := kept.tables_iff.1 (kept.of_lookup h found)
      obtain ⟨last, others⟩ := List.forall_mem_cons.1 all
      refine kept.replace h (kept.tables_iff.2 ?_)
      exact List.forall_mem_cons.2 ⟨ih last hu, others⟩

theorem of_insert (kept : Kept P) {t t' : Table} {path : List String} {key : String} {v : Json}
    (h : P t.toJson) (hv : P v) (inserted : t.insert path key v = some t') :
    P t'.toJson := by
  refine kept.of_update (fun o u u' hu changed => ?_) h inserted
  split at changed
  · contradiction
  · split at changed
    · contradiction
    next absent =>
      obtain rfl := Option.some.inj changed
      have missing := Option.not_isSome_iff_eq_none.1 absent
      exact kept.append hu (Table.not_mem_keys_of_lookup missing) hv

theorem of_insertAll (kept : Kept P) {t t' : Table} {pairs : List Pair} (h : P t.toJson)
    (values : ∀ p ∈ pairs, P p.value) (inserted : t.insertAll pairs = some t') :
    P t'.toJson := by
  unfold Table.insertAll at inserted
  induction pairs generalizing t with
  | nil => exact Option.some.inj inserted ▸ h
  | cons p pairs ih =>
    obtain ⟨u, hu, rest⟩ := Option.bind_eq_some_iff.1 inserted
    obtain ⟨here, below⟩ := List.forall_mem_cons.1 values
    exact ih (kept.of_insert h here hu) below rest

theorem of_openTable (kept : Kept P) {parent t : Table} {s : Section} (h : P parent.toJson)
    (values : ∀ p ∈ s.pairs, P p.value) (opened : parent.openTable s = some t) :
    P t.toJson := by
  unfold Table.openTable at opened
  split at opened
  next missing =>
    obtain ⟨u, hu, rfl⟩ := Option.map_eq_some_iff.1 opened
    have inside := kept.of_insertAll kept.nil values hu
    exact kept.append h (Table.not_mem_keys_of_lookup missing) inside
  next u found =>
    obtain ⟨u', hu, rfl⟩ := Option.map_eq_some_iff.1 opened
    have inside := kept.of_insertAll (kept.of_lookup h found) values hu
    exact kept.moveToEnd h inside
  next => contradiction

theorem of_openElement (kept : Kept P) {parent t : Table} {s : Section} (h : P parent.toJson)
    (values : ∀ p ∈ s.pairs, P p.value) (opened : parent.openElement s = some t) :
    P t.toJson := by
  unfold Table.openElement at opened
  split at opened
  next missing =>
    obtain ⟨u, hu, rfl⟩ := Option.map_eq_some_iff.1 opened
    have inside := kept.of_insertAll kept.nil values hu
    refine kept.append h (Table.not_mem_keys_of_lookup missing) (kept.tables_iff.2 ?_)
    exact List.forall_mem_singleton.2 inside
  next ts found =>
    obtain ⟨u, hu, rfl⟩ := Option.map_eq_some_iff.1 opened
    have inside := kept.of_insertAll kept.nil values hu
    have others := kept.tables_iff.1 (kept.of_lookup h found)
    exact kept.replace h (kept.tables_iff.2 (List.forall_mem_cons.2 ⟨inside, others⟩))
  next => contradiction

theorem of_addSection (kept : Kept P) {t t' : Table} {s : Section} (h : P t.toJson)
    (values : ∀ p ∈ s.pairs, P p.value) (added : t.addSection s = some t') :
    P t'.toJson := by
  refine kept.of_update (fun _ parent u hp opened => ?_) h added
  split at opened
  · exact kept.of_openElement hp values opened
  · exact kept.of_openTable hp values opened


/-! ## Values and lines -/

end Kept

theorem scalar_signed? {n : Int} {v : Json} (h : signed? n = some v) : Scalar v := by
  unfold signed? at h
  split at h
  next small =>
    obtain ⟨m, found, rfl⟩ := Option.map_eq_some_iff.1 h
    have same : m.value = n := Integer.value_of_ofInt? found
    exact .integer (same ▸ small)
  next => contradiction

theorem scalar_integer? {cs : List Char} {v : Json} (h : integer? cs = some v) : Scalar v := by
  unfold integer? at h
  split at h
  all_goals
    obtain ⟨_, _, h⟩ := Option.bind_eq_some_iff.1 h
    exact scalar_signed? h

theorem scalar_float? {cs : List Char} {v : Json} (h : float? cs = some v) : Scalar v := by
  unfold float? at h
  generalize splitSign cs = signed at h
  obtain ⟨negative, digits⟩ := signed
  obtain ⟨_, _, h⟩ := Option.bind_eq_some_iff.1 h
  obtain ⟨whole, _, h⟩ := Option.bind_eq_some_iff.1 h
  obtain ⟨fraction, _, h⟩ := Option.bind_eq_some_iff.1 h
  obtain ⟨exponent, _, h⟩ := Option.bind_eq_some_iff.1 h
  split at h
  · exact Option.some.inj h ▸ .real _
  · split at h
    · exact Option.some.inj h ▸ .undefined
    · contradiction

/-- A word stands for a value without parts, unless it is a date or a time. -/
theorem scalar_or_dateTime_of_word? {cs : List Char} {v : Json} (h : word? cs = some v) :
    Scalar v ∨ ∃ s, v = .table [(dateTimeKey, .string s)] := by
  unfold word? at h
  split_ifs at h
  · exact .inl (Option.some.inj h ▸ .bool true)
  · exact .inl (Option.some.inj h ▸ .bool false)
  · exact .inl (Option.some.inj h ▸ .undefined)
  · split at h
    next t _ => exact .inr ⟨t.text, (Option.some.inj h).symm⟩
    next =>
      rcases Option.or_eq_some_iff.1 h with h | ⟨_, h⟩
      · exact .inl (scalar_integer? h)
      · exact .inl (scalar_float? h)

namespace Kept

theorem of_word? (kept : Kept P) {cs : List Char} {v : Json} (h : word? cs = some v) : P v := by
  rcases scalar_or_dateTime_of_word? h with scalar | ⟨s, rfl⟩
  · exact kept.scalar scalar
  · exact kept.table.2 ⟨List.nodup_singleton dateTimeKey,
      List.forall_mem_singleton.2 (kept.scalar (.string s))⟩

theorem of_wordFound? (kept : Kept P) {cs : List Char} {v : Found Json cs}
    (h : wordFound? cs = some v) : P v.value := by
  obtain ⟨_, h⟩ := Option.dite_none_right_eq_some.1 h
  obtain ⟨w, hw, rfl⟩ := Option.map_eq_some_iff.1 h
  exact kept.of_word? hw

mutual

theorem of_value? (kept : Kept P) {depth : Nat} {cs : List Char} {v : Found Json cs}
    (h : value? depth cs = some v) : P v.value := by
  unfold value? at h
  split at h
  · contradiction
  next c rest =>
    split at h
    · obtain ⟨s, _, rfl⟩ := Option.map_eq_some_iff.1 h
      exact kept.scalar (.string s.value)
    · split at h
      · split at h
        · contradiction
        · obtain ⟨vs, found, rfl⟩ := Option.map_eq_some_iff.1 h
          exact kept.list.2 (kept.of_items? found)
      · split at h
        · split at h
          · contradiction
          · split at h
            · contradiction
            next ps found =>
              obtain ⟨t, ht, rfl⟩ := Option.map_eq_some_iff.1 h
              exact kept.of_insertAll kept.nil (kept.of_pairs? found) ht
        · exact kept.of_wordFound? h
termination_by (cs.length, 0)

theorem of_items? (kept : Kept P) {depth : Nat} {cs : List Char} {vs : Found (List Json) cs}
    (h : items? depth cs = some vs) : ∀ v ∈ vs.value, P v := by
  unfold items? at h
  split at h
  · contradiction
  next c rest filler =>
    have within := length_le_of_skipFiller filler
    dsimp only at h
    split at h
    · obtain rfl := Option.some.inj h
      exact List.forall_mem_nil _
    · split at h
      · contradiction
      next v first =>
        have here := kept.of_value? first
        have inItem := v.shorter_of_le within
        split at h
        next after comma =>
          have shorter := Nat.lt_trans (length_le_of_skipFiller comma) inItem
          obtain ⟨more, found, rfl⟩ := Option.map_eq_some_iff.1 h
          exact List.forall_mem_cons.2 ⟨here, kept.of_items? found⟩
        next =>
          obtain rfl := Option.some.inj h
          exact List.forall_mem_singleton.2 here
        next => contradiction
termination_by (cs.length, 1)
decreasing_by
  · rcases Nat.lt_or_eq_of_le within with shorter | equal
    · exact Prod.Lex.left _ _ shorter
    · exact equal ▸ Prod.Lex.right _ Nat.zero_lt_one
  · exact Prod.Lex.left _ _ shorter

theorem of_pairs? (kept : Kept P) {depth : Nat} {cs : List Char} {ps : Found (List Pair) cs}
    (h : pairs? depth cs = some ps) : ∀ p ∈ ps.value, P p.value := by
  unfold pairs? at h
  split at h
  · obtain rfl := Option.some.inj h
    exact List.forall_mem_nil _
  · exact kept.of_morePairs? h
termination_by (cs.length, 3)

theorem of_morePairs? (kept : Kept P) {depth : Nat} {cs : List Char} {ps : Found (List Pair) cs}
    (h : morePairs? depth cs = some ps) : ∀ p ∈ ps.value, P p.value := by
  unfold morePairs? at h
  split at h
  · contradiction
  next p first =>
    split at h
    next after comma =>
      have shorter := Nat.lt_trans (length_lt_of_skipBlanks comma) p.shorter
      obtain ⟨more, found, rfl⟩ := Option.map_eq_some_iff.1 h
      exact List.forall_mem_cons.2 ⟨kept.of_pair? first, kept.of_morePairs? found⟩
    next =>
      obtain rfl := Option.some.inj h
      exact List.forall_mem_singleton.2 (kept.of_pair? first)
    next => contradiction
termination_by (cs.length, 2)

theorem of_pair? (kept : Kept P) {depth : Nat} {cs : List Char} {p : Found Pair cs}
    (h : pair? depth cs = some p) : P p.value.value := by
  unfold pair? at h
  split at h
  · contradiction
  next key found =>
    split at h
    next rest equals =>
      have within := Nat.lt_of_le_of_lt (length_skipBlanks_le rest) (key.shorter_of_rest equals)
      obtain ⟨v, hv, rfl⟩ := Option.map_eq_some_iff.1 h
      exact kept.of_value? hv
    next => contradiction
termination_by (cs.length, 1)

end

/-! ## Documents -/

theorem keeps_header? {isArray : Bool} {cs : List Char} {line : Found Line cs}
    (h : header? isArray cs = some line) : line.value.Keeps P := by
  unfold header? at h
  split at h
  · contradiction
  · split at h
    · obtain rfl := Option.some.inj h
      trivial
    · obtain rfl := Option.some.inj h
      trivial
    · contradiction

theorem of_line? (kept : Kept P) {cs : List Char} {line : Found Line cs} (h : line? cs = some line) :
    line.value.Keeps P := by
  unfold line? at h
  split at h
  · obtain ⟨header, found, rfl⟩ := Option.map_eq_some_iff.1 h
    have read : header.value.Keeps P := keeps_header? found
    exact read
  · obtain ⟨header, found, rfl⟩ := Option.map_eq_some_iff.1 h
    have read : header.value.Keeps P := keeps_header? found
    exact read
  · obtain ⟨p, found, rfl⟩ := Option.map_eq_some_iff.1 h
    exact kept.of_pair? found

theorem of_lines? (kept : Kept P) {cs : List Char} {lines : List Line} (h : lines? cs = some lines) :
    ∀ line ∈ lines, line.Keeps P := by
  unfold lines? at h
  split at h
  · obtain rfl := Option.some.inj h
    exact List.forall_mem_nil _
  next c rest filler =>
    split at h
    · contradiction
    next line first =>
      split at h
      · contradiction
      next after ended =>
        have within := line.shorter_of_le (length_le_of_skipFiller filler)
        have shorter := Nat.lt_of_le_of_lt (length_afterLine?_le ended) within
        obtain ⟨more, found, rfl⟩ := Option.map_eq_some_iff.1 h
        exact List.forall_mem_cons.2 ⟨kept.of_line? first, kept.of_lines? found⟩
termination_by cs.length

theorem pairs_ofLines {lines : List Line} (h : ∀ line ∈ lines, line.Keeps P) :
    (∀ p ∈ (Document.ofLines lines).pairs, P p.value) ∧
      ∀ s ∈ (Document.ofLines lines).sections, ∀ p ∈ s.pairs, P p.value := by
  induction lines with
  | nil => exact ⟨List.forall_mem_nil _, List.forall_mem_nil _⟩
  | cons line lines ih =>
    obtain ⟨here, below⟩ := List.forall_mem_cons.1 h
    obtain ⟨pairs, sections⟩ := ih below
    cases line with
    | pair p => exact ⟨List.forall_mem_cons.2 ⟨here, pairs⟩, sections⟩
    | header isArray path key =>
      exact ⟨List.forall_mem_nil _, List.forall_mem_cons.2 ⟨pairs, sections⟩⟩

theorem of_addSections (kept : Kept P) {t t' : Table} {sections : List Section} (h : P t.toJson)
    (values : ∀ s ∈ sections, ∀ p ∈ s.pairs, P p.value)
    (added : sections.foldlM Table.addSection t = some t') : P t'.toJson := by
  induction sections generalizing t with
  | nil => exact Option.some.inj added ▸ h
  | cons s sections ih =>
    obtain ⟨u, hu, rest⟩ := Option.bind_eq_some_iff.1 added
    obtain ⟨here, below⟩ := List.forall_mem_cons.1 values
    exact ih (kept.of_addSection h here hu) below rest

/-- What is kept holds of every value that a text is read as. -/
theorem of_parse? (kept : Kept P) {text : String} {v : Json} (h : parse? text = some v) : P v := by
  obtain ⟨lines, hl, h⟩ := Option.bind_eq_some_iff.1 h
  obtain ⟨table, ht, h⟩ := Option.bind_eq_some_iff.1 h
  obtain rfl := Option.some.inj h
  obtain ⟨root, hr, ht⟩ := Option.bind_eq_some_iff.1 ht
  obtain ⟨pairs, sections⟩ := pairs_ofLines (kept.of_lines? hl)
  have first := kept.of_insertAll kept.nil pairs hr
  exact kept.of_addSections first sections ht

end Kept

/-! ## Keys -/

theorem kept_keysOnce : Kept Json.KeysOnce where
  scalar h := by cases h <;> trivial
  list := Json.keysOnceItems_iff
  table := and_congr_right fun _ => Json.keysOnceMembers_iff

/-- A text of TOML is read as a value in which every key occurs once. -/
theorem keysOnce_parse? {text : String} {v : Json} (h : parse? text = some v) : v.KeysOnce :=
  kept_keysOnce.of_parse? h

end SiteManifest.Toml
