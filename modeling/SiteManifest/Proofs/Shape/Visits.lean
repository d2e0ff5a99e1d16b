import SiteManifest.Proofs.Shape.Places

/-!
# Events of a visit

A visit collects, part by part, what each value of the manifest has to say by itself. So an event of
a visit is one that is found at a place, and every such event is met.

## Main statements

* `Shape.mem_visit_iff`: the events of a visit are those that are found.
-/
namespace SiteManifest

variable {rule : FieldRule} {rules : List FieldRule} {wanted : String} {first : Nat} {m : Misfit}

/-! ## Events of the parts -/

theorem Located.mem_below_iff {step : Step} {xs : List (Located α)} {x : Located α} :
    x ∈ Located.below step xs ↔ ∃ y ∈ xs, x = y.under step := by
  simp only [Located.below, List.mem_map, eq_comm]

theorem Located.mem_each_iff {look : α → List (Located β)} {as : List α} {x : Located β} :
    x ∈ Located.each look first as ↔
      ∃ i a y, as[i]? = some a ∧ y ∈ look a ∧ x = y.under (.index (first + i)) := by
  induction as generalizing first with
  | nil => simp [Located.each]
  | cons a as ih =>
    rw [Located.each, List.mem_append, mem_below_iff, ih]
    constructor
    · rintro (⟨y, hy, rfl⟩ | ⟨i, b, y, hb, hy, rfl⟩)
      · exact ⟨0, a, y, rfl, hy, rfl⟩
      · exact ⟨i + 1, b, y, hb, hy, by rw [Nat.add_assoc, Nat.add_comm 1]⟩
    · rintro ⟨_ | i, b, y, hb, hy, rfl⟩
      · obtain rfl : a = b := by simpa using hb
        exact .inl ⟨y, hy, rfl⟩
      · exact .inr ⟨i, b, y, hb, hy, by rw [Nat.add_assoc, Nat.add_comm 1]⟩

theorem mem_visitMembers_iff {keys : List String} {visit : String → Json → List Event}
    {members : Members} {e : Event} :
    e ∈ visitMembers keys visit members ↔
      ∃ m ∈ members, (m.1 ∉ keys ∧ e = ⟨[.key m.1], .unknown⟩) ∨
        (m.1 ∈ keys ∧ ∃ inner ∈ visit m.1 m.2, e = inner.under (.key m.1)) := by
  induction members with
  | nil => simp [visitMembers]
  | cons m members ih =>
    by_cases h : m.1 ∈ keys <;> simp [visitMembers, ih, h, Located.mem_below_iff]

theorem Fields.mem_visitMissing_iff (fields : Fields β) {members : Members} {e : Event} :
    e ∈ fields.visitMissing members ↔
      ∃ rule ∈ fields.rules, rule.needed = true ∧ rule.key ∉ members.map (·.1) ∧
        e = ⟨[.key rule.key], .misfit (.missing rule.key)⟩ := by
  cases fields with
  | done => simp [Fields.visitMissing, Fields.rules]
  | required key shape rest =>
    simp only [Fields.visitMissing, List.mem_append, rest.mem_visitMissing_iff, Fields.rules,
      List.mem_cons, exists_eq_or_imp, ← isSome_lookup_iff]
    cases members.lookup key <;> simp
  | optional key shape rest =>
    simp [Fields.visitMissing, Fields.rules, rest.mem_visitMissing_iff]

theorem mem_visitWord_iff {variants : Variants α} {word : String} {fit : List Event} {e : Event} :
    e ∈ visitWord variants word fit ↔
      (variants.find? word ≠ none ∧ e ∈ fit) ∨ (variants.find? word = none ∧
        e = Event.misfit (.unknownVariant word (variants.all.map variants.name))) := by
  unfold visitWord
  cases variants.find? word <;> simp

theorem mem_visitChoice_iff {variants : Variants α} {v : Json} {e : Event} :
    e ∈ visitChoice variants v ↔ ∃ m, variants.Refuse v m ∧ e = Event.misfit m := by
  constructor
  · intro h
    unfold visitChoice at h
    split at h
    next word =>
      obtain ⟨_, ⟨⟩⟩ | ⟨unknown, rfl⟩ := mem_visitWord_iff.1 h
      exact ⟨_, .word unknown, rfl⟩
    next word =>
      obtain ⟨_, ⟨⟩⟩ | ⟨unknown, rfl⟩ := mem_visitWord_iff.1 h
      exact ⟨_, .key unknown, rfl⟩
    next word v content =>
      obtain ⟨known, h⟩ | ⟨unknown, rfl⟩ := mem_visitWord_iff.1 h
      · obtain rfl := List.mem_singleton.1 h
        exact ⟨_, .content known content, rfl⟩
      · exact ⟨_, .key unknown, rfl⟩
    next members noWord one =>
      obtain rfl := List.mem_singleton.1 h
      refine ⟨_, .keys fun length => ?_, rfl⟩
      obtain ⟨⟨word, v⟩, rfl⟩ := List.length_eq_one_iff.1 length
      exact one word v rfl
    next text _ _ table =>
      obtain rfl := List.mem_singleton.1 h
      exact ⟨_, .kind text table, rfl⟩
  · rintro ⟨m, refuse, rfl⟩
    cases refuse with
    | word unknown => exact mem_visitWord_iff.2 (.inr ⟨unknown, rfl⟩)
    | @key word v unknown => cases v <;> exact mem_visitWord_iff.2 (.inr ⟨unknown, rfl⟩)
    | @content word v known content =>
      cases v with
      | null => exact absurd rfl content
      | bool | number | string | list | table =>
        exact mem_visitWord_iff.2 (.inl ⟨known, List.mem_singleton_self _⟩)
    | @keys members length =>
      rcases members with _ | ⟨member, _ | ⟨next, members⟩⟩
      · simp [visitChoice]
      · exact absurd rfl length
      · simp [visitChoice]
    | kind text table => cases v <;> simp_all [visitChoice]

theorem Fields.mem_keys_of_lookup_wanted (fields : Fields β) {key : String} {x : Wanted}
    (h : fields.wanted.lookup key = some x) : key ∈ fields.keys := by
  match fields with
  | .done => contradiction
  | .required name shape rest | .optional name shape rest =>
    by_cases same : key = name
    · exact same ▸ List.mem_cons_self
    · rw [Fields.wanted, List.lookup_cons, beq_false_of_ne same] at h
      exact List.mem_cons_of_mem name (rest.mem_keys_of_lookup_wanted h)

/-- A record wants nothing under a key that it does not have. -/
theorem Wanted.mem_keys_of_part? {w x : Wanted} {rules : List FieldRule} {key : String}
    (hr : w.rules? = some rules) (hx : w.part? (.key key) = some x) : key ∈ rules.map (·.key) := by
  unfold rules? at hr
  split at hr
  case h_3 => contradiction
  all_goals
    obtain rfl := Option.some.inj hr
    rw [← Fields.keys_eq_map_rules]
    exact Fields.mem_keys_of_lookup_wanted _ hx

/-- A value is a list, a table or none of both. -/
theorem Json.list_or_table (v : Json) :
    (∃ vs, v = .list vs) ∨ (∃ members, v = .table members) ∨
      (∀ vs, v ≠ .list vs) ∧ ∀ members, v ≠ .table members := by
  cases v <;> simp

theorem visitItems_scalar {visit : Json → List Event} {v : Json} (h : ∀ vs, v ≠ .list vs) :
    visitItems visit v = [Event.misfit (.mistyped v "a sequence")] := by
  unfold visitItems
  split <;> simp_all

theorem visitRecord_scalar {name : String} {onTable : Members → List Event}
    {onList : List Json → List Event} {v : Json} (hl : ∀ vs, v ≠ .list vs)
    (ht : ∀ members, v ≠ .table members) :
    visitRecord name onTable onList v = [Event.misfit (.mistyped v ("struct " ++ name))] := by
  unfold visitRecord
  split <;> simp_all

theorem visitListOrTable_scalar {wanted : String} {visit : Json → List Event}
    {onTable : Members → List Event} {v : Json} (hl : ∀ vs, v ≠ .list vs)
    (ht : ∀ members, v ≠ .table members) :
    visitListOrTable wanted visit onTable v = [Event.misfit (.mistyped v wanted)] := by
  unfold visitListOrTable
  split <;> simp_all

namespace Wanted

/-- What is found in a list of items of one shape. -/
theorem finds_list_iff {w : Wanted} {item : Shape α} (hp : ¬w.IsPair)
    (hw : ∀ i, w.part? (.index i) = some (.shape item)) {vs : List Json} {e : Event}
    (fit : ∀ m, ¬w.Refuses (.list vs) m)
    (spec : ∀ v ∈ vs, ∀ e, e ∈ item.visit v ↔ (Wanted.shape item).Finds v e) :
    e ∈ Located.each item.visit 0 vs ↔ w.Finds (.list vs) e := by
  rw [finds_iff, Located.mem_each_iff]
  constructor
  · rintro ⟨i, v, inner, hv, hi, rfl⟩
    refine .inr ⟨.index i, _, v, inner, hw i, hv, ?_, by rw [Nat.zero_add]⟩
    exact (spec v (List.mem_of_getElem? hv) inner).1 hi
  · rintro (raises | ⟨step, x, v, inner, hx, hv, finds, rfl⟩)
    · cases raises with
      | surplus pair => exact absurd pair hp
      | refused refuses => exact absurd refuses (fit _)
    · cases step with
      | key => contradiction
      | index i =>
        obtain rfl := Option.some.inj ((hw i).symm.trans hx)
        refine ⟨i, v, inner, hv, ?_, by rw [Nat.zero_add]⟩
        exact (spec v (List.mem_of_getElem? hv) inner).2 finds

/-- What is found in a table of a record. -/
theorem finds_table_iff {w : Wanted} {fields : Fields β} (hr : w.rules? = some fields.rules)
    (hw : ∀ key, w.part? (.key key) = fields.wanted.lookup key) {members : Members} {e : Event}
    (once : (members.map (·.1)).Nodup) (fit : ∀ m, ¬w.Refuses (.table members) m)
    (spec : ∀ m ∈ members, ∀ e, e ∈ fields.visitKey m.1 m.2 ↔
      ∃ x, fields.wanted.lookup m.1 = some x ∧ x.Finds m.2 e) :
    e ∈ visitMembers fields.keys fields.visitKey members ++ fields.visitMissing members ↔
      w.Finds (.table members) e := by
  rw [finds_iff, List.mem_append, mem_visitMembers_iff, fields.mem_visitMissing_iff,
    fields.keys_eq_map_rules]
  constructor
  · rintro (⟨m, hm, ⟨other, rfl⟩ | ⟨_, inner, hi, rfl⟩⟩ | ⟨rule, hrule, needed, absent, rfl⟩)
    · exact .inl (.unknown hr (List.mem_map_of_mem hm) other)
    · obtain ⟨x, hx, finds⟩ := (spec m hm inner).1 hi
      have found := (Json.mem_iff_lookup_eq_some once).1 hm
      exact .inr ⟨.key m.1, x, m.2, inner, (hw m.1).trans hx, found, finds, rfl⟩
    · exact .inl (.missing hr hrule needed absent)
  · rintro (raises | ⟨step, x, v, inner, hx, hv, finds, rfl⟩)
    · cases raises with
      | unknown hr' hk other =>
        obtain rfl := Option.some.inj (hr.symm.trans hr')
        obtain ⟨m, hm, rfl⟩ := List.mem_map.1 hk
        exact .inl ⟨m, hm, .inl ⟨other, rfl⟩⟩
      | missing hr' hrule needed absent =>
        obtain rfl := Option.some.inj (hr.symm.trans hr')
        exact .inr ⟨_, hrule, needed, absent, rfl⟩
      | refused refuses => exact absurd refuses (fit _)
    · cases step with
      | index => contradiction
      | key key =>
        have hm : (key, v) ∈ members := mem_of_lookup hv
        have hx : fields.wanted.lookup key = some x := (hw key).symm.trans hx
        have known : key ∈ fields.rules.map (·.key) := by
          rw [← fields.keys_eq_map_rules]
          exact fields.mem_keys_of_lookup_wanted hx
        exact .inl ⟨_, hm, .inr ⟨known, inner, (spec _ hm inner).2 ⟨x, hx, finds⟩, rfl⟩⟩

theorem mem_visitText_iff {v : Json} {e : Event} :
    e ∈ visitText v ↔ (Wanted.shape .text).Finds v e := by
  rw [finds_leaf_iff (by rintro (_ | _) <;> rfl) rfl id]
  cases v <;> simp [visitText, Refuses]

theorem mem_visitOptions_iff {v : Json} {e : Event} :
    e ∈ visitOptions v ↔ Wanted.options.Finds v e := by
  rw [finds_leaf_iff (by rintro (_ | _) <;> rfl) rfl id]
  cases v <;> simp [visitOptions, Refuses]

theorem mem_visitParts_iff {wanted : String} {vs : List Json} {e : Event} :
    e ∈ visitParts wanted vs ↔
      (∃ v inner, vs[0]? = some v ∧ (Wanted.shape .text).Finds v inner ∧
          e = inner.under (.index 0)) ∨
        (∃ v inner, vs[1]? = some v ∧ Wanted.options.Finds v inner ∧
          e = inner.under (.index 1)) ∨
        (2 < vs.length ∧ e = ⟨[.index 2], .unknown⟩) ∨
        (vs.length ≠ 2 ∧ e = Event.misfit (.wrongLength (min vs.length 3) wanted)) := by
  match vs with
  | [] => simp [visitParts]
  | [_] => simp [visitParts, Located.each, Located.mem_below_iff, mem_visitText_iff]
  | [_, _] =>
    simp [visitParts, Located.each, Located.mem_below_iff, mem_visitText_iff, mem_visitOptions_iff]
  | _ :: _ :: _ :: _ =>
    simp [visitParts, Located.each, Located.mem_below_iff, mem_visitText_iff, mem_visitOptions_iff]

theorem mem_visitNameOrPair_iff {wanted : String} {v : Json} {e : Event}
    (hl : ∀ vs, v ≠ .list vs) :
    e ∈ visitNameOrPair wanted v ↔ ∃ m, RefusePair wanted v m ∧ e = Event.misfit m := by
  unfold visitNameOrPair
  split
  next name =>
    constructor
    · exact fun h => absurd h List.not_mem_nil
    · rintro ⟨_, _ | ⟨text, _⟩, _⟩
      exact absurd rfl (text name)
  next vs => exact absurd rfl (hl vs)
  next text _ =>
    rw [List.mem_singleton]
    constructor
    · rintro rfl
      exact ⟨_, .kind text hl, rfl⟩
    · rintro ⟨_, ⟨_⟩ | _, rfl⟩
      · exact absurd rfl (hl _)
      · rfl

theorem finds_pair_iff {wanted : String} {packing : Packing (String ⊕ String × Members) α}
    {v : Json} {e : Event} :
    (Wanted.shape (.nameOrPair wanted packing)).Finds v e ↔ e ∈ visitNameOrPair wanted v := by
  rcases v.list_or_table with ⟨vs, rfl⟩ | ⟨members, rfl⟩ | ⟨list, table⟩
  · rw [visitNameOrPair, mem_visitParts_iff, finds_iff]
    constructor
    · rintro (raises | ⟨step, x, v, inner, hx, hv, finds, rfl⟩)
      · cases raises with
        | surplus _ long => exact .inr (.inr (.inl ⟨long, rfl⟩))
        | refused refuse =>
          cases refuse with
          | length length => exact .inr (.inr (.inr ⟨length, rfl⟩))
          | kind _ list => exact absurd rfl (list vs)
      · match step with
        | .index 0 =>
          obtain rfl := Option.some.inj hx
          exact .inl ⟨v, inner, hv, finds, rfl⟩
        | .index 1 =>
          obtain rfl := Option.some.inj hx
          exact .inr (.inl ⟨v, inner, hv, finds, rfl⟩)
        | .index (_ + 2) | .key _ => contradiction
    · rintro (⟨v, inner, hv, finds, rfl⟩ | ⟨v, inner, hv, finds, rfl⟩ | ⟨long, rfl⟩ | ⟨length, rfl⟩)
      · exact .inr ⟨.index 0, _, v, inner, rfl, hv, finds, rfl⟩
      · exact .inr ⟨.index 1, _, v, inner, rfl, hv, finds, rfl⟩
      · exact .inl (.surplus trivial long)
      · exact .inl (.refused (.length length))
  · rw [mem_visitNameOrPair_iff (by simp),
      finds_iff_raises (by rintro (_ | _); exacts [.inl rfl, .inr rfl]),
      raises_iff_refuses (v := .table members) (.inl rfl) (.inr (by simp))]
    rfl
  · rw [mem_visitNameOrPair_iff list, finds_scalar_iff list table]
    rfl

end Wanted

/-! ## Rows -/

theorem refuseRow_nil_iff {vs : List Json} :
    RefuseRow [] wanted first vs m ↔
      vs ≠ [] ∧ m = .wrongLength (first + vs.length) "fewer elements in array" := by
  constructor
  · rintro (h | h)
    · exact ⟨List.length_pos_iff.1 h, rfl⟩
    · simp at h
  · rintro ⟨h, rfl⟩
    exact .long (List.length_pos_iff.2 h)

theorem refuseRow_cons_iff {v : Json} {vs : List Json} :
    RefuseRow (rule :: rules) wanted first (v :: vs) m ↔
      RefuseRow rules wanted (first + 1) vs m := by
  have shift : first + (v :: vs).length = first + 1 + vs.length := by
    simp only [List.length_cons]
    omega
  constructor
  · rintro (h | h) <;> rw [shift]
    · exact .long (by simpa using h)
    · exact .short (by simpa using h)
  · rintro (h | h) <;> rw [← shift]
    · exact .long (by simpa using h)
    · exact .short (by simpa using h)

/-- A row that has ended is too short if the next field is needed, and else it goes on behind it. -/
theorem refuseRow_end_iff :
    RefuseRow (rule :: rules) wanted first [] m ↔
      if rule.needed then m = .wrongLength first wanted
      else RefuseRow rules wanted (first + 1) [] m := by
  constructor
  · intro h
    cases h with
    | long h => simp at h
    | @short i h =>
      rw [List.length_nil, List.drop_zero, List.findIdx?_cons] at h
      cases needed : rule.needed with
      | true =>
        obtain rfl : 0 = i := by simpa [needed] using h
        rfl
      | false =>
        obtain ⟨j, hj, rfl⟩ : ∃ j, rules.findIdx? (·.needed) = some j ∧ j + 1 = i := by
          simpa [needed] using h
        rw [if_neg (by simp), List.length_nil, Nat.add_zero, Nat.add_comm j, ← Nat.add_assoc]
        exact .short hj
  · intro h
    cases needed : rule.needed with
    | true =>
      obtain rfl : m = .wrongLength first wanted := by simpa [needed] using h
      exact .short (i := 0) (by simp [List.findIdx?_cons, needed])
    | false =>
      rw [needed, if_neg (by simp)] at h
      cases h with
      | long h => simp at h
      | @short i h =>
        rw [List.length_nil, Nat.add_zero, Nat.add_assoc, Nat.add_comm 1]
        exact .short (by simpa [List.findIdx?_cons, needed] using h)

/-- What is found in one of the fields of a row that starts at a position. -/
def FindsInRow (fields : List (String × Wanted)) (first : Nat) (vs : List Json) (e : Event) :
    Prop :=
  ∃ (i : Nat) (x : String × Wanted) (v : Json) (inner : Event), fields[i]? = some x ∧
    vs[i]? = some v ∧ x.2.Finds v inner ∧ e = inner.under (.index (first + i))

theorem not_findsInRow_done {vs : List Json} {e : Event} : ¬FindsInRow [] first vs e := by
  simp [FindsInRow]

theorem not_findsInRow_nil {fields : List (String × Wanted)} {e : Event} :
    ¬FindsInRow fields first [] e := by
  simp [FindsInRow]

theorem findsInRow_cons_iff {x : String × Wanted} {fields : List (String × Wanted)} {v : Json}
    {vs : List Json} {e : Event} :
    FindsInRow (x :: fields) first (v :: vs) e ↔
      (∃ inner, x.2.Finds v inner ∧ e = inner.under (.index first)) ∨
        FindsInRow fields (first + 1) vs e := by
  constructor
  · rintro ⟨_ | i, y, u, inner, hy, hu, finds, rfl⟩
    · obtain rfl : x = y := by simpa using hy
      obtain rfl : v = u := by simpa using hu
      exact .inl ⟨inner, finds, rfl⟩
    · refine .inr ⟨i, y, u, inner, by simpa using hy, by simpa using hu, finds, ?_⟩
      rw [Nat.add_assoc, Nat.add_comm 1]
  · rintro (⟨inner, finds, rfl⟩ | ⟨i, y, u, inner, hy, hu, finds, rfl⟩)
    · exact ⟨0, x, v, inner, rfl, rfl, finds, rfl⟩
    · refine ⟨i + 1, y, u, inner, by simpa using hy, by simpa using hu, finds, ?_⟩
      rw [Nat.add_assoc, Nat.add_comm 1]

theorem finds_row_iff {name : String} {fields : Fields β} {packing : Packing β α}
    {vs : List Json} {e : Event} :
    (Wanted.shape (.record name fields packing)).Finds (.list vs) e ↔
      (∃ m, RefuseRow fields.rules (recordWanted name fields.rules.length) 0 vs m ∧
          e = Event.misfit m) ∨ FindsInRow fields.wanted 0 vs e := by
  rw [Wanted.finds_iff, Wanted.raises_iff_refuses (v := .list vs) (.inr (by simp)) (.inl id)]
  refine or_congr ?_ ?_
  · constructor
    · rintro ⟨m, ⟨row⟩ | ⟨list, _⟩, rfl⟩
      · exact ⟨m, row, rfl⟩
      · exact absurd rfl (list vs)
    · rintro ⟨m, row, rfl⟩
      exact ⟨m, .row row, rfl⟩
  · constructor
    · rintro ⟨_ | i, x, v, inner, hx, hv, finds, rfl⟩
      · contradiction
      · obtain ⟨y, hy, rfl⟩ := Option.map_eq_some_iff.1 hx
        exact ⟨i, y, v, inner, hy, hv, finds, by rw [Nat.zero_add]⟩
    · rintro ⟨i, x, v, inner, hx, hv, finds, rfl⟩
      refine ⟨.index i, x.2, v, inner, ?_, hv, finds, by rw [Nat.zero_add]⟩
      exact Option.map_eq_some_iff.2 ⟨x, hx, rfl⟩

mutual

/-- A visit meets exactly what is found. -/
theorem Shape.mem_visit_iff (s : Shape α) (once : s.KeysOnce) {v : Json} (vOnce : v.KeysOnce)
    {e : Event} : e ∈ s.visit v ↔ (Wanted.shape s).Finds v e := by
  match s with
  | .text => exact Wanted.mem_visitText_iff
  | .flag =>
    rw [Wanted.finds_leaf_iff (by rintro (_ | _) <;> rfl) rfl id]
    cases v <;> simp [Shape.visit, visitFlag, Wanted.Refuses]
  | .choice variants =>
    rw [Wanted.finds_leaf_iff (by rintro (_ | _) <;> rfl) rfl id]
    exact mem_visitChoice_iff
  | .list item =>
    rcases v.list_or_table with ⟨vs, rfl⟩ | ⟨members, rfl⟩ | ⟨list, table⟩
    · have spec := fun w hw e =>
        item.mem_visit_iff once (Json.keysOnceItems_iff.1 vOnce w hw) (e := e)
      exact Wanted.finds_list_iff id (fun _ => rfl) (by simp [Wanted.Refuses]) spec
    · rw [Wanted.finds_iff_raises (by rintro (_ | _); exacts [.inl rfl, .inr rfl]),
        Wanted.raises_iff_refuses (.inl rfl) (.inl id)]
      simp [Shape.visit, visitItems, Wanted.Refuses]
    · rw [Wanted.finds_scalar_iff list table, Shape.visit, visitItems_scalar list]
      simp [Wanted.Refuses, list]
  | .record name fields packing =>
    rcases v.list_or_table with ⟨vs, rfl⟩ | ⟨members, rfl⟩ | ⟨list, table⟩
    · have row := fields.mem_visitFields_iff once (recordWanted name fields.keys.length) 0
        (Json.keysOnceItems_iff.1 vOnce) (e := e)
      have length : fields.keys.length = fields.rules.length := by
        rw [fields.keys_eq_map_rules, List.length_map]
      rw [finds_row_iff, ← length]
      exact row
    · have spec := fun (m : String × Json) hm e =>
        fields.mem_visitKey_iff once m.1 (Json.keysOnceMembers_iff.1 vOnce.2 m hm) (e := e)
      have fit (cause : Misfit) :
          ¬(Wanted.shape (.record name fields packing)).Refuses (.table members) cause := by
        rintro (_ | ⟨_, table⟩)
        exact table members rfl
      exact Wanted.finds_table_iff rfl (fun _ => rfl) vOnce.1 fit spec
    · rw [Wanted.finds_scalar_iff list table, Shape.visit, visitRecord_scalar list table]
      constructor
      · intro h
        obtain rfl := List.mem_singleton.1 h
        exact ⟨_, .kind list table, rfl⟩
      · rintro ⟨m, ⟨_⟩ | _, rfl⟩
        · exact absurd rfl (list _)
        · exact List.mem_singleton_self _
  | .listOrTable wanted item fields packing =>
    rcases v.list_or_table with ⟨vs, rfl⟩ | ⟨members, rfl⟩ | ⟨list, table⟩
    · have spec := fun w hw e =>
        item.mem_visit_iff once.1 (Json.keysOnceItems_iff.1 vOnce w hw) (e := e)
      exact Wanted.finds_list_iff id (fun _ => rfl) (by simp [Wanted.Refuses]) spec
    · have spec := fun (m : String × Json) hm e =>
        fields.mem_visitKey_iff once.2 m.1 (Json.keysOnceMembers_iff.1 vOnce.2 m hm) (e := e)
      exact Wanted.finds_table_iff rfl (fun _ => rfl) vOnce.1 (by simp [Wanted.Refuses]) spec
    · rw [Wanted.finds_scalar_iff list table, Shape.visit, visitListOrTable_scalar list table]
      simp [Wanted.Refuses, list, table]
  | .nameOrPair wanted packing => exact Wanted.finds_pair_iff.symm

theorem Fields.mem_visitKey_iff (fields : Fields β) (once : fields.KeysOnce) (key : String)
    {v : Json} (vOnce : v.KeysOnce) {e : Event} :
    e ∈ fields.visitKey key v ↔ ∃ x, fields.wanted.lookup key = some x ∧ x.Finds v e := by
  match fields with
  | .done => simp [Fields.visitKey, Fields.wanted]
  | .required name shape rest | .optional name shape rest =>
    have here := shape.mem_visit_iff once.2.1 vOnce (e := e)
    by_cases same : key = name
    · obtain rfl := same
      simp [Fields.visitKey, Fields.wanted, rest.visitKey_eq_nil once.1, here]
    · have other : (key == name) = false := beq_false_of_ne same
      simp [Fields.visitKey, Fields.wanted, List.lookup_cons, same, other,
        rest.mem_visitKey_iff once.2.2 key vOnce]

theorem Fields.mem_visitFields_iff (fields : Fields β) (once : fields.KeysOnce) (wanted : String)
    (first : Nat) {vs : List Json} (vsOnce : ∀ v ∈ vs, v.KeysOnce) {e : Event} :
    e ∈ fields.visitFields wanted first vs ↔
      (∃ m, RefuseRow fields.rules wanted first vs m ∧ e = Event.misfit m) ∨
        FindsInRow fields.wanted first vs e := by
  match fields, vs with
  | .done, vs =>
    simp only [Fields.visitFields, Fields.rules, Fields.wanted, refuseRow_nil_iff,
      not_findsInRow_done, or_false]
    cases vs <;> simp
  | .required key shape rest, [] =>
    simp [Fields.visitFields, Fields.rules, refuseRow_end_iff, not_findsInRow_nil]
  | .optional key shape rest, [] =>
    have below := rest.mem_visitFields_iff once.2.2 wanted (first + 1) vsOnce (e := e)
    simp only [not_findsInRow_nil, or_false] at below
    simp [Fields.visitFields, Fields.rules, refuseRow_end_iff, not_findsInRow_nil, below]
  | .required key shape rest, v :: vs | .optional key shape rest, v :: vs =>
    obtain ⟨vOnce, vsOnce⟩ := List.forall_mem_cons.1 vsOnce
    have here (inner : Event) := shape.mem_visit_iff once.2.1 vOnce (e := inner)
    have below := rest.mem_visitFields_iff once.2.2 wanted (first + 1) vsOnce (e := e)
    simp only [Fields.visitFields, List.head?_cons, Option.elim_some, List.tail_cons,
      List.mem_append, Located.mem_below_iff, here, below, Fields.rules, Fields.wanted,
      refuseRow_cons_iff, findsInRow_cons_iff]
    exact or_left_comm

end

end SiteManifest
