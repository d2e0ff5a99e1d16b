import SiteManifest.Proofs.Shape.Reading

/-!
# The grammar of a shape

Which values a shape takes and what they stand for, said of the value alone and without an order of
reading. Decoding succeeds exactly on the values of the grammar and gives what they stand for.

## Main statements

* `Shape.allFit_visit_iff`: a visit meets no misfit exactly in the values of the grammar.
* `Shape.read_eq_some_iff`: what is read from such a value is what it holds.
-/
namespace SiteManifest

/-! ## Values of a shape -/

/-- A field of a record: its key, whether the record needs it, and the values it takes. -/
structure FieldRule where
  key : String
  needed : Bool
  Takes : Json → Prop

/-- A table that has every key it needs and only fitting values under the keys of the rules. Other
keys do not matter. -/
def IsTableOf (rules : List FieldRule) (members : Members) : Prop :=
  ∀ rule ∈ rules, (rule.needed = true → ∃ v, (rule.key, v) ∈ members) ∧
    ∀ v, (rule.key, v) ∈ members → rule.Takes v

/-- A list of fields by position: not longer than the rules, long enough for those that are needed,
and fitting at every position. -/
def IsRowOf (rules : List FieldRule) (vs : List Json) : Prop :=
  vs.length ≤ rules.length ∧
    ∀ (i : Nat) (rule : FieldRule), rules[i]? = some rule →
      (rule.needed = true → i < vs.length) ∧ ∀ v, vs[i]? = some v → rule.Takes v

mutual

def Shape.Accepts : Shape α → Json → Prop
  | .text, v => ∃ s, v = .string s
  | .flag, v => ∃ b, v = .bool b
  | .choice variants, v =>
    ∃ a, v = .string (variants.name a) ∨ v = .table [(variants.name a, .null)]
  | .list item, v => ∃ vs, v = .list vs ∧ ∀ w ∈ vs, item.Accepts w
  | .record _ fields _, v =>
    (∃ members, v = .table members ∧ IsTableOf fields.rules members) ∨
      ∃ vs, v = .list vs ∧ IsRowOf fields.rules vs
  | .listOrTable _ item fields _, v =>
    (∃ vs, v = .list vs ∧ ∀ w ∈ vs, item.Accepts w) ∨
      ∃ members, v = .table members ∧ IsTableOf fields.rules members
  | .nameOrPair _ _, v =>
    (∃ name, v = .string name) ∨ ∃ name options, v = .list [.string name, .table options]

def Fields.rules : Fields β → List FieldRule
  | .done => []
  | .required key shape rest => ⟨key, true, shape.Accepts⟩ :: rest.rules
  | .optional key shape rest => ⟨key, false, shape.Accepts⟩ :: rest.rules

end

/-! ## What a value stands for -/

/-- The value of a field, found by its position or by its key. -/
abbrev Source := Nat → String → Option Json

def Source.ofTable (members : Members) : Source := fun _ key => members.lookup key

def Source.ofRow (vs : List Json) : Source := fun i _ => vs[i]?

mutual

/-- A value stands for something of a type: every part of it is what is written in its place. -/
def Shape.Holds : Shape α → Json → α → Prop
  | .text, v, s => v = .string s
  | .flag, v, b => v = .bool b
  | .choice variants, v, a =>
    v = .string (variants.name a) ∨ v = .table [(variants.name a, .null)]
  | .list item, v, as => ∃ vs, v = .list vs ∧ List.Forall₂ item.Holds vs as
  | .record _ fields packing, v, a =>
    (∃ members, v = .table members ∧
        fields.Hold (Source.ofTable members) 0 (packing.unpack a)) ∨
      ∃ vs, v = .list vs ∧ vs.length ≤ fields.keys.length ∧
        fields.Hold (Source.ofRow vs) 0 (packing.unpack a)
  | .listOrTable _ item fields packing, v, a =>
    (∃ vs as, v = .list vs ∧ List.Forall₂ item.Holds vs as ∧ packing.unpack a = .inl as) ∨
      ∃ members b, v = .table members ∧ fields.Hold (Source.ofTable members) 0 b ∧
        packing.unpack a = .inr b
  | .nameOrPair _ packing, v, a =>
    (∃ name, v = .string name ∧ packing.unpack a = .inl name) ∨
      ∃ name options, v = .list [.string name, .table options] ∧
        packing.unpack a = .inr (name, options)

/-- Fields from a position on. An optional one is absent exactly if its value is. -/
def Fields.Hold (source : Source) (i : Nat) : Fields β → β → Prop
  | .done, () => True
  | .required key shape rest, (a, b) =>
    (∃ v, source i key = some v ∧ shape.Holds v a) ∧ rest.Hold source (i + 1) b
  | .optional key shape rest, (a, b) =>
    Option.Rel shape.Holds (source i key) a ∧ rest.Hold source (i + 1) b

end

/-! ## Records -/

theorem isRowOf_nil {vs : List Json} : IsRowOf [] vs ↔ vs = [] := by
  simp [IsRowOf]

/-- A row of a first rule and more: the head, if there is one, fits the first rule. -/
theorem isRowOf_cons {rule : FieldRule} {rules : List FieldRule} {vs : List Json} :
    IsRowOf (rule :: rules) vs ↔
      ((rule.needed = true → vs ≠ []) ∧ ∀ v ∈ vs.head?, rule.Takes v) ∧ IsRowOf rules vs.tail := by
  constructor
  · rintro ⟨length, fits⟩
    have first := fits 0 rule rfl
    refine ⟨⟨fun needed => ?_, fun v hv => first.2 v ?_⟩, ?_, fun i r hr => ?_⟩
    · exact List.length_pos_iff.1 (first.1 needed)
    · simpa [List.head?_eq_getElem?] using hv
    · simp only [List.length_cons] at length
      simp only [List.length_tail]
      omega
    · have next := fits (i + 1) r (by simpa using hr)
      refine ⟨fun needed => ?_, fun v hv => next.2 v (by simpa using hv)⟩
      have := next.1 needed
      simp only [List.length_tail]
      omega
  · rintro ⟨⟨needed, takes⟩, length, fits⟩
    simp only [List.length_tail] at length fits
    refine ⟨by simp only [List.length_cons]; omega, fun i r hr => ?_⟩
    cases i with
    | zero =>
      obtain rfl : rule = r := by simpa using hr
      exact ⟨fun h => List.length_pos_iff.2 (needed h),
        fun v hv => takes v (by simpa [List.head?_eq_getElem?] using hv)⟩
    | succ i =>
      have next := fits i r (by simpa using hr)
      refine ⟨fun h => ?_, fun v hv => next.2 v (by simpa using hv)⟩
      have := next.1 h
      omega

theorem Fields.keys_eq_map_rules (fields : Fields β) : fields.keys = fields.rules.map (·.key) := by
  match fields with
  | .done => rfl
  | .required key shape rest | .optional key shape rest =>
    simp [Fields.keys, Fields.rules, rest.keys_eq_map_rules]

theorem Fields.allFit_visitMissing_iff (fields : Fields β) (members : Members) :
    AllFit (fields.visitMissing members) ↔
      ∀ rule ∈ fields.rules, rule.needed = true → ∃ v, (rule.key, v) ∈ members := by
  have lookup (key : String) : (members.lookup key).isSome ↔ ∃ v, (key, v) ∈ members := by
    simp [List.lookup_isSome_iff]
  match fields with
  | .done => simp [Fields.visitMissing, Fields.rules]
  | .required key shape rest =>
    by_cases h : (members.lookup key).isSome
    · simp [Fields.visitMissing, Fields.rules, h, rest.allFit_visitMissing_iff members,
        (lookup key).1 h]
    · have absent : ¬∃ v, (key, v) ∈ members := fun found => h ((lookup key).2 found)
      simp only [Fields.visitMissing, Fields.rules, h]
      simp [absent]
  | .optional key shape rest =>
    simp [Fields.visitMissing, Fields.rules, rest.allFit_visitMissing_iff members]

/-! ## Visits and the grammar -/

theorem allFit_visitChoice_iff {variants : Variants α} {v : Json} :
    AllFit (visitChoice variants v) ↔
      ∃ a, v = .string (variants.name a) ∨ v = .table [(variants.name a, .null)] := by
  constructor
  · intro fit
    obtain ⟨a, ha⟩ := Option.isSome_iff_exists.1 (isSome_readChoice fit)
    exact ⟨a, readChoice_eq_some_iff.1 ha⟩
  · rintro ⟨a, rfl | rfl⟩ <;> simp [visitChoice, visitWord, Variants.find?_name]

theorem allFit_visitNameOrPair_iff {wanted : String} {v : Json} :
    AllFit (visitNameOrPair wanted v) ↔
      (∃ name, v = .string name) ∨ ∃ name options, v = .list [.string name, .table options] := by
  constructor
  · intro fit
    obtain ⟨b, hb⟩ := Option.isSome_iff_exists.1 (isSome_readNameOrPair fit)
    rcases readNameOrPair_eq_some_iff.1 hb with ⟨name, rfl, _⟩ | ⟨name, options, rfl, _⟩
    · exact .inl ⟨name, rfl⟩
    · exact .inr ⟨name, options, rfl⟩
  · rintro (⟨name, rfl⟩ | ⟨name, options, rfl⟩)
    · simp [visitNameOrPair]
    · simp [visitNameOrPair, visitParts, Located.each, visitText, visitOptions]

mutual

/-- A visit meets no misfit exactly in the values of the grammar. -/
theorem Shape.allFit_visit_iff (s : Shape α) (v : Json) : AllFit (s.visit v) ↔ s.Accepts v := by
  match s with
  | .text => cases v <;> simp [Shape.visit, Shape.Accepts, visitText]
  | .flag => cases v <;> simp [Shape.visit, Shape.Accepts, visitFlag]
  | .choice variants => simp only [Shape.visit, Shape.Accepts, allFit_visitChoice_iff]
  | .list item =>
    cases v <;> simp [Shape.visit, Shape.Accepts, visitItems, allFit_each, item.allFit_visit_iff]
  | .record name fields _ =>
    cases v <;> simp [Shape.visit, Shape.Accepts, visitRecord, fields.allFit_visitTable_iff,
      fields.allFit_visitFields_iff]
  | .listOrTable wanted item fields _ =>
    cases v <;> simp [Shape.visit, Shape.Accepts, visitListOrTable, fields.allFit_visitTable_iff,
      allFit_each, item.allFit_visit_iff]
  | .nameOrPair wanted _ => simp only [Shape.visit, Shape.Accepts, allFit_visitNameOrPair_iff]

theorem Fields.allFit_visitKey_iff (fields : Fields β) (key : String) (v : Json) :
    AllFit (fields.visitKey key v) ↔ ∀ rule ∈ fields.rules, key = rule.key → rule.Takes v := by
  match fields with
  | .done => simp [Fields.visitKey, Fields.rules]
  | .required name shape rest | .optional name shape rest =>
    by_cases h : key = name <;>
      simp [Fields.visitKey, Fields.rules, h, shape.allFit_visit_iff, rest.allFit_visitKey_iff]

theorem Fields.allFit_visitTable_iff (fields : Fields β) (members : Members) :
    (AllFit (visitMembers fields.keys fields.visitKey members) ∧
      AllFit (fields.visitMissing members)) ↔ IsTableOf fields.rules members := by
  rw [allFit_visitMembers, fields.allFit_visitMissing_iff]
  simp only [fields.allFit_visitKey_iff]
  constructor
  · rintro ⟨known, needed⟩ rule hr
    refine ⟨needed rule hr, fun v hv => ?_⟩
    have hk : rule.key ∈ fields.keys := by
      rw [fields.keys_eq_map_rules]
      exact List.mem_map_of_mem hr
    exact known _ hv hk rule hr rfl
  · intro h
    refine ⟨fun m hm _ rule hr hk => ?_, fun rule hr => (h rule hr).1⟩
    exact (h rule hr).2 m.2 (hk ▸ hm)

theorem Fields.allFit_visitFields_iff {wanted : String} {first : Nat} (fields : Fields β)
    (vs : List Json) :
    AllFit (fields.visitFields wanted first vs) ↔ IsRowOf fields.rules vs := by
  match fields with
  | .done => cases vs <;> simp [Fields.visitFields, Fields.rules, isRowOf_nil]
  | .required _ shape rest | .optional _ shape rest =>
    cases vs <;>
      simp [Fields.visitFields, Fields.rules, isRowOf_cons, shape.allFit_visit_iff,
        rest.allFit_visitFields_iff]

end

/-! ## Values that are read -/

mutual

/-- A value is read as what it stands for. -/
theorem Shape.read_eq_some_iff (s : Shape α) (v : Json) (a : α) :
    s.read v = some a ↔ s.Holds v a := by
  match s, a with
  | .text, a => cases v <;> simp [Shape.read, Shape.Holds, Json.asString?]
  | .flag, a => cases v <;> simp [Shape.read, Shape.Holds, readFlag]
  | .choice variants, a => simp only [Shape.read, Shape.Holds, readChoice_eq_some_iff]
  | .list item, as =>
    cases v <;> simp [Shape.read, Shape.Holds, readItems, mapM_eq_some_iff, item.read_eq_some_iff]
  | .record _ fields packing, a =>
    simp only [Shape.read, Option.map_eq_some_iff, packing.pack_eq_iff, exists_eq_right']
    cases v with
    | table members => simp [Shape.Holds, readRecord, fields.readMembers_eq_some_iff members 0]
    | list vs =>
      have row := fields.readFields_eq_some_iff vs 0 (packing.unpack a)
      simpa [Shape.Holds, readRecord] using row
    | null | bool | number | string => simp [Shape.Holds, readRecord]
  | .listOrTable _ item fields packing, a =>
    simp only [Shape.read, Option.map_eq_some_iff, packing.pack_eq_iff, exists_eq_right']
    cases v with
    | list vs =>
      simp [Shape.Holds, readItems, readTable, mapM_eq_some_iff, item.read_eq_some_iff,
        @eq_comm _ (packing.unpack a)]
    | table members =>
      simp [Shape.Holds, readItems, readTable, fields.readMembers_eq_some_iff members 0,
        @eq_comm _ (packing.unpack a)]
    | null | bool | number | string => simp [Shape.Holds, readItems, readTable]
  | .nameOrPair _ packing, a =>
    simp only [Shape.read, Option.map_eq_some_iff, packing.pack_eq_iff, exists_eq_right',
      readNameOrPair_eq_some_iff, Shape.Holds]

theorem Fields.readMembers_eq_some_iff (fields : Fields β) (members : Members) (i : Nat) (b : β) :
    fields.readMembers members = some b ↔ fields.Hold (Source.ofTable members) i b := by
  match fields, b with
  | .done, () => simp [Fields.readMembers, Fields.Hold]
  | .required key shape rest, (a, b) =>
    simp [Fields.readMembers, Fields.Hold, Source.ofTable, Option.bind_eq_some_iff,
      shape.read_eq_some_iff, rest.readMembers_eq_some_iff members (i + 1)]
  | .optional key shape rest, (a, b) =>
    simp [Fields.readMembers, Fields.Hold, Source.ofTable, Option.bind_eq_some_iff,
      elim_map_some_eq_some_iff, shape.read_eq_some_iff,
      rest.readMembers_eq_some_iff members (i + 1)]

theorem Fields.readFields_eq_some_iff (fields : Fields β) (vs : List Json) (i : Nat) (b : β) :
    fields.readFields (vs.drop i) = some b ↔
      vs.length ≤ i + fields.keys.length ∧ fields.Hold (Source.ofRow vs) i b := by
  match fields, b with
  | .done, () => simp [Fields.readFields, Fields.Hold, Fields.keys]
  | .required key shape rest, (a, b) =>
    simp [Fields.readFields, Fields.Hold, Source.ofRow, Option.bind_eq_some_iff, Fields.keys,
      shape.read_eq_some_iff, rest.readFields_eq_some_iff vs (i + 1), and_left_comm, Nat.add_assoc,
      Nat.add_comm 1]
  | .optional key shape rest, (a, b) =>
    simp [Fields.readFields, Fields.Hold, Source.ofRow, Option.bind_eq_some_iff, Fields.keys,
      elim_map_some_eq_some_iff, shape.read_eq_some_iff, rest.readFields_eq_some_iff vs (i + 1),
      and_left_comm, Nat.add_assoc, Nat.add_comm 1]

end

/-! ## Readings and the grammar -/

namespace Shape

/-- A value of the grammar stands for something. -/
theorem exists_holds_of_accepts {s : Shape α} {v : Json} (h : s.Accepts v) : ∃ a, s.Holds v a := by
  have fit := (s.allFit_visit_iff v).2 h
  obtain ⟨a, ha⟩ := Option.isSome_iff_exists.1 (s.isSome_read v fit)
  exact ⟨a, (s.read_eq_some_iff v a).1 ha⟩

theorem result_decode_eq_ok_iff_holds {s : Shape α} {v : Json} {a : α} :
    (s.decode v).result = .ok a ↔ s.Accepts v ∧ s.Holds v a := by
  rw [result_decode_eq_ok_iff, s.allFit_visit_iff, s.read_eq_some_iff]

theorem exists_result_decode_eq_ok_iff {s : Shape α} {v : Json} :
    (∃ a, (s.decode v).result = .ok a) ↔ s.Accepts v := by
  simp only [result_decode_eq_ok_iff_holds]
  constructor
  · rintro ⟨a, accepts, _⟩
    exact accepts
  · intro accepts
    obtain ⟨a, ha⟩ := exists_holds_of_accepts accepts
    exact ⟨a, accepts, ha⟩

/-- No shape takes the empty value, so that an optional key is either absent or has a value. -/
theorem not_accepts_null (s : Shape α) : ¬s.Accepts .null := by
  cases s <;> simp [Accepts]

end Shape

end SiteManifest
