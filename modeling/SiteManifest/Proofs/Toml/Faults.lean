import SiteManifest.Proofs.Json.Places
import SiteManifest.Proofs.Shape.KeyOrder
import SiteManifest.Proofs.Toml.Keys
import SiteManifest.Toml.Printer

/-!
# What TOML has no form for

TOML has no null, and its integers have 63 bits and a sign. A value is written unless it has one of
these somewhere in it. In a value that is written by a shape, they can only stand in the tables that
the shape does not look into.

## Main definitions

* `Toml.HasForm`: a value that is not itself a fault.
* `Toml.Small`: a value in which no integer is a fault.

## Main statements

* `Toml.fault?_eq_none_iff`: a value without a fault has none at any place.
* `Toml.small_parse?`: no integer is a fault in a value that was read.
* `Shape.fault?_write`: shapes that look into every table write no fault.
-/
namespace SiteManifest

namespace Toml

/-- Neither null nor an integer above `2 ^ 63 - 1`. -/
def HasForm (v : Json) : Prop :=
  v ≠ .null ∧ ∀ n, v = .number (.integer n) → n.value ≤ 0x7FFFFFFFFFFFFFFF

variable {v w : Json} {vs : List Json} {members : Members} {steps : List Step} {step : Step}

/-! ## Faults and places -/

theorem itemFault?_eq_none_iff : itemFault? vs = none ↔ ∀ v ∈ vs, fault? v = none := by
  induction vs with
  | nil => simp [itemFault?]
  | cons v vs ih => simp [itemFault?, ih]

theorem memberFault?_eq_none_iff :
    memberFault? members = none ↔ ∀ m ∈ members, fault? m.2 = none := by
  induction members with
  | nil => simp [memberFault?]
  | cons m members ih => simp [memberFault?, ih]

theorem hasForm_of_fault? (fine : fault? v = none) : HasForm v := by
  refine ⟨?_, ?_⟩
  · rintro rfl
    simp [fault?] at fine
  · rintro n rfl
    simp only [fault?, ite_eq_left_iff, reduceCtorEq, imp_false, Decidable.not_not] at fine
    omega

theorem fault?_part? (fine : fault? v = none) (part : v.part? step = some w) :
    fault? w = none := by
  match v, step with
  | .list vs, .index i => exact itemFault?_eq_none_iff.1 fine w (List.mem_of_getElem? part)
  | .table members, .key key => exact memberFault?_eq_none_iff.1 fine _ (mem_of_lookup part)
  | .list _, .key _ | .table _, .index _ | .null, _ | .bool _, _ | .number _, _ | .string _, _ =>
    contradiction

theorem fault?_at? (fine : fault? v = none) (found : v.at? steps = some w) : fault? w = none := by
  induction steps generalizing v with
  | nil => exact Option.some.inj found ▸ fine
  | cons step steps ih =>
    obtain ⟨u, part, found⟩ := Json.at?_cons_eq_some_iff.1 found
    exact ih (fault?_part? fine part) found

/-- Everything in a value, the value included, has a form. -/
def HasForms (v : Json) : Prop := ∀ steps w, v.at? steps = some w → HasForm w

theorem HasForms.part (step : Step) (h : HasForms v) (part : v.part? step = some w) :
    HasForms w :=
  fun steps u found => h (step :: steps) u (Json.at?_cons_eq_some_iff.2 ⟨w, part, found⟩)

mutual

theorem fault?_of_hasForms (v : Json) (once : v.KeysOnce) (forms : HasForms v) :
    fault? v = none := by
  match v with
  | .null => exact absurd rfl (forms [] .null rfl).1
  | .number (.integer n) =>
    have small := (forms [] _ rfl).2 n rfl
    rw [fault?, if_pos (by omega)]
  | .bool _ | .number (.real _) | .string _ => rw [fault?]
  | .list vs =>
    rw [fault?]
    refine itemFault?_of_hasForms vs once fun w hw => ?_
    obtain ⟨i, found⟩ := List.mem_iff_getElem?.1 hw
    exact forms.part (.index i) found
  | .table members =>
    rw [fault?]
    exact memberFault?_of_hasForms members once.2 fun m hm =>
      forms.part (.key m.1) ((Json.mem_iff_lookup_eq_some once.1).1 hm)

theorem itemFault?_of_hasForms (vs : List Json) (once : Json.KeysOnceItems vs)
    (forms : ∀ v ∈ vs, HasForms v) : itemFault? vs = none := by
  match vs with
  | [] => rw [itemFault?]
  | v :: vs =>
    obtain ⟨first, others⟩ := List.forall_mem_cons.1 forms
    rw [itemFault?, fault?_of_hasForms v once.1 first, itemFault?_of_hasForms vs once.2 others]
    rfl

theorem memberFault?_of_hasForms (members : Members) (once : Json.KeysOnceMembers members)
    (forms : ∀ m ∈ members, HasForms m.2) : memberFault? members = none := by
  match members with
  | [] => rw [memberFault?]
  | (key, v) :: members =>
    obtain ⟨first, others⟩ := List.forall_mem_cons.1 forms
    rw [memberFault?, fault?_of_hasForms v once.1 first,
      memberFault?_of_hasForms members once.2 others]
    rfl

end

/-- A value with each key once has no fault exactly if everything in it has a form. -/
theorem fault?_eq_none_iff (once : v.KeysOnce) : fault? v = none ↔ HasForms v :=
  ⟨fun fine _ _ found => hasForm_of_fault? (fault?_at? fine found), fault?_of_hasForms v once⟩

/-! ## Values that were read -/

/-- Every integer in a value has 63 bits and a sign at most. -/
def Small (v : Json) : Prop :=
  ∀ steps n, v.at? steps = some (.number (.integer n)) → n.value < 0x8000000000000000

theorem Small.part (step : Step) (h : Small v) (part : v.part? step = some w) : Small w :=
  fun steps n found => h (step :: steps) n (Json.at?_cons_eq_some_iff.2 ⟨w, part, found⟩)

theorem small_list_iff : Small (.list vs) ↔ ∀ v ∈ vs, Small v := by
  constructor
  · intro h v hv
    obtain ⟨i, found⟩ := List.mem_iff_getElem?.1 hv
    exact h.part (.index i) found
  · intro h steps n found
    cases steps with
    | nil => simp at found
    | cons step steps =>
      obtain ⟨v, part, below⟩ := Json.at?_cons_eq_some_iff.1 found
      cases step with
      | key key => contradiction
      | index i => exact h v (List.mem_of_getElem? part) steps n below

theorem small_table_iff (once : (members.map (·.1)).Nodup) :
    Small (.table members) ↔ ∀ m ∈ members, Small m.2 := by
  constructor
  · intro h m hm
    exact h.part (.key m.1) ((Json.mem_iff_lookup_eq_some once).1 hm)
  · intro h steps n found
    cases steps with
    | nil => simp at found
    | cons step steps =>
      obtain ⟨v, part, below⟩ := Json.at?_cons_eq_some_iff.1 found
      cases step with
      | key key => exact h _ (mem_of_lookup part) steps n below
      | index i => contradiction

theorem Scalar.small (h : Scalar v) : Small v := by
  intro steps n found
  cases steps with
  | nil =>
    obtain rfl := Option.some.inj found
    cases h with
    | integer small => exact small
  | cons step steps =>
    obtain ⟨w, part, _⟩ := Json.at?_cons_eq_some_iff.1 found
    cases h <;> contradiction

theorem kept_small : Kept fun v => v.KeysOnce ∧ Small v where
  scalar h := ⟨kept_keysOnce.scalar h, h.small⟩
  list := by
    intro vs
    rw [kept_keysOnce.list, small_list_iff, forall₂_and]
  table := by
    intro members
    rw [kept_keysOnce.table, and_assoc]
    refine and_congr_right fun once => ?_
    rw [small_table_iff once, forall₂_and]

/-- A text of TOML is read as a value in which every integer has a form. -/
theorem small_parse? {text : String} (h : parse? text = some v) : Small v :=
  (kept_small.of_parse? h).2

mutual

theorem eq_null_of_fault? (v : Json) (read : v.KeysOnce ∧ Small v) {f : Fault}
    (h : fault? v = some f) : f = .null := by
  match v with
  | .null => exact (Option.some.inj h).symm
  | .number (.integer n) =>
    rw [fault?, if_pos (read.2 [] n rfl)] at h
    contradiction
  | .bool _ | .number (.real _) | .string _ => simp [fault?] at h
  | .list vs => exact eq_null_of_itemFault? vs (kept_small.list.1 read) h
  | .table members => exact eq_null_of_memberFault? members (kept_small.table.1 read).2 h

theorem eq_null_of_itemFault? (vs : List Json) (read : ∀ v ∈ vs, v.KeysOnce ∧ Small v) {f : Fault}
    (h : itemFault? vs = some f) : f = .null := by
  match vs with
  | [] => contradiction
  | v :: vs =>
    obtain ⟨first, others⟩ := List.forall_mem_cons.1 read
    rcases Option.or_eq_some_iff.1 h with h | ⟨_, h⟩
    · exact eq_null_of_fault? v first h
    · exact eq_null_of_itemFault? vs others h

theorem eq_null_of_memberFault? (members : Members)
    (read : ∀ m ∈ members, m.2.KeysOnce ∧ Small m.2) {f : Fault}
    (h : memberFault? members = some f) : f = .null := by
  match members with
  | [] => contradiction
  | (key, v) :: members =>
    obtain ⟨first, others⟩ := List.forall_mem_cons.1 read
    rcases Option.or_eq_some_iff.1 h with h | ⟨_, h⟩
    · exact eq_null_of_fault? v first h
    · exact eq_null_of_memberFault? members others h

end

/-- Of what was read, only null has no form. -/
theorem fault?_eq_none_iff_of_small (read : v.KeysOnce ∧ Small v) :
    fault? v = none ↔ ∀ steps, v.at? steps ≠ some .null := by
  rw [fault?_eq_none_iff read.1]
  constructor
  · intro forms steps found
    exact (forms steps .null found).1 rfl
  · intro noNull steps w found
    refine ⟨?_, ?_⟩
    · rintro rfl
      exact noNull steps found
    · rintro n rfl
      exact Int.le_of_lt_add_one (read.2 steps n found)

theorem fault?_eq_null_iff_of_small (read : v.KeysOnce ∧ Small v) :
    fault? v = some .null ↔ ∃ steps, v.at? steps = some .null := by
  have noFault := fault?_eq_none_iff_of_small read
  cases fault : fault? v with
  | none => simp [noFault.1 fault]
  | some f =>
    obtain rfl := eq_null_of_fault? v read fault
    simp only [fault, reduceCtorEq, false_iff, not_forall, not_not] at noFault
    simpa using noFault

end Toml

open Toml (fault? memberFault?)

/-! ## Shapes that look into every table -/

theorem Fields.memberFault?_write_required {key : String} {shape : Shape α} {rest : Fields β}
    {a : α} {b : β} :
    memberFault? ((Fields.required key shape rest).write (a, b)) = none ↔
      fault? (shape.write a) = none ∧ memberFault? (rest.write b) = none := by
  rw [write, memberFault?, Option.or_eq_none_iff]

theorem Fields.memberFault?_write_optional {key : String} {shape : Shape α} {rest : Fields β}
    {o : Option α} {b : β} :
    memberFault? ((Fields.optional key shape rest).write (o, b)) = none ↔
      (∀ a, o = some a → fault? (shape.write a) = none) ∧ memberFault? (rest.write b) = none := by
  cases o with
  | none => simp [write]
  | some a => simp [write, memberFault?]

/-- A field that is written without a fault can be passed over. -/
theorem Fields.memberFault?_write_required_of {key : String} {shape : Shape α} {rest : Fields β}
    {a : α} {b : β} (fine : fault? (shape.write a) = none) :
    memberFault? ((Fields.required key shape rest).write (a, b)) = memberFault? (rest.write b) := by
  rw [write, memberFault?, fine, Option.none_or]

theorem Fields.memberFault?_write_optional_of {key : String} {shape : Shape α} {rest : Fields β}
    {o : Option α} {b : β} (fine : ∀ a, fault? (shape.write a) = none) :
    memberFault? ((Fields.optional key shape rest).write (o, b)) = memberFault? (rest.write b) := by
  cases o with
  | none => simp [write]
  | some a => rw [write, memberFault?, fine, Option.none_or]

mutual

theorem Shape.fault?_write (s : Shape α) (plain : s.Plain) (a : α) : fault? (s.write a) = none := by
  match s, a with
  | .text, a | .flag, a | .choice variants, a => simp only [Shape.write, fault?]
  | .list item, as =>
    rw [Shape.write, fault?, Toml.itemFault?_eq_none_iff, List.forall_mem_map]
    exact fun a _ => item.fault?_write plain a
  | .record name fields packing, a =>
    rw [Shape.write, fault?]
    exact fields.memberFault?_write plain _
  | .listOrTable wanted item fields packing, a =>
    rw [Shape.write]
    split
    next items _ =>
      rw [fault?, Toml.itemFault?_eq_none_iff, List.forall_mem_map]
      exact fun a _ => item.fault?_write plain.1 a
    next b _ =>
      rw [fault?]
      exact fields.memberFault?_write plain.2 b
  | .nameOrPair wanted packing, a => exact plain.elim

theorem Fields.memberFault?_write (fields : Fields β) (plain : fields.Plain) (b : β) :
    memberFault? (fields.write b) = none := by
  match fields, b with
  | .done, () => rfl
  | .required key shape rest, (a, b) =>
    exact Fields.memberFault?_write_required.2
      ⟨shape.fault?_write plain.1 a, rest.memberFault?_write plain.2 b⟩
  | .optional key shape rest, (o, b) =>
    exact Fields.memberFault?_write_optional.2
      ⟨fun a _ => shape.fault?_write plain.1 a, rest.memberFault?_write plain.2 b⟩

end

end SiteManifest
