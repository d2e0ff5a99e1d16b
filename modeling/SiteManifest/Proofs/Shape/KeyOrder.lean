import Mathlib.Data.Sum.Basic
import SiteManifest.Proofs.Json.Reordered
import SiteManifest.Proofs.Shape.Order

/-!
# Reading does not depend on the order of keys

A value and the same with the keys of its tables in another order are taken by the same shapes, are
read as things that are alike, and have the same keys that are unknown.

## Main definitions

* `Shape.Alike`: two things of a type that differ at most in the order of keys in options.

## Main statements

* `Shape.accepts_of_reordered`: a shape that takes one of the values takes the other one.
* `Shape.exists_alike`: what is read of them is alike.
* `Shape.unknown_perm`: the same is unknown in both of them.
-/
namespace SiteManifest

open Json (Reordered)

/-! ## Things that are alike -/

mutual

/-- Two things of a type are the same but for the order of keys in options. -/
def Shape.Alike : Shape α → α → α → Prop
  | .text, a, b => a = b
  | .flag, a, b => a = b
  | .choice _, a, b => a = b
  | .list item, as, bs => List.Forall₂ item.Alike as bs
  | .record _ fields packing, a, b => fields.Alike (packing.unpack a) (packing.unpack b)
  | .listOrTable _ item fields packing, a, b =>
    Sum.LiftRel (List.Forall₂ item.Alike) fields.Alike (packing.unpack a) (packing.unpack b)
  | .nameOrPair _ packing, a, b =>
    Sum.LiftRel Eq (fun p q => p.1 = q.1 ∧ (Json.table p.2).Reordered (.table q.2))
      (packing.unpack a) (packing.unpack b)

def Fields.Alike : Fields β → β → β → Prop
  | .done, (), () => True
  | .required _ shape rest, (a, b), (a', b') => shape.Alike a a' ∧ rest.Alike b b'
  | .optional _ shape rest, (a, b), (a', b') => Option.Rel shape.Alike a a' ∧ rest.Alike b b'

end

mutual

/-- No options anywhere in a value of the shape. -/
def Shape.Plain : Shape α → Prop
  | .text | .flag | .choice _ => True
  | .nameOrPair _ _ => False
  | .list item => item.Plain
  | .record _ fields _ => fields.Plain
  | .listOrTable _ item fields _ => item.Plain ∧ fields.Plain

def Fields.Plain : Fields β → Prop
  | .done => True
  | .required _ shape rest | .optional _ shape rest => shape.Plain ∧ rest.Plain

end

theorem Packing.unpack_injective (packing : Packing β α) {a b : α}
    (h : packing.unpack a = packing.unpack b) : a = b := by
  rw [← packing.pack_unpack a, h, packing.pack_unpack]

theorem eq_of_forall₂ {r : α → α → Prop} (h : ∀ a b, r a b → a = b) {as bs : List α}
    (alike : List.Forall₂ r as bs) : as = bs :=
  List.forall₂_eq_eq_eq ▸ alike.imp h

theorem rel_imp {r r' : α → α → Prop} (h : ∀ a b, r a b → r' a b) {o p : Option α}
    (related : Option.Rel r o p) : Option.Rel r' o p := by
  cases related with
  | none => exact .none
  | some related => exact .some (h _ _ related)

theorem eq_of_rel {r : α → α → Prop} (h : ∀ a b, r a b → a = b) {o p : Option α}
    (related : Option.Rel r o p) : o = p := by
  cases related with
  | none => rfl
  | some related => rw [h _ _ related]

mutual

/-- Without options there is no order of keys to differ in. -/
theorem Shape.eq_of_alike (s : Shape α) (plain : s.Plain) {a b : α} (h : s.Alike a b) : a = b := by
  match s, a, b with
  | .text, _, _ | .flag, _, _ | .choice _, _, _ => exact h
  | .list item, _, _ => exact eq_of_forall₂ (fun _ _ => item.eq_of_alike plain) h
  | .record _ fields packing, _, _ =>
    exact packing.unpack_injective (fields.eq_of_alike plain h)
  | .listOrTable wanted item fields packing, a, b =>
    refine packing.unpack_injective ?_
    cases (Sum.liftRel_iff _ _ _ _).1 h with
    | inl h =>
      obtain ⟨as, bs, alike, ha, hb⟩ := h
      rw [ha, hb, eq_of_forall₂ (fun _ _ => item.eq_of_alike plain.1) alike]
    | inr h =>
      obtain ⟨b, c, alike, hb, hc⟩ := h
      rw [hb, hc, fields.eq_of_alike plain.2 alike]
  | .nameOrPair _ _, _, _ => exact plain.elim

theorem Fields.eq_of_alike (fields : Fields β) (plain : fields.Plain) {b c : β}
    (h : fields.Alike b c) : b = c := by
  match fields, b, c with
  | .done, (), () => rfl
  | .required _ shape rest, (a, b), (a', b') =>
    rw [shape.eq_of_alike plain.1 h.1, rest.eq_of_alike plain.2 h.2]
  | .optional _ shape rest, (a, b), (a', b') =>
    rw [eq_of_rel (fun _ _ => shape.eq_of_alike plain.1) h.1, rest.eq_of_alike plain.2 h.2]

end

/-! ## Values that a shape takes -/

/-- A table of one word stays as it is. -/
theorem Json.Reordered.eq_of_word {word : String} {w : Json}
    (h : (Json.table [(word, .null)]).Reordered w) : w = .table [(word, .null)] := by
  obtain ⟨ns, row, rfl, perm, w, rest, rfl, rfl, rfl⟩ := h.same
  rw [List.perm_singleton.1 perm]

/-- In a pair of a name and options only the options can change. -/
theorem Json.Reordered.exists_pair {name : String} {options : Members} {w : Json}
    (h : (Json.list [.string name, .table options]).Reordered w) :
    ∃ options', w = .list [.string name, .table options'] ∧
      (Json.table options).Reordered (.table options') := by
  obtain ⟨ws, rfl, items⟩ := h.exists_list
  match ws, items with
  | [_, _], .cons sameName (.cons sameOptions .nil) =>
    obtain ⟨options', rfl⟩ := sameOptions.exists_table
    rw [sameName.eq_of_scalar (by simp) (by simp)]
    exact ⟨options', rfl, sameOptions⟩

theorem forall_mem_of_forall₂ {r : α → β → Prop} {p : α → Prop} {q : β → Prop}
    (h : ∀ a b, r a b → p a → q b) {as : List α} {bs : List β} (related : List.Forall₂ r as bs)
    (all : ∀ a ∈ as, p a) : ∀ b ∈ bs, q b := by
  induction related with
  | nil => nofun
  | cons here _ ih =>
    obtain ⟨first, all⟩ := List.forall_mem_cons.1 all
    exact List.forall_mem_cons.2 ⟨h _ _ here first, ih all⟩

/-- What a rule says of a value does not depend on the order of keys. -/
def FieldRule.Respects (rule : FieldRule) : Prop :=
  ∀ v w, v.Reordered w → rule.Takes v → rule.Takes w

variable {rules : List FieldRule}

theorem isTableOf_of_reordered (respects : ∀ rule ∈ rules, rule.Respects) {ms ns : Members}
    (h : (Json.table ms).Reordered (.table ns)) (takes : IsTableOf rules ms) :
    IsTableOf rules ns := by
  intro rule hrule
  obtain ⟨needed, fits⟩ := takes rule hrule
  constructor
  · intro need
    obtain ⟨v, hv⟩ := needed need
    obtain ⟨w, hw, _⟩ := h.exists_lookup ((Json.mem_iff_lookup_eq_some h.keysOnce.1).1 hv)
    exact ⟨w, mem_of_lookup hw⟩
  · intro w hw
    obtain ⟨v, hv, back⟩ :=
      h.symm.exists_lookup ((Json.mem_iff_lookup_eq_some h.symm.keysOnce.1).1 hw)
    exact respects rule hrule v w back.symm (fits v (mem_of_lookup hv))

theorem isRowOf_of_reordered (respects : ∀ rule ∈ rules, rule.Respects) {vs ws : List Json}
    (h : List.Forall₂ Reordered vs ws) (takes : IsRowOf rules vs) : IsRowOf rules ws := by
  obtain ⟨length, fits⟩ := takes
  rw [IsRowOf, ← h.length_eq]
  refine ⟨length, fun i rule hr => ⟨(fits i rule hr).1, fun w hw => ?_⟩⟩
  obtain ⟨v, hv, same⟩ := Json.exists_getElem?_of_forall₂ h hw
  exact respects rule (List.mem_of_getElem? hr) v w same ((fits i rule hr).2 v hv)

mutual

theorem Shape.accepts_of_reordered (s : Shape α) {v w : Json} (h : v.Reordered w)
    (accepts : s.Accepts v) : s.Accepts w := by
  match s with
  | .text =>
    obtain ⟨a, rfl⟩ := accepts
    exact ⟨a, h.eq_of_scalar (by simp) (by simp)⟩
  | .flag =>
    obtain ⟨b, rfl⟩ := accepts
    exact ⟨b, h.eq_of_scalar (by simp) (by simp)⟩
  | .choice variants =>
    obtain ⟨a, rfl | rfl⟩ := accepts
    · exact ⟨a, .inl (h.eq_of_scalar (by simp) (by simp))⟩
    · exact ⟨a, .inr h.eq_of_word⟩
  | .list item =>
    obtain ⟨vs, rfl, all⟩ := accepts
    obtain ⟨ws, rfl, items⟩ := h.exists_list
    have spec := fun (v w : Json) => item.accepts_of_reordered (v := v) (w := w)
    exact ⟨ws, rfl, forall_mem_of_forall₂ spec items all⟩
  | .record _ fields _ =>
    rcases accepts with ⟨ms, rfl, takes⟩ | ⟨vs, rfl, takes⟩
    · obtain ⟨ns, rfl⟩ := h.exists_table
      exact .inl ⟨ns, rfl, isTableOf_of_reordered fields.respects_rules h takes⟩
    · obtain ⟨ws, rfl, items⟩ := h.exists_list
      exact .inr ⟨ws, rfl, isRowOf_of_reordered fields.respects_rules items takes⟩
  | .listOrTable _ item fields _ =>
    rcases accepts with ⟨vs, rfl, all⟩ | ⟨ms, rfl, takes⟩
    · obtain ⟨ws, rfl, items⟩ := h.exists_list
      have spec := fun (v w : Json) => item.accepts_of_reordered (v := v) (w := w)
      exact .inl ⟨ws, rfl, forall_mem_of_forall₂ spec items all⟩
    · obtain ⟨ns, rfl⟩ := h.exists_table
      exact .inr ⟨ns, rfl, isTableOf_of_reordered fields.respects_rules h takes⟩
  | .nameOrPair _ _ =>
    rcases accepts with ⟨name, rfl⟩ | ⟨name, options, rfl⟩
    · exact .inl ⟨name, h.eq_of_scalar (by simp) (by simp)⟩
    · obtain ⟨options', rfl, _⟩ := h.exists_pair
      exact .inr ⟨name, options', rfl⟩

theorem Fields.respects_rules (fields : Fields β) : ∀ rule ∈ fields.rules, rule.Respects := by
  match fields with
  | .done => nofun
  | .required key shape rest | .optional key shape rest =>
    exact List.forall_mem_cons.2 ⟨fun _ _ => shape.accepts_of_reordered, rest.respects_rules⟩

end

/-! ## What is read -/

section Parts

variable {α : Type} {holds : Json → α → Prop} {alike : α → α → Prop}
  (spec : ∀ v w a, v.Reordered w → holds v a → ∃ b, holds w b ∧ alike a b)

include spec

theorem exists_alike_items {vs ws : List Json} {as : List α}
    (h : List.Forall₂ Reordered vs ws) (items : List.Forall₂ holds vs as) :
    ∃ bs, List.Forall₂ holds ws bs ∧ List.Forall₂ alike as bs := by
  induction h generalizing as with
  | nil =>
    obtain rfl := List.forall₂_nil_left_iff.1 items
    exact ⟨[], .nil, .nil⟩
  | cons here _ ih =>
    obtain ⟨a, rest, first, others, rfl⟩ := List.forall₂_cons_left_iff.1 items
    obtain ⟨b, hb, alike⟩ := spec _ _ _ here first
    obtain ⟨bs, hbs, below⟩ := ih others
    exact ⟨b :: bs, .cons hb hbs, .cons alike below⟩

theorem exists_alike_option {found other : Option Json} {o : Option α}
    (h : Option.Rel Reordered found other) (read : Option.Rel holds found o) :
    ∃ p, Option.Rel holds other p ∧ Option.Rel alike o p := by
  cases h with
  | none =>
    cases read
    exact ⟨none, .none, .none⟩
  | some same =>
    cases read with
    | some here =>
      obtain ⟨b, hb, related⟩ := spec _ _ _ same here
      exact ⟨some b, .some hb, .some related⟩

theorem exists_alike_some {found other : Option Json} {a : α}
    (h : Option.Rel Reordered found other) (read : ∃ v, found = some v ∧ holds v a) :
    ∃ b, (∃ w, other = some w ∧ holds w b) ∧ alike a b := by
  obtain ⟨_ | b, hb, related⟩ := exists_alike_option spec h (rel_some_iff.2 read)
  · contradiction
  · exact ⟨b, rel_some_iff.1 hb, Option.rel_some_some.1 related⟩

end Parts

/-- The value of every field is the same in two sources but for the order of keys. -/
def Source.Reordered (source other : Source) : Prop :=
  ∀ i key, Option.Rel Json.Reordered (source i key) (other i key)

theorem Source.reordered_row {vs ws : List Json} (h : List.Forall₂ Json.Reordered vs ws) :
    (Source.ofRow vs).Reordered (.ofRow ws) := by
  intro i key
  unfold ofRow
  induction h generalizing i with
  | nil => exact .none
  | cons here _ ih =>
    cases i with
    | zero => exact .some here
    | succ i => exact ih i

mutual

/-- What is read of the one value is alike to something that the other one stands for. -/
theorem Shape.exists_alike (s : Shape α) {v w : Json} {a : α} (h : v.Reordered w)
    (holds : s.Holds v a) : ∃ b, s.Holds w b ∧ s.Alike a b := by
  match s, a with
  | .text, a =>
    obtain rfl : v = .string a := holds
    exact ⟨a, h.eq_of_scalar (by simp) (by simp), rfl⟩
  | .flag, a =>
    obtain rfl : v = .bool a := holds
    exact ⟨a, h.eq_of_scalar (by simp) (by simp), rfl⟩
  | .choice variants, a =>
    obtain rfl | rfl := holds
    · exact ⟨a, .inl (h.eq_of_scalar (by simp) (by simp)), rfl⟩
    · exact ⟨a, .inr h.eq_of_word, rfl⟩
  | .list item, as =>
    obtain ⟨vs, rfl, items⟩ := holds
    obtain ⟨ws, rfl, same⟩ := h.exists_list
    obtain ⟨bs, read, alike⟩ := exists_alike_items (fun _ _ _ => item.exists_alike) same items
    exact ⟨bs, ⟨ws, rfl, read⟩, alike⟩
  | .record _ fields packing, a =>
    rcases holds with ⟨ms, rfl, hold⟩ | ⟨vs, rfl, length, hold⟩
    · obtain ⟨ns, rfl⟩ := h.exists_table
      obtain ⟨b, read, alike⟩ := fields.exists_alike (fun _ => h.lookup) hold
      refine ⟨packing.pack b, .inl ⟨ns, rfl, ?_⟩, ?_⟩
      · rwa [packing.unpack_pack]
      · rwa [Shape.Alike, packing.unpack_pack]
    · obtain ⟨ws, rfl, same⟩ := h.exists_list
      obtain ⟨b, read, alike⟩ := fields.exists_alike (Source.reordered_row same) hold
      refine ⟨packing.pack b, .inr ⟨ws, rfl, same.length_eq ▸ length, ?_⟩, ?_⟩
      · rwa [packing.unpack_pack]
      · rwa [Shape.Alike, packing.unpack_pack]
  | .listOrTable _ item fields packing, a =>
    rcases holds with ⟨vs, as, rfl, items, unpacked⟩ | ⟨ms, b, rfl, hold, unpacked⟩
    · obtain ⟨ws, rfl, same⟩ := h.exists_list
      obtain ⟨bs, read, alike⟩ := exists_alike_items (fun _ _ _ => item.exists_alike) same items
      refine ⟨packing.pack (.inl bs), .inl ⟨ws, bs, rfl, read, packing.unpack_pack _⟩, ?_⟩
      rw [Shape.Alike, unpacked, packing.unpack_pack]
      exact .inl alike
    · obtain ⟨ns, rfl⟩ := h.exists_table
      obtain ⟨c, read, alike⟩ := fields.exists_alike (fun _ => h.lookup) hold
      refine ⟨packing.pack (.inr c), .inr ⟨ns, c, rfl, read, packing.unpack_pack _⟩, ?_⟩
      rw [Shape.Alike, unpacked, packing.unpack_pack]
      exact .inr alike
  | .nameOrPair _ packing, a =>
    rcases holds with ⟨name, rfl, unpacked⟩ | ⟨name, options, rfl, unpacked⟩
    · refine ⟨a, .inl ⟨name, h.eq_of_scalar (by simp) (by simp), unpacked⟩, ?_⟩
      rw [Shape.Alike, unpacked]
      exact .inl rfl
    · obtain ⟨options', rfl, same⟩ := h.exists_pair
      refine ⟨packing.pack (.inr (name, options')),
        .inr ⟨name, options', rfl, packing.unpack_pack _⟩, ?_⟩
      rw [Shape.Alike, unpacked, packing.unpack_pack]
      exact .inr ⟨rfl, same⟩

theorem Fields.exists_alike (fields : Fields β) {source other : Source}
    (h : source.Reordered other) {i : Nat} {b : β} (hold : fields.Hold source i b) :
    ∃ c, fields.Hold other i c ∧ fields.Alike b c := by
  match fields, b with
  | .done, () => exact ⟨(), trivial, trivial⟩
  | .required key shape rest, (a, b) =>
    obtain ⟨c, below, alikeBelow⟩ := rest.exists_alike h hold.2
    obtain ⟨a', here, alike⟩ :=
      exists_alike_some (fun _ _ _ => shape.exists_alike) (h i key) hold.1
    exact ⟨(a', c), ⟨here, below⟩, alike, alikeBelow⟩
  | .optional key shape rest, (o, b) =>
    obtain ⟨c, below, alikeBelow⟩ := rest.exists_alike h hold.2
    obtain ⟨o', here, alike⟩ :=
      exists_alike_option (fun _ _ _ => shape.exists_alike) (h i key) hold.1
    exact ⟨(o', c), ⟨here, below⟩, alike, alikeBelow⟩

end

/-! ## What is unknown -/

namespace Wanted

theorem UnknownKeyAt.of_reordered {x : Wanted} {v w : Json} (h : v.Reordered w)
    {steps : List Step} (unknown : x.UnknownKeyAt v steps) : x.UnknownKeyAt w steps := by
  obtain ⟨place, y, rules, ms, key, hy, hr, found, hk, other, rfl⟩ := unknown
  obtain ⟨u, hu, same⟩ := h.exists_at? found
  obtain ⟨ns, rfl⟩ := same.exists_table
  exact ⟨place, y, rules, ns, key, hy, hr, hu, same.map_fst_perm.mem_iff.1 hk, other, rfl⟩

theorem SurplusAt.of_reordered {x : Wanted} {v w : Json} (h : v.Reordered w)
    {steps : List Step} (surplus : x.SurplusAt v steps) : x.SurplusAt w steps := by
  obtain ⟨place, y, vs, hy, pair, found, long, rfl⟩ := surplus
  obtain ⟨u, hu, same⟩ := h.exists_at? found
  obtain ⟨ws, rfl, items⟩ := same.exists_list
  exact ⟨place, y, ws, hy, pair, hu, items.length_eq ▸ long, rfl⟩

theorem finds_unknown_iff_of_reordered {x : Wanted} {v w : Json} (h : v.Reordered w)
    {steps : List Step} : x.Finds v ⟨steps, .unknown⟩ ↔ x.Finds w ⟨steps, .unknown⟩ := by
  rw [finds_unknown_iff, finds_unknown_iff]
  constructor
  · exact Or.imp (.of_reordered h) (.of_reordered h)
  · exact Or.imp (.of_reordered h.symm) (.of_reordered h.symm)

end Wanted

/-- The same is unknown in both values. -/
theorem Shape.unknown_perm {s : Shape α} (once : s.KeysOnce) {v w : Json} {a b : α}
    (h : v.Reordered w) (hv : (s.decode v).result = .ok a) (hw : (s.decode w).result = .ok b) :
    (s.decode v).unknown.Perm (s.decode w).unknown := by
  have told := Shape.enumerates_unknown once h.keysOnce hv
  have other := Shape.enumerates_unknown once h.symm.keysOnce hw
  rw [List.perm_ext_iff_of_nodup told.nodup other.nodup]
  intro steps
  rw [told.mem_iff, other.mem_iff, Wanted.finds_unknown_iff_of_reordered h]

end SiteManifest
