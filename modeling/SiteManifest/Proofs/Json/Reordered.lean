import SiteManifest.Proofs.Json.Places
import SiteManifest.Proofs.Json.Same

/-!
# Keys in another order

A value whose tables have every key once can be written with the keys of any of its tables in
another order. That is a symmetric relation, and it is kept by everything that finds a part of the
value.

## Main definitions

* `Json.Reordered`: one value is the other with its keys in another order.

## Main statements

* `Json.Reordered.lookup`: what stands under a key is the same up to the order of keys.
* `Json.Reordered.at?`: so is what stands at a place.
-/
namespace SiteManifest.Json

/-! ## The relation is symmetric -/

mutual

theorem Same.symm {v w : Json} (h : v.Same w) : w.Same v := by
  match v with
  | .list vs =>
    obtain ⟨ws, rfl, items⟩ := h
    exact ⟨vs, rfl, items.symm⟩
  | .table ms =>
    obtain ⟨ns, row, rfl, perm, same⟩ := h
    have back := sameRow_iff.1 same.symm
    obtain ⟨row', forth, perm'⟩ := List.perm_comp_forall₂ perm back
    exact ⟨ms, row', rfl, perm'.symm, sameRow_iff.2 forth⟩
  | .null | .bool _ | .number _ | .string _ => exact h ▸ Same.refl w

theorem SameItems.symm {vs ws : List Json} (h : SameItems vs ws) : SameItems ws vs := by
  match vs with
  | [] =>
    obtain rfl : ws = [] := h
    rfl
  | v :: vs =>
    obtain ⟨w, rest, rfl, here, below⟩ := h
    exact ⟨v, vs, rfl, here.symm, below.symm⟩

theorem SameRow.symm {ms ns : List (String × Json)} (h : SameRow ms ns) : SameRow ns ms := by
  match ms with
  | [] =>
    obtain rfl : ns = [] := h
    rfl
  | (_, v) :: ms =>
    obtain ⟨w, rest, rfl, here, below⟩ := h
    exact ⟨v, ms, rfl, here.symm, below.symm⟩

end

/-! ## Keys stay different -/

theorem SameRow.map_fst {ms ns : Members} (h : SameRow ms ns) : ms.map (·.1) = ns.map (·.1) := by
  induction ms generalizing ns with
  | nil =>
    obtain rfl : ns = [] := h
    rfl
  | cons m ms ih =>
    obtain ⟨w, rest, rfl, _, below⟩ := h
    simp [ih below]

mutual

theorem Same.keysOnce {v w : Json} (h : v.Same w) (once : v.KeysOnce) : w.KeysOnce := by
  match v with
  | .list vs =>
    obtain ⟨ws, rfl, items⟩ := h
    exact items.keysOnce once
  | .table ms =>
    obtain ⟨ns, row, rfl, perm, same⟩ := h
    have rowOnce := keysOnceMembers_iff.1 (same.keysOnce once.2)
    refine ⟨(perm.map _).nodup_iff.2 (same.map_fst ▸ once.1), keysOnceMembers_iff.2 fun n hn => ?_⟩
    exact rowOnce n (perm.mem_iff.1 hn)
  | .null | .bool _ | .number _ | .string _ => exact h ▸ once

theorem SameItems.keysOnce {vs ws : List Json} (h : SameItems vs ws) (once : KeysOnceItems vs) :
    KeysOnceItems ws := by
  match vs with
  | [] =>
    obtain rfl : ws = [] := h
    exact once
  | v :: vs =>
    obtain ⟨w, rest, rfl, here, below⟩ := h
    exact ⟨here.keysOnce once.1, below.keysOnce once.2⟩

theorem SameRow.keysOnce {ms ns : List (String × Json)} (h : SameRow ms ns)
    (once : KeysOnceMembers ms) : KeysOnceMembers ns := by
  match ms with
  | [] =>
    obtain rfl : ns = [] := h
    exact once
  | (_, v) :: ms =>
    obtain ⟨w, rest, rfl, here, below⟩ := h
    exact ⟨here.keysOnce once.1, below.keysOnce once.2⟩

end

/-! ## Parts of a reordered value -/

/-- The second value is the first one with the keys of its tables in another order. -/
structure Reordered (v w : Json) : Prop where
  keysOnce : v.KeysOnce
  same : v.Same w

namespace Reordered

variable {v w : Json} {vs : List Json} {ms ns : Members}

theorem symm (h : v.Reordered w) : w.Reordered v := ⟨h.same.keysOnce h.keysOnce, h.same.symm⟩

theorem exists_list (h : (Json.list vs).Reordered w) :
    ∃ ws, w = .list ws ∧ List.Forall₂ Reordered vs ws := by
  obtain ⟨ws, rfl, same⟩ := h.same
  refine ⟨ws, rfl, ?_⟩
  have once := (List.forall₂_and_left vs ws).2
    ⟨keysOnceItems_iff.1 h.keysOnce, sameItems_iff.1 same⟩
  exact once.imp fun _ _ here => ⟨here.1, here.2⟩

theorem exists_table (h : (Json.table ms).Reordered w) : ∃ ns, w = .table ns := by
  obtain ⟨ns, _, rfl, _⟩ := h.same
  exact ⟨ns, rfl⟩

/-- Only lists and tables change. -/
theorem eq_or_exists (h : v.Reordered w) :
    v = w ∨ (∃ vs ws, v = .list vs ∧ w = .list ws ∧ List.Forall₂ Reordered vs ws) ∨
      ∃ ms ns, v = .table ms ∧ w = .table ns := by
  match v with
  | .list vs =>
    obtain ⟨ws, rfl, items⟩ := h.exists_list
    exact .inr (.inl ⟨vs, ws, rfl, rfl, items⟩)
  | .table ms =>
    obtain ⟨ns, rfl⟩ := h.exists_table
    exact .inr (.inr ⟨ms, ns, rfl, rfl⟩)
  | .null | .bool _ | .number _ | .string _ => exact .inl h.same

theorem eq_of_scalar (h : v.Reordered w) (hl : ∀ vs, v ≠ .list vs)
    (ht : ∀ members, v ≠ .table members) : w = v := by
  obtain rfl | ⟨vs, _, rfl, _⟩ | ⟨ms, _, rfl, _⟩ := h.eq_or_exists
  · rfl
  · exact absurd rfl (hl vs)
  · exact absurd rfl (ht ms)

theorem map_fst_perm (h : (Json.table ms).Reordered (.table ns)) :
    (ms.map (·.1)).Perm (ns.map (·.1)) := by
  obtain ⟨_, row, ⟨⟩, perm, same⟩ := h.same
  rw [same.map_fst]
  exact (perm.map _).symm

theorem exists_lookup (h : (Json.table ms).Reordered (.table ns)) {key : String} {v : Json}
    (found : ms.lookup key = some v) : ∃ w, ns.lookup key = some w ∧ v.Reordered w := by
  have hm := mem_of_lookup found
  have nsOnce := h.symm.keysOnce.1
  obtain ⟨w, hw, same⟩ := ((same_table_iff h.keysOnce.1 nsOnce).1 h.same).2 _ hm
  exact ⟨w, hw, keysOnceMembers_iff.1 h.keysOnce.2 _ hm, same⟩

/-- What stands under a key is the same up to the order of keys. -/
theorem lookup (h : (Json.table ms).Reordered (.table ns)) (key : String) :
    Option.Rel Reordered (ms.lookup key) (ns.lookup key) := by
  cases found : ms.lookup key with
  | some v =>
    obtain ⟨w, hw, same⟩ := h.exists_lookup found
    rw [hw]
    exact .some same
  | none =>
    cases other : ns.lookup key with
    | none => exact .none
    | some w =>
      obtain ⟨v, hv, _⟩ := h.symm.exists_lookup other
      rw [found] at hv
      contradiction

theorem exists_part? (h : v.Reordered w) {step : Step} {u : Json} (found : v.part? step = some u) :
    ∃ u', w.part? step = some u' ∧ u.Reordered u' := by
  match v, step with
  | .list vs, .index i =>
    obtain ⟨ws, rfl, items⟩ := h.exists_list
    have flipped : List.Forall₂ (flip Reordered) ws vs := items.flip
    exact exists_getElem?_of_forall₂ flipped found
  | .table ms, .key key =>
    obtain ⟨ns, rfl⟩ := h.exists_table
    exact h.exists_lookup found
  | .list _, .key _ | .table _, .index _ | .null, _ | .bool _, _ | .number _, _ | .string _, _ =>
    contradiction

/-- What stands at a place is the same up to the order of keys. -/
theorem exists_at? (h : v.Reordered w) {steps : List Step} {u : Json}
    (found : v.at? steps = some u) : ∃ u', w.at? steps = some u' ∧ u.Reordered u' := by
  induction steps generalizing v w with
  | nil => exact ⟨w, rfl, Option.some.inj found ▸ h⟩
  | cons step steps ih =>
    obtain ⟨x, hx, found⟩ := at?_cons_eq_some_iff.1 found
    obtain ⟨y, hy, part⟩ := h.exists_part? hx
    obtain ⟨u', hu', same⟩ := ih part found
    exact ⟨u', at?_cons_eq_some_iff.2 ⟨y, hy, hu'⟩, same⟩

end Reordered

end SiteManifest.Json
