import Mathlib.Data.List.Forall2
import Mathlib.Data.List.Perm.Subperm
import SiteManifest.Proofs.Json.Keys

/-!
# Values up to the order of keys

Two values are the same if the members of every table of one can be put in an order in which they
match those of the other, key by key. Lists keep their order, and everything else is equal.
-/
namespace SiteManifest.Json

mutual

/-- The same value up to the order of keys. -/
def Same : Json → Json → Prop
  | .list vs, w => ∃ ws, w = .list ws ∧ SameItems vs ws
  | .table ms, w => ∃ ns row, w = .table ns ∧ ns.Perm row ∧ SameRow ms row
  | v, w => v = w

def SameItems : List Json → List Json → Prop
  | [], ws => ws = []
  | v :: vs, ws => ∃ w rest, ws = w :: rest ∧ v.Same w ∧ SameItems vs rest

/-- Members in the same order. -/
def SameRow : List (String × Json) → List (String × Json) → Prop
  | [], ns => ns = []
  | (key, v) :: ms, ns => ∃ w rest, ns = (key, w) :: rest ∧ v.Same w ∧ SameRow ms rest

end

theorem sameItems_iff {vs ws : List Json} : SameItems vs ws ↔ List.Forall₂ Same vs ws := by
  induction vs generalizing ws with
  | nil => simp [SameItems]
  | cons v vs ih =>
    simp only [SameItems, ih, List.forall₂_cons_left_iff]
    constructor
    · rintro ⟨w, rest, rfl, same, below⟩
      exact ⟨w, rest, same, below, rfl⟩
    · rintro ⟨w, rest, same, below, rfl⟩
      exact ⟨w, rest, rfl, same, below⟩

/-- Items that match one by one match at every index. -/
theorem exists_getElem?_of_forall₂ {r : α → β → Prop} {as : List α} {bs : List β}
    (h : List.Forall₂ r as bs) {i : Nat} {b : β} (hb : bs[i]? = some b) :
    ∃ a, as[i]? = some a ∧ r a b := by
  induction h generalizing i with
  | nil => contradiction
  | cons here _ ih =>
    cases i with
    | zero => exact ⟨_, rfl, Option.some.inj hb ▸ here⟩
    | succ i => exact ih hb

theorem sameRow_iff {ms ns : Members} :
    SameRow ms ns ↔ List.Forall₂ (fun m n => m.1 = n.1 ∧ m.2.Same n.2) ms ns := by
  induction ms generalizing ns with
  | nil => simp [SameRow]
  | cons m ms ih =>
    simp only [SameRow, ih, List.forall₂_cons_left_iff]
    constructor
    · rintro ⟨w, rest, rfl, same, below⟩
      exact ⟨(m.1, w), rest, ⟨rfl, same⟩, below, rfl⟩
    · rintro ⟨⟨key, w⟩, rest, ⟨hk, same⟩, below, rfl⟩
      obtain rfl : m.1 = key := hk
      exact ⟨w, rest, rfl, same, below⟩

theorem same_list_iff {vs ws : List Json} :
    (Json.list vs).Same (.list ws) ↔ List.Forall₂ Same vs ws := by
  simp [Same, sameItems_iff]

mutual

theorem Same.refl (v : Json) : v.Same v := by
  match v with
  | .list vs => exact ⟨vs, rfl, SameItems.refl vs⟩
  | .table members => exact ⟨members, members, rfl, .refl members, SameRow.refl members⟩
  | .null | .bool _ | .number _ | .string _ => rfl

theorem SameItems.refl (vs : List Json) : SameItems vs vs := by
  match vs with
  | [] => rfl
  | v :: vs => exact ⟨v, vs, rfl, Same.refl v, SameItems.refl vs⟩

theorem SameRow.refl (members : Members) : SameRow members members := by
  match members with
  | [] => rfl
  | (_, v) :: members => exact ⟨v, members, rfl, Same.refl v, SameRow.refl members⟩

end

theorem exists_mem_of_sameRow {ms ns : Members} (same : SameRow ms ns) {m : String × Json}
    (hm : m ∈ ms) : ∃ w, (m.1, w) ∈ ns ∧ m.2.Same w := by
  induction ms generalizing ns with
  | nil => contradiction
  | cons first ms ih =>
    obtain ⟨w, rest, rfl, here, below⟩ := same
    rcases List.mem_cons.1 hm with rfl | hm
    · exact ⟨w, List.mem_cons_self, here⟩
    · obtain ⟨w', hw', same'⟩ := ih below hm
      exact ⟨w', List.mem_cons_of_mem _ hw', same'⟩

/-- Tables are the same if they have as many keys and what is under the keys of one is the same in
the other. -/
theorem same_table_iff {ms ns : Members} (msOnce : (ms.map (·.1)).Nodup)
    (nsOnce : (ns.map (·.1)).Nodup) :
    (Json.table ms).Same (.table ns) ↔
      ms.length = ns.length ∧ ∀ m ∈ ms, ∃ w, ns.lookup m.1 = some w ∧ m.2.Same w := by
  constructor
  · rintro ⟨_, row, ⟨⟩, perm, same⟩
    have length := (sameRow_iff.1 same).length_eq.trans perm.length_eq.symm
    refine ⟨length, fun m hm => ?_⟩
    obtain ⟨w, hw, sameValue⟩ := exists_mem_of_sameRow same hm
    exact ⟨w, (mem_iff_lookup_eq_some nsOnce).1 (perm.mem_iff.2 hw), sameValue⟩
  · rintro ⟨length, same⟩
    choose! value found same using same
    let row := ms.map fun m => (m.1, value m)
    have row_keys : row.map (·.1) = ms.map (·.1) := by simp [row, Function.comp_def]
    have subset : row ⊆ ns := by
      intro n hn
      obtain ⟨m, hm, rfl⟩ := List.mem_map.1 hn
      exact mem_of_lookup (found m hm)
    have nodup : row.Nodup := List.Nodup.of_map (·.1) (row_keys ▸ msOnce)
    have perm : row.Perm ns :=
      (nodup.subperm subset).perm_of_length_le (by simp [row, length])
    refine ⟨ns, row, rfl, perm.symm, sameRow_iff.2 ?_⟩
    rw [List.forall₂_map_right_iff, List.forall₂_same]
    exact fun m hm => ⟨rfl, same m hm⟩

end SiteManifest.Json
