import Mathlib.Data.List.Forall2
import Mathlib.Data.List.TakeWhile
import SiteManifest.Shape.Decode

/-!
# Readings by their events

A reading succeeds if no event of the visit is a misfit, and then it has the value that is read. What
it counts as unknown are all events. So a reading without any complaint has no events at all.
-/
namespace SiteManifest

/-! ## Values by their parts -/

theorem mapM_eq_some_iff {f : Json → Option α} {vs : List Json} {as : List α} :
    vs.mapM f = some as ↔ List.Forall₂ (fun v a => f v = some a) vs as := by
  induction vs generalizing as with
  | nil => simp [eq_comm]
  | cons v vs ih =>
    simp only [List.mapM_cons, Option.bind_eq_bind, Option.bind_eq_some_iff, ih,
      List.forall₂_cons_left_iff]
    constructor
    · rintro ⟨a, ha, bs, hbs, h⟩
      exact ⟨a, bs, ha, hbs, (Option.some.inj h).symm⟩
    · rintro ⟨a, bs, ha, hbs, rfl⟩
      exact ⟨a, ha, bs, hbs, rfl⟩

theorem rel_none_iff {r : Json → α → Prop} {found : Option Json} :
    Option.Rel r found none ↔ found = none := by
  cases found <;> simp

theorem rel_some_iff {r : Json → α → Prop} {found : Option Json} {a : α} :
    Option.Rel r found (some a) ↔ ∃ v, found = some v ∧ r v a := by
  cases found <;> simp

/-- An optional value is read if it is there at all. -/
theorem elim_map_some_eq_some_iff {read : Json → Option α} {found : Option Json} {o : Option α} :
    (found.elim (some none) fun v => (read v).map some) = some o ↔
      Option.Rel (fun v a => read v = some a) found o := by
  cases o with
  | none => cases found <;> simp
  | some a => cases found <;> simp

theorem readChoice_eq_some_iff {variants : Variants α} {v : Json} {a : α} :
    readChoice variants v = some a ↔
      v = .string (variants.name a) ∨ v = .table [(variants.name a, .null)] := by
  constructor
  · intro h
    unfold readChoice at h
    split at h
    · exact .inl (by rw [Variants.name_of_find? h])
    · exact .inr (by rw [Variants.name_of_find? h])
    · contradiction
  · rintro (rfl | rfl) <;> simp [readChoice, Variants.find?_name]

theorem readNameOrPair_eq_some_iff {v : Json} {b : String ⊕ String × Members} :
    readNameOrPair v = some b ↔
      (∃ name, v = .string name ∧ b = .inl name) ∨
        ∃ name options, v = .list [.string name, .table options] ∧ b = .inr (name, options) := by
  constructor
  · intro h
    unfold readNameOrPair at h
    split at h
    · exact .inl ⟨_, rfl, (Option.some.inj h).symm⟩
    · exact .inr ⟨_, _, rfl, (Option.some.inj h).symm⟩
    · contradiction
  · rintro (⟨name, rfl, rfl⟩ | ⟨name, options, rfl, rfl⟩) <;> rfl

theorem Packing.pack_eq_iff (packing : Packing β α) {b : β} {a : α} :
    packing.pack b = a ↔ packing.unpack a = b := by
  constructor
  · rintro rfl
    exact packing.unpack_pack b
  · rintro rfl
    exact packing.pack_unpack a

/-! ## Events -/

/-- Nothing stops a reading exactly if no event is a misfit. -/
theorem findSome?_misfit?_eq_none_iff {events : List Event} :
    events.findSome? Event.misfit? = none ↔ AllFit events := by
  refine ⟨allFit_of_findSome?_eq_none, fun fit => ?_⟩
  rw [List.findSome?_eq_none_iff]
  intro e he
  simp [Event.misfit?, fit e he]

theorem takeWhile_isUnknown_eq_self {events : List Event} (fit : AllFit events) :
    events.takeWhile Event.isUnknown = events := by
  rw [List.takeWhile_eq_self_iff]
  intro e he
  simp [Event.isUnknown, fit e he]

namespace Shape

theorem result_decode_eq_ok_iff {s : Shape α} {v : Json} {a : α} :
    (s.decode v).result = .ok a ↔ AllFit (s.visit v) ∧ s.read v = some a := by
  unfold decode
  dsimp only
  split
  next m h =>
    have unfit : ¬AllFit (s.visit v) := by
      rw [← findSome?_misfit?_eq_none_iff, h]
      simp
    simp [unfit]
  next h =>
    have fit := allFit_of_findSome?_eq_none h
    simp [fit, Option.eq_some_iff_get_eq, s.isSome_read v fit]

/-- Without a misfit nothing cuts the list of what is unknown. -/
theorem unknown_decode {s : Shape α} {v : Json} (fit : AllFit (s.visit v)) :
    (s.decode v).unknown = (s.visit v).map (·.steps) := by
  simp [decode, takeWhile_isUnknown_eq_self fit]

theorem decode_eq_iff {s : Shape α} {v : Json} {a : α} :
    s.decode v = ⟨[], .ok a⟩ ↔ s.visit v = [] ∧ s.read v = some a := by
  constructor
  · intro h
    obtain ⟨fit, read⟩ := result_decode_eq_ok_iff.1 (congrArg Reading.result h)
    have none_unknown := (unknown_decode fit).symm.trans (congrArg Reading.unknown h)
    exact ⟨List.map_eq_nil_iff.1 none_unknown, read⟩
  · rintro ⟨visit, read⟩
    have fit : AllFit (s.visit v) := visit ▸ allFit_nil
    have result := result_decode_eq_ok_iff.2 ⟨fit, read⟩
    have unknown := unknown_decode fit
    rw [visit] at unknown
    cases h : s.decode v
    simp_all

end Shape

end SiteManifest
