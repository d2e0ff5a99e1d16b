import SiteManifest.Proofs.Shape.Visits

/-!
# The order of events

A visit meets what is unknown in the order of reading, and a misfit is met after everything unknown
that reading passes before it. So a reader that stops at the first misfit has told of exactly the
unknown things that stand before the place where it stopped.

## Main statements

* `Shape.pairwise_visit`: the order of the events of a visit.
* `Shape.enumerates_unknown`: what a reading that succeeds tells as unknown.
* `Shape.enumerates_unknown_before`: what a reading that stops has told as unknown.
-/
namespace SiteManifest

/-- Two events of which one is about something unknown are met in the order of reading. Two keys
that are missing have no order. -/
def Json.Meets (v : Json) (e f : Event) : Prop :=
  e.what = .unknown ∨ f.what = .unknown → v.Before e.steps f.steps

@[simp] theorem Json.rank_index (v : Json) (i : Nat) : v.rank (.index i) = i := by
  cases v <;> rfl

/-! ## Events of the parts -/

theorem pairwise_meets_of_misfits {v : Json} {es : List Event} (h : ∀ e ∈ es, e.what ≠ .unknown) :
    es.Pairwise v.Meets := by
  refine List.pairwise_of_forall_mem_list fun e he f hf unknown => ?_
  exact absurd unknown (not_or.2 ⟨h e he, h f hf⟩)

theorem pairwise_meets_below {v w : Json} {step : Step} (hw : v.part? step = some w)
    {es : List Event} (h : es.Pairwise w.Meets) : (Located.below step es).Pairwise v.Meets := by
  rw [Located.below, List.pairwise_map]
  exact h.imp fun {e f} before unknown => Json.before_cons hw (before unknown)

theorem pairwise_meets_each {v : Json} {visit : Json → List Event} {first : Nat} {vs : List Json}
    (hv : ∀ i w, vs[i]? = some w → v.part? (.index (first + i)) = some w)
    (h : ∀ w ∈ vs, (visit w).Pairwise w.Meets) :
    (Located.each visit first vs).Pairwise v.Meets := by
  induction vs generalizing first with
  | nil => exact List.Pairwise.nil
  | cons w vs ih =>
    obtain ⟨here, below⟩ := List.forall_mem_cons.1 h
    have next (i : Nat) (u : Json) (hu : vs[i]? = some u) :
        v.part? (.index (first + 1 + i)) = some u := by
      rw [Nat.add_assoc, Nat.add_comm 1]
      exact hv (i + 1) u (by simpa using hu)
    refine List.pairwise_append.2 ⟨pairwise_meets_below (hv 0 w rfl) here, ih next below, ?_⟩
    intro e he f hf _
    obtain ⟨x, _, rfl⟩ := Located.mem_below_iff.1 he
    obtain ⟨i, _, y, _, _, rfl⟩ := Located.mem_each_iff.1 hf
    refine Json.before_of_rank_lt ?_
    simp only [Json.rank_index]
    omega

theorem pairwise_meets_visitMembers {v : Json} {keys : List String}
    {visit : String → Json → List Event} {members : Members}
    (order : members.Pairwise fun m n => v.rank (.key m.1) < v.rank (.key n.1))
    (hv : ∀ m ∈ members, v.part? (.key m.1) = some m.2)
    (h : ∀ m ∈ members, (visit m.1 m.2).Pairwise m.2.Meets) :
    (visitMembers keys visit members).Pairwise v.Meets := by
  induction members with
  | nil => exact List.Pairwise.nil
  | cons m members ih =>
    obtain ⟨first, order⟩ := List.pairwise_cons.1 order
    obtain ⟨found, hv⟩ := List.forall_mem_cons.1 hv
    obtain ⟨here, below⟩ := List.forall_mem_cons.1 h
    have head : (if m.1 ∈ keys then Located.below (.key m.1) (visit m.1 m.2)
        else [⟨[.key m.1], .unknown⟩]).Pairwise v.Meets := by
      split
      · exact pairwise_meets_below found here
      · exact List.pairwise_singleton _ _
    refine List.pairwise_append.2 ⟨head, ih order hv below, ?_⟩
    intro e he f hf _
    obtain ⟨p, hp⟩ : ∃ p, e.steps = .key m.1 :: p := by
      split at he
      · obtain ⟨x, _, rfl⟩ := Located.mem_below_iff.1 he
        exact ⟨x.steps, rfl⟩
      · rw [List.mem_singleton.1 he]
        exact ⟨[], rfl⟩
    obtain ⟨n, hn, q, hq⟩ : ∃ n ∈ members, ∃ q, f.steps = .key n.1 :: q := by
      obtain ⟨n, hn, ⟨_, rfl⟩ | ⟨_, y, _, rfl⟩⟩ := mem_visitMembers_iff.1 hf
      · exact ⟨n, hn, [], rfl⟩
      · exact ⟨n, hn, y.steps, rfl⟩
    rw [hp, hq]
    exact Json.before_of_rank_lt (first n hn)

theorem pairwise_meets_visitTable {fields : Fields β} {members : Members}
    (once : (members.map (·.1)).Nodup)
    (h : ∀ m ∈ members, (fields.visitKey m.1 m.2).Pairwise m.2.Meets) :
    (visitMembers fields.keys fields.visitKey members ++ fields.visitMissing members).Pairwise
      (Json.table members).Meets := by
  have found (m : String × Json) (hm : m ∈ members) :
      (Json.table members).part? (.key m.1) = some m.2 :=
    (Json.mem_iff_lookup_eq_some once).1 hm
  have order : (visitMembers fields.keys fields.visitKey members).Pairwise
      (Json.table members).Meets :=
    pairwise_meets_visitMembers (Json.pairwise_rank_lt once) found h
  have missing : (fields.visitMissing members).Pairwise (Json.table members).Meets := by
    refine pairwise_meets_of_misfits fun e he => ?_
    obtain ⟨_, _, _, _, rfl⟩ := fields.mem_visitMissing_iff.1 he
    nofun
  refine List.pairwise_append.2 ⟨order, missing, fun e he f hf _ => ?_⟩
  obtain ⟨_, _, _, absent, rfl⟩ := fields.mem_visitMissing_iff.1 hf
  obtain ⟨m, hm, ⟨_, rfl⟩ | ⟨_, x, _, rfl⟩⟩ := mem_visitMembers_iff.1 he
  · exact Json.before_of_rank_lt (Json.rank_lt_of_not_mem (List.mem_map_of_mem hm) absent)
  · exact Json.before_of_rank_lt (Json.rank_lt_of_not_mem (List.mem_map_of_mem hm) absent)

theorem mem_nameAndOptions (name options : Json) {e : Event}
    (h : e ∈ Located.each visitText 0 [name] ++ Located.each visitOptions 1 [options]) :
    e.what ≠ .unknown ∧ ∃ i p, i < 2 ∧ e.steps = .index i :: p := by
  simp only [Located.each, List.append_nil, List.mem_append, Located.mem_below_iff] at h
  rcases h with ⟨x, hx, rfl⟩ | ⟨x, hx, rfl⟩
  · refine ⟨?_, 0, x.steps, by decide, rfl⟩
    cases name <;> simp_all [visitText, Event.misfit, Located.here, Located.under]
  · refine ⟨?_, 1, x.steps, by decide, rfl⟩
    cases options <;> simp_all [visitOptions, Event.misfit, Located.here, Located.under]

/-- In a pair that is too long the surplus item is met after the others and before their number. -/
theorem pairwise_meets_visitParts {wanted : String} {vs : List Json} :
    (visitParts wanted vs).Pairwise (Json.list vs).Meets := by
  match vs with
  | [] => exact List.pairwise_singleton _ _
  | [name] =>
    refine pairwise_meets_of_misfits fun e he => ?_
    rcases List.mem_append.1 he with he | he
    · exact (mem_nameAndOptions name .null (List.mem_append_left _ he)).1
    · rw [List.mem_singleton.1 he]
      nofun
  | [name, options] => exact pairwise_meets_of_misfits fun e he => (mem_nameAndOptions _ _ he).1
  | name :: options :: surplus :: rest =>
    have parts : (Located.each visitText 0 [name] ++ Located.each visitOptions 1 [options]).Pairwise
        (Json.list (name :: options :: surplus :: rest)).Meets :=
      pairwise_meets_of_misfits fun e he => (mem_nameAndOptions _ _ he).1
    refine List.pairwise_append.2 ⟨parts, List.pairwise_pair.2 fun _ => trivial, ?_⟩
    intro e he f hf unknown
    obtain ⟨misfit, i, p, hi, steps⟩ := mem_nameAndOptions _ _ he
    rw [steps]
    rcases List.mem_cons.1 hf with rfl | hf
    · exact Json.before_of_rank_lt (by simpa using hi)
    · rw [List.mem_singleton.1 hf] at unknown ⊢
      trivial

/-! ## Visits -/

mutual

/-- Of two events of a visit, one of them about something unknown, the first stands before the
second in the order of reading. -/
theorem Shape.pairwise_visit (s : Shape α) (once : s.KeysOnce) {v : Json} (vOnce : v.KeysOnce) :
    (s.visit v).Pairwise v.Meets := by
  match s with
  | .text => cases v <;> simp [Shape.visit, visitText]
  | .flag => cases v <;> simp [Shape.visit, visitFlag]
  | .choice variants =>
    refine pairwise_meets_of_misfits fun e he => ?_
    obtain ⟨m, _, rfl⟩ := mem_visitChoice_iff.1 he
    nofun
  | .list item =>
    cases v with
    | list vs =>
      exact pairwise_meets_each (by simp [Json.part?]) fun w hw =>
        item.pairwise_visit once (Json.keysOnceItems_iff.1 vOnce w hw)
    | null | bool | number | string | table => exact List.pairwise_singleton _ _
  | .record name fields packing =>
    cases v with
    | table members =>
      exact pairwise_meets_visitTable vOnce.1 fun m hm =>
        fields.pairwise_visitKey once (Json.keysOnceMembers_iff.1 vOnce.2 m hm)
    | list vs =>
      exact fields.pairwise_visitFields once _ 0 (by simp [Json.part?])
        (Json.keysOnceItems_iff.1 vOnce)
    | null | bool | number | string => exact List.pairwise_singleton _ _
  | .listOrTable wanted item fields packing =>
    cases v with
    | list vs =>
      exact pairwise_meets_each (by simp [Json.part?]) fun w hw =>
        item.pairwise_visit once.1 (Json.keysOnceItems_iff.1 vOnce w hw)
    | table members =>
      exact pairwise_meets_visitTable vOnce.1 fun m hm =>
        fields.pairwise_visitKey once.2 (Json.keysOnceMembers_iff.1 vOnce.2 m hm)
    | null | bool | number | string => exact List.pairwise_singleton _ _
  | .nameOrPair wanted packing =>
    cases v with
    | list vs => exact pairwise_meets_visitParts
    | string => exact .nil
    | null | bool | number | table => exact List.pairwise_singleton _ _

theorem Fields.pairwise_visitKey (fields : Fields β) (once : fields.KeysOnce) {key : String}
    {v : Json} (vOnce : v.KeysOnce) : (fields.visitKey key v).Pairwise v.Meets := by
  match fields with
  | .done => exact .nil
  | .required name shape rest | .optional name shape rest =>
    by_cases same : key = name
    · obtain rfl := same
      simpa [Fields.visitKey, rest.visitKey_eq_nil once.1] using
        shape.pairwise_visit once.2.1 vOnce
    · simpa [Fields.visitKey, same] using rest.pairwise_visitKey once.2.2 vOnce

theorem Fields.pairwise_visitFields (fields : Fields β) (once : fields.KeysOnce)
    (wanted : String) (first : Nat) {v : Json} {vs : List Json}
    (hv : ∀ i w, vs[i]? = some w → v.part? (.index (first + i)) = some w)
    (vsOnce : ∀ w ∈ vs, w.KeysOnce) :
    (fields.visitFields wanted first vs).Pairwise v.Meets := by
  match fields, vs with
  | .done, [] => exact .nil
  | .done, _ :: _ => exact List.pairwise_singleton _ _
  | .required key shape rest, [] => exact List.pairwise_singleton _ _
  | .optional key shape rest, [] =>
    exact rest.pairwise_visitFields once.2.2 wanted (first + 1) (v := v) nofun vsOnce
  | .required key shape rest, w :: vs | .optional key shape rest, w :: vs =>
    obtain ⟨wOnce, vsOnce⟩ := List.forall_mem_cons.1 vsOnce
    have next (i : Nat) (u : Json) (hu : vs[i]? = some u) :
        v.part? (.index (first + 1 + i)) = some u := by
      rw [Nat.add_assoc, Nat.add_comm 1]
      exact hv (i + 1) u (by simpa using hu)
    have here := pairwise_meets_below (hv 0 w rfl) (shape.pairwise_visit once.2.1 wOnce)
    have below := rest.pairwise_visitFields once.2.2 wanted (first + 1) next vsOnce
    refine List.pairwise_append.2 ⟨here, below, fun e he f hf _ => ?_⟩
    obtain ⟨x, _, rfl⟩ := Located.mem_below_iff.1 he
    rcases (rest.mem_visitFields_iff once.2.2 _ _ vsOnce).1 hf with
      ⟨m, _, rfl⟩ | ⟨i, _, _, y, _, _, _, rfl⟩
    · trivial
    · refine Json.before_of_rank_lt ?_
      simp only [Json.rank_index]
      omega

end

/-! ## What a reading tells as unknown -/

namespace Shape

variable {s : Shape α} {v : Json}

theorem exists_result_eq_error {m : Located Misfit} (h : (s.decode v).result = .error m) :
    ∃ told rest, s.visit v = told ++ ⟨m.steps, .misfit m.what⟩ :: rest ∧ AllFit told ∧
      (s.decode v).unknown = told.map (·.steps) := by
  have stop : (s.visit v).findSome? Event.misfit? = some m := by
    unfold decode at h
    dsimp only at h
    split at h
    next found => rwa [Except.error.inj h] at found
    next => contradiction
  obtain ⟨told, e, rest, visit, he, fit⟩ := List.findSome?_eq_some_iff.1 stop
  have fit : AllFit told := findSome?_misfit?_eq_none_iff.1 (List.findSome?_eq_none_iff.2 fit)
  obtain rfl : e = ⟨m.steps, .misfit m.what⟩ := by
    obtain ⟨steps, what⟩ := e
    cases what with
    | unknown => contradiction
    | misfit cause =>
      obtain rfl := Option.some.inj he
      rfl
  refine ⟨told, rest, visit, fit, ?_⟩
  have known : ∀ e ∈ told, Event.isUnknown e = true := by
    simpa only [List.takeWhile_eq_self_iff] using takeWhile_isUnknown_eq_self fit
  have taken : (s.decode v).unknown = ((s.visit v).takeWhile Event.isUnknown).map (·.steps) := rfl
  rw [taken, visit, List.takeWhile_append_of_pos known,
    List.takeWhile_cons_of_neg (by simp [Event.isUnknown]), List.append_nil]

/-- Unknown events that are met in some order are met in the order of reading. -/
theorem pairwise_before_of_allFit {events : List Event} (h : events.Pairwise v.Meets)
    (fit : AllFit events) : (events.map (·.steps)).Pairwise v.Before := by
  rw [List.pairwise_map]
  exact h.imp_of_mem fun he _ meets => meets (.inl (fit _ he))

theorem enumerates_of_pairwise {p : List Step → Prop} {places : List (List Step)}
    (h : ∀ steps, steps ∈ places ↔ p steps) (order : places.Pairwise v.Before) :
    v.Enumerates p places where
  mem_iff := h
  inOrder := order
  nodup := by
    refine List.Pairwise.imp ?_ order
    rintro p _ before rfl
    exact Json.not_before_self before

theorem mem_map_steps_iff {events : List Event} (fit : AllFit events) {steps : List Step} :
    steps ∈ events.map (·.steps) ↔ ⟨steps, .unknown⟩ ∈ events := by
  rw [List.mem_map]
  constructor
  · rintro ⟨e, he, rfl⟩
    rw [← fit e he]
    exact he
  · intro h
    exact ⟨_, h, rfl⟩

/-- A reading that succeeds tells of all that is unknown, in the order of reading. -/
theorem enumerates_unknown (once : s.KeysOnce) (vOnce : v.KeysOnce) {a : α}
    (h : (s.decode v).result = .ok a) :
    v.Enumerates (fun steps => (Wanted.shape s).Finds v ⟨steps, .unknown⟩)
      (s.decode v).unknown := by
  obtain ⟨fit, _⟩ := result_decode_eq_ok_iff.1 h
  rw [unknown_decode fit]
  refine enumerates_of_pairwise (fun steps => ?_)
    (pairwise_before_of_allFit (s.pairwise_visit once vOnce) fit)
  rw [mem_map_steps_iff fit, s.mem_visit_iff once vOnce]

/-- A reading that stops has told of what is unknown before the place where it stopped. -/
theorem enumerates_unknown_before (once : s.KeysOnce) (vOnce : v.KeysOnce) {m : Located Misfit}
    (h : (s.decode v).result = .error m) :
    v.Enumerates
      (fun steps => (Wanted.shape s).Finds v ⟨steps, .unknown⟩ ∧ v.Before steps m.steps)
      (s.decode v).unknown := by
  obtain ⟨told, rest, visit, fit, unknown⟩ := exists_result_eq_error h
  have order := s.pairwise_visit once vOnce
  rw [visit] at order
  obtain ⟨orderTold, orderRest, across⟩ := List.pairwise_append.1 order
  rw [unknown]
  refine enumerates_of_pairwise (fun steps => ?_) (pairwise_before_of_allFit orderTold fit)
  rw [mem_map_steps_iff fit, ← s.mem_visit_iff once vOnce, visit]
  constructor
  · intro he
    exact ⟨List.mem_append_left _ he, across _ he _ List.mem_cons_self (.inl rfl)⟩
  · rintro ⟨he, before⟩
    rcases List.mem_append.1 he with he | he
    · exact he
    · rcases List.mem_cons.1 he with same | he
      · exact absurd (congrArg Located.what same) nofun
      · -- What is met after the misfit does not stand before it.
        have later := (List.pairwise_cons.1 orderRest).1 _ he (.inr rfl)
        exact absurd before later.asymm

end Shape

end SiteManifest
