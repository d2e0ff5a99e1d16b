import SiteManifest.Proofs.Shape.Order

/-!
# Values without what is unknown

What a reader tells as unknown does not matter for anything else: if it is taken out of a value that
is read, the rest is read as before, and nothing unknown is left.

## Main statements

* `Shape.decode_without_unknown`: a value less its unknown keys is read as the same thing.
-/
namespace SiteManifest

open Json (without withoutItems withoutMembers)

namespace Wanted

/-- Nothing is wanted where something unknown is. -/
theorem part?_of_raises_unknown {w : Wanted} {v : Json} {steps : List Step}
    (h : w.Raises v ⟨steps, .unknown⟩) : ∃ step, steps = [step] ∧ w.part? step = none := by
  cases h with
  | @unknown _ _ key hr _ other =>
    refine ⟨.key key, rfl, ?_⟩
    cases hx : w.part? (.key key) with
    | none => rfl
    | some x => exact absurd (mem_keys_of_part? hr hx) other
  | surplus pair =>
    refine ⟨.index 2, rfl, ?_⟩
    unfold IsPair at pair
    split at pair
    · rfl
    · contradiction

/-- Options are not looked into, so nothing in them is unknown. -/
theorem not_prefix_of_finds_unknown {w : Wanted} {v : Json} {steps inside : List Step}
    (h : w.Finds v ⟨steps, .unknown⟩) (options : w.at? inside = some .options) :
    ¬inside <+: steps := by
  rintro ⟨inner, rfl⟩
  obtain ⟨place, x, u, ⟨_, _⟩, hx, _, raises, same⟩ := h
  obtain rfl := congrArg Located.what same
  obtain ⟨step, rfl, none_wanted⟩ := part?_of_raises_unknown raises
  have quiet : x ≠ .options := by
    rintro rfl
    cases raises <;> contradiction
  have same : inside ++ inner = place ++ [step] := congrArg Located.steps same
  rcases List.append_eq_append_iff.1 same with ⟨rest, rfl, _⟩ | ⟨rest, rfl, last⟩
  · rw [at?_append, options, Option.bind_some] at hx
    obtain rfl := at?_options hx
    exact quiet (Option.some.inj hx).symm
  · rw [at?_append, hx, Option.bind_some] at options
    cases rest with
    | nil => exact quiet (Option.some.inj options)
    | cons first rest =>
      obtain rfl := (List.cons.inj last).1
      simp [at?, none_wanted] at options

end Wanted

/-- What is gone are the unknown things in a value. -/
def Wanted.TellsGone (w : Wanted) (v : Json) (gone : List Step → Bool) : Prop :=
  ∀ steps, gone steps = true ↔ w.Finds v ⟨steps, .unknown⟩

namespace Wanted

theorem not_finds_unknown_nil {w : Wanted} {v : Json} : ¬w.Finds v ⟨[], .unknown⟩ := by
  rw [finds_unknown_iff]
  rintro (⟨place, _, _, _, _, _, _, _, _, _, same⟩ | ⟨place, _, _, _, _, _, _, same⟩) <;>
    simp at same

theorem finds_cons_iff {w x : Wanted} {v u : Json} {step : Step} {steps : List Step}
    {what : Sighting} (hx : w.part? step = some x) (hu : v.part? step = some u)
    (quiet : ¬w.Raises v ⟨step :: steps, what⟩) :
    w.Finds v ⟨step :: steps, what⟩ ↔ x.Finds u ⟨steps, what⟩ := by
  rw [finds_iff, or_iff_right quiet]
  constructor
  · rintro ⟨step', x', u', inner, hx', hu', finds, same⟩
    obtain ⟨rfl, rfl⟩ := List.cons.inj (congrArg Located.steps same)
    obtain rfl := congrArg Located.what same
    obtain rfl := Option.some.inj (hx.symm.trans hx')
    obtain rfl := Option.some.inj (hu.symm.trans hu')
    exact finds
  · intro finds
    exact ⟨step, x, u, _, hx, hu, finds, rfl⟩

/-- Of a list nothing unknown is said but the surplus of a pair. -/
theorem not_raises_list_unknown {w : Wanted} (hp : ¬w.IsPair) {vs : List Json}
    {steps : List Step} : ¬w.Raises (.list vs) ⟨steps, .unknown⟩ := by
  intro raises
  cases raises with
  | surplus pair => exact hp pair

theorem raises_table_unknown_iff {w : Wanted} {rules : List FieldRule}
    (hr : w.rules? = some rules) {members : Members} {key : String} {steps : List Step} :
    w.Raises (.table members) ⟨.key key :: steps, .unknown⟩ ↔
      key ∈ members.map (·.1) ∧ key ∉ rules.map (·.key) ∧ steps = [] := by
  constructor
  · intro raises
    cases raises with
    | unknown hr' hk other =>
      obtain rfl := Option.some.inj (hr.symm.trans hr')
      exact ⟨hk, other, rfl⟩
  · rintro ⟨hk, other, rfl⟩
    exact .unknown hr hk other

/-- The unknown keys of a record are those that it does not have. -/
theorem finds_key_iff {w : Wanted} {rules : List FieldRule} (hr : w.rules? = some rules)
    {members : Members} {key : String} :
    w.Finds (.table members) ⟨[.key key], .unknown⟩ ↔
      key ∈ members.map (·.1) ∧ key ∉ rules.map (·.key) := by
  rw [finds_iff, raises_table_unknown_iff hr, or_iff_left, and_iff_left rfl]
  rintro ⟨step, x, u, ⟨steps, what⟩, _, _, finds, same⟩
  obtain ⟨_, rfl⟩ := List.cons.inj (congrArg Located.steps same)
  obtain rfl := congrArg Located.what same
  exact not_finds_unknown_nil finds

theorem TellsGone.part {w x : Wanted} {v u : Json} {step : Step} {gone : List Step → Bool}
    (tells : w.TellsGone v gone) (hx : w.part? step = some x) (hu : v.part? step = some u)
    (quiet : ∀ steps, ¬w.Raises v ⟨step :: steps, .unknown⟩) :
    x.TellsGone u fun steps => gone (step :: steps) :=
  fun steps => (tells _).trans (finds_cons_iff hx hu (quiet steps))

end Wanted

/-! ## Parts -/

/-- A shape reads a value as before when what is unknown is gone, and has nothing to tell. -/
def Shape.ReadsWithout (s : Shape α) (v : Json) : Prop :=
  ∀ gone, (Wanted.shape s).TellsGone v gone →
    s.visit (v.without gone) = [] ∧ s.read (v.without gone) = s.read v

/-- Where nothing is met, nothing is gone. -/
theorem Shape.readsWithout_of_visit_eq_nil {s : Shape α} (once : s.KeysOnce) {v : Json}
    (vOnce : v.KeysOnce) (visit : s.visit v = []) : s.ReadsWithout v := by
  intro gone tells
  have none_gone (steps : List Step) : gone steps = false := by
    rw [Bool.eq_false_iff, Ne, tells, ← s.mem_visit_iff once vOnce, visit]
    exact List.not_mem_nil
  rw [v.without_eq_self none_gone]
  exact ⟨visit, rfl⟩

/-- If all that can be met are misfits, a value that fits is one where nothing is met. -/
theorem eq_nil_of_allFit {events : List Event} (misfits : ∀ e ∈ events, e.what ≠ .unknown)
    (fit : AllFit events) : events = [] :=
  List.eq_nil_iff_forall_not_mem.2 fun e he => misfits e he (fit e he)

theorem items_without {item : Shape α} (gone : List Step → Bool) (first : Nat) {vs : List Json}
    (h : ∀ v ∈ vs, item.ReadsWithout v)
    (tells : ∀ i v, vs[i]? = some v →
      (Wanted.shape item).TellsGone v fun steps => gone (.index (first + i) :: steps)) :
    Located.each item.visit first (withoutItems gone first vs) = [] ∧
      (withoutItems gone first vs).mapM item.read = vs.mapM item.read := by
  induction vs generalizing first with
  | nil => exact ⟨rfl, rfl⟩
  | cons v vs ih =>
    obtain ⟨here, below⟩ := List.forall_mem_cons.1 h
    obtain ⟨visit, read⟩ := here _ (tells 0 v rfl)
    obtain ⟨visitRest, readRest⟩ := ih (first + 1) below fun i w hw => by
      have next := tells (i + 1) w (by simpa using hw)
      rwa [Nat.add_comm i, ← Nat.add_assoc] at next
    rw [Nat.add_zero] at visit read
    constructor
    · rw [withoutItems, Located.each, visit, visitRest]
      rfl
    · rw [withoutItems, List.mapM_cons, List.mapM_cons, read, readRest]

/-- A record that fits, less the keys it does not have, is a table of known keys and nothing is
missing. -/
theorem Fields.visitTable_without (fields : Fields β) {gone : List Step → Bool}
    {members : Members} (fit : AllFit (fields.visitMissing members))
    (tells : ∀ m ∈ members, gone [.key m.1] = true ↔ m.1 ∉ fields.keys)
    (known : ∀ m ∈ members,
      fields.visitKey m.1 (m.2.without fun steps => gone (.key m.1 :: steps)) = []) :
    visitMembers fields.keys fields.visitKey (withoutMembers gone members) ++
      fields.visitMissing (withoutMembers gone members) = [] := by
  refine List.append_eq_nil_iff.2 ⟨visitMembers_eq_nil_iff.2 fun n hn => ?_, ?_⟩
  · obtain ⟨m, hm, kept, rfl⟩ := Json.mem_withoutMembers_iff.1 hn
    exact ⟨by simpa [kept] using tells m hm, known m hm⟩
  · refine List.eq_nil_iff_forall_not_mem.2 fun e he => ?_
    obtain ⟨rule, hrule, needed, absent, _⟩ := fields.mem_visitMissing_iff.1 he
    obtain ⟨v, hv⟩ := (fields.allFit_visitMissing_iff members).1 fit rule hrule needed
    have key : rule.key ∈ fields.keys := by
      rw [fields.keys_eq_map_rules]
      exact List.mem_map_of_mem hrule
    have kept : gone [.key rule.key] = false := by
      simpa [key] using tells (rule.key, v) hv
    exact absent (List.mem_map.2 ⟨_, Json.mem_withoutMembers_iff.2 ⟨_, hv, kept, rfl⟩, rfl⟩)

theorem lookup_wanted_cons_of_ne {key name : String} {x : Wanted}
    {fields : List (String × Wanted)} (h : key ≠ name) :
    ((name, x) :: fields).lookup key = fields.lookup key := by
  rw [List.lookup_cons, beq_false_of_ne h]

/-- The shapes of all fields read the values that fit as before. -/
def Fields.ReadsWithout : Fields β → Prop
  | .done => True
  | .required _ shape rest | .optional _ shape rest =>
    (∀ v : Json, v.KeysOnce → AllFit (shape.visit v) → shape.ReadsWithout v) ∧ rest.ReadsWithout

/-! ## Fields -/

theorem Fields.visitKey_without (fields : Fields β) (once : fields.KeysOnce)
    (reads : fields.ReadsWithout) {key : String} {v : Json} (vOnce : v.KeysOnce)
    (fit : AllFit (fields.visitKey key v)) {gone : List Step → Bool}
    (tells : ∀ x, fields.wanted.lookup key = some x → x.TellsGone v gone) :
    fields.visitKey key (v.without gone) = [] := by
  match fields with
  | .done => rfl
  | .required name shape rest | .optional name shape rest =>
    by_cases same : key = name
    · obtain rfl := same
      have unknown_below (w : Json) : rest.visitKey key w = [] := rest.visitKey_eq_nil once.1
      have fit : AllFit (shape.visit v) := by
        simpa [Fields.visitKey, unknown_below] using fit
      have here := reads.1 v vOnce fit gone (tells _ List.lookup_cons_self)
      simp [Fields.visitKey, unknown_below, here.1]
    · have fit : AllFit (rest.visitKey key v) := by simpa [Fields.visitKey, same] using fit
      have below := rest.visitKey_without once.2.2 reads.2 vOnce fit fun x hx =>
        tells x ((lookup_wanted_cons_of_ne same).trans hx)
      simp [Fields.visitKey, same, below]

theorem Fields.readMembers_without (fields : Fields β) (once : fields.KeysOnce)
    (reads : fields.ReadsWithout) {gone : List Step → Bool} {members : Members}
    (vOnce : ∀ m ∈ members, m.2.KeysOnce)
    (fit : ∀ m ∈ members, m.1 ∈ fields.keys → AllFit (fields.visitKey m.1 m.2))
    (kept : ∀ key ∈ fields.keys, gone [.key key] = false)
    (tells : ∀ key v x, members.lookup key = some v → fields.wanted.lookup key = some x →
      x.TellsGone v fun steps => gone (.key key :: steps)) :
    fields.readMembers (withoutMembers gone members) = fields.readMembers members := by
  match fields with
  | .done => rfl
  | .required key shape rest | .optional key shape rest =>
    have other (k : String) (hk : k ∈ rest.keys) : k ≠ key := fun same => once.1 (same ▸ hk)
    have below := rest.readMembers_without once.2.2 reads.2 vOnce
      (fun m hm hk => by
        simpa [Fields.visitKey, other m.1 hk] using fit m hm (List.mem_cons_of_mem key hk))
      (fun k hk => kept k (List.mem_cons_of_mem key hk))
      (fun k v x hv hx => by
        have hk := rest.mem_keys_of_lookup_wanted hx
        exact tells k v x hv ((lookup_wanted_cons_of_ne (other k hk)).trans hx))
    have found := Json.lookup_withoutMembers members (kept key List.mem_cons_self)
    cases hv : members.lookup key with
    | none => simp [Fields.readMembers, found, hv, below]
    | some v =>
      have hm := mem_of_lookup hv
      have fit : AllFit (shape.visit v) := by
        simpa [Fields.visitKey, rest.visitKey_eq_nil once.1] using
          fit (key, v) hm List.mem_cons_self
      have here := reads.1 v (vOnce _ hm) fit _
        (tells key v _ hv List.lookup_cons_self)
      simp [Fields.readMembers, found, hv, below, here.2]

/-- A table that fits is read as before, and has nothing to tell. -/
theorem Fields.table_without (fields : Fields β) (once : fields.KeysOnce)
    (reads : fields.ReadsWithout) {members : Members} (membersOnce : (Json.table members).KeysOnce)
    (fit : AllFit (visitMembers fields.keys fields.visitKey members) ∧
      AllFit (fields.visitMissing members)) {w : Wanted} (hr : w.rules? = some fields.rules)
    (hw : ∀ key, w.part? (.key key) = fields.wanted.lookup key) {gone : List Step → Bool}
    (tells : w.TellsGone (.table members) gone) :
    visitMembers fields.keys fields.visitKey (withoutMembers gone members) ++
        fields.visitMissing (withoutMembers gone members) = [] ∧
      fields.readMembers (withoutMembers gone members) = fields.readMembers members := by
  have valuesOnce := Json.keysOnceMembers_iff.1 membersOnce.2
  have fitKey := allFit_visitMembers.1 fit.1
  have goneKey (key : String) :
      gone [.key key] = true ↔ key ∈ members.map (·.1) ∧ key ∉ fields.keys := by
    rw [tells, Wanted.finds_key_iff hr, fields.keys_eq_map_rules]
  have below (key : String) (v : Json) (x : Wanted) (hv : members.lookup key = some v)
      (hx : fields.wanted.lookup key = some x) :
      x.TellsGone v fun steps => gone (.key key :: steps) := by
    refine tells.part ((hw key).trans hx) hv fun steps raises => ?_
    rw [Wanted.raises_table_unknown_iff hr, ← fields.keys_eq_map_rules] at raises
    exact raises.2.1 (fields.mem_keys_of_lookup_wanted hx)
  refine ⟨fields.visitTable_without fit.2 (fun m hm => ?_) fun m hm => ?_, ?_⟩
  · rw [goneKey, and_iff_right (List.mem_map_of_mem hm)]
  · have found := (Json.mem_iff_lookup_eq_some membersOnce.1).1 hm
    by_cases hk : m.1 ∈ fields.keys
    · exact fields.visitKey_without once reads (valuesOnce m hm) (fitKey m hm hk) fun x hx =>
        below m.1 m.2 x found hx
    · exact fields.visitKey_eq_nil hk
  · refine fields.readMembers_without once reads valuesOnce fitKey (fun key hk => ?_) below
    rw [Bool.eq_false_iff, Ne, goneKey]
    exact fun h => h.2 hk

theorem Fields.row_without (fields : Fields β) (reads : fields.ReadsWithout) {wanted : String}
    (gone : List Step → Bool) (first : Nat) {vs : List Json} (vsOnce : ∀ v ∈ vs, v.KeysOnce)
    (fit : AllFit (fields.visitFields wanted first vs))
    (tells : ∀ (i : Nat) (v : Json) (x : String × Wanted), vs[i]? = some v →
      fields.wanted[i]? = some x →
      x.2.TellsGone v fun steps => gone (.index (first + i) :: steps)) :
    fields.visitFields wanted first (withoutItems gone first vs) = [] ∧
      fields.readFields (withoutItems gone first vs) = fields.readFields vs := by
  match fields, vs with
  | .done, [] => exact ⟨rfl, rfl⟩
  | .done, _ :: _ => simp [Fields.visitFields] at fit
  | .required key shape rest, [] => simp [Fields.visitFields] at fit
  | .optional key shape rest, [] =>
    have below := rest.row_without reads.2 gone (first + 1) vsOnce
      (by simpa [Fields.visitFields] using fit) nofun
    refine ⟨?_, rfl⟩
    simpa [Fields.visitFields, withoutItems] using below.1
  | .required key shape rest, v :: vs | .optional key shape rest, v :: vs =>
    obtain ⟨vOnce, vsOnce⟩ := List.forall_mem_cons.1 vsOnce
    obtain ⟨fit, fitBelow⟩ : AllFit (shape.visit v) ∧
        AllFit (rest.visitFields wanted (first + 1) vs) := by
      simpa [Fields.visitFields] using fit
    have here := reads.1 v vOnce fit _ (tells 0 v _ rfl rfl)
    have below := rest.row_without reads.2 gone (first + 1) vsOnce fitBelow fun i w x hw hx => by
      have next := tells (i + 1) w x (by simpa using hw) (by simpa [Fields.wanted] using hx)
      rwa [Nat.add_comm i, ← Nat.add_assoc] at next
    rw [Nat.add_zero] at here
    simp [Fields.visitFields, Fields.readFields, withoutItems, Located.below, here, below]

/-! ## Shapes -/

mutual

theorem Shape.readsWithout (s : Shape α) (once : s.KeysOnce) {v : Json} (vOnce : v.KeysOnce)
    (fit : AllFit (s.visit v)) : s.ReadsWithout v := by
  match s with
  | .text =>
    refine Shape.readsWithout_of_visit_eq_nil once vOnce ?_
    cases v <;> simp_all [Shape.visit, visitText]
  | .flag =>
    refine Shape.readsWithout_of_visit_eq_nil once vOnce ?_
    cases v <;> simp_all [Shape.visit, visitFlag]
  | .choice variants =>
    refine Shape.readsWithout_of_visit_eq_nil once vOnce (eq_nil_of_allFit (fun e he => ?_) fit)
    obtain ⟨m, _, rfl⟩ := mem_visitChoice_iff.1 he
    nofun
  | .list item =>
    obtain ⟨vs, rfl, _⟩ := (Shape.allFit_visit_iff _ v).1 fit
    intro gone tells
    have vsOnce := Json.keysOnceItems_iff.1 vOnce
    have items := items_without gone 0
      (fun w hw => item.readsWithout once (vsOnce w hw) (allFit_each.1 fit w hw))
      (fun i w hw => by
        rw [Nat.zero_add]
        exact tells.part rfl hw fun _ => Wanted.not_raises_list_unknown id)
    exact items
  | .record name fields packing =>
    intro gone tells
    rcases (Shape.allFit_visit_iff _ v).1 fit with ⟨members, rfl, _⟩ | ⟨vs, rfl, _⟩
    · have table := fields.table_without once (fields.readsWithout once) vOnce
        (allFit_append.1 fit) rfl (fun _ => rfl) tells
      exact ⟨table.1, by simp [Shape.read, readRecord, without, table.2]⟩
    · have vsOnce := Json.keysOnceItems_iff.1 vOnce
      have row := fields.row_without (fields.readsWithout once) gone 0 vsOnce fit
        fun i w x hw hx => by
          have hx : (Wanted.shape (.record name fields packing)).part? (.index i) = some x.2 :=
            Option.map_eq_some_iff.2 ⟨x, hx, rfl⟩
          rw [Nat.zero_add]
          exact tells.part hx hw fun _ => Wanted.not_raises_list_unknown id
      exact ⟨row.1, by simp [Shape.read, readRecord, without, row.2]⟩
  | .listOrTable wanted item fields packing =>
    intro gone tells
    rcases (Shape.allFit_visit_iff _ v).1 fit with ⟨vs, rfl, _⟩ | ⟨members, rfl, _⟩
    · have vsOnce := Json.keysOnceItems_iff.1 vOnce
      have items := items_without gone 0
        (fun w hw => item.readsWithout once.1 (vsOnce w hw) (allFit_each.1 fit w hw))
        (fun i w hw => by
          rw [Nat.zero_add]
          exact tells.part rfl hw fun _ => Wanted.not_raises_list_unknown id)
      exact ⟨items.1, by simp [Shape.read, readItems, readTable, without, items.2]⟩
    · have table := fields.table_without once.2 (fields.readsWithout once.2) vOnce
        (allFit_append.1 fit) rfl (fun _ => rfl) tells
      exact ⟨table.1, by simp [Shape.read, readItems, readTable, without, table.2]⟩
  | .nameOrPair wanted packing =>
    refine Shape.readsWithout_of_visit_eq_nil once vOnce ?_
    rcases allFit_visitNameOrPair_iff.1 fit with ⟨name, rfl⟩ | ⟨name, options, rfl⟩ <;>
      simp [Shape.visit, visitNameOrPair, visitParts, Located.each, Located.below, visitText,
        visitOptions]

theorem Fields.readsWithout (fields : Fields β) (once : fields.KeysOnce) :
    fields.ReadsWithout := by
  match fields with
  | .done => trivial
  | .required _ shape rest | .optional _ shape rest =>
    exact ⟨fun v vOnce fit => shape.readsWithout once.2.1 vOnce fit, rest.readsWithout once.2.2⟩

end

/-- Less what is unknown, a value is read as the same thing, and nothing is told of it. -/
theorem Shape.decode_without_unknown {s : Shape α} (once : s.KeysOnce) {v : Json}
    (vOnce : v.KeysOnce) {a : α} (h : (s.decode v).result = .ok a) :
    s.decode (v.without fun steps => decide (steps ∈ (s.decode v).unknown)) = ⟨[], .ok a⟩ := by
  obtain ⟨fit, read⟩ := Shape.result_decode_eq_ok_iff.1 h
  have told := (Shape.enumerates_unknown once vOnce h).mem_iff
  have gone := s.readsWithout once vOnce fit _ fun steps => decide_eq_true_iff.trans (told steps)
  exact Shape.decode_eq_iff.2 ⟨gone.1, gone.2.trans read⟩

end SiteManifest
