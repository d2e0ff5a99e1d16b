import SiteManifest.Proofs.Json.Places
import SiteManifest.Proofs.Shape.Grammar
import SiteManifest.Proofs.Shape.Writing

/-!
# What is wanted at a place

A shape says of every place in a value what is wanted there. Whatever a visit meets is something
that one value says by itself against what is wanted in its place: a key that its record does not
have, a required key that is missing, or a kind or a length that is refused.

## Main definitions

* `Wanted.at?`: what is wanted where steps lead.
* `Wanted.Refuses`: a value is at fault by itself, and why.
* `Wanted.Finds`: an event at a place, with its cause in the value that stands there.
-/
namespace SiteManifest

/-- What a value has to be: of a shape, or a table of options that is not looked into. -/
inductive Wanted : Type 1 where
  | shape {α : Type} (s : Shape α)
  | options

/-- The keys of the fields in their order, each with what is wanted behind it. -/
def Fields.wanted : Fields β → List (String × Wanted)
  | .done => []
  | .required key shape rest | .optional key shape rest => (key, .shape shape) :: rest.wanted

theorem isSome_lookup_iff {members : Members} {key : String} :
    (members.lookup key).isSome ↔ key ∈ members.map (·.1) := by
  rw [List.lookup_isSome_iff, List.mem_map]
  simp only [beq_iff_eq, @eq_comm _ key]

/-! ## Values at fault -/

inductive Variants.Refuse (variants : Variants α) : Json → Misfit → Prop
  | word {word : String} (h : variants.find? word = none) :
    Refuse variants (.string word) (.unknownVariant word (variants.all.map variants.name))
  | key {word : String} {v : Json} (h : variants.find? word = none) :
    Refuse variants (.table [(word, v)]) (.unknownVariant word (variants.all.map variants.name))
  | content {word : String} {v : Json} (h : variants.find? word ≠ none) (hv : v ≠ .null) :
    Refuse variants (.table [(word, v)]) (.mistyped v "unit")
  | keys {members : Members} (h : members.length ≠ 1) : Refuse variants (.table members) .manyKeys
  | kind {v : Json} (hs : ∀ word, v ≠ .string word) (ht : ∀ members, v ≠ .table members) :
    Refuse variants v (.mistyped v "string or map")

/-- A row of fields from a position on is too long, or it ends before a field that is needed. -/
inductive RefuseRow (rules : List FieldRule) (wanted : String) (first : Nat) :
    List Json → Misfit → Prop
  | long {vs : List Json} (h : rules.length < vs.length) :
    RefuseRow rules wanted first vs (.wrongLength (first + vs.length) "fewer elements in array")
  | short {vs : List Json} {i : Nat} (h : (rules.drop vs.length).findIdx? (·.needed) = some i) :
    RefuseRow rules wanted first vs (.wrongLength (first + vs.length + i) wanted)

inductive RefuseRecord (rules : List FieldRule) (name : String) : Json → Misfit → Prop
  | row {vs : List Json} {m : Misfit}
    (h : RefuseRow rules (recordWanted name rules.length) 0 vs m) :
    RefuseRecord rules name (.list vs) m
  | kind {v : Json} (hl : ∀ vs, v ≠ .list vs) (ht : ∀ members, v ≠ .table members) :
    RefuseRecord rules name v (.mistyped v ("struct " ++ name))

inductive RefusePair (wanted : String) : Json → Misfit → Prop
  | length {vs : List Json} (h : vs.length ≠ 2) :
    RefusePair wanted (.list vs) (.wrongLength (min vs.length 3) wanted)
  | kind {v : Json} (hs : ∀ name, v ≠ .string name) (hl : ∀ vs, v ≠ .list vs) :
    RefusePair wanted v (.mistyped v wanted)

namespace Wanted

/-- A value that is not what is wanted, whatever its parts are, and why. -/
def Refuses : Wanted → Json → Misfit → Prop
  | .shape .text, v, m => (∀ s, v ≠ .string s) ∧ m = .mistyped v "a string"
  | .shape .flag, v, m => (∀ b, v ≠ .bool b) ∧ m = .mistyped v "a boolean"
  | .shape (.choice variants), v, m => variants.Refuse v m
  | .shape (.list _), v, m => (∀ vs, v ≠ .list vs) ∧ m = .mistyped v "a sequence"
  | .shape (.record name fields _), v, m => RefuseRecord fields.rules name v m
  | .shape (.listOrTable wanted _ _ _), v, m =>
    (∀ vs, v ≠ .list vs) ∧ (∀ members, v ≠ .table members) ∧ m = .mistyped v wanted
  | .shape (.nameOrPair wanted _), v, m => RefusePair wanted v m
  | .options, v, m => (∀ members, v ≠ .table members) ∧ m = .mistyped v "a map"

/-- The rules of the record that a table in this place is. -/
def rules? : Wanted → Option (List FieldRule)
  | .shape (.record _ fields _) | .shape (.listOrTable _ _ fields _) => some fields.rules
  | _ => none

def IsPair : Wanted → Prop
  | .shape (.nameOrPair _ _) => True
  | _ => False

/-- What a value says by itself against what is wanted. -/
inductive Raises (w : Wanted) : Json → Event → Prop
  | unknown {rules : List FieldRule} {members : Members} {key : String} (hr : w.rules? = some rules)
    (hk : key ∈ members.map (·.1)) (h : key ∉ rules.map (·.key)) :
    Raises w (.table members) ⟨[.key key], .unknown⟩
  | surplus {vs : List Json} (hw : w.IsPair) (h : 2 < vs.length) :
    Raises w (.list vs) ⟨[.index 2], .unknown⟩
  | missing {rules : List FieldRule} {members : Members} {rule : FieldRule}
    (hr : w.rules? = some rules) (hm : rule ∈ rules) (needed : rule.needed = true)
    (h : rule.key ∉ members.map (·.1)) :
    Raises w (.table members) ⟨[.key rule.key], .misfit (.missing rule.key)⟩
  | refused {v : Json} {m : Misfit} (h : w.Refuses v m) : Raises w v (Event.misfit m)

/-! ## Places -/

/-- What is wanted one step further in. -/
def part? : Wanted → Step → Option Wanted
  | .shape (.list item), .index _ | .shape (.listOrTable _ item _ _), .index _ => some (.shape item)
  | .shape (.record _ fields _), .index i => fields.wanted[i]?.map (·.2)
  | .shape (.record _ fields _), .key key | .shape (.listOrTable _ _ fields _), .key key =>
    fields.wanted.lookup key
  | .shape (.nameOrPair _ _), .index 0 => some (.shape .text)
  | .shape (.nameOrPair _ _), .index 1 => some .options
  | _, _ => none

/-- What is wanted where the steps lead. -/
def at? (w : Wanted) : List Step → Option Wanted
  | [] => some w
  | step :: steps => (w.part? step).bind fun x => x.at? steps

theorem at?_append (w : Wanted) (p q : List Step) :
    w.at? (p ++ q) = (w.at? p).bind fun x => x.at? q := by
  induction p generalizing w with
  | nil => rfl
  | cons step p ih => simp only [List.cons_append, at?, ih, Option.bind_assoc]

theorem at?_options {steps : List Step} {x : Wanted} (h : Wanted.options.at? steps = some x) :
    steps = [] := by
  cases steps with
  | nil => rfl
  | cons step steps => cases step <;> contradiction

/-- An event with its cause at a place in the value. -/
def Finds (w : Wanted) (v : Json) (e : Event) : Prop :=
  ∃ place x u cause, w.at? place = some x ∧ v.at? place = some u ∧ x.Raises u cause ∧
    e = ⟨place ++ cause.steps, cause.what⟩

/-- A key in a table that is no key of the record in its place. -/
def UnknownKeyAt (w : Wanted) (v : Json) (steps : List Step) : Prop :=
  ∃ place x rules members key, w.at? place = some x ∧ x.rules? = some rules ∧
    v.at? place = some (.table members) ∧ key ∈ members.map (·.1) ∧
    key ∉ rules.map (·.key) ∧ steps = place ++ [.key key]

/-- The third item of a list in the place of a pair. -/
def SurplusAt (w : Wanted) (v : Json) (steps : List Step) : Prop :=
  ∃ place x vs, w.at? place = some x ∧ x.IsPair ∧ v.at? place = some (.list vs) ∧
    2 < vs.length ∧ steps = place ++ [.index 2]

/-- The value at a place is not what is wanted there. -/
def RefusedAt (w : Wanted) (v : Json) (place : List Step) (m : Misfit) : Prop :=
  ∃ x u, w.at? place = some x ∧ v.at? place = some u ∧ x.Refuses u m

/-- A table at a place does not have a key that the record in its place needs. -/
def MissingAt (w : Wanted) (v : Json) (place : List Step) (key : String) : Prop :=
  ∃ x rules members, w.at? place = some x ∧ x.rules? = some rules ∧
    v.at? place = some (.table members) ∧ key ∉ members.map (·.1) ∧
    ∃ rule ∈ rules, rule.needed = true ∧ rule.key = key

/-- An unknown key has a value. -/
theorem UnknownKeyAt.exists_at? {w : Wanted} {v : Json} {steps : List Step}
    (h : w.UnknownKeyAt v steps) : ∃ u, v.at? steps = some u := by
  obtain ⟨place, x, rules, members, key, _, _, found, hk, _, rfl⟩ := h
  obtain ⟨u, hu⟩ := Option.isSome_iff_exists.1 (isSome_lookup_iff.2 hk)
  refine ⟨u, ?_⟩
  rw [Json.at?_append, found, Option.bind_some]
  exact Json.at?_cons_eq_some_iff.2 ⟨u, hu, rfl⟩

theorem SurplusAt.exists_at? {w : Wanted} {v : Json} {steps : List Step}
    (h : w.SurplusAt v steps) : ∃ u, v.at? steps = some u := by
  obtain ⟨place, x, vs, _, _, found, long, rfl⟩ := h
  refine ⟨vs[2], ?_⟩
  rw [Json.at?_append, found, Option.bind_some]
  exact Json.at?_cons_eq_some_iff.2 ⟨_, List.getElem?_eq_getElem long, rfl⟩

theorem finds_unknown_iff {w : Wanted} {v : Json} {steps : List Step} :
    w.Finds v ⟨steps, .unknown⟩ ↔ w.UnknownKeyAt v steps ∨ w.SurplusAt v steps := by
  constructor
  · rintro ⟨place, x, u, cause, hx, hu, raises, same⟩
    cases raises with
    | unknown hr hk other =>
      obtain rfl := congrArg Located.steps same
      exact .inl ⟨place, x, _, _, _, hx, hr, hu, hk, other, rfl⟩
    | surplus pair long =>
      obtain rfl := congrArg Located.steps same
      exact .inr ⟨place, x, _, hx, pair, hu, long, rfl⟩
    | missing | refused => exact absurd (congrArg Located.what same) nofun
  · rintro (⟨place, x, rules, members, key, hx, hr, hu, hk, other, rfl⟩ |
      ⟨place, x, vs, hx, pair, hu, long, rfl⟩)
    · exact ⟨place, x, _, _, hx, hu, .unknown hr hk other, rfl⟩
    · exact ⟨place, x, _, _, hx, hu, .surplus pair long, rfl⟩

theorem finds_misfit_iff {w : Wanted} {v : Json} {steps : List Step} {m : Misfit} :
    w.Finds v ⟨steps, .misfit m⟩ ↔ w.RefusedAt v steps m ∨
      ∃ place key, w.MissingAt v place key ∧ steps = place ++ [.key key] ∧ m = .missing key := by
  constructor
  · rintro ⟨place, x, u, cause, hx, hu, raises, same⟩
    have what := congrArg Located.what same
    have steps := congrArg Located.steps same
    cases raises with
    | missing hr hm needed absent =>
      exact .inr ⟨place, _, ⟨x, _, _, hx, hr, hu, absent, _, hm, needed, rfl⟩, steps,
        Sighting.misfit.inj what⟩
    | refused refuses =>
      obtain rfl := Sighting.misfit.inj what
      obtain rfl : _ = place ++ [] := steps
      exact .inl ⟨x, u, by rwa [List.append_nil], by rwa [List.append_nil], refuses⟩
    | unknown | surplus => contradiction
  · rintro (⟨x, u, hx, hu, refuses⟩ |
      ⟨place, _, ⟨x, rules, members, hx, hr, hu, absent, rule, hm, needed, rfl⟩, rfl, rfl⟩)
    · exact ⟨steps, x, u, _, hx, hu, .refused refuses, by rw [Event.misfit, Located.here,
        List.append_nil]⟩
    · exact ⟨place, x, _, _, hx, hu, .missing hr hm needed absent, rfl⟩

/-- That a key is missing is never said of a value by itself. -/
theorem not_refuses_missing {w : Wanted} {v : Json} {key : String} :
    ¬w.Refuses v (.missing key) := by
  intro h
  unfold Refuses at h
  split at h
  case h_3 => cases h
  case h_5 => rcases h with ⟨⟨⟩⟩
  case h_6 => exact absurd h.2.2 nofun
  case h_7 => cases h
  all_goals exact absurd h.2 nofun

/-- An event is raised by the value itself or found in one of its parts. -/
theorem finds_iff {w : Wanted} {v : Json} {e : Event} :
    w.Finds v e ↔ w.Raises v e ∨ ∃ step x u inner, w.part? step = some x ∧
      v.part? step = some u ∧ x.Finds u inner ∧ e = inner.under step := by
  constructor
  · rintro ⟨place, x, u, cause, hx, hu, raises, rfl⟩
    cases place with
    | nil =>
      obtain rfl := Option.some.inj hx
      obtain rfl := Option.some.inj hu
      exact .inl raises
    | cons step place =>
      obtain ⟨x', hx', hx⟩ := Option.bind_eq_some_iff.1 hx
      obtain ⟨u', hu', hu⟩ := Option.bind_eq_some_iff.1 hu
      exact .inr ⟨step, x', u', _, hx', hu', ⟨place, x, u, cause, hx, hu, raises, rfl⟩, rfl⟩
  · rintro (raises | ⟨step, x', u', _, hx', hu', ⟨place, x, u, cause, hx, hu, raises, rfl⟩, rfl⟩)
    · exact ⟨[], w, v, e, rfl, rfl, raises, rfl⟩
    · refine ⟨step :: place, x, u, cause, ?_, ?_, raises, rfl⟩
      · rw [at?, hx', Option.bind_some, hx]
      · rw [Json.at?, hu', Option.bind_some, hu]

/-- Unless its keys or its length as a pair matter, a value is refused or says nothing. -/
theorem raises_iff_refuses {w : Wanted} {v : Json} {e : Event}
    (hr : w.rules? = none ∨ ∀ members, v ≠ .table members)
    (hp : ¬w.IsPair ∨ ∀ vs, v ≠ .list vs) :
    w.Raises v e ↔ ∃ m, w.Refuses v m ∧ e = Event.misfit m := by
  constructor
  · rintro (⟨hr', _⟩ | ⟨hp', _⟩ | ⟨hr', _⟩ | h)
    · simp [hr'] at hr
    · simp [hp'] at hp
    · simp [hr'] at hr
    · exact ⟨_, h, rfl⟩
  · rintro ⟨m, h, rfl⟩
    exact .refused h

/-- Nothing is found inside a value that has no part to look into. -/
theorem finds_iff_raises {w : Wanted} {v : Json} {e : Event}
    (h : ∀ step, w.part? step = none ∨ v.part? step = none) : w.Finds v e ↔ w.Raises v e := by
  rw [finds_iff, or_iff_left]
  rintro ⟨step, x, u, inner, hx, hu, _⟩
  rcases h step with none | none
  · simp [none] at hx
  · simp [none] at hu

/-- Where nothing is looked into, there is at most a value that is refused. -/
theorem finds_leaf_iff {w : Wanted} (hw : ∀ step, w.part? step = none) (hr : w.rules? = none)
    (hp : ¬w.IsPair) {v : Json} {e : Event} :
    w.Finds v e ↔ ∃ m, w.Refuses v m ∧ e = Event.misfit m := by
  rw [finds_iff_raises fun step => .inl (hw step), raises_iff_refuses (.inl hr) (.inl hp)]

/-- The same of a value that has no parts. -/
theorem finds_scalar_iff {w : Wanted} {v : Json} {e : Event} (hl : ∀ vs, v ≠ .list vs)
    (ht : ∀ members, v ≠ .table members) :
    w.Finds v e ↔ ∃ m, w.Refuses v m ∧ e = Event.misfit m := by
  have parts (step : Step) : v.part? step = none := by
    cases v with
    | list vs => exact absurd rfl (hl vs)
    | table members => exact absurd rfl (ht members)
    | null | bool | number | string => cases step <;> rfl
  rw [finds_iff_raises fun step => .inr (parts step), raises_iff_refuses (.inr ht) (.inr hl)]

end Wanted

/-! ## Keys of all records -/

variable {p : String → Prop}

mutual

/-- Every key of every record of the shape, at any depth, has a property. -/
def Shape.EveryKey (p : String → Prop) : Shape α → Prop
  | .text | .flag | .choice _ | .nameOrPair _ _ => True
  | .list item => item.EveryKey p
  | .record _ fields _ => fields.EveryKey p
  | .listOrTable _ item fields _ => item.EveryKey p ∧ fields.EveryKey p

def Fields.EveryKey (p : String → Prop) : Fields β → Prop
  | .done => True
  | .required key shape rest | .optional key shape rest =>
    p key ∧ shape.EveryKey p ∧ rest.EveryKey p

end

def Wanted.EveryKey (p : String → Prop) : Wanted → Prop
  | .shape s => s.EveryKey p
  | .options => True

theorem Fields.everyKey_of_mem_wanted (fields : Fields β) (every : fields.EveryKey p)
    {x : String × Wanted} (hx : x ∈ fields.wanted) : x.2.EveryKey p := by
  match fields with
  | .done => contradiction
  | .required key shape rest | .optional key shape rest =>
    rcases List.mem_cons.1 hx with rfl | hx
    · exact every.2.1
    · exact rest.everyKey_of_mem_wanted every.2.2 hx

theorem Fields.everyKey_of_lookup_wanted (fields : Fields β) (every : fields.EveryKey p)
    {key : String} {x : Wanted} (h : fields.wanted.lookup key = some x) : x.EveryKey p := by
  obtain ⟨before, after, split, _⟩ := List.lookup_eq_some_iff.1 h
  refine fields.everyKey_of_mem_wanted every (x := (key, x)) ?_
  rw [split]
  exact List.mem_append_right before List.mem_cons_self

theorem Fields.of_mem_keys (fields : Fields β) (every : fields.EveryKey p) {key : String}
    (h : key ∈ fields.keys) : p key := by
  match fields with
  | .done => contradiction
  | .required name shape rest | .optional name shape rest =>
    rcases List.mem_cons.1 h with rfl | h
    · exact every.1
    · exact rest.of_mem_keys every.2.2 h

namespace Wanted

theorem EveryKey.part {w x : Wanted} (every : w.EveryKey p) {step : Step}
    (h : w.part? step = some x) : x.EveryKey p := by
  unfold part? at h
  split at h
  next item i =>
    obtain rfl := Option.some.inj h
    exact every
  next wanted item fields packing i =>
    obtain rfl := Option.some.inj h
    exact every.1
  next name fields packing i =>
    obtain ⟨y, hy, rfl⟩ := Option.map_eq_some_iff.1 h
    exact fields.everyKey_of_mem_wanted every (List.mem_of_getElem? hy)
  next name fields packing key => exact fields.everyKey_of_lookup_wanted every h
  next wanted item fields packing key => exact fields.everyKey_of_lookup_wanted every.2 h
  next =>
    obtain rfl := Option.some.inj h
    trivial
  next =>
    obtain rfl := Option.some.inj h
    trivial
  next => contradiction

theorem EveryKey.at {w x : Wanted} (every : w.EveryKey p) {steps : List Step}
    (h : w.at? steps = some x) : x.EveryKey p := by
  induction steps generalizing w with
  | nil => exact Option.some.inj h ▸ every
  | cons step steps ih =>
    obtain ⟨y, hy, hx⟩ := Option.bind_eq_some_iff.1 h
    exact ih (every.part hy) hx

theorem EveryKey.of_mem_rules {w : Wanted} (every : w.EveryKey p) {rules : List FieldRule}
    (hr : w.rules? = some rules) {rule : FieldRule} (h : rule ∈ rules) : p rule.key := by
  unfold rules? at hr
  split at hr
  next name fields packing =>
    obtain rfl := Option.some.inj hr
    refine fields.of_mem_keys every ?_
    rw [fields.keys_eq_map_rules]
    exact List.mem_map_of_mem h
  next wanted item fields packing =>
    obtain rfl := Option.some.inj hr
    refine fields.of_mem_keys every.2 ?_
    rw [fields.keys_eq_map_rules]
    exact List.mem_map_of_mem h
  next => contradiction

end Wanted

end SiteManifest
