import SiteManifest.Shape.Read
import SiteManifest.Shape.Visit

/-!
# Decoding

Reading stops at the first misfit of a visit. Without a misfit the value has the shape, so that
there always is either a misfit to report or a value.
-/
namespace SiteManifest

/-- No misfit among the events: all that is left is unknown. -/
def AllFit (events : List Event) : Prop := ∀ e ∈ events, e.what = .unknown

@[simp] theorem allFit_nil : AllFit [] := by simp [AllFit]

@[simp] theorem allFit_append {es fs : List Event} : AllFit (es ++ fs) ↔ AllFit es ∧ AllFit fs := by
  simp [AllFit, or_imp, forall_and]

@[simp] theorem allFit_below {step : Step} {es : List Event} :
    AllFit (Located.below step es) ↔ AllFit es := by
  simp [AllFit, Located.below, Located.under]

@[simp] theorem allFit_unknown {steps : List Step} {es : List Event} :
    AllFit (⟨steps, .unknown⟩ :: es) ↔ AllFit es := by
  simp [AllFit]

@[simp] theorem not_allFit_misfit {steps : List Step} {cause : Misfit} {es : List Event} :
    ¬AllFit (⟨steps, .misfit cause⟩ :: es) := by
  simp [AllFit]

@[simp] theorem not_allFit_here {cause : Misfit} {es : List Event} :
    ¬AllFit (Event.misfit cause :: es) := not_allFit_misfit

theorem allFit_each {visit : Json → List Event} {first : Nat} {vs : List Json} :
    AllFit (Located.each visit first vs) ↔ ∀ v ∈ vs, AllFit (visit v) := by
  induction vs generalizing first with
  | nil => simp [Located.each]
  | cons v vs ih => simp [Located.each, ih]

theorem allFit_visitMembers {keys : List String} {visit : String → Json → List Event}
    {members : Members} :
    AllFit (visitMembers keys visit members) ↔
      ∀ m ∈ members, m.1 ∈ keys → AllFit (visit m.1 m.2) := by
  induction members with
  | nil => simp [visitMembers]
  | cons m rest ih => by_cases h : m.1 ∈ keys <;> simp [visitMembers, ih, h]

theorem isSome_mapM {f : Json → Option α} {vs : List Json} (h : ∀ v ∈ vs, (f v).isSome) :
    (vs.mapM f).isSome := by
  induction vs with
  | nil => simp
  | cons v vs ih =>
    obtain ⟨a, ha⟩ := Option.isSome_iff_exists.1 (h v (by simp))
    obtain ⟨as, has⟩ := Option.isSome_iff_exists.1 (ih fun w hw => h w (by simp [hw]))
    simp [List.mapM_cons, ha, has]

theorem mem_of_lookup {members : Members} {key : String} {v : Json}
    (h : members.lookup key = some v) : (key, v) ∈ members := by
  obtain ⟨before, after, rfl, _⟩ := List.lookup_eq_some_iff.1 h
  exact List.mem_append_right before (.head after)

theorem isSome_readChoice {variants : Variants α} {v : Json}
    (h : AllFit (visitChoice variants v)) : (readChoice variants v).isSome := by
  unfold visitChoice at h
  split at h <;> simp_all [visitWord, readChoice]
  all_goals split at h <;> simp_all

theorem isSome_readNameOrPair {wanted : String} {v : Json}
    (h : AllFit (visitNameOrPair wanted v)) : (readNameOrPair v).isSome := by
  match v with
  | .string _ => rfl
  | .list [name, options] =>
    have h : AllFit (visitText name) ∧ AllFit (visitOptions options) := by
      simpa only [visitNameOrPair, visitParts, Located.each, allFit_append, allFit_below,
        allFit_nil, and_true] using h
    cases name <;> cases options <;> simp_all [visitText, visitOptions, readNameOrPair]
  | .list [] | .list [_] | .list (_ :: _ :: _ :: _) | .null | .bool _ | .number _ | .table _ =>
    simp [visitNameOrPair, visitParts] at h

mutual

/-- A value that is visited without a misfit can be read. -/
theorem Shape.isSome_read (s : Shape α) (v : Json) (h : AllFit (s.visit v)) :
    (s.read v).isSome := by
  match s with
  | .text => cases v <;> simp_all [Shape.visit, Shape.read, Json.asString?, visitText]
  | .flag => cases v <;> simp_all [Shape.visit, Shape.read, readFlag, visitFlag]
  | .choice variants => exact isSome_readChoice h
  | .list item =>
    cases v <;> simp_all [Shape.visit, Shape.read, readItems, visitItems]
    exact isSome_mapM fun w hw => item.isSome_read w (allFit_each.1 h w hw)
  | .record _ fields _ =>
    cases v <;> simp_all [Shape.visit, Shape.read, readRecord, visitRecord]
    · exact fields.isSome_readFields _ h
    · exact fields.isSome_readMembers _ (allFit_visitMembers.1 h.1) h.2
  | .listOrTable _ item fields _ =>
    cases v <;>
      simp_all [Shape.visit, Shape.read, readItems, readTable, visitListOrTable]
    · exact isSome_mapM fun w hw => item.isSome_read w (allFit_each.1 h w hw)
    · exact fields.isSome_readMembers _ (allFit_visitMembers.1 h.1) h.2
  | .nameOrPair _ _ => simpa [Shape.read] using isSome_readNameOrPair h

theorem Fields.isSome_readMembers (fields : Fields β) (members : Members)
    (h : ∀ m ∈ members, m.1 ∈ fields.keys → AllFit (fields.visitKey m.1 m.2))
    (hm : AllFit (fields.visitMissing members)) : (fields.readMembers members).isSome := by
  match fields with
  | .done => rfl
  | .required key shape rest =>
    simp only [Fields.visitKey, Fields.visitMissing, Fields.keys, allFit_append,
      List.mem_cons] at h hm
    have below := rest.isSome_readMembers members
      (fun m hm hk => (h m hm (.inr hk)).2) hm.2
    cases hv : members.lookup key with
    | none => simp [hv] at hm
    | some v =>
      have here := shape.isSome_read v (by simpa using (h _ (mem_of_lookup hv) (.inl rfl)).1)
      obtain ⟨a, ha⟩ := Option.isSome_iff_exists.1 here
      obtain ⟨b, hb⟩ := Option.isSome_iff_exists.1 below
      simp [Fields.readMembers, hv, ha, hb]
  | .optional key shape rest =>
    simp only [Fields.visitKey, Fields.visitMissing, Fields.keys, allFit_append,
      List.mem_cons] at h hm
    have below := rest.isSome_readMembers members (fun m hm hk => (h m hm (.inr hk)).2) hm
    obtain ⟨b, hb⟩ := Option.isSome_iff_exists.1 below
    cases hv : members.lookup key with
    | none => simp [Fields.readMembers, hv, hb]
    | some v =>
      have here := shape.isSome_read v (by simpa using (h _ (mem_of_lookup hv) (.inl rfl)).1)
      obtain ⟨a, ha⟩ := Option.isSome_iff_exists.1 here
      simp [Fields.readMembers, hv, ha, hb]

theorem Fields.isSome_readFields {wanted : String} {first : Nat} (fields : Fields β)
    (vs : List Json) (h : AllFit (fields.visitFields wanted first vs)) :
    (fields.readFields vs).isSome := by
  match fields with
  | .done => cases vs <;> simp_all [Fields.visitFields, Fields.readFields]
  | .required key shape rest =>
    cases vs with
    | nil => simp [Fields.visitFields] at h
    | cons v vs =>
      simp only [Fields.visitFields, List.head?_cons, Option.elim_some, List.tail_cons,
        allFit_append, allFit_below] at h
      obtain ⟨a, ha⟩ := Option.isSome_iff_exists.1 (shape.isSome_read v h.1)
      obtain ⟨b, hb⟩ := Option.isSome_iff_exists.1 (rest.isSome_readFields vs h.2)
      simp [Fields.readFields, ha, hb]
  | .optional key shape rest =>
    simp only [Fields.visitFields, allFit_append] at h
    obtain ⟨b, hb⟩ := Option.isSome_iff_exists.1 (rest.isSome_readFields vs.tail h.2)
    cases vs with
    | nil => simpa [Fields.readFields] using hb ▸ rfl
    | cons v vs =>
      simp only [List.head?_cons, Option.elim_some, allFit_below] at h
      obtain ⟨a, ha⟩ := Option.isSome_iff_exists.1 (shape.isSome_read v h.1)
      simp only [List.tail_cons] at hb
      simp [Fields.readFields, ha, hb]

end

def Event.misfit? (e : Event) : Option (Located Misfit) :=
  match e.what with
  | .unknown => none
  | .misfit cause => some ⟨e.steps, cause⟩

def Event.isUnknown (e : Event) : Bool := e.what == .unknown

/-- What a reader has to say of a value: the unknown things it met, in the order of reading, and
the value of the type or the misfit where it stopped. -/
structure Reading (α : Type) where
  unknown : List (List Step)
  result : Except (Located Misfit) α

theorem allFit_of_findSome?_eq_none {events : List Event}
    (h : events.findSome? Event.misfit? = none) : AllFit events := by
  intro e he
  have := List.findSome?_eq_none_iff.1 h e he
  cases hw : e.what with
  | unknown => rfl
  | misfit => simp [Event.misfit?, hw] at this

def Shape.decode (s : Shape α) (v : Json) : Reading α where
  unknown := ((s.visit v).takeWhile Event.isUnknown).map (·.steps)
  result :=
    match h : (s.visit v).findSome? Event.misfit? with
    | some misfit => .error misfit
    | none => .ok ((s.read v).get (s.isSome_read v (allFit_of_findSome?_eq_none h)))

end SiteManifest
