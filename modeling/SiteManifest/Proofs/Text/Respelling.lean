import Mathlib.Logic.Relation
import SiteManifest.Text.Casing

/-!
# Spellings of a key

Two texts spell the same key if they differ in the case of ASCII letters and in separators only. The
squashed form of a text is one of its spellings, and the same one for all of them.

## Main definitions

* `Respells`: one text becomes another by a single change.
* `SameKey`: one text becomes another by any number of changes.

## Main statements

* `sameKey_iff`: spellings of one key are the texts with the same squashed form.
-/
namespace SiteManifest.Text

/-- What may stand between the words of a key. -/
def isSeparator (c : Char) : Bool := c = '_' || c = '-'

/-- A letter changes its case, or a separator is put in somewhere. -/
inductive Respells : List Char → List Char → Prop where
  | lower (front : List Char) (c : Char) (back : List Char) :
    Respells (front ++ c :: back) (front ++ c.toLower :: back)
  | upper (front : List Char) (c : Char) (back : List Char) :
    Respells (front ++ c :: back) (front ++ c.toUpper :: back)
  | separator (front : List Char) {c : Char} (h : isSeparator c = true) (back : List Char) :
    Respells (front ++ back) (front ++ c :: back)

/-- The texts turn into each other by changes of case, and by separators put in or taken out. -/
def SameKey (s t : String) : Prop := Relation.EqvGen Respells s.toList t.toList

variable {c : Char} {cs ds : List Char} {s t : String}

/-! ## Letters and separators -/

/-- The only characters with another lower case are the capital letters of ASCII. -/
theorem toLower_cases (c : Char) :
    ¬(65 ≤ c.toNat ∧ c.toNat ≤ 90) ∧ c.toLower = c ∨
      (65 ≤ c.toNat ∧ c.toNat ≤ 90) ∧ c.toLower.toNat = c.toNat + 32 := by
  unfold Char.toLower
  split
  next h =>
    have first : 65 ≤ c.toNat := h.1
    have last : c.toNat ≤ 90 := h.2
    have moved : (c.val + 32).toNat = (c.toNat + 32) % 0x100000000 := UInt32.toNat_add c.val 32
    exact .inr ⟨⟨first, last⟩, moved.trans (by omega)⟩
  next h => exact .inl ⟨h, rfl⟩

theorem toUpper_cases (c : Char) :
    c.toUpper = c ∨ (97 ≤ c.toNat ∧ c.toNat ≤ 122) ∧ c.toUpper.toNat = c.toNat - 32 := by
  unfold Char.toUpper
  split
  next h =>
    have first : 97 ≤ c.toNat := h.1
    have last : c.toNat ≤ 122 := h.2
    have moved : (c.val + 0xFFFFFFE0).toNat = (c.toNat + 0xFFFFFFE0) % 0x100000000 :=
      UInt32.toNat_add c.val 0xFFFFFFE0
    exact .inr ⟨⟨first, last⟩, moved.trans (by omega)⟩
  next => exact .inl rfl

theorem toLower_toLower (c : Char) : c.toLower.toLower = c.toLower := by
  rcases toLower_cases c with ⟨_, same⟩ | ⟨_, moved⟩
  · rw [same, same]
  · rcases toLower_cases c.toLower with ⟨_, same⟩ | ⟨range, _⟩
    · exact same
    · omega

theorem toLower_toUpper (c : Char) : c.toUpper.toLower = c.toLower := by
  rcases toUpper_cases c with same | ⟨small, raised⟩
  · rw [same]
  · have kept : c.toLower = c := by
      rcases toLower_cases c with ⟨_, same⟩ | ⟨range, _⟩
      · exact same
      · omega
    rcases toLower_cases c.toUpper with ⟨noCapital, _⟩ | ⟨_, lowered⟩
    · omega
    · rw [kept, ← Char.toNat_inj]
      omega

theorem isSeparator_iff : isSeparator c = true ↔ c.toNat = 95 ∨ c.toNat = 45 := by
  rw [isSeparator, Bool.or_eq_true, decide_eq_true_eq, decide_eq_true_eq, ← Char.toNat_inj,
    ← Char.toNat_inj]
  rfl

/-- No letter is a separator, in either case. -/
theorem isSeparator_toLower (c : Char) : isSeparator c.toLower = isSeparator c := by
  rcases toLower_cases c with ⟨_, same⟩ | ⟨range, moved⟩
  · rw [same]
  · rw [Bool.eq_iff_iff, isSeparator_iff, isSeparator_iff]
    omega

theorem isSeparator_toUpper (c : Char) : isSeparator c.toUpper = isSeparator c := by
  rcases toUpper_cases c with same | ⟨range, moved⟩
  · rw [same]
  · rw [Bool.eq_iff_iff, isSeparator_iff, isSeparator_iff]
    omega

/-! ## Squashed characters -/

/-- The characters of a squashed text. -/
def squashed (cs : List Char) : List Char := (cs.filter fun c => !isSeparator c).map Char.toLower

theorem toList_squash (s : String) : (squash s).toList = squashed s.toList := by
  simp [squash, squashed, isSeparator]

theorem squash_eq_iff : squash s = squash t ↔ squashed s.toList = squashed t.toList := by
  rw [← toList_squash, ← toList_squash, String.toList_inj]

theorem squashed_append (cs ds : List Char) : squashed (cs ++ ds) = squashed cs ++ squashed ds := by
  simp [squashed]

theorem squashed_cons (c : Char) (cs : List Char) :
    squashed (c :: cs) = if isSeparator c then squashed cs else c.toLower :: squashed cs := by
  cases h : isSeparator c <;> simp [squashed, h]

/-- A change of the spelling does not show in the squashed form. -/
theorem squashed_eq_of_respells (h : Respells cs ds) : squashed cs = squashed ds := by
  cases h with
  | lower front c back =>
    simp only [squashed_append, squashed_cons, isSeparator_toLower, toLower_toLower]
  | upper front c back =>
    simp only [squashed_append, squashed_cons, isSeparator_toUpper, toLower_toUpper]
  | separator front h back => simp only [squashed_append, squashed_cons, h, if_true]

/-! ## Chains of changes -/

theorem squashed_eq_of_eqvGen (h : Relation.EqvGen Respells cs ds) : squashed cs = squashed ds := by
  induction h with
  | rel _ _ step => exact squashed_eq_of_respells step
  | refl _ => rfl
  | symm _ _ _ ih => exact ih.symm
  | trans _ _ _ _ _ ih ih' => exact ih.trans ih'

theorem respells_cons (c : Char) (h : Respells cs ds) : Respells (c :: cs) (c :: ds) := by
  cases h with
  | lower front d back => exact .lower (c :: front) d back
  | upper front d back => exact .upper (c :: front) d back
  | separator front h back => exact .separator (c :: front) h back

theorem eqvGen_respells_cons (c : Char) (h : Relation.EqvGen Respells cs ds) :
    Relation.EqvGen Respells (c :: cs) (c :: ds) := by
  induction h with
  | rel _ _ step => exact .rel _ _ (respells_cons c step)
  | refl _ => exact .refl _
  | symm _ _ _ ih => exact .symm _ _ ih
  | trans _ _ _ _ _ ih ih' => exact .trans _ _ _ ih ih'

/-- Every text turns into its squashed form, one character after the other. -/
theorem eqvGen_respells_squashed (cs : List Char) :
    Relation.EqvGen Respells cs (squashed cs) := by
  induction cs with
  | nil => exact .refl []
  | cons c cs ih =>
    rw [squashed_cons]
    split
    next separator => exact .trans _ _ _ (.symm _ _ (.rel _ _ (.separator [] separator cs))) ih
    next => exact .trans _ _ _ (.rel _ _ (.lower [] c cs)) (eqvGen_respells_cons c.toLower ih)

/-- Two texts spell the same key exactly if they have the same squashed form. -/
theorem sameKey_iff : SameKey s t ↔ squash s = squash t := by
  rw [squash_eq_iff]
  constructor
  · exact squashed_eq_of_eqvGen
  · intro same
    have forth := eqvGen_respells_squashed s.toList
    have back := eqvGen_respells_squashed t.toList
    rw [← same] at back
    exact .trans _ _ _ forth (.symm _ _ back)

end SiteManifest.Text
