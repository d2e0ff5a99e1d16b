import Mathlib.Data.List.TakeWhile
import SiteManifest.Url.Parser

/-!
# Texts with a scheme

A text is relative exactly if it has no scheme: everything that is read behind the scheme fails for
another reason. Blanks and controls in front of the scheme do not count, nor do tabs and line ends
inside of it.

## Main definitions

* `HasScheme`: the text has a scheme, possibly among characters that do not count.

## Main statements

* `parse_eq_relative_iff`: the texts that are no URL for want of a scheme.
-/
namespace SiteManifest.Url

variable {α β : Type} {s : String} {cs : List Char} {c : Char}

/-! ## Characters that do not count -/

/-- Blanks and controls, which do not count around a URL. -/
def isEdge (c : Char) : Bool := c.toNat ≤ 0x20

theorem isEdge_of_isIgnored (h : isIgnored c = true) : isEdge c = true := by
  simp only [isIgnored, Bool.or_eq_true, beq_iff_eq] at h
  rcases h with (rfl | rfl) | rfl <;> decide

theorem isEdge_eq_false_of_isSchemeChar (h : isSchemeChar c = true) : isEdge c = false := by
  have noScheme : ∀ n ≤ 0x20, isSchemeChar (Char.ofNat n) = false := by decide
  cases edge : isEdge c with
  | false => rfl
  | true =>
    have other := noScheme c.toNat (of_decide_eq_true edge)
    rw [Char.ofNat_toNat, h] at other
    contradiction

theorem isSchemeChar_of_isAlpha (h : c.isAlpha = true) : isSchemeChar c = true := by
  simp [isSchemeChar, Char.isAlphanum, h]

theorem not_isIgnored_of_isSchemeChar (h : isSchemeChar c = true) : isIgnored c = false := by
  cases ignored : isIgnored c with
  | false => rfl
  | true =>
    have edge := isEdge_of_isIgnored ignored
    rw [isEdge_eq_false_of_isSchemeChar h] at edge
    contradiction

/-- Only blanks and controls are cut off a text. -/
theorem toList_eq_trimmed (s : String) :
    ∃ front back, s.toList = front ++ (trimmed s ++ back) ∧ ∀ c ∈ front, isEdge c = true := by
  refine ⟨s.toList.takeWhile isEdge,
    ((s.toList.dropWhile isEdge).reverse.takeWhile isEdge).reverse, ?_,
    fun c mem => List.mem_takeWhile_imp mem⟩
  have inner : trimmed s ++ ((s.toList.dropWhile isEdge).reverse.takeWhile isEdge).reverse =
      s.toList.dropWhile isEdge := by
    rw [trimmed, ← List.reverse_append]
    exact (congrArg List.reverse List.takeWhile_append_dropWhile).trans (List.reverse_reverse _)
  rw [inner, List.takeWhile_append_dropWhile]

/-- A text that starts behind some blanks with characters that count, up to one that counts. -/
theorem trimmed_eq_of_toList {front run rest : List Char}
    (split : s.toList = front ++ (run ++ c :: rest))
    (edges : ∀ d ∈ front, isEdge d = true) (starts : ∀ d ∈ (run ++ [c]).head?, isEdge d = false)
    (ends : isEdge c = false) : ∃ back, trimmed s = run ++ c :: back := by
  have inner : s.toList.dropWhile isEdge = run ++ c :: rest := by
    rw [split, List.dropWhile_append_of_pos edges]
    cases run with
    | nil => simp [ends]
    | cons d run => simp [starts d rfl]
  refine ⟨(rest.reverse.dropWhile isEdge).reverse, ?_⟩
  have outer : trimmed s = ((s.toList.dropWhile isEdge).reverse.dropWhile isEdge).reverse := rfl
  rw [outer, inner, List.reverse_append, List.reverse_cons, List.append_assoc, List.dropWhile_append]
  split
  next empty =>
    rw [List.isEmpty_iff] at empty
    simp [empty, ends]
  next => simp

/-! ## Schemes -/

/-- What has a scheme starts with its letter, and the name ends at a colon. -/
theorem isSome_scheme?_iff (cs : List Char) :
    (scheme? cs).isSome ↔ ∃ c name rest, cs = c :: (name ++ ':' :: rest) ∧ c.isAlpha = true ∧
      ∀ d ∈ name, isSchemeChar d = true := by
  have parts : cs.takeWhile isSchemeChar ++ cs.dropWhile isSchemeChar = cs :=
    List.takeWhile_append_dropWhile
  constructor
  · intro found
    unfold scheme? at found
    split at found
    next c name rest taken left =>
      split at found
      next letter =>
        rw [taken, left] at parts
        have inside : ∀ d ∈ c :: name, isSchemeChar d = true := fun d mem =>
          List.mem_takeWhile_imp (taken ▸ mem)
        exact ⟨c, name, rest, parts.symm, letter, fun d mem => inside d (List.mem_cons_of_mem c mem)⟩
      next => contradiction
    next => contradiction
  · rintro ⟨c, name, rest, rfl, letter, inside⟩
    have first := isSchemeChar_of_isAlpha letter
    have colon : isSchemeChar ':' = false := by decide
    have taken : (c :: (name ++ ':' :: rest)).takeWhile isSchemeChar = c :: name := by
      rw [List.takeWhile_cons_of_pos first, List.takeWhile_append_of_pos inside]
      simp [colon]
    have left : (c :: (name ++ ':' :: rest)).dropWhile isSchemeChar = ':' :: rest := by
      rw [List.dropWhile_cons_of_pos first, List.dropWhile_append_of_pos inside]
      simp [colon]
    simp [scheme?, taken, left, letter]

/-- The text has a scheme. Blanks and controls may stand in front of it, tabs and line ends in it. -/
def HasScheme (s : String) : Prop :=
  ∃ front c name rest, s.toList = front ++ c :: (name ++ ':' :: rest) ∧
    (∀ d ∈ front, isEdge d = true) ∧ c.isAlpha = true ∧
    ∀ d ∈ name, isSchemeChar d = true ∨ isIgnored d = true

theorem hasScheme_iff : HasScheme s ↔ (scheme? (significant (trimmed s))).isSome := by
  rw [isSome_scheme?_iff]
  constructor
  · rintro ⟨front, c, name, rest, split, edges, letter, inside⟩
    have visible := isEdge_eq_false_of_isSchemeChar (isSchemeChar_of_isAlpha letter)
    have whole : s.toList = front ++ ((c :: name) ++ ':' :: rest) := split
    obtain ⟨back, trim⟩ := trimmed_eq_of_toList whole edges (by simpa using visible) (by decide)
    have counts := not_isIgnored_of_isSchemeChar (isSchemeChar_of_isAlpha letter)
    have colon : isIgnored ':' = false := by decide
    refine ⟨c, significant name, significant back, ?_, letter, fun d mem => ?_⟩
    · simp [trim, significant, counts, colon]
    · obtain ⟨mem, kept⟩ := List.mem_filter.1 mem
      exact (inside d mem).resolve_right (by simpa using kept)
  · rintro ⟨c, name, rest, split, letter, inside⟩
    obtain ⟨front, back, whole, edges⟩ := toList_eq_trimmed s
    obtain ⟨before, after, trim, skipped, -, split⟩ := List.filter_eq_cons_iff.1 split
    obtain ⟨name', behind, rfl, rfl, colon⟩ := List.filter_eq_append_iff.1 split
    obtain ⟨gap, rest', rfl, skipped', -, -⟩ := List.filter_eq_cons_iff.1 colon
    refine ⟨front ++ before, c, name' ++ gap, rest' ++ back, ?_, ?_, letter, ?_⟩
    · simp [whole, trim]
    · intro d mem
      rcases List.mem_append.1 mem with mem | mem
      · exact edges d mem
      · exact isEdge_of_isIgnored (by simpa using skipped d mem)
    · intro d mem
      rcases List.mem_append.1 mem with mem | mem
      · by_cases ignored : isIgnored d = true
        · exact .inr ignored
        · exact .inl (inside d (List.mem_filter.2 ⟨mem, by simpa using ignored⟩))
      · exact .inr (by simpa using skipped' d mem)

/-! ## Faults behind the scheme -/

/-- The reading does not fail for want of a scheme. -/
def Absolute (reading : Except Fault α) : Prop := reading ≠ .error .relative

@[simp] theorem Absolute.ok (a : α) : Absolute (.ok a) := by simp [Absolute]

@[simp] theorem absolute_error_iff {fault : Fault} :
    Absolute (.error fault : Except Fault α) ↔ fault ≠ .relative := by
  simp [Absolute]

theorem Absolute.bind {reading : Except Fault α} {next : α → Except Fault β}
    (h : Absolute reading) (h' : ∀ a, Absolute (next a)) : Absolute (reading >>= next) := by
  cases reading with
  | error fault => exact fun relative => h (congrArg Except.error (Except.error.inj relative))
  | ok a => exact h' a

theorem Absolute.map {reading : Except Fault α} {f : α → β} (h : Absolute reading) :
    Absolute (reading.map f) := by
  cases reading with
  | error fault => exact fun relative => h (congrArg Except.error (Except.error.inj relative))
  | ok a => exact .ok (f a)

theorem absolute_bracketHost (cs : List Char) : Absolute (bracketHost cs) := by
  unfold bracketHost
  split
  · split <;> simp
  · simp

theorem absolute_namedHost (cs : List Char) : Absolute (namedHost cs) := by
  unfold namedHost
  split
  · exact absolute_bracketHost _
  · split
    · simp
    · simp
    · split
      · split <;> simp
      · simp

theorem absolute_plainHost (cs : List Char) : Absolute (plainHost cs) := by
  unfold plainHost
  split
  · simp
  · exact (absolute_bracketHost _).map
  · split <;> simp

theorem absolute_afterPort (cs : List Char) : Absolute (afterPort cs) := by
  unfold afterPort
  dsimp only
  split
  · simp
  · split
    · simp
    · split <;> simp

theorem absolute_authority (family : Family) (cs : List Char) :
    Absolute (authority family cs) := by
  unfold authority
  dsimp only
  split
  · simp
  · split
    · simp
    · have last {host : Option Host} {user : Option (List Char)} {rest : List Char} :
          Absolute (if host.isNone && hasCredentials user then .error .emptyHost
            else .ok (host, rest)) := by
        split <;> simp
      split
      · refine .bind (absolute_namedHost _).map fun host => ?_
        split
        · exact .bind (absolute_afterPort _) fun _ => last
        · exact last
      · refine .bind (absolute_plainHost _) fun host => ?_
        split
        · exact .bind (absolute_afterPort _) fun _ => last
        · exact last

theorem absolute_ofWeb (scheme : String) (cs : List Char) : Absolute (ofWeb scheme cs) :=
  .bind (absolute_authority _ _) fun _ => .ok _

theorem absolute_ofOther (scheme : String) (cs : List Char) : Absolute (ofOther scheme cs) := by
  unfold ofOther
  split
  · exact .bind (absolute_authority _ _) fun _ => .ok _
  · exact .ok _
  · exact .ok _

theorem absolute_fileHost (cs : List Char) : Absolute (fileHost cs) := by
  unfold fileHost
  dsimp only
  split
  · exact .ok _
  · split
    · exact .ok _
    · exact .bind (absolute_namedHost _) fun _ => .ok _

theorem absolute_ofFile (cs : List Char) : Absolute (ofFile cs) := by
  unfold ofFile
  split
  · exact .bind (absolute_fileHost _) fun _ => .ok _
  · exact .ok _

/-- A text is relative exactly if it has no scheme. -/
theorem parse_eq_relative_iff : parse s = .error .relative ↔ ¬HasScheme s := by
  rw [hasScheme_iff, Option.not_isSome_iff_eq_none]
  unfold parse
  dsimp only
  split
  next missing => exact iff_of_true rfl missing
  next scheme rest found =>
    refine iff_of_false ?_ (by simp [found])
    split
    · exact absolute_ofWeb _ _
    · exact absolute_ofFile _
    · exact absolute_ofOther _ _

end SiteManifest.Url
