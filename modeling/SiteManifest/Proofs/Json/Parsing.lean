import SiteManifest.Json.Parser
import SiteManifest.Proofs.Json.Keys

/-!
# Keys of JSON texts

A text may write a key twice, but the value it is read as has it once. The statements follow the
readers of the parser, each for whatever text is left to it.
-/
namespace SiteManifest.Json

open Lexeme Text

theorem eq_of_wordRest {v w : Json} {word cs rest : List Char}
    (h : wordRest v word cs = .ok (w, rest)) : w = v := by
  induction word generalizing cs with
  | nil =>
    obtain ⟨rfl, _⟩ := Prod.mk.inj (Except.ok.inj h)
    rfl
  | cons c word ih =>
    cases cs with
    | nil => contradiction
    | cons d cs =>
      unfold wordRest at h
      split at h
      · exact ih h
      · contradiction

theorem exists_of_map_eq_ok {x : Except Failure (Number.Numeral × List Char)} {v : Json}
    {rest : List Char} (h : (x.map fun (n, rest) => (Json.number n, rest)) = .ok (v, rest)) :
    ∃ n, v = .number n := by
  cases x with
  | error => contradiction
  | ok found => exact ⟨found.1, (Prod.mk.inj (Except.ok.inj h)).1.symm⟩

theorem keysOnce_scalar {c : Char} {cs : List Char} {v : Json} {rest : List Char}
    (h : scalar c cs = .ok (v, rest)) : v.KeysOnce := by
  unfold scalar at h
  split at h
  next value word hw =>
    rw [eq_of_wordRest h]
    unfold word? at hw
    grind [KeysOnce]
  next =>
    -- What is left are numbers, with a sign or without.
    split at h
    · obtain ⟨_, rfl⟩ := exists_of_map_eq_ok h
      trivial
    · split at h
      · obtain ⟨_, rfl⟩ := exists_of_map_eq_ok h
        trivial
      · contradiction

theorem keysOnce_scalarFound {c : Char} {cs : List Char} {v : Found Json (c :: cs)}
    (h : scalarFound c cs = .ok v) : v.value.KeysOnce := by
  unfold scalarFound at h
  split at h
  · contradiction
  next w rest read =>
    split at h
    · obtain rfl := Except.ok.inj h
      exact keysOnce_scalar read
    · contradiction

mutual

theorem keysOnce_value {depth : Nat} {cs : List Char} {v : Found Json cs}
    (h : value depth cs = .ok v) : v.value.KeysOnce := by
  unfold value at h
  split at h
  · contradiction
  next c rest blanks =>
    have shorter := length_lt_of_skipBlanks blanks
    dsimp only at h
    split at h
    · split at h
      · contradiction
      · obtain rfl := Except.ok.inj h
        trivial
    · split at h
      · split at h
        · contradiction
        · split at h
          · contradiction
          next vs found =>
            obtain rfl := Except.ok.inj h
            exact keysOnceItems_iff.2 (keysOnce_items found)
      · split at h
        · split at h
          · contradiction
          · split at h
            · contradiction
            next ms found =>
              obtain rfl := Except.ok.inj h
              exact keysOnce_tableOf (keysOnce_members found)
        · split at h
          · contradiction
          next w found =>
            obtain rfl := Except.ok.inj h
            exact keysOnce_scalarFound found
termination_by (cs.length, 1)

theorem keysOnce_items {depth : Nat} {cs : List Char} {vs : Found (List Json) cs}
    (h : items depth cs = .ok vs) : ∀ v ∈ vs.value, v.KeysOnce := by
  unfold items at h
  split at h
  · contradiction
  next c rest blanks =>
    dsimp only at h
    split at h
    · obtain rfl := Except.ok.inj h
      exact List.forall_mem_nil _
    · split at h
      · contradiction
      next v first =>
        split at h
        · contradiction
        next more found =>
          obtain rfl := Except.ok.inj h
          have within := v.shorter
          exact List.forall_mem_cons.2 ⟨keysOnce_value first, keysOnce_moreItems found⟩
termination_by (cs.length, 2)

theorem keysOnce_moreItems {depth : Nat} {cs : List Char} {vs : Found (List Json) cs}
    (h : moreItems depth cs = .ok vs) : ∀ v ∈ vs.value, v.KeysOnce := by
  unfold moreItems at h
  split at h
  · contradiction
  next c rest blanks =>
    have shorter := length_lt_of_skipBlanks blanks
    dsimp only at h
    split at h
    · obtain rfl := Except.ok.inj h
      exact List.forall_mem_nil _
    · split at h
      · split at h
        · contradiction
        · contradiction
        · split at h
          · contradiction
          next v first =>
            split at h
            · contradiction
            next more found =>
              obtain rfl := Except.ok.inj h
              have within := v.shorter_of_lt shorter
              exact List.forall_mem_cons.2 ⟨keysOnce_value first, keysOnce_moreItems found⟩
      · contradiction
termination_by (cs.length, 2)

theorem keysOnce_members {depth : Nat} {cs : List Char} {ms : Found Members cs}
    (h : members depth cs = .ok ms) : ∀ m ∈ ms.value, m.2.KeysOnce := by
  unfold members at h
  split at h
  · contradiction
  next c rest blanks =>
    have shorter := length_lt_of_skipBlanks blanks
    dsimp only at h
    split at h
    · obtain rfl := Except.ok.inj h
      exact List.forall_mem_nil _
    · split at h
      · split at h
        · contradiction
        next m first =>
          split at h
          · contradiction
          next more found =>
            obtain rfl := Except.ok.inj h
            have within := m.shorter_of_lt shorter
            exact List.forall_mem_cons.2 ⟨keysOnce_member first, keysOnce_moreMembers found⟩
      · contradiction
termination_by (cs.length, 3)

theorem keysOnce_moreMembers {depth : Nat} {cs : List Char} {ms : Found Members cs}
    (h : moreMembers depth cs = .ok ms) : ∀ m ∈ ms.value, m.2.KeysOnce := by
  unfold moreMembers at h
  split at h
  · contradiction
  next c rest blanks =>
    have shorter := length_lt_of_skipBlanks blanks
    dsimp only at h
    split at h
    · obtain rfl := Except.ok.inj h
      exact List.forall_mem_nil _
    · split at h
      · split at h
        · contradiction
        next k after keyBlanks =>
          have inKey := Nat.lt_trans (length_lt_of_skipBlanks keyBlanks) shorter
          split at h
          · split at h
            · contradiction
            next m first =>
              split at h
              · contradiction
              next more found =>
                obtain rfl := Except.ok.inj h
                have within := m.shorter_of_lt inKey
                exact List.forall_mem_cons.2 ⟨keysOnce_member first, keysOnce_moreMembers found⟩
          · split at h <;> contradiction
      · contradiction
termination_by (cs.length, 3)

theorem keysOnce_member {depth : Nat} {cs : List Char} {m : Found (String × Json) cs}
    (h : member depth cs = .ok m) : m.value.2.KeysOnce := by
  unfold member at h
  split at h
  · contradiction
  next key read =>
    split at h
    · contradiction
    next c rest blanks =>
      have shorter := Nat.lt_trans (length_lt_of_skipBlanks blanks) key.shorter
      dsimp only at h
      split at h
      · split at h
        · contradiction
        next v found =>
          obtain rfl := Except.ok.inj h
          exact keysOnce_value found
      · contradiction
termination_by (cs.length, 2)

end

/-- A text of JSON is read as a value in which every key occurs once. -/
theorem keysOnce_parse {text : String} {v : Json} (h : parse text = .ok v) : v.KeysOnce := by
  unfold parse parseWithin at h
  split at h
  · contradiction
  next found read =>
    split at h
    · obtain rfl := Except.ok.inj h
      exact keysOnce_value read
    · contradiction

end SiteManifest.Json
