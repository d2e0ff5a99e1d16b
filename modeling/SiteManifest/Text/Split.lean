/-!
# Splitting
-/
namespace SiteManifest.Text

/-- The parts of a text between separators, of which there is one more than there are separators. -/
def splitWhere (isSeparator : Char → Bool) : List Char → List (List Char)
  | [] => [[]]
  | c :: cs =>
    if isSeparator c then [] :: splitWhere isSeparator cs
    else
      match splitWhere isSeparator cs with
      | [] => [[c]]
      | part :: parts => (c :: part) :: parts

theorem splitWhere_ne_nil {isSeparator : Char → Bool} {cs : List Char} :
    splitWhere isSeparator cs ≠ [] := by
  cases cs with
  | nil => simp [splitWhere]
  | cons c cs =>
    rw [splitWhere]
    split
    · simp
    · split <;> simp

/-- No part holds a separator. -/
theorem not_isSeparator_of_mem {isSeparator : Char → Bool} {cs part : List Char} {c : Char}
    (h : part ∈ splitWhere isSeparator cs) (hc : c ∈ part) : isSeparator c = false := by
  induction cs generalizing part with
  | nil => simp_all [splitWhere]
  | cons d cs ih =>
    rw [splitWhere] at h
    split at h
    · rcases List.mem_cons.1 h with rfl | h
      · simp at hc
      · exact ih h hc
    · rename_i hd
      split at h
      · obtain rfl := List.mem_singleton.1 h
        simp_all
      · rename_i head parts hs
        rcases List.mem_cons.1 h with rfl | h
        · rcases List.mem_cons.1 hc with rfl | hc
          · simpa using hd
          · exact ih (hs ▸ List.mem_cons_self) hc
        · exact ih (hs ▸ List.mem_cons_of_mem _ h) hc

/-- Every character of a part is one of the text. -/
theorem mem_of_mem_splitWhere {isSeparator : Char → Bool} {cs part : List Char} {c : Char}
    (h : part ∈ splitWhere isSeparator cs) (hc : c ∈ part) : c ∈ cs := by
  induction cs generalizing part with
  | nil => simp_all [splitWhere]
  | cons d cs ih => grind [splitWhere]

end SiteManifest.Text
