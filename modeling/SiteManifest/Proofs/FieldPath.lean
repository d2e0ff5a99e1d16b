import SiteManifest.FieldPath
import SiteManifest.Proofs.Text.Digits

/-!
# Paths of fields

The text of a path grows at its end with every step. As long as no key holds one of the marks that
stand between steps, the steps can be read off the text, so a path belongs to one place.

## Main definitions

* `FieldPath.IsPlain`: a key without marks.
* `FieldPath.stepChars`: what steps add to the text of a path.

## Main statements

* `FieldPath.extend_opened`: what stands before a path stays before it.
* `FieldPath.join_assoc`, `FieldPath.join_ofSteps_key`: joining paths is joining their steps.
* `FieldPath.toList_extend_index`: the text of steps behind any path.
* `FieldPath.ofSteps_injective`: different places have different paths.
-/
namespace SiteManifest.FieldPath

variable {path : FieldPath} {opening : String} {steps : List Step}

/-! ## Growing texts -/

theorem isRoot_opened (h : path.isRoot = false) : (mk (opening ++ path.text)).isRoot = false := by
  simp only [isRoot, String.isEmpty_eq_false_iff, ne_eq, String.append_eq_empty_iff, not_and] at h ⊢
  exact fun _ => h

theorem isRoot_push (h : path.isRoot = false) (step : Step) : (path.push step).isRoot = false := by
  cases step with
  | key name =>
    rw [push, key, if_neg (by simp [h])]
    simp [isRoot]
  | index i =>
    rw [push, index]
    simp [isRoot]

theorem push_opened (h : path.isRoot = false) (step : Step) :
    (mk (opening ++ path.text)).push step = ⟨opening ++ (path.push step).text⟩ := by
  cases step with
  | key name =>
    simp only [push, key, h, isRoot_opened h, Bool.false_eq_true, if_false, String.append_assoc]
  | index i => simp only [push, index, String.append_assoc]

/-- What stands before a path stays before it. -/
theorem extend_opened (h : path.isRoot = false) (steps : List Step) :
    (mk (opening ++ path.text)).extend steps = ⟨opening ++ (path.extend steps).text⟩ := by
  induction steps generalizing path with
  | nil => rfl
  | cons step steps ih =>
    have next := ih (isRoot_push h step)
    rw [extend, List.foldl_cons, push_opened h]
    exact next

/-! ## Joining -/

section Join

variable {child : FieldPath} {name : String}

theorem eq_root_or (path : FieldPath) : path = root ∨ path.isRoot = false := by
  cases h : path.isRoot with
  | true => exact .inl (congrArg mk (String.isEmpty_iff.1 h))
  | false => exact .inr rfl

theorem root_join (child : FieldPath) : root.join child = child := rfl

theorem join_root (path : FieldPath) : path.join root = path := by
  rcases eq_root_or path with rfl | h
  · rfl
  · simp only [join, h, Bool.false_eq_true, if_false]
    rfl

theorem join_of_not_root (h : path.isRoot = false) (h' : child.isRoot = false) :
    path.join child = ⟨path.text ++ "." ++ child.text⟩ := by
  simp only [join, h, h', Bool.false_eq_true, if_false]

theorem join_assoc (first second third : FieldPath) :
    (first.join second).join third = first.join (second.join third) := by
  rcases eq_root_or first with rfl | h
  · rw [root_join, root_join]
  rcases eq_root_or second with rfl | h'
  · rw [join_root, root_join]
  rcases eq_root_or third with rfl | h''
  · rw [join_root, join_root]
  · rw [join_of_not_root h h', join_of_not_root h' h'', join_of_not_root (by simp [isRoot]) h'',
      join_of_not_root h (by simp [isRoot])]
    simp only [String.append_assoc]

theorem isRoot_mk (h : name ≠ "") : (mk name).isRoot = false := by
  simpa [isRoot] using h

/-- A key is joined as a path of its own. Behind a place an empty key would leave its point only. -/
theorem join_key (h : name ≠ "") : path.join ⟨name⟩ = path.key name := by
  unfold join key
  split <;> simp [isRoot_mk h]

theorem join_push (h : child.isRoot = false) (step : Step) :
    path.join (child.push step) = (path.join child).push step := by
  rcases eq_root_or path with rfl | h'
  · rw [root_join, root_join]
  · rw [join_of_not_root h' (isRoot_push h step), join_of_not_root h' h, push_opened h]

/-- Steps that follow a path follow it wherever it is joined. An index at the start of a path is none
of them: behind a place it would be joined with a point. -/
theorem join_extend (h : child.isRoot = false) (steps : List Step) :
    path.join (child.extend steps) = (path.join child).extend steps := by
  induction steps generalizing child with
  | nil => rfl
  | cons step steps ih =>
    have next : path.join ((child.push step).extend steps) =
        (path.join (child.push step)).extend steps := ih (isRoot_push h step)
    rw [join_push h step] at next
    exact next

/-- A key at the start of a path has no point before it. -/
theorem ofSteps_key (name : String) (rest : List Step) :
    ofSteps (.key name :: rest) = (mk name).extend rest := by
  have start : root.key name = ⟨name⟩ := congrArg mk String.empty_append
  rw [← start]
  rfl

/-- Joining a path that starts with a key goes its steps. -/
theorem join_ofSteps_key (h : name ≠ "") (path : FieldPath) (rest : List Step) :
    path.join (ofSteps (.key name :: rest)) = path.extend (.key name :: rest) := by
  rw [ofSteps_key, join_extend (isRoot_mk h), join_key h]
  rfl

end Join

/-! ## The text of steps -/

/-- What steps add to the text of a path that is not empty. -/
def stepChars : List Step → List Char
  | [] => []
  | .key name :: steps => '.' :: (name.toList ++ stepChars steps)
  | .index i :: steps => '[' :: (i.repr.toList ++ ']' :: stepChars steps)

theorem toList_extend (h : path.isRoot = false) (steps : List Step) :
    (path.extend steps).text.toList = path.text.toList ++ stepChars steps := by
  induction steps generalizing path with
  | nil => simp [extend, stepChars]
  | cons step steps ih =>
    rw [extend, List.foldl_cons]
    refine (ih (isRoot_push h step)).trans ?_
    cases step with
    | key name => simp [push, key, h, stepChars]
    | index i => simp [push, index, stepChars, Nat.toString_eq_repr]

/-- An index is written alike behind every path. -/
theorem toList_extend_index (path : FieldPath) (i : Nat) (steps : List Step) :
    (path.extend (.index i :: steps)).text.toList =
      path.text.toList ++ stepChars (.index i :: steps) := by
  have named : (path.index i).isRoot = false := by simp [index, isRoot]
  rw [extend, List.foldl_cons]
  refine (toList_extend named steps).trans ?_
  simp [index, stepChars, Nat.toString_eq_repr]

/-- With a point before it, a path that starts with a key is what its steps add to another one. -/
theorem cons_toList_ofSteps_key {name : String} (h : name ≠ "") (steps : List Step) :
    '.' :: (ofSteps (.key name :: steps)).text.toList = stepChars (.key name :: steps) := by
  rw [ofSteps_key, toList_extend (isRoot_mk h), stepChars]

/-! ## Reading steps off a text -/

/-- A key that can be told from what stands around it in a path: it is not empty, and it holds no
point and no square bracket. -/
structure IsPlain (key : String) : Prop where
  nonempty : key ≠ ""
  noPoint : '.' ∉ key.toList
  noOpening : '[' ∉ key.toList
  noClosing : ']' ∉ key.toList

instance : DecidablePred IsPlain := fun key =>
  decidable_of_iff (key ≠ "" ∧ '.' ∉ key.toList ∧ '[' ∉ key.toList ∧ ']' ∉ key.toList)
    ⟨fun ⟨nonempty, point, opening, closing⟩ => ⟨nonempty, point, opening, closing⟩,
      fun ⟨nonempty, point, opening, closing⟩ => ⟨nonempty, point, opening, closing⟩⟩

/-- Steps of which all keys are plain. -/
def PlainSteps : List Step → Prop
  | [] => True
  | .key name :: steps => IsPlain name ∧ PlainSteps steps
  | .index _ :: steps => PlainSteps steps

instance decidablePlainSteps : DecidablePred PlainSteps
  | [] => .isTrue trivial
  | .key name :: steps =>
    have := decidablePlainSteps steps
    inferInstanceAs (Decidable (IsPlain name ∧ PlainSteps steps))
  | .index _ :: steps => decidablePlainSteps steps

/-- A run of characters ends at the first mark, so it and what follows it can be told apart. -/
theorem append_injective {run other rest more : List Char} (isMark : Char → Bool)
    (inside : ∀ c ∈ run, isMark c = false) (inside' : ∀ c ∈ other, isMark c = false)
    (ends : ∀ c ∈ rest.head?, isMark c = true) (ends' : ∀ c ∈ more.head?, isMark c = true)
    (same : run ++ rest = other ++ more) : run = other ∧ rest = more := by
  have here := congrArg (List.takeWhile (!isMark ·)) same
  have behind := congrArg (List.dropWhile (!isMark ·)) same
  rw [Text.takeWhile_append_of_head (by simpa using inside) (by simpa using ends),
    Text.takeWhile_append_of_head (by simpa using inside') (by simpa using ends')] at here
  rw [Text.dropWhile_append_of_head (by simpa using inside) (by simpa using ends),
    Text.dropWhile_append_of_head (by simpa using inside') (by simpa using ends')] at behind
  exact ⟨here, behind⟩

/-- The marks that can stand behind a key. -/
def isMark (c : Char) : Bool := c == '.' || c == '['

theorem isMark_head?_stepChars (steps : List Step) :
    ∀ c ∈ (stepChars steps).head?, isMark c = true := by
  rcases steps with _ | ⟨_ | _, _⟩ <;> simp [stepChars, isMark]

theorem IsPlain.unmarked {key : String} (h : IsPlain key) : ∀ c ∈ key.toList, isMark c = false := by
  intro c mem
  have noPoint : c ≠ '.' := fun same => h.noPoint (same ▸ mem)
  have noOpening : c ≠ '[' := fun same => h.noOpening (same ▸ mem)
  simp [isMark, noPoint, noOpening]

theorem closing_not_mem_repr (i : Nat) : ∀ c ∈ i.repr.toList, (c == ']') = false := by
  intro c mem
  rw [Nat.toList_repr] at mem
  have digit := Text.isDigit_of_mem_toDigits mem
  rw [beq_eq_false_iff_ne]
  rintro rfl
  exact absurd digit (by decide)

theorem stepChars_injective {other : List Step} (plain : PlainSteps steps)
    (plain' : PlainSteps other) (same : stepChars steps = stepChars other) : steps = other := by
  induction steps generalizing other with
  | nil =>
    rcases other with _ | ⟨_ | _, _⟩
    · rfl
    · contradiction
    · contradiction
  | cons step steps ih =>
    cases step with
    | key name =>
      rcases other with _ | ⟨name' | _, other⟩
      · contradiction
      · obtain ⟨keys, rest⟩ := append_injective isMark plain.1.unmarked plain'.1.unmarked
          (isMark_head?_stepChars _) (isMark_head?_stepChars _) (List.cons.inj same).2
        rw [String.toList_inj.1 keys, ih plain.2 plain'.2 rest]
      · exact absurd (List.cons.inj same).1 (by decide)
    | index i =>
      rcases other with _ | ⟨_ | j, other⟩
      · contradiction
      · exact absurd (List.cons.inj same).1 (by decide)
      · obtain ⟨digits, rest⟩ := append_injective (· == ']') (closing_not_mem_repr i)
          (closing_not_mem_repr j) (by simp) (by simp) (List.cons.inj same).2
        rw [Nat.toList_repr, Nat.toList_repr] at digits
        rw [Text.toDigits_injective digits, @ih other plain plain' (List.cons.inj rest).2]

/-- Behind one path, different places in a list have different paths. -/
theorem extend_index_injective {other : List Step} {i j : Nat} (plain : PlainSteps steps)
    (plain' : PlainSteps other)
    (same : path.extend (.index i :: steps) = path.extend (.index j :: other)) :
    Step.index i :: steps = .index j :: other := by
  have text := congrArg (String.toList ∘ FieldPath.text) same
  simp only [Function.comp_apply, toList_extend_index, List.append_cancel_left_eq] at text
  exact stepChars_injective plain plain' text

/-- The text of a path with a point before the key that it starts with, if it starts with one. -/
def marked : List Char → List Char
  | [] => []
  | '[' :: cs => '[' :: cs
  | c :: cs => '.' :: c :: cs

theorem stepChars_eq_marked (plain : PlainSteps steps) :
    stepChars steps = marked (ofSteps steps).text.toList := by
  rcases steps with _ | ⟨name | i, steps⟩
  · rfl
  · obtain ⟨nonempty, _, noOpening, _⟩ := plain.1
    obtain ⟨c, cs, opening⟩ := List.exists_cons_of_ne_nil (mt String.toList_eq_nil_iff.1 nonempty)
    have other : c ≠ '[' := fun same => noOpening (by simp [opening, same])
    have text := cons_toList_ofSteps_key nonempty steps
    rw [stepChars, opening, List.cons_append] at text
    rw [(List.cons.inj text).2, stepChars, opening, List.cons_append, marked]
    simpa using other
  · have text : (ofSteps (.index i :: steps)).text.toList = [] ++ _ :=
      toList_extend_index root i steps
    rw [text]
    rfl

/-- Different places have different paths. -/
theorem ofSteps_injective {other : List Step} (plain : PlainSteps steps)
    (plain' : PlainSteps other) (same : ofSteps steps = ofSteps other) : steps = other := by
  apply stepChars_injective plain plain'
  rw [stepChars_eq_marked plain, stepChars_eq_marked plain', same]

end SiteManifest.FieldPath
