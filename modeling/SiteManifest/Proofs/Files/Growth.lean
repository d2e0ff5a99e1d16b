import SiteManifest.Proofs.Files.Joined

/-!
# Trees that grow

Making directories only adds to a tree, and so does writing a file where there was none. A way that
was there before is still there then, and a way that is there only now ends in a part of the tree
that is new, unless it leads back out of that part.

## Main definitions

* `FileTree.Grows`: a tree holds whatever another one holds.
* `FileTree.KeepsPlaces`: a tree has the places of another one.
* `FileTree.TurnsBack`: a way goes back only where it can be gone.

## Main statements

* `FileTree.walk_of_keepsPlaces`: ways stay.
* `FileTree.walk_grown`: where a way leads in a tree that has grown.
* `FileSystem.makeFirst_preserves`: what holds on while directories are made.
-/
namespace SiteManifest

variable {name : String} {place next l : Location} {names : List String}

namespace FileTree

variable {t u v : FileTree}

/-- Whatever is in the one tree is in the other one, unchanged. -/
def Grows (t u : FileTree) : Prop :=
  ∀ place entry, t.entry place = some entry → u.entry place = some entry

theorem Grows.refl (t : FileTree) : t.Grows t := fun _ _ h => h

theorem Grows.trans (h : t.Grows u) (h' : u.Grows v) : t.Grows v :=
  fun place entry found => h' place entry (h place entry found)

/-- A tree goes on growing if something is put where it had nothing. -/
theorem Grows.set {e : Option Entry} (h : t.Grows u) (free : t.entry place = none)
    (put : ∀ l, v.entry l = u.set place e l) : t.Grows v := by
  intro l entry found
  have other : l ≠ place := by
    rintro rfl
    simp [free] at found
  rw [put, set_of_ne other, h l entry found]

theorem Grows.addDirectory (h : t.Grows u) (inside : u.entry place = some .directory)
    (free : t.entry (name :: place) = none) : t.Grows (u.addDirectory name place inside) :=
  h.set free fun _ => rfl

theorem Grows.putFile {slot : u.Slot} {content : ByteArray} (h : t.Grows u)
    (free : t.entry slot.place = none) : t.Grows (u.putFile slot content) :=
  h.set free fun _ => rfl

/-- Where something is in the one tree, something is in the other one, and directories are
directories. Files may differ. -/
structure KeepsPlaces (t u : FileTree) : Prop where
  entries : ∀ place, t.entry place ≠ none → u.entry place ≠ none
  directories : ∀ place, t.entry place = some .directory → u.entry place = some .directory

theorem Grows.keepsPlaces (h : t.Grows u) : t.KeepsPlaces u where
  entries place found := by
    obtain ⟨e, found⟩ := Option.ne_none_iff_exists'.1 found
    simp [h place e found]
  directories place := h place .directory

theorem keepsPlaces_putFile (slot : t.Slot) (content : ByteArray) :
    t.KeepsPlaces (t.putFile slot content) where
  entries l found := by
    by_cases same : l = slot.place
    · simp [same]
    · rwa [entry_putFile_of_ne same]
  directories l found := by
    have other : l ≠ slot.place := by
      rintro rfl
      exact slot.free found
    rwa [entry_putFile_of_ne other]

/-- Only directories hold something. -/
theorem entry_cons_eq_none (h : t.entry place ≠ some .directory) :
    t.entry (name :: place) = none := by
  cases found : t.entry (name :: place) with
  | none => rfl
  | some e => exact absurd (t.parent name place (by simp [found])) h

/-! ## Steps of a way -/

/-- Where one name leads. -/
def step? (t : FileTree) (place : Location) (name : String) : Option Location :=
  if t.entry place ≠ some .directory then none
  else if name = "." then some place
  else if name = ".." then some place.tail
  else if name.utf8ByteSize ≤ maxNameBytes ∧ t.entry (name :: place) ≠ none then
    some (name :: place)
  else none

theorem walk_cons_eq_ok_iff :
    t.walk place (name :: names) = .ok l ↔
      ∃ next, t.step? place name = some next ∧ t.walk next names = .ok l := by
  rw [walk, step?]
  grind [Option.isNone_iff_eq_none]

/-- A name leads to what has the name. -/
theorem walk_singleton (can : CanName name) (directory : t.entry place = some .directory)
    (found : t.entry (name :: place) ≠ none) : t.walk place [name] = .ok (name :: place) := by
  rw [walk_cons_eq_ok_iff, step?]
  exact ⟨_, by grind [CanName], rfl⟩

theorem step?_of_keepsPlaces (h : t.KeepsPlaces u) (ok : t.step? place name = some next) :
    u.step? place name = some next := by
  have directory := h.directories place
  have below := h.entries (name :: place)
  unfold step? at ok ⊢
  grind

/-- A step onwards from where there was nothing leads to where there was nothing. -/
theorem entry_eq_none_of_step? (onwards : name ≠ "..") (nothing : t.entry place = none)
    (ok : u.step? place name = some next) : t.entry next = none := by
  have below : t.entry (name :: place) = none := entry_cons_eq_none (by simp [nothing])
  unfold step? at ok
  grind

/-- A step onwards in a tree that has grown was there before, or it leads to where there was
nothing. -/
theorem step?_grown (h : t.Grows u) (onwards : name ≠ "..") (ok : u.step? place name = some next) :
    t.step? place name = some next ∨ t.entry next = none := by
  cases found : t.entry place with
  | none => exact .inr (entry_eq_none_of_step? onwards found ok)
  | some e =>
    have same := h place e found
    unfold step? at ok ⊢
    grind

/-! ## Ways in a tree that has changed -/

theorem walk_of_keepsPlaces (h : t.KeepsPlaces u) (ok : t.walk place names = .ok l) :
    u.walk place names = .ok l := by
  induction names generalizing place with
  | nil => exact ok
  | cons name names ih =>
    obtain ⟨next, step, ok⟩ := walk_cons_eq_ok_iff.1 ok
    exact walk_cons_eq_ok_iff.2 ⟨next, step?_of_keepsPlaces h step, ih ok⟩

/-- From where there was nothing, a way onwards leads to where there was nothing. -/
theorem entry_eq_none_of_walk (onwards : ".." ∉ names) (nothing : t.entry place = none)
    (ok : u.walk place names = .ok l) : t.entry l = none := by
  induction names generalizing place with
  | nil =>
    obtain rfl := Except.ok.inj ok
    exact nothing
  | cons name names ih =>
    rw [List.mem_cons, not_or] at onwards
    obtain ⟨next, step, ok⟩ := walk_cons_eq_ok_iff.1 ok
    exact ih onwards.2 (entry_eq_none_of_step? (Ne.symm onwards.1) nothing step) ok

/-- A way goes back only where it can be gone that far. -/
def TurnsBack (t : FileTree) (place : Location) (names : List String) : Prop :=
  ∀ front, front ++ [".."] <+: names → ∃ l, t.walk place (front ++ [".."]) = .ok l

theorem turnsBack_of_not_mem (h : ".." ∉ names) : t.TurnsBack place names := by
  intro front isPrefix
  exact absurd (isPrefix.subset (by simp)) h

theorem TurnsBack.tail (h : t.TurnsBack place (name :: names))
    (step : t.step? place name = some next) : t.TurnsBack next names := by
  intro front isPrefix
  obtain ⟨l, ok⟩ := h (name :: front) (by simpa using isPrefix)
  obtain ⟨next', step', ok⟩ := walk_cons_eq_ok_iff.1 ok
  obtain rfl : next = next' := Option.some.inj (step.symm.trans step')
  exact ⟨l, ok⟩

/-- A way that cannot be gone from its first step on never goes back. -/
theorem TurnsBack.not_mem (h : t.TurnsBack place (name :: names))
    (stuck : t.step? place name = none) : ".." ∉ name :: names := by
  intro back
  obtain ⟨front, rest, split⟩ := List.append_of_mem back
  obtain ⟨l, ok⟩ := h front ⟨rest, by simp [split]⟩
  obtain ⟨first, more, hf⟩ : ∃ first more, front ++ [".."] = first :: more :=
    List.exists_cons_of_ne_nil (by simp)
  have same : first = name := by
    have := congrArg List.head? split
    cases front <;> simp_all
  rw [hf, walk_cons_eq_ok_iff, same, stuck] at ok
  simp at ok

/-- A way in a tree that has grown was there before, or it leads to where there was nothing. -/
theorem walk_grown (h : t.Grows u) (back : t.TurnsBack place names)
    (ok : u.walk place names = .ok l) : t.walk place names = .ok l ∨ t.entry l = none := by
  induction names generalizing place with
  | nil => exact .inl ok
  | cons name names ih =>
    obtain ⟨next, step, ok⟩ := walk_cons_eq_ok_iff.1 ok
    cases before : t.step? place name with
    | some next' =>
      have kept := step?_of_keepsPlaces h.keepsPlaces before
      obtain rfl : next' = next := Option.some.inj (kept.symm.trans step)
      rw [walk_cons_eq_ok_iff]
      rcases ih (back.tail before) ok with ok | nothing
      · exact .inl ⟨next', before, ok⟩
      · exact .inr nothing
    | none =>
      -- From here on the way is new, so it does not go back.
      have onwards := back.not_mem before
      rw [List.mem_cons, not_or] at onwards
      rcases step?_grown h (Ne.symm onwards.1) step with old | nothing
      · simp [before] at old
      · exact .inr (entry_eq_none_of_walk onwards.2 nothing ok)

end FileTree

/-! ## Operations -/

namespace FileSystem

variable {fs made : FileSystem} {p : Path}

/-- A file system in which a directory was made: it stands where there was nothing. -/
theorem exists_of_makeDirectory (h : fs.makeDirectory p = .ok made) :
    ∃ name place inside, p.names.getLast? = some name ∧ fs.container p = .ok place ∧
      FileTree.CanName name ∧ fs.tree.entry (name :: place) = none ∧
      made = { fs with tree := fs.tree.addDirectory name place inside } := by
  unfold makeDirectory at h
  split at h
  · contradiction
  · contradiction
  next place name way last =>
    split at h
    next inside =>
      split at h
      · contradiction
      next noDots =>
        split at h
        · contradiction
        next short =>
          split at h
          · contradiction
          next free =>
            split at h
            · contradiction
            next =>
              obtain rfl := Except.ok.inj h
              rw [Bool.not_eq_true, Option.isSome_eq_false_iff, Option.isNone_iff_eq_none] at free
              simp only [Bool.or_eq_true, decide_eq_true_eq, not_or] at noDots
              exact ⟨name, place, inside, last, way,
                ⟨noDots.1, noDots.2, Nat.le_of_not_lt short⟩, free, rfl⟩
    next => contradiction

theorem grows_makeDirectory (h : fs.makeDirectory p = .ok made) :
    fs.tree.Grows made.tree ∧ made.here = fs.here := by
  obtain ⟨name, place, inside, _, _, _, free, rfl⟩ := exists_of_makeDirectory h
  exact ⟨(FileTree.Grows.refl _).addDirectory inside free, rfl⟩

/-- What holds after each directory that is made holds after all of them, however that ends. -/
theorem makeFirst_preserves (holds : FileSystem → Prop) {paths : List Path} (start : holds fs)
    (step : ∀ p ∈ paths, ∀ fs made, holds fs → fs.makeDirectory p = .ok made → holds made) :
    holds (fs.makeFirst paths).1 := by
  induction paths generalizing fs with
  | nil => exact start
  | cons p parents ih =>
    obtain ⟨here, others⟩ := List.forall_mem_cons.1 step
    have around := ih start others
    rw [makeFirst]
    split
    · exact start
    · split
      next made ok => exact here fs made start ok
      next missing =>
        split
        next outer e result => simpa only [result] using around
        next outer result =>
          rw [result] at around
          split
          next made ok => exact here outer made around ok
          next => exact around
      next => exact start

end FileSystem

end SiteManifest
