/-!
# Reading from the front

A reader takes a text from its place on and gives what it read with the rest, which is strictly
shorter, so that reading on comes to an end.
-/
namespace SiteManifest.Text

theorem length_lt_cons (c : Char) (cs : List Char) : cs.length < (c :: cs).length :=
  Nat.lt_succ_self cs.length

theorem length_lt_of_cons_le {c : Char} {rest cs : List Char}
    (h : (c :: rest).length ≤ cs.length) : rest.length < cs.length := h

/-- Behind a first run of characters and one more, less is left. -/
theorem length_lt_of_dropWhile {p : Char → Bool} {c : Char} {rest cs : List Char}
    (h : cs.dropWhile p = c :: rest) : rest.length < cs.length :=
  length_lt_of_cons_le (h ▸ (List.dropWhile_suffix p).length_le)

/-- What a reader found at the start of `cs`, and the text after it. -/
structure Found (α : Type) (cs : List Char) where
  value : α
  rest : List Char
  shorter : rest.length < cs.length

namespace Found

def map {cs : List Char} (f : α → β) (found : Found α cs) : Found β cs :=
  ⟨f found.value, found.rest, found.shorter⟩

theorem shorter_of_le {cs ds : List Char} (found : Found α cs) (h : cs.length ≤ ds.length) :
    found.rest.length < ds.length := Nat.lt_of_lt_of_le found.shorter h

theorem shorter_of_lt {cs ds : List Char} (found : Found α cs) (h : cs.length < ds.length) :
    found.rest.length < ds.length := Nat.lt_trans found.shorter h

theorem shorter_of_rest {cs rest : List Char} {c : Char} (found : Found α cs)
    (h : found.rest = c :: rest) : rest.length < cs.length :=
  Nat.lt_trans (h ▸ length_lt_cons c rest) found.shorter

/-- The same thing in a text that had more to read past. -/
def behind {cs ds : List Char} (found : Found α cs) (h : cs.length < ds.length) : Found α ds :=
  ⟨found.value, found.rest, found.shorter_of_lt h⟩

/-- The same thing behind one more character. -/
def behindChar {cs : List Char} (c : Char) (found : Found α cs) : Found α (c :: cs) :=
  found.behind (length_lt_cons c cs)

end Found

end SiteManifest.Text
