/-!
# Finding and cutting text

Substrings on lists of characters: prefixes, the first and the last occurrence, splitting and
replacing.  Occurrences are looked for from the left and do not overlap.

Main statement: the two halves of a split put together around the pattern are the text again.
-/

namespace ApiCanon.Text

/-- The rest of a text after a given beginning. -/
def stripPrefix? : List Char → List Char → Option (List Char)
  | [], s => some s
  | _ :: _, [] => none
  | p :: ps, c :: s => if p = c then stripPrefix? ps s else none

/-- The part of a text before a given end. -/
def stripSuffix? (pat s : List Char) : Option (List Char) :=
  (stripPrefix? pat.reverse s.reverse).map List.reverse

def startsWith (pat s : List Char) : Bool := (stripPrefix? pat s).isSome

def endsWith (pat s : List Char) : Bool := (stripSuffix? pat s).isSome

theorem eq_append_of_stripPrefix? {pat s r : List Char} (h : stripPrefix? pat s = some r) :
    s = pat ++ r := by
  induction pat generalizing s with
  | nil => simpa [stripPrefix?] using h
  | cons p ps ih =>
    cases s with
    | nil => simp [stripPrefix?] at h
    | cons c s =>
      simp only [stripPrefix?] at h
      split at h
      · next hpc => subst hpc; simp [ih h]
      · simp at h

@[simp] theorem stripPrefix?_append (pat s : List Char) : stripPrefix? pat (pat ++ s) = some s := by
  induction pat with
  | nil => rfl
  | cons p ps ih => simp [stripPrefix?, ih]

/-- The texts before and after the first occurrence of a pattern. -/
def splitFirst? (pat : List Char) : List Char → Option (List Char × List Char)
  | [] => (stripPrefix? pat []).map fun r => ([], r)
  | c :: s =>
    match stripPrefix? pat (c :: s) with
    | some r => some ([], r)
    | none => (splitFirst? pat s).map fun (a, b) => (c :: a, b)

/-- The two parts of a split lie around the pattern. -/
theorem eq_of_splitFirst? {pat s a b : List Char} (h : splitFirst? pat s = some (a, b)) :
    s = a ++ pat ++ b := by
  induction s generalizing a with
  | nil =>
    simp only [splitFirst?, Option.map_eq_some_iff] at h
    obtain ⟨r, hr, h⟩ := h
    simp only [Prod.mk.injEq] at h
    obtain ⟨rfl, rfl⟩ := h
    simpa using eq_append_of_stripPrefix? hr
  | cons c s ih =>
    simp only [splitFirst?] at h
    split at h
    · next r hr =>
      simp only [Option.some.injEq, Prod.mk.injEq] at h
      obtain ⟨rfl, rfl⟩ := h
      simpa using eq_append_of_stripPrefix? hr
    · simp only [Option.map_eq_some_iff] at h
      obtain ⟨⟨x, y⟩, hxy, h⟩ := h
      simp only [Prod.mk.injEq] at h
      obtain ⟨rfl, rfl⟩ := h
      simp [ih hxy]

/-- The texts before and after the last occurrence of a pattern. -/
def splitLast? (pat s : List Char) : Option (List Char × List Char) :=
  (splitFirst? pat.reverse s.reverse).map fun (b, a) => (a.reverse, b.reverse)

/-- Whether a pattern occurs in a text. -/
def contains (pat s : List Char) : Bool := (splitFirst? pat s).isSome

/-- The texts before and after the first character for which `p` holds, which is dropped. -/
def splitAtFirst? (p : Char → Bool) : List Char → Option (List Char × List Char)
  | [] => none
  | c :: s => if p c then some ([], s) else (splitAtFirst? p s).map fun (a, b) => (c :: a, b)

/-- The texts before and after the last character for which `p` holds, which is dropped. -/
def splitAtLast? (p : Char → Bool) (s : List Char) : Option (List Char × List Char) :=
  (splitAtFirst? p s.reverse).map fun (b, a) => (a.reverse, b.reverse)

/-- Splits at every character for which `p` holds; `piece` is the piece under way, reversed. -/
def splitAllFrom (p : Char → Bool) (piece : List Char) : List Char → List (List Char)
  | [] => [piece.reverse]
  | c :: s =>
    if p c then piece.reverse :: splitAllFrom p [] s else splitAllFrom p (c :: piece) s

/-- The pieces between the characters for which `p` holds; there is always one more of them. -/
def splitAll (p : Char → Bool) (s : List Char) : List (List Char) := splitAllFrom p [] s

/-- Replaces every occurrence of a pattern.  `skip` counts the characters of the occurrence
just replaced that are still to be dropped. -/
def replaceFrom (pat new : List Char) (skip : Nat) : List Char → List Char
  | [] => []
  | c :: s =>
    match skip with
    | k + 1 => replaceFrom pat new k s
    | 0 =>
      if startsWith pat (c :: s) then new ++ replaceFrom pat new (pat.length - 1) s
      else c :: replaceFrom pat new 0 s

/-- Replaces every occurrence of a non-empty pattern, from the left and without overlap. -/
def replaceAll (pat new s : List Char) : List Char := replaceFrom pat new 0 s

/-! ## The same on texts -/

/-- Whether the text `pat` occurs in `s`. -/
def occursIn (pat s : String) : Bool := contains pat.toList s.toList

/-- At most the first `n` characters. -/
def truncate (n : Nat) (s : String) : String := String.ofList (s.toList.take n)

/-- The number of line feeds in a text. -/
def lineFeeds (s : List Char) : Nat := s.count '\n'

end ApiCanon.Text
