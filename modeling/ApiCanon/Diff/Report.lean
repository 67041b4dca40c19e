import ApiCanon.Diff.Result

/-!
# Reports

The changes of a comparison in Markdown: a line that counts them, and a part for each kind that
occurs, with a bullet for each change.  The text ends with exactly one line feed.
-/

namespace ApiCanon.Diff

/-- The parts of a report, in order. -/
def parts : List (ChangeKind × String) :=
  [(.breaking, "Breaking Changes"), (.removed, "Removed"), (.added, "Added"),
    (.modified, "Modified")]

/-- The line of a change. -/
def bullet (c : Change) : String := s!"- `{c.locator}`: {c.description}\n"

/-- The part of a report for one kind of change; nothing if there is none. -/
def part (r : DiffResult) : ChangeKind × String → String
  | (kind, title) =>
    let cs := r.changesOf kind
    if cs.isEmpty then "" else s!"## {title}\n\n" ++ String.join (cs.map bullet) ++ "\n"

/-- The line that counts the changes. -/
def summaryLine (r : DiffResult) : String :=
  s!"**{r.changes.length} changes**: {r.count .breaking} breaking, {r.count .added} added, {r.count .removed} removed, {r.count .modified} modified\n\n"

end ApiCanon.Diff

namespace ApiCanon

/-- The report of a comparison. -/
def DiffResult.markdown (r : DiffResult) : String :=
  if r.isEmpty then "# API Changes\n\nNo changes detected.\n"
  else
    Text.trimmedRight ("# API Changes\n\n" ++ Diff.summaryLine r ++
      String.join (Diff.parts.map (Diff.part r))) ++ "\n"

end ApiCanon
