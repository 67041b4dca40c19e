import ApiCanon.Cache.Entry
import ApiCanon.Diff.Difference
import ApiCanon.Json.Reader
import ApiCanon.Service.Error

/-!
# Failures of the program

Everything an operation can fail with.  What is wrong with a single source is data and not among
these.  So documents in YAML, which are never anything but sources, have no failure of their own.
-/

namespace ApiCanon

/-- Why an operation failed. -/
inductive AppError where
  | io (reason : String)
  | json (e : Json.ReadError)
  | unsupportedSource (tag : String)
  | parse (sourceType reason : String)
  | cache (e : StoreError)
  | service (e : ServiceError)
  | diff (e : DiffError)
  | invalidBatch (reason : String)
  | config (reason : String)
  | timedOut (operation : String) (limit : Span)
  deriving Inhabited

def AppError.message : AppError → String
  | io r => "IO error: " ++ r
  | json e => "JSON error: " ++ e.message
  | unsupportedSource t => "Unsupported source type: " ++ t
  | parse t r => s!"Parse error in {t}: {r}"
  | cache e => "Cache error: " ++ e.message
  | service e => "AI service error: " ++ e.text
  | diff e => "Diff error: " ++ e.message
  | invalidBatch r => "Invalid batch: " ++ r
  | config r => "Config error: " ++ r
  | timedOut operation limit => s!"Timeout after {limit.text}: {operation}"

end ApiCanon
