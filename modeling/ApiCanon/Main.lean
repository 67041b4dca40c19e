import ApiCanon.Cli.Program
import Std.Time.DateTime.Timestamp

/-!
# The executable

The system itself as the host of the commands.  The rows of the cache are kept in their file as a
JSON document.
-/

namespace ApiCanon

namespace SystemHost

open Json (Value)

/-! ## The file of the cache -/

def rowToJson (r : CacheRow) : Value :=
  .object [("value", .string (Bytes.toHex r.value)), ("insertedAt", .number (.int r.insertedAt)),
    ("ttl", (r.ttl.map Value.ofNat).getD .null),
    ("expiresAt", (r.expiresAt.map fun i => Value.number (.int i)).getD .null)]

def int? : Value → Option Int
  | .number (.int i) => some i
  | _ => none

def rowOfJson? (v : Value) : Option CacheRow := do
  let value ← (v.stringField? "value").bind Bytes.ofHex?
  let insertedAt ← (v.get? "insertedAt").bind int?
  pure ⟨value, insertedAt, (v.get? "ttl").bind Value.asNat?, (v.get? "expiresAt").bind int?⟩

def tableToJson (t : SortedMap CacheRow) : Value :=
  .object (t.entries.map fun (k, r) => (k, rowToJson r))

def tableOfJson (v : Value) : SortedMap CacheRow :=
  .ofList (((v.asObject?).getD []).filterMap fun (k, r) => (rowOfJson? r).map fun r => (k, r))

/-! ## The system -/

/-- The outcome of an action, nothing if it failed. -/
def attempt {α : Type} (action : IO α) : IO (Option α) := do
  try return some (← action)
  catch _ => return none

/-- The directory of a path, if the path names one. -/
def parent? (path : String) : Option String :=
  match (Path.writtenParts path).dropLast with
  | [] => none
  | parts => some ((if path.startsWith "/" then "/" else "") ++ "/".intercalate parts)

def makeParent (path : String) : IO Unit :=
  match parent? path with
  | some parent => IO.FS.createDirAll parent
  | none => pure ()

/-- The variables of the environment, in the order in which the system holds them. -/
def environment : IO (List (String × String)) := do
  let text := ((← attempt (IO.FS.readFile "/proc/self/environ"))).getD ""
  return (Text.splitAll (· == Char.ofNat 0) text.toList).filterMap fun entry =>
    (Text.splitAtFirst? (· == '=') entry).map fun (k, v) => (String.ofList k, String.ofList v)

def readBytes? (path : String) : IO (Option Bytes) := do
  return (← attempt (IO.FS.readBinFile path)).map fun b => b.toList

instance : Host IO where
  «variables» := environment
  now := do
    let t ← Std.Time.Timestamp.now
    let nanos := t.toNanosecondsSinceUnixEpoch.toInt
    return ⟨Int.fdiv nanos 1000000000, (Int.fmod nanos 1000000000).toNat⟩
  directory := do return (← IO.currentDir).toString
  kind? path := do
    if (← readBytes? path).isSome then return some .file
    else if (← attempt (IO.FS.realPath path >>= fun p => p.readDir)).isSome then
      return some .directory
    else return none
  contents? := readBytes?
  save path b := do
    try
      makeParent path
      IO.FS.writeBinFile path (ByteArray.mk b.toArray)
      return .ok ()
    catch e => return .error (toString e)
  openTable path := do
    try
      makeParent path
      let text := ((← readBytes? path).bind Bytes.toString?).getD ""
      return .ok (tableOfJson ((Json.read text.toList).toOption.getD .null))
    catch e => return .error (.backend ("Failed to create cache directory: " ++ toString e))
  keepTable path t := do
    let _ ← attempt (IO.FS.writeFile path (tableToJson t).compact)
  say := IO.print
  complain := IO.eprint

end SystemHost

end ApiCanon

def main (args : List String) : IO UInt32 := do
  match ← (ApiCanon.Program.run args : IO _) with
  | .misused => do
    IO.eprint ApiCanon.helpText
    return 2
  | .done status => return status.toUInt32
