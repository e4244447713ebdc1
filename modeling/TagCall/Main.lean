import TagCall.Command.Run
import TagCall.Yaml.Read

/-!
The program on the files of a disk. What the arguments can refer to is read first; a run is then a
computation, and what it has written is written to the disk at its end.
-/

namespace TagCall.Disk

open Files

def pathOf (location : Location) : String :=
  "/" ++ "/".intercalate location

/-- What stands at a location of the disk. -/
def entryAt (location : Location) : IO (Option Entry) := do
  try
    return some (.file (← IO.FS.readBinFile (pathOf location)))
  catch
    | .inappropriateType .. => return some .folder
    | _ => return none

/-- Takes over what stands at locations that are not known yet. -/
def discover (s : Store) : List Location → IO Store
  | [] => return s
  | location :: rest => do
    if (s.entry? location).isSome then discover s rest
    else
      match ← entryAt location with
      | some e => discover (s.put location e) rest
      | none => discover s rest

/-- The places that an argument can refer to, as a path or with a value behind an equals sign. -/
def referred (s : Store) (arg : String) : List Location :=
  let (front, value) := Arguments.splitEquals arg.toList
  let texts := [arg, String.ofList front] ++ (value.map String.ofList).toList
  texts.flatMap fun text =>
    let p := Path.ofText text
    Store.passed (s.start (p.root ≠ "")) p.names

/-- Runs the program, and runs it again as long as it writes where the disk was not looked at. -/
def settle (run : Store → Command.Report) : Nat → Store → IO (Store × Command.Report)
  | 0, s => return (s, run s)
  | fuel + 1, s => do
    let r := run s
    let found ← discover s ((s.newFolders r.store) ++ (s.changes r.store).map (·.1))
    if found.entries.length = s.entries.length then return (s, r) else settle run fuel found

/-- Writes what a run has changed. -/
def commit (before after : Store) : IO Unit := do
  for location in before.newFolders after do
    IO.FS.createDirAll (pathOf location)
  for (location, content) in before.changes after do
    IO.FS.writeBinFile (pathOf location) content

end TagCall.Disk

open TagCall in
def main (args : List String) : IO UInt32 := do
  let base := (Files.Path.ofText (toString (← IO.currentDir))).names
  let env : Environment :=
    ⟨(← IO.getEnv "HOME").getD "/", ← IO.getEnv "JTML_INDENT", ← IO.getEnv "JTML_IGNORE_COMMENTS"⟩
  let start : Files.Store := { base }
  let paths := args ++ (Config.searchPaths env).map Files.Path.toText
  let s ← Disk.discover start (paths.flatMap (Disk.referred start))
  let (s, r) ← Disk.settle (Command.run Yaml.read env · args) (args.length + 4) s
  Disk.commit s r.store
  IO.print r.output
  IO.eprint r.errors
  match r.status with
  | .ok n => return n.toUInt32
  | .error c =>
    IO.eprintln c.message
    return 1
