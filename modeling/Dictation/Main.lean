import Dictation.CommandLine.Report
import Std.Time.Zoned

/-!
# The program

What a run can see is read first, then the report of the run is made, then it is written out: the
backup and the settings, the text and the notes, and the exit code.
-/

namespace Dictation.CommandLine

partial def readAll (input : IO.FS.Stream) (got : ByteArray) : IO ByteArray := do
  let more ← input.read 65536
  if more.isEmpty then return got
  readAll input (got ++ more)

def lookAt (path : FilePath) : IO Found := do
  try
    return .file (← IO.FS.readBinFile (String.ofList path.text)).toList
  catch
    | .inappropriateType .. => return .directory
    | _ => return .nothing

def isReadable (path : FilePath) : IO Bool := do
  try
    let file ← IO.FS.Handle.mk (String.ofList path.text) .read
    let _ ← file.read 1
    return true
  catch _ => return false

/-- the value of an environment variable -/
def setting? (name : String) : IO (Option Text) := do
  return (← IO.getEnv name).map String.toList

/-- the name that the system goes by -/
def systemName : IO Text := do
  if (← setting? "OS") == some "Windows_NT".toList then return "Windows".toList
  match ← lookAt (.ofText "/System/Library".toList) with
  | .directory => return "Darwin".toList
  | _ => return "Linux".toList

/-- a program of this name is in a directory of the search path -/
def isInstalled (name : String) : IO Bool := do
  let dirs := FilePath.split ':' ((← setting? "PATH").getD [])
  dirs.anyM fun dir => isReadable ((FilePath.ofText dir).child name.toList)

def readSettings (path : Option FilePath) : IO Settings.Files := do
  match path with
  | none => return {}
  | some p =>
    match ← lookAt p with
    | .file bytes => return { settings := some bytes }
    | _ => return {}

/-- the clock on the wall -/
def now : IO Settings.Moment := do
  let t ← Std.Time.PlainDateTime.now
  return {
    year := .ofNat _ t.date.year.toInt.toNat
    month := .ofNat _ t.date.month.toNat
    day := .ofNat _ t.date.day.toNat
    hour := .ofNat _ t.time.hour.toNat
    minute := .ofNat _ t.time.minute.toNat
    second := .ofNat _ t.time.second.toNat
    microsecond := .ofNat _ (t.time.nanosecond.toNat / 1000) }

/-- what a run of the task can see -/
def surroundings (task : Task) : IO Surroundings := do
  let interpreter := (← IO.appPath).toString.toList
  let stamp := (← now).stamp
  let w : Surroundings := { settingsPath := none, interpreter, stamp }
  match task with
  | .transcript .standardInput _ _ =>
    return { w with input := (← readAll (← IO.getStdin) .empty).toList }
  | .transcript (.file path) _ _ =>
    let found ← lookAt path
    return { w with find := fun _ => found }
  | .register _ =>
    let path := Settings.path? (← systemName) ((← setting? "HOME").getD []) (← setting? "APPDATA")
    return { w with
      settingsPath := path
      settings := ← readSettings path
      hasInstaller := ← isInstalled "uv" }
  | _ => return w

def writeBytes (path : FilePath) (bytes : List UInt8) : IO Unit :=
  IO.FS.writeBinFile (String.ofList path.text) ⟨bytes.toArray⟩

/-- the backups first -/
def save (path : FilePath) (files : Settings.Files) : IO Unit := do
  IO.FS.createDirAll (String.ofList path.parent.text)
  for (name, bytes) in files.backups do
    writeBytes (path.parent.child name) bytes
  if let some bytes := files.settings then writeBytes path bytes

def run (task : Task) (verbose : Bool) : IO Report := do
  let w ← surroundings task
  let r := w.report verbose task
  if let some path := w.settingsPath then
    if r.settings ≠ w.settings then save path r.settings
  return r

def print (r : Report) : IO UInt32 := do
  IO.print (String.ofList r.output)
  IO.eprint (String.ofList r.notes)
  if let some f := r.failure then IO.eprintln (String.ofList f.message)
  return r.exit.toUInt32

end Dictation.CommandLine

open Dictation.CommandLine in
def main (args : List String) : IO UInt32 := do
  match Invocation.read (args.map word) with
  | .ok i => print (← run i.task i.verbose)
  | .error m => print (m.report {})
