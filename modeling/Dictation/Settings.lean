import Dictation.Event
import Dictation.FilePath
import Dictation.Json.Reader
import Dictation.Json.Shown
import Dictation.Json.Writer
import Dictation.Text.Utf8

/-!
# The desktop client's settings

Registration puts one entry for this program into the settings file of the desktop client and keeps
the file as it was under a name with the time.  All other keys and values stay.

* `Settings.path?`      where the file is on each system;
* `Settings.register`   the settings with the entry;
* `Settings.Moment`     a reading of the clock, and its digits down to the second;
* `Settings.Files`      the file and its backups; `Settings.Files.run` one registration.
-/

namespace Dictation.Settings

/-! ## where -/

inductive Home where
  | windows
  | mac
  | other
deriving DecidableEq, Repr

def homeOf (system : Text) : Home :=
  if system = "Windows".toList then .windows
  else if system = "Darwin".toList then .mac
  else .other

/-- the name of the variable that holds the directory for application data -/
def appDataName : Text := "APPDATA".toList

def fileName : Text := "claude_desktop_config.json".toList

/-- none if the variable is needed and not set -/
def path? (system home : Text) (appData : Option Text) : Option FilePath :=
  match homeOf system, appData with
  | .windows, none => none
  | .windows, some d => some (((FilePath.ofText d).descend ["Claude"]).child fileName)
  | .mac, _ =>
    some (((FilePath.ofText home).descend ["Library", "Application Support", "Claude"]).child
      fileName)
  | .other, _ => some (((FilePath.ofText home).descend [".config", "Claude"]).child fileName)

/-! ## what -/

def serverName : String := "voicemark"
def serversKey : Units := Json.key "mcpServers"

def words (ws : List Text) : Json := .arr (ws.map .ofText)

/-- how the client starts the server: `interpreter` runs the code of this installation -/
def entry (interpreter : Option Text) : Json :=
  match interpreter with
  | some p =>
    .obj [(Json.key "command", .ofText p),
      (Json.key "args", words ["-m".toList, "voicemark.server".toList])]
  | none =>
    .obj [(Json.key "command", .ofText "uvx".toList),
      (Json.key "args", words ["--from".toList, "voicemark".toList, "voicemark-mcp".toList])]

/-- settings that no entry can be put into -/
inductive Fault where
  /-- the settings are no object -/
  | noObject (kind : Json.Kind)
  /-- the servers are no object -/
  | noServers (kind : Json.Kind)
deriving DecidableEq, Repr

def Fault.message : Fault → Text
  | noObject k => '\'' :: k.name ++ "' object has no attribute 'setdefault'".toList
  | noServers .arr => "list indices must be integers or slices, not str".toList
  | noServers k => '\'' :: k.name ++ "' object does not support item assignment".toList

def register (entry : Json) : Json → Except Fault Json
  | .obj fs =>
    match (Json.get? serversKey fs).getD (.obj []) with
    | .obj servers =>
      .ok (.obj (Json.put serversKey (.obj (Json.put (Json.key serverName) entry servers)) fs))
    | v => .error (.noServers v.kind)
  | v => .error (.noObject v.kind)

/-! ## when -/

/-- a reading of the clock -/
structure Moment where
  year : Fin 10000
  month : Fin 13
  day : Fin 32
  hour : Fin 24
  minute : Fin 60
  second : Fin 60
  microsecond : Fin 1000000
deriving DecidableEq, Ord, Repr

/-- fourteen digits, nothing finer than the second -/
def Moment.stamp (m : Moment) : Text :=
  Decimal.fixed 4 m.year ++ (Decimal.fixed 2 m.month ++ (Decimal.fixed 2 m.day ++
    (Decimal.fixed 2 m.hour ++ (Decimal.fixed 2 m.minute ++ Decimal.fixed 2 m.second))))

/-! ## one registration -/

abbrev Bytes := List UInt8

structure Files where
  settings : Option Bytes := none
  /-- file names and contents; a backup under a name that exists takes its place -/
  backups : List (Text × Bytes) := []
deriving DecidableEq, Repr

def keep (name : Text) (bytes : Bytes) : List (Text × Bytes) → List (Text × Bytes)
  | [] => [(name, bytes)]
  | (n, b) :: bs => if n = name then (n, bytes) :: bs else (n, b) :: keep name bytes bs

theorem mem_keep (name : Text) (bytes : Bytes) (bs : List (Text × Bytes)) :
    (name, bytes) ∈ keep name bytes bs := by
  induction bs with
  | nil => simp [keep]
  | cons b bs ih =>
    obtain ⟨n, c⟩ := b
    by_cases h : n = name <;> simp [keep, h, ih]

/-- the name of a backup taken at a time -/
def backupName (stamp : Text) : Text := fileName ++ '.' :: stamp ++ ".bak".toList

def bytesOf (t : Text) : Bytes := (String.ofList t).toUTF8.toList

def contents (v : Json) : Bytes := bytesOf (v.write .asciiIndented)

inductive Result where
  | registered
  /-- the file is no UTF-8 -/
  | noText (fault : Utf8.Fault)
  | noJson
  | refused (fault : Fault)
deriving DecidableEq, Repr

namespace Files

/-- register and write; what was there has been kept -/
def write (entry : Json) (f : Files) (v : Json) : Files × Result :=
  match register entry v with
  | .ok w => ({ f with settings := some (contents w) }, .registered)
  | .error e => (f, .refused e)

/-- one registration at a time: nothing is written before the old file has been read and kept -/
def run (stamp : Text) (entry : Json) (f : Files) : Files × Result :=
  match f.settings with
  | none => write entry f (.obj [])
  | some bytes =>
    match Utf8.decode bytes with
    | .error e => (f, .noText e)
    | .ok t =>
      match Json.read? t with
      | none => (f, .noJson)
      | some v => write entry { f with backups := keep (backupName stamp) bytes f.backups } v

end Files

/-- the old file was kept before the result -/
def Result.keptOld : Result → Bool
  | registered => true
  | refused _ => true
  | _ => false

def events (path : FilePath) (stamp : Text) (f : Files) (r : Result) : List Event :=
  if f.settings.isSome && r.keptOld then
    [.settingsKept (path.text ++ '.' :: stamp ++ ".bak".toList)]
  else []

end Dictation.Settings
