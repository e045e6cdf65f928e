import Dictation.CommandLine.Invocation
import Dictation.Document
import Dictation.Schema.Dump
import Dictation.Sentence
import Dictation.Settings
import Dictation.Text.LineEnds
import Dictation.Transcript

/-!
# What a run of the program leaves behind

A run is a function of the invocation and of what surrounds it: standard input, the file asked for,
the client's settings, the time.  Its report has the exit code, what goes to both outputs, and the
settings afterwards.

* `Surroundings`         what a run can see;
* `Surroundings.report`  the report of one task; `Report.ofWords` that of a command line.
-/

namespace Dictation.CommandLine

/-- what a path leads to -/
inductive Found where
  | nothing
  | directory
  | file (bytes : List UInt8)

structure Surroundings where
  input : List UInt8 := []
  find : FilePath → Found := fun _ => .nothing
  /-- where the client's settings are; none if the variable that says it is not set -/
  settingsPath : Option FilePath
  settings : Settings.Files := {}
  /-- the program that runs this code -/
  interpreter : Text
  /-- the tool that fetches and runs packages is there -/
  hasInstaller : Bool := true
  /-- the time as fourteen digits -/
  stamp : Text

/-- why a run breaks off without a word of its own -/
inductive Failure where
  | noText (fault : Utf8.Fault)
  | isDirectory (path : FilePath)
  | unset (name : Text)
  | settings (fault : Settings.Fault)
deriving DecidableEq, Repr

def Failure.message : Failure → Text
  | noText f => f.message
  | isDirectory p => "[Errno 21] Is a directory: ".toList ++ Quoted.ofText p.text
  | unset n => Quoted.ofText n
  | settings f => f.message

structure Report where
  exit : Nat := 0
  output : Text := []
  /-- what goes to standard error -/
  notes : Text := []
  failure : Option Failure := none
  settings : Settings.Files

/-! ## lines -/

def line (t : Text) : Text := t ++ ['\n']

def padded (width : Nat) (t : Text) : Text := t ++ List.replicate (width - t.length) ' '

def eventLine (e : Event) : Text :=
  line ('[' :: padded 9 e.level.name ++ "] ".toList ++ e.text)

def log (verbose : Bool) (es : List Event) : Text :=
  (es.filter fun e => verbose || e.level.isLoud).flatMap eventLine

def errorLine (t : Text) : Text := line ("❌ Error: ".toList ++ t)
def warningLine (t : Text) : Text := line ("⚠️  ".toList ++ t)

def notFound (p : FilePath) : Text := errorLine ("File ".toList ++ p.text ++ " not found.".toList)

def notJson (p : FilePath) : Text := errorLine (p.text ++ " is not valid JSON.".toList)

def noInstaller : Text :=
  warningLine "Warning: 'uv' tool not found. Install it or re-run with --local.".toList

def registered (p : FilePath) : Text :=
  line ("✅ Registered 'voicemark' in ".toList ++ p.text
    ++ ". Restart Claude Desktop to use it.".toList)

/-- the operations as JSON, or the text that they leave in an empty document -/
def operationsText (render : Bool) (ops : List Operation) : Text :=
  line (if render then Document.render [] ops else (Operation.listToJson ops).write .indented)

def operationsEvents (render : Bool) (ops : List Operation) : List Event :=
  if render then Document.eventsAll { text := [] } ops else []

/-! ## runs -/

/-- the bytes as text with line feeds -/
def readText (bytes : List UInt8) : Except Failure Text :=
  match Utf8.decode bytes with
  | .ok t => .ok t.unifyLineEnds
  | .error f => .error (.noText f)

namespace Surroundings

/-- all went well -/
def done (w : Surroundings) (output notes : Text) : Report :=
  { output, notes, settings := w.settings }

/-- the run stops after notes that say why -/
def stop (w : Surroundings) (notes : Text) : Report := { exit := 1, notes, settings := w.settings }

/-- the run breaks off -/
def fail (w : Surroundings) (notes : Text) (f : Failure) : Report :=
  { exit := 1, notes, failure := some f, settings := w.settings }

def transcript (w : Surroundings) (verbose render : Bool) (o : Options)
    (read : Except Failure Text) : Report :=
  match read with
  | .error f => w.fail (log verbose o.events) f
  | .ok t =>
    let ops := Transcript.compile o.context t
    w.done (operationsText render ops)
      (log verbose (o.events ++ Transcript.events o.context t ++ operationsEvents render ops))

def transcriptFrom (w : Surroundings) (verbose render : Bool) (o : Options) : Source → Report
  | .standardInput => w.transcript verbose render o (readText w.input)
  | .file p =>
    match w.find p with
    | .nothing => w.stop (log verbose o.events ++ notFound p)
    | .directory => w.fail (log verbose o.events) (.isDirectory p)
    | .file bytes => w.transcript verbose render o (readText bytes)

def compile (w : Surroundings) (verbose render : Bool) (o : Options) (t : Text) : Report :=
  let ops := Inline.compile o.context t
  w.done (operationsText render ops)
    (log verbose (o.events ++ Inline.events o.context t ++ operationsEvents render ops))

def mixed (w : Surroundings) (verbose : Bool) (o : Options) (t : Text) : Report :=
  let m := Mixed.compile o.context t
  let question :=
    match m.confirmation with
    | some c => warningLine ("Needs confirmation: ".toList ++ c.prompt)
    | none => []
  w.done (line (m.toJson.write .indented))
    (log verbose (o.events ++ Mixed.events o.context t) ++ question)

def sentence (w : Surroundings) (t : Text) (cursor : Option Int) : Report :=
  w.done (line (Decimal.digits (Sentence.start t (cursor.getD t.length)))) []

/-- a registration in the settings at a path, after the notes made so far -/
def registerAt (w : Surroundings) (verbose own : Bool) (path : FilePath) : Report :=
  let entry := Settings.entry (if own then some w.interpreter else none)
  let (files, result) := w.settings.run w.stamp entry
  let notes :=
    (if own || w.hasInstaller then [] else noInstaller)
      ++ log verbose (Settings.events path w.stamp w.settings result)
  let w := { w with settings := files }
  match result with
  | .registered => w.done (registered path) notes
  | .noJson => w.stop (notes ++ notJson path)
  | .noText f => w.fail notes (.noText f)
  | .refused f => w.fail notes (.settings f)

def register (w : Surroundings) (verbose own : Bool) : Report :=
  match w.settingsPath with
  | some path => w.registerAt verbose own path
  | none => w.fail [] (.unset Settings.appDataName)

def report (w : Surroundings) (verbose : Bool) : Task → Report
  | .compile t render o => w.compile verbose render o t
  | .mixed t o => w.mixed verbose o t
  | .transcript source render o => w.transcriptFrom verbose render o source
  | .sentence t cursor => w.sentence t cursor
  | .register own => w.register verbose own

end Surroundings

/-- help is no fault -/
def Misuse.report (m : Misuse) (settings : Settings.Files) : Report :=
  match m.halt with
  | .help => { settings }
  | _ => { exit := 2, notes := m.text, settings }

def Report.ofWords (w : Surroundings) (ws : List Word) : Report :=
  match Invocation.read ws with
  | .ok i => w.report i.verbose i.task
  | .error m => m.report w.settings

end Dictation.CommandLine
