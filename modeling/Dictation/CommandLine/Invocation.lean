import Dictation.CommandLine.Grammar
import Dictation.Context
import Dictation.FilePath

/-!
# What a command line asks for

The first word that is no switch names a command; the words after it are read by the grammar of the
command.  Words that neither grammar wants are refused once both have been read.

* `Invocation.program`   the grammar of the program; `Subcommand.grammar` that of a command;
* `Invocation.read`      the words of a command line.
-/

namespace Dictation.CommandLine

/-- the options of every command that reads dictation -/
structure Options where
  locale : Text := Context.defaultLocale
  /-- the triggers asked for; nobody asks for an empty list -/
  triggers : List Text := []
  cleanup : Bool := false
deriving DecidableEq, Repr

namespace Options

def context (o : Options) : Context :=
  let triggers :=
    if o.triggers.isEmpty then Context.defaultTriggers else Context.triggersFrom o.triggers
  ⟨o.locale, triggers, o.cleanup⟩

def events (o : Options) : List Event :=
  if o.triggers.isEmpty then [] else Context.triggerEvents o.triggers

end Options

inductive Source where
  | standardInput
  | file (path : FilePath)
deriving DecidableEq, Repr

inductive Task where
  | compile (text : Text) (render : Bool) (options : Options)
  | mixed (text : Text) (options : Options)
  | transcript (source : Source) (render : Bool) (options : Options)
  /-- where the last sentence before the cursor starts; no cursor is one at the end -/
  | sentence (text : Text) (cursor : Option Int)
  /-- register with the desktop client; `own` lets it run the code of this installation -/
  | register (own : Bool)
deriving DecidableEq, Repr

structure Invocation where
  /-- show every event, not only the loud ones -/
  verbose : Bool
  task : Task
deriving DecidableEq, Repr

/-- a command line that asks for nothing the program does -/
structure Misuse where
  program : String
  halt : Halt
deriving DecidableEq, Repr

def Misuse.text (m : Misuse) : Text :=
  m.program.toList ++ ": error: ".toList ++ m.halt.message ++ ['\n']

/-! ## grammars -/

def programName : String := "voicemark"

def helpSwitch : Switch := ⟨["-h", "--help"], .flag⟩
def verboseSwitch : Switch := ⟨["-v", "--verbose"], .flag⟩
def renderSwitch : Switch := ⟨["--render"], .flag⟩
def cursorSwitch : Switch := ⟨["--cursor"], .int⟩
def localSwitch : Switch := ⟨["--local"], .flag⟩

def optionSwitches : List Switch :=
  [⟨["--locale"], .text⟩, ⟨["--prefix"], .text⟩, ⟨["--asr-cleanup"], .flag⟩]

inductive Subcommand where
  | compile
  | mixed
  | transcript
  | sentence
  | init
deriving DecidableEq, Repr

namespace Subcommand

def all : List Subcommand := [compile, mixed, transcript, sentence, init]

def name : Subcommand → String
  | compile => "compile"
  | mixed => "mixed"
  | transcript => "transcript"
  | sentence => "sentence"
  | init => "init"

def ofWord? (w : Word) : Option Subcommand := all.find? fun c => word c.name == w

def switches : Subcommand → List Switch
  | compile => renderSwitch :: optionSwitches
  | mixed => optionSwitches
  | transcript => renderSwitch :: optionSwitches
  | sentence => [cursorSwitch]
  | init => [localSwitch]

def operand : Subcommand → Operand
  | transcript => .optional "file"
  | init => .nothing
  | _ => .required "text"

def grammar (c : Subcommand) : Grammar :=
  ⟨programName ++ " " ++ c.name, helpSwitch :: c.switches, c.operand⟩

theorem mem_all (c : Subcommand) : c ∈ all := by cases c <;> decide

end Subcommand

def Invocation.program : Grammar :=
  ⟨programName, [helpSwitch, verboseSwitch], .choice "command" (Subcommand.all.map Subcommand.name)⟩

/-! ## readings as tasks -/

namespace Reading

def options (r : Reading) : Options where
  locale := ((r.values "--locale").getLast?.map Word.text).getD Context.defaultLocale
  triggers := (r.values "--prefix").map Word.text
  cleanup := r.has "--asr-cleanup"

/-- the first word of the operand -/
def head? (r : Reading) : Option Word := r.operand.bind List.head?

def text (r : Reading) : Text := (r.head?.map Word.text).getD []

/-- a dash, like no word at all, is standard input -/
def source (r : Reading) : Source :=
  match r.head? with
  | none => .standardInput
  | some w => if w == [dash] then .standardInput else .file (.ofText (Word.text w))

def cursor (r : Reading) : Option Int :=
  (r.values "--cursor").getLast?.bind fun w => (Word.text w).int?

end Reading

def Subcommand.task (r : Reading) : Subcommand → Task
  | compile => .compile r.text (r.has "--render") r.options
  | mixed => .mixed r.text r.options
  | transcript => .transcript r.source (r.has "--render") r.options
  | sentence => .sentence r.text r.cursor
  | init => .register (r.has "--local")

namespace Invocation

/-- read by a grammar; its program is to blame for what it refuses -/
def readBy (g : Grammar) (ws : List Word) : Except Misuse Reading :=
  (g.read ws).mapError fun h => ⟨g.program, h⟩

def refuse (h : Halt) : Except Misuse Invocation := .error ⟨program.program, h⟩

/-- the invocation, unless words are left over -/
def settle (outer : Reading) (c : Subcommand) (inner : Reading) : Except Misuse Invocation :=
  match outer.extras ++ inner.extras with
  | [] => .ok ⟨outer.has "--verbose", c.task inner⟩
  | ws => refuse (.unrecognized ws)

def read (ws : List Word) : Except Misuse Invocation :=
  match readBy program ws with
  | .error m => .error m
  | .ok outer =>
    match outer.operand with
    | some (w :: ws) =>
      match Subcommand.ofWord? w with
      | some c =>
        match readBy c.grammar ws with
        | .error m => .error m
        | .ok inner => settle outer c inner
      | none => refuse (.notAmong "command" w (Subcommand.all.map Subcommand.name))
    | _ => refuse (.operandMissing "command")

end Invocation
end Dictation.CommandLine
