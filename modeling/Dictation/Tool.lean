import Dictation.Json.Writer
import Dictation.Schema.Model
import Dictation.Sentence
import Dictation.Transcript

/-!
# The tools that a client calls

Each tool takes named arguments and answers with one string.  The two compilers answer with JSON,
and with a sentence about what went wrong if the options or the text are not what they must be; the
options are looked at first.

* `Tool.compileDictation`, `Tool.compileTranscript`, `Tool.findSentenceStart`;
* `Tool.call`   the tool of a name, after a look at the names of the arguments.
-/

namespace Dictation

inductive Tool where
  | compileDictation
  | compileTranscript
  | findSentenceStart
deriving DecidableEq, Repr

namespace Tool

def all : List Tool := [compileDictation, compileTranscript, findSentenceStart]

def name : Tool → String
  | compileDictation => "compile_dictation"
  | compileTranscript => "compile_transcript"
  | findSentenceStart => "find_sentence_start"

/-- the parameters, first the one that must be given -/
def parameters : Tool → String × List String
  | compileDictation => ("text", ["locale", "prefixes", "asr_cleanup"])
  | compileTranscript => ("transcript", ["locale", "prefixes", "asr_cleanup"])
  | findSentenceStart => ("block_text", ["cursor_offset"])

/-! ## faults -/

/-- why a call has no answer at all -/
inductive Fault where
  | missingArgument (tool : Tool)
  | unknownArgument (tool : Tool) (argument : Units)
  | noLength (kind : Json.Kind)
  | notComparable (kind : Json.Kind)
  | noIndex (kind : Json.Kind)
deriving DecidableEq, Repr

def Fault.message : Fault → Text
  | missingArgument t =>
    (t.name ++ "() missing 1 required positional argument: '" ++ t.parameters.1 ++ "'").toList
  | unknownArgument t a =>
    (t.name ++ "() got an unexpected keyword argument ").toList
      ++ Cause.inQuotes ((Units.decode? a).getD [])
  | noLength k => "object of type ".toList ++ Cause.inQuotes k.name ++ " has no len()".toList
  | notComparable k =>
    "'<=' not supported between instances of ".toList ++ Cause.inQuotes k.name
      ++ " and 'int'".toList
  | noIndex k =>
    "string indices must be integers, not ".toList ++ Cause.inQuotes k.name

/-- why nothing can be compiled -/
inductive Refusal where
  | options (problems : List Problem)
  /-- a value that cannot be trimmed -/
  | notTrimmable (kind : Json.Kind)
  /-- a value that cannot be searched for artifacts -/
  | notSearchable (kind : Json.Kind)

/-- `link` may add a line to each problem -/
def Refusal.message (link : Cause → Option Text) : Refusal → Text
  | options ps => Problem.report link Schema.contextModel.toList ps
  | notTrimmable k =>
    Cause.inQuotes k.name ++ " object has no attribute 'strip'".toList
  | notSearchable k =>
    "expected string or bytes-like object, got ".toList ++ Cause.inQuotes k.name

/-! ## compilers -/

/-- the fields of the context asked for; triggers that are null are not asked for -/
def contextArguments (args : Fields) : Fields :=
  args.filter fun
    | (k, .null) => k != Json.key "prefixes"
    | _ => true

def context (args : Fields) : Except Refusal Context :=
  match Schema.contextFields (contextArguments args) with
  | .ok ctx => .ok ctx
  | .error ps => .error (.options ps)

def argument (tool : Tool) (args : Fields) : Json :=
  (Json.get? (Json.key tool.parameters.1) args).getD .null

def compile (args : Fields) : Except Refusal Mixed :=
  match context args with
  | .error r => .error r
  | .ok ctx =>
    let v := argument compileDictation args
    match v.text? with
    | some t => .ok (Mixed.compile ctx t)
    | none => .error (if ctx.cleanup then .notSearchable v.kind else .notTrimmable v.kind)

def compileAll (args : Fields) : Except Refusal (List Operation) :=
  match context args with
  | .error r => .error r
  | .ok ctx =>
    let v := argument compileTranscript args
    match v.text? with
    | some t => .ok (Transcript.compile ctx t)
    | none => .error (.notTrimmable v.kind)

/-- the events of the compilation itself -/
def compileEvents (tool : Tool) (args : Fields) : List Event :=
  Schema.contextEvents (contextArguments args) ++
    match context args, (argument tool args).text? with
    | .ok ctx, some t =>
      match tool with
      | compileTranscript => Transcript.events ctx t
      | _ => Mixed.events ctx t
    | _, _ => []

def failurePhrase : Tool → Text
  | compileTranscript => "Error compiling transcript: ".toList
  | _ => "Error compiling dictation: ".toList

/-- an answer with the events on the way to it -/
structure Answer where
  text : Text
  events : List Event

def answer (link : Cause → Option Text) (tool : Tool) (args : Fields) :
    Except Refusal Json → Answer
  | .ok v => ⟨v.write .compact, compileEvents tool args⟩
  | .error r =>
    ⟨tool.failurePhrase ++ r.message link,
      compileEvents tool args ++ [.toolFailed tool.name.toList (r.message link)]⟩

/-! ## the start of a sentence -/

/-- the offset that a cursor stands for; a number with a fraction only outside the block -/
def cursor? (block : Text) : Json → Except Fault Int
  | .null => .ok block.length
  | .int i => .ok i
  | .bool b => .ok (if b then 1 else 0)
  | .float x =>
    match x with
    | .finite true _ _ => .ok 0
    | .finite false 0 _ => .ok 0
    | .infinity true => .ok 0
    | .infinity false => .ok block.length
    | .finite false m q =>
      if block.length ≤ Binary64.wholePart m q 0 && x.toInt? != some (block.length : Int) then
        .ok block.length
      else .error (.noIndex .float)
    | .nan => .error (.noIndex .float)
  | v => .error (.notComparable v.kind)

def sentenceJson (block : Text) (cursor : Int) : Json :=
  .record [("start", .ofNat (Sentence.start block cursor)),
    ("sentence", .ofText (Sentence.lastSentence block cursor))]

def sentence (args : Fields) : Except Fault Text :=
  let v := argument findSentenceStart args
  match v.text? with
  | none => .error (.noLength v.kind)
  | some block =>
    (cursor? block ((Json.get? (Json.key "cursor_offset") args).getD .null)).map fun cursor =>
      (sentenceJson block cursor).write .asciiLine

/-! ## calls -/

/-- the first argument that the tool does not have -/
def unknown? (tool : Tool) (args : Fields) : Option Units :=
  (args.find? fun f =>
    !((tool.parameters.1 :: tool.parameters.2).map Json.key).contains f.1).map (·.1)

def call (link : Cause → Option Text) (tool : Tool) (args : Fields) : Except Fault Answer :=
  match tool.unknown? args, Json.get? (Json.key tool.parameters.1) args with
  | some a, _ => .error (.unknownArgument tool a)
  | none, none => .error (.missingArgument tool)
  | none, some _ =>
    match tool with
    | compileDictation => .ok (answer link tool args ((compile args).map Mixed.toJson))
    | compileTranscript => .ok (answer link tool args ((compileAll args).map Operation.listToJson))
    | findSentenceStart => (sentence args).map fun t => ⟨t, []⟩

end Tool
end Dictation
