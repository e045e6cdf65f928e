import Dictation.Inline

/-!
# Compiling an utterance behind a gate

The utterance becomes chunks, and the chunks two lists of operations: those before the first
destructive command may run at once, the others only after its prompt has been approved.

* `Chunk.ofSegment`  one segment;
* `Gate.step`        one chunk; `Gate.run` folds it over a list of chunks;
* `Mixed.compile`    the whole way.
-/

namespace Dictation

inductive Chunk where
  | text (text : Text)
  | command (source : Text) (reply : Reply)
deriving DecidableEq, Repr

/-- what the user is asked, and what runs after approval -/
structure Confirmation where
  prompt : Text
  source : Text
  pending : List Operation
  all : List Operation
deriving DecidableEq, Repr

structure Mixed where
  chunks : List Chunk := []
  immediate : List Operation := []
  confirmation : Option Confirmation := none
  pending : List Operation := []
deriving DecidableEq, Repr

/-! ## chunks -/

namespace Chunk

def dictated (ctx : Context) (t : Text) : Text :=
  if ctx.cleanup then t.trim.stripLeading else t.trim

def ofSegment (ctx : Context) (s : Segment) : List Chunk :=
  match s.kind with
  | .text =>
    let t := dictated ctx s.source
    if t.isEmpty then [] else [.text t]
  | .command trigger phrase _ =>
    let source := Inline.spoken trigger phrase
    [.command source (Command.interpret ctx source)]
  | .trigger => [.text s.source]

def ofSegments (ctx : Context) (ss : List Segment) : List Chunk := ss.flatMap (ofSegment ctx)

theorem ofSegments_nil (ctx : Context) : ofSegments ctx [] = [] := rfl
theorem ofSegments_cons (ctx : Context) (s : Segment) (ss : List Segment) :
    ofSegments ctx (s :: ss) = ofSegment ctx s ++ ofSegments ctx ss := rfl

def ofText (ctx : Context) (t : Text) : List Chunk := ofSegments ctx (Segment.ofText ctx t)

/-- asks for confirmation -/
def isDestructive : Chunk → Bool
  | .command _ (.confirm _ _) => true
  | _ => false

def segmentEvents (ctx : Context) (s : Segment) : List Event :=
  match s.kind with
  | .command trigger phrase _ => Command.interpretEvents ctx (Inline.spoken trigger phrase)
  | _ => []

def eventsOfText (ctx : Context) (t : Text) : List Event :=
  let ss := Segment.ofText ctx t
  ss.flatMap Segment.events ++ ss.flatMap (segmentEvents ctx)

end Chunk

/-! ## the gate -/

/-- what the chunk before has left at the end of the document -/
inductive Trail where
  | nothing
  | text
  | command
  | punctuation
  | line
deriving DecidableEq, Repr

structure Gate where
  immediate : List Operation := []
  pending : List Operation := []
  /-- prompt and source of the first destructive command -/
  question : Option (Text × Text) := none
  trail : Trail := .nothing
deriving DecidableEq, Repr

namespace Gate

def isClosed (g : Gate) : Bool := g.question.isSome

/-- change the list that operations go to now -/
def modify (g : Gate) (f : List Operation → List Operation) : Gate :=
  if g.isClosed then { g with pending := f g.pending } else { g with immediate := f g.immediate }

def add (g : Gate) (ops : List Operation) : Gate := g.modify (· ++ ops)

theorem add_nil (g : Gate) : g.add [] = g := by
  unfold add modify
  split <;> simp

def addText (g : Gate) (t : Text) : Gate :=
  let spaced := if g.trail = .nothing ∨ g.trail = .line then t else ' ' :: t
  { g.add [.insertText spaced] with trail := .text }

/-- the mark that a reply inserts, if it does nothing else -/
def isPunctuation : List Operation → Bool
  | [.insertText [c]] => isMark c
  | _ => false

def isLineBreak : List Operation → Bool
  | [op] => op.breaksLine
  | _ => false

def trailOf (ops : List Operation) : Trail :=
  if isLineBreak ops then .line else if isPunctuation ops then .punctuation else .command

/-- without the punctuation that the recognizer has put at the end of the last inserted text; a
text without letters and digits stays as it is -/
def unpunctuate (ops : List Operation) : List Operation :=
  match ops.getLast? with
  | some (.insertText t) =>
    if t.any isAlnum then ops.dropLast ++ [.insertText t.stripTrailing] else ops
  | _ => ops

theorem unpunctuate_nil : unpunctuate [] = [] := rfl

def step (cleanup : Bool) (g : Gate) : Chunk → Gate
  | .text t => g.addText t
  | .command _ (.insert t) => g.addText t
  | .command _ (.run ops _) =>
    let g :=
      if isPunctuation ops && g.trail == .text && cleanup then g.modify unpunctuate else g
    { g.add ops with trail := trailOf ops }
  | .command source (.confirm ops prompt) =>
    { g with
      pending := g.pending ++ ops
      question := some (g.question.getD (prompt, source))
      trail := .command }

def run (cleanup : Bool) (cs : List Chunk) : Gate := cs.foldl (step cleanup) {}

theorem run_nil (cleanup : Bool) : run cleanup [] = {} := rfl

def confirmation (g : Gate) : Option Confirmation :=
  g.question.map fun q => ⟨q.1, q.2, g.pending, g.immediate ++ g.pending⟩

/-- one event for each destructive command; `first` is the source of the first one -/
def events (first : Option Text) : List Chunk → List Event
  | [] => []
  | .command source (.confirm _ prompt) :: cs =>
    match first with
    | none => .confirmationRequired source prompt :: events (some source) cs
    | some f => .confirmationJoined source f :: events first cs
  | _ :: cs => events first cs

end Gate

namespace Mixed

def ofChunks (ctx : Context) (cs : List Chunk) : Mixed :=
  let g := Gate.run ctx.cleanup cs
  ⟨cs, g.immediate, g.confirmation, g.pending⟩

def compile (ctx : Context) (t : Text) : Mixed :=
  let u := Inline.cleaned ctx t
  if u.allBlank then {} else ofChunks ctx (Chunk.ofText ctx u)

/-- what runs once the user has been asked: all of it with approval, else what came before -/
def approvedIf (m : Mixed) (approve : Bool) : List Operation :=
  match m.confirmation with
  | some c => if approve then c.all else m.immediate
  | none => m.immediate

def events (ctx : Context) (t : Text) : List Event :=
  let u := Inline.cleaned ctx t
  Inline.cleanedEvents ctx t ++
    if u.allBlank then [] else Chunk.eventsOfText ctx u ++ Gate.events none (Chunk.ofText ctx u)

end Mixed
end Dictation
