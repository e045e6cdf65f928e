import Dictation.CommandLine.Report
import Dictation.Proofs.Json.RoundTrip
import Dictation.Proofs.Text.Utf8
import Dictation.Proofs.Validation
import Dictation.Tool

/-!
# Answers and printed documents

A tool answers with JSON on one line, the program prints JSON on indented lines, and each builds its
context in its own way.  Asked for the same, both write a text that is read as the compiled value.

* `Shape.distinct`, `Shape.exact_of_fits`   dumps have no key twice in one object;
* `Tool.Asks`               the options of a command line as arguments of a call;
* `Tool.Answers`            the answer of a call, read again;
* `CommandLine.Prints`      the output of a run, read again;
* `Tool.answers_as_printed`   both compilers, both ways to ask.
-/

namespace Dictation

/-! ## dumps can be read again -/

namespace Shape

mutual

/-- no key twice in a record -/
def distinct : Shape → Bool
  | list item => item.distinct
  | record keys => decide (keys.map (·.1)).Nodup && distinctFields keys
  | either shapes => distinctAll shapes
  | _ => true

def distinctFields : List (String × Shape) → Bool
  | [] => true
  | (_, s) :: keys => s.distinct && distinctFields keys

def distinctAll : List Shape → Bool
  | [] => true
  | s :: shapes => s.distinct && distinctAll shapes

end

theorem keys_of_fits {keys : List (String × Shape)} {fs : Fields} (h : fitsFields keys fs = true) :
    fs.map (·.1) = (keys.map (·.1)).map Json.key := by
  induction keys generalizing fs with
  | nil =>
    cases fs with
    | nil => rfl
    | cons f fs => exact absurd h Bool.false_ne_true
  | cons k keys ih =>
    cases fs with
    | nil => exact absurd h Bool.false_ne_true
    | cons f fs =>
      rw [fitsFields, Bool.and_eq_true, Bool.and_eq_true, beq_iff_eq] at h
      rw [List.map_cons, List.map_cons, List.map_cons, ih h.2, h.1.1]

theorem exact_of_isSome {v : Json} (h : v.text?.isSome = true) : v.Exact := by
  cases v with
  | str s => exact .str s
  | _ => exact absurd h Bool.false_ne_true

mutual

/-- what fits a shape without a key twice is read as it was written -/
theorem exact_of_fits : ∀ {s : Shape} {v : Json}, s.distinct = true → s.fits v = true → v.Exact
  | null, v, _, h => by
    cases v with
    | null => exact .null
    | _ => exact absurd h Bool.false_ne_true
  | text, v, _, h => by
    rw [fits] at h
    exact exact_of_isSome h
  | word t, v, _, h => by
    rw [fits, beq_iff_eq] at h
    exact exact_of_isSome (by rw [h]; rfl)
  | list item, v, hd, h => by
    rw [distinct] at hd
    cases v with
    | arr vs =>
      rw [fits, List.all_eq_true] at h
      exact .arr fun v hv => exact_of_fits hd (h v hv)
    | _ => exact absurd h Bool.false_ne_true
  | record keys, v, hd, h => by
    rw [distinct, Bool.and_eq_true, decide_eq_true_iff] at hd
    cases v with
    | obj fs =>
      rw [fits] at h
      refine .obj ?_ (exact_of_fitsFields hd.2 h)
      rw [keys_of_fits h]
      exact List.Pairwise.map _ (fun _ _ hne heq => hne (Json.key_injective heq)) hd.1
    | _ => exact absurd h Bool.false_ne_true
  | either shapes, v, hd, h => by
    rw [distinct] at hd
    rw [fits] at h
    exact exact_of_fitsOne hd h

theorem exact_of_fitsFields : ∀ {keys : List (String × Shape)} {fs : Fields},
    distinctFields keys = true → fitsFields keys fs = true → ∀ f ∈ fs, f.2.Exact
  | [], [], _, _ => fun _ hf => absurd hf List.not_mem_nil
  | [], _ :: _, _, h => absurd h Bool.false_ne_true
  | _ :: _, [], _, h => absurd h Bool.false_ne_true
  | (k, s) :: keys, (k', v) :: fs, hd, h => by
    rw [distinctFields, Bool.and_eq_true] at hd
    rw [fitsFields, Bool.and_eq_true, Bool.and_eq_true] at h
    intro f hf
    rcases List.mem_cons.1 hf with rfl | hf
    · exact exact_of_fits hd.1 h.1.2
    · exact exact_of_fitsFields hd.2 h.2 f hf

theorem exact_of_fitsOne : ∀ {shapes : List Shape} {v : Json},
    distinctAll shapes = true → fitsOne shapes v = true → v.Exact
  | [], _, _, h => absurd h Bool.false_ne_true
  | s :: shapes, v, hd, h => by
    rw [distinctAll, Bool.and_eq_true] at hd
    rw [fitsOne, Bool.or_eq_true] at h
    rcases h with h | h
    · exact exact_of_fits hd.1 h
    · exact exact_of_fitsOne hd.2 h

end

end Shape

theorem Operation.exact_listToJson (ops : List Operation) : (listToJson ops).Exact :=
  Shape.exact_of_fits (s := .list .operation) (by decide) (Shape.fits_operations ops)

theorem Mixed.exact_toJson (m : Mixed) : m.toJson.Exact :=
  Shape.exact_of_fits (by decide) (Shape.fits_mixed m)

/-! ## the same options -/

/-- an empty list of triggers asks for the default ones -/
theorem CommandLine.Options.context_eq (o : Options) :
    o.context = ⟨o.locale, Context.triggersFrom o.triggers, o.cleanup⟩ := by
  obtain ⟨locale, asked, cleanup⟩ := o
  cases asked with
  | nil => rfl
  | cons t ts => rfl

namespace Tool
open CommandLine

/-- the arguments ask for what these options of a command line ask for -/
structure Asks (args : Fields) (o : Options) : Prop where
  locale : Schema.withDefault "locale" Schema.text Context.defaultLocale (contextArguments args)
    = .ok o.locale
  triggers : Schema.withDefault "prefixes" (Schema.listOf Schema.text) [] (contextArguments args)
    = .ok o.triggers
  cleanup : Schema.withDefault "asr_cleanup" Schema.bool false (contextArguments args)
    = .ok o.cleanup

theorem triggers_eq_ok_iff {fs : Fields} {ts : List Text} :
    Schema.withDefault "prefixes" Schema.triggers Context.defaultTriggers fs = .ok ts ↔
      ∃ asked, Schema.withDefault "prefixes" (Schema.listOf Schema.text) [] fs = .ok asked ∧
        Context.triggersFrom asked = ts := by
  unfold Schema.withDefault
  cases Json.get? (Json.key "prefixes") fs with
  | none => simp [Context.triggersFrom_nil]
  | some v =>
    simp only [Checked.within_eq_ok_iff, Schema.triggers]
    cases Schema.listOf Schema.text v <;> simp [Except.map]

/-- the contexts that a call builds are those of the options that it asks for -/
theorem context_eq_ok_iff {args : Fields} {ctx : Context} :
    context args = .ok ctx ↔ ∃ o, Asks args o ∧ o.context = ctx := by
  constructor
  · intro h
    have hfields : Schema.contextFields (contextArguments args) = .ok ctx := by
      unfold context at h
      split at h
      · next hfields => rw [hfields, Except.ok.inj h]
      · cases h
    obtain ⟨locale, p, hlocale, hrest, rfl⟩ := Checked.both_eq_ok_iff.1 hfields
    obtain ⟨ts, cleanup, hts, hcleanup, rfl⟩ := Checked.both_eq_ok_iff.1 hrest
    obtain ⟨asked, hasked, rfl⟩ := triggers_eq_ok_iff.1 hts
    exact ⟨⟨locale, asked, cleanup⟩, ⟨hlocale, hasked, hcleanup⟩, Options.context_eq _⟩
  · rintro ⟨o, ho, rfl⟩
    rw [context, Schema.contextFields, ho.locale, triggers_eq_ok_iff.2 ⟨_, ho.triggers, rfl⟩,
      ho.cleanup, Options.context_eq]
    rfl

/-- arguments do not ask for two things -/
theorem Asks.unique {args : Fields} {o o' : Options} (h : Asks args o) (h' : Asks args o') :
    o = o' := by
  obtain ⟨locale, asked, cleanup⟩ := o
  obtain ⟨locale', asked', cleanup'⟩ := o'
  rw [Options.mk.injEq]
  exact ⟨Except.ok.inj (h.locale.symm.trans h'.locale),
    Except.ok.inj (h.triggers.symm.trans h'.triggers),
    Except.ok.inj (h.cleanup.symm.trans h'.cleanup)⟩

/-! ## answers of a tool -/

/-- a call with this text for the argument that must be given, and with no argument that the tool
does not have -/
structure Given (tool : Tool) (args : Fields) (t : Text) : Prop where
  known : tool.unknown? args = none
  text : Json.get? (Json.key tool.parameters.1) args = some (.ofText t)

/-- the answer of the call is read as the value -/
def Answers (link : Cause → Option Text) (tool : Tool) (args : Fields) (v : Json) : Prop :=
  ∃ a, call link tool args = .ok a ∧ Json.read? a.text = some v

/-- what a compiler answers with -/
def compiled (ctx : Context) (t : Text) : Tool → Json
  | compileTranscript => Operation.listToJson (Transcript.compile ctx t)
  | _ => (Mixed.compile ctx t).toJson

/-- why a value that is no text is not compiled -/
def textRefusal (ctx : Context) (v : Json) : Tool → Refusal
  | compileDictation => if ctx.cleanup then .notSearchable v.kind else .notTrimmable v.kind
  | _ => .notTrimmable v.kind

theorem exact_compiled (ctx : Context) (t : Text) (tool : Tool) : (tool.compiled ctx t).Exact := by
  cases tool with
  | compileTranscript => exact Operation.exact_listToJson _
  | _ => exact Mixed.exact_toJson _

section
variable {link : Cause → Option Text} {tool : Tool} {args : Fields} {v : Json} {ctx : Context}
  {t : Text}

/-- a call of either compiler -/
theorem call_of_given (htool : tool ≠ .findSentenceStart) (hknown : tool.unknown? args = none)
    (hgiven : Json.get? (Json.key tool.parameters.1) args = some v) :
    call link tool args = .ok (answer link tool args (match context args with
      | .error r => .error r
      | .ok ctx =>
        match v.text? with
        | some t => .ok (tool.compiled ctx t)
        | none => .error (tool.textRefusal ctx v))) := by
  have harg : argument tool args = v := by rw [argument, hgiven, Option.getD_some]
  unfold call
  rw [hknown, hgiven]
  cases tool with
  | compileDictation =>
    dsimp only
    rw [compile, harg]
    cases context args with
    | error r => rfl
    | ok ctx =>
      dsimp only
      cases v.text? <;> rfl
  | compileTranscript =>
    dsimp only
    rw [compileAll, harg]
    cases context args with
    | error r => rfl
    | ok ctx =>
      dsimp only
      cases v.text? <;> rfl
  | findSentenceStart => exact absurd rfl htool

theorem answers_compiled (htool : tool ≠ .findSentenceStart) (hctx : context args = .ok ctx)
    (h : Given tool args t) : Answers link tool args (tool.compiled ctx t) := by
  refine ⟨_, call_of_given htool h.known h.text, ?_⟩
  rw [hctx, Json.text?_ofText]
  exact Json.read?_write (exact_compiled ctx t tool) .compact

theorem answers_mixed (hctx : context args = .ok ctx) (h : Given .compileDictation args t) :
    Answers link .compileDictation args (Mixed.compile ctx t).toJson :=
  answers_compiled (by decide) hctx h

theorem answers_transcript (hctx : context args = .ok ctx) (h : Given .compileTranscript args t) :
    Answers link .compileTranscript args (Operation.listToJson (Transcript.compile ctx t)) :=
  answers_compiled (by decide) hctx h

end

end Tool

/-! ## output of a run -/

namespace CommandLine

/-- the run prints one document that is read as the value, and a line feed -/
def Prints (w : Surroundings) (ws : List Word) (v : Json) : Prop :=
  ∃ d, (Report.ofWords w ws).output = line d ∧ Json.read? d = some v

/-- the source has the bytes of the text -/
def Surroundings.Holds (w : Surroundings) (t : Text) : Source → Prop
  | .standardInput => w.input = Utf8.encode t
  | .file p => w.find p = .file (Utf8.encode t)

section
variable {w : Surroundings} {ws : List Word} {verbose : Bool} {t : Text} {o : Options}

theorem prints_of_output {v : Json} (hv : v.Exact)
    (h : (Report.ofWords w ws).output = line (v.write .indented)) : Prints w ws v :=
  ⟨_, h, Json.read?_write hv .indented⟩

theorem prints_mixed (h : Invocation.read ws = .ok ⟨verbose, .mixed t o⟩) :
    Prints w ws (Mixed.compile o.context t).toJson := by
  refine prints_of_output (Mixed.exact_toJson _) ?_
  rw [Report.ofWords, h]
  rfl

theorem readText_encode (h : '\r' ∉ t) : readText (Utf8.encode t) = .ok t := by
  rw [readText, Utf8.decode_encode]
  dsimp only
  rw [Text.unifyLineEnds_eq_self t h]

theorem transcriptFrom_of_holds {source : Source} (ht : '\r' ∉ t) (h : w.Holds t source)
    (render : Bool) :
    w.transcriptFrom verbose render o source = w.transcript verbose render o (.ok t) := by
  cases source with
  | standardInput =>
    rw [Surroundings.transcriptFrom, show w.input = _ from h, readText_encode ht]
  | file p =>
    rw [Surroundings.transcriptFrom, show w.find p = _ from h]
    dsimp only
    rw [readText_encode ht]

theorem prints_transcript {source : Source} (ht : '\r' ∉ t) (hsource : w.Holds t source)
    (h : Invocation.read ws = .ok ⟨verbose, .transcript source false o⟩) :
    Prints w ws (Operation.listToJson (Transcript.compile o.context t)) := by
  refine prints_of_output (Operation.exact_listToJson _) ?_
  rw [Report.ofWords, h]
  show (w.transcriptFrom verbose false o source).output = _
  rw [transcriptFrom_of_holds ht hsource]
  rfl

end

end CommandLine

/-! ## the same value either way -/

open Tool CommandLine in
/-- **What is answered and what is printed.**  The options of a call that build a context are those
of a command line too.  For every text, the answer of the tool that compiles dictation is read as
the compiled value, which validates as itself, and so is the document that the program prints for
this text and these options.  The same holds for transcripts, which a file or the standard input
has; there a carriage return would be a line end. -/
theorem answers_as_printed (link : Cause → Option Text) {args : Fields} {ctx : Context}
    (hctx : Tool.context args = .ok ctx) :
    ∃ o, Asks args o ∧ o.context = ctx ∧
      (∀ t, Given .compileDictation args t →
        Answers link .compileDictation args (Mixed.compile ctx t).toJson ∧
        Schema.mixed (Mixed.compile ctx t).toJson = .ok (Mixed.compile ctx t) ∧
        ∀ w ws verbose, Invocation.read ws = .ok ⟨verbose, .mixed t o⟩ →
          Prints w ws (Mixed.compile ctx t).toJson) ∧
      ∀ t, Given .compileTranscript args t → '\r' ∉ t →
        Answers link .compileTranscript args (Operation.listToJson (Transcript.compile ctx t)) ∧
        ∀ w ws verbose source, w.Holds t source →
          Invocation.read ws = .ok ⟨verbose, .transcript source false o⟩ →
          Prints w ws (Operation.listToJson (Transcript.compile ctx t)) := by
  obtain ⟨o, hasks, rfl⟩ := context_eq_ok_iff.1 hctx
  refine ⟨o, hasks, rfl, fun t ht => ⟨answers_mixed hctx ht, Schema.mixed_toJson _, ?_⟩,
    fun t ht hreturn => ⟨answers_transcript hctx ht, ?_⟩⟩
  · exact fun w ws verbose h => prints_mixed h
  · exact fun w ws verbose source hsource h => prints_transcript hreturn hsource h

/-- a call with a trigger of its own, and below the same on a command line -/
def robotFields : List (String × Json) :=
  [("text", .ofText "robot undo".toList), ("locale", .ofText "en-US".toList),
    ("prefixes", .arr (["robot".toList].map .ofText)), ("asr_cleanup", .bool true)]

def robotArguments : Fields := robotFields.map fun f => (Json.key f.1, f.2)

def robotWords : List CommandLine.Word :=
  ["-v", "mixed", "--locale", "en-US", "--prefix", "robot", "--asr", "robot undo"].map
    CommandLine.word

def robotOptions : CommandLine.Options := ⟨"en-US".toList, ["robot".toList], true⟩

open Tool CommandLine in
theorem robot_answered_as_printed :
    Tool.context robotArguments = .ok robotOptions.context ∧
      Answers (fun _ => none) .compileDictation robotArguments
        (Mixed.compile robotOptions.context "robot undo".toList).toJson ∧
      Prints { settingsPath := none, interpreter := [], stamp := [] } robotWords
        (Mixed.compile robotOptions.context "robot undo".toList).toJson := by
  have hasks : Asks robotArguments robotOptions := by
    have hargs : contextArguments robotArguments = robotFields.map fun f => (Json.key f.1, f.2) :=
      rfl
    constructor <;> rw [hargs]
    · exact Schema.withDefault_of_lookup rfl (Schema.text_ofText _)
    · exact Schema.withDefault_of_lookup rfl (Schema.listOf_map Schema.text_ofText _)
    · exact Schema.withDefault_of_lookup (v := .bool true) rfl rfl
  have hctx := context_eq_ok_iff.2 ⟨robotOptions, hasks, rfl⟩
  have hgiven : Given .compileDictation robotArguments "robot undo".toList :=
    ⟨by decide, Json.get?_record _ robotFields⟩
  have hread : Invocation.read robotWords
      = .ok ⟨true, .mixed "robot undo".toList robotOptions⟩ := rfl
  obtain ⟨o, ho, -, hmixed, -⟩ := answers_as_printed (fun _ => none) hctx
  obtain rfl := ho.unique hasks
  obtain ⟨hanswers, -, hprints⟩ := hmixed _ hgiven
  exact ⟨hctx, hanswers, hprints _ _ _ hread⟩

end Dictation
