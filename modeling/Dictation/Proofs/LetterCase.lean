import Dictation.Proofs.Meaning
import Dictation.Proofs.Rebuilding
import Dictation.Proofs.Text.Small

/-!
# Letter case makes no difference to commands

An utterance in small letters goes the same way as the utterance: it is cut at the same places,
the same commands are heard in it, and the same operations come of it, with their texts in small
letters.  So two utterances that differ in ASCII case alone have the same commands.

* `Segment.small`, `Operation.small`, `Chunk.small`, `Gate.small`, `Mixed.small`   what has been
                        made of an utterance, with its texts in small letters;
* `Segment.ofText_small`, `Inline.compile_small`, `Mixed.compile_small`   each stage of the way
                        commutes with them;
* `Segment.SameButCase`   segments at one place, of one kind and with one phrase;
* `Mixed.compile_same_but_case`   two utterances that differ in case.
-/

namespace Dictation

/-! ## triggers and phrases -/

theorem caseIgnorableRanges_apart_letters : asciiLetters.apart caseIgnorableRanges = true := by
  decide +kernel

theorem lowersAs_toLower (c : Char) : LowersAs c.toLower c where
  lowered := lowered_toLower c
  cased := apply_toLower (by decide) c
  ignorable := caseFree_of_apart caseIgnorableRanges_apart_letters c
  sigma := apply_toLower (f := (· == capitalSigma)) (by decide) c
  dotted := apply_toLower (f := (· == capitalDottedI)) (by decide) c

theorem Text.lower_small (t : Text) : lower (small t) = lower t := by
  refine lower_of_forall₂ ?_
  rw [small, List.forall₂_map_left_iff, List.forall₂_same]
  exact fun c _ => lowersAs_toLower c

namespace Trigger

theorem stands_small (lenient : Bool) (before : Option Char) (trigger t : Text) :
    stands lenient (before.map Char.toLower) trigger t.small = stands lenient before trigger t := by
  rw [stands, stands, isBoundary_toLower, Text.beginsAlike_small, Text.small_drop,
    Text.head?_small, isBoundary_toLower]

theorem tailAt?_small (lenient : Bool) (before : Option Char) (t : Text) (triggers : List Text) :
    tailAt? lenient (before.map Char.toLower) t.small triggers =
      tailAt? lenient before t triggers := by
  induction triggers with
  | nil => rfl
  | cons u us ih =>
    cases u with
    | nil => exact ih
    | cons c cs => rw [tailAt?, tailAt?, stands_small, ih]

theorem next?_small (lenient : Bool) (triggers : List Text) (before : Option Char) (t : Text) :
    next? lenient triggers (before.map Char.toLower) t.small = next? lenient triggers before t := by
  induction t generalizing before with
  | nil => rfl
  | cons c t ih =>
    have htail := tailAt?_small lenient before (c :: t) triggers
    have hrest := ih (some c)
    rw [Text.small_cons] at htail ⊢
    rw [Option.map_some] at hrest
    rw [next?, next?, htail, hrest]

end Trigger

namespace Phrase

theorem fits_small (lenient : Bool) (t spelling : Text) :
    fits lenient t.small spelling = fits lenient t spelling := by
  rw [fits, fits, Text.length_small, Text.small_take, Text.lower_small, Text.small_drop,
    Text.head?_small, isBoundary_toLower]

theorem longest?_small (lenient : Bool) (t : Text) (table : List (Text × Text)) :
    longest? lenient t.small table = longest? lenient t table := by
  have hbetter : better lenient t.small = better lenient t := by
    funext best entry
    rw [better, better, fits_small]
  rw [longest?, longest?, hbetter]

theorem gap_small (lenient : Bool) (t : Text) : gap lenient t.small = gap lenient t := by
  rw [gap, gap, Text.fillersAtStart_small, Text.blanksAtStart_small]

theorem match?_small (lx : Lexicon) (t : Text) : match? lx t.small = match? lx t := by
  unfold match?
  dsimp only
  rw [gap_small, Text.small_drop, Text.isEmpty_small, longest?_small, longest?_small]

end Phrase

/-! ## segments -/

namespace Segment

def Kind.small : Kind → Kind
  | .command heard phrase corrected => .command heard.small phrase corrected
  | kind => kind

/-- the segment with its own characters in small letters; the phrase is one of the table -/
def small (s : Segment) : Segment := ⟨s.start, s.source.small, s.kind.small⟩

theorem stop_small (s : Segment) : s.small.stop = s.stop := by
  rw [stop, stop, small, Text.length_small]

section
variable (lx : Lexicon) (offset : Nat) (before : Option Char) (t : Text)

theorem leading_small (skip : Nat) :
    leading offset skip t.small = (leading offset skip t).map small := by
  unfold leading
  split
  · rfl
  · rw [Text.small_take]
    rfl

theorem atTrigger_small (n : Nat) :
    atTrigger lx offset n t.small = (atTrigger lx offset n t).small := by
  unfold atTrigger
  rw [Text.small_drop, Phrase.match?_small]
  split
  · rw [Text.small_take, Text.small_take]
    rfl
  · rw [Text.small_take]
    rfl

/-- **A scan goes over a text in small letters as it goes over the text.** -/
theorem cut_small :
    cut lx offset (before.map Char.toLower) t.small = (cut lx offset before t).map small := by
  induction offset, before, t using cut.induct lx with
  | case1 offset before t hn =>
    rw [cut_of_none hn, cut_of_none ((Trigger.next?_small _ _ _ _).trans hn), Text.length_small,
      leading_small]
  | case2 offset before t hit hn rest s ih =>
    rw [cut_of_next? hn, cut_of_next? ((Trigger.next?_small _ _ _ _).trans hn)]
    dsimp only
    rw [leading_small, Text.small_drop, atTrigger_small, stop_small, List.map_append, List.map_cons,
      show (s.small).source = s.source.small from rfl, Text.getLast?_small, Text.length_small,
      Text.small_drop, ih]

end

theorem ofText_small (ctx : Context) (t : Text) : ofText ctx t.small = (ofText ctx t).map small :=
  cut_small (lexicon ctx) 0 none t

end Segment

/-! ## operations and replies -/

def Operation.small : Operation → Operation
  | .insertText t => .insertText t.small
  | op => op

theorem Operation.breaksLine_small (op : Operation) : op.small.breaksLine = op.breaksLine := by
  cases op <;> rfl

def Reply.small : Reply → Reply
  | .insert t => .insert t.small
  | .run ops confidence => .run (ops.map Operation.small) confidence
  | .confirm ops prompt => .confirm (ops.map Operation.small) prompt

theorem Command.phrases_small : ∀ p ∈ phrases, p.small = p := by decide

theorem Segment.phrase_small_of_mem {ctx : Context} {t : Text} {s : Segment}
    (h : s ∈ ofText ctx t) : s.phrase.small = s.phrase := by
  have hfound := found_of_mem h
  unfold Found at hfound
  unfold phrase
  cases hk : s.kind with
  | command heard phrase corrected =>
    rw [hk] at hfound
    exact Command.phrases_small phrase hfound.2
  | text => rfl
  | trigger => rfl

namespace Command

theorem marks_small : ∀ p ∈ punctuation, p.2.small = p.2 := by decide

/-- the replies of the table write no capitals -/
theorem Answer.small_eq {r : Reply} (h : Answer r) : r.small = r := by
  cases h with
  | @mark p hp =>
    show Reply.run [.insertText p.2.small] .high = .run [.insertText p.2] .high
    rw [marks_small p hp]
  | _ => rfl

theorem interpret_small (ctx : Context) (t : Text) :
    interpret ctx t.small = (interpret ctx t).small := by
  rw [interpret, interpret, normalizeIn_congr ctx (Text.lower_small t)]
  split
  · rfl
  · rfl
  · exact (answer_parse _).small_eq.symm

end Command

/-! ## compiled in place -/

namespace Inline

theorem spoken_small (trigger phrase : Text) :
    (spoken trigger phrase).small = spoken trigger.small phrase.small := by
  rw [spoken, Text.small_append, Text.small_cons]
  rfl

theorem cleaned_small (ctx : Context) (t : Text) :
    cleaned ctx t.small = (cleaned ctx t).small := by
  unfold cleaned
  split
  · exact Text.stripArtifacts_small t
  · rfl

theorem dictated_small (ctx : Context) (t : Text) :
    dictated ctx t.small = (dictated ctx t).small := by
  unfold dictated
  rw [Text.trimRight_small]
  split
  · exact Text.stripLeading_small _
  · rfl

theorem separatorAfter_small (op : Operation) (t : Text) :
    separatorAfter op.small t.small = (separatorAfter op t).small := by
  have hsame : separatorAfter op.small t.small = separatorAfter op t := by
    cases op with
    | insertText p =>
      have hlast : (p.small.getLast?.all isBlank) = p.getLast?.all isBlank := by
        rw [Text.getLast?_small]
        cases p.getLast? with
        | none => rfl
        | some c => exact caseFree_isBlank c
      show (if p.small.getLast?.all isBlank then [] else Spacing.separator p.small t.small) = _
      rw [hlast, Spacing.separator_small]
      rfl
    | insertNewLine => rfl
    | insertNewParagraph => rfl
    | _ =>
      show (if Spacing.wantsSpace t.small then [' '] else []) = _
      rw [Spacing.wantsSpace_small]
      rfl
  rw [hsame]
  rcases separatorAfter_eq_nil_or op t with h | h
  · rw [h]
    rfl
  · rw [h]
    rfl

theorem placed_small (ops : List Operation) (t : Text) :
    placed (ops.map Operation.small) t.small = (placed ops t).small := by
  unfold placed
  rw [List.getLast?_map]
  cases ops.getLast? with
  | none => rfl
  | some last =>
    dsimp only [Option.map_some]
    rw [Text.trimLeft_small, separatorAfter_small, ← Text.small_append]

theorem appendText_small (ops : List Operation) (t : Text) :
    appendText (ops.map Operation.small) t.small = (appendText ops t).map Operation.small := by
  rw [appendText_eq, appendText_eq, Text.allBlank_small, placed_small]
  split
  · rfl
  · rw [List.map_append]
    rfl

theorem step_small (ctx : Context) (ops : List Operation) {s : Segment}
    (hs : s.phrase.small = s.phrase) :
    step ctx (ops.map Operation.small) s.small = (step ctx ops s).map Operation.small := by
  obtain ⟨start, source, kind⟩ := s
  cases kind with
  | text =>
    show appendText _ (dictated ctx source.small) = _
    rw [dictated_small, appendText_small]
    rfl
  | command trigger phrase corrected =>
    have hphrase : phrase.small = phrase := hs
    have hspoken : spoken trigger.small phrase = (spoken trigger phrase).small := by
      rw [spoken_small, hphrase]
    unfold step
    dsimp only [Segment.small, Segment.Kind.small]
    rw [hspoken, Command.interpret_small]
    cases Command.interpret ctx (spoken trigger phrase) with
    | insert t => exact appendText_small ops t
    | run new confidence => exact List.map_append.symm
    | confirm new prompt =>
      show appendText _ phrase = _
      rw [← hphrase, appendText_small, hphrase]
  | trigger =>
    show appendText _ (source.small ++ Text.small [' ']) = _
    rw [← Text.small_append, appendText_small]
    rfl

theorem ofSegments_small (ctx : Context) {ss : List Segment}
    (hss : ∀ s ∈ ss, s.phrase.small = s.phrase) :
    ofSegments ctx (ss.map Segment.small) = (ofSegments ctx ss).map Operation.small := by
  have hfold (ops : List Operation) :
      (ss.map Segment.small).foldl (step ctx) (ops.map Operation.small) =
        (ss.foldl (step ctx) ops).map Operation.small := by
    induction ss generalizing ops with
    | nil => rfl
    | cons s ss ih =>
      obtain ⟨hs, hrest⟩ := List.forall_mem_cons.1 hss
      rw [List.map_cons, List.foldl_cons, List.foldl_cons, step_small ctx ops hs, ih hrest]
  exact hfold []

theorem compile_small (ctx : Context) (t : Text) :
    compile ctx t.small = (compile ctx t).map Operation.small := by
  rw [compile, cleaned_small, Segment.ofText_small,
    ofSegments_small ctx fun _ => Segment.phrase_small_of_mem, compile]

end Inline

/-! ## compiled behind the gate -/

def Chunk.small : Chunk → Chunk
  | .text t => .text t.small
  | .command source reply => .command source.small reply.small

namespace Chunk

theorem dictated_small (ctx : Context) (t : Text) :
    dictated ctx t.small = (dictated ctx t).small := by
  unfold dictated
  rw [Text.trim_small]
  split
  · exact Text.stripLeading_small _
  · rfl

theorem ofSegment_small (ctx : Context) {s : Segment} (hs : s.phrase.small = s.phrase) :
    ofSegment ctx s.small = (ofSegment ctx s).map small := by
  obtain ⟨start, source, kind⟩ := s
  cases kind with
  | text =>
    unfold ofSegment
    dsimp only [Segment.small, Segment.Kind.small]
    rw [dictated_small, Text.isEmpty_small]
    split
    · rfl
    · rfl
  | command trigger phrase corrected =>
    have hphrase : phrase.small = phrase := hs
    unfold ofSegment
    dsimp only [Segment.small, Segment.Kind.small]
    have hspoken : Inline.spoken trigger.small phrase = (Inline.spoken trigger phrase).small := by
      rw [Inline.spoken_small, hphrase]
    rw [hspoken, Command.interpret_small]
    rfl
  | trigger => rfl

theorem ofText_small (ctx : Context) (t : Text) :
    ofText ctx t.small = (ofText ctx t).map small := by
  rw [ofText, ofText, Segment.ofText_small, ofSegments, ofSegments, List.flatMap_map,
    List.map_flatMap]
  exact List.flatMap_congr fun s hs => ofSegment_small ctx (Segment.phrase_small_of_mem hs)

end Chunk

namespace Gate

def small (g : Gate) : Gate where
  immediate := g.immediate.map Operation.small
  pending := g.pending.map Operation.small
  question := g.question.map fun q => (q.1, q.2.small)
  trail := g.trail

section
variable (g : Gate)

theorem isClosed_small : g.small.isClosed = g.isClosed := Option.isSome_map

theorem modify_small {f f' : List Operation → List Operation}
    (h : ∀ ops, f' (ops.map Operation.small) = (f ops).map Operation.small) :
    g.small.modify f' = (g.modify f).small := by
  unfold modify
  rw [isClosed_small]
  split
  · rw [small, small, h]
  · rw [small, small, h]

theorem add_small (ops : List Operation) :
    g.small.add (ops.map Operation.small) = (g.add ops).small :=
  g.modify_small fun _ => List.map_append.symm

theorem addText_small (t : Text) : g.small.addText t.small = (g.addText t).small := by
  have hadd (t : Text) : { g.small.add [.insertText t.small] with trail := .text } =
      Gate.small { g.add [.insertText t] with trail := .text } := by
    rw [show [Operation.insertText t.small] = [Operation.insertText t].map .small from rfl,
      add_small]
    rfl
  unfold addText
  by_cases h : g.trail = .nothing ∨ g.trail = .line
  · have h' : g.small.trail = .nothing ∨ g.small.trail = .line := h
    dsimp only
    rw [if_pos h, if_pos h']
    exact hadd t
  · have h' : ¬(g.small.trail = .nothing ∨ g.small.trail = .line) := h
    dsimp only
    rw [if_neg h, if_neg h']
    exact hadd (' ' :: t)

theorem isPunctuation_small (ops : List Operation) :
    isPunctuation (ops.map Operation.small) = isPunctuation ops := by
  rcases ops with _ | ⟨op, _ | ⟨op', ops⟩⟩
  · rfl
  · cases op with
    | insertText t =>
      rcases t with _ | ⟨c, _ | ⟨d, t⟩⟩
      · rfl
      · exact caseFree_isMark c
      · rfl
    | _ => rfl
  · simp [isPunctuation]

theorem isLineBreak_small (ops : List Operation) :
    isLineBreak (ops.map Operation.small) = isLineBreak ops := by
  rcases ops with _ | ⟨op, _ | ⟨op', ops⟩⟩
  · rfl
  · exact op.breaksLine_small
  · rfl

theorem trailOf_small (ops : List Operation) : trailOf (ops.map Operation.small) = trailOf ops := by
  rw [trailOf, trailOf, isLineBreak_small, isPunctuation_small]

theorem unpunctuate_small (ops : List Operation) :
    unpunctuate (ops.map Operation.small) = (unpunctuate ops).map Operation.small := by
  unfold unpunctuate
  rw [List.getLast?_map]
  cases ops.getLast? with
  | none => rfl
  | some op =>
    cases op with
    | insertText t =>
      show (if t.small.any isAlnum then _ else _) = _
      rw [Text.any_small t caseFree_isAlnum, Text.stripTrailing_small, List.map_dropLast.symm]
      dsimp only
      split
      · rw [List.map_append]
        rfl
      · rfl
    | _ => rfl

theorem step_small (cleanup : Bool) (c : Chunk) :
    step cleanup g.small c.small = (step cleanup g c).small := by
  cases c with
  | text t => exact g.addText_small t
  | command source reply =>
    cases reply with
    | insert t => exact g.addText_small t
    | run ops confidence =>
      unfold step
      dsimp only [Chunk.small, Reply.small]
      rw [isPunctuation_small, trailOf_small, show g.small.trail = g.trail from rfl]
      split
      · rw [g.modify_small unpunctuate_small, add_small]
        rfl
      · rw [add_small]
        rfl
    | confirm ops prompt =>
      have hquestion : g.small.question.getD (prompt, source.small) =
          ((g.question.getD (prompt, source)).1, (g.question.getD (prompt, source)).2.small) := by
        show (g.question.map _).getD _ = _
        cases g.question with
        | none => rfl
        | some q => rfl
      unfold step
      dsimp only [Chunk.small, Reply.small]
      rw [hquestion, show g.small.pending = g.pending.map .small from rfl, ← List.map_append]
      rfl

theorem run_small (cleanup : Bool) (cs : List Chunk) :
    run cleanup (cs.map Chunk.small) = (run cleanup cs).small := by
  have hfold (g : Gate) :
      (cs.map Chunk.small).foldl (step cleanup) g.small = (cs.foldl (step cleanup) g).small := by
    induction cs generalizing g with
    | nil => rfl
    | cons c cs ih => rw [List.map_cons, List.foldl_cons, List.foldl_cons, step_small, ih]
  exact hfold {}

end
end Gate

def Confirmation.small (c : Confirmation) : Confirmation :=
  ⟨c.prompt, c.source.small, c.pending.map Operation.small, c.all.map Operation.small⟩

theorem Gate.confirmation_small (g : Gate) :
    g.small.confirmation = g.confirmation.map Confirmation.small := by
  unfold confirmation small
  dsimp only
  cases g.question with
  | none => rfl
  | some q =>
    dsimp only [Option.map_some, Confirmation.small]
    rw [List.map_append]

namespace Mixed

def small (m : Mixed) : Mixed where
  chunks := m.chunks.map Chunk.small
  immediate := m.immediate.map Operation.small
  confirmation := m.confirmation.map Confirmation.small
  pending := m.pending.map Operation.small

theorem ofChunks_small (ctx : Context) (cs : List Chunk) :
    ofChunks ctx (cs.map Chunk.small) = (ofChunks ctx cs).small := by
  unfold ofChunks
  dsimp only
  rw [Gate.run_small, Gate.confirmation_small]
  rfl

theorem compile_small (ctx : Context) (t : Text) : compile ctx t.small = (compile ctx t).small := by
  unfold compile
  dsimp only
  rw [Inline.cleaned_small, Text.allBlank_small]
  split
  · rfl
  · rw [Chunk.ofText_small, ofChunks_small]

end Mixed

/-! ## two utterances -/

/-- segments at one place, of one kind and with one phrase -/
structure Segment.SameButCase (s s' : Segment) : Prop where
  start : s.start = s'.start
  stop : s.stop = s'.stop
  phrase : s.phrase = s'.phrase
  source : s.source.small = s'.source.small
  kind : s.kind.small = s'.kind.small

theorem Segment.phrase_small (s : Segment) : s.small.phrase = s.phrase := by
  obtain ⟨start, source, kind⟩ := s
  cases kind <;> rfl

theorem Segment.sameButCase_of_small {s s' : Segment} (h : s.small = s'.small) :
    s.SameButCase s' where
  start := (congrArg Segment.start h :)
  stop := by rw [← stop_small, h, stop_small]
  phrase := by rw [← phrase_small, h, phrase_small]
  source := (congrArg Segment.source h :)
  kind := (congrArg Segment.kind h :)

/-- **Letter case is irrelevant to commands.**  Whatever the context is, two texts that differ in
the case of ASCII letters alone are cut into segments of the same kinds at the same places and with
the same phrases; and the operations compiled in place, those that may run at once, those that wait
and whether there is a question are the same, but for the case of inserted texts. -/
theorem Mixed.compile_same_but_case (ctx : Context) {s t : Text}
    (h : s.map Char.toLower = t.map Char.toLower) :
    let m := compile ctx s
    let m' := compile ctx t
    List.Forall₂ Segment.SameButCase (Segment.ofText ctx s) (Segment.ofText ctx t) ∧
      (Inline.compile ctx s).map Operation.small = (Inline.compile ctx t).map Operation.small ∧
      m.immediate.map Operation.small = m'.immediate.map Operation.small ∧
      m.pending.map Operation.small = m'.pending.map Operation.small ∧
      m.confirmation.isSome = m'.confirmation.isSome := by
  intro m m'
  have hsmall : s.small = t.small := h
  have hmixed : m.small = m'.small := by
    rw [← compile_small, hsmall, compile_small]
  have hsegments : (Segment.ofText ctx s).map Segment.small =
      (Segment.ofText ctx t).map Segment.small := by
    rw [← Segment.ofText_small, hsmall, Segment.ofText_small]
  refine ⟨?_, ?_, congrArg immediate hmixed, congrArg pending hmixed, ?_⟩
  · rw [← List.forall₂_eq_eq_eq, List.forall₂_map_left_iff, List.forall₂_map_right_iff] at hsegments
    exact hsegments.imp fun _ _ => Segment.sameButCase_of_small
  · rw [← Inline.compile_small, hsmall, Inline.compile_small]
  · have hconfirmation := congrArg (fun m => m.confirmation.isSome) hmixed
    simpa [small] using hconfirmation

/-- an utterance and the same shouted, with an artifact, a mis-heard phrase and a question -/
theorem Mixed.shouted_same_but_case :
    let ctx : Context := ⟨"en-US".toList, ["Robot".toList], true⟩
    let s : Text := "hi [ silence ] there robot, fullstop robot delete last sentence k".toList
    let t : Text := "HI [ SILENCE ] THERE ROBOT, FULLSTOP ROBOT DELETE LAST SENTENCE K".toList
    s.map Char.toLower = t.map Char.toLower ∧
      (compile ctx t).immediate = [.insertText "HI  THERE".toList, .insertText ".".toList] ∧
      (compile ctx s).immediate.map Operation.small =
        (compile ctx t).immediate.map Operation.small ∧
      (compile ctx s).confirmation.isSome = true := by
  intro ctx s t
  have hcase : s.map Char.toLower = t.map Char.toLower := by
    simp only [s, t, String.reduceToList]
    decide
  obtain ⟨-, -, himmediate, -, hconfirmation⟩ := compile_same_but_case ctx hcase
  have hrun : (compile ctx t).immediate = [.insertText "HI  THERE".toList, .insertText ".".toList] ∧
      (compile ctx t).confirmation.isSome = true := by
    -- evaluation is faster on texts that are spelled out
    simp only [ctx, t, String.reduceToList]
    decide +kernel
  exact ⟨hcase, hrun.1, himmediate, hconfirmation.trans hrun.2⟩

end Dictation
