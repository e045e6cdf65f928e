import Dictation.Proofs.Gate
import Dictation.Proofs.Spoken

/-!
# The two compilers agree

An utterance compiled in place and the same utterance compiled behind the gate have the same
operations in the same order, but for two things: the blanks at the ends of inserted texts, and a
sentence to delete, which in place is the phrase typed out.

* `Operation.trimmed`, `Operation.typedOut`   what the comparison looks past;
* `Gate.Agrees`             the relation between the two folds, kept by every segment;
* `Mixed.compile_agrees`    same operations, same order.
-/

namespace Dictation

namespace Operation

/-- an inserted text without the blanks at its ends -/
def trimmed : Operation → Operation
  | insertText t => insertText t.trim
  | op => op

/-- a sentence to delete as the phrase that asks for it -/
def typedOut : Operation → Operation
  | deleteLastSentence => insertText Command.deleteLastSentence
  | op => op

theorem typedOut_of_tame {op : Operation} (h : op.isTame = true) : op.typedOut = op := by
  cases op with
  | deleteLastSentence => cases h
  | _ => rfl

theorem map_typedOut_of_tame {ops : List Operation} (h : ∀ op ∈ ops, op.isTame = true) :
    (ops.map fun op => op.typedOut.trimmed) = ops.map trimmed :=
  List.map_congr_left fun op hop => by rw [typedOut_of_tame (h op hop)]

end Operation

/-! ## replies -/

namespace Command

theorem phrases_confirm : ∀ p ∈ phrases,
    (Chunk.command p (parse p)).isDestructive = true → p = deleteLastSentence := by decide

/-- the only phrase that asks first -/
theorem phrase_of_confirm {ctx : Context} {heard p : Text} (hh : Context.Usable heard)
    (hp : p ∈ phrases) {ops : List Operation} {prompt : Text}
    (h : interpret ctx (Inline.spoken heard p) = .confirm ops prompt) :
    p = deleteLastSentence := by
  rcases interpret_spoken ctx hh hp with hr | ⟨_, hr⟩ | hr
  · rw [hr] at h
    have hm := phrases_confirm _ (meant_mem ctx hp) (by rw [h]; rfl)
    unfold meant at hm
    split at hm
    · exact absurd hm (by decide)
    · exact hm
  · rw [hr] at h
    cases h
  · rw [hr] at h
    cases h

end Command

/-! ## one segment -/

/-- what stands between the last operation and the text after it is nothing or one space -/
theorem Inline.separatorAfter_eq_nil_or (last : Operation) (t : Text) :
    separatorAfter last t = [] ∨ separatorAfter last t = [' '] := by
  unfold separatorAfter
  split
  · exact .inl rfl
  · exact .inl rfl
  · split
    · exact .inl rfl
    · exact Spacing.separator_eq_nil_or _ _
  · split
    · exact .inr rfl
    · exact .inl rfl

/-- neither the blanks before words count nor the space that is put there -/
theorem Inline.trim_placed (ops : List Operation) (w : Text) : (placed ops w).trim = w.trim := by
  unfold placed
  split
  · rfl
  · next last _ =>
    rcases separatorAfter_eq_nil_or last w.trimLeft with h | h
    · rw [h, List.nil_append, Text.trim_trimLeft]
    · rw [h, List.singleton_append, Text.trim_cons_blank (by decide), Text.trim_trimLeft]

theorem Inline.map_trimmed_appendText (ops : List Operation) (t : Text) :
    (appendText ops t).map Operation.trimmed =
      ops.map Operation.trimmed ++ if t.allBlank then [] else [.insertText t.trim] := by
  rw [appendText_eq]
  split
  · rw [List.append_nil]
  · rw [List.map_append, ← trim_placed ops t]
    rfl

namespace Gate

/-- all the operations that the comparison sees -/
def seen (g : Gate) : List Operation :=
  (g.immediate ++ g.pending).map fun op => op.typedOut.trimmed

/-- operations compiled in place against a gate -/
structure Agrees (ops : List Operation) (g : Gate) : Prop where
  same : ops.map Operation.trimmed = g.seen
  pending_nil : g.isClosed = false → g.pending = []

section
variable {ops : List Operation} {g : Gate}

theorem agrees_start : Agrees [] {} where
  same := rfl
  pending_nil _ := rfl

theorem seen_add (h : g.isClosed = false → g.pending = []) (new : List Operation) :
    (g.add new).seen = g.seen ++ new.map fun op => op.typedOut.trimmed := by
  unfold seen add
  cases hc : g.isClosed with
  | true =>
    rw [modify_of_closed hc, ← List.map_append, List.append_assoc]
  | false =>
    rw [modify_of_open hc, ← List.map_append]
    dsimp only
    rw [h hc, List.append_nil, List.append_nil]

/-- the same operations added on both sides -/
theorem agrees_add (h : Agrees ops g) {ops' new : List Operation} (trail : Trail)
    (hnew : ops'.map Operation.trimmed =
      ops.map Operation.trimmed ++ new.map fun op => op.typedOut.trimmed) :
    Agrees ops' { g.add new with trail := trail } where
  same := by
    rw [hnew, h.same, ← seen_add h.pending_nil]
    rfl
  pending_nil hc := by
    have hopen : g.isClosed = false := by
      rw [isClosed, ← modify_question g (· ++ new)]
      exact hc
    show (g.modify (· ++ new)).pending = []
    rw [modify_of_open hopen]
    exact h.pending_nil hopen

/-- the same words added on both sides, whatever blanks stand around them -/
theorem agrees_addText (h : Agrees ops g) {t u : Text} (ht : t.allBlank = false)
    (hu : u.trim = t.trim) : Agrees (Inline.appendText ops t) (g.addText u) := by
  have hspaced : Text.trim (if g.trail = .nothing ∨ g.trail = .line then u else ' ' :: u) =
      t.trim := by
    split
    · exact hu
    · rw [Text.trim_cons_blank (by decide), hu]
  refine agrees_add h .text ?_
  rw [Inline.map_trimmed_appendText, ht, if_neg Bool.false_ne_true, ← hspaced]
  rfl

/-- a sentence to delete on one side, its phrase on the other -/
theorem agrees_confirm (h : Agrees ops g) (source prompt : Text) :
    Agrees (Inline.appendText ops Command.deleteLastSentence)
      (step false g (.command source (.confirm [.deleteLastSentence] prompt))) where
  same := by
    rw [Inline.map_trimmed_appendText, h.same, step_confirm]
    show g.seen ++ _ = (g.immediate ++ (g.pending ++ [Operation.deleteLastSentence])).map _
    rw [← List.append_assoc, List.map_append]
    rfl
  pending_nil hc := by cases hc

/-- dictated text: nothing on either side if it is blank -/
theorem agrees_text (h : Agrees ops g) (t : Text) :
    Agrees (Inline.appendText ops t.trimRight)
      ((if t.trim.isEmpty then [] else [Chunk.text t.trim]).foldl (step false) g) := by
  cases hb : t.allBlank with
  | true =>
    rw [(Text.trim_eq_nil_iff t).2 hb]
    refine ⟨?_, h.pending_nil⟩
    rw [Inline.map_trimmed_appendText, Text.allBlank_trimRight, hb, if_pos rfl, List.append_nil]
    exact h.same
  | false =>
    have hne : t.trim ≠ [] := by
      rw [ne_eq, Text.trim_eq_nil_iff, hb]
      exact Bool.false_ne_true
    rw [List.isEmpty_eq_false_iff.2 hne, if_neg Bool.false_ne_true]
    refine agrees_addText h ?_ ?_
    · rw [Text.allBlank_trimRight, hb]
    · rw [Text.trim_trim, Text.trim_trimRight]

/-- a command, whatever the reply to it is -/
theorem agrees_command {ctx : Context} (h : Agrees ops g) {heard phrase : Text}
    (hh : Context.Usable heard) (hp : phrase ∈ Command.phrases) (corrected : Bool) (start : Nat)
    (source : Text) :
    Agrees (Inline.step ctx ops ⟨start, source, .command heard phrase corrected⟩)
      (step false g (.command (Inline.spoken heard phrase)
        (Command.interpret ctx (Inline.spoken heard phrase)))) := by
  have hg := Command.interpret_gated ctx (Inline.spoken heard phrase)
  unfold Inline.step
  dsimp only
  cases hr : Command.interpret ctx (Inline.spoken heard phrase) with
  | insert t =>
    refine agrees_addText h ?_ rfl
    have hphrase := mt Text.words_eq_nil_of_allBlank (Command.phrases_usable _ hp).words_ne_nil
    rw [Command.eq_of_interpret_eq_insert hr, Inline.spoken, Text.allBlank_append,
      Text.allBlank_cons, Bool.eq_false_iff.2 hphrase, Bool.and_false, Bool.and_false]
  | run new confidence =>
    rw [hr] at hg
    rw [step_run, Bool.and_false, if_neg Bool.false_ne_true]
    exact agrees_add h _ (by rw [List.map_append, Operation.map_typedOut_of_tame hg])
  | confirm asked prompt =>
    rw [hr] at hg
    rw [show asked = [.deleteLastSentence] from hg, Command.phrase_of_confirm hh hp hr]
    exact agrees_confirm h _ prompt

section
variable {ctx : Context} (hcleanup : ctx.cleanup = false)
  (husable : ∀ t ∈ ctx.triggers, Context.Usable t)
include hcleanup husable

/-- **One segment keeps the two sides in agreement.** -/
theorem agrees_step (h : Agrees ops g) {s : Segment} (hs : s.Found ctx.triggers) :
    Agrees (Inline.step ctx ops s) ((Chunk.ofSegment ctx s).foldl (step false) g) := by
  obtain ⟨start, source, kind⟩ := s
  cases kind with
  | text =>
    unfold Inline.step Chunk.ofSegment Inline.dictated Chunk.dictated
    simp only [hcleanup, Bool.false_eq_true, ite_false]
    exact agrees_text h source
  | command heard phrase corrected =>
    exact agrees_command h (hs.1.usable husable) hs.2 corrected start source
  | trigger =>
    have hblank := mt Text.words_eq_nil_of_allBlank (hs.usable husable).words_ne_nil
    refine agrees_addText h ?_ ?_
    · rw [Text.allBlank_append, Bool.eq_false_iff.2 hblank, Bool.false_and]
    · exact (Text.trim_append_blank (by decide) source).symm

theorem agrees_foldl (h : Agrees ops g) {ss : List Segment}
    (hss : ∀ s ∈ ss, s.Found ctx.triggers) :
    Agrees (ss.foldl (Inline.step ctx) ops) ((Chunk.ofSegments ctx ss).foldl (step false) g) := by
  induction ss generalizing ops g with
  | nil => exact h
  | cons s ss ih =>
    rw [Chunk.ofSegments_cons, List.foldl_append]
    exact ih (agrees_step hcleanup husable h (hss s List.mem_cons_self))
      fun s' hs' => hss s' (List.mem_cons_of_mem _ hs')

end
end
end Gate

/-! ## whole utterances -/

theorem Text.allBlank_of_sublist {s t : Text} (h : s.Sublist t) (ht : t.allBlank = true) :
    s.allBlank = true :=
  List.all_eq_true.2 fun c hc => List.all_eq_true.1 ht c (h.subset hc)

/-- no trigger is heard in blanks -/
theorem Segment.ofText_of_allBlank {ctx : Context} (husable : ∀ t ∈ ctx.triggers, Context.Usable t)
    {t : Text} (h : t.allBlank = true) : ofText ctx t = leading 0 t.length t := by
  unfold ofText segments cut
  split
  · rfl
  · next hit hn =>
    have hheard := (Trigger.heard_of_next? hn).usable husable
    have hsub := (List.take_sublist (hit.tail + 1) (t.drop hit.skip)).trans (List.drop_sublist _ _)
    exact absurd (Text.words_eq_nil_of_allBlank (Text.allBlank_of_sublist hsub h))
      hheard.words_ne_nil

/-- so they make no chunk -/
theorem Chunk.ofText_of_allBlank {ctx : Context} (hcleanup : ctx.cleanup = false)
    (husable : ∀ t ∈ ctx.triggers, Context.Usable t) {t : Text} (h : t.allBlank = true) :
    ofText ctx t = [] := by
  rw [ofText, Segment.ofText_of_allBlank husable h, Segment.leading]
  split
  · rfl
  · have hnil : Text.trim (t.take t.length) = [] := by
      rw [List.take_length]
      exact (Text.trim_eq_nil_iff t).2 h
    rw [ofSegments_cons, ofSegments_nil, List.append_nil]
    unfold ofSegment dictated
    dsimp only
    rw [hcleanup, if_neg Bool.false_ne_true, hnil]
    rfl

namespace Mixed

theorem compile_eq_ofText {ctx : Context} (hcleanup : ctx.cleanup = false)
    (husable : ∀ t ∈ ctx.triggers, Context.Usable t) (t : Text) :
    compile ctx t = ofChunks ctx (Chunk.ofText ctx t) := by
  unfold compile Inline.cleaned
  rw [hcleanup, if_neg Bool.false_ne_true]
  dsimp only
  split
  · next hb => rw [Chunk.ofText_of_allBlank hcleanup husable hb]; rfl
  · rfl

/-- **The two compilers agree.**  Without clean-up, both give the same operations in the same
order, up to the blanks at the ends of inserted texts and to typing out the phrase that deletes a
sentence. -/
theorem compile_agrees (locale : Text) (asked : List Text) (t : Text) :
    (Inline.compile (Context.ofOptions locale asked false) t).map Operation.trimmed =
      ((compile (Context.ofOptions locale asked false) t).immediate ++
        (compile (Context.ofOptions locale asked false) t).pending).map
          fun op => op.typedOut.trimmed := by
  have husable := (Context.clean_ofOptions locale asked false).usable
  rw [compile_eq_ofText rfl husable]
  exact (Gate.agrees_foldl rfl husable Gate.agrees_start
    fun s hs => Segment.found_of_mem hs).same

end Mixed
end Dictation
