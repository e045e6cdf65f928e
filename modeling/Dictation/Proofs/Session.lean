import Dictation.Dispatch
import Dictation.Document
import Dictation.Proofs.Gate
import Dictation.Proofs.Text.Words
import Dictation.Transcript

/-!
# Sessions without approval

A session applies compiled dictation to one document, step by step, and nobody approves anything.
Every operation of every step is tame, and a tame operation adds text at the end, cuts one word
off or leaves the text alone.  So a start of the first text outlives the session, and it is
shorter by at most one word for each word deleted.

* `Session.Step`       one utterance or transcript, on any of the four ways to the document;
* `Document.Keeps`     the start of a text that a document still begins with;
* `Session.run_keeps`  no destruction without approval, over whole sessions.
-/

namespace Dictation

/-! ## every way to the document is tame -/

namespace Inline

theorem tame_appendText {ops : List Operation} (h : ∀ op ∈ ops, op.isTame = true) (t : Text) :
    ∀ op ∈ appendText ops t, op.isTame = true := by
  rw [appendText_eq]
  split
  · exact h
  · exact (Gate.keeps_append (by simp [Operation.isTame])).tame ops h

theorem tame_step (ctx : Context) {ops : List Operation} (h : ∀ op ∈ ops, op.isTame = true)
    (s : Segment) : ∀ op ∈ step ctx ops s, op.isTame = true := by
  unfold step
  split
  · exact tame_appendText h _
  · next trigger phrase _ _ =>
    have hg := Command.interpret_gated ctx (spoken trigger phrase)
    split
    · exact tame_appendText h _
    · exact tame_appendText h _
    · next new _ hr =>
      rw [hr] at hg
      exact (Gate.keeps_append hg).tame ops h
  · exact tame_appendText h _

theorem tame_foldl (ctx : Context) (ss : List Segment) {ops : List Operation}
    (h : ∀ op ∈ ops, op.isTame = true) : ∀ op ∈ ss.foldl (step ctx) ops, op.isTame = true := by
  induction ss generalizing ops with
  | nil => exact h
  | cons s ss ih => exact ih (tame_step ctx h s)

/-- nothing that is compiled in place deletes a sentence -/
theorem tame_compile (ctx : Context) (t : Text) : ∀ op ∈ compile ctx t, op.isTame = true :=
  tame_foldl ctx _ fun _ h => absurd h List.not_mem_nil

end Inline

namespace Transcript

theorem tame_ofPieces (ctx : Context) (ps : List Piece) :
    ∀ op ∈ ofPieces ctx ps, op.isTame = true := by
  induction ps with
  | nil => exact fun _ h => absurd h List.not_mem_nil
  | cons p ps ih =>
    cases p with
    | lineEnd =>
      intro op h
      rcases List.mem_cons.1 h with rfl | h
      · rfl
      · exact ih op h
    | terminator c =>
      intro op h
      rcases List.mem_cons.1 h with rfl | h
      · rfl
      · rcases List.mem_append.1 h with h | h
        · unfold spaceBefore at h
          split at h
          · rw [List.mem_singleton.1 h]
            rfl
          · exact absurd h List.not_mem_nil
        · exact ih op h
    | words t =>
      intro op h
      rcases List.mem_append.1 h with h | h
      · exact Inline.tame_compile ctx t op h
      · exact ih op h

theorem tame_compile (ctx : Context) (t : Text) : ∀ op ∈ compile ctx t, op.isTame = true := by
  unfold compile
  split
  · exact fun _ h => absurd h List.not_mem_nil
  · exact tame_ofPieces ctx _

end Transcript

theorem Mixed.tame_immediate (ctx : Context) (t : Text) :
    ∀ op ∈ (compile ctx t).immediate, op.isTame = true := by
  obtain ⟨cs, hcs, h⟩ := compile_eq_ofChunks ctx t
  rw [h]
  exact (Gate.guards_run ctx.cleanup hcs).immediate

theorem Dispatch.tame_operations (ctx : Context) (t : Text) :
    ∀ op ∈ (ofText ctx t).operations, op.isTame = true := by
  have hg := Command.interpret_gated ctx t
  unfold ofText
  cases hr : Command.interpret ctx t with
  | insert u => exact fun op h => by rw [List.mem_singleton.1 h]; rfl
  | run ops confidence => rw [hr] at hg; exact hg
  | confirm ops prompt => exact fun op h => by rw [List.mem_singleton.1 h]; rfl

/-! ## words that stay -/

namespace Text

theorem dropLastWord_append_blank {c : Char} (hc : isBlank c = true) (s : Text) {t : Text}
    (ht : allBlank t = false) : dropLastWord (s ++ c :: t) = s ++ c :: dropLastWord t := by
  have hall : allBlank (s ++ c :: t) = false := by
    rw [allBlank_append, allBlank_cons, ht, Bool.and_false, Bool.and_false]
  have hright : trimRight (s ++ c :: t) = s ++ c :: trimRight t := by
    have h : (c :: t).all isBlank = false := by rw [List.all_cons, hc]; exact ht
    rw [trimRight, dropEndWhile_append, h, if_neg Bool.false_ne_true, dropEndWhile_cons,
      if_neg (by rw [show t.all isBlank = false from ht]; exact Bool.false_ne_true)]
    rfl
  rw [dropLastWord, hall, if_neg Bool.false_ne_true, hright, dropLastWord, ht,
    if_neg Bool.false_ne_true]
  exact dropEndWhile_append_cons (by rw [hc]; rfl) s _

/-- a text that begins with some words of another one still begins with all of them but the last
one after its own last word is gone -/
theorem uptoWord_dropLastWord {n : Nat} {t d : Text} (hn : n + 1 ≤ (words t).length)
    (h : uptoWord (n + 1) t <+: d) : uptoWord n t <+: dropLastWord d := by
  induction n generalizing t d with
  | zero => exact List.nil_prefix
  | succ n ih =>
    cases ht : words t with
    | nil => rw [ht] at hn; cases hn
    | cons w ws =>
      obtain ⟨gap, rest, -, hrest, -, hr, -, hupto⟩ := exists_of_words ht
      have hlen : n + 1 ≤ (words rest).length := by
        rw [ht, List.length_cons] at hn
        rw [hrest]
        omega
      rw [hupto] at h ⊢
      obtain ⟨more, rfl⟩ := h
      rcases hr with rfl | ⟨c, r, rfl, hc⟩
      · cases hlen
      · -- the word lost by the document stands after the blank `c` that ends this one
        rw [uptoWord_cons_blank hc]
        have hd : allBlank (uptoWord (n + 1) r ++ more) = false := by
          rw [words_cons_blank hc] at hlen
          rw [allBlank_append, Bool.and_eq_false_iff]
          refine .inl (Bool.eq_false_iff.2 fun hb => ?_)
          rw [← words_eq_nil_iff, words_uptoWord hlen, List.take_eq_nil_iff] at hb
          rcases hb with hb | hb
          · cases hb
          · rw [hb] at hlen
            cases hlen
        have hcut := ih (d := c :: (uptoWord (n + 1) r ++ more)) hlen
          (by rw [uptoWord_cons_blank hc]; exact ⟨more, rfl⟩)
        have h1 := dropLastWord_append_blank hc [] hd
        have h2 := dropLastWord_append_blank hc (gap ++ w) hd
        rw [List.nil_append, List.nil_append] at h1
        rw [h1] at hcut
        obtain ⟨more', hmore⟩ := hcut
        refine ⟨more', ?_⟩
        simp only [List.append_assoc, List.cons_append] at h2 hmore ⊢
        rw [h2, hmore]

end Text

namespace Document

/-- the document still begins with a text but for its last `k` words -/
def Keeps (d : Document) (t : Text) (k : Nat) : Prop := t.uptoWord (t.words.length - k) <+: d.text

theorem keeps_start (t : Text) : Keeps { text := t } t 0 := Text.uptoWord_prefix _ t

/-- one tame operation: a word is lost only where one is deleted -/
theorem keeps_apply {d : Document} {t : Text} {k : Nat} (h : d.Keeps t k) {op : Operation}
    (hop : op.isTame = true) : (d.apply op).Keeps t (k + [op].count .deleteLastWord) := by
  cases op with
  | format s a => exact h
  | insertText u => exact h.trans (List.prefix_append _ _)
  | insertNewLine => exact h.trans (List.prefix_append _ _)
  | insertNewParagraph => exact h.trans (List.prefix_append _ _)
  | deleteLastWord =>
    show t.uptoWord (t.words.length - (k + 1)) <+: d.text.dropLastWord
    by_cases hk : k < t.words.length
    · refine Text.uptoWord_dropLastWord (by omega) ?_
      rw [show t.words.length - (k + 1) + 1 = t.words.length - k by omega]
      exact h
    · rw [show t.words.length - (k + 1) = 0 by omega]
      exact List.nil_prefix
  | deleteLastSentence => cases hop
  | undo => cases hop
  | redo => cases hop

theorem keeps_applyAll {d : Document} {t : Text} {k : Nat} (h : d.Keeps t k)
    {ops : List Operation} (hops : ∀ op ∈ ops, op.isTame = true) :
    (d.applyAll ops).Keeps t (k + ops.count .deleteLastWord) := by
  induction ops generalizing d k with
  | nil => exact h
  | cons op ops ih =>
    have hstep := keeps_apply h (hops op List.mem_cons_self)
    have hrest := ih hstep fun op' h' => hops op' (List.mem_cons_of_mem _ h')
    rw [applyAll_cons]
    rwa [Nat.add_assoc, ← List.count_append, List.singleton_append] at hrest

end Document

/-! ## sessions -/

namespace Session

/-- one way for one text to the document -/
inductive Step where
  /-- a finished utterance, read as one command and sent to the document -/
  | final (ctx : Context) (t : Text)
  /-- an utterance compiled in place -/
  | inline (ctx : Context) (t : Text)
  | transcript (ctx : Context) (t : Text)
  /-- what an utterance behind the gate runs at once -/
  | immediate (ctx : Context) (t : Text)

namespace Step

def operations : Step → List Operation
  | final ctx t => (Dispatch.ofText ctx t).operations
  | inline ctx t => Inline.compile ctx t
  | transcript ctx t => Transcript.compile ctx t
  | immediate ctx t => (Mixed.compile ctx t).immediate

theorem tame_operations (s : Step) : ∀ op ∈ s.operations, op.isTame = true := by
  cases s with
  | final ctx t => exact Dispatch.tame_operations ctx t
  | inline ctx t => exact Inline.tame_compile ctx t
  | transcript ctx t => exact Transcript.tame_compile ctx t
  | immediate ctx t => exact Mixed.tame_immediate ctx t

end Step

def operations (steps : List Step) : List Operation := steps.flatMap Step.operations

def run (d : Document) (steps : List Step) : Document :=
  steps.foldl (fun d s => d.applyAll s.operations) d

theorem run_eq_applyAll (d : Document) (steps : List Step) :
    run d steps = d.applyAll (operations steps) := by
  induction steps generalizing d with
  | nil => rfl
  | cons s steps ih =>
    rw [operations, List.flatMap_cons, Document.applyAll_append]
    exact ih _

theorem tame_of_mem_operations {steps : List Step} {op : Operation} (h : op ∈ operations steps) :
    op.isTame = true := by
  obtain ⟨s, _, hs⟩ := List.mem_flatMap.1 h
  exact s.tame_operations op hs

/-- **No destruction without approval.**  Whatever is dictated on whichever way, no sentence is
deleted and no history is asked for, and the document ends with at most as many of its first words
lost as single words were deleted. -/
theorem run_keeps (t : Text) (steps : List Step) :
    (∀ op ∈ operations steps, op ≠ .deleteLastSentence ∧ op ≠ .undo ∧ op ≠ .redo) ∧
      t.uptoWord (t.words.length - (operations steps).count .deleteLastWord) <+:
        (run { text := t } steps).text := by
  refine ⟨fun op h => (Operation.isTame_iff op).1 (tame_of_mem_operations h), ?_⟩
  have h : (Document.applyAll { text := t } (operations steps)).Keeps t
      (0 + (operations steps).count .deleteLastWord) :=
    Document.keeps_applyAll (Document.keeps_start t) fun op hop => tame_of_mem_operations hop
  rw [Nat.zero_add] at h
  rw [run_eq_applyAll]
  exact h

end Session
end Dictation
