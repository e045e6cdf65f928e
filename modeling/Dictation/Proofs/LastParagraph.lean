import Dictation.Document
import Dictation.Proofs.Json.AsciiLayouts
import Dictation.Proofs.LastSentence
import Dictation.Tool
import Mathlib.Data.List.Infix

/-!
# Sentences of the last paragraph

Deleting the last sentence cuts the last paragraph short and leaves everything before it alone.
The paragraph has a terminator less each time, so that it is gone once the sentence has been deleted
once more than it has terminators.

* `Text.LastParagraph`     a text cut after its last empty line;
* `LastParagraph.dropLastSentence`   one deletion, and the paragraph that is left;
* `iterate_dropLastSentence`   deletion after deletion;
* `Tool.call_findSentenceStart`   the tool that says what would be deleted;
* `Document.delete_within_paragraph`   the whole of it.
-/

namespace Dictation

namespace Text

/-! ## the last empty line -/

/-- an empty line starts at the offset -/
def BreakAt (t : Text) (i : Nat) : Prop := ['\n', '\n'] <+: t.drop i

theorem breakAt_zero (c : Char) (t : Text) :
    BreakAt (c :: t) 0 ↔ (c == '\n' && t.head? == some '\n') = true := by
  rw [BreakAt, List.drop_zero, List.cons_prefix_cons, Bool.and_eq_true, beq_iff_eq, beq_iff_eq]
  cases t with
  | nil => simp
  | cons d t => simp [List.cons_prefix_cons, eq_comm]

theorem not_breakAt_of_lastBreak? {t : Text} (h : lastBreak? t = none) (j : Nat) :
    ¬ BreakAt t j := by
  induction t generalizing j with
  | nil =>
    intro hj
    rw [BreakAt, List.drop_nil] at hj
    exact absurd (List.prefix_nil.1 hj) (List.cons_ne_nil _ _)
  | cons c t ih =>
    rw [lastBreak?] at h
    cases ht : lastBreak? t with
    | some i =>
      rw [ht] at h
      cases h
    | none =>
      rw [ht] at h
      cases j with
      | zero =>
        rw [breakAt_zero]
        intro hc
        rw [hc] at h
        cases h
      | succ j => exact ih ht j

/-- no empty line starts later than the last one -/
theorem breakAt_of_lastBreak? {t : Text} {i : Nat} (h : lastBreak? t = some i) :
    BreakAt t i ∧ ∀ j, BreakAt t j → j ≤ i := by
  induction t generalizing i with
  | nil => cases h
  | cons c t ih =>
    rw [lastBreak?] at h
    cases ht : lastBreak? t with
    | some k =>
      rw [ht] at h
      obtain rfl := Option.some.inj h
      obtain ⟨hk, hlast⟩ := ih ht
      refine ⟨hk, fun j hj => ?_⟩
      cases j with
      | zero => exact Nat.zero_le _
      | succ j => exact Nat.succ_le_succ (hlast j hj)
    | none =>
      rw [ht] at h
      dsimp only at h
      split at h
      · next hc =>
        obtain rfl := Option.some.inj h
        refine ⟨(breakAt_zero c t).2 hc, fun j hj => ?_⟩
        cases j with
        | zero => exact Nat.le_refl _
        | succ j => exact absurd hj (not_breakAt_of_lastBreak? ht j)
      · cases h

/-! ## the last paragraph -/

/-- `last` is what follows the last empty line of the text, all of it if there is none -/
structure LastParagraph (t before last : Text) : Prop where
  split : t = before ++ last
  closed : before = [] ∨ ['\n', '\n'] <:+ before
  latest : ∀ i, BreakAt t i → i + 2 ≤ before.length

theorem breakAt_of_isSuffix {before : Text} (h : ['\n', '\n'] <:+ before) (last : Text) :
    ∃ i, BreakAt (before ++ last) i ∧ i + 2 = before.length := by
  obtain ⟨u, rfl⟩ := h
  refine ⟨u.length, ?_, by rw [List.length_append]; rfl⟩
  rw [BreakAt, List.append_assoc, List.drop_left]
  exact List.prefix_append _ _

theorem lastParagraph_block (t : Text) : LastParagraph t (t.take t.blockStart) t.block := by
  refine ⟨(List.take_append_drop _ _).symm, ?_, fun i hi => ?_⟩
  · cases h : lastBreak? t with
    | none => exact .inl (by rw [blockStart, h]; rfl)
    | some i =>
      obtain ⟨v, hv⟩ := (breakAt_of_lastBreak? h).1
      refine .inr ⟨t.take i, ?_⟩
      rw [blockStart, h]
      show _ = t.take (i + 2)
      rw [List.take_add, ← hv]
      rfl
  · cases h : lastBreak? t with
    | none => exact absurd hi (not_breakAt_of_lastBreak? h i)
    | some k =>
      obtain ⟨hk, hlast⟩ := breakAt_of_lastBreak? h
      have hle := hlast i hi
      have hlen := hk.length_le
      rw [List.length_drop, List.length_cons, List.length_singleton] at hlen
      rw [blockStart, h, List.length_take]
      dsimp only
      omega

namespace LastParagraph

section
variable {t before last : Text} (h : LastParagraph t before last)
include h

theorem blockStart_eq : t.blockStart = before.length := by
  cases hbreak : lastBreak? t with
  | none =>
    rw [blockStart, hbreak]
    rcases h.closed with hnil | hsuffix
    · rw [hnil]
      rfl
    · obtain ⟨i, hi, -⟩ := breakAt_of_isSuffix hsuffix last
      rw [← h.split] at hi
      exact absurd hi (not_breakAt_of_lastBreak? hbreak i)
  | some k =>
    obtain ⟨hk, hlast⟩ := breakAt_of_lastBreak? hbreak
    have hle := h.latest k hk
    rw [blockStart, hbreak]
    dsimp only
    rcases h.closed with hnil | hsuffix
    · rw [hnil] at hle
      cases hle
    · obtain ⟨i, hi, hlen⟩ := breakAt_of_isSuffix hsuffix last
      rw [← h.split] at hi
      have := hlast i hi
      omega

theorem block_eq : t.block = last := by
  rw [block, h.blockStart_eq, h.split, List.drop_left]

/-- **One deletion.**  The paragraph is cut where its last sentence starts. -/
theorem dropLastSentence_eq :
    t.dropLastSentence = before ++ last.take (Sentence.lastStart last) := by
  rw [Text.dropLastSentence, lastSentenceStart, h.block_eq, h.blockStart_eq, h.split,
    List.take_length_add_append]

/-- a paragraph cut short is still the last one -/
theorem of_isPrefix {kept : Text} (hkept : kept <+: last) :
    LastParagraph (before ++ kept) before kept where
  split := rfl
  closed := h.closed
  latest i hi := by
    refine h.latest i (hi.trans ?_)
    rw [h.split]
    exact ((List.prefix_append_right_inj before).2 hkept).drop i

theorem dropLastSentence : LastParagraph t.dropLastSentence before
    (last.take (Sentence.lastStart last)) := by
  rw [h.dropLastSentence_eq]
  exact h.of_isPrefix (List.take_prefix _ _)

end
end LastParagraph
end Text

/-! ## deletion after deletion -/

namespace Sentence

theorem lastStart_lt {t : Text} (h : t ≠ []) : lastStart t < t.length := by
  rcases none_or_exists t with hnone | hmark
  · rw [lastStart_of_none hnone]
    exact List.length_pos_iff.2 h
  · obtain ⟨c, hc, -⟩ := (opens_lastStart hmark).solid
    exact (List.getElem?_eq_some_iff.1 hc).1

/-- the last terminator goes with the last sentence -/
theorem countP_take_lastStart (t : Text) :
    (t.take (lastStart t)).countP isTerminator = t.countP isTerminator - 1 := by
  rcases none_or_exists t with hnone | hmark
  · rw [lastStart_of_none hnone, countP_of_none hnone]
    rfl
  · have hsplit := congrArg (List.countP isTerminator) (List.take_append_drop (lastStart t) t)
    rw [List.countP_append, (opens_lastStart hmark).single] at hsplit
    omega

end Sentence

/-- **Deletion after deletion.**  Once more than the paragraph has terminators, and all of it is
gone; what stands before it is never touched. -/
theorem Text.LastParagraph.iterate_dropLastSentence {t before last : Text}
    (h : t.LastParagraph before last) {n : Nat} (hn : last.countP isTerminator < n) :
    Text.dropLastSentence^[n] t = before := by
  induction n generalizing t last with
  | zero => cases hn
  | succ n ih =>
    have hcount := Sentence.countP_take_lastStart last
    rw [Function.iterate_succ_apply]
    rcases Nat.eq_zero_or_pos n with rfl | hpos
    · have hnone : ∀ x ∈ last, ¬ isTerminator x = true := List.countP_eq_zero.1 (by omega)
      have hstart := Sentence.lastStart_of_none fun x hx => Bool.eq_false_iff.2 (hnone x hx)
      rw [Function.iterate_zero_apply, h.dropLastSentence_eq, hstart]
      exact List.append_nil _
    · exact ih h.dropLastSentence (by omega)

theorem Document.text_applyAll_delete (d : Document) (n : Nat) :
    (d.applyAll (List.replicate n .deleteLastSentence)).text =
      Text.dropLastSentence^[n] d.text := by
  induction n generalizing d with
  | zero => rfl
  | succ n ih => rw [List.replicate_succ, applyAll_cons, ih, Function.iterate_succ_apply]; rfl

/-! ## the tool that says what would be deleted -/

namespace Tool

theorem exact_sentenceJson (block : Text) (cursor : Int) : (sentenceJson block cursor).Exact := by
  refine .obj ?_ ?_
  · simp only [List.map_cons, List.map_nil]
    decide
  · exact List.forall_mem_cons.2 ⟨.int _, List.forall_mem_cons.2 ⟨.str _, by simp⟩⟩

/-- without a cursor it is the end of the block -/
theorem call_findSentenceStart (link : Cause → Option Text) (block : Text) :
    call link .findSentenceStart [(Json.key "block_text", .ofText block)] =
      .ok ⟨(sentenceJson block block.length).write .asciiLine, []⟩ := by
  have hunknown : unknown? .findSentenceStart [(Json.key "block_text", .ofText block)] = none := by
    simp [unknown?, parameters]
  have hblock : Json.get? (Json.key "block_text") [(Json.key "block_text", .ofText block)] =
      some (.ofText block) := by rw [Json.get?, if_pos rfl]
  have hcursor : Json.get? (Json.key "cursor_offset") [(Json.key "block_text", .ofText block)] =
      none := by
    rw [Json.get?, if_neg (by decide)]
    rfl
  have hargument : argument .findSentenceStart [(Json.key "block_text", .ofText block)] =
      .ofText block := by
    rw [argument]
    dsimp only [parameters]
    rw [hblock]
    rfl
  rw [call, hunknown]
  dsimp only [parameters]
  rw [hblock]
  dsimp only
  rw [sentence, hargument, Json.text?_ofText, hcursor]
  rfl

theorem sentenceJson_length (block : Text) : sentenceJson block block.length =
    .record [("start", .ofNat (Sentence.lastStart block)),
      ("sentence", .ofText (block.drop (Sentence.lastStart block)))] := by
  have hclamp : Sentence.clamp block block.length = block.length := by
    unfold Sentence.clamp
    omega
  rw [sentenceJson, Sentence.lastSentence, Sentence.start, hclamp, List.take_length]

end Tool

/-- **Deleting the last sentence.**  The text after the last empty line is cut short at its end, by
the sentence that the tool names for it, and by something unless it is empty; what comes before it
stays, and is what comes before the last paragraph of the new text.  Deleted again and again, all of
the paragraph is gone after one more time than it has terminators, and then nothing changes. -/
theorem Document.delete_within_paragraph (d : Document) :
    ∃ before last, d.text.LastParagraph before last ∧
      ∃ kept removed, last = kept ++ removed ∧ (last ≠ [] → removed ≠ []) ∧
        (d.apply .deleteLastSentence).text = before ++ kept ∧
        (d.apply .deleteLastSentence).text.LastParagraph before kept ∧
        (∀ link, ∃ answer,
          Tool.call link .findSentenceStart [(Json.key "block_text", .ofText last)] =
            .ok ⟨answer, []⟩ ∧ answer.Ascii ∧
          Json.read? answer =
            some (.record [("start", .ofNat kept.length), ("sentence", .ofText removed)])) ∧
        ∀ n, last.countP isTerminator + 1 ≤ n →
          (d.applyAll (List.replicate n .deleteLastSentence)).text = before := by
  have h := Text.lastParagraph_block d.text
  generalize d.text.take d.text.blockStart = before at h
  generalize d.text.block = last at h
  have hkept : (last.take (Sentence.lastStart last)).length = Sentence.lastStart last :=
    List.length_take_of_le (Sentence.lastStart_le last)
  refine ⟨before, last, h, _, _, (List.take_append_drop (Sentence.lastStart last) last).symm,
    fun hne => ?_, h.dropLastSentence_eq, h.dropLastSentence, fun link => ?_, fun n hn => ?_⟩
  · intro hnil
    have := Sentence.lastStart_lt hne
    rw [List.drop_eq_nil_iff] at hnil
    omega
  · have hexact := Tool.exact_sentenceJson last last.length
    refine ⟨_, Tool.call_findSentenceStart link last, hexact.ascii_writeAt rfl 0, ?_⟩
    rw [Json.read?_write hexact, Tool.sentenceJson_length, hkept]
  · rw [text_applyAll_delete]
    exact h.iterate_dropLastSentence hn

end Dictation
