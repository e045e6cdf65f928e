import Dictation.Proofs.Tiling
import Dictation.Transcript

/-!
# Contexts that read alike

What a context makes of an utterance depends on three things only: whether it cleans up, how it cuts
the utterance into segments, and what it replies to the commands among them.

* `Context.Alike`    two contexts agree on the three for a text;
* `compile_congr`    then the compilers agree on it;
* `Segment.cut_congr`   lexicons that find the same triggers and match the same phrases cut alike.
-/

namespace Dictation

/-- two contexts cut a text alike and reply alike to the commands in it -/
structure Context.Alike (ctx ctx' : Context) (t : Text) : Prop where
  cleanup : ctx.cleanup = ctx'.cleanup
  segments : Segment.ofText ctx t = Segment.ofText ctx' t
  replies : ∀ s ∈ Segment.ofText ctx t, ∀ trigger phrase corrected,
    s.kind = .command trigger phrase corrected →
      Command.interpret ctx (Inline.spoken trigger phrase) =
        Command.interpret ctx' (Inline.spoken trigger phrase)

section
variable {ctx ctx' : Context} {t : Text}

theorem Inline.cleaned_congr (h : ctx.cleanup = ctx'.cleanup) (t : Text) :
    cleaned ctx t = cleaned ctx' t := by
  rw [cleaned, cleaned, h]

theorem Inline.compile_congr (h : ctx.Alike ctx' (cleaned ctx t)) :
    compile ctx t = compile ctx' t := by
  rw [compile, compile, ← cleaned_congr h.cleanup, ← h.segments]
  refine List.foldl_ext _ _ _ fun ops s hs => ?_
  unfold step
  cases hk : s.kind with
  | text =>
    dsimp only
    rw [dictated, dictated, h.cleanup]
  | command trigger phrase corrected =>
    dsimp only
    rw [h.replies s hs _ _ _ hk]
  | trigger => rfl

theorem Chunk.ofText_congr (h : ctx.Alike ctx' t) : ofText ctx t = ofText ctx' t := by
  rw [ofText, ofText, ← h.segments]
  refine List.flatMap_congr fun s hs => ?_
  unfold ofSegment
  cases hk : s.kind with
  | text =>
    dsimp only
    rw [dictated, dictated, h.cleanup]
  | command trigger phrase corrected =>
    dsimp only
    rw [h.replies s hs _ _ _ hk]
  | trigger => rfl

theorem Mixed.compile_congr (h : ctx.Alike ctx' (Inline.cleaned ctx t)) :
    compile ctx t = compile ctx' t := by
  rw [compile, compile, ← Inline.cleaned_congr h.cleanup, ← Chunk.ofText_congr h, ofChunks,
    ofChunks, h.cleanup]

theorem Transcript.compile_congr
    (h : ∀ u, .words u ∈ pieces t → Inline.compile ctx u = Inline.compile ctx' u) :
    compile ctx t = compile ctx' t := by
  have hpieces (ps : List Piece) (hps : ∀ p ∈ ps, p ∈ pieces t) :
      ofPieces ctx ps = ofPieces ctx' ps := by
    induction ps with
    | nil => rfl
    | cons p ps ih =>
      obtain ⟨hp, hrest⟩ := List.forall_mem_cons.1 hps
      cases p with
      | lineEnd => rw [ofPieces, ofPieces, ih hrest]
      | terminator c => rw [ofPieces, ofPieces, ih hrest]
      | words u => rw [ofPieces, ofPieces, ih hrest, h u hp]
  rw [compile, compile, hpieces _ fun _ hp => hp]

end

/-! ## lexicons that find alike -/

theorem Trigger.next?_congr {lenient lenient' : Bool} {triggers triggers' : List Text}
    (h : ∀ before t, tailAt? lenient before t triggers = tailAt? lenient' before t triggers')
    (before : Option Char) (t : Text) :
    next? lenient triggers before t = next? lenient' triggers' before t := by
  induction t generalizing before with
  | nil => rfl
  | cons c t ih => rw [next?, next?, h, ih]

namespace Segment

theorem cut_congr {lx lx' : Lexicon}
    (htail : ∀ before t, Trigger.tailAt? lx.lenient before t lx.triggers =
      Trigger.tailAt? lx'.lenient before t lx'.triggers)
    (hmatch : ∀ t, Phrase.match? lx t = Phrase.match? lx' t) (offset : Nat)
    (before : Option Char) (t : Text) : cut lx offset before t = cut lx' offset before t := by
  have hnext := Trigger.next?_congr htail
  have hat (offset n : Nat) (t : Text) : atTrigger lx offset n t = atTrigger lx' offset n t := by
    rw [atTrigger, atTrigger, hmatch]
  induction offset, before, t using cut.induct lx with
  | case1 offset before t hn => rw [cut_of_none hn, cut_of_none (hnext before t ▸ hn)]
  | case2 offset before t hit hn rest s ih =>
    rw [cut_of_next? hn, cut_of_next? (hnext before t ▸ hn)]
    dsimp only
    rw [← hat, ih]

end Segment
end Dictation
