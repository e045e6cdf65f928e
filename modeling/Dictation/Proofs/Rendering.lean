import Dictation.Document
import Dictation.Proofs.Pieces
import Dictation.Proofs.Tiling

/-!
# Transcripts written out

Pieces are written out with one space between a terminator and words.  That is one way to pad them,
so they are read again; and it is how a transcript without commands is rendered.

* `Transcript.written`          pieces written out;
* `Transcript.pieces_written`   they are read again;
* `Transcript.compile_render`   a transcript without commands, compiled and rendered.
-/

namespace Dictation.Transcript

/-! ## writing pieces out -/

/-- the space that a terminator brings before words -/
def gap : List Piece → Text
  | .words _ :: _ => [' ']
  | _ => []

def written : List Piece → Text
  | [] => []
  | .lineEnd :: ps => '\n' :: written ps
  | .terminator c :: ps => c :: (gap ps ++ written ps)
  | .words w :: ps => w ++ written ps

theorem gap_cases (ps : List Piece) : gap ps = [] ∨ gap ps = [' '] := by
  unfold gap
  split
  · exact .inr rfl
  · exact .inl rfl

/-- what is written between pieces is padding -/
theorem padded_written (ps : List Piece) : Padded ps (written ps) := by
  induction ps with
  | nil => exact .nil Text.isPadding_nil
  | cons p ps ih =>
    cases p with
    | lineEnd => exact .cons Text.isPadding_nil ih
    | words w => exact .cons Text.isPadding_nil ih
    | terminator c =>
      have hgap : Text.IsPadding (gap ps) := by
        rcases gap_cases ps with h | h
        · rw [h]
          exact Text.isPadding_nil
        · rw [h]
          exact ⟨by decide, by decide⟩
      exact .cons Text.isPadding_nil (ih.prepend hgap)

/-- **Pieces that are written out are read again.** -/
theorem pieces_written {ps : List Piece} (h : Normal ps) : pieces (written ps) = ps :=
  pieces_of_padded h (padded_written ps)

/-! ## compiling without commands -/

section
variable {ctx : Context} (hcleanup : ctx.cleanup = false)
include hcleanup

/-- words in which no trigger is heard are inserted as they are -/
theorem compile_words {w : Text} (hw : (Piece.words w).Proper)
    (hquiet : ∀ i, ¬ Trigger.Occurs false ctx.triggers w i) :
    Inline.compile ctx w = [.insertText w] := by
  obtain ⟨hne, htrim, -⟩ := hw
  have hblank : w.allBlank = false := by
    rw [Bool.eq_false_iff, ne_eq, ← Text.trim_eq_nil_iff, htrim]
    exact hne
  have hsegments : Segment.ofText ctx w = [⟨0, w, .text⟩] := by
    have hcuts : Segment.Cuts (Segment.lexicon ctx) [] w (Segment.leading 0 w.length w) := by
      refine .rest fun i _ _ => ?_
      show ¬ Trigger.Occurs ctx.cleanup ctx.triggers w i
      rw [hcleanup]
      exact hquiet i
    rw [← Segment.leading_of_ne_nil 0 hne]
    exact Segment.cut_eq_of_cuts hcuts
  rw [Inline.compile, Inline.cleaned, hcleanup, if_neg Bool.false_ne_true, hsegments]
  show Inline.appendText [] (Inline.dictated ctx w) = _
  rw [Inline.dictated, hcleanup, if_neg Bool.false_ne_true, Text.trimRight_of_trim htrim]
  show (if w.allBlank then _ else _) = _
  rw [hblank]
  rfl

/-- **Pieces without commands are rendered as they are written out.** -/
theorem render_ofPieces {ps : List Piece} (hps : ∀ p ∈ ps, p.Proper)
    (hquiet : ∀ p ∈ ps, ∀ i, ¬ Trigger.Occurs false ctx.triggers p.text i) (t : Text) :
    Document.render t (ofPieces ctx ps) = t ++ written ps := by
  induction ps generalizing t with
  | nil => exact (List.append_nil t).symm
  | cons p ps ih =>
    have hrest := ih (fun q hq => hps q (List.mem_cons_of_mem _ hq))
      fun q hq => hquiet q (List.mem_cons_of_mem _ hq)
    cases p with
    | lineEnd =>
      show Document.render (t ++ ['\n']) (ofPieces ctx ps) = _
      rw [hrest, List.append_assoc]
      rfl
    | terminator c =>
      have hgap (u : Text) : Document.render u (spaceBefore ps ++ ofPieces ctx ps) =
          Document.render (u ++ gap ps) (ofPieces ctx ps) := by
        have hnothing : Document.render u (ofPieces ctx ps) =
            Document.render (u ++ []) (ofPieces ctx ps) := by rw [List.append_nil]
        cases ps with
        | nil => exact hnothing
        | cons q qs =>
          cases q with
          | words w => rfl
          | lineEnd => exact hnothing
          | terminator c => exact hnothing
      show Document.render (t ++ [c]) (spaceBefore ps ++ ofPieces ctx ps) = _
      rw [hgap, hrest, List.append_assoc, List.append_assoc]
      rfl
    | words w =>
      have hw := compile_words hcleanup (hps _ List.mem_cons_self) (hquiet _ List.mem_cons_self)
      rw [ofPieces, hw]
      show Document.render (t ++ w) (ofPieces ctx ps) = _
      rw [hrest, List.append_assoc]
      rfl

end

/-- **A transcript without commands, compiled and rendered, is in normal form.**  It has the same
pieces as the transcript and compiles to the same operations, so that rendering it once more changes
nothing; and it is the transcript but for blanks within lines. -/
theorem compile_render (locale : Text) (asked : List Text) (t : Text) (ht : t.allBlank = false)
    (hquiet : ∀ p ∈ pieces t, ∀ i,
      ¬ Trigger.Occurs false (Context.ofOptions locale asked false).triggers p.text i) :
    let ctx := Context.ofOptions locale asked false
    let r := Document.render [] (compile ctx t)
    pieces r = pieces t ∧ compile ctx r = compile ctx t ∧
      Document.render [] (compile ctx r) = r ∧ r.solidLines = t.solidLines := by
  intro ctx r
  have hnormal := normal_pieces t
  have hr : r = written (pieces t) := by
    show Document.render [] (compile ctx t) = _
    rw [compile, ht, if_neg Bool.false_ne_true]
    exact render_ofPieces rfl hnormal.proper hquiet []
  have hpieces : pieces r = pieces t := by rw [hr, pieces_written hnormal]
  have hsolid : r.solidLines = t.solidLines := by
    rw [hr, ← (padded_written (pieces t)).solidLines, (padded_pieces t).solidLines]
  have hblank : r.allBlank = false := by
    rw [← Text.allBlank_solidLines, hsolid, Text.allBlank_solidLines, ht]
  have hcompile : compile ctx r = compile ctx t := by
    rw [compile, compile, hblank, ht, hpieces]
  exact ⟨hpieces, hcompile, congrArg (Document.render []) hcompile, hsolid⟩

/-- two lines with blanks around their sentences -/
theorem two_lines_render :
    Document.render [] (compile Context.default " Hi ,  you ! \r\n\n . So?\tYes".toList) =
        "Hi ,  you!\n\n. So? Yes".toList ∧
      Document.render [] (compile Context.default "Hi ,  you!\n\n. So? Yes".toList) =
        "Hi ,  you!\n\n. So? Yes".toList := by
  have hquiet : ∀ p ∈ pieces " Hi ,  you ! \r\n\n . So?\tYes".toList,
      Trigger.next? false Context.defaultTriggers none p.text = none := by decide +kernel
  have hr : Document.render [] (compile (Context.ofOptions Context.defaultLocale [] false)
      " Hi ,  you ! \r\n\n . So?\tYes".toList) = "Hi ,  you!\n\n. So? Yes".toList := by
    decide +kernel
  obtain ⟨-, -, hrender, -⟩ := compile_render Context.defaultLocale []
    " Hi ,  you ! \r\n\n . So?\tYes".toList (by decide)
    fun p hp => Trigger.not_occurs_of_next? (hquiet p hp)
  rw [hr] at hrender
  exact ⟨hr, hrender⟩

end Dictation.Transcript
