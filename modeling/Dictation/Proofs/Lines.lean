import Dictation.Proofs.Pieces
import Mathlib.Data.List.Basic

/-!
# The lines of a transcript

A transcript is compiled line by line, and blanks beside a cut make no difference to it.  Both are
facts about pieces first: padding beside a cut belongs to no piece, and what the pieces before a line
end compile to does not depend on those after it.

* `Transcript.pieces_padding`           padding beside a cut, or at an end of the text;
* `Text.withoutReturns`                 line ends without the carriage returns before them;
* `Transcript.compile_ignores_padding`  neither makes a difference;
* `Transcript.ofPieces_append_lineEnd`  pieces on either side of a line end;
* `Transcript.compile_line_by_line`     a transcript and its lines.
-/

namespace Dictation

/-- a carriage return and a line feed written as a line feed -/
def Text.withoutReturns : Text → Text
  | [] => []
  | c :: r =>
    if c == '\r' && r.head? == some '\n' then withoutReturns r else c :: withoutReturns r

example : Text.withoutReturns "a\r\nb\rc\r\r\n".toList = "a\nb\rc\r\n".toList := by decide

namespace Transcript

/-! ## padding beside a cut -/

section
variable {u w v : Text}

/-- **Padding belongs to no piece if there is a cut or an end on one side of it.** -/
theorem pieces_padding (hw : w.IsPadding)
    (hcut : u.getLast?.all isCut = true ∨ v.head?.all isCut = true) :
    pieces (u ++ w ++ v) = pieces (u ++ v) := by
  rcases hcut with hu | hv
  · rcases List.eq_nil_or_concat' u with rfl | ⟨s, c, rfl⟩
    · exact pieces_padding_append hw v
    · rw [List.getLast?_concat] at hu
      have hc : isCut c = true := hu
      rw [List.append_assoc, ← List.append_cons, ← List.append_cons, pieces_append_cut hc,
        pieces_append_cut hc, pieces_padding_append hw]
  · cases v with
    | nil =>
      rw [List.append_nil, List.append_nil]
      exact pieces_append_padding hw u
    | cons c r =>
      have hc : isCut c = true := hv
      rw [pieces_append_cut hc, pieces_append_cut hc, pieces_append_padding hw]

theorem compile_padding (ctx : Context) (hw : w.IsPadding)
    (hcut : u.getLast?.all isCut = true ∨ v.head?.all isCut = true) :
    compile ctx (u ++ w ++ v) = compile ctx (u ++ v) := by
  have hblank : Text.allBlank (u ++ w ++ v) = Text.allBlank (u ++ v) := by
    rw [Text.allBlank_append, Text.allBlank_append, hw.blank, Bool.and_true, Text.allBlank_append]
  rw [compile, compile, hblank, pieces_padding hw hcut]

/-- a carriage return before a line end is padding before a cut -/
theorem compile_append_withoutReturns (ctx : Context) (done t : Text) :
    compile ctx (done ++ t.withoutReturns) = compile ctx (done ++ t) := by
  induction t generalizing done with
  | nil => rfl
  | cons c r ih =>
    rw [Text.withoutReturns]
    split
    · next hreturn =>
      rw [Bool.and_eq_true, beq_iff_eq, beq_iff_eq] at hreturn
      obtain ⟨rfl, hline⟩ := hreturn
      have hcut : r.head?.all isCut = true := by
        rw [hline]
        rfl
      have hpadding : Text.IsPadding ['\r'] := ⟨by decide, by decide⟩
      rw [ih, List.append_cons, compile_padding ctx hpadding (.inr hcut)]
    · rw [List.append_cons, ih, ← List.append_cons]

end

/-- **Padding makes no difference at a cut.**  A transcript compiles to the same operations with blanks
put in behind a line end, behind a terminator or at the start, and before a line end, before a
terminator or at the end.  So carriage returns before line ends make no difference. -/
theorem compile_ignores_padding (ctx : Context) :
    (∀ u w v : Text, w.IsPadding → (u.getLast?.all isCut = true ∨ v.head?.all isCut = true) →
        compile ctx (u ++ w ++ v) = compile ctx (u ++ v)) ∧
      ∀ t : Text, compile ctx t.withoutReturns = compile ctx t :=
  ⟨fun _ _ _ => compile_padding ctx, compile_append_withoutReturns ctx []⟩

/-- blanks and a carriage return behind a terminator and before a line end -/
theorem blanks_behind_sentence :
    Text.IsPadding " \t\r".toList ∧
      compile Context.default "Hi. \t\r\nthere".toList =
        compile Context.default "Hi.\nthere".toList :=
  have hw : Text.IsPadding " \t\r".toList := ⟨by decide, by decide⟩
  ⟨hw, (compile_ignores_padding Context.default).1 "Hi.".toList " \t\r".toList "\nthere".toList hw
    (.inl (by decide))⟩

/-! ## line by line -/

section
variable {ctx : Context} {t : Text}

/-- the look-ahead for a space stops at a line end -/
theorem ofPieces_append_lineEnd (ctx : Context) (ps qs : List Piece) :
    ofPieces ctx (ps ++ .lineEnd :: qs) =
      ofPieces ctx ps ++ .insertText ['\n'] :: ofPieces ctx qs := by
  have hspace (ps : List Piece) : spaceBefore (ps ++ .lineEnd :: qs) = spaceBefore ps := by
    cases ps with
    | nil => rfl
    | cons p ps => cases p <;> rfl
  induction ps with
  | nil => rfl
  | cons p ps ih =>
    rw [List.cons_append]
    cases p with
    | lineEnd => rw [ofPieces, ih, ofPieces, List.cons_append]
    | terminator c =>
      rw [ofPieces, ih, hspace, ofPieces, List.append_assoc]
    | words w => rw [ofPieces, ih, ofPieces, List.append_assoc]

theorem ofPieces_pieces_lineEnd (ctx : Context) (a b : Text) :
    ofPieces ctx (pieces (a ++ '\n' :: b)) =
      ofPieces ctx (pieces a) ++ .insertText ['\n'] :: ofPieces ctx (pieces b) := by
  rw [pieces_append_cut (by decide)]
  exact ofPieces_append_lineEnd ctx (pieces a) (pieces b)

theorem compile_of_not_blank (h : t.allBlank = false) :
    compile ctx t = ofPieces ctx (pieces t) := by
  rw [compile, h, if_neg Bool.false_ne_true]

/-- a blank line has no pieces, so that skipping it makes no difference -/
theorem compile_of_line (h : '\n' ∉ t) : compile ctx t = ofPieces ctx (pieces t) := by
  cases hb : t.allBlank with
  | false => exact compile_of_not_blank hb
  | true =>
    have hpieces : pieces (t ++ []) = pieces [] := pieces_padding_append ⟨hb, h⟩ []
    rw [List.append_nil] at hpieces
    rw [compile, hb, if_pos rfl, hpieces]
    rfl

/-- the pieces of a text are those of its lines -/
theorem ofPieces_pieces (ctx : Context) (t : Text) : ofPieces ctx (pieces t) =
    [Operation.insertText ['\n']].intercalate ((t.splitOn '\n').map (compile ctx)) := by
  have hline {s : Text} (hs : ∀ x ∈ s, (x == '\n') = false) : '\n' ∉ s := fun hm => by
    cases hs _ hm
  induction t using Text.first_induction (· == '\n') with
  | hnone s hs =>
    rw [List.splitOn_eq_singleton (hline hs), List.map_singleton, List.intercalate_singleton,
      compile_of_line (hline hs)]
  | hfirst s c r hs hc ih =>
    obtain rfl : c = '\n' := eq_of_beq hc
    have hrest : (r.splitOn '\n').map (compile ctx) ≠ [] := by
      rw [ne_eq, List.map_eq_nil_iff]
      exact List.splitOn_ne_nil '\n' r
    rw [ofPieces_pieces_lineEnd, ih, List.splitOn_append_cons_self_of_not_mem (hline hs),
      List.map_cons, List.intercalate_cons_of_ne_nil hrest, compile_of_line (hline hs),
      List.append_assoc]
    rfl

end

/-- **A transcript compiles line by line.**  Of two texts that are not blank, with a line end between
them, each compiles as it does alone.  Every transcript that is not blank compiles to what its lines
compile to, blank ones included, with line feeds inserted between them. -/
theorem compile_line_by_line (ctx : Context) :
    (∀ a b : Text, a.allBlank = false → b.allBlank = false →
        compile ctx (a ++ ['\n'] ++ b) =
          compile ctx a ++ [.insertText ['\n']] ++ compile ctx b) ∧
      ∀ t : Text, t.allBlank = false → compile ctx t =
        [Operation.insertText ['\n']].intercalate ((t.splitOn '\n').map (compile ctx)) := by
  refine ⟨fun a b ha hb => ?_, fun t ht => ?_⟩
  · have hblank : Text.allBlank (a ++ ['\n'] ++ b) = false := by
      rw [Text.allBlank_append, hb, Bool.and_false]
    rw [compile_of_not_blank hblank, compile_of_not_blank ha, compile_of_not_blank hb,
      List.append_assoc, List.singleton_append, ofPieces_pieces_lineEnd, List.append_assoc]
    rfl
  · rw [compile_of_not_blank ht, ofPieces_pieces]

/-- a trigger at the end of a line and a command phrase at the start of the next one -/
theorem trigger_before_line_end :
    compile Context.default "hey voicemark\ncomma there.".toList =
      [.insertText "hey".toList, .insertText " voicemark ".toList, .insertText ['\n'],
        .insertText "comma there".toList, .insertText ['.']] := by
  have hlines := (compile_line_by_line Context.default).1 "hey voicemark".toList
    "comma there.".toList (by decide) (by decide)
  have hfirst : compile Context.default "hey voicemark".toList =
      [.insertText "hey".toList, .insertText " voicemark ".toList] := by decide +kernel
  have hsecond : compile Context.default "comma there.".toList =
      [.insertText "comma there".toList, .insertText ['.']] := by decide +kernel
  rw [hfirst, hsecond] at hlines
  exact hlines

end Transcript
end Dictation
