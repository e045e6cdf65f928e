import Dictation.Proofs.Text.Ends
import Dictation.Transcript
import Mathlib.Data.List.Chain

/-!
# The pieces of a transcript

A line end or a terminator parts the pieces before it from the pieces after it, and a text in which
neither stands is at most one piece.  Every fact about pieces follows from these two.

* `Transcript.pieces_append_cut`   the first of the two; `cut_cases`: a text with or without a cut,
                                   `cut_induction`: from cut to cut;
* `Transcript.Normal`              pieces that a cut can leave;
* `Transcript.Padded`              a text is pieces with padding around them;
* `Transcript.pieces_lossless`     the pieces of a text are the ones in normal form that make it up.
-/

namespace Dictation

namespace Text

/-! ## all but the blanks within lines -/

/-- the characters that are not blank, and the line ends -/
def solidLines (t : Text) : Text := t.filter fun c => c == '\n' || !isBlank c

/-- blanks within a line -/
structure IsPadding (w : Text) : Prop where
  blank : w.allBlank = true
  inLine : '\n' ∉ w

section
variable {s t : Text}

theorem solidLines_append (s t : Text) : solidLines (s ++ t) = solidLines s ++ solidLines t :=
  List.filter_append s t

theorem IsPadding.solidLines (h : IsPadding t) : solidLines t = [] := by
  rw [Text.solidLines, List.filter_eq_nil_iff]
  intro c hc
  have hne : c ≠ '\n' := fun heq => h.inLine (heq ▸ hc)
  rw [isBlank_of_mem h.blank hc, beq_eq_false_iff_ne.2 hne]
  exact Bool.false_ne_true

theorem isPadding_nil : IsPadding [] := ⟨rfl, List.not_mem_nil⟩

theorem IsPadding.append (hs : IsPadding s) (ht : IsPadding t) : IsPadding (s ++ t) where
  blank := by rw [allBlank_append, hs.blank, ht.blank]; rfl
  inLine h := (List.mem_append.1 h).elim hs.inLine ht.inLine

/-- a line is what trimming leaves, and padding on either side of it -/
theorem exists_padding_of_trim (hline : '\n' ∉ t) : ∃ lead tail, t = lead ++ (trim t ++ tail) ∧
    IsPadding lead ∧ IsPadding tail := by
  obtain ⟨lead, tail, ht, hlead, htail⟩ := exists_of_trim t
  rw [ht, List.mem_append, List.mem_append, not_or, not_or] at hline
  exact ⟨lead, tail, ht, ⟨hlead, hline.1⟩, htail, hline.2.2⟩

theorem allBlank_solidLines (t : Text) : allBlank (solidLines t) = allBlank t := by
  rw [Bool.eq_iff_iff, allBlank, allBlank, List.all_eq_true, List.all_eq_true]
  constructor
  · intro h c hc
    by_contra hblank
    exact hblank (h c (List.mem_filter.2 ⟨hc, by simp [hblank]⟩))
  · exact fun h c hc => h c (List.mem_of_mem_filter hc)

end
end Text

namespace Transcript

/-! ## cuts -/

/-- a character at which a transcript is cut -/
def isCut (c : Char) : Bool := c == '\n' || isTerminator c

def Piece.ofCut (c : Char) : Piece := if c == '\n' then .lineEnd else .terminator c

/-- no cut stands in the text -/
def Uncut (t : Text) : Prop := ∀ c ∈ t, isCut c = false

section
variable {c : Char} {run s t u : Text}

theorem Piece.text_ofCut (c : Char) : (ofCut c).text = [c] := by
  unfold ofCut
  split
  · next h => rw [eq_of_beq h]; rfl
  · rfl

theorem Piece.isWords_ofCut (c : Char) : (ofCut c).isWords = false := by
  unfold ofCut
  split
  · rfl
  · rfl

theorem Uncut.line_not_mem (h : Uncut t) : '\n' ∉ t := fun hm => by
  have := h _ hm
  exact absurd this (by decide)

theorem piecesAfter_cons_cut (h : isCut c = true) (run r : Text) :
    piecesAfter run (c :: r) = Piece.ofRun run ++ Piece.ofCut c :: pieces r := by
  rw [piecesAfter, Piece.ofCut, pieces]
  cases hline : c == '\n' with
  | true => rfl
  | false =>
    rw [isCut, hline, Bool.false_or] at h
    rw [h]
    rfl

theorem piecesAfter_cons (h : isCut c = false) (run r : Text) :
    piecesAfter run (c :: r) = piecesAfter (run ++ [c]) r := by
  rw [isCut, Bool.or_eq_false_iff] at h
  rw [piecesAfter, h.1, h.2]
  rfl

/-- **A cut parts the pieces before it from the pieces after it.** -/
theorem pieces_append_cut (h : isCut c = true) (s r : Text) :
    pieces (s ++ c :: r) = pieces s ++ Piece.ofCut c :: pieces r := by
  have hall (run : Text) :
      piecesAfter run (s ++ c :: r) = piecesAfter run s ++ Piece.ofCut c :: pieces r := by
    induction s generalizing run with
    | nil => exact piecesAfter_cons_cut h run r
    | cons x s ih =>
      rw [List.cons_append]
      cases hx : isCut x with
      | true =>
        rw [piecesAfter_cons_cut hx, piecesAfter_cons_cut hx, pieces, ih, List.append_assoc]
        rfl
      | false => rw [piecesAfter_cons hx, piecesAfter_cons hx, ih]
  exact hall []

theorem pieces_cons_cut (h : isCut c = true) (r : Text) :
    pieces (c :: r) = Piece.ofCut c :: pieces r := piecesAfter_cons_cut h [] r

theorem pieces_of_uncut (h : Uncut s) : pieces s = Piece.ofRun s := by
  have hall (run : Text) : piecesAfter run s = Piece.ofRun (run ++ s) := by
    induction s generalizing run with
    | nil => rw [List.append_nil]; rfl
    | cons x s ih =>
      rw [piecesAfter_cons (h x List.mem_cons_self), ih fun y hy => h y (List.mem_cons_of_mem _ hy),
        List.append_assoc]
      rfl
  exact hall []

/-- a text is uncut, or an uncut text and a cut stand before the rest -/
theorem cut_cases (t : Text) :
    Uncut t ∨ ∃ s c r, t = s ++ c :: r ∧ Uncut s ∧ isCut c = true :=
  Text.first_cases isCut t

/-- from cut to cut -/
theorem cut_induction {P : Text → Prop} (huncut : ∀ s, Uncut s → P s)
    (hcut : ∀ s c r, Uncut s → isCut c = true → P r → P (s ++ c :: r)) (t : Text) : P t :=
  Text.first_induction isCut huncut hcut t

/-! ## what a cut can leave -/

/-- words have no blank at their ends and no cut within -/
def Piece.Proper : Piece → Prop
  | .lineEnd => True
  | .terminator c => isTerminator c = true
  | .words w => w ≠ [] ∧ w.trim = w ∧ Uncut w

/-- words do not follow words -/
def Piece.Apart (p q : Piece) : Prop := p.isWords = true → q.isWords = false

structure Normal (ps : List Piece) : Prop where
  proper : ∀ p ∈ ps, p.Proper
  apart : ps.IsChain Piece.Apart

theorem Piece.proper_ofCut (h : isCut c = true) : (ofCut c).Proper := by
  unfold ofCut
  split
  · trivial
  · next hline =>
    rw [isCut, Bool.eq_false_iff.2 hline, Bool.false_or] at h
    exact h

theorem Piece.ofRun_cases (s : Text) :
    (s.allBlank = true ∧ ofRun s = []) ∨ (s.allBlank = false ∧ ofRun s = [.words s.trim]) := by
  unfold ofRun
  cases hb : s.allBlank with
  | true =>
    rw [(Text.trim_eq_nil_iff s).2 hb]
    exact .inl ⟨rfl, rfl⟩
  | false =>
    have hne : s.trim ≠ [] := by
      rw [ne_eq, Text.trim_eq_nil_iff, hb]
      exact Bool.false_ne_true
    rw [List.isEmpty_eq_false_iff.2 hne]
    exact .inr ⟨rfl, rfl⟩

theorem Piece.ofRun_of_proper {w : Text} (h : (Piece.words w).Proper) : ofRun w = [.words w] := by
  obtain ⟨hne, htrim, -⟩ := h
  rw [ofRun, htrim, List.isEmpty_eq_false_iff.2 hne, if_neg Bool.false_ne_true]

/-- a piece that is not words is that of a cut -/
theorem Piece.exists_cut {p : Piece} (hp : p.Proper) (hwords : p.isWords = false) :
    ∃ c, isCut c = true ∧ p = ofCut c := by
  cases p with
  | lineEnd => exact ⟨'\n', by decide, rfl⟩
  | words w => cases hwords
  | terminator c =>
    have hterm : isTerminator c = true := hp
    have hline : (c == '\n') = false := by
      rw [beq_eq_false_iff_ne]
      rintro rfl
      exact absurd hterm (by decide)
    exact ⟨c, by rw [isCut, hterm, Bool.or_true], by rw [ofCut, hline]; rfl⟩

theorem normal_cons_cut {ps : List Piece} (hc : isCut c = true) (h : Normal ps) :
    Normal (Piece.ofCut c :: ps) where
  proper := List.forall_mem_cons.2 ⟨Piece.proper_ofCut hc, h.proper⟩
  apart := by
    refine List.isChain_cons.2 ⟨fun p _ hw => ?_, h.apart⟩
    rw [Piece.isWords_ofCut] at hw
    cases hw

/-- words before a cut, or before the end -/
theorem normal_ofRun_append {ps : List Piece} (hs : Uncut s) (h : Normal ps)
    (hhead : ∀ p ∈ ps.head?, p.isWords = false) : Normal (Piece.ofRun s ++ ps) := by
  rcases Piece.ofRun_cases s with ⟨-, hrun⟩ | ⟨hb, hrun⟩
  · rw [hrun]
    exact h
  · have hproper : (Piece.words s.trim).Proper := by
      refine ⟨?_, Text.trim_trim s, ?_⟩
      · rw [ne_eq, Text.trim_eq_nil_iff, hb]
        exact Bool.false_ne_true
      · obtain ⟨lead, tail, ht, -, -⟩ := Text.exists_of_trim s
        intro c hc
        refine hs c ?_
        rw [ht]
        exact List.mem_append_right _ (List.mem_append_left _ hc)
    rw [hrun, List.singleton_append]
    exact ⟨List.forall_mem_cons.2 ⟨hproper, h.proper⟩,
      List.isChain_cons.2 ⟨fun p hp _ => hhead p hp, h.apart⟩⟩

/-- **The pieces of every text are in normal form.** -/
theorem normal_pieces (t : Text) : Normal (pieces t) := by
  have hnil : Normal [] := ⟨fun p hp => absurd hp List.not_mem_nil, .nil⟩
  induction t using cut_induction with
  | huncut s hs =>
    have h := normal_ofRun_append hs hnil fun p hp => by cases hp
    rw [List.append_nil] at h
    rwa [pieces_of_uncut hs]
  | hcut s c r hs hc ih =>
    rw [pieces_append_cut hc, pieces_of_uncut hs]
    refine normal_ofRun_append hs (normal_cons_cut hc ih) fun p hp => ?_
    obtain rfl : Piece.ofCut c = p := Option.some.inj hp
    exact Piece.isWords_ofCut c

/-! ## padding -/

/-- a text is its pieces in order, with padding before, between and after them -/
inductive Padded : List Piece → Text → Prop
  | nil {w : Text} (hw : w.IsPadding) : Padded [] w
  | cons {w : Text} {p : Piece} {ps : List Piece} {r : Text} (hw : w.IsPadding)
      (hr : Padded ps r) : Padded (p :: ps) (w ++ (p.text ++ r))

theorem Padded.prepend {w : Text} {ps : List Piece} (hw : w.IsPadding) (h : Padded ps t) :
    Padded ps (w ++ t) := by
  cases h with
  | nil ht => exact .nil (hw.append ht)
  | cons hw' hr =>
    rw [← List.append_assoc]
    exact .cons (hw.append hw') hr

theorem uncut_of_padding {w : Text} (hw : w.IsPadding) : Uncut w := by
  intro c hc
  have hline : (c == '\n') = false := beq_eq_false_iff_ne.2 fun heq => hw.inLine (heq ▸ hc)
  have hterm : isTerminator c = false := by
    rw [Bool.eq_false_iff]
    intro h
    have hblank := Text.isBlank_of_mem hw.blank hc
    simp only [isTerminator, terminators, List.contains_iff_mem, List.mem_cons,
      List.not_mem_nil, or_false] at h
    rcases h with rfl | rfl | rfl <;> exact absurd hblank (by decide)
  rw [isCut, hline, hterm]
  rfl

theorem Uncut.append (hs : Uncut s) (ht : Uncut t) : Uncut (s ++ t) :=
  fun c hc => (List.mem_append.1 hc).elim (hs c) (ht c)

/-- padding before a text belongs to no piece -/
theorem pieces_padding_append {w : Text} (hw : w.IsPadding) (t : Text) :
    pieces (w ++ t) = pieces t := by
  have hrun {s : Text} (hs : Uncut s) : pieces (w ++ s) = pieces s := by
    rw [pieces_of_uncut hs, pieces_of_uncut ((uncut_of_padding hw).append hs), Piece.ofRun,
      Text.trim_gap_append hw.blank, Piece.ofRun]
  rcases cut_cases t with ht | ⟨s, c, r, rfl, hs, hc⟩
  · exact hrun ht
  · rw [← List.append_assoc, pieces_append_cut hc, pieces_append_cut hc, hrun hs]

/-- nor does padding after it -/
theorem pieces_append_padding {w : Text} (hw : w.IsPadding) (t : Text) :
    pieces (t ++ w) = pieces t := by
  induction t using cut_induction with
  | huncut s hs =>
    rw [pieces_of_uncut hs, pieces_of_uncut (hs.append (uncut_of_padding hw)), Piece.ofRun,
      Text.trim_append_gap hw.blank, Piece.ofRun]
  | hcut s c r hs hc ih =>
    rw [List.append_assoc, List.cons_append, pieces_append_cut hc, pieces_append_cut hc, ih]

/-- a run is one piece with padding on either side of it, or padding -/
theorem padded_ofRun_append {ps : List Piece} (hs : Uncut s)
    (h : ∀ w : Text, w.IsPadding → Padded ps (w ++ t)) : Padded (Piece.ofRun s ++ ps) (s ++ t) := by
  rcases Piece.ofRun_cases s with ⟨hb, hrun⟩ | ⟨-, hrun⟩
  · rw [hrun]
    exact h s ⟨hb, hs.line_not_mem⟩
  · obtain ⟨lead, tail, hsplit, hlead, htail⟩ := Text.exists_padding_of_trim hs.line_not_mem
    have happend : s ++ t = lead ++ ((Piece.words s.trim).text ++ (tail ++ t)) := by
      conv_lhs => rw [hsplit]
      rw [List.append_assoc, List.append_assoc]
      rfl
    rw [hrun, happend]
    exact .cons hlead (h tail htail)

/-- **A text is its pieces with padding around them.** -/
theorem padded_pieces (t : Text) : Padded (pieces t) t := by
  induction t using cut_induction with
  | huncut s hs =>
    have h : Padded (Piece.ofRun s ++ []) (s ++ []) := by
      refine padded_ofRun_append hs fun w hw => ?_
      rw [List.append_nil]
      exact .nil hw
    rw [List.append_nil, List.append_nil] at h
    rwa [pieces_of_uncut hs]
  | hcut s c r hs hc ih =>
    rw [pieces_append_cut hc, pieces_of_uncut hs]
    refine padded_ofRun_append hs fun w hw => ?_
    have h : Padded (Piece.ofCut c :: pieces r) (w ++ ((Piece.ofCut c).text ++ r)) := .cons hw ih
    rwa [Piece.text_ofCut] at h

/-- **Pieces in normal form are read again, whatever padding is around them.** -/
theorem pieces_of_padded {ps : List Piece} (h : Normal ps) (hpadded : Padded ps t) :
    pieces t = ps := by
  induction hpadded with
  | nil hw => exact pieces_append_padding hw []
  | @cons w p ps r hw hr ih =>
    have hproper := h.proper p List.mem_cons_self
    have hrest : pieces r = ps :=
      ih ⟨fun q hq => h.proper q (List.mem_cons_of_mem _ hq), h.apart.tail⟩
    rw [pieces_padding_append hw]
    cases hwords : p.isWords with
    | false =>
      obtain ⟨c, hc, rfl⟩ := Piece.exists_cut hproper hwords
      rw [Piece.text_ofCut, List.singleton_append, pieces_cons_cut hc, hrest]
    | true =>
      have hword : pieces p.text = [p] := by
        cases p with
        | words v => exact (pieces_of_uncut hproper.2.2).trans (Piece.ofRun_of_proper hproper)
        | lineEnd => cases hwords
        | terminator c => cases hwords
      -- what follows words is padding and a cut, or padding and the end
      cases hr with
      | nil hw' => rw [pieces_append_padding hw', hword]
      | @cons w' q qs r' hw' hr' =>
        have hq : q.isWords = false := (List.isChain_cons.1 h.apart).1 q rfl hwords
        obtain ⟨c, hc, rfl⟩ :=
          Piece.exists_cut (h.proper q (List.mem_cons_of_mem _ List.mem_cons_self)) hq
        rw [Piece.text_ofCut, List.singleton_append] at hrest ⊢
        rw [pieces_padding_append hw', pieces_cons_cut hc] at hrest
        rw [← List.append_assoc, pieces_append_cut hc, pieces_append_padding hw', hword, hrest]
        rfl

/-- padding adds nothing but blanks within lines -/
theorem Padded.solidLines {ps : List Piece} (h : Padded ps t) :
    Text.solidLines (ps.flatMap Piece.text) = t.solidLines := by
  induction h with
  | nil hw => exact hw.solidLines.symm
  | cons hw _ ih =>
    rw [List.flatMap_cons, Text.solidLines_append, ih, Text.solidLines_append, hw.solidLines,
      List.nil_append, Text.solidLines_append]

/-! ## nothing lost -/

/-- a proper piece has a line end in it only if it is one -/
theorem Piece.count_text {p : Piece} (h : p.Proper) :
    p.text.count '\n' = [p.text].count ['\n'] := by
  cases p with
  | lineEnd => rfl
  | terminator c =>
    have hne : c ≠ '\n' := by
      rintro rfl
      exact absurd (show isTerminator '\n' = true from h) (by decide)
    rw [text, List.count_singleton, List.count_singleton, beq_eq_false_iff_ne.2 hne,
      beq_eq_false_iff_ne.2 fun heq => hne (List.cons.inj heq).1]
  | words w =>
    have hline := Uncut.line_not_mem h.2.2
    have hne : w ≠ ['\n'] := by
      rintro rfl
      exact hline List.mem_cons_self
    rw [text, List.count_eq_zero.2 hline, List.count_singleton, beq_eq_false_iff_ne.2 hne]
    rfl

theorem Padded.count {ps : List Piece} (h : Padded ps t) (hproper : ∀ p ∈ ps, p.Proper) :
    (ps.map Piece.text).count ['\n'] = t.count '\n' := by
  induction h with
  | nil hw => exact (List.count_eq_zero.2 hw.inLine).symm
  | @cons w p ps r hw _ ih =>
    rw [List.forall_mem_cons] at hproper
    show ([p.text] ++ ps.map Piece.text).count ['\n'] = _
    rw [List.count_append, ih hproper.2, ← Piece.count_text hproper.1, List.count_append,
      List.count_append, List.count_eq_zero.2 hw.inLine, Nat.zero_add]

end

/-- **Nothing of a text is lost in its pieces.**  They are the one list of line ends, terminators and
words in normal form around which padding makes up the text: words are not empty, have no blank at
their ends and no cut within them, and are not next to words; the blanks within them are those of the
text.  There are as many line ends as in the text, and but for blanks within lines the pieces one
after the other are the text. -/
theorem pieces_lossless (t : Text) :
    (∀ ps, pieces t = ps ↔ Normal ps ∧ Padded ps t) ∧
      ((pieces t).map Piece.text).count ['\n'] = t.count '\n' ∧
      Text.solidLines ((pieces t).flatMap Piece.text) = t.solidLines := by
  have hnormal := normal_pieces t
  have hpadded := padded_pieces t
  refine ⟨fun ps => ⟨?_, ?_⟩, hpadded.count hnormal.proper, hpadded.solidLines⟩
  · rintro rfl
    exact ⟨hnormal, hpadded⟩
  · rintro ⟨hps, ht⟩
    exact pieces_of_padded hps ht

end Transcript
end Dictation
