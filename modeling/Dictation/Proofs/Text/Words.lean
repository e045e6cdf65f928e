import Dictation.Proofs.Text.Ends

/-!
# Words of a text

A blank parts the words before it from the words after it (`words_append_blank`); everything else
about words follows from this equation and from what a text begins with.

* `IsWord`           one word: some characters, none of them blank;
* `exists_of_words`  a text with words is a gap, a word, and what the blank after it begins;
* `uptoWord`         the part of a text up to the end of one of its words;
* `squeeze_append_blank`   squeezing two parts on their own;
* `isInfix_of_squeeze`   squeezing puts no characters together that were apart.
-/

namespace Dictation.Text

/-- one word and nothing else -/
def IsWord (w : Text) : Prop := w ≠ [] ∧ ∀ c ∈ w, isBlank c = false

theorem isWord_of_all {w : Text} (hw : w ≠ []) (h : w.all (!isBlank ·) = true) : IsWord w :=
  ⟨hw, fun c hc => by simpa using List.all_eq_true.1 h c hc⟩

section
variable {c : Char} {t w : Text} {ws : List Text}

/-! ## the first word -/

theorem words_eq (t : Text) :
    words t = if (firstWord t).1.isEmpty then (firstWord t).2
      else (firstWord t).1 :: (firstWord t).2 := rfl

theorem firstWord_append_blank (h : isBlank c = true) (s t : Text) :
    firstWord (s ++ c :: t) = ((firstWord s).1, (firstWord s).2 ++ words t) := by
  induction s with
  | nil => simp [firstWord, words, h]
  | cons x s ih =>
    rcases hs : firstWord s with ⟨w, ws⟩
    rw [List.cons_append, firstWord, ih, firstWord, hs]
    cases isBlank x
    · rfl
    · cases w <;> rfl

/-- **A blank parts the words before it from the words after it.** -/
theorem words_append_blank (h : isBlank c = true) (s t : Text) :
    words (s ++ c :: t) = words s ++ words t := by
  rw [words_eq (s ++ c :: t), words_eq s, firstWord_append_blank h]
  cases (firstWord s).1 <;> rfl

theorem firstWord_of_word (h : ∀ c ∈ w, isBlank c = false) : firstWord w = (w, []) := by
  induction w with
  | nil => rfl
  | cons c w ih =>
    rw [firstWord, ih fun x hx => h x (List.mem_cons_of_mem _ hx), h c List.mem_cons_self]
    rfl

theorem words_of_word (h : IsWord w) : words w = [w] := by
  rw [words, firstWord_of_word h.2]
  cases w with
  | nil => exact absurd rfl h.1
  | cons c w => rfl

theorem words_eq_nil_of_allBlank (h : allBlank t = true) : words t = [] := by
  induction t with
  | nil => rfl
  | cons c t ih =>
    rw [allBlank_cons, Bool.and_eq_true] at h
    rw [words_cons_blank h.1, ih h.2]

theorem words_append_of_allBlank (h : allBlank w = true) (t : Text) :
    words (w ++ t) = words t := by
  induction w with
  | nil => rfl
  | cons c w ih =>
    rw [allBlank_cons, Bool.and_eq_true] at h
    rw [List.cons_append, words_cons_blank h.1, ih h.2]

theorem words_append_allBlank (h : allBlank w = true) (t : Text) : words (t ++ w) = words t := by
  cases w with
  | nil => rw [List.append_nil]
  | cons c w =>
    rw [allBlank_cons, Bool.and_eq_true] at h
    rw [words_append_blank h.1, words_eq_nil_of_allBlank h.2, List.append_nil]

/-! ## what a text begins with -/

theorem allBlank_takeWhile (t : Text) : allBlank (t.takeWhile isBlank) = true :=
  List.all_eq_true.2 fun _ hx => List.mem_takeWhile_imp hx

/-- a text that is no gap: the gap, the word after it, and a rest that begins with a blank -/
theorem exists_of_not_allBlank (h : allBlank t = false) :
    ∃ gap w rest, t = gap ++ (w ++ rest) ∧ gap = t.takeWhile isBlank ∧
      w = (t.dropWhile isBlank).takeWhile (!isBlank ·) ∧
      rest = (t.dropWhile isBlank).dropWhile (!isBlank ·) ∧ IsWord w ∧
      (rest = [] ∨ ∃ c r, rest = c :: r ∧ isBlank c = true) := by
  refine ⟨_, _, _, ?_, rfl, rfl, rfl, ⟨?_, ?_⟩, ?_⟩
  · rw [List.takeWhile_append_dropWhile, List.takeWhile_append_dropWhile]
  · intro hw
    cases hd : t.dropWhile isBlank with
    | nil =>
      rw [(trimLeft_eq_nil_iff t).1 hd] at h
      cases h
    | cons c r =>
      have hc : isBlank c = false := not_of_dropWhile hd
      rw [hd, List.takeWhile_cons_of_pos (by simp [hc])] at hw
      cases hw
  · intro c hc
    simpa using List.mem_takeWhile_imp hc
  · cases hr : (t.dropWhile isBlank).dropWhile (!isBlank ·) with
    | nil => exact .inl rfl
    | cons c r =>
      exact .inr ⟨c, r, rfl, by simpa using not_of_dropWhile hr⟩

theorem words_of_rest {rest : Text} (hw : IsWord w)
    (hr : rest = [] ∨ ∃ c r, rest = c :: r ∧ isBlank c = true) :
    words (w ++ rest) = w :: words rest := by
  rcases hr with rfl | ⟨c, r, rfl, hc⟩
  · rw [List.append_nil, words_of_word hw]
    rfl
  · rw [words_append_blank hc, words_of_word hw, words_cons_blank hc]
    rfl

theorem words_eq_nil_iff (t : Text) : words t = [] ↔ allBlank t = true := by
  refine ⟨fun h => ?_, words_eq_nil_of_allBlank⟩
  cases ht : allBlank t with
  | true => rfl
  | false =>
    obtain ⟨gap, w, rest, hsplit, hgap, -, -, hw, hr⟩ := exists_of_not_allBlank ht
    rw [hsplit, words_append_of_allBlank (hgap ▸ allBlank_takeWhile t), words_of_rest hw hr] at h
    cases h

/-! ## up to the end of a word -/

/-- the part of a text up to the end of its `n`-th word -/
def uptoWord : (n : Nat) → Text → Text
  | 0, _ => []
  | n + 1, t =>
    let r := t.dropWhile isBlank
    t.takeWhile isBlank ++ (r.takeWhile (!isBlank ·) ++ uptoWord n (r.dropWhile (!isBlank ·)))

theorem uptoWord_nil (n : Nat) : uptoWord n [] = [] := by
  induction n with
  | zero => rfl
  | succ n ih => exact ih

theorem uptoWord_cons_blank (h : isBlank c = true) (n : Nat) (t : Text) :
    uptoWord (n + 1) (c :: t) = c :: uptoWord (n + 1) t := by
  rw [uptoWord, uptoWord, List.takeWhile_cons_of_pos h, List.dropWhile_cons_of_pos h]
  rfl

/-- a text with words, by its first one -/
theorem exists_of_words (h : words t = w :: ws) :
    ∃ gap rest, t = gap ++ (w ++ rest) ∧ words rest = ws ∧ IsWord w ∧
      (rest = [] ∨ ∃ c r, rest = c :: r ∧ isBlank c = true) ∧ allBlank gap = true ∧
      ∀ n, uptoWord (n + 1) t = gap ++ (w ++ uptoWord n rest) := by
  have ht : allBlank t = false := by
    rw [Bool.eq_false_iff, ne_eq, ← words_eq_nil_iff, h]
    exact List.cons_ne_nil _ _
  obtain ⟨gap, w', rest, hsplit, hgap, hw', hrest, hw, hr⟩ := exists_of_not_allBlank ht
  have hall : allBlank gap = true := hgap ▸ allBlank_takeWhile t
  have hwords : words t = w' :: words rest := by
    rw [hsplit, words_append_of_allBlank hall, words_of_rest hw hr]
  obtain ⟨rfl, rfl⟩ := List.cons.inj (h.symm.trans hwords)
  exact ⟨gap, rest, hsplit, rfl, hw, hr, hall, fun n => by rw [uptoWord, hgap, hw', hrest]⟩

theorem uptoWord_prefix (n : Nat) (t : Text) : uptoWord n t <+: t := by
  induction n generalizing t with
  | zero => exact List.nil_prefix
  | succ n ih =>
    rw [uptoWord]
    obtain ⟨r, hr⟩ := ih ((t.dropWhile isBlank).dropWhile (!isBlank ·))
    refine ⟨r, ?_⟩
    rw [List.append_assoc, List.append_assoc, hr, List.takeWhile_append_dropWhile,
      List.takeWhile_append_dropWhile]

/-- it has the first `n` words of the text and no others -/
theorem words_uptoWord {n : Nat} (h : n ≤ (words t).length) :
    words (uptoWord n t) = (words t).take n := by
  induction n generalizing t with
  | zero => rfl
  | succ n ih =>
    cases ht : words t with
    | nil => rw [ht] at h; cases h
    | cons w ws =>
      obtain ⟨gap, rest, hsplit, hrest, hw, hr, hall, hupto⟩ := exists_of_words ht
      rw [hupto, words_append_of_allBlank hall, List.take_succ_cons, ← hrest]
      rw [ht, List.length_cons, ← hrest] at h
      rw [← ih (Nat.le_of_succ_le_succ h)]
      refine words_of_rest hw ?_
      rcases hr with rfl | ⟨c, r, rfl, hc⟩
      · exact .inl (uptoWord_nil n)
      · cases n with
        | zero => exact .inl rfl
        | succ n => exact .inr ⟨c, _, uptoWord_cons_blank hc n r, hc⟩

/-! ## single spaces -/

theorem isWord_of_mem_words (h : w ∈ words t) : IsWord w := by
  generalize ht : words t = ws at h
  induction ws generalizing t with
  | nil => exact absurd h List.not_mem_nil
  | cons v ws ih =>
    obtain ⟨_, rest, -, hrest, hv, -⟩ := exists_of_words ht
    rcases List.mem_cons.1 h with rfl | h
    · exact hv
    · exact ih hrest h

theorem joinWith_append (sep : Text) {ts us : List Text} (ht : ts ≠ []) (hu : us ≠ []) :
    joinWith sep (ts ++ us) = joinWith sep ts ++ (sep ++ joinWith sep us) := by
  induction ts with
  | nil => exact absurd rfl ht
  | cons t ts ih =>
    cases ts with
    | nil =>
      cases us with
      | nil => exact absurd rfl hu
      | cons u us =>
        rw [List.singleton_append, joinWith_cons, joinWith_single, List.append_assoc]
    | cons s ts =>
      rw [List.cons_append, List.cons_append, joinWith_cons, joinWith_cons, ← List.cons_append,
        ih (List.cons_ne_nil _ _), List.append_assoc _ (joinWith sep (s :: ts))]

theorem words_joinWith (h : ∀ w ∈ ws, IsWord w) : words (joinWith [' '] ws) = ws := by
  induction ws with
  | nil => rfl
  | cons w ws ih =>
    have hw := words_of_word (h w List.mem_cons_self)
    cases ws with
    | nil => exact hw
    | cons v ws =>
      rw [joinWith_cons, List.append_assoc, List.singleton_append, words_append_blank (by decide),
        hw, ih fun x hx => h x (List.mem_cons_of_mem _ hx)]
      rfl

theorem words_squeeze (t : Text) : words (squeeze t) = words t :=
  words_joinWith fun _ => isWord_of_mem_words

theorem squeeze_squeeze (t : Text) : squeeze (squeeze t) = squeeze t := by
  rw [squeeze, words_squeeze, squeeze]

theorem squeeze_joinWith (h : ∀ w ∈ ws, IsWord w) :
    squeeze (joinWith [' '] ws) = joinWith [' '] ws := by
  rw [squeeze, words_joinWith h]

theorem mem_joinWith {sep : Text} {ts : List Text} (h : c ∈ joinWith sep ts) :
    c ∈ sep ∨ ∃ t ∈ ts, c ∈ t := by
  induction ts with
  | nil => exact absurd h List.not_mem_nil
  | cons t ts ih =>
    cases ts with
    | nil => exact .inr ⟨t, List.mem_cons_self, h⟩
    | cons u us =>
      rw [joinWith_cons, List.mem_append, List.mem_append] at h
      rcases h with (h | h) | h
      · exact .inr ⟨t, List.mem_cons_self, h⟩
      · exact .inl h
      · rcases ih h with h | ⟨v, hv, h⟩
        · exact .inl h
        · exact .inr ⟨v, List.mem_cons_of_mem _ hv, h⟩

/-- the only blanks of a squeezed text are spaces -/
theorem eq_space_of_mem_squeeze (h : c ∈ squeeze t) (hc : isBlank c = true) : c = ' ' := by
  rcases mem_joinWith h with h | ⟨w, hw, h⟩
  · exact List.mem_singleton.1 h
  · rw [(isWord_of_mem_words hw).2 c h] at hc
    cases hc

theorem squeeze_append_blank (h : isBlank c = true) {s : Text} (hs : words s ≠ [])
    (ht : words t ≠ []) : squeeze (s ++ c :: t) = squeeze s ++ ' ' :: squeeze t := by
  rw [squeeze, words_append_blank h, joinWith_append _ hs ht]
  rfl

theorem isInfix_of_mem_words (h : w ∈ words t) : w <:+: t := by
  generalize ht : words t = ws at h
  induction ws generalizing t with
  | nil => exact absurd h List.not_mem_nil
  | cons v ws ih =>
    obtain ⟨gap, rest, rfl, hrest, -⟩ := exists_of_words ht
    rcases List.mem_cons.1 h with rfl | h
    · exact ⟨gap, rest, by rw [List.append_assoc]⟩
    · exact (ih hrest h).trans ⟨gap ++ v, [], by simp⟩

/-- what has no separator in it lies on one side of it -/
theorem isInfix_append_cons {s : Text} (hc : c ∉ w) (h : w <:+: s ++ c :: t) :
    w <:+: s ∨ w <:+: t := by
  rcases List.infix_append_iff.1 h with h | h | ⟨l, r, rfl, hl, hr⟩
  · exact .inl h
  · rcases List.infix_cons_iff.1 h with h | h
    · cases w with
      | nil => exact .inl List.nil_infix
      | cons x w =>
        obtain ⟨rfl, -⟩ := List.cons_prefix_cons.1 h
        exact absurd List.mem_cons_self hc
    · exact .inr h
  · cases r with
    | nil => exact .inl (by rw [List.append_nil]; exact hl.isInfix)
    | cons x r =>
      obtain ⟨rfl, -⟩ := List.cons_prefix_cons.1 hr
      exact absurd (List.mem_append_right _ List.mem_cons_self) hc

theorem isInfix_joinWith (hc : c ∉ w) (hw : w ≠ []) (h : w <:+: joinWith [c] ws) :
    ∃ v ∈ ws, w <:+: v := by
  induction ws with
  | nil => exact absurd (List.infix_nil.1 h) hw
  | cons v ws ih =>
    cases ws with
    | nil => exact ⟨v, List.mem_cons_self, h⟩
    | cons u us =>
      rw [joinWith_cons, List.append_assoc, List.singleton_append] at h
      rcases isInfix_append_cons hc h with h | h
      · exact ⟨v, List.mem_cons_self, h⟩
      · obtain ⟨x, hx, h⟩ := ih h
        exact ⟨x, List.mem_cons_of_mem _ hx, h⟩

/-- squeezing puts nothing together that was apart -/
theorem isInfix_of_squeeze (hw : IsWord w) (h : w <:+: squeeze t) : w <:+: t := by
  have hspace : ' ' ∉ w := fun hs => absurd (hw.2 ' ' hs) (by decide)
  obtain ⟨v, hv, hwv⟩ := isInfix_joinWith hspace hw.1 h
  exact hwv.trans (isInfix_of_mem_words hv)

end
end Dictation.Text
