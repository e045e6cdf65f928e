import Dictation.Sentence

/-!
# The sentence before a cursor

The last sentence of a text starts after the terminator before its last one, past the gap there.
What stands after the last terminator makes no difference to that, and so a cursor that moves on
never brings the start back.

* `Text.lastIndex?_append_cons`   the last position of a kind, by what stands after it;
* `Text.last_cases`               a text without a kind of character, or cut at the last one;
* `Sentence.Opens`                where the last sentence of a text starts, said of its characters;
* `lastStart_append_cons`         the start, by what stands before the last terminator;
* `lastStart_append_le`           the start in a longer text;
* `start_opens`                   every block and every cursor.
-/

namespace Dictation

/-! ## the last position where a test holds -/

namespace Text

section
variable {p : Char → Bool} {c : Char} {t : Text}

theorem lastIndex?_append (p : Char → Bool) (s t : Text) :
    lastIndex? p (s ++ t) = ((lastIndex? p t).map (s.length + ·)).or (lastIndex? p s) := by
  induction s with
  | nil => cases h : lastIndex? p t <;> simp [h, lastIndex?]
  | cons c s ih =>
    rw [List.cons_append, lastIndex?, ih, lastIndex?]
    cases lastIndex? p t with
    | none => rfl
    | some i => simp [Nat.add_right_comm]

theorem lastIndex?_append_cons (hc : p c = true) (ht : ∀ x ∈ t, p x = false) (s : Text) :
    lastIndex? p (s ++ c :: t) = some s.length := by
  rw [lastIndex?_append, lastIndex?, (lastIndex?_eq_none_iff p t).2 ht, hc]
  rfl

/-- a text has no character of a kind, or is cut at the last one -/
theorem last_cases (p : Char → Bool) (t : Text) : (∀ x ∈ t, p x = false) ∨
    ∃ s c r, t = s ++ c :: r ∧ p c = true ∧ ∀ x ∈ r, p x = false := by
  induction t with
  | nil => exact .inl fun x hx => absurd hx List.not_mem_nil
  | cons d t ih =>
    rcases ih with ht | ⟨s, c, r, rfl, hc, hr⟩
    · cases hd : p d with
      | false => exact .inl (List.forall_mem_cons.2 ⟨hd, ht⟩)
      | true => exact .inr ⟨[], d, t, rfl, hd, ht⟩
    · exact .inr ⟨d :: s, c, r, rfl, hc, hr⟩

end
end Text

namespace Sentence

/-! ## after the last terminator -/

section
variable {c : Char} {s t r : Text}

theorem isGap_of_isTerminator (h : isTerminator c = true) : isGap c = false := by
  simp only [isTerminator, terminators, List.contains_iff_mem, List.mem_cons, List.not_mem_nil,
    or_false] at h
  rcases h with rfl | rfl | rfl <;> decide

theorem countP_of_none (h : ∀ x ∈ t, isTerminator x = false) : t.countP isTerminator = 0 :=
  List.countP_eq_zero.2 fun x hx => Bool.eq_false_iff.1 (h x hx)

theorem none_or_exists (t : Text) :
    (∀ x ∈ t, isTerminator x = false) ∨ ∃ x ∈ t, isTerminator x = true := by
  rcases Text.last_cases isTerminator t with hnone | ⟨s, c, r, rfl, hc, -⟩
  · exact .inl hnone
  · exact .inr ⟨c, List.mem_append_right _ List.mem_cons_self, hc⟩

theorem afterLastTerminator_append_cons (hc : isTerminator c = true)
    (hr : ∀ x ∈ r, isTerminator x = false) (s : Text) :
    afterLastTerminator (s ++ c :: r) = s.length + 1 := by
  rw [afterLastTerminator, Text.lastIndex?_append_cons hc hr]

theorem afterLastTerminator_of_none (h : ∀ x ∈ t, isTerminator x = false) :
    afterLastTerminator t = 0 := by
  rw [afterLastTerminator, (Text.lastIndex?_eq_none_iff _ t).2 h]

/-- a text cut after its last terminator -/
theorem exists_of_afterLastTerminator (t : Text) : ∃ earlier tail, t = earlier ++ tail ∧
    earlier.length = afterLastTerminator t ∧ earlier.getLast?.all isTerminator = true ∧
    ∀ x ∈ tail, isTerminator x = false := by
  rcases Text.last_cases isTerminator t with hnone | ⟨s, c, r, rfl, hc, hr⟩
  · exact ⟨[], t, rfl, (afterLastTerminator_of_none hnone).symm, rfl, hnone⟩
  · refine ⟨s ++ [c], r, by rw [List.append_assoc]; rfl, ?_, ?_, hr⟩
    · rw [afterLastTerminator_append_cons hc hr, List.length_append, List.length_singleton]
    · rw [List.getLast?_concat]
      exact hc

theorem afterLastTerminator_le (t : Text) : afterLastTerminator t ≤ t.length := by
  obtain ⟨earlier, tail, ht, hlen, -, -⟩ := exists_of_afterLastTerminator t
  rw [← hlen, ht, List.length_append]
  exact Nat.le_add_right _ _

theorem afterLastTerminator_append_le (s t : Text) :
    afterLastTerminator s ≤ afterLastTerminator (s ++ t) := by
  rcases Text.last_cases isTerminator t with hnone | ⟨u, c, r, rfl, hc, hr⟩
  · rw [afterLastTerminator, afterLastTerminator, Text.lastIndex?_append,
      (Text.lastIndex?_eq_none_iff _ t).2 hnone]
    exact Nat.le_refl _
  · rw [← List.append_assoc, afterLastTerminator_append_cons hc hr, List.length_append]
    have := afterLastTerminator_le s
    omega

/-! ## the start -/

theorem gapLength_append_cons (hc : isGap c = false) (s r : Text) :
    gapLength (s ++ c :: r) = gapLength s := by
  rw [gapLength, gapLength, List.takeWhile_append, List.takeWhile_cons_of_neg (by simp [hc])]
  split
  · next h => rw [List.append_nil, h]
  · rfl

/-- what stands before the last terminator decides -/
theorem lastStart_append_cons (hc : isTerminator c = true) (hr : ∀ x ∈ r, isTerminator x = false)
    (s : Text) : lastStart (s ++ c :: r) =
      afterLastTerminator s + gapLength (s.drop (afterLastTerminator s)) := by
  rw [lastStart, Text.lastIndex?_append_cons hc hr]
  dsimp only
  rw [List.take_left, List.drop_append_of_le_length (afterLastTerminator_le s),
    gapLength_append_cons (isGap_of_isTerminator hc)]

theorem lastStart_of_none (h : ∀ x ∈ t, isTerminator x = false) : lastStart t = 0 := by
  rw [lastStart, (Text.lastIndex?_eq_none_iff _ t).2 h]

theorem lastStart_le_length_left (hc : isTerminator c = true)
    (hr : ∀ x ∈ r, isTerminator x = false) (s : Text) : lastStart (s ++ c :: r) ≤ s.length := by
  have hgap := gapLength_le (s.drop (afterLastTerminator s))
  have hle := afterLastTerminator_le s
  rw [List.length_drop] at hgap
  rw [lastStart_append_cons hc hr]
  omega

/-- where the last sentence of a text starts -/
structure Opens (t : Text) (start : Nat) : Prop where
  /-- one terminator from there on; so it is the last one -/
  single : (t.drop start).countP isTerminator = 1
  solid : ∃ c, t[start]? = some c ∧ isGap c = false
  /-- from the terminator before it, or from the start of the text, there is a gap only -/
  behind : ∃ earlier gap, t.take start = earlier ++ gap ∧
    earlier.getLast?.all isTerminator = true ∧ gap.all isGap = true

theorem opens_lastStart (h : ∃ c ∈ t, isTerminator c = true) : Opens t (lastStart t) := by
  obtain ⟨s, c, r, rfl, hc, hr⟩ := (Text.last_cases isTerminator t).resolve_left fun hnone => by
    obtain ⟨c, hc, hp⟩ := h
    exact Bool.eq_false_iff.1 (hnone c hc) hp
  obtain ⟨earlier, tail, rfl, hlen, hclosed, htail⟩ := exists_of_afterLastTerminator s
  obtain ⟨gap, hgap⟩ : ∃ gap, gap = tail.takeWhile isGap := ⟨_, rfl⟩
  obtain ⟨body, hbody⟩ : ∃ body, body = tail.dropWhile isGap := ⟨_, rfl⟩
  have hsplit : tail = gap ++ body := by rw [hgap, hbody, List.takeWhile_append_dropWhile]
  have htext : earlier ++ tail ++ c :: r = (earlier ++ gap) ++ (body ++ c :: r) := by
    rw [hsplit]
    simp only [List.append_assoc]
  have hstart : lastStart (earlier ++ tail ++ c :: r) = (earlier ++ gap).length := by
    rw [lastStart_append_cons hc hr, ← hlen, List.drop_left, gapLength, ← hgap, List.length_append]
  rw [hstart, htext]
  refine ⟨?_, ?_, earlier, gap, List.take_left, hclosed, ?_⟩
  · have hbody : ∀ x ∈ body, isTerminator x = false := fun x hx =>
      htail x (hsplit ▸ List.mem_append_right _ hx)
    rw [List.drop_left, List.countP_append, List.countP_cons_of_pos hc, countP_of_none hbody,
      countP_of_none hr]
  · rw [List.getElem?_append_right (Nat.le_refl _), Nat.sub_self]
    cases hb : body with
    | nil => exact ⟨c, rfl, isGap_of_isTerminator hc⟩
    | cons x body =>
      exact ⟨x, rfl, Text.not_of_dropWhile (hbody.symm.trans hb)⟩
  · rw [hgap, List.all_takeWhile]

/-- a longer text starts its last sentence no earlier -/
theorem lastStart_append_le (s t : Text) : lastStart s ≤ lastStart (s ++ t) := by
  rcases Text.last_cases isTerminator s with hs | ⟨u, c, r, rfl, hc, hr⟩
  · rw [lastStart_of_none hs]
    exact Nat.zero_le _
  rcases Text.last_cases isTerminator t with ht | ⟨v, d, x, rfl, hd, hx⟩
  · have hrt : ∀ x ∈ r ++ t, isTerminator x = false := List.forall_mem_append.2 ⟨hr, ht⟩
    have hsame : lastStart (u ++ c :: r) = lastStart (u ++ c :: r ++ t) := by
      rw [List.append_assoc, List.cons_append, lastStart_append_cons hc hr,
        lastStart_append_cons hc hrt]
    exact Nat.le_of_eq hsame
  · have hfirst := afterLastTerminator_append_le (u ++ c :: r) v
    have hle := lastStart_le_length_left hc hr u
    rw [afterLastTerminator_append_cons hc hr] at hfirst
    rw [← List.append_assoc, lastStart_append_cons hd hx]
    omega

theorem lastStart_le (t : Text) : lastStart t ≤ t.length := by
  rcases Text.last_cases isTerminator t with h | ⟨s, c, r, rfl, hc, hr⟩
  · rw [lastStart_of_none h]
    exact Nat.zero_le _
  · have := lastStart_le_length_left hc hr s
    rw [List.length_append]
    omega

end

/-! ## blocks and cursors -/

/-- **Where the last sentence before a cursor starts.**  The cursor is first brought into the block;
only what stands before it counts.  Without a terminator there, the sentence starts where the block
does; else it holds the last terminator alone, and the gap before it is left out.  A later cursor
has no earlier start. -/
theorem start_opens (block : Text) (cursor : Int) :
    let c := clamp block cursor
    let r := start block cursor
    (c : Int) = max 0 (min cursor block.length) ∧ r ≤ c ∧
      (∀ block' cursor', block'.take (clamp block' cursor') = block.take c →
        start block' cursor' = r) ∧
      ((∀ x ∈ block.take c, isTerminator x = false) → r = 0) ∧
      ((∃ x ∈ block.take c, isTerminator x = true) → Opens (block.take c) r) ∧
      ∀ later, cursor ≤ later → r ≤ start block later := by
  intro c r
  have hc : (c : Int) = max 0 (min cursor block.length) := by
    show ((min cursor.toNat block.length : Nat) : Int) = _
    omega
  refine ⟨hc, ?_, fun block' cursor' h => ?_, lastStart_of_none, opens_lastStart,
    fun later h => ?_⟩
  · have hle : r ≤ (block.take c).length := lastStart_le _
    exact Nat.le_trans hle (List.length_take_le _ _)
  · rw [start, h]
    rfl
  · have hle : clamp block cursor ≤ clamp block later := by
      unfold clamp
      omega
    obtain ⟨t, ht⟩ : block.take (clamp block cursor) <+: block.take (clamp block later) :=
      List.take_prefix_take_left hle
    show start block cursor ≤ start block later
    rw [start, start, ← ht]
    exact lastStart_append_le _ _

end Sentence
end Dictation
