import Dictation.Proofs.Text.Words
import Dictation.Text.CaseKey

/-!
# Case, blanks and words

A change of case makes no blank and unmakes none, so it changes neither where words begin and end
nor how many there are.

* `isBlank_lowered`, `contains_caseKey`   a character is a blank if its lower case or its key is;
* `eq_of_alike_of_blank`   a blank is alike to itself only;
* `Text.lower_append_blank`   the two sides of a blank are lowered on their own;
* `Text.map_sharedKey_lower`   lower case keeps all case keys, but for the capital I with a dot.
-/

namespace Dictation

/-! ## one character -/

namespace CaseRun

/-- where a code point of a run goes -/
def goal (r : CaseRun) (n : Nat) : Nat := (n + r.shift).toNat

theorem covers_iff (r : CaseRun) (n : Nat) :
    r.covers n = true ↔ r.first ≤ n ∧ n ≤ r.last ∧ (n - r.first) % r.step = 0 := by
  simp [covers, and_assoc]

theorem goal_mono (r : CaseRun) {m n : Nat} (h : m ≤ n) : r.goal m ≤ r.goal n := by
  unfold goal
  omega

end CaseRun

/-- a number that is no code point counts as zero -/
theorem ofNat_cases (n : Nat) : (Char.ofNat n).toNat = n ∨ Char.ofNat n = Char.ofNat 0 := by
  by_cases h : n.isValidChar
  · refine .inl ?_
    rw [Char.ofNat, dif_pos h]
    rfl
  · refine .inr ?_
    rw [Char.ofNat, dif_neg h]
    rfl

/-- a character is its own lower case, or one of a run -/
theorem lowered_cases (c : Char) :
    lowered c = c ∨ ∃ r ∈ capitalRuns, r.covers c.toNat = true ∧
      lowered c = Char.ofNat (r.goal c.toNat) := by
  unfold lowered
  split
  · next r hr =>
    have hc : r.covers c.toNat = true := by simpa using List.find?_some hr
    exact .inr ⟨r, List.mem_of_find?_eq_some hr, hc, rfl⟩
  · exact .inl rfl

/-- the case key of a letter that is in lower case -/
def sharedKey (c : Char) : Nat :=
  ((sharedCapitals.find? (·.1 == c.toNat)).map (·.2)).getD c.toNat

theorem caseKey_eq_sharedKey (c : Char) : caseKey c = sharedKey (lowered c) := rfl

/-! ## blanks have no case -/

def capitalRanges : Ranges := capitalRuns.map fun r => (r.first, r.last)
def goalRanges : Ranges := capitalRuns.map fun r => (r.goal r.first, r.goal r.last)

theorem caseRanges_apart : ∀ rs ∈ [capitalRanges, goalRanges, casedRanges, caseIgnorableRanges],
    rs.apart blankRanges = true := by decide +kernel

theorem capitalRanges_apart : capitalRanges.apart blankRanges = true :=
  caseRanges_apart _ (by simp)

theorem goalRanges_apart : goalRanges.apart blankRanges = true := caseRanges_apart _ (by simp)

theorem casedRanges_apart : casedRanges.apart blankRanges = true := caseRanges_apart _ (by simp)

theorem caseIgnorableRanges_apart : caseIgnorableRanges.apart blankRanges = true :=
  caseRanges_apart _ (by simp)

theorem not_isCased_of_blank {c : Char} (h : isBlank c = true) : isCased c = false := by
  rw [Bool.eq_false_iff]
  intro hc
  rw [show isBlank c = false from Ranges.not_contains_of_apart casedRanges_apart hc] at h
  cases h

theorem not_isCaseIgnorable_of_blank {c : Char} (h : isBlank c = true) :
    isCaseIgnorable c = false := by
  rw [Bool.eq_false_iff]
  intro hc
  rw [show isBlank c = false from Ranges.not_contains_of_apart caseIgnorableRanges_apart hc] at h
  cases h

theorem sharedCapitals_not_blank : ∀ p ∈ sharedCapitals,
    blankRanges.contains p.1 = false ∧ blankRanges.contains p.2 = false := by decide

theorem isBlank_of_covers {r : CaseRun} (hr : r ∈ capitalRuns) {c : Char}
    (h : r.covers c.toNat = true) : isBlank c = false := by
  obtain ⟨h1, h2, -⟩ := (r.covers_iff _).1 h
  exact Ranges.not_contains_of_apart capitalRanges_apart
    ((Ranges.contains_iff _ _).2 ⟨_, List.mem_map_of_mem hr, h1, h2⟩)

theorem lowered_of_blank {c : Char} (h : isBlank c = true) : lowered c = c := by
  rcases lowered_cases c with hc | ⟨r, hr, hc, -⟩
  · exact hc
  · rw [isBlank_of_covers hr hc] at h
    cases h

theorem isBlank_lowered (c : Char) : isBlank (lowered c) = isBlank c := by
  rcases lowered_cases c with hc | ⟨r, hr, hc, hl⟩
  · rw [hc]
  · rw [isBlank_of_covers hr hc, hl]
    rcases ofNat_cases (r.goal c.toNat) with hn | hn
    · obtain ⟨h1, h2, -⟩ := (r.covers_iff _).1 hc
      rw [isBlank, hn]
      exact Ranges.not_contains_of_apart goalRanges_apart ((Ranges.contains_iff _ _).2
        ⟨_, List.mem_map_of_mem hr, r.goal_mono h1, r.goal_mono h2⟩)
    · rw [hn]
      decide

/-- a case key is a blank for blanks only -/
theorem contains_caseKey (c : Char) : blankRanges.contains (caseKey c) = isBlank c := by
  rw [← isBlank_lowered]
  unfold caseKey
  dsimp only
  cases h : sharedCapitals.find? (·.1 == (lowered c).toNat) with
  | none => rfl
  | some p =>
    obtain ⟨hp1, hp2⟩ := sharedCapitals_not_blank p (List.mem_of_find?_eq_some h)
    have h1 : p.1 = (lowered c).toNat := by simpa using List.find?_some h
    rw [isBlank, ← h1, hp1]
    exact hp2

theorem caseKey_of_blank {c : Char} (h : isBlank c = true) : caseKey c = c.toNat := by
  unfold caseKey
  dsimp only
  rw [lowered_of_blank h]
  cases hf : sharedCapitals.find? (·.1 == c.toNat) with
  | none => rfl
  | some p =>
    have h1 : p.1 = c.toNat := by simpa using List.find?_some hf
    have hp := (sharedCapitals_not_blank p (List.mem_of_find?_eq_some hf)).1
    rw [h1] at hp
    rw [show isBlank c = false from hp] at h
    cases h

theorem isBlank_of_caseKey_eq {a b : Char} (h : caseKey a = caseKey b) :
    isBlank a = isBlank b := by
  rw [← contains_caseKey a, h, contains_caseKey]

/-- a blank is alike to itself only -/
theorem eq_of_alike_of_blank {a b : Char} (h : caseKey a = caseKey b) (ha : isBlank a = true) :
    a = b := by
  have hb : isBlank b = true := by rw [← isBlank_of_caseKey_eq h, ha]
  rw [caseKey_of_blank ha, caseKey_of_blank hb] at h
  exact Char.toNat_inj.1 h

/-! ## lower case on the two sides of a blank -/

namespace Text

section
variable {c : Char} {s t w : Text} {ws : List Text}

theorem beginsCased_append_blank (h : isBlank c = true) (s t : Text) :
    beginsCased (s ++ c :: t) = beginsCased s := by
  induction s with
  | nil =>
    show (if isCaseIgnorable c then beginsCased t else isCased c) = false
    rw [not_isCaseIgnorable_of_blank h, if_neg Bool.false_ne_true, not_isCased_of_blank h]
  | cons x s ih => rw [List.cons_append, beginsCased, beginsCased, ih]

theorem lowerAfter_append_blank (h : isBlank c = true) (cased : Bool) (s t : Text) :
    lowerAfter cased (s ++ c :: t) = lowerAfter cased s ++ c :: lower t := by
  induction s generalizing cased with
  | nil =>
    have hs : (c == capitalSigma) = false := by
      rw [beq_eq_false_iff_ne]
      rintro rfl
      exact absurd h (by decide)
    have hd : (c == capitalDottedI) = false := by
      rw [beq_eq_false_iff_ne]
      rintro rfl
      exact absurd h (by decide)
    simp only [List.nil_append, lowerAfter, hs, hd, not_isCaseIgnorable_of_blank h,
      not_isCased_of_blank h, Bool.false_eq_true, ite_false, lowered_of_blank h, lower]
  | cons x s ih =>
    simp only [List.cons_append, lowerAfter, beginsCased_append_blank h, ih]
    split
    · rfl
    · split <;> rfl

theorem lower_append_blank (h : isBlank c = true) (s t : Text) :
    lower (s ++ c :: t) = lower s ++ c :: lower t :=
  lowerAfter_append_blank h false s t

/-- a text of small letters is its own lower case -/
theorem lower_of_small (h : ∀ x ∈ t, lowered x = x ∧ x ≠ capitalSigma ∧ x ≠ capitalDottedI) :
    lower t = t := by
  have hall (cased : Bool) : lowerAfter cased t = t := by
    induction t generalizing cased with
    | nil => rfl
    | cons x t ih =>
      obtain ⟨hl, hs, hd⟩ := h x List.mem_cons_self
      unfold lowerAfter
      dsimp only
      rw [beq_eq_false_iff_ne.2 hs, beq_eq_false_iff_ne.2 hd, if_neg Bool.false_ne_true,
        if_neg Bool.false_ne_true, hl, ih fun y hy => h y (List.mem_cons_of_mem _ hy)]
  exact hall false

/-! ## lower case of words -/

theorem not_isBlank_of_mem_lowerAfter (h : ∀ x ∈ w, isBlank x = false) (cased : Bool) :
    ∀ x ∈ lowerAfter cased w, isBlank x = false := by
  induction w generalizing cased with
  | nil => exact fun _ hx => absurd hx List.not_mem_nil
  | cons y w ih =>
    have hy : isBlank (lowered y) = false := by rw [isBlank_lowered, h y List.mem_cons_self]
    have hw := ih (fun x hx => h x (List.mem_cons_of_mem _ hx))
      (if isCaseIgnorable y then cased else isCased y)
    unfold lowerAfter
    dsimp only
    split
    · refine List.forall_mem_cons.2 ⟨?_, hw⟩
      split <;> decide
    · split
      · exact List.forall_mem_cons.2 ⟨by decide, List.forall_mem_cons.2 ⟨by decide, hw⟩⟩
      · exact List.forall_mem_cons.2 ⟨hy, hw⟩

theorem isWord_lower (h : IsWord w) : IsWord (lower w) := by
  refine ⟨?_, not_isBlank_of_mem_lowerAfter h.2 false⟩
  cases w with
  | nil => exact absurd rfl h.1
  | cons c w =>
    rw [lower, lowerAfter]
    split
    · exact List.cons_ne_nil _ _
    · split <;> exact List.cons_ne_nil _ _

theorem lower_joinWith (ws : List Text) :
    lower (joinWith [' '] ws) = joinWith [' '] (ws.map lower) := by
  induction ws with
  | nil => rfl
  | cons w ws ih =>
    cases ws with
    | nil => rfl
    | cons v ws =>
      rw [joinWith_cons, List.append_assoc, List.singleton_append, lower_append_blank (by decide),
        ih, List.map_cons, List.map_cons, List.map_cons, joinWith_cons, List.append_assoc,
        List.singleton_append]

theorem words_lower (h : t.squeeze = t) : words (lower t) = (words t).map lower := by
  have hw : ∀ w ∈ (words t).map lower, IsWord w := by
    intro w hw
    obtain ⟨v, hv, rfl⟩ := List.mem_map.1 hw
    exact isWord_lower (isWord_of_mem_words hv)
  rw [← words_joinWith hw, ← lower_joinWith]
  show _ = words (lower t.squeeze)
  rw [h]

theorem squeeze_lower (h : t.squeeze = t) : (lower t).squeeze = lower t := by
  rw [squeeze, words_lower h, ← lower_joinWith]
  show lower t.squeeze = _
  rw [h]

/-! ## the words of a text in lower case -/

theorem words_lower_append_blank (h : isBlank c = true) (s t : Text) :
    words (lower (s ++ c :: t)) = words (lower s) ++ words (lower t) := by
  rw [lower_append_blank h, words_append_blank h]

/-- blanks before a text are before its words -/
theorem words_lower_gap_append (h : allBlank w = true) (t : Text) :
    words (lower (w ++ t)) = words (lower t) := by
  induction w with
  | nil => rfl
  | cons c w ih =>
    rw [allBlank_cons, Bool.and_eq_true] at h
    have hsplit := words_lower_append_blank h.1 [] (w ++ t)
    rw [List.nil_append] at hsplit
    rw [List.cons_append, hsplit, ih h.2]
    rfl

theorem words_lower_append_gap (h : allBlank w = true) (t : Text) :
    words (lower (t ++ w)) = words (lower t) := by
  cases w with
  | nil => rw [List.append_nil]
  | cons c w =>
    rw [allBlank_cons, Bool.and_eq_true] at h
    have hgap := words_lower_gap_append h.2 []
    rw [List.append_nil] at hgap
    rw [words_lower_append_blank h.1, hgap]
    exact List.append_nil _

/-! ## texts with the same case keys -/

theorem beginsAlike_iff (s t : Text) :
    s.beginsAlike t = true ↔ s.map caseKey <+: t.map caseKey := by
  induction s generalizing t with
  | nil => simp [beginsAlike]
  | cons a s ih =>
    cases t with
    | nil => simp [beginsAlike]
    | cons c t =>
      rw [beginsAlike, Bool.and_eq_true, ih, List.map_cons, List.map_cons, List.cons_prefix_cons,
        alike, beq_iff_eq]

theorem isWord_of_map_caseKey (h : s.map caseKey = w.map caseKey) (hw : IsWord w) : IsWord s := by
  refine ⟨?_, fun x hx => ?_⟩
  · rintro rfl
    exact hw.1 (List.map_eq_nil_iff.1 h.symm)
  · have hk : caseKey x ∈ w.map caseKey := h ▸ List.mem_map_of_mem hx
    obtain ⟨y, hy, hxy⟩ := List.mem_map.1 hk
    rw [← isBlank_of_caseKey_eq hxy, hw.2 y hy]

/-- a text with the case keys of words with single spaces is such words itself -/
theorem exists_joinWith_of_map_caseKey (hw : ∀ w ∈ ws, IsWord w)
    (h : s.map caseKey = (joinWith [' '] ws).map caseKey) :
    ∃ vs, s = joinWith [' '] vs ∧ vs.length = ws.length ∧ ∀ v ∈ vs, IsWord v := by
  induction ws generalizing s with
  | nil => exact ⟨[], List.map_eq_nil_iff.1 h, rfl, fun _ hv => absurd hv List.not_mem_nil⟩
  | cons w ws ih =>
    have hword := hw w List.mem_cons_self
    cases ws with
    | nil =>
      refine ⟨[s], rfl, rfl, fun v hv => ?_⟩
      rw [List.mem_singleton.1 hv]
      exact isWord_of_map_caseKey h hword
    | cons u us =>
      rw [joinWith_cons, List.append_assoc, List.singleton_append, List.map_append,
        List.map_cons] at h
      obtain ⟨v, r, rfl, hv, hrest⟩ := List.map_eq_append_iff.1 h
      obtain ⟨c, r, rfl, hc, hr⟩ := List.map_eq_cons_iff.1 hrest
      obtain rfl := eq_of_alike_of_blank hc.symm (by decide)
      obtain ⟨vs, rfl, hlen, hvs⟩ := ih (fun x hx => hw x (List.mem_cons_of_mem _ hx)) hr
      cases vs with
      | nil => cases hlen
      | cons x vs =>
        refine ⟨v :: x :: vs, ?_, congrArg Nat.succ hlen, ?_⟩
        · rw [joinWith_cons, List.append_assoc, List.singleton_append]
        · exact List.forall_mem_cons.2 ⟨isWord_of_map_caseKey hv hword, hvs⟩

theorem squeeze_of_map_caseKey (h : s.map caseKey = t.map caseKey) (ht : t.squeeze = t) :
    s.squeeze = s := by
  rw [← ht] at h
  obtain ⟨vs, rfl, -, hvs⟩ := exists_joinWith_of_map_caseKey (fun _ => isWord_of_mem_words) h
  exact squeeze_joinWith hvs

theorem length_lower (t : Text) : (lower t).length = t.length + t.count capitalDottedI := by
  have hall (cased : Bool) : (lowerAfter cased t).length = t.length + t.count capitalDottedI := by
    induction t generalizing cased with
    | nil => rfl
    | cons c t ih =>
      unfold lowerAfter
      dsimp only
      rw [List.count_cons, List.length_cons]
      split
      · next hs =>
        have hne : (c == capitalDottedI) = false := by rw [beq_iff_eq.1 hs]; decide
        rw [List.length_cons, ih, hne, if_neg Bool.false_ne_true]
        omega
      · split
        · rw [List.length_cons, List.length_cons, ih]
          omega
        · rw [List.length_cons, ih]
          omega
  exact hall false

/-- without a capital I with a dot, the case keys of a text are those of its lower case -/
theorem map_sharedKey_lower (h : capitalDottedI ∉ t) :
    (lower t).map sharedKey = t.map caseKey := by
  have hall (cased : Bool) : (lowerAfter cased t).map sharedKey = t.map caseKey := by
    induction t generalizing cased with
    | nil => rfl
    | cons c t ih =>
      have hne : (c == capitalDottedI) = false := by
        rw [beq_eq_false_iff_ne]
        rintro rfl
        exact h List.mem_cons_self
      have ht := ih (fun hm => h (List.mem_cons_of_mem _ hm))
      unfold lowerAfter
      dsimp only
      rw [hne, if_neg Bool.false_ne_true]
      split
      · next hs =>
        rw [List.map_cons, List.map_cons, ht, beq_iff_eq.1 hs]
        split <;> rfl
      · rw [List.map_cons, List.map_cons, ht, caseKey_eq_sharedKey]
  exact hall false

end
end Text
end Dictation
