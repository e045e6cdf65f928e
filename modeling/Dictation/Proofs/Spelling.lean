import Dictation.Proofs.Spoken
import Dictation.Proofs.Text.Ascii

/-!
# Spellings of a phrase

A phrase is heard where the text has its lower case.  Without clean-up, what follows the blanks
after a trigger is a spelling of a phrase if it has the phrase's letters one by one, small or
capital, and ends at a blank or at the end of the text.

* `Command.lowered_of_spelling`   a spelling has as many characters as its phrase;
* `Phrase.Best`                   the longest entry of a table that fits, the first one of equals;
* `match?_of_spelling`            a spelling with blanks around it is heard as its phrase;
* `exists_of_match?`              and nothing else is heard as a phrase.
-/

namespace Dictation

/-! ## spellings -/

namespace Command

section
variable {p q r s t : Text}

theorem letters_of_phrase (hp : p ∈ phrases) : ∀ c ∈ p, c ∈ letters := fun c hc =>
  List.contains_iff_mem.1 (List.all_eq_true.1 (List.all_eq_true.1 phrases_letters p hp) c hc)

theorem letters_ascii : Text.Ascii letters := by decide

/-- a phrase in ASCII capitals, all or some of them, is a spelling of it -/
theorem lower_of_map_toLower (h : q.map Char.toLower ∈ phrases) :
    q.lower = q.map Char.toLower := by
  refine Text.lower_of_ascii (Text.ascii_of_map_toLower fun c hc => ?_)
  exact letters_ascii c (letters_of_phrase h c hc)

/-- a spelling has the letters of its phrase, one by one -/
theorem lowered_of_spelling (h : q.lower ∈ phrases) :
    q.map lowered = q.lower ∧ ∀ c ∈ q, c ≠ capitalSigma ∧ c ≠ capitalDottedI := by
  obtain ⟨hmap, hall⟩ := Text.lowerAfter_of_ascii_lower fun c hc =>
    letters_ascii c (letters_of_phrase h c hc)
  exact ⟨hmap.symm, hall⟩

theorem length_lower_of_spelling (h : q.lower ∈ phrases) : q.lower.length = q.length := by
  rw [← (lowered_of_spelling h).1, List.length_map]

/-- a spelling begins with a letter -/
theorem exists_cons_of_spelling (h : q.lower ∈ phrases) :
    ∃ c r, q = c :: r ∧ isBlank c = false := by
  have husable := phrases_usable _ h
  rw [← (lowered_of_spelling h).1] at husable
  cases q with
  | nil => exact absurd rfl husable.1
  | cons c r =>
    refine ⟨c, r, rfl, ?_⟩
    rw [← isBlank_lowered]
    exact husable.head_not_blank

/-- no phrase is the first words of another one -/
theorem phrases_prefix_free : ∀ p ∈ phrases, ∀ q ∈ phrases, ¬ p ++ [' '] <+: q := by
  decide

end
end Command

/-! ## the longest entry of a table -/

namespace Phrase

section
variable {lenient : Bool} {t : Text} {seen table : List (Text × Text)}

/-- the longest entry that fits, of equally long ones the first; or none, if none fits -/
def Best (lenient : Bool) (t : Text) (seen : List (Text × Text)) : Option (Text × Text) → Prop
  | none => ∀ x ∈ seen, fits lenient t x.1 = false
  | some e => ∃ before after, seen = before ++ e :: after ∧ fits lenient t e.1 = true ∧
      (∀ x ∈ before, fits lenient t x.1 = true → x.1.length < e.1.length) ∧
      ∀ x ∈ after, fits lenient t x.1 = true → x.1.length ≤ e.1.length

section
variable {best : Option (Text × Text)} (h : Best lenient t seen best) (e : Text × Text)
include h

/-- an entry that fits and is longer than what was best -/
theorem Best.replace (hfits : fits lenient t e.1 = true)
    (hlonger : best.all (fun b => b.1.length < e.1.length) = true) :
    Best lenient t (seen ++ [e]) (some e) := by
  refine ⟨seen, [], rfl, hfits, fun x hx hxf => ?_, fun x hx => absurd hx List.not_mem_nil⟩
  cases best with
  | none =>
    rw [h x hx] at hxf
    cases hxf
  | some b =>
    obtain ⟨before, after, rfl, -, hbefore, hafter⟩ := h
    have hlt : b.1.length < e.1.length := of_decide_eq_true hlonger
    rcases List.mem_append.1 hx with hx | hx
    · exact Nat.lt_trans (hbefore x hx hxf) hlt
    · rcases List.mem_cons.1 hx with rfl | hx
      · exact hlt
      · exact Nat.lt_of_le_of_lt (hafter x hx hxf) hlt

/-- an entry that does not fit or is no longer -/
theorem Best.keep (hworse : fits lenient t e.1 = true →
      best.all (fun b => b.1.length < e.1.length) = false) :
    Best lenient t (seen ++ [e]) best := by
  cases best with
  | none =>
    intro x hx
    rcases List.mem_append.1 hx with hx | hx
    · exact h x hx
    · rw [List.mem_singleton.1 hx]
      refine Bool.eq_false_iff.2 fun hfits => ?_
      cases hworse hfits
  | some b =>
    obtain ⟨before, after, rfl, hb, hbefore, hafter⟩ := h
    refine ⟨before, after ++ [e], by simp, hb, hbefore, fun x hx hxf => ?_⟩
    rcases List.mem_append.1 hx with hx | hx
    · exact hafter x hx hxf
    · obtain rfl := List.mem_singleton.1 hx
      exact Nat.le_of_not_lt (of_decide_eq_false (hworse hxf))

/-- one entry more -/
theorem best_better : Best lenient t (seen ++ [e]) (better lenient t best e) := by
  unfold better
  split
  · next hbetter =>
    obtain ⟨hfits, hlonger⟩ := Bool.and_eq_true_iff.1 hbetter
    exact h.replace e hfits hlonger
  · next hworse =>
    exact h.keep e fun hfits => Bool.eq_false_iff.2 fun hlonger =>
      hworse (Bool.and_eq_true_iff.2 ⟨hfits, hlonger⟩)

end

theorem best_longest? (lenient : Bool) (t : Text) (table : List (Text × Text)) :
    Best lenient t table (longest? lenient t table) := by
  have hfold (es seen : List (Text × Text)) (best : Option (Text × Text))
      (h : Best lenient t seen best) :
      Best lenient t (seen ++ es) (es.foldl (better lenient t) best) := by
    induction es generalizing seen best with
    | nil =>
      rw [List.append_nil]
      exact h
    | cons e es ih =>
      have := ih _ _ (best_better h e)
      rwa [List.append_assoc] at this
  exact hfold table [] none fun x hx => absurd hx List.not_mem_nil

theorem length_le_of_best {e x : Text × Text} (h : Best lenient t seen (some e)) (hx : x ∈ seen)
    (hfits : fits lenient t x.1 = true) : x.1.length ≤ e.1.length := by
  obtain ⟨before, after, rfl, -, hbefore, hafter⟩ := h
  rcases List.mem_append.1 hx with hx | hx
  · exact Nat.le_of_lt (hbefore x hx hfits)
  · rcases List.mem_cons.1 hx with rfl | hx
    · exact Nat.le_refl _
    · exact hafter x hx hfits

theorem Best.mem {e : Text × Text} (h : Best lenient t seen (some e)) : e ∈ seen := by
  obtain ⟨before, after, rfl, -⟩ := h
  exact List.mem_append_right _ List.mem_cons_self

theorem Best.fits {e : Text × Text} (h : Best lenient t seen (some e)) :
    fits lenient t e.1 = true := by
  obtain ⟨-, -, -, hfits, -⟩ := h
  exact hfits

/-- no two entries are the longest one -/
theorem Best.unique {o o' : Option (Text × Text)} (h : Best lenient t seen o)
    (h' : Best lenient t seen o') : o = o' := by
  have hnone {e : Text × Text} (hn : Best lenient t seen none) (he : Best lenient t seen (some e)) :
      False := by
    have hfits := hn e he.mem
    rw [he.fits] at hfits
    cases hfits
  cases o with
  | none =>
    cases o' with
    | none => rfl
    | some e' => exact (hnone h h').elim
  | some e =>
    cases o' with
    | none => exact (hnone h' h).elim
    | some e' =>
      have hle := length_le_of_best h' h.mem h.fits
      have hle' := length_le_of_best h h'.mem h'.fits
      obtain ⟨before, after, rfl, hfits, hbefore, -⟩ := h
      obtain ⟨before', after', hsplit, hfits', hbefore', -⟩ := h'
      -- of two that are equally long, neither is listed before the other
      rcases List.append_eq_append_iff.1 hsplit with ⟨mid, rfl, hmid⟩ | ⟨mid, rfl, hmid⟩
      · cases mid with
        | nil => rw [(List.cons.inj hmid).1]
        | cons x mid =>
          obtain ⟨rfl, -⟩ := List.cons.inj hmid
          have hlt := hbefore' e (by simp) hfits
          omega
      · cases mid with
        | nil => rw [(List.cons.inj hmid).1]
        | cons x mid =>
          obtain ⟨rfl, -⟩ := List.cons.inj hmid
          have hlt := hbefore e' (by simp) hfits'
          omega

theorem longest?_eq_iff {o : Option (Text × Text)} :
    longest? lenient t table = o ↔ Best lenient t table o :=
  ⟨fun h => h ▸ best_longest? lenient t table, fun h => (best_longest? lenient t table).unique h⟩

/-! ## what fits -/

theorem fits_iff (spelling : Text) :
    fits lenient t spelling = true ↔ spelling.length ≤ t.length ∧
      Text.lower (t.take spelling.length) = spelling.lower ∧
        isBoundary lenient (t.drop spelling.length).head? = true := by
  simp [fits, and_assoc]

theorem isBoundary_strict (o : Option Char) : isBoundary false o = o.all isBlank := by
  cases o <;> simp [isBoundary]

variable {q r : Text}

theorem fits_of_spelling (hq : q.lower ∈ Command.phrases) (hr : r.head?.all isBlank = true) :
    fits false (q ++ r) q.lower = true := by
  have hlen := Command.length_lower_of_spelling hq
  rw [fits_iff, hlen, List.take_left, List.drop_left, isBoundary_strict,
    Command.phrases_lower _ hq, List.length_append]
  exact ⟨Nat.le_add_right _ _, rfl, hr⟩

/-- a longer phrase would have the one that is spelled as its first words -/
theorem length_le_of_spelling (hq : q.lower ∈ Command.phrases) (hr : r.head?.all isBlank = true)
    {p : Text} (hp : p ∈ Command.phrases) (h : fits false (q ++ r) p = true) :
    p.length ≤ q.length := by
  obtain ⟨hle, hlower, -⟩ := (fits_iff _).1 h
  rw [Command.phrases_lower p hp] at hlower
  by_contra hlt
  obtain ⟨k, hk⟩ : ∃ k, p.length = q.length + (k + 1) := ⟨p.length - q.length - 1, by omega⟩
  cases r with
  | nil =>
    rw [List.append_nil] at hle
    omega
  | cons c r =>
    have hc : isBlank c = true := hr
    rw [hk, List.take_length_add_append, List.take_succ_cons, Text.lower_append_blank hc] at hlower
    have hmem : c ∈ p := by
      rw [← hlower]
      simp
    rw [← (Command.phrases_usable p hp).2] at hmem
    obtain rfl := Text.eq_space_of_mem_squeeze hmem hc
    refine Command.phrases_prefix_free _ hq p hp ⟨Text.lower (r.take k), ?_⟩
    rw [← hlower, List.append_assoc]
    rfl

/-- of the phrases, the one that is spelled is the longest that fits -/
theorem longest?_of_spelling (hq : q.lower ∈ Command.phrases) (hr : r.head?.all isBlank = true) :
    longest? false (q ++ r) (Command.phrases.map fun p => (p, p)) = some (q.lower, q.lower) := by
  have hbest := best_longest? false (q ++ r) (Command.phrases.map fun p => (p, p))
  have hfits := fits_of_spelling hq hr
  have hmem : (q.lower, q.lower) ∈ Command.phrases.map fun p => (p, p) := List.mem_map_of_mem hq
  cases hl : longest? false (q ++ r) (Command.phrases.map fun p => (p, p)) with
  | none =>
    rw [hl] at hbest
    rw [hbest _ hmem] at hfits
    cases hfits
  | some e =>
    rw [hl] at hbest
    obtain ⟨p, hp, rfl⟩ := List.mem_map.1 (mem_of_longest? hl)
    have hge := length_le_of_best hbest hmem hfits
    obtain ⟨-, -, -, he, -⟩ := hbest
    -- the two are equally long, so they are the same characters
    have hle := length_le_of_spelling hq hr hp he
    have hlen := Command.length_lower_of_spelling hq
    have heq : p.length = q.length := by
      dsimp only at hge
      omega
    obtain ⟨-, hlower, -⟩ := (fits_iff _).1 he
    rw [heq, List.take_left, Command.phrases_lower p hp] at hlower
    rw [hlower]

theorem exists_of_longest? {e : Text × Text}
    (h : longest? false t (Command.phrases.map fun p => (p, p)) = some e) :
    ∃ q r, t = q ++ r ∧ q.lower ∈ Command.phrases ∧ r.head?.all isBlank = true ∧
      e = (q.lower, q.lower) := by
  have hbest := best_longest? false t (Command.phrases.map fun p => (p, p))
  rw [h] at hbest
  obtain ⟨-, -, -, hfits, -⟩ := hbest
  obtain ⟨p, hp, rfl⟩ := List.mem_map.1 (mem_of_longest? h)
  obtain ⟨-, hlower, hafter⟩ := (fits_iff _).1 hfits
  rw [Command.phrases_lower p hp] at hlower
  rw [isBoundary_strict] at hafter
  refine ⟨t.take p.length, t.drop p.length, (List.take_append_drop _ _).symm, ?_, hafter, ?_⟩
  · rwa [hlower]
  · rw [hlower]

/-! ## what is heard after a trigger -/

theorem blanksAtStart_append {gap : Text} (hgap : gap.allBlank = true) {c : Char}
    (hc : isBlank c = false) (r : Text) :
    Text.blanksAtStart (gap ++ c :: r) = gap.length := by
  have hall : ∀ x ∈ gap, isBlank x = true := List.all_eq_true.1 hgap
  rw [Text.blanksAtStart, List.takeWhile_append_of_pos hall,
    List.takeWhile_cons_of_neg (by simp [hc]), List.append_nil]

section
variable {ctx : Context} (hcleanup : ctx.cleanup = false)
include hcleanup

/-- **A spelling between blanks is heard as its phrase.** -/
theorem match?_of_spelling {gap : Text} (hgap : gap.allBlank = true)
    (hq : q.lower ∈ Command.phrases) (hr : r.head?.all isBlank = true) :
    match? (Segment.lexicon ctx) (gap ++ (q ++ r)) =
      some ⟨q.lower, gap.length + q.length, false⟩ := by
  have hskip : Phrase.gap false (gap ++ (q ++ r)) = gap.length := by
    obtain ⟨c, w, rfl, hc⟩ := Command.exists_cons_of_spelling hq
    exact blanksAtStart_append hgap hc (w ++ r)
  have hne : (q ++ r).isEmpty = false := by
    obtain ⟨c, w, rfl, -⟩ := Command.exists_cons_of_spelling hq
    rfl
  unfold match? Segment.lexicon
  dsimp only
  rw [hcleanup, hskip, List.drop_left, hne, if_neg Bool.false_ne_true, longest?_of_spelling hq hr]
  dsimp only
  rw [Command.length_lower_of_spelling hq]

/-- **Nothing else is heard as a phrase.** -/
theorem exists_of_match? {t : Text} {m : Match} (h : match? (Segment.lexicon ctx) t = some m) :
    ∃ gap q r, t = gap ++ (q ++ r) ∧ gap.allBlank = true ∧ q.lower ∈ Command.phrases ∧
      r.head?.all isBlank = true ∧ m = ⟨q.lower, gap.length + q.length, false⟩ := by
  have hsplit : t.take t.blanksAtStart = t.takeWhile isBlank :=
    (List.prefix_iff_eq_take.1 (List.takeWhile_prefix isBlank)).symm
  have hskip : Phrase.gap false t = t.blanksAtStart := rfl
  unfold match? Segment.lexicon at h
  dsimp only at h
  rw [hcleanup, if_neg Bool.false_ne_true, hskip] at h
  split at h
  · cases h
  · split at h
    · next spelling phrase hl =>
      obtain ⟨q, r, hrest, hq, hr, heq⟩ := exists_of_longest? hl
      obtain ⟨rfl, rfl⟩ := Prod.mk.inj heq
      refine ⟨t.take t.blanksAtStart, q, r, ?_, ?_, hq, hr, ?_⟩
      · rw [← hrest, List.take_append_drop]
      · rw [hsplit]
        exact Text.allBlank_takeWhile t
      · have hlen : (t.take t.blanksAtStart).length = t.blanksAtStart := by
          rw [hsplit]
          rfl
        cases h
        rw [hlen, Command.length_lower_of_spelling hq]
    · rw [longest?, List.foldl_nil] at h
      cases h

end
end
end Phrase
end Dictation
