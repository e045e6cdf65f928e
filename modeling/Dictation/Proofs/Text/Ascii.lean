import Dictation.Proofs.Text.Case

/-!
# Case of ASCII letters

Among the ASCII characters, lower case is one-to-one and the same for all purposes: that of a text,
that of a single character and the case key say the same.

* `Text.Ascii`            a text of ASCII characters;
* `lowered_of_ascii`      of all runs of capitals, one matters to ASCII characters;
* `lower_of_ascii`        the lower case of such a text, letter by letter;
* `lower_eq_of_map_caseKey`   two such texts alike but for their case have one lower case;
* `ascii_of_map_toLower`  a text is ASCII if its lower case is;
* `lowerAfter_of_ascii_lower`, `map_caseKey_of_ascii_lower`   a text of any characters whose lower
                          case is ASCII;
* `infix_lower`           such a lower case of a part is in the lower case of the whole.
-/

namespace Dictation.Text

def Ascii (t : Text) : Prop := ∀ c ∈ t, c.toNat < 128

instance : DecidablePred Ascii := fun t =>
  decidable_of_iff (t.all fun c => decide (c.toNat < 128)) (by simp [Ascii])

section
variable {c : Char} {s t : Text}

/-! ## one character -/

/-- what holds of 128 characters, holds of the ASCII ones -/
theorem forall_ascii {P : Char → Prop} (h : ∀ n < 128, P (Char.ofNat n)) (hc : c.toNat < 128) :
    P c := by
  have := h _ hc
  rwa [Char.ofNat_toNat] at this

theorem toLower_eq_or_ascii (c : Char) : c.toLower = c ∨ c.toNat < 128 := by
  unfold Char.toLower
  split
  · next hcapital =>
    exact .inr (Nat.lt_of_le_of_lt (UInt32.le_iff_toNat_le.1 hcapital.2) (by decide))
  · exact .inl rfl

theorem ascii_of_toLower (h : c.toLower.toNat < 128) : c.toNat < 128 := by
  rcases toLower_eq_or_ascii c with hc | hc
  · rwa [hc] at h
  · exact hc

theorem toLower_of_ascii (h : c.toNat < 128) : c.toLower.toNat < 128 :=
  forall_ascii (P := fun c => c.toLower.toNat < 128) (by decide) h

/-- the only run of capitals among the ASCII characters -/
def asciiCapitals : CaseRun := ⟨0x41, 0x5a, 1, 32⟩

theorem capitalRuns_cons : capitalRuns = asciiCapitals :: capitalRuns.tail := rfl

theorem capitalRuns_tail_beyond : ∀ r ∈ capitalRuns.tail, 128 ≤ r.first := by decide +kernel

theorem goal_asciiCapitals (h : c.toNat < 128) :
    (if asciiCapitals.covers c.toNat then Char.ofNat (asciiCapitals.goal c.toNat) else c) =
      c.toLower :=
  forall_ascii (P := fun c => (if asciiCapitals.covers c.toNat then
    Char.ofNat (asciiCapitals.goal c.toNat) else c) = c.toLower) (by decide) h

theorem lowered_of_ascii (h : c.toNat < 128) : lowered c = c.toLower := by
  have hrest : capitalRuns.tail.find? (·.covers c.toNat) = none := by
    refine List.find?_eq_none.2 fun r hr hc => ?_
    have hfirst := capitalRuns_tail_beyond r hr
    have hle := ((r.covers_iff _).1 hc).1
    omega
  rw [← goal_asciiCapitals h, lowered, capitalRuns_cons, List.find?_cons, hrest]
  cases asciiCapitals.covers c.toNat <;> rfl

theorem sharedKey_of_ascii (h : c.toNat < 128) : sharedKey c = c.toNat :=
  forall_ascii (P := fun c => sharedKey c = c.toNat) (by decide) h

/-- lower case and case key of a character, which is neither of the two special capitals -/
theorem ascii_case (h : c.toNat < 128) : lowered c = c.toLower ∧
    caseKey c = c.toLower.toNat ∧ c ≠ capitalSigma ∧ c ≠ capitalDottedI := by
  refine ⟨lowered_of_ascii h, ?_, ?_, ?_⟩
  · rw [caseKey_eq_sharedKey, lowered_of_ascii h, sharedKey_of_ascii (toLower_of_ascii h)]
  · rintro rfl
    exact absurd h (by decide)
  · rintro rfl
    exact absurd h (by decide)

/-! ## texts -/

theorem ascii_of_map_toLower (h : Ascii (t.map Char.toLower)) : Ascii t := fun _ hc =>
  ascii_of_toLower (h _ (List.mem_map_of_mem hc))

theorem lower_of_ascii (h : Ascii t) : t.lower = t.map Char.toLower := by
  have hall (cased : Bool) : lowerAfter cased t = t.map Char.toLower := by
    induction t generalizing cased with
    | nil => rfl
    | cons c t ih =>
      obtain ⟨hlowered, -, hsigma, hdot⟩ := ascii_case (h c List.mem_cons_self)
      unfold lowerAfter
      dsimp only
      rw [beq_eq_false_iff_ne.2 hsigma, beq_eq_false_iff_ne.2 hdot, if_neg Bool.false_ne_true,
        if_neg Bool.false_ne_true, hlowered, List.map_cons,
        ih fun x hx => h x (List.mem_cons_of_mem _ hx)]
  exact hall false

theorem ascii_lower (h : Ascii t) : Ascii t.lower := by
  intro c hc
  rw [lower_of_ascii h] at hc
  obtain ⟨x, hx, rfl⟩ := List.mem_map.1 hc
  exact toLower_of_ascii (h x hx)

theorem map_caseKey_of_ascii (h : Ascii t) :
    t.map caseKey = (t.map Char.toLower).map Char.toNat := by
  rw [List.map_map]
  exact List.map_congr_left fun c hc => (ascii_case (h c hc)).2.1

theorem lower_eq_of_map_caseKey (hs : Ascii s) (ht : Ascii t)
    (h : s.map caseKey = t.map caseKey) : s.lower = t.lower := by
  rw [map_caseKey_of_ascii hs, map_caseKey_of_ascii ht] at h
  rw [lower_of_ascii hs, lower_of_ascii ht]
  exact List.map_injective_iff.2 (fun _ _ => Char.toNat_inj.1) h

/-! ## texts with an ASCII lower case -/

/-- a text with an ASCII lower case is lowered character by character -/
theorem lowerAfter_of_ascii_lower {cased : Bool} (h : Ascii (t.lowerAfter cased)) :
    t.lowerAfter cased = t.map lowered ∧ ∀ c ∈ t, c ≠ capitalSigma ∧ c ≠ capitalDottedI := by
  induction t generalizing cased with
  | nil => exact ⟨rfl, fun c hc => absurd hc List.not_mem_nil⟩
  | cons x t ih =>
    unfold lowerAfter at h ⊢
    dsimp only at h ⊢
    split at h
    · -- the small letters of a capital sigma are Greek
      have hhead := h _ List.mem_cons_self
      split at hhead
      · exact absurd hhead (by decide)
      · exact absurd hhead (by decide)
    · next hs =>
      split at h
      · exact absurd (h _ (List.mem_cons_of_mem _ List.mem_cons_self)) (by decide)
      · next hd =>
        obtain ⟨hrest, hall⟩ := ih fun c hc => h c (List.mem_cons_of_mem _ hc)
        rw [if_neg hs, if_neg hd, List.map_cons, hrest]
        refine ⟨rfl, List.forall_mem_cons.2 ⟨⟨?_, ?_⟩, hall⟩⟩
        · rintro rfl
          exact hs (beq_self_eq_true _)
        · rintro rfl
          exact hd (beq_self_eq_true _)

/-- the case keys of a text with an ASCII lower case are that lower case -/
theorem map_caseKey_of_ascii_lower (h : Ascii t.lower) :
    t.map caseKey = t.lower.map Char.toNat := by
  have hdotted : capitalDottedI ∉ t := fun hmem =>
    ((lowerAfter_of_ascii_lower h).2 _ hmem).2 rfl
  rw [← map_sharedKey_lower hdotted]
  exact List.map_congr_left fun c hc => sharedKey_of_ascii (h c hc)

theorem prefix_lowerAfter (h : ∀ c ∈ s, c ≠ capitalSigma ∧ c ≠ capitalDottedI) (cased : Bool)
    (b : Text) : s.map lowered <+: lowerAfter cased (s ++ b) := by
  induction s generalizing cased with
  | nil => exact List.nil_prefix
  | cons c s ih =>
    obtain ⟨⟨hsigma, hdot⟩, hrest⟩ := List.forall_mem_cons.1 h
    rw [List.cons_append, lowerAfter, beq_eq_false_iff_ne.2 hsigma,
      beq_eq_false_iff_ne.2 hdot, if_neg Bool.false_ne_true, if_neg Bool.false_ne_true,
      List.map_cons, List.cons_prefix_cons]
    exact ⟨rfl, ih hrest _⟩

/-- an ASCII lower case of a part of a text is in the lower case of the text -/
theorem infix_lower (hs : Ascii s.lower) (h : s <:+: t) : s.lower <:+: t.lower := by
  obtain ⟨hmap, hall⟩ := lowerAfter_of_ascii_lower hs
  obtain ⟨a, b, rfl⟩ := h
  rw [lower, hmap, List.append_assoc]
  have hinfix (cased : Bool) : s.map lowered <:+: lowerAfter cased (a ++ (s ++ b)) := by
    induction a generalizing cased with
    | nil => exact (prefix_lowerAfter hall cased b).isInfix
    | cons c a ih =>
      rw [List.cons_append, lowerAfter]
      split
      · exact (ih _).trans (List.suffix_cons _ _).isInfix
      · split
        · exact (ih _).trans ((List.suffix_cons _ _).trans (List.suffix_cons _ _)).isInfix
        · exact (ih _).trans (List.suffix_cons _ _).isInfix
  exact hinfix false

end
end Dictation.Text
