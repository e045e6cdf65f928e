import Dictation.Proofs.Text.Ascii
import Dictation.Spacing
import Dictation.Text.Artifact
import Dictation.Text.Boundary

/-!
# Texts in small letters

Small letters for the ASCII capitals, and every other character as it is.  Blanks, marks, letters
and digits stay what they are, so whatever is cut off a text by them is cut off the text in small
letters too.

* `Text.small`       a text in small letters; texts that differ in ASCII case alone have the same;
* `apply_toLower`    what ASCII case makes no difference to, decided on the capitals;
* `CaseFree`         a test that ASCII case makes no difference to; `caseFree_of_apart`: for one,
                     a set of characters without ASCII letters;
* `stripArtifacts_small`, `stripTrailing_small` and so on   the clean-up of a text in small letters.
-/

namespace Dictation

/-! ## one character -/

theorem toLower_eq_or (c : Char) : c.toLower = c ∨ ∃ n < 26, c = Char.ofNat (65 + n) := by
  unfold Char.toLower
  split
  · next h =>
    have hle : 65 ≤ c.toNat := UInt32.le_iff_toNat_le.1 h.1
    have hle' : c.toNat ≤ 90 := UInt32.le_iff_toNat_le.1 h.2
    refine .inr ⟨c.toNat - 65, by omega, ?_⟩
    rw [Nat.add_sub_cancel' hle, Char.ofNat_toNat]
  · exact .inl rfl

/-- what the capitals and their small letters have in common, all characters and theirs have -/
theorem apply_toLower {α : Type} {f : Char → α}
    (h : ∀ n < 26, f (Char.ofNat (65 + n)).toLower = f (Char.ofNat (65 + n))) (c : Char) :
    f c.toLower = f c := by
  rcases toLower_eq_or c with hc | ⟨n, hn, rfl⟩
  · rw [hc]
  · exact h n hn

theorem toLower_toLower (c : Char) : c.toLower.toLower = c.toLower :=
  apply_toLower (f := Char.toLower) (by decide) c

theorem lowered_toLower (c : Char) : lowered c.toLower = lowered c := by
  rcases Text.toLower_eq_or_ascii c with hc | hc
  · rw [hc]
  · rw [Text.lowered_of_ascii (Text.toLower_of_ascii hc), Text.lowered_of_ascii hc, toLower_toLower]

theorem caseKey_toLower (c : Char) : caseKey c.toLower = caseKey c := by
  rw [caseKey_eq_sharedKey, caseKey_eq_sharedKey, lowered_toLower]

/-- a test that ASCII case makes no difference to -/
def CaseFree (p : Char → Bool) : Prop := ∀ c, p c.toLower = p c

theorem caseFree_isAttaching : CaseFree isAttaching := apply_toLower (by decide)
theorem caseFree_isMark : CaseFree isMark := apply_toLower (by decide)
theorem caseFree_isFiller : CaseFree isFiller := apply_toLower (by decide)
theorem caseFree_isAlnum : CaseFree isAlnum := apply_toLower (by decide)
theorem caseFree_isWordChar : CaseFree isWordChar := apply_toLower (by decide)

def asciiLetters : Ranges := [(0x41, 0x5a), (0x61, 0x7a)]

theorem asciiLetters_table : ∀ n < 26, asciiLetters.contains (Char.ofNat (65 + n)).toNat = true ∧
    asciiLetters.contains (Char.ofNat (65 + n)).toLower.toNat = true := by decide

/-- a set without ASCII letters -/
theorem caseFree_of_apart {rs : Ranges} (h : asciiLetters.apart rs = true) :
    CaseFree fun c => rs.contains c.toNat := by
  refine apply_toLower (f := fun c => rs.contains c.toNat) fun n hn => ?_
  obtain ⟨hcapital, hsmall⟩ := asciiLetters_table n hn
  rw [Ranges.not_contains_of_apart h hcapital, Ranges.not_contains_of_apart h hsmall]

theorem caseFree_isBlank : CaseFree isBlank := caseFree_of_apart (by decide)

theorem CaseFree.or {p q : Char → Bool} (hp : CaseFree p) (hq : CaseFree q) :
    CaseFree fun c => p c || q c := fun c => by
  dsimp only
  rw [hp, hq]

/-- a character that is no letter is the small form of itself alone -/
theorem toLower_eq_iff {d : Char}
    (h : ∀ n < 26, ((Char.ofNat (65 + n)).toLower == d) = (Char.ofNat (65 + n) == d)) (c : Char) :
    c.toLower = d ↔ c = d := by
  have := apply_toLower (f := (· == d)) h c
  rw [← beq_iff_eq, ← beq_iff_eq (b := d), this]

theorem isBoundary_toLower (lenient : Bool) (o : Option Char) :
    isBoundary lenient (o.map Char.toLower) = isBoundary lenient o := by
  cases o with
  | none => rfl
  | some c => rw [Option.map_some, isBoundary_some, isBoundary_some, caseFree_isBlank,
      caseFree_isMark]

/-! ## texts -/

namespace Text

def small (t : Text) : Text := t.map Char.toLower

section
variable {p : Char → Bool} (t : Text)

theorem small_append (s t : Text) : small (s ++ t) = small s ++ small t := List.map_append
theorem small_cons (c : Char) (t : Text) : small (c :: t) = c.toLower :: small t := rfl
theorem length_small : (small t).length = t.length := List.length_map _
theorem small_take (n : Nat) : (small t).take n = small (t.take n) := List.map_take.symm
theorem small_drop (n : Nat) : (small t).drop n = small (t.drop n) := List.map_drop.symm
theorem getLast?_small : (small t).getLast? = t.getLast?.map Char.toLower := List.getLast?_map
theorem head?_small : (small t).head? = t.head?.map Char.toLower := List.head?_map
theorem isEmpty_small : (small t).isEmpty = t.isEmpty := List.isEmpty_map

theorem map_caseKey_small : (small t).map caseKey = t.map caseKey := by
  rw [small, List.map_map]
  exact List.map_congr_left fun c _ => caseKey_toLower c

theorem beginsAlike_small (u t : Text) : u.beginsAlike (small t) = u.beginsAlike t := by
  rw [Bool.eq_iff_iff, beginsAlike_iff, beginsAlike_iff, map_caseKey_small]

theorem all_small (hp : CaseFree p) : (small t).all p = t.all p := by
  rw [small, List.all_map]
  congr 1
  exact funext hp

theorem any_small (hp : CaseFree p) : (small t).any p = t.any p := by
  rw [small, List.any_map]
  congr 1
  exact funext hp

theorem takeWhile_small (hp : CaseFree p) : (small t).takeWhile p = small (t.takeWhile p) := by
  rw [small, List.takeWhile_map, show p ∘ Char.toLower = p from funext hp]
  rfl

theorem dropWhile_small (hp : CaseFree p) : (small t).dropWhile p = small (t.dropWhile p) := by
  rw [small, List.dropWhile_map, show p ∘ Char.toLower = p from funext hp]
  rfl

theorem dropEndWhile_small (hp : CaseFree p) :
    (small t).dropEndWhile p = small (t.dropEndWhile p) := by
  have hreverse (s : Text) : s.small.reverse = small s.reverse := List.map_reverse.symm
  rw [dropEndWhile, hreverse, dropWhile_small _ hp, hreverse]
  rfl

/-! ## what is cut off -/

theorem allBlank_small : (small t).allBlank = t.allBlank := all_small t caseFree_isBlank
theorem trimLeft_small : (small t).trimLeft = small t.trimLeft := dropWhile_small t caseFree_isBlank
theorem trimRight_small : (small t).trimRight = small t.trimRight :=
  dropEndWhile_small t caseFree_isBlank

theorem trim_small : (small t).trim = small t.trim := by
  rw [trim, trimLeft_small, trimRight_small, trim]

theorem stripLeading_small : (small t).stripLeading = small t.stripLeading :=
  dropWhile_small t (caseFree_isBlank.or caseFree_isAttaching)

theorem stripTrailing_small : (small t).stripTrailing = small t.stripTrailing := by
  unfold stripTrailing
  dsimp only
  rw [trimRight_small, dropEndWhile_small _ caseFree_isAttaching, length_small, length_small]
  split
  · rfl
  · rfl

theorem blanksAtStart_small : (small t).blanksAtStart = t.blanksAtStart := by
  rw [blanksAtStart, takeWhile_small t caseFree_isBlank, length_small, blanksAtStart]

theorem fillersAtStart_small : (small t).fillersAtStart = t.fillersAtStart := by
  rw [fillersAtStart, takeWhile_small t (caseFree_isBlank.or caseFree_isFiller), length_small,
    fillersAtStart]

/-! ## artifacts -/

theorem artifactLength_small : (small t).artifactLength = t.artifactLength := by
  cases t with
  | nil => rfl
  | cons c t =>
    by_cases hc : c = '['
    · subst hc
      show artifactLength ('[' :: small t) = _
      simp only [artifactLength, takeWhile_small _ caseFree_isBlank,
        dropWhile_small _ caseFree_isBlank, takeWhile_small _ caseFree_isWordChar,
        dropWhile_small _ caseFree_isWordChar, length_small, isEmpty_small]
      generalize (List.dropWhile isBlank _) = rest
      cases rest with
      | nil => rfl
      | cons d rest =>
        by_cases hd : d = ']'
        · subst hd
          rfl
        · have hd' : d.toLower ≠ ']' := fun h => hd ((toLower_eq_iff (by decide) d).1 h)
          rw [small_cons]
          split
          · next heq => exact absurd (List.cons.inj heq).1 hd'
          · split
            · next heq => exact absurd (List.cons.inj heq).1 hd
            · rfl
    · have hc' : c.toLower ≠ '[' := fun h => hc ((toLower_eq_iff (by decide) c).1 h)
      rw [small_cons, artifactLength_cons_of_ne hc, artifactLength_cons_of_ne hc']

theorem removeArtifactsAfter_small (skip : Nat) :
    (small t).removeArtifactsAfter skip = small (t.removeArtifactsAfter skip) := by
  induction t generalizing skip with
  | nil => cases skip <;> rfl
  | cons c t ih =>
    cases skip with
    | succ skip => exact ih skip
    | zero =>
      have hlen := artifactLength_small (c :: t)
      rw [small_cons] at hlen ⊢
      rw [removeArtifactsAfter, removeArtifactsAfter, hlen]
      cases artifactLength (c :: t) with
      | zero =>
        dsimp only
        rw [ih, small_cons]
      | succ n => exact ih n

theorem stripArtifacts_small : (small t).stripArtifacts = small t.stripArtifacts := by
  rw [stripArtifacts, removeArtifacts, removeArtifactsAfter_small, trim_small]
  rfl

end
end Text

/-! ## spaces between pieces -/

namespace Spacing

theorem wantsSpace_small (t : Text) : wantsSpace t.small = wantsSpace t := by
  cases t with
  | nil => rfl
  | cons c t => rw [Text.small_cons, wantsSpace_cons, wantsSpace_cons, caseFree_isAttaching]

theorem endsLine_small (t : Text) : endsLine t.small = endsLine t := by
  rw [endsLine, endsLine, Text.getLast?_small]
  cases t.getLast? with
  | none => rfl
  | some c =>
    rw [Option.map_some, Bool.eq_iff_iff, beq_iff_eq, beq_iff_eq, Option.some_inj, Option.some_inj]
    exact toLower_eq_iff (by decide) c

theorem separator_small (s t : Text) : separator s.small t.small = separator s t := by
  rw [separator, separator, Text.isEmpty_small, endsLine_small, wantsSpace_small]

end Spacing
end Dictation
