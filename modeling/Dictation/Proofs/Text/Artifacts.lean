import Dictation.Proofs.Text.Ends
import Dictation.Text.Artifact

/-!
# What is left of a text without its artifacts

An artifact has brackets at its ends and none within, so two artifacts of one text have no
character in common, and one pass takes all of them out.  What is left has an artifact in it only if
a removal has made it: a bracket pair closes around artifacts, and without them it is one itself.

* `IsArtifact`, `HasArtifact`   one artifact as it is written, and a text that has one in it;
* `artifact_induction`          a text from one character or artifact to the next;
* `Around`                      a text with artifacts among its characters;
* `Nests`                       an artifact around artifacts; `hasArtifact_removeArtifacts_iff`;
* `stripArtifacts_stripArtifacts_iff`   when a second pass changes nothing.
-/

namespace Dictation.Text

/-- an opening bracket, blanks, one or more word characters, blanks, a closing bracket -/
inductive IsArtifact : Text → Prop where
  | intro (gap name gap' : Text) (hgap : gap.all isBlank = true) (hne : name ≠ [])
      (hname : name.all isWordChar = true) (hgap' : gap'.all isBlank = true) :
      IsArtifact ('[' :: (gap ++ (name ++ (gap' ++ [']']))))

def HasArtifact (t : Text) : Prop := ∃ a, IsArtifact a ∧ a <:+: t

section
variable {a r s t u w : Text} {c : Char}

/-! ## one artifact -/

theorem IsArtifact.ne_nil (h : IsArtifact a) : a ≠ [] := by
  obtain ⟨_, _, _, -, -, -, -⟩ := h
  exact List.cons_ne_nil _ _

theorem isWordChar_brackets : isWordChar '[' = false ∧ isWordChar ']' = false := by decide +kernel

/-- the only brackets of an artifact are at its ends -/
theorem IsArtifact.exists_inner (h : IsArtifact a) :
    ∃ w, a = '[' :: (w ++ [']']) ∧ '[' ∉ w ∧ ']' ∉ w := by
  obtain ⟨gap, name, gap', hgap, -, hname, hgap'⟩ := h
  have hnot {d : Char} (hblank : isBlank d = false) (hword : isWordChar d = false) :
      d ∉ gap ++ (name ++ gap') := by
    intro hd
    rcases List.mem_append.1 hd with hd | hd
    · rw [List.all_eq_true.1 hgap d hd] at hblank
      cases hblank
    · rcases List.mem_append.1 hd with hd | hd
      · rw [List.all_eq_true.1 hname d hd] at hword
        cases hword
      · rw [List.all_eq_true.1 hgap' d hd] at hblank
        cases hblank
  exact ⟨gap ++ (name ++ gap'), by simp, hnot (by decide) isWordChar_brackets.1,
    hnot (by decide) isWordChar_brackets.2⟩

/-- a run of characters of a kind, and what comes after it -/
theorem span_append {p : Char → Bool} (hs : s.all p = true) (ht : t.head?.all (!p ·) = true) :
    (s ++ t).takeWhile p = s ∧ (s ++ t).dropWhile p = t := by
  have hall : ∀ c ∈ s, p c = true := List.all_eq_true.1 hs
  rw [List.takeWhile_append_of_pos hall, List.dropWhile_append_of_pos hall]
  cases t with
  | nil => simp
  | cons c t =>
    have hc : ¬ p c = true := by simpa using ht
    rw [List.takeWhile_cons_of_neg hc, List.dropWhile_cons_of_neg hc, List.append_nil]
    exact ⟨rfl, rfl⟩

theorem artifactLength_append (h : IsArtifact a) (r : Text) :
    artifactLength (a ++ r) = a.length := by
  obtain ⟨gap, name, gap', hgap, hne, hname, hgap'⟩ := h
  obtain ⟨c, name, rfl⟩ := List.exists_cons_of_ne_nil hne
  have hc : isBlank c = false := by
    rw [List.all_cons, Bool.and_eq_true] at hname
    exact isBlank_of_isWordChar hname.1
  have hbehind : (gap' ++ ']' :: r).head?.all (!isWordChar ·) = true := by
    cases gap' with
    | nil => simpa using isWordChar_brackets.2
    | cons d gap' =>
      rw [List.all_cons, Bool.and_eq_true] at hgap'
      have hd : isWordChar d = false := by
        rw [Bool.eq_false_iff]
        intro hword
        rw [isBlank_of_isWordChar hword] at hgap'
        cases hgap'.1
      simpa using hd
  obtain ⟨hgap₁, hgap₂⟩ := span_append (t := (c :: name) ++ (gap' ++ ']' :: r)) hgap
    (by simpa using hc)
  obtain ⟨hname₁, hname₂⟩ := span_append hname hbehind
  obtain ⟨hgap'₁, hgap'₂⟩ := span_append (t := ']' :: r) hgap' rfl
  have hsplit : '[' :: (gap ++ ((c :: name) ++ (gap' ++ [']']))) ++ r =
      '[' :: (gap ++ ((c :: name) ++ (gap' ++ ']' :: r))) := by simp
  rw [hsplit, artifactLength]
  simp only [hgap₁, hgap₂, hname₁, hname₂, hgap'₁, hgap'₂]
  rw [if_neg (by simp)]
  simp only [List.length_cons, List.length_append, List.length_nil]
  omega

theorem exists_of_artifactLength {n : Nat} (h : artifactLength t = n + 1) :
    ∃ a r, t = a ++ r ∧ IsArtifact a ∧ a.length = n + 1 := by
  unfold artifactLength at h
  split at h
  · next r =>
    dsimp only at h
    split at h
    · next behind hclose =>
      split at h
      · cases h
      · next hname =>
        -- the runs that were read, put together again
        have hr := List.takeWhile_append_dropWhile (p := isBlank) (l := r)
        generalize hrest : r.dropWhile isBlank = rest at *
        have hwords := List.takeWhile_append_dropWhile (p := isWordChar) (l := rest)
        generalize hafter : rest.dropWhile isWordChar = after at *
        have hblanks := List.takeWhile_append_dropWhile (p := isBlank) (l := after)
        rw [hclose] at hblanks
        refine ⟨_, behind, ?_, .intro (r.takeWhile isBlank) (rest.takeWhile isWordChar)
          (after.takeWhile isBlank) List.all_takeWhile ?_ List.all_takeWhile List.all_takeWhile, ?_⟩
        · conv => lhs; rw [← hr, ← hwords, ← hblanks]
          simp
        · simpa using hname
        · simp only [List.length_cons, List.length_append, List.length_nil]
          omega
    · cases h
  · cases h

/-- what the pass looks for at a place is an artifact there -/
theorem artifactLength_eq_zero_iff (t : Text) :
    artifactLength t = 0 ↔ ∀ a, IsArtifact a → ¬ a <+: t := by
  constructor
  · rintro h a ha ⟨r, rfl⟩
    rw [artifactLength_append ha] at h
    exact ha.ne_nil (List.length_eq_zero_iff.1 h)
  · intro h
    cases hlen : artifactLength t with
    | zero => rfl
    | succ n =>
      obtain ⟨a, r, rfl, ha, -⟩ := exists_of_artifactLength hlen
      exact absurd (List.prefix_append a r) (h a ha)

theorem artifactLength_of_isPrefix (h : artifactLength t = 0) (hs : s <+: t) :
    artifactLength s = 0 :=
  (artifactLength_eq_zero_iff s).2 fun a ha has =>
    (artifactLength_eq_zero_iff t).1 h a ha (has.trans hs)

/-! ## one pass -/

/-- a text is empty, or begins with a character that no artifact begins at, or with an artifact -/
theorem artifact_induction {P : Text → Prop} (nil : P [])
    (keep : ∀ c r, artifactLength (c :: r) = 0 → P r → P (c :: r))
    (skip : ∀ a r, IsArtifact a → P r → P (a ++ r)) (t : Text) : P t := by
  induction hk : t.length using Nat.strongRecOn generalizing t with
  | ind k ih =>
    cases t with
    | nil => exact nil
    | cons c r =>
      cases hlen : artifactLength (c :: r) with
      | zero => exact keep c r hlen (ih r.length (by rw [← hk]; exact Nat.lt_succ_self _) r rfl)
      | succ n =>
        obtain ⟨a, s, hsplit, ha, hn⟩ := exists_of_artifactLength hlen
        rw [hsplit] at hk ⊢
        rw [List.length_append] at hk
        exact skip a s ha (ih s.length (by omega) s rfl)

theorem removeArtifactsAfter_eq (n : Nat) (t : Text) :
    removeArtifactsAfter n t = removeArtifacts (t.drop n) := by
  induction t generalizing n with
  | nil => rw [List.drop_nil]; cases n <;> rfl
  | cons c t ih =>
    cases n with
    | zero => rfl
    | succ n => rw [removeArtifactsAfter, ih, List.drop_succ_cons]

theorem removeArtifacts_cons (h : artifactLength (c :: t) = 0) :
    removeArtifacts (c :: t) = c :: removeArtifacts t := by
  rw [removeArtifacts, removeArtifactsAfter, h]
  rfl

theorem removeArtifacts_append_of_isArtifact (h : IsArtifact a) (t : Text) :
    removeArtifacts (a ++ t) = removeArtifacts t := by
  have hlen := artifactLength_append h t
  obtain ⟨c, b, rfl⟩ := List.exists_cons_of_ne_nil h.ne_nil
  rw [List.cons_append] at hlen ⊢
  rw [removeArtifacts, removeArtifactsAfter, hlen]
  show removeArtifactsAfter b.length (b ++ t) = _
  rw [removeArtifactsAfter_eq, List.drop_left]

/-! ## texts with no artifact -/

theorem HasArtifact.of_isInfix (h : HasArtifact s) (hs : s <:+: t) : HasArtifact t := by
  obtain ⟨a, ha, has⟩ := h
  exact ⟨a, ha, has.trans hs⟩

theorem not_hasArtifact_of_not_mem (h : '[' ∉ t) : ¬ HasArtifact t := by
  rintro ⟨a, ha, hin⟩
  obtain ⟨w, rfl, -, -⟩ := ha.exists_inner
  exact h (hin.subset List.mem_cons_self)

/-- what has no opening bracket before a text, and no closing one behind it, makes no artifact -/
theorem hasArtifact_append_append (hs : '[' ∉ s) (hu : ']' ∉ u) (h : HasArtifact (s ++ (t ++ u))) :
    HasArtifact t := by
  obtain ⟨a, ha, l, r, hsplit⟩ := h
  obtain ⟨w, rfl, hopen, hclose⟩ := ha.exists_inner
  have hleft : s ++ (t ++ u) = l ++ '[' :: (w ++ ']' :: r) := by
    rw [← hsplit]
    simp
  obtain ⟨x, -, hx⟩ := exists_of_not_mem_left hleft hs
  have hright : t ++ u = (x ++ '[' :: w) ++ ']' :: r := by
    rw [hx]
    simp
  obtain ⟨y, rfl, -⟩ := exists_of_not_mem_right hright hu
  exact ⟨_, ha, x, y, by simp⟩

theorem hasArtifact_cons (hc : c ≠ '[') : HasArtifact (c :: t) ↔ HasArtifact t := by
  refine ⟨fun h => ?_, fun h => h.of_isInfix (List.suffix_cons c t).isInfix⟩
  refine hasArtifact_append_append (s := [c]) (u := []) ?_ List.not_mem_nil ?_
  · rw [List.mem_singleton]
    exact hc.symm
  · rwa [List.append_nil]

theorem hasArtifact_append (hu : ']' ∉ u) : HasArtifact (t ++ u) ↔ HasArtifact t :=
  ⟨fun h => hasArtifact_append_append (s := []) List.not_mem_nil hu h,
    fun h => h.of_isInfix (List.prefix_append t u).isInfix⟩

theorem not_mem_of_allBlank {c : Char} (h : s.allBlank = true) (hc : isBlank c = false) :
    c ∉ s := by
  intro hm
  rw [isBlank_of_mem h hm] at hc
  cases hc

theorem hasArtifact_trim (t : Text) : HasArtifact t.trim ↔ HasArtifact t := by
  refine ⟨fun h => h.of_isInfix (trim_isInfix t), fun h => ?_⟩
  obtain ⟨lead, tail, hsplit, hlead, htail⟩ := exists_of_trim t
  rw [hsplit] at h
  exact hasArtifact_append_append (not_mem_of_allBlank hlead rfl) (not_mem_of_allBlank htail rfl) h

theorem length_removeArtifacts_le (t : Text) : (removeArtifacts t).length ≤ t.length := by
  induction t using artifact_induction with
  | nil => exact Nat.le_refl 0
  | keep c r h ih =>
    rw [removeArtifacts_cons h]
    exact Nat.succ_le_succ ih
  | skip a r ha ih =>
    rw [removeArtifacts_append_of_isArtifact ha, List.length_append]
    omega

/-- a text with an artifact gets shorter -/
theorem length_removeArtifacts_lt (h : HasArtifact t) : (removeArtifacts t).length < t.length := by
  induction t using artifact_induction with
  | nil =>
    obtain ⟨a, ha, hnil⟩ := h
    exact absurd (List.infix_nil.1 hnil) ha.ne_nil
  | keep c r hlen ih =>
    rw [removeArtifacts_cons hlen]
    obtain ⟨a, ha, hinfix⟩ := h
    rcases List.infix_cons_iff.1 hinfix with hprefix | hinfix
    · exact absurd hprefix ((artifactLength_eq_zero_iff _).1 hlen a ha)
    · exact Nat.succ_lt_succ (ih ⟨a, ha, hinfix⟩)
  | skip a r ha _ =>
    have hle := length_removeArtifacts_le r
    have hpos := List.length_pos_iff.2 ha.ne_nil
    rw [removeArtifacts_append_of_isArtifact ha, List.length_append]
    omega

theorem removeArtifacts_of_not_hasArtifact (h : ¬ HasArtifact t) : removeArtifacts t = t := by
  induction t using artifact_induction with
  | nil => rfl
  | keep c r hlen ih =>
    rw [removeArtifacts_cons hlen, ih fun hr => h (hr.of_isInfix (List.suffix_cons c r).isInfix)]
  | skip a r ha _ => exact absurd ⟨a, ha, (List.prefix_append a r).isInfix⟩ h

/-! ## artifacts around artifacts -/

/-- a text that is another one with artifacts among its characters -/
inductive Around : Text → Text → Prop where
  | nil : Around [] []
  | keep {t w : Text} (c : Char) : Around t w → Around (c :: t) (c :: w)
  | skip {a t w : Text} : IsArtifact a → Around t w → Around (a ++ t) w

/-- brackets around artifacts that would be one themselves without those -/
def Nests (t : Text) : Prop :=
  ∃ m w, '[' :: (m ++ [']']) <:+: t ∧ Around m w ∧ m ≠ w ∧ IsArtifact ('[' :: (w ++ [']']))

theorem around_removeArtifacts (t : Text) : Around t (removeArtifacts t) := by
  induction t using artifact_induction with
  | nil => exact .nil
  | keep c r h ih =>
    rw [removeArtifacts_cons h]
    exact .keep c ih
  | skip a r ha ih =>
    rw [removeArtifacts_append_of_isArtifact ha]
    exact .skip ha ih

theorem Around.removeArtifacts_eq (h : Around t w) (hw : '[' ∉ w) : removeArtifacts t = w := by
  induction h with
  | nil => rfl
  | keep c _ ih =>
    rw [List.mem_cons, not_or] at hw
    rw [removeArtifacts_cons (artifactLength_cons_of_ne (Ne.symm hw.1) _), ih hw.2]
  | skip ha _ ih => rw [removeArtifacts_append_of_isArtifact ha, ih hw]

/-- a character that is left, and the two parts of the text around it -/
theorem exists_of_removeArtifacts {x k : Text} (h : removeArtifacts t = x ++ c :: k) :
    ∃ s r, t = s ++ c :: r ∧ removeArtifacts s = x ∧ artifactLength (c :: r) = 0 ∧
      removeArtifacts r = k := by
  induction t using artifact_induction generalizing x with
  | nil => exact absurd h.symm (List.append_ne_nil_of_right_ne_nil _ (List.cons_ne_nil _ _))
  | keep d r hlen ih =>
    rw [removeArtifacts_cons hlen] at h
    cases x with
    | nil =>
      obtain ⟨rfl, rfl⟩ := List.cons.inj h
      exact ⟨[], r, rfl, rfl, hlen, rfl⟩
    | cons e x =>
      obtain ⟨rfl, hrest⟩ := List.cons.inj h
      obtain ⟨s, r', rfl, hs, hc, hr⟩ := ih hrest
      refine ⟨d :: s, r', rfl, ?_, hc, hr⟩
      have hshorter := artifactLength_of_isPrefix hlen (List.prefix_append (d :: s) _)
      rw [removeArtifacts_cons hshorter, hs]
  | skip a r ha ih =>
    rw [removeArtifacts_append_of_isArtifact ha] at h
    obtain ⟨s, r', rfl, hs, hc, hr⟩ := ih h
    refine ⟨a ++ s, r', by rw [List.append_assoc], ?_, hc, hr⟩
    rw [removeArtifacts_append_of_isArtifact ha, hs]

/-- no artifact reaches over an opening bracket -/
theorem removeArtifacts_append_bracket (s t : Text) :
    removeArtifacts (s ++ '[' :: t) = removeArtifacts s ++ removeArtifacts ('[' :: t) := by
  induction s using artifact_induction with
  | nil => rfl
  | keep c r h ih =>
    have hlen : artifactLength (c :: (r ++ '[' :: t)) = 0 := by
      rw [artifactLength_eq_zero_iff] at h ⊢
      rintro a ha ⟨z, hz⟩
      refine h a ha ?_
      obtain ⟨w, rfl, hopen, -⟩ := ha.exists_inner
      rw [List.cons_append, List.cons.injEq] at hz
      obtain ⟨rfl, hz⟩ := hz
      obtain ⟨y, rfl, -⟩ := exists_of_not_mem_left (c := '[') hz (by simpa using hopen)
      exact ⟨y, rfl⟩
    rw [List.cons_append, removeArtifacts_cons hlen, ih, removeArtifacts_cons h]
    rfl
  | skip a r ha ih =>
    rw [List.append_assoc, removeArtifacts_append_of_isArtifact ha, ih,
      removeArtifacts_append_of_isArtifact ha]

/-- no artifact begins in a part that keeps no opening bracket and ends behind it -/
theorem removeArtifacts_append_of_not_mem (h : '[' ∉ removeArtifacts s) (t : Text) :
    removeArtifacts (s ++ t) = removeArtifacts s ++ removeArtifacts t := by
  induction s using artifact_induction with
  | nil => rfl
  | keep c r hlen ih =>
    rw [removeArtifacts_cons hlen, List.mem_cons, not_or] at h
    rw [List.cons_append, removeArtifacts_cons (artifactLength_cons_of_ne (Ne.symm h.1) _), ih h.2,
      removeArtifacts_cons hlen]
    rfl
  | skip a r ha ih =>
    rw [removeArtifacts_append_of_isArtifact ha] at h
    rw [List.append_assoc, removeArtifacts_append_of_isArtifact ha, ih h,
      removeArtifacts_append_of_isArtifact ha]

/-- no artifact begins at a bracket that opens around artifacts -/
theorem artifactLength_of_around {m : Text} (h : Around m w) (hne : m ≠ w)
    (hopen : '[' ∉ w) (hclose : ']' ∉ w) : artifactLength ('[' :: (m ++ ']' :: t)) = 0 := by
  have hremove := h.removeArtifacts_eq hopen
  have hm : '[' ∈ m := by
    by_contra hm
    rw [removeArtifacts_of_not_hasArtifact (not_hasArtifact_of_not_mem hm)] at hremove
    exact hne hremove
  rw [artifactLength_eq_zero_iff]
  rintro a ha ⟨z, hz⟩
  obtain ⟨v, rfl, hv, -⟩ := ha.exists_inner
  have hsplit : v ++ ']' :: z = m ++ ']' :: t := by simpa using hz
  rcases List.append_eq_append_iff.1 hsplit with ⟨y, rfl, hy⟩ | ⟨y, rfl, -⟩
  · -- the closing bracket would be left behind
    have hvremove : removeArtifacts v = v :=
      removeArtifacts_of_not_hasArtifact (not_hasArtifact_of_not_mem hv)
    cases y with
    | nil => exact hv (by simpa using hm)
    | cons d y =>
      obtain ⟨rfl, -⟩ := List.cons.inj hy
      rw [removeArtifacts_append_of_not_mem (by rwa [hvremove]),
        removeArtifacts_cons (artifactLength_cons_of_ne (by decide) _)] at hremove
      exact hclose (hremove ▸ List.mem_append_right _ List.mem_cons_self)
  · exact hv (List.mem_append_left _ hm)

/-- **What one pass leaves.**  There is an artifact in it exactly if the text has one around
others. -/
theorem hasArtifact_removeArtifacts_iff (t : Text) :
    HasArtifact (removeArtifacts t) ↔ Nests t := by
  constructor
  · rintro ⟨a, ha, p, q, hsplit⟩
    obtain ⟨w, rfl, hopen, hclose⟩ := ha.exists_inner
    have hleft : removeArtifacts t = p ++ '[' :: (w ++ ']' :: q) := by
      rw [← hsplit]
      simp
    obtain ⟨s, r, rfl, -, hnone, hr⟩ := exists_of_removeArtifacts hleft
    obtain ⟨m, v, rfl, hm, -, -⟩ := exists_of_removeArtifacts hr
    refine ⟨m, w, ⟨s, v, by simp⟩, hm ▸ around_removeArtifacts m, ?_, ha⟩
    rintro rfl
    exact (artifactLength_eq_zero_iff _).1 hnone _ ha ⟨v, by simp⟩
  · rintro ⟨m, w, ⟨s, v, hsplit⟩, hm, hne, ha⟩
    obtain ⟨w', heq, hopen, hclose⟩ := ha.exists_inner
    obtain rfl : w = w' := List.append_cancel_right (List.cons.inj heq).2
    have ht : t = s ++ '[' :: (m ++ ']' :: v) := by
      rw [← hsplit]
      simp
    have hremove := hm.removeArtifacts_eq hopen
    have hleft : removeArtifacts t =
        removeArtifacts s ++ '[' :: (w ++ ']' :: removeArtifacts v) := by
      rw [ht, removeArtifacts_append_bracket,
        removeArtifacts_cons (artifactLength_of_around hm hne hopen hclose),
        removeArtifacts_append_of_not_mem (by rwa [hremove]), hremove,
        removeArtifacts_cons (artifactLength_cons_of_ne (by decide) _)]
    exact ⟨_, ha, removeArtifacts s, removeArtifacts v, by rw [hleft]; simp⟩

/-! ## without blanks at the ends -/

theorem hasArtifact_stripArtifacts_iff (t : Text) : HasArtifact t.stripArtifacts ↔ Nests t := by
  rw [stripArtifacts, hasArtifact_trim, hasArtifact_removeArtifacts_iff]

theorem stripArtifacts_of_not_hasArtifact (h : ¬ HasArtifact t) : t.stripArtifacts = t.trim := by
  rw [stripArtifacts, removeArtifacts_of_not_hasArtifact h]

/-- a second pass changes nothing exactly if the first one has left no artifact -/
theorem stripArtifacts_stripArtifacts_iff (t : Text) :
    t.stripArtifacts.stripArtifacts = t.stripArtifacts ↔ ¬ Nests t := by
  rw [← hasArtifact_stripArtifacts_iff]
  constructor
  · intro h hart
    have hlt := length_removeArtifacts_lt hart
    have hle := (trim_isInfix (removeArtifacts t.stripArtifacts)).length_le
    rw [show trim _ = t.stripArtifacts from h] at hle
    omega
  · intro h
    rw [stripArtifacts_of_not_hasArtifact h, stripArtifacts, trim_trim]

end
end Dictation.Text
