import Dictation.Text.Blank
import Mathlib.Data.List.DropRight

/-!
# The ends of a text

What cutting blanks off the ends of a text does to a text that is put together from two.

* `dropEndWhile_append`   the end of the first part is cut only if all of the second is;
* `trimLeft_trimRight`    the two ends are cut independently of each other;
* `trim_append_blank`, `trim_cons_blank`   blanks put at the ends are cut off again;
* `exists_of_trim`        what is cut off is blanks;
* `exists_of_not_mem_left`, `exists_of_not_mem_right`   one list put together in two ways;
* `first_cases`, `first_induction`   a text cut at the first character of a kind.
-/

namespace Dictation.Text

section
variable {p : Char → Bool} {c : Char}

theorem dropEndWhile_of_all {t : Text} (h : t.all p = true) : dropEndWhile p t = [] :=
  List.rdropWhile_eq_nil_iff.2 (List.all_eq_true.1 h)

theorem dropEndWhile_append (p : Char → Bool) (s t : Text) :
    dropEndWhile p (s ++ t) = if t.all p then dropEndWhile p s else s ++ dropEndWhile p t := by
  unfold dropEndWhile
  rw [List.reverse_append, List.dropWhile_append]
  cases ht : t.all p with
  | true =>
    have h : t.reverse.dropWhile p = [] := by
      rw [List.dropWhile_eq_nil_iff]
      intro x hx
      exact List.all_eq_true.1 ht x (List.mem_reverse.1 hx)
    rw [h]
    rfl
  | false =>
    have h : t.reverse.dropWhile p ≠ [] := by
      intro h
      rw [List.dropWhile_eq_nil_iff] at h
      have : t.all p = true := List.all_eq_true.2 fun x hx => h x (List.mem_reverse.2 hx)
      rw [ht] at this
      cases this
    rw [if_neg (by simpa using h), if_neg Bool.false_ne_true, List.reverse_append,
      List.reverse_reverse]

theorem dropEndWhile_cons (p : Char → Bool) (c : Char) (t : Text) :
    dropEndWhile p (c :: t) =
      if t.all p then (if p c then [] else [c]) else c :: dropEndWhile p t := by
  have h := dropEndWhile_append p [c] t
  rw [List.singleton_append] at h
  rw [h]
  cases hc : p c <;> simp [dropEndWhile, hc]

/-- cutting at the end stops at the latest at a character that stays -/
theorem dropEndWhile_append_cons (h : p c = false) (s t : Text) :
    dropEndWhile p (s ++ c :: t) = s ++ c :: dropEndWhile p t := by
  rw [dropEndWhile_append, List.all_cons, h, Bool.false_and, if_neg Bool.false_ne_true,
    dropEndWhile_cons, h]
  split
  · next ht => rw [dropEndWhile_of_all ht]; rfl
  · rfl

end

/-! ## blanks -/

section
variable {c : Char} {t : Text}

theorem isBlank_of_mem (h : allBlank t = true) (hc : c ∈ t) : isBlank c = true :=
  List.all_eq_true.1 h c hc

theorem trimLeft_cons_blank (h : isBlank c = true) (t : Text) :
    trimLeft (c :: t) = trimLeft t := by
  rw [trimLeft, List.dropWhile_cons_of_pos h]
  rfl

theorem trimLeft_cons_of_not_blank (h : isBlank c = false) (t : Text) :
    trimLeft (c :: t) = c :: t := by
  rw [trimLeft, List.dropWhile_cons_of_neg (by simp [h])]

theorem trimRight_cons (c : Char) (t : Text) :
    trimRight (c :: t) = if allBlank (c :: t) then [] else c :: trimRight t := by
  unfold trimRight
  rw [dropEndWhile_cons, allBlank_cons]
  cases ht : t.all isBlank <;> simp [allBlank, ht, dropEndWhile_of_all]

theorem trimRight_of_allBlank (h : allBlank t = true) : trimRight t = [] :=
  dropEndWhile_of_all h

theorem allBlank_trimLeft (t : Text) : allBlank (trimLeft t) = allBlank t := by
  induction t with
  | nil => rfl
  | cons c t ih =>
    cases hc : isBlank c with
    | true => rw [trimLeft_cons_blank hc, ih, allBlank_cons, hc, Bool.true_and]
    | false => rw [trimLeft_cons_of_not_blank hc]

theorem allBlank_trimRight (t : Text) : allBlank (trimRight t) = allBlank t := by
  induction t with
  | nil => rfl
  | cons c t ih =>
    rw [trimRight_cons]
    split
    · next h => rw [h]; rfl
    · rw [allBlank_cons, ih, allBlank_cons]

theorem trimLeft_trimLeft (t : Text) : trimLeft (trimLeft t) = trimLeft t :=
  List.dropWhile_idempotent isBlank t

/-- the two ends of a text are cut independently -/
theorem trimLeft_trimRight (t : Text) : trimLeft (trimRight t) = trimRight (trimLeft t) := by
  induction t with
  | nil => rfl
  | cons c t ih =>
    rw [trimRight_cons]
    cases hc : isBlank c with
    | true =>
      rw [trimLeft_cons_blank hc, allBlank_cons, hc, Bool.true_and]
      split
      · next ht => rw [trimRight_of_allBlank (by rw [allBlank_trimLeft]; exact ht)]; rfl
      · rw [trimLeft_cons_blank hc, ih]
    | false =>
      have h : allBlank (c :: t) = false := by rw [allBlank_cons, hc, Bool.false_and]
      rw [h, if_neg Bool.false_ne_true, trimLeft_cons_of_not_blank hc,
        trimLeft_cons_of_not_blank hc, trimRight_cons, h, if_neg Bool.false_ne_true]

theorem trimRight_trimRight (t : Text) : trimRight (trimRight t) = trimRight t :=
  List.rdropWhile_idempotent isBlank t

theorem trim_eq_nil_iff (t : Text) : trim t = [] ↔ allBlank t = true := by
  rw [trim, ← trimLeft_trimRight, trimLeft_eq_nil_iff, allBlank_trimRight]

theorem trim_trimLeft (t : Text) : trim (trimLeft t) = trim t := by
  rw [trim, trimLeft_trimLeft, trim]

theorem trim_trimRight (t : Text) : trim (trimRight t) = trim t := by
  rw [trim, trimLeft_trimRight, trimRight_trimRight, trim]

theorem trim_trim (t : Text) : trim (trim t) = trim t := by
  conv => lhs; rhs; rw [trim]
  rw [trim_trimRight, trim_trimLeft]

theorem trim_cons_blank (h : isBlank c = true) (t : Text) : trim (c :: t) = trim t := by
  rw [trim, trimLeft_cons_blank h, trim]

theorem trim_append_blank (h : isBlank c = true) (t : Text) : trim (t ++ [c]) = trim t := by
  have hc : [c].all isBlank = true := by rw [List.all_cons, h]; rfl
  have hr : trimRight (t ++ [c]) = trimRight t := by
    rw [trimRight, dropEndWhile_append, if_pos hc]
    rfl
  rw [← trim_trimRight, hr, trim_trimRight]

theorem trim_gap_append {gap : Text} (h : allBlank gap = true) (t : Text) :
    trim (gap ++ t) = trim t := by
  induction gap with
  | nil => rfl
  | cons c gap ih =>
    rw [allBlank_cons, Bool.and_eq_true] at h
    rw [List.cons_append, trim_cons_blank h.1, ih h.2]

theorem trim_append_gap {gap : Text} (h : allBlank gap = true) (t : Text) :
    trim (t ++ gap) = trim t := by
  have hall : gap.all isBlank = true := h
  have hr : trimRight (t ++ gap) = trimRight t := by
    rw [trimRight, dropEndWhile_append, if_pos hall]
    rfl
  rw [← trim_trimRight, hr, trim_trimRight]

/-- a text is what trimming leaves, and blanks on either side of it -/
theorem exists_of_trim (t : Text) : ∃ lead tail, t = lead ++ (trim t ++ tail) ∧
    allBlank lead = true ∧ allBlank tail = true := by
  have hcut := dropEndWhile_append_cut isBlank (trimLeft t)
  refine ⟨t.takeWhile isBlank, ((trimLeft t).reverse.takeWhile isBlank).reverse, ?_, ?_, ?_⟩
  · show t = _ ++ (dropEndWhile isBlank (trimLeft t) ++ _)
    rw [hcut]
    exact (List.takeWhile_append_dropWhile (p := isBlank)).symm
  · exact List.all_eq_true.2 fun c hc => List.mem_takeWhile_imp hc
  · exact List.all_eq_true.2 fun c hc => List.mem_takeWhile_imp (List.mem_reverse.1 hc)

theorem trim_isInfix (t : Text) : t.trim <:+: t := by
  obtain ⟨lead, tail, ht, -, -⟩ := exists_of_trim t
  exact ⟨lead, tail, by rw [List.append_assoc, ← ht]⟩

theorem trimLeft_trim (t : Text) : t.trim.trimLeft = t.trim := by
  rw [trim, trimLeft_trimRight, trimLeft_trimLeft]

theorem trimRight_of_trim (h : trim t = t) : trimRight t = t := by
  rw [← h, trim, trimRight_trimRight]

/-- cutting blanks off the start leaves none there -/
theorem head?_trimLeft (t : Text) : t.trimLeft.head?.any isBlank = false := by
  show (t.dropWhile isBlank).head?.any isBlank = false
  cases hd : t.dropWhile isBlank with
  | nil => rfl
  | cons c r =>
    have hc : isBlank c = false := not_of_dropWhile hd
    exact hc

theorem head?_trim (t : Text) : t.trim.head?.any isBlank = false := by
  rw [← trimLeft_trim]
  exact head?_trimLeft _

end

/-! ## one list put together in two ways -/

section
variable {α : Type} {c : α}

theorem exists_of_not_mem_left {lead t a b : List α} (h : lead ++ t = a ++ c :: b)
    (hc : c ∉ lead) : ∃ x, a = lead ++ x ∧ t = x ++ c :: b := by
  induction lead generalizing a with
  | nil => exact ⟨a, rfl, h⟩
  | cons d lead ih =>
    cases a with
    | nil =>
      obtain ⟨rfl, -⟩ := List.cons.inj h
      exact absurd List.mem_cons_self hc
    | cons e a =>
      obtain ⟨rfl, hrest⟩ := List.cons.inj h
      obtain ⟨x, rfl, ht⟩ := ih hrest fun hm => hc (List.mem_cons_of_mem _ hm)
      exact ⟨x, rfl, ht⟩

theorem exists_of_not_mem_right {t tail x b : List α} (h : t ++ tail = x ++ c :: b)
    (hc : c ∉ tail) : ∃ y, t = x ++ c :: y ∧ b = y ++ tail := by
  rcases List.append_eq_append_iff.1 h with ⟨y, -, rfl⟩ | ⟨y, rfl, hy⟩
  · exact absurd (List.mem_append_right _ List.mem_cons_self) hc
  · cases y with
    | nil => exact absurd (by rw [← List.nil_append tail, ← hy]; exact List.mem_cons_self) hc
    | cons d y =>
      obtain ⟨rfl, rfl⟩ := List.cons.inj hy
      exact ⟨y, rfl, rfl⟩

end

/-! ## the first character of a kind -/

/-- no character of a text is of the kind, or those before the first one that is come before it and
the rest -/
theorem first_cases (p : Char → Bool) (t : Text) : (∀ x ∈ t, p x = false) ∨
    ∃ s c r, t = s ++ c :: r ∧ (∀ x ∈ s, p x = false) ∧ p c = true := by
  have hsplit : t.takeWhile (!p ·) ++ t.dropWhile (!p ·) = t := List.takeWhile_append_dropWhile
  have hs : ∀ x ∈ t.takeWhile (!p ·), p x = false := fun x hx => by
    simpa using List.mem_takeWhile_imp hx
  cases hd : t.dropWhile (!p ·) with
  | nil =>
    rw [hd, List.append_nil] at hsplit
    exact .inl (hsplit ▸ hs)
  | cons c r =>
    have hc : p c = true := by simpa using not_of_dropWhile hd
    rw [hd] at hsplit
    exact .inr ⟨_, c, r, hsplit.symm, hs, hc⟩

/-- from one character of the kind to the next -/
theorem first_induction (p : Char → Bool) {P : Text → Prop}
    (hnone : ∀ s, (∀ c ∈ s, p c = false) → P s)
    (hfirst : ∀ s c r, (∀ x ∈ s, p x = false) → p c = true → P r → P (s ++ c :: r))
    (t : Text) : P t := by
  induction hk : t.length using Nat.strongRecOn generalizing t with
  | ind k ih =>
    rcases first_cases p t with ht | ⟨s, c, r, rfl, hs, hc⟩
    · exact hnone t ht
    · rw [List.length_append, List.length_cons] at hk
      exact hfirst s c r hs hc (ih r.length (by omega) r rfl)

end Dictation.Text
