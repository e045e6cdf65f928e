import Dictation.Proofs.Scan

/-!
# Where triggers stand in a text

A trigger stands at an offset of a text when its characters are there up to case, with a word
boundary on either side.  The boundaries are those of the whole text, whatever part of it a search
begins with.

* `Trigger.StandsAt`       one trigger at one offset; `Trigger.Occurs` any trigger of a list;
* `standsAt_append_iff`    the same seen from where a search is: the text behind and the text ahead;
* `next?_append_of_quiet`  a search passes over text in which no trigger begins;
* `next?_cases`            what a search finds is the first trigger ahead.
-/

namespace Dictation.Trigger

/-- a trigger stands at an offset as a whole word; the empty trigger is no word -/
structure StandsAt (lenient : Bool) (trigger t : Text) (i : Nat) : Prop where
  ne_nil : trigger ≠ []
  alike : (t.extract i (i + trigger.length)).map caseKey = trigger.map caseKey
  before : isBoundary lenient (before? t i) = true
  after : isBoundary lenient t[i + trigger.length]? = true

/-- some trigger of a list stands at an offset -/
def Occurs (lenient : Bool) (triggers : List Text) (t : Text) (i : Nat) : Prop :=
  ∃ u ∈ triggers, StandsAt lenient u t i

section
variable {lenient : Bool} {triggers : List Text} {u t done rest : Text} {n : Nat}

/-- a trigger ends within the text -/
theorem StandsAt.le_length {i : Nat} (h : StandsAt lenient u t i) : i + u.length ≤ t.length := by
  have hlen := congrArg List.length h.alike
  simp only [List.length_map, List.length_take, List.length_drop] at hlen
  have hpos := List.length_pos_iff.2 h.ne_nil
  omega

/-! ## behind and ahead -/

theorem before?_append (done rest : Text) : before? (done ++ rest) done.length = done.getLast? := by
  by_cases h : done = []
  · rw [h]
    rfl
  · have hpos := List.length_pos_iff.2 h
    rw [before?, if_neg (by omega), List.getElem?_append_left (by omega),
      List.getLast?_eq_getElem?]

theorem map_take_eq_iff (s t : Text) :
    (t.take s.length).map caseKey = s.map caseKey ↔ s.map caseKey <+: t.map caseKey := by
  constructor
  · intro h
    rw [← h]
    exact (List.take_prefix s.length t).map caseKey
  · exact map_take_of_prefix

/-- with `done` behind and `rest` ahead: it is there if it stands at the start of `rest` -/
theorem standsAt_append_iff (lenient : Bool) (u done rest : Text) :
    StandsAt lenient u (done ++ rest) done.length ↔
      u ≠ [] ∧ stands lenient done.getLast? u rest = true := by
  have hextract : (done ++ rest).extract done.length (done.length + u.length) =
      rest.take u.length := by
    rw [List.extract_eq_take_drop, List.drop_left, Nat.add_sub_cancel_left]
  have hafter : (done ++ rest)[done.length + u.length]? = (rest.drop u.length).head? := by
    rw [List.getElem?_append_right (Nat.le_add_right _ _), Nat.add_sub_cancel_left,
      List.head?_drop]
  rw [stands_iff, ← map_take_eq_iff, ← hafter, ← hextract, ← before?_append done rest]
  constructor
  · intro h
    exact ⟨h.ne_nil, h.before, h.alike, h.after⟩
  · rintro ⟨hne, hbefore, halike, hafter⟩
    exact ⟨hne, halike, hbefore, hafter⟩

theorem getLast?_append_of_ne_nil {s : Text} (h : s ≠ []) (r : Text) :
    (r ++ s).getLast? = s.getLast? := by
  cases hs : s.getLast? with
  | none => exact absurd (List.getLast?_eq_none_iff.1 hs) h
  | some c => rw [List.getLast?_append, hs]; rfl

/-- a trigger that stands within a part of a text stands in the part alone -/
theorem standsAt_of_part {part : Text} (hne : u ≠ []) (hlen : u.length ≤ part.length)
    (h : stands lenient (done ++ t).getLast? u (part ++ rest) = true) :
    StandsAt lenient u (t ++ part) t.length := by
  have hpart := stands_of_append hlen h
  refine (standsAt_append_iff _ _ _ _).2 ⟨hne, ?_⟩
  by_cases hnil : t = []
  · obtain ⟨-, hprefix, hafter⟩ := (stands_iff _ _ _ _).1 hpart
    rw [hnil]
    exact (stands_iff _ _ _ _).2 ⟨rfl, hprefix, hafter⟩
  · rwa [getLast?_append_of_ne_nil hnil] at hpart

/-! ## the triggers of a list at one offset -/

theorem tailAt?_cons_of_stands {before : Option Char} (hne : u ≠ [])
    (h : stands lenient before u t = true) (us : List Text) :
    tailAt? lenient before t (u :: us) = some (u.length - 1) := by
  cases u with
  | nil => exact absurd rfl hne
  | cons c cs => rw [tailAt?, if_pos h, List.length_cons, Nat.add_sub_cancel]

theorem tailAt?_cons_of_not_stands {before : Option Char}
    (h : u ≠ [] → stands lenient before u t = false) (us : List Text) :
    tailAt? lenient before t (u :: us) = tailAt? lenient before t us := by
  cases u with
  | nil => rfl
  | cons c cs => rw [tailAt?, h (List.cons_ne_nil _ _), if_neg Bool.false_ne_true]

/-- the first listed trigger that stands there -/
theorem exists_of_tailAt? {before : Option Char}
    (h : tailAt? lenient before t triggers = some n) :
    ∃ earlier u later, triggers = earlier ++ u :: later ∧ u.length = n + 1 ∧
      stands lenient before u t = true ∧
      ∀ v ∈ earlier, v ≠ [] → stands lenient before v t = false := by
  induction triggers with
  | nil => cases h
  | cons v vs ih =>
    by_cases hv : v ≠ [] ∧ stands lenient before v t = true
    · obtain ⟨hne, hstands⟩ := hv
      rw [tailAt?_cons_of_stands hne hstands] at h
      have hpos := List.length_pos_iff.2 hne
      have hn : v.length - 1 = n := Option.some.inj h
      exact ⟨[], v, vs, rfl, by omega, hstands, fun w hw => absurd hw List.not_mem_nil⟩
    · have hnot : v ≠ [] → stands lenient before v t = false := by
        intro hne
        rw [Bool.eq_false_iff]
        exact fun hstands => hv ⟨hne, hstands⟩
      rw [tailAt?_cons_of_not_stands hnot] at h
      obtain ⟨earlier, u, later, rfl, hlen, hstands, hearlier⟩ := ih h
      exact ⟨v :: earlier, u, later, rfl, hlen, hstands, List.forall_mem_cons.2 ⟨hnot, hearlier⟩⟩

theorem tailAt?_of_first {before : Option Char} {earlier later : List Text} (hne : u ≠ [])
    (h : stands lenient before u t = true)
    (hearlier : ∀ v ∈ earlier, v ≠ [] → stands lenient before v t = false) :
    tailAt? lenient before t (earlier ++ u :: later) = some (u.length - 1) := by
  induction earlier with
  | nil => exact tailAt?_cons_of_stands hne h later
  | cons v vs ih =>
    rw [List.cons_append, tailAt?_cons_of_not_stands (hearlier v List.mem_cons_self)]
    exact ih fun w hw => hearlier w (List.mem_cons_of_mem _ hw)

theorem stands_eq_false_of_tailAt? {before : Option Char}
    (h : tailAt? lenient before t triggers = none) :
    ∀ v ∈ triggers, v ≠ [] → stands lenient before v t = false := by
  intro v hv hne
  rw [Bool.eq_false_iff]
  intro hstands
  induction triggers with
  | nil => exact absurd hv List.not_mem_nil
  | cons w ws ih =>
    by_cases hw : w ≠ [] ∧ stands lenient before w t = true
    · rw [tailAt?_cons_of_stands hw.1 hw.2] at h
      cases h
    · rcases List.mem_cons.1 hv with rfl | hv
      · exact hw ⟨hne, hstands⟩
      · refine ih ?_ hv
        rwa [tailAt?_cons_of_not_stands] at h
        intro hne'
        rw [Bool.eq_false_iff]
        exact fun hs => hw ⟨hne', hs⟩

/-- the trigger found is a listed one that stands there -/
theorem exists_standsAt_of_tailAt? (h : tailAt? lenient done.getLast? rest triggers = some n) :
    ∃ u ∈ triggers, u.length = n + 1 ∧ StandsAt lenient u (done ++ rest) done.length := by
  obtain ⟨earlier, u, later, rfl, hlen, hstands, -⟩ := exists_of_tailAt? h
  have hne : u ≠ [] := by
    rintro rfl
    cases hlen
  exact ⟨u, by simp, hlen, (standsAt_append_iff _ _ _ _).2 ⟨hne, hstands⟩⟩

theorem lt_length_of_tailAt? (h : tailAt? lenient done.getLast? rest triggers = some n) :
    n < rest.length := by
  obtain ⟨u, -, hlen, hstands⟩ := exists_standsAt_of_tailAt? h
  have := hstands.le_length
  rw [List.length_append] at this
  omega

theorem tailAt?_eq_none_iff :
    tailAt? lenient done.getLast? rest triggers = none ↔
      ¬ Occurs lenient triggers (done ++ rest) done.length := by
  constructor
  · rintro hnone ⟨u, hu, hstands⟩
    obtain ⟨hne, hs⟩ := (standsAt_append_iff _ _ _ _).1 hstands
    rw [stands_eq_false_of_tailAt? hnone u hu hne] at hs
    cases hs
  · intro hnot
    cases h : tailAt? lenient done.getLast? rest triggers with
    | none => rfl
    | some n =>
      obtain ⟨u, hu, -, hstands⟩ := exists_standsAt_of_tailAt? h
      exact absurd ⟨u, hu, hstands⟩ hnot

/-! ## the search -/

/-- no trigger begins from one offset up to another one -/
def Quiet (lenient : Bool) (triggers : List Text) (t : Text) (start stop : Nat) : Prop :=
  ∀ i, start ≤ i → i < stop → ¬ Occurs lenient triggers t i

theorem quiet_self (lenient : Bool) (triggers : List Text) (t : Text) (i : Nat) :
    Quiet lenient triggers t i i := fun _ hstart hstop =>
  absurd hstop (Nat.not_lt.2 hstart)

/-- no trigger begins in one stretch nor in the next -/
theorem Quiet.append {t : Text} {i j k : Nat} (h : Quiet lenient triggers t i j)
    (h' : Quiet lenient triggers t j k) : Quiet lenient triggers t i k := by
  intro n hi hk
  rcases Nat.lt_or_ge n j with hn | hn
  · exact h n hi hn
  · exact h' n hn hk

/-- no trigger begins in a gap if none stands at any of its characters -/
theorem quiet_of_gap {gap : Text}
    (h : ∀ a c b, gap = a ++ c :: b → ∀ u ∈ triggers, u ≠ [] →
      stands lenient (done ++ a).getLast? u (c :: (b ++ rest)) = false) :
    Quiet lenient triggers (done ++ (gap ++ rest)) done.length (done ++ gap).length := by
  rintro i hstart hstop ⟨u, hu, hstands⟩
  rw [List.length_append] at hstop
  obtain ⟨k, rfl⟩ := Nat.exists_eq_add_of_le hstart
  have hk : k < gap.length := by omega
  obtain ⟨a, c, b, rfl, rfl⟩ : ∃ a c b, gap = a ++ c :: b ∧ k = a.length := by
    refine ⟨gap.take k, gap[k], gap.drop (k + 1), ?_, ?_⟩
    · rw [← List.drop_eq_getElem_cons hk, List.take_append_drop]
    · rw [List.length_take_of_le hk.le]
  have hsplit : done ++ ((a ++ c :: b) ++ rest) = (done ++ a) ++ c :: (b ++ rest) := by simp
  rw [hsplit, ← List.length_append, standsAt_append_iff] at hstands
  have hnot := h a c b rfl u hu hstands.1
  rw [hstands.2] at hnot
  cases hnot

theorem next?_of_tailAt? (h : tailAt? lenient done.getLast? rest triggers = some n) :
    next? lenient triggers done.getLast? rest = some ⟨0, n⟩ := by
  have hlen := lt_length_of_tailAt? h
  cases rest with
  | nil => exact absurd hlen (Nat.not_lt_zero _)
  | cons c r => rw [next?, h]

/-- one character further -/
theorem next?_cons_of_not_occurs {c : Char}
    (h : ¬ Occurs lenient triggers (done ++ c :: rest) done.length) :
    next? lenient triggers done.getLast? (c :: rest) =
      (next? lenient triggers (done ++ [c]).getLast? rest).map
        fun hit => { hit with skip := hit.skip + 1 } := by
  rw [next?, tailAt?_eq_none_iff.2 h, List.getLast?_concat]

/-- **A search passes over text in which no trigger begins.** -/
theorem next?_append_of_quiet {gap : Text}
    (h : Quiet lenient triggers (done ++ (gap ++ rest)) done.length (done ++ gap).length) :
    next? lenient triggers done.getLast? (gap ++ rest) =
      (next? lenient triggers (done ++ gap).getLast? rest).map
        fun hit => { hit with skip := hit.skip + gap.length } := by
  induction gap generalizing done with
  | nil =>
    rw [List.nil_append, List.append_nil]
    exact Option.map_id'.symm
  | cons c gap ih =>
    have hhere : ¬ Occurs lenient triggers (done ++ c :: (gap ++ rest)) done.length :=
      h done.length (Nat.le_refl _) (by simp)
    have hsplit (r : Text) : done ++ c :: r = (done ++ [c]) ++ r := by simp
    have hquiet : Quiet lenient triggers ((done ++ [c]) ++ (gap ++ rest)) (done ++ [c]).length
        ((done ++ [c]) ++ gap).length := by
      intro i hstart hstop
      rw [← hsplit] at hstop ⊢
      exact h i (by simp at hstart; omega) hstop
    rw [List.cons_append, next?_cons_of_not_occurs hhere, ih hquiet, ← hsplit, Option.map_map]
    rfl

/-- **What a search finds is the first trigger ahead.** -/
theorem next?_cases (lenient : Bool) (triggers : List Text) (done t : Text) :
    (next? lenient triggers done.getLast? t = none ∧
        Quiet lenient triggers (done ++ t) done.length (done ++ t).length) ∨
      ∃ gap rest n, t = gap ++ rest ∧
        Quiet lenient triggers (done ++ t) done.length (done ++ gap).length ∧
        tailAt? lenient (done ++ gap).getLast? rest triggers = some n ∧
        next? lenient triggers done.getLast? t = some ⟨gap.length, n⟩ := by
  induction t generalizing done with
  | nil =>
    refine .inl ⟨rfl, fun i hstart hstop => ?_⟩
    rw [List.append_nil] at hstop
    omega
  | cons c t ih =>
    cases hat : tailAt? lenient done.getLast? (c :: t) triggers with
    | some n =>
      refine .inr ⟨[], c :: t, n, rfl, fun i hstart hstop => ?_, ?_, ?_⟩
      · rw [List.append_nil] at hstop
        omega
      · rw [List.append_nil]
        exact hat
      · exact next?_of_tailAt? hat
    | none =>
      have hhere := tailAt?_eq_none_iff.1 hat
      have hsplit (r : Text) : (done ++ [c]) ++ r = done ++ c :: r := by simp
      -- quiet from the next character on is quiet from here on
      have hquiet {stop : Nat}
          (h : Quiet lenient triggers (done ++ c :: t) (done ++ [c]).length stop) :
          Quiet lenient triggers (done ++ c :: t) done.length stop := by
        intro i hstart hstop
        rcases Nat.eq_or_lt_of_le hstart with rfl | hlt
        · exact hhere
        · exact h i (by simp; omega) hstop
      have hnext := next?_cons_of_not_occurs hhere
      rcases ih (done ++ [c]) with ⟨hnone, hq⟩ | ⟨gap, rest, n, rfl, hq, htail, hsome⟩
      · rw [hnone] at hnext
        rw [hsplit] at hq
        exact .inl ⟨hnext, hquiet hq⟩
      · rw [hsome] at hnext
        rw [hsplit] at hq htail
        exact .inr ⟨c :: gap, rest, n, rfl, hquiet (hsplit gap ▸ hq), htail, hnext⟩

/-- where a search from the start finds nothing, no trigger stands anywhere -/
theorem not_occurs_of_next? (h : next? lenient triggers none t = none) :
    ∀ i, ¬ Occurs lenient triggers t i := by
  rintro i ⟨u, hu, hstands⟩
  have hle := hstands.le_length
  have hpos := List.length_pos_iff.2 hstands.ne_nil
  rcases next?_cases lenient triggers [] t with ⟨-, hquiet⟩ | ⟨_, _, _, _, _, _, hsome⟩
  · exact hquiet i (Nat.zero_le i) (by simp; omega) ⟨u, hu, hstands⟩
  · rw [show next? lenient triggers none t = _ from hsome] at h
    cases h

end
end Dictation.Trigger
