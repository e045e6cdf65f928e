import Dictation.Proofs.Spelling
import Mathlib.Data.List.Sort

/-!
# The longest phrase

The phrase after a trigger can be said without a search.  It begins at the first character that is
neither blank nor, leniently, a filler.  Of the phrases that stand there, up to lower case and with a
word boundary behind them, it is the longest, and of equally long ones the first listed; where no
phrase stands, it is the one that the longest mis-heard spelling stands for.

* `Phrase.Begins`                where a phrase can begin;
* `Phrase.Candidate`             a spelling stands at an offset of the text;
* `Phrase.IsLongest`             the longest candidate of a list, the first listed of equally long ones;
* `Phrase.Munched`               what is heard at an offset, with one constructor for each case;
* `Phrase.behindFillers`         fillers passed over one at a time, with the blanks behind each;
* `Phrase.longestFirst`          a table sorted by length;
* `Phrase.find?_maximal_munch`   the search against all the candidates.
-/

namespace Dictation.Phrase

/-- passed over on the way to a phrase -/
def isPassed (lenient : Bool) (c : Char) : Bool := isBlank c || (lenient && isFiller c)

section
variable (lenient : Bool) (t : Text)

/-- the first offset from the start on whose character is not passed over, or the end of the text -/
structure Begins (start q : Nat) : Prop where
  start_le : start ≤ q
  passed : ∀ i, start ≤ i → i < q → ∃ c, t[i]? = some c ∧ isPassed lenient c = true
  stop : ∀ c, t[q]? = some c → isPassed lenient c = false

/-- a spelling stands at an offset -/
structure Candidate (q : Nat) (spelling : Text) : Prop where
  within : q + spelling.length ≤ t.length
  alike : Text.lower (t.extract q (q + spelling.length)) = spelling.lower
  boundary : isBoundary lenient t[q + spelling.length]? = true

/-- spelling `j` of a list is its longest candidate, and no equally long one is listed before it -/
structure IsLongest (q : Nat) (spellings : List Text) (j : Nat) (s : Text) : Prop where
  listed : spellings[j]? = some s
  candidate : Candidate lenient t q s
  longest : ∀ i u, spellings[i]? = some u → Candidate lenient t q u →
    u.length < s.length ∨ (u.length = s.length ∧ j ≤ i)

end

/-- what is heard at an offset: the phrases first, the mis-heard spellings where no phrase stands -/
inductive Munched (lx : Lexicon) (t : Text) (q : Nat) : Option Match → Prop
  | atEnd (hq : t.length ≤ q) : Munched lx t q none
  | phrase {j : Nat} {p : Text} (hq : q < t.length)
      (hp : IsLongest lx.lenient t q lx.phrases j p) :
      Munched lx t q (some ⟨p, q + p.length, false⟩)
  | misheard {j : Nat} {s p : Text} (hq : q < t.length)
      (hphrases : ∀ p ∈ lx.phrases, ¬ Candidate lx.lenient t q p)
      (hs : IsLongest lx.lenient t q (lx.aliases.map Prod.fst) j s)
      (hp : lx.aliases[j]? = some (s, p)) :
      Munched lx t q (some ⟨p, q + s.length, true⟩)
  | nothing (hq : q < t.length) (hphrases : ∀ p ∈ lx.phrases, ¬ Candidate lx.lenient t q p)
      (haliases : ∀ e ∈ lx.aliases, ¬ Candidate lx.lenient t q e.1) : Munched lx t q none

section
variable {lenient : Bool} {t s : Text} {table : List (Text × Text)} {e : Text × Text}
  {start q q' : Nat}

/-! ## where a phrase begins -/

theorem Begins.unique (h : Begins lenient t start q) (h' : Begins lenient t start q') : q = q' := by
  -- the earlier of two would both be passed over and not
  have hle {a b : Nat} (ha : Begins lenient t start a) (hb : Begins lenient t start b) : b ≤ a := by
    by_contra hlt
    obtain ⟨c, hc, hpassed⟩ := hb.passed a ha.start_le (by omega)
    rw [ha.stop c hc] at hpassed
    cases hpassed
  exact Nat.le_antisymm (hle h' h) (hle h h')

theorem gap_eq (lenient : Bool) (t : Text) :
    gap lenient t = (t.takeWhile (isPassed lenient)).length := by
  cases lenient with
  | false =>
    have h : isPassed false = isBlank := funext fun c => Bool.or_false _
    rw [h]
    rfl
  | true => rfl

theorem drop_gap (lenient : Bool) (t : Text) :
    t.drop (gap lenient t) = t.dropWhile (isPassed lenient) := by
  have hsplit : t.takeWhile (isPassed lenient) ++ t.dropWhile (isPassed lenient) = t :=
    List.takeWhile_append_dropWhile
  have hleft : (t.takeWhile (isPassed lenient) ++ t.dropWhile (isPassed lenient)).drop
      (t.takeWhile (isPassed lenient)).length = t.dropWhile (isPassed lenient) := List.drop_left
  rwa [hsplit, ← gap_eq] at hleft

theorem begins_gap (lenient : Bool) (t : Text) (start : Nat) :
    Begins lenient t start (start + gap lenient (t.drop start)) := by
  refine ⟨Nat.le_add_right _ _, fun i hi hlt => ?_, fun c hc => ?_⟩
  · obtain ⟨k, rfl⟩ := Nat.exists_eq_add_of_le hi
    rw [gap_eq] at hlt
    have hk : k < ((t.drop start).takeWhile (isPassed lenient)).length := by omega
    have hprefix := List.takeWhile_prefix (isPassed lenient) (l := t.drop start)
    refine ⟨((t.drop start).takeWhile (isPassed lenient))[k], ?_,
      List.mem_takeWhile_imp (List.getElem_mem hk)⟩
    rw [← List.getElem?_drop, hprefix.getElem hk]
    exact List.getElem?_eq_getElem _
  · rw [← List.head?_drop, ← List.drop_drop, drop_gap] at hc
    have hnot := List.head?_dropWhile_not (isPassed lenient) (t.drop start)
    rwa [hc] at hnot

/-! ## what stands there -/

theorem fits_drop_iff (hq : q ≤ t.length) (s : Text) :
    fits lenient (t.drop q) s = true ↔ Candidate lenient t q s := by
  have hextract : t.extract q (q + s.length) = (t.drop q).take s.length := by
    rw [List.extract_eq_take_drop, Nat.add_sub_cancel_left]
  have hafter : ((t.drop q).drop s.length).head? = t[q + s.length]? := by
    rw [List.drop_drop, List.head?_drop]
  rw [fits_iff, List.length_drop, ← hextract, hafter]
  constructor
  · rintro ⟨hle, halike, hboundary⟩
    exact ⟨by omega, halike, hboundary⟩
  · intro h
    have hwithin := h.within
    exact ⟨by omega, h.alike, h.boundary⟩

theorem not_candidate_of_longest? (hq : q ≤ t.length)
    (h : longest? lenient (t.drop q) table = none) : ∀ e ∈ table, ¬ Candidate lenient t q e.1 := by
  intro e he hcandidate
  have hfits := longest?_eq_iff.1 h e he
  rw [(fits_drop_iff hq e.1).2 hcandidate] at hfits
  cases hfits

theorem isLongest_of_longest? (hq : q ≤ t.length)
    (h : longest? lenient (t.drop q) table = some e) :
    ∃ j, table[j]? = some e ∧ IsLongest lenient t q (table.map Prod.fst) j e.1 := by
  obtain ⟨before, after, rfl, hfits, hbefore, hafter⟩ := longest?_eq_iff.1 h
  have he : (before ++ e :: after)[before.length]? = some e := by simp
  refine ⟨before.length, he, ?_, (fits_drop_iff hq e.1).1 hfits, fun i u hu hcandidate => ?_⟩
  · rw [List.getElem?_map, he]
    rfl
  · have hfits' := (fits_drop_iff hq u).2 hcandidate
    rw [List.getElem?_map] at hu
    obtain ⟨x, hx, rfl⟩ := Option.map_eq_some_iff.1 hu
    by_cases hi : i < before.length
    · rw [List.getElem?_append_left hi] at hx
      exact .inl (hbefore x (List.mem_of_getElem? hx) hfits')
    · have hmem : x ∈ e :: after := by
        rw [List.getElem?_append_right (by omega)] at hx
        exact List.mem_of_getElem? hx
      have hle : x.1.length ≤ e.1.length := by
        rcases List.mem_cons.1 hmem with rfl | hmem
        · exact Nat.le_refl _
        · exact hafter x hmem hfits'
      omega

theorem IsLongest.unique {spellings : List Text} {j j' : Nat} {s s' : Text}
    (h : IsLongest lenient t q spellings j s) (h' : IsLongest lenient t q spellings j' s') :
    j = j' ∧ s = s' := by
  have hs := h.longest j' s' h'.listed h'.candidate
  have hs' := h'.longest j s h.listed h.candidate
  have hj : j = j' := by omega
  subst hj
  exact ⟨rfl, Option.some.inj (h.listed.symm.trans h'.listed)⟩

/-! ## what is heard -/

variable {lx : Lexicon}

theorem munched_find? (lx : Lexicon) (t : Text) (start : Nat) :
    Munched lx t (start + gap lx.lenient (t.drop start)) (find? lx t start) := by
  have hdrop : (t.drop start).drop (gap lx.lenient (t.drop start)) =
      t.drop (start + gap lx.lenient (t.drop start)) := List.drop_drop
  have hphrases : (lx.phrases.map fun p => (p, p)).map Prod.fst = lx.phrases := by
    rw [List.map_map]
    exact List.map_id _
  unfold find? match?
  dsimp only
  rw [hdrop]
  split
  · next hempty =>
    refine .atEnd ?_
    rwa [List.isEmpty_iff, List.drop_eq_nil_iff] at hempty
  · next hne =>
    rw [List.isEmpty_iff, List.drop_eq_nil_iff, Nat.not_le] at hne
    split
    · next spelling phrase hl =>
      obtain ⟨j, hj, hlongest⟩ := isLongest_of_longest? hne.le hl
      rw [hphrases] at hlongest
      obtain ⟨p, -, heq⟩ := List.mem_map.1 (List.mem_of_getElem? hj)
      obtain ⟨rfl, rfl⟩ := Prod.mk.inj heq
      rw [Option.map_some, ← Nat.add_assoc]
      exact .phrase hne hlongest
    · next hl =>
      have hnone (p : Text) (hp : p ∈ lx.phrases) :
          ¬ Candidate lx.lenient t (start + gap lx.lenient (t.drop start)) p :=
        not_candidate_of_longest? hne.le hl (p, p) (List.mem_map_of_mem hp)
      cases hl' : longest? lx.lenient (t.drop (start + gap lx.lenient (t.drop start)))
          lx.aliases with
      | none => exact .nothing hne hnone (not_candidate_of_longest? hne.le hl')
      | some e =>
        obtain ⟨j, hj, hlongest⟩ := isLongest_of_longest? hne.le hl'
        rw [Option.map_some, Option.map_some, ← Nat.add_assoc]
        exact .misheard hne hnone hlongest hj

theorem Munched.unique {o o' : Option Match} (h : Munched lx t q o) (h' : Munched lx t q o') :
    o = o' := by
  cases h with
  | atEnd hq =>
    cases h' with
    | atEnd => rfl
    | phrase hq' => omega
    | misheard hq' => omega
    | nothing => rfl
  | phrase hq hp =>
    have hmem := List.mem_of_getElem? hp.listed
    cases h' with
    | atEnd hq' => omega
    | phrase hq' hp' => rw [(hp.unique hp').2]
    | misheard _ hphrases => exact absurd hp.candidate (hphrases _ hmem)
    | nothing _ hphrases => exact absurd hp.candidate (hphrases _ hmem)
  | misheard hq hphrases hs hp =>
    cases h' with
    | atEnd hq' => omega
    | phrase _ hp' => exact absurd hp'.candidate (hphrases _ (List.mem_of_getElem? hp'.listed))
    | misheard _ _ hs' hp' =>
      obtain ⟨rfl, rfl⟩ := hs.unique hs'
      rw [hp] at hp'
      cases hp'
      rfl
    | nothing _ _ haliases => exact absurd hs.candidate (haliases _ (List.mem_of_getElem? hp))
  | nothing hq hphrases haliases =>
    cases h' with
    | atEnd => rfl
    | phrase _ hp' => exact absurd hp'.candidate (hphrases _ (List.mem_of_getElem? hp'.listed))
    | misheard _ _ hs' hp' => exact absurd hs'.candidate (haliases _ (List.mem_of_getElem? hp'))
    | nothing => rfl

/-! ## the fillers one at a time -/

theorem length_lt_of_trimLeft {c : Char} {r : Text} (h : t.trimLeft = c :: r) :
    r.length < t.length := by
  have hle : t.trimLeft.length ≤ t.length := (List.dropWhile_suffix isBlank).length_le
  rw [h, List.length_cons] at hle
  exact hle

/-- what is left of a text behind blanks, and behind each filler and the blanks that follow it -/
def behindFillers (t : Text) : Text :=
  match _h : t.trimLeft with
  | [] => []
  | c :: r => if isFiller c then behindFillers r else c :: r
termination_by t.length
decreasing_by exact length_lt_of_trimLeft _h

theorem dropWhile_trimLeft (lenient : Bool) (t : Text) :
    t.trimLeft.dropWhile (isPassed lenient) = t.dropWhile (isPassed lenient) := by
  induction t with
  | nil => rfl
  | cons c r ih =>
    cases hc : isBlank c with
    | true =>
      have hpassed : isPassed lenient c = true := by rw [isPassed, hc, Bool.true_or]
      rw [Text.trimLeft_cons_blank hc, ih, List.dropWhile_cons_of_pos hpassed]
    | false => rw [Text.trimLeft_cons_of_not_blank hc]

/-- fillers and blanks can be passed over in one go -/
theorem behindFillers_eq (t : Text) : behindFillers t = t.drop (gap true t) := by
  have hdrop (t : Text) : t.drop (gap true t) = t.trimLeft.dropWhile (isPassed true) := by
    rw [drop_gap, dropWhile_trimLeft]
  fun_induction behindFillers t with
  | case1 t h => rw [hdrop, h, List.dropWhile_nil]
  | case2 t c r h hfiller ih =>
    have hpassed : isPassed true c = true := by
      rw [isPassed, hfiller, Bool.true_and, Bool.or_true]
    rw [ih, hdrop, hdrop t, h, List.dropWhile_cons_of_pos hpassed, dropWhile_trimLeft]
  | case3 t c r h hfiller =>
    have hblank := Text.head?_trimLeft t
    rw [h] at hblank
    have hstop : isPassed true c = false := by
      rw [isPassed, Bool.eq_false_iff.2 hfiller, Bool.and_false, Bool.or_false]
      exact hblank
    rw [hdrop, h, List.dropWhile_cons_of_neg (Bool.eq_false_iff.1 hstop)]

/-! ## the table sorted by length -/

/-- the order of a sorted table -/
def noShorter (a b : Text × Text) : Bool := decide (b.1.length ≤ a.1.length)

/-- the longest spellings first, equally long ones in the order of the table -/
def longestFirst (table : List (Text × Text)) : List (Text × Text) := table.mergeSort noShorter

theorem noShorter_iff (a b : Text × Text) : noShorter a b = true ↔ b.1.length ≤ a.1.length :=
  decide_eq_true_iff

theorem noShorter_trans (a b c : Text × Text) (hab : noShorter a b = true)
    (hbc : noShorter b c = true) : noShorter a c = true := by
  rw [noShorter_iff] at hab hbc ⊢
  exact hbc.trans hab

theorem noShorter_total (a b : Text × Text) : (noShorter a b || noShorter b a) = true := by
  rw [Bool.or_eq_true, noShorter_iff, noShorter_iff]
  exact Nat.le_total _ _

theorem mem_longestFirst : e ∈ longestFirst table ↔ e ∈ table := List.mem_mergeSort

theorem pairwise_longestFirst (table : List (Text × Text)) :
    (longestFirst table).Pairwise fun a b => b.1.length ≤ a.1.length :=
  (List.pairwise_mergeSort noShorter_trans noShorter_total table).imp (noShorter_iff _ _).1

/-- sorting leaves equally long entries in their order -/
theorem filter_longestFirst (table : List (Text × Text)) (k : Nat) :
    (longestFirst table).filter (fun e => e.1.length == k) =
      table.filter fun e => e.1.length == k := by
  have hlevel : (table.filter fun e => e.1.length == k).Pairwise
      fun a b => noShorter a b = true := by
    refine List.pairwise_of_forall_mem_list fun a ha b hb => (noShorter_iff a b).2 ?_
    rw [eq_of_beq (List.mem_filter.1 ha).2, eq_of_beq (List.mem_filter.1 hb).2]
  have hsub := (List.sublist_mergeSort noShorter_trans noShorter_total hlevel
    List.filter_sublist).filter fun e => e.1.length == k
  rw [List.filter_eq_self.2 fun e he => (List.mem_filter.1 he).2] at hsub
  have hperm := (List.mergeSort_perm table noShorter).filter fun e => e.1.length == k
  exact (hsub.eq_of_length hperm.length_eq.symm).symm

/-- an entry that fits is not passed over, so it is no longer than the first one that fits -/
theorem length_le_of_find?_longestFirst {x : Text × Text}
    (h : (longestFirst table).find? (fun e => fits lenient t e.1) = some e) (hx : x ∈ table)
    (hfits : fits lenient t x.1 = true) : x.1.length ≤ e.1.length := by
  obtain ⟨-, passed, rest, hsorted, hpassed⟩ := List.find?_eq_some_iff_append.1 h
  have hpairwise := pairwise_longestFirst table
  have hmem := mem_longestFirst.2 hx
  rw [hsorted] at hpairwise hmem
  rcases List.mem_append.1 hmem with hmem | hmem
  · have hnot := hpassed x hmem
    rw [hfits] at hnot
    cases hnot
  · rcases List.mem_cons.1 hmem with rfl | hmem
    · exact Nat.le_refl _
    · exact List.rel_of_pairwise_cons (List.pairwise_append.1 hpairwise).2.1 hmem

/-- the first entry of the sorted table that fits is the longest that fits -/
theorem best_find?_longestFirst (lenient : Bool) (t : Text) (table : List (Text × Text)) :
    Best lenient t table ((longestFirst table).find? fun e => fits lenient t e.1) := by
  cases hfind : (longestFirst table).find? fun e => fits lenient t e.1 with
  | none =>
    intro x hx
    exact Bool.eq_false_iff.2 (List.find?_eq_none.1 hfind x (mem_longestFirst.2 hx))
  | some e =>
    have hle {x : Text × Text} (hx : x ∈ table) (hxf : fits lenient t x.1 = true) :=
      length_le_of_find?_longestFirst hfind hx hxf
    obtain ⟨hfits, passed, rest, hsorted, hpassed⟩ := List.find?_eq_some_iff_append.1 hfind
    -- of the entries as long as this one, those listed before it have been passed over
    have hlevel := filter_longestFirst table e.1.length
    rw [hsorted, List.filter_append, List.filter_cons, beq_self_eq_true, if_pos rfl] at hlevel
    obtain ⟨before, behind, rfl, hbefore, hbehind⟩ := List.filter_eq_append_iff.1 hlevel.symm
    obtain ⟨between, after, rfl, hbetween, -, -⟩ := List.filter_eq_cons_iff.1 hbehind
    refine ⟨before ++ between, after, (List.append_assoc _ _ _).symm, hfits,
      fun x hx hxf => ?_, fun x hx => hle (by simp [hx])⟩
    have hmem : x ∈ before ++ (between ++ e :: after) := by
      rw [← List.append_assoc]
      exact List.mem_append_left _ hx
    refine Nat.lt_of_le_of_ne (hle hmem hxf) fun hlen => ?_
    rcases List.mem_append.1 hx with hx | hx
    · have hlong : x ∈ before.filter fun x => x.1.length == e.1.length :=
        List.mem_filter.2 ⟨hx, beq_iff_eq.2 hlen⟩
      rw [hbefore] at hlong
      have hnot := hpassed x (List.mem_of_mem_filter hlong)
      rw [hxf] at hnot
      cases hnot
    · exact hbetween x hx (beq_iff_eq.2 hlen)

end

/-- **The longest phrase.**  What a search hears is what stands where a phrase begins: nothing at
the end of the text; else the longest candidate among the phrases, the first listed of equally long
ones; where no phrase is a candidate, what the longest candidate among the mis-heard spellings stands
for; and nothing if there is none.  So where a phrase stands, the mis-heard spellings make no
difference.  Fillers can be passed over one at a time, and the longest entry of a table found as the
first one that fits in the table sorted by length. -/
theorem find?_maximal_munch (lx : Lexicon) (t : Text) (start : Nat) :
    (∀ o, find? lx t start = o ↔ ∃ q, Begins lx.lenient t start q ∧ Munched lx t q o) ∧
      (∀ aliases q p, Begins lx.lenient t start q → p ∈ lx.phrases →
        Candidate lx.lenient t q p →
          find? { lx with aliases := aliases } t start = find? lx t start) ∧
      (∀ rest, rest.drop (gap true rest) = behindFillers rest) ∧
      ∀ rest table, longest? lx.lenient rest table =
        (longestFirst table).find? fun e => fits lx.lenient rest e.1 := by
  have hiff (lx : Lexicon) (o : Option Match) : find? lx t start = o ↔
      ∃ q, Begins lx.lenient t start q ∧ Munched lx t q o := by
    constructor
    · rintro rfl
      exact ⟨_, begins_gap lx.lenient t start, munched_find? lx t start⟩
    · rintro ⟨q, hq, h⟩
      obtain rfl := hq.unique (begins_gap lx.lenient t start)
      exact (munched_find? lx t start).unique h
  refine ⟨hiff lx, fun aliases q p hq hp hcandidate => ?_,
    fun rest => (behindFillers_eq rest).symm, fun rest table => ?_⟩
  · obtain ⟨q', hq', hmunched⟩ := (hiff lx _).1 rfl
    obtain rfl := hq.unique hq'
    refine (hiff { lx with aliases := aliases } _).2 ⟨q, hq, ?_⟩
    generalize find? lx t start = o at hmunched ⊢
    cases hmunched with
    | atEnd hend => exact .atEnd hend
    | phrase hlt hlongest => exact .phrase hlt hlongest
    | misheard _ hphrases => exact absurd hcandidate (hphrases p hp)
    | nothing _ hphrases => exact absurd hcandidate (hphrases p hp)
  · exact longest?_eq_iff.2 (best_find?_longestFirst lx.lenient rest table)

/-- a phrase is heard in spite of a longer mis-heard spelling -/
theorem heard_before_longer_misheard :
    find? ⟨[], ["new".toList, "New line".toList], [("new line, then".toList, "tab".toList)], true⟩
        "mark, new LINE, then".toList 4 = some ⟨"New line".toList, 14, false⟩ := by
  obtain ⟨-, hphrase, -⟩ := find?_maximal_munch ⟨[], ["new".toList, "New line".toList], [], true⟩
    "mark, new LINE, then".toList 4
  have hsame := hphrase [("new line, then".toList, "tab".toList)] _ "New line".toList
    (begins_gap true "mark, new LINE, then".toList 4) (by decide)
    ⟨by decide, by decide, by decide⟩
  rw [hsame]
  decide

end Dictation.Phrase
