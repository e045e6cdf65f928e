import Dictation.Json.Reader

/-!
# The grammar of what is read

What can be read from the start of a text, and what is then left of it, said without the bound that
the readers recurse on.  They read what the grammar derives and nothing else, within any bound that
is not smaller than the part of the text that they take; so no text is refused for want of a larger
one.

* `Json.Part`               a value, the items of a list, or the fields of an object;
* `Json.Derives`            the grammar;
* `Json.Derives.shorter`    something is taken from the text;
* `Json.derives_of_reads`   what is read is derived;
* `Json.Derives.reads`      what is derived is read;
* `Json.read?_eq_some_iff`  whole texts.
-/

namespace Dictation.Json

section
variable {t r : Text}

/-! ## blanks and strings -/

theorem length_skipSpace_le (t : Text) : (skipSpace t).length ≤ t.length :=
  (List.dropWhile_sublist _).length_le

theorem length_of_skipSpace {c : Char} (h : skipSpace t = c :: r) : r.length < t.length := by
  have hle := length_skipSpace_le t
  rwa [h] at hle

/-- what is left after a mark and the blanks behind it -/
theorem length_skipSpace_lt {c : Char} (h : skipSpace t = c :: r) :
    (skipSpace r).length < t.length :=
  Nat.lt_of_le_of_lt (length_skipSpace_le r) (length_of_skipSpace h)

theorem length_of_readString {s : Units} (h : readString t = some (s, r)) :
    r.length < t.length := by
  fun_induction readString t generalizing s with
  | case1 => cases h
  | case2 =>
    cases h
    exact Nat.lt_succ_self _
  | case3 _ _ _ _ _ _ _ _ hrest _ ih =>
    cases h
    have := ih hrest
    simp only [List.length_cons]
    omega
  | case4 => cases h
  | case5 _ _ _ _ _ _ hrest _ ih =>
    cases h
    have := ih hrest
    simp only [List.length_cons]
    omega
  | case6 => cases h
  | case7 => cases h
  | case8 _ _ _ _ _ _ ih =>
    obtain ⟨⟨us, rest⟩, hrest, h⟩ := Option.map_eq_some_iff.1 h
    cases h
    have := ih hrest
    simp only [List.length_cons]
    omega

/-- what is left after a key, a colon and the blanks behind it -/
theorem length_of_key {k : Units} {u : Text} (hk : readString t = some (k, u))
    (hcolon : skipSpace u = ':' :: r) : (skipSpace r).length < t.length :=
  Nat.lt_trans (length_skipSpace_lt hcolon) (length_of_readString hk)

/-! ## numbers -/

theorem eq_append_of_after? {word : String} (h : after? word t = some r) :
    t = word.toList ++ r := by
  rw [after?] at h
  split at h
  · next hword =>
    obtain ⟨s, rfl⟩ := (Text.beginsWith_iff _ _).1 hword
    rw [List.drop_left] at h
    cases h
    rfl
  · cases h

/-- a run of digits that is not empty -/
theorem length_dropWhile_isDigit (h : (t.takeWhile Decimal.isDigit).isEmpty = false) :
    (t.dropWhile Decimal.isDigit).length < t.length := by
  cases t with
  | nil => cases h
  | cons c t =>
    rw [List.takeWhile_cons] at h
    rw [List.dropWhile_cons]
    split at h
    · next hc =>
      rw [if_pos hc]
      exact Nat.lt_succ_of_le (List.dropWhile_sublist _).length_le
    · cases h

theorem length_of_readDigits? {n : Nat} (h : readDigits? t = some (n, r)) :
    r.length < t.length := by
  rw [readDigits?] at h
  split at h
  · cases h
  · next hne =>
    cases h
    exact length_dropWhile_isDigit (Bool.eq_false_iff.2 hne)

theorem length_readFraction_le (t : Text) : (readFraction t).2.length ≤ t.length := by
  unfold readFraction
  split
  · dsimp only
    split
    · exact Nat.le_refl _
    · exact Nat.le_succ_of_le (List.dropWhile_sublist _).length_le
  · exact Nat.le_refl _

theorem length_readExponent_le (t : Text) : (readExponent t).2.length ≤ t.length := by
  unfold readExponent
  split
  · split
    · dsimp only
      split
      · next hdigits =>
        refine Nat.le_succ_of_le (Nat.le_trans (Nat.le_of_lt (length_of_readDigits? hdigits)) ?_)
        -- a sign may stand before the digits
        split
        · exact Nat.le_succ _
        · exact Nat.le_succ _
        · exact Nat.le_refl _
      · exact Nat.le_refl _
    · exact Nat.le_refl _
  · exact Nat.le_refl _

/-- the characters that a number starts with -/
def opensNumber (c : Char) : Bool := c == '-' || c == 'N' || c == 'I' || Decimal.isDigit c

theorem ne_of_opensNumber {c d : Char} (hc : opensNumber c = true) (hd : opensNumber d = false) :
    c ≠ d := by
  rintro rfl
  exact absurd (hc.symm.trans hd) (by decide)

theorem isSpace_of_opensNumber {c : Char} (hc : opensNumber c = true) : isSpace c = false := by
  have hblank := fun d => ne_of_opensNumber (d := d) hc
  rw [isSpace, beq_eq_false_iff_ne.2 (hblank ' ' rfl), beq_eq_false_iff_ne.2 (hblank '\t' rfl),
    beq_eq_false_iff_ne.2 (hblank '\n' rfl), beq_eq_false_iff_ne.2 (hblank '\r' rfl)]
  rfl

/-- the start of a number stands at the start of a text, and less than the text is left -/
structure TakesNumber (t r : Text) : Prop where
  opens : ∃ c s, t = c :: s ∧ opensNumber c = true
  shorter : r.length < t.length

theorem takesNumber_readWhole? {ds : Text} (h : readWhole? t = some (ds, r)) :
    TakesNumber t r := by
  unfold readWhole? at h
  split at h
  · cases h
    exact ⟨⟨'0', _, rfl, rfl⟩, Nat.lt_succ_self _⟩
  · dsimp only at h
    split at h
    · cases h
    · next hne =>
      cases h
      refine ⟨?_, length_dropWhile_isDigit (Bool.eq_false_iff.2 hne)⟩
      cases t with
      | nil => exact absurd rfl hne
      | cons c s =>
        refine ⟨c, s, rfl, ?_⟩
        cases hc : Decimal.isDigit c with
        | true => rw [opensNumber, hc, Bool.or_true]
        | false => rw [List.takeWhile_cons, hc] at hne; exact absurd rfl hne

theorem takesNumber_readMagnitude? {negative : Bool} {v : Json}
    (h : readMagnitude? negative t = some (v, r)) : TakesNumber t r := by
  obtain ⟨⟨ds, s⟩, hwhole, h⟩ := Option.map_eq_some_iff.1 h
  obtain ⟨hopens, hlt⟩ := takesNumber_readWhole? hwhole
  have hle := Nat.le_trans (length_readExponent_le (readFraction s).2) (length_readFraction_le s)
  refine ⟨hopens, Nat.lt_of_le_of_lt ?_ hlt⟩
  dsimp only at h
  split at h <;>
  · cases h
    exact hle

theorem takesNumber_readNumber? {v : Json} (h : readNumber? t = some (v, r)) :
    TakesNumber t r := by
  have hword {word : String} {c : Char} {s : Text} (hopens : opensNumber c = true)
      (hs : word.toList = c :: s) (h : after? word t = some r) : TakesNumber t r := by
    obtain rfl := eq_append_of_after? h
    rw [hs]
    refine ⟨⟨c, s ++ r, rfl, hopens⟩, ?_⟩
    rw [List.length_append, List.length_cons]
    omega
  unfold readNumber? at h
  split at h
  · split at h
    · next hafter =>
      cases h
      refine ⟨⟨'-', _, rfl, rfl⟩, ?_⟩
      rw [eq_append_of_after? hafter, List.length_cons, List.length_append]
      omega
    · exact ⟨⟨'-', _, rfl, rfl⟩, Nat.lt_succ_of_lt (takesNumber_readMagnitude? h).shorter⟩
  · split at h
    · next hafter =>
      cases h
      exact hword rfl rfl hafter
    · next hafter =>
      cases h
      exact hword rfl rfl hafter
    · exact takesNumber_readMagnitude? h

end

/-! ## the grammar -/

/-- what can be read -/
inductive Part where
  | value (v : Json)
  | items (vs : List Json)
  | fields (fs : Fields)

/-- a part stands at the start of a text, with this left of the text -/
inductive Derives : Text → Part → Text → Prop where
  | null (r : Text) : Derives ('n' :: 'u' :: 'l' :: 'l' :: r) (.value .null) r
  | yes (r : Text) : Derives ('t' :: 'r' :: 'u' :: 'e' :: r) (.value (.bool true)) r
  | no (r : Text) : Derives ('f' :: 'a' :: 'l' :: 's' :: 'e' :: r) (.value (.bool false)) r
  | str {t r : Text} {s : Units} (h : readString t = some (s, r)) :
      Derives ('"' :: t) (.value (.str s)) r
  | number {t r : Text} {v : Json} (h : readNumber? t = some (v, r)) : Derives t (.value v) r
  | noItems {t r : Text} (h : skipSpace t = ']' :: r) : Derives ('[' :: t) (.value (.arr [])) r
  | arr {t r : Text} {vs : List Json} (h : Derives (skipSpace t) (.items vs) r) :
      Derives ('[' :: t) (.value (.arr vs)) r
  | noFields {t r : Text} (h : skipSpace t = '\x7d' :: r) :
      Derives ('\x7b' :: t) (.value (.obj [])) r
  | obj {t r : Text} {fs : Fields} (h : Derives (skipSpace t) (.fields fs) r) :
      Derives ('\x7b' :: t) (.value (object fs)) r
  | lastItem {t u r : Text} {v : Json} (hv : Derives t (.value v) u)
      (h : skipSpace u = ']' :: r) : Derives t (.items [v]) r
  | item {t u w r : Text} {v : Json} {vs : List Json} (hv : Derives t (.value v) u)
      (h : skipSpace u = ',' :: w) (hvs : Derives (skipSpace w) (.items vs) r) :
      Derives t (.items (v :: vs)) r
  | lastField {t u w x r : Text} {k : Units} {v : Json} (hk : readString t = some (k, u))
      (hcolon : skipSpace u = ':' :: w) (hv : Derives (skipSpace w) (.value v) x)
      (h : skipSpace x = '\x7d' :: r) : Derives ('"' :: t) (.fields [(k, v)]) r
  | field {t u w x y r : Text} {k : Units} {v : Json} {fs : Fields}
      (hk : readString t = some (k, u)) (hcolon : skipSpace u = ':' :: w)
      (hv : Derives (skipSpace w) (.value v) x) (h : skipSpace x = ',' :: y)
      (hfs : Derives (skipSpace y) (.fields fs) r) : Derives ('"' :: t) (.fields ((k, v) :: fs)) r

section
variable {t r : Text} {p : Part}

theorem Derives.shorter (h : Derives t p r) : r.length < t.length := by
  induction h with
  | null r => simp only [List.length_cons]; omega
  | yes r => simp only [List.length_cons]; omega
  | no r => simp only [List.length_cons]; omega
  | str h => exact Nat.lt_succ_of_lt (length_of_readString h)
  | number h => exact (takesNumber_readNumber? h).shorter
  | noItems h => exact Nat.lt_succ_of_lt (length_of_skipSpace h)
  | @arr t _ _ _ ih => exact Nat.lt_succ_of_lt (Nat.lt_of_lt_of_le ih (length_skipSpace_le t))
  | noFields h => exact Nat.lt_succ_of_lt (length_of_skipSpace h)
  | @obj t _ _ _ ih => exact Nat.lt_succ_of_lt (Nat.lt_of_lt_of_le ih (length_skipSpace_le t))
  | lastItem _ h ih => exact Nat.lt_trans (length_of_skipSpace h) ih
  | item _ h _ ihv ihvs => exact Nat.lt_trans ihvs (Nat.lt_trans (length_skipSpace_lt h) ihv)
  | lastField hk hcolon _ h ih =>
    have hvalue := Nat.lt_trans ih (length_of_key hk hcolon)
    exact Nat.lt_succ_of_lt (Nat.lt_trans (length_of_skipSpace h) hvalue)
  | field hk hcolon _ h _ ihv ihfs =>
    have hvalue := Nat.lt_trans ihv (length_of_key hk hcolon)
    exact Nat.lt_succ_of_lt (Nat.lt_trans ihfs (Nat.lt_trans (length_skipSpace_lt h) hvalue))

/-! ## what is read is derived -/

/-- the part is read within the bound -/
def Part.Read (bound : Nat) (t r : Text) : Part → Prop
  | .value v => readValue? bound t = some (v, r)
  | .items vs => readItems? bound t = some (vs, r)
  | .fields fs => readFields? bound t = some (fs, r)

section
variable {bound : Nat} (ih : ∀ {t r : Text} {p : Part}, p.Read bound t r → Derives t p r)
include ih

theorem derives_of_readValue? {v : Json} (h : readValue? (bound + 1) t = some (v, r)) :
    Derives t (.value v) r := by
  unfold readValue? at h
  split at h
  · cases h
    exact .null r
  · cases h
    exact .yes r
  · cases h
    exact .no r
  · obtain ⟨⟨s, rest⟩, hs, h⟩ := Option.map_eq_some_iff.1 h
    cases h
    exact .str hs
  · split at h
    · next hclose =>
      cases h
      exact .noItems hclose
    · obtain ⟨⟨vs, rest⟩, hvs, h⟩ := Option.map_eq_some_iff.1 h
      cases h
      exact .arr (ih (p := .items vs) hvs)
  · split at h
    · next hclose =>
      cases h
      exact .noFields hclose
    · obtain ⟨⟨fs, rest⟩, hfs, h⟩ := Option.map_eq_some_iff.1 h
      cases h
      exact .obj (ih (p := .fields fs) hfs)
  · exact .number h

theorem derives_of_readItems? {vs : List Json} (h : readItems? (bound + 1) t = some (vs, r)) :
    Derives t (.items vs) r := by
  unfold readItems? at h
  split at h
  · cases h
  · next v u hv =>
    have hitem : Derives t (.value v) u := ih hv
    split at h
    · next hcomma =>
      obtain ⟨⟨vs, rest⟩, hvs, h⟩ := Option.map_eq_some_iff.1 h
      cases h
      exact .item hitem hcomma (ih (p := .items vs) hvs)
    · next hclose =>
      cases h
      exact .lastItem hitem hclose
    · cases h

theorem derives_of_readFields? {fs : Fields} (h : readFields? (bound + 1) t = some (fs, r)) :
    Derives t (.fields fs) r := by
  unfold readFields? at h
  split at h
  · split at h
    · cases h
    · next k u hk =>
      split at h
      · next w hcolon =>
        split at h
        · cases h
        · next v x hv =>
          have hvalue : Derives (skipSpace w) (.value v) x := ih hv
          split at h
          · next hcomma =>
            obtain ⟨⟨fs, rest⟩, hfs, h⟩ := Option.map_eq_some_iff.1 h
            cases h
            exact .field hk hcolon hvalue hcomma (ih (p := .fields fs) hfs)
          · next hclose =>
            cases h
            exact .lastField hk hcolon hvalue hclose
          · cases h
      · cases h
  · cases h

end

/-- **What is read is derived.** -/
theorem derives_of_reads {bound : Nat} (h : p.Read bound t r) : Derives t p r := by
  -- the readers of values, items and fields call one another with a smaller bound
  induction bound generalizing t r p with
  | zero => cases p <;> cases h
  | succ bound ih =>
    cases p with
    | value v => exact derives_of_readValue? ih h
    | items vs => exact derives_of_readItems? ih h
    | fields fs => exact derives_of_readFields? ih h

/-! ## what is derived is read -/

/-- the start of a value, neither blank nor the end of a list -/
def Opens (t : Text) : Prop := ∃ c r, t = c :: r ∧ isSpace c = false ∧ c ≠ ']'

theorem Derives.opens (h : Derives t p r) : Opens t := by
  induction h with
  | number h =>
    obtain ⟨c, s, rfl, hc⟩ := (takesNumber_readNumber? h).opens
    exact ⟨c, s, rfl, isSpace_of_opensNumber hc, ne_of_opensNumber hc rfl⟩
  | lastItem _ _ ih => exact ih
  | item _ _ _ ihv _ => exact ihv
  | _ => exact ⟨_, _, rfl, rfl, by decide⟩

theorem Derives.opens_fields {fs : Fields} (h : Derives t (.fields fs) r) :
    ∃ s, t = '"' :: s := by
  cases h with
  | lastField => exact ⟨_, rfl⟩
  | field => exact ⟨_, rfl⟩

section
variable {bound : Nat} {u w x : Text} {k : Units} {v : Json} {vs : List Json} {fs : Fields}

theorem readValue?_number (h : readNumber? t = some (v, r)) :
    readValue? (bound + 1) t = some (v, r) := by
  obtain ⟨c, s, rfl, hc⟩ := (takesNumber_readNumber? h).opens
  have hother (d : Char) (hd : opensNumber d = false) (s' : Text) : c :: s ≠ d :: s' :=
    fun heq => ne_of_opensNumber hc hd (List.cons.inj heq).1
  rw [readValue?, h]
  · exact fun _ => hother 'n' rfl _
  · exact fun _ => hother 't' rfl _
  · exact fun _ => hother 'f' rfl _
  · exact fun _ => hother '"' rfl _
  · exact fun _ => hother '[' rfl _
  · exact fun _ => hother '\x7b' rfl _

theorem readValue?_arr (hopens : Opens (skipSpace t))
    (h : readItems? bound (skipSpace t) = some (vs, r)) :
    readValue? (bound + 1) ('[' :: t) = some (.arr vs, r) := by
  obtain ⟨c, s, hs, -, hc⟩ := hopens
  rw [readValue?]
  split
  · next heq => exact absurd (List.cons.inj (hs.symm.trans heq)).1 hc
  · rw [h]
    rfl

theorem readValue?_obj (hopens : ∃ s, skipSpace t = '"' :: s)
    (h : readFields? bound (skipSpace t) = some (fs, r)) :
    readValue? (bound + 1) ('\x7b' :: t) = some (object fs, r) := by
  obtain ⟨s, hs⟩ := hopens
  rw [hs] at h
  rw [readValue?, hs]
  split
  · next heq => cases heq
  · rw [h]
    rfl

theorem readItems?_last (hv : readValue? bound t = some (v, u)) (h : skipSpace u = ']' :: r) :
    readItems? (bound + 1) t = some ([v], r) := by
  simp only [readItems?, hv, h]

theorem readItems?_cons (hv : readValue? bound t = some (v, u)) (h : skipSpace u = ',' :: w)
    (hvs : readItems? bound (skipSpace w) = some (vs, r)) :
    readItems? (bound + 1) t = some (v :: vs, r) := by
  simp only [readItems?, hv, h, hvs, Option.map_some]

theorem readFields?_last (hk : readString t = some (k, u)) (hcolon : skipSpace u = ':' :: w)
    (hv : readValue? bound (skipSpace w) = some (v, x)) (h : skipSpace x = '\x7d' :: r) :
    readFields? (bound + 1) ('"' :: t) = some ([(k, v)], r) := by
  simp only [readFields?, hk, hcolon, hv, h]

theorem readFields?_cons {y : Text} (hk : readString t = some (k, u))
    (hcolon : skipSpace u = ':' :: w) (hv : readValue? bound (skipSpace w) = some (v, x))
    (h : skipSpace x = ',' :: y) (hfs : readFields? bound (skipSpace y) = some (fs, r)) :
    readFields? (bound + 1) ('"' :: t) = some ((k, v) :: fs, r) := by
  simp only [readFields?, hk, hcolon, hv, h, hfs, Option.map_some]

end

/-- **What is derived is read.** -/
theorem Derives.reads (h : Derives t p r) {bound : Nat} (hbound : t.length ≤ bound + r.length) :
    p.Read bound t r := by
  -- on the bound: a call passes on one less of it, and has taken at least one character by then
  -- or leaves at least one to what follows
  induction bound generalizing t r p with
  | zero =>
    have := h.shorter
    omega
  | succ bound ih =>
    cases h with
    | null => rfl
    | yes => rfl
    | no => rfl
    | str h =>
      show readValue? (bound + 1) _ = _
      rw [readValue?, h]
      rfl
    | number h => exact readValue?_number h
    | noItems h =>
      show readValue? (bound + 1) _ = _
      rw [readValue?, h]
      rfl
    | @arr t _ vs h =>
      have ht := length_skipSpace_le t
      rw [List.length_cons] at hbound
      exact readValue?_arr h.opens (ih h (by omega))
    | noFields h =>
      show readValue? (bound + 1) _ = _
      rw [readValue?, h]
      rfl
    | @obj t _ fs h =>
      have ht := length_skipSpace_le t
      rw [List.length_cons] at hbound
      exact readValue?_obj h.opens_fields (ih h (by omega))
    | lastItem hv h =>
      have hu := length_of_skipSpace h
      exact readItems?_last (ih hv (by omega)) h
    | item hv h hvs =>
      have hu := length_skipSpace_lt h
      have ht := hv.shorter
      have hr := hvs.shorter
      exact readItems?_cons (ih hv (by omega)) h (ih hvs (by omega))
    | lastField hk hcolon hv h =>
      have ht := length_of_key hk hcolon
      have hx := length_of_skipSpace h
      rw [List.length_cons] at hbound
      exact readFields?_last hk hcolon (ih hv (by omega)) h
    | field hk hcolon hv h hfs =>
      have ht := length_of_key hk hcolon
      have hx := length_skipSpace_lt h
      have hlt := hv.shorter
      have hr := hfs.shorter
      rw [List.length_cons] at hbound
      exact readFields?_cons hk hcolon (ih hv (by omega)) h (ih hfs (by omega))

/-! ## whole texts -/

/-- **The texts that are read.** -/
theorem read?_eq_some_iff {v : Json} :
    read? t = some v ↔ ∃ r, Derives (skipSpace t) (.value v) r ∧ skipSpace r = [] := by
  constructor
  · intro h
    unfold read? at h
    split at h
    · next w u hread =>
      split at h
      · next hempty =>
        cases h
        exact ⟨u, derives_of_reads (p := .value v) hread, List.isEmpty_iff.1 hempty⟩
      · cases h
    · cases h
  · rintro ⟨r, hv, hr⟩
    have hle := length_skipSpace_le t
    have hread : readValue? (t.length + 1) (skipSpace t) = some (v, r) := hv.reads (by omega)
    rw [read?, hread]
    dsimp only
    rw [hr]
    rfl

end

end Dictation.Json
