import Dictation.Proofs.Json.Grammar
import Dictation.Proofs.Json.Strings

/-!
# Values read as they were written

In every layout a value is read as it was written, as long as it has no number with a point and no
object has a key twice.

* `Json.Exact`             such values;
* `Json.ReadsBack`         what is read from a value's text, with anything after it that cannot
  belong to the value, shown in the grammar (`readsBack_of_derives`);
* `Json.Exact.readsBack`   by induction on the value;
* `Json.read?_write`       the whole text.
-/

namespace Dictation

namespace Decimal

theorem digitChar_ne_zero : ∀ n < 10, n ≠ 0 → digitChar n ≠ '0' := by decide

/-- the first digit, a zero for zero alone -/
theorem exists_digits (n : Nat) :
    ∃ c r, digits n = c :: r ∧ isDigit c = true ∧ (c = '0' → n = 0) := by
  induction n using Nat.strongRecOn with
  | _ n ih =>
    rw [digits]
    split
    · next hn =>
      refine ⟨digitChar n, [], rfl, (digitChar_spec n hn).1, fun hc => ?_⟩
      exact Decidable.byContradiction fun hzero => digitChar_ne_zero n hn hzero hc
    · next hn =>
      obtain ⟨c, r, hr, hc, hzero⟩ := ih (n / 10) (by omega)
      refine ⟨c, r ++ [digitChar (n % 10)], by rw [hr, List.cons_append], hc, fun h => ?_⟩
      have := hzero h
      omega

end Decimal

namespace Json

/-! ## digits among other characters -/

theorem after?_eq_none {word : String} {w c : Char} {ws : Text} (hword : word.toList = w :: ws)
    (hc : w ≠ c) (r : Text) : after? word (c :: r) = none := by
  rw [after?, hword, Text.beginsWith, beq_eq_false_iff_ne.2 hc]
  rfl

theorem ne_of_isDigit {c d : Char} (hc : Decimal.isDigit c = true)
    (hd : Decimal.isDigit d = false) : c ≠ d := by
  rintro rfl
  exact absurd (hc.symm.trans hd) (by decide)

/-! ## what may follow a value -/

def stops : List Char := ['\n', ',', ']', '\x7d']

/-- nothing that could belong to a number stands at the start -/
inductive Stops : Text → Prop where
  | nil : Stops []
  | cons {c : Char} (h : c ∈ stops) (r : Text) : Stops (c :: r)

theorem of_mem_stops : ∀ c ∈ stops,
    Decimal.isDigit c = false ∧ c ≠ '.' ∧ (c == 'e') = false ∧ (c == 'E') = false := by
  intro c hc
  simp only [stops, List.mem_cons, List.not_mem_nil, or_false] at hc
  rcases hc with rfl | rfl | rfl | rfl <;> decide

section
variable {rest : Text} (h : Stops rest)
include h

theorem Stops.takeWhile_isDigit {ds : Text} (hds : ∀ c ∈ ds, Decimal.isDigit c = true) :
    (ds ++ rest).takeWhile Decimal.isDigit = ds := by
  rw [List.takeWhile_append_of_pos hds]
  cases h with
  | nil => exact List.append_nil ds
  | cons hc r => rw [List.takeWhile_cons_of_neg (by simp [of_mem_stops _ hc]), List.append_nil]

theorem Stops.dropWhile_isDigit {ds : Text} (hds : ∀ c ∈ ds, Decimal.isDigit c = true) :
    (ds ++ rest).dropWhile Decimal.isDigit = rest := by
  rw [List.dropWhile_append_of_pos hds]
  cases h with
  | nil => rfl
  | cons hc r => rw [List.dropWhile_cons_of_neg (by simp [of_mem_stops _ hc])]

theorem Stops.readFraction_eq : readFraction rest = ([], rest) := by
  cases h with
  | nil => rfl
  | cons hc r =>
    rw [readFraction]
    intro r' heq
    exact (of_mem_stops _ hc).2.1 (List.cons.inj heq).1

theorem Stops.readExponent_eq : readExponent rest = (none, rest) := by
  cases h with
  | nil => rfl
  | cons hc r =>
    obtain ⟨-, -, he, hE⟩ := of_mem_stops _ hc
    unfold readExponent
    dsimp only
    rw [he, hE]
    rfl

/-! ## numbers -/

theorem readWhole?_digits (n : Nat) :
    readWhole? (Decimal.digits n ++ rest) = some (Decimal.digits n, rest) := by
  obtain ⟨c, r, hr, -, hzero⟩ := Decimal.exists_digits n
  by_cases hc : c = '0'
  · rw [hzero hc, Decimal.digits]
    rfl
  · have hdigits : ∀ c ∈ Decimal.digits n, Decimal.isDigit c = true :=
      fun c hc => Decimal.isDigit_of_mem_digits hc
    rw [readWhole?, h.takeWhile_isDigit hdigits, h.dropWhile_isDigit hdigits, hr]
    · rfl
    · intro r' heq
      rw [hr] at heq
      exact hc (List.cons.inj heq).1

theorem readMagnitude?_digits (negative : Bool) (n : Nat) :
    readMagnitude? negative (Decimal.digits n ++ rest)
      = some (.int (if negative then -(n : Int) else n), rest) := by
  rw [readMagnitude?, readWhole?_digits h, Option.map_some]
  dsimp only
  rw [h.readFraction_eq, h.readExponent_eq]
  dsimp only
  rw [Decimal.ofDigits_digits]
  rfl

theorem readNumber?_ofInt (i : Int) :
    readNumber? (Decimal.ofInt i ++ rest) = some (.int i, rest) := by
  obtain ⟨c, r, hr, hc, -⟩ := Decimal.exists_digits i.natAbs
  have hN : 'N' ≠ c := (ne_of_isDigit hc rfl).symm
  have hI : 'I' ≠ c := (ne_of_isDigit hc rfl).symm
  rw [Decimal.ofInt]
  split
  · next hi =>
    have hvalue : -(i.natAbs : Int) = i := by omega
    rw [List.cons_append, readNumber?, hr, List.cons_append, after?_eq_none rfl hI]
    dsimp only
    rw [← List.cons_append, ← hr, readMagnitude?_digits h, if_pos rfl, hvalue]
  · next hi =>
    have hvalue : (i.natAbs : Int) = i := by omega
    rw [hr, List.cons_append, readNumber?, after?_eq_none rfl hN, after?_eq_none rfl hI]
    · dsimp only
      rw [← List.cons_append, ← hr, readMagnitude?_digits h, if_neg Bool.false_ne_true, hvalue]
    · intro r' heq
      exact ne_of_isDigit hc rfl (List.cons.inj heq).1

end

/-! ## blanks between the parts -/

section
variable (l : Layout)

theorem skipSpace_cons {c : Char} (h : isSpace c = false) (r : Text) :
    skipSpace (c :: r) = c :: r := by
  rw [skipSpace, List.dropWhile_cons_of_neg (by rw [h]; exact Bool.false_ne_true)]

theorem skipSpace_newline (depth : Nat) (t : Text) :
    skipSpace (l.newline depth ++ t) = skipSpace t := by
  refine List.dropWhile_append_of_pos fun c hc => ?_
  rw [Layout.newline] at hc
  split at hc
  · rcases List.mem_cons.1 hc with rfl | hc
    · rfl
    · rw [(List.mem_replicate.1 hc).2]
      rfl
  · exact absurd hc List.not_mem_nil

/-- a comma and the blanks after it -/
theorem exists_comma (depth : Nat) :
    ∃ s, l.comma ++ l.newline depth = ',' :: s ∧ ∀ t, skipSpace (s ++ t) = skipSpace t := by
  unfold Layout.comma
  split
  · refine ⟨' ' :: l.newline depth, rfl, fun t => ?_⟩
    exact skipSpace_newline l depth t
  · exact ⟨l.newline depth, rfl, skipSpace_newline l depth⟩

theorem exists_colon : ∃ s, l.colon = ':' :: s ∧ ∀ t, skipSpace (s ++ t) = skipSpace t := by
  unfold Layout.colon
  split
  · exact ⟨[' '], rfl, fun _ => rfl⟩
  · exact ⟨[], rfl, fun _ => rfl⟩

end

/-! ## values -/

/-- no number with a point, and no key twice in one object -/
inductive Exact : Json → Prop where
  | null : Exact .null
  | bool (b : Bool) : Exact (.bool b)
  | int (i : Int) : Exact (.int i)
  | str (s : Units) : Exact (.str s)
  | arr {vs : List Json} (items : ∀ v ∈ vs, Exact v) : Exact (.arr vs)
  | obj {fs : Fields} (keys : (fs.map (·.1)).Nodup) (values : ∀ f ∈ fs, Exact f.2) : Exact (.obj fs)

theorem Opens.skipSpace {t : Text} (h : Opens t) : skipSpace t = t := by
  obtain ⟨c, r, rfl, hc, -⟩ := h
  exact skipSpace_cons hc r

/-- a value is read from its text, whatever can follow it there -/
structure ReadsBack (l : Layout) (v : Json) : Prop where
  opens : ∀ depth, Opens (writeAt l depth v)
  /-- no more of the bound is used up than the text is long -/
  reads : ∀ depth {bound rest}, Stops rest → (writeAt l depth v).length ≤ bound →
    readValue? bound (writeAt l depth v ++ rest) = some (v, rest)

section
variable {l : Layout} {v : Json}

theorem ReadsBack.derives (h : ReadsBack l v) (depth : Nat) {rest : Text} (hrest : Stops rest) :
    Derives (writeAt l depth v ++ rest) (.value v) rest :=
  derives_of_reads (p := .value v) (h.reads depth hrest (Nat.le_refl _))

theorem readsBack_of_derives
    (h : ∀ depth rest, Stops rest → Derives (writeAt l depth v ++ rest) (.value v) rest) :
    ReadsBack l v where
  opens depth := by
    have hopens := (h depth [] .nil).opens
    rwa [List.append_nil] at hopens
  reads depth bound rest hrest hbound := by
    refine (h depth rest hrest).reads ?_
    rw [List.length_append]
    exact Nat.add_le_add_right hbound _

end

section
variable (l : Layout)

theorem readsBack_null : ReadsBack l .null :=
  readsBack_of_derives fun _ rest _ => .null rest

theorem readsBack_bool (b : Bool) : ReadsBack l (.bool b) :=
  readsBack_of_derives fun _ rest _ => by
    cases b with
    | false => exact .no rest
    | true => exact .yes rest

theorem readsBack_int (i : Int) : ReadsBack l (.int i) :=
  readsBack_of_derives fun _ _ hrest => .number (readNumber?_ofInt hrest i)

theorem readsBack_str (s : Units) : ReadsBack l (.str s) :=
  readsBack_of_derives fun _ rest _ => by
    obtain ⟨t, ht, hread⟩ := readString_writeString l.ascii s rest
    rw [writeAt, ht]
    exact .str hread

end

/-! ## lists -/

theorem stops_newline (l : Layout) (depth : Nat) {c : Char} (hc : c ∈ stops) (rest : Text) :
    Stops (l.newline depth ++ c :: rest) := by
  rw [Layout.newline]
  split
  · exact .cons (by decide) _
  · exact .cons hc rest

section
variable {close rest : Text} (hclose : Stops close)
include hclose

theorem stops_writeItems (l : Layout) (depth : Nat) (vs : List Json) :
    Stops (writeItems l depth vs ++ close) := by
  cases vs with
  | nil => exact hclose
  | cons v vs =>
    obtain ⟨s, hs, -⟩ := exists_comma l depth
    rw [writeItems, hs]
    exact .cons (by decide) _

theorem derives_items {l : Layout} (hrest : skipSpace close = ']' :: rest) (depth : Nat) {v : Json}
    {vs : List Json} (hread : ∀ w ∈ v :: vs, ReadsBack l w) :
    Derives (writeAt l depth v ++ (writeItems l depth vs ++ close)) (.items (v :: vs)) rest := by
  have hv := (hread v List.mem_cons_self).derives depth (stops_writeItems hclose l depth vs)
  cases vs with
  | nil => exact .lastItem hv hrest
  | cons w ws =>
    obtain ⟨s, hs, hskip⟩ := exists_comma l depth
    have hws := derives_items hrest depth fun u hu => hread u (List.mem_cons_of_mem _ hu)
    have hcomma : skipSpace (writeItems l depth (w :: ws) ++ close)
        = ',' :: (s ++ (writeAt l depth w ++ (writeItems l depth ws ++ close))) := by
      rw [writeItems, hs]
      simp only [List.append_assoc, List.cons_append]
      exact skipSpace_cons rfl _
    refine .item hv hcomma ?_
    rw [hskip, hws.opens.skipSpace]
    exact hws

end

theorem readsBack_arr {l : Layout} {vs : List Json} (h : ∀ v ∈ vs, ReadsBack l v) :
    ReadsBack l (.arr vs) :=
  readsBack_of_derives fun depth rest _ => by
    cases vs with
    | nil => exact .noItems rfl
    | cons v vs =>
      have hclose : skipSpace (l.newline depth ++ ']' :: rest) = ']' :: rest :=
        (skipSpace_newline l depth _).trans (skipSpace_cons rfl rest)
      have hitems := derives_items (stops_newline l depth (by decide) rest) hclose (depth + 1) h
      rw [writeAt]
      simp only [List.cons_append, List.append_assoc, List.nil_append]
      refine .arr ?_
      rw [skipSpace_newline, hitems.opens.skipSpace]
      exact hitems

/-! ## objects -/

/-- a key and its value, as they are written -/
def fieldText (l : Layout) (depth : Nat) (f : Units × Json) : Text :=
  writeString l.ascii f.1 ++ (l.colon ++ writeAt l depth f.2)

theorem writeFields_cons (l : Layout) (depth : Nat) (f : Units × Json) (fs : Fields) :
    writeFields l depth (f :: fs)
      = l.comma ++ l.newline depth ++ (fieldText l depth f ++ writeFields l depth fs) := by
  obtain ⟨k, v⟩ := f
  rw [writeFields, fieldText]
  simp only [List.append_assoc]

theorem stops_writeFields {close : Text} (hclose : Stops close) (l : Layout) (depth : Nat)
    (fs : Fields) : Stops (writeFields l depth fs ++ close) := by
  cases fs with
  | nil => exact hclose
  | cons f fs =>
    obtain ⟨s, hs, -⟩ := exists_comma l depth
    rw [writeFields_cons, hs]
    exact .cons (by decide) _

/-- the parts of a field, as they are read -/
theorem exists_fieldText {l : Layout} {depth : Nat} {f : Units × Json} {r : Text}
    (hvalue : Opens (writeAt l depth f.2 ++ r)) :
    ∃ t u w, fieldText l depth f ++ r = '"' :: t ∧ readString t = some (f.1, u) ∧
      skipSpace u = ':' :: w ∧ skipSpace w = writeAt l depth f.2 ++ r := by
  obtain ⟨t, ht, hkey⟩ := readString_writeString l.ascii f.1 (l.colon ++ (writeAt l depth f.2 ++ r))
  obtain ⟨s, hs, hskip⟩ := exists_colon l
  refine ⟨t, _, s ++ (writeAt l depth f.2 ++ r), ?_, hkey, ?_, ?_⟩
  · rw [fieldText, List.append_assoc, List.append_assoc, ht]
  · rw [hs, List.cons_append, skipSpace_cons rfl]
  · rw [hskip, hvalue.skipSpace]

section
variable {l : Layout} {close rest : Text} (hclose : Stops close)
include hclose

theorem derives_fields (hrest : skipSpace close = '\x7d' :: rest) (depth : Nat)
    {f : Units × Json} {fs : Fields} (hread : ∀ g ∈ f :: fs, ReadsBack l g.2) :
    Derives (fieldText l depth f ++ (writeFields l depth fs ++ close)) (.fields (f :: fs))
      rest := by
  have hv := (hread f List.mem_cons_self).derives depth (stops_writeFields hclose l depth fs)
  obtain ⟨t, u, w, ht, hkey, hcolon, hw⟩ := exists_fieldText hv.opens
  rw [ht]
  rw [← hw] at hv
  cases fs with
  | nil => exact .lastField hkey hcolon hv hrest
  | cons g gs =>
    obtain ⟨s, hs, hskip⟩ := exists_comma l depth
    have hgs := derives_fields hrest depth fun u hu => hread u (List.mem_cons_of_mem _ hu)
    have hcomma : skipSpace (writeFields l depth (g :: gs) ++ close)
        = ',' :: (s ++ (fieldText l depth g ++ (writeFields l depth gs ++ close))) := by
      rw [writeFields_cons, hs]
      simp only [List.append_assoc, List.cons_append]
      exact skipSpace_cons rfl _
    refine .field hkey hcolon hv hcomma ?_
    rw [hskip, hgs.opens.skipSpace]
    exact hgs

end

theorem put_of_notMem {k : Units} {fs : Fields} (h : k ∉ fs.map (·.1)) (v : Json) :
    put k v fs = fs ++ [(k, v)] := by
  induction fs with
  | nil => rfl
  | cons f fs ih =>
    obtain ⟨k', v'⟩ := f
    rw [List.map_cons, List.mem_cons, not_or] at h
    rw [put, if_neg (Ne.symm h.1), ih h.2, List.cons_append]

/-- fields with different keys are all kept, in their order -/
theorem foldl_put {kept fs : Fields} (h : ((kept ++ fs).map (·.1)).Nodup) :
    fs.foldl (fun fs f => put f.1 f.2 fs) kept = kept ++ fs := by
  induction fs generalizing kept with
  | nil => rw [List.foldl_nil, List.append_nil]
  | cons f fs ih =>
    have hf : f.1 ∉ kept.map (·.1) := by
      rw [List.map_append, List.map_cons] at h
      exact fun hmem => (List.nodup_append.1 h).2.2 _ hmem _ List.mem_cons_self rfl
    rw [List.append_cons] at h ⊢
    rw [List.foldl_cons, put_of_notMem hf, ih h]

theorem object_of_nodup {fs : Fields} (h : (fs.map (·.1)).Nodup) : object fs = .obj fs :=
  congrArg Json.obj (foldl_put (List.nil_append fs ▸ h))

theorem writeAt_obj_cons (l : Layout) (depth : Nat) (f : Units × Json) (fs : Fields) :
    writeAt l depth (.obj (f :: fs)) = '\x7b' :: (l.newline (depth + 1)
      ++ (fieldText l (depth + 1) f ++ (writeFields l (depth + 1) fs
        ++ (l.newline depth ++ ['\x7d'])))) := by
  obtain ⟨k, v⟩ := f
  rw [writeAt, fieldText]
  simp only [List.append_assoc, List.cons_append]

theorem readsBack_obj {l : Layout} {fs : Fields} (hkeys : (fs.map (·.1)).Nodup)
    (h : ∀ f ∈ fs, ReadsBack l f.2) : ReadsBack l (.obj fs) :=
  readsBack_of_derives fun depth rest _ => by
    cases fs with
    | nil => exact .noFields rfl
    | cons f fs =>
      have hclose : skipSpace (l.newline depth ++ '\x7d' :: rest) = '\x7d' :: rest :=
        (skipSpace_newline l depth _).trans (skipSpace_cons rfl rest)
      have hfields := derives_fields (stops_newline l depth (by decide) rest) hclose (depth + 1) h
      rw [writeAt_obj_cons, ← object_of_nodup hkeys]
      simp only [List.cons_append, List.append_assoc, List.nil_append]
      refine .obj ?_
      rw [skipSpace_newline, hfields.opens.skipSpace]
      exact hfields

/-! ## whole texts -/

theorem Exact.readsBack {v : Json} (h : Exact v) (l : Layout) : ReadsBack l v := by
  -- on `Exact` and not on the value: its lists bring the hypotheses for their items along
  induction h with
  | null => exact readsBack_null l
  | bool b => exact readsBack_bool l b
  | int i => exact readsBack_int l i
  | str s => exact readsBack_str l s
  | arr _ ih => exact readsBack_arr ih
  | obj hkeys _ ih => exact readsBack_obj hkeys ih

theorem ReadsBack.read?_write {l : Layout} {v : Json} (h : ReadsBack l v) :
    read? (write l v) = some v := by
  have hv := h.derives 0 .nil
  rw [List.append_nil] at hv
  refine read?_eq_some_iff.2 ⟨[], ?_, rfl⟩
  rw [write, (h.opens 0).skipSpace]
  exact hv

/-- a value is read from its text, in every layout -/
theorem read?_write {v : Json} (h : Exact v) (l : Layout) : read? (write l v) = some v :=
  (h.readsBack l).read?_write

end Json
end Dictation
