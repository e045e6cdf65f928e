import Dictation.Proofs.Json.RoundTrip
import Mathlib.Data.List.Nodup

/-!
# Values that have been read

A key that is read again keeps its place and takes the later value, so no object that has been read
has a key twice.  What has been read is read again from the text that is written of it, as long as
it has no number with a point.

* `Json.Sets`, `Json.sets_put`   one field set in its place, or at the end if it is new;
* `Json.Distinct`     no key twice in an object; `Json.distinct_of_read?` for what is read;
* `Json.Whole`        no number with a point;
* `Whole.readsBack`   then, without a key twice, a value is read from its text.
-/

namespace Dictation.Json

/-! ## one field set -/

/-- all fields are as they were, but for the one that is set -/
inductive Sets (k : Units) (v : Json) : Fields → Fields → Prop where
  | there {before after : Fields} (old : Json) (hbefore : k ∉ before.map (·.1))
      (hafter : k ∉ after.map (·.1)) : Sets k v (before ++ (k, old) :: after)
        (before ++ (k, v) :: after)
  | new {fs : Fields} (h : k ∉ fs.map (·.1)) : Sets k v fs (fs ++ [(k, v)])

section
variable {k : Units} {v old : Json} {fs fs' before after : Fields}

theorem put_append_cons (h : k ∉ before.map (·.1)) :
    put k v (before ++ (k, old) :: after) = before ++ (k, v) :: after := by
  induction before with
  | nil => rw [List.nil_append, put, if_pos rfl, List.nil_append]
  | cons f before ih =>
    obtain ⟨k', v'⟩ := f
    rw [List.map_cons, List.mem_cons, not_or] at h
    rw [List.cons_append, put, if_neg (Ne.symm h.1), ih h.2, List.cons_append]

/-- **Putting a field sets it and leaves the others.** -/
theorem sets_put (h : (fs.map (·.1)).Nodup) (k : Units) (v : Json) : Sets k v fs (put k v fs) := by
  by_cases hk : k ∈ fs.map (·.1)
  · obtain ⟨⟨k, old⟩, hf, rfl⟩ := List.mem_map.1 hk
    obtain ⟨before, after, rfl⟩ := List.append_of_mem hf
    rw [List.map_append, List.map_cons, List.nodup_middle, List.nodup_cons, List.mem_append,
      not_or] at h
    rw [put_append_cons h.1.1]
    exact .there old h.1.1 h.1.2
  · rw [put_of_notMem hk]
    exact .new hk

theorem Sets.nodup (h : Sets k v fs fs') (hfs : (fs.map (·.1)).Nodup) :
    (fs'.map (·.1)).Nodup := by
  cases h with
  | there old hbefore hafter =>
    rw [List.map_append, List.map_cons] at hfs ⊢
    exact hfs
  | new hk =>
    rw [List.map_append]
    exact hfs.append (List.nodup_singleton _) (by simpa using hk)

theorem Sets.forall {P : Json → Prop} (h : Sets k v fs fs') (hv : P v) (hfs : ∀ f ∈ fs, P f.2) :
    ∀ f ∈ fs', P f.2 := by
  cases h with
  | there old hbefore hafter =>
    rw [List.forall_mem_append, List.forall_mem_cons] at hfs ⊢
    exact ⟨hfs.1, hv, hfs.2.2⟩
  | new hk =>
    rw [List.forall_mem_append]
    exact ⟨hfs, List.forall_mem_singleton.2 hv⟩

/-- a field that has the value already -/
theorem put_of_get? (h : get? k fs = some v) : put k v fs = fs := by
  induction fs with
  | nil => cases h
  | cons f fs ih =>
    obtain ⟨k', v'⟩ := f
    rw [get?] at h
    rw [put]
    split
    · next hk =>
      rw [if_pos hk] at h
      rw [Option.some.inj h]
    · next hk =>
      rw [if_neg hk] at h
      rw [ih h]

theorem mem_of_get? (h : get? k fs = some v) : (k, v) ∈ fs := by
  induction fs with
  | nil => cases h
  | cons f fs ih =>
    obtain ⟨k', v'⟩ := f
    rw [get?] at h
    split at h
    · next hk => rw [hk, Option.some.inj h]; exact List.mem_cons_self
    · exact List.mem_cons_of_mem _ (ih h)

/-- where no key is twice -/
theorem get?_eq_some_iff_mem (hkeys : (fs.map (·.1)).Nodup) :
    get? k fs = some v ↔ (k, v) ∈ fs := by
  refine ⟨mem_of_get?, fun h => ?_⟩
  induction fs with
  | nil => cases h
  | cons f fs ih =>
    obtain ⟨k', v'⟩ := f
    obtain ⟨hnew, hkeys⟩ := List.nodup_cons.1 hkeys
    rw [get?]
    rcases List.mem_cons.1 h with heq | h
    · cases heq
      rw [if_pos rfl]
    · rw [if_neg, ih hkeys h]
      rintro rfl
      exact hnew (List.mem_map_of_mem (f := (·.1)) h)

end

/-! ## no key twice -/

/-- no object has a key twice -/
inductive Distinct : Json → Prop where
  | null : Distinct .null
  | bool (b : Bool) : Distinct (.bool b)
  | int (i : Int) : Distinct (.int i)
  | float (x : Binary64) : Distinct (.float x)
  | str (s : Units) : Distinct (.str s)
  | arr {vs : List Json} (items : ∀ v ∈ vs, Distinct v) : Distinct (.arr vs)
  | obj {fs : Fields} (keys : (fs.map (·.1)).Nodup) (values : ∀ f ∈ fs, Distinct f.2) :
      Distinct (.obj fs)

section
variable {fs : Fields}

theorem Distinct.nodup (h : Distinct (.obj fs)) : (fs.map (·.1)).Nodup := by
  cases h with
  | obj keys values => exact keys

theorem Distinct.values (h : Distinct (.obj fs)) : ∀ f ∈ fs, Distinct f.2 := by
  cases h with
  | obj keys values => exact values

theorem Distinct.sets {k : Units} {v : Json} {fs' : Fields} (h : Distinct (.obj fs))
    (hv : Distinct v) (hs : Sets k v fs fs') : Distinct (.obj fs') :=
  .obj (hs.nodup h.nodup) (hs.forall hv h.values)

theorem distinct_nil : Distinct (.obj []) :=
  .obj List.nodup_nil fun _ hf => absurd hf List.not_mem_nil

/-- fields put one after the other -/
theorem distinct_object (h : ∀ f ∈ fs, Distinct f.2) : Distinct (object fs) := by
  have hfold (kept : Fields) (hkept : Distinct (.obj kept)) :
      Distinct (.obj (fs.foldl (fun fs f => put f.1 f.2 fs) kept)) := by
    induction fs generalizing kept with
    | nil => exact hkept
    | cons f fs ih =>
      obtain ⟨hf, hfs⟩ := List.forall_mem_cons.1 h
      exact ih hfs _ (hkept.sets hf (sets_put hkept.nodup _ _))
  exact hfold [] distinct_nil

end

section
variable {t r : Text} {v : Json}

theorem distinct_readMagnitude? {negative : Bool} (h : readMagnitude? negative t = some (v, r)) :
    Distinct v := by
  obtain ⟨⟨whole, rest⟩, -, h⟩ := Option.map_eq_some_iff.1 h
  dsimp only at h
  split at h
  · cases h
    exact .int _
  · cases h
    exact .float _

theorem distinct_readNumber? (h : readNumber? t = some (v, r)) : Distinct v := by
  unfold readNumber? at h
  split at h
  · split at h
    · cases h
      exact .float _
    · exact distinct_readMagnitude? h
  · split at h
    · cases h
      exact .float _
    · cases h
      exact .float _
    · exact distinct_readMagnitude? h

end

/-- no object has a key twice; the fields are those of an object that is still read -/
def Part.Distinct : Part → Prop
  | .value v => Json.Distinct v
  | .items vs => ∀ v ∈ vs, Json.Distinct v
  | .fields fs => ∀ f ∈ fs, Json.Distinct f.2

theorem Derives.distinct {t r : Text} {p : Part} (h : Derives t p r) : p.Distinct := by
  induction h with
  | null => exact .null
  | yes => exact .bool true
  | no => exact .bool false
  | str => exact .str _
  | number h => exact distinct_readNumber? h
  | noItems => exact .arr fun v hv => absurd hv List.not_mem_nil
  | arr _ ih => exact .arr ih
  | noFields => exact distinct_nil
  | obj _ ih => exact distinct_object ih
  | lastItem _ _ ih => exact List.forall_mem_singleton.2 ih
  | item _ _ _ ihv ihvs => exact List.forall_mem_cons.2 ⟨ihv, ihvs⟩
  | lastField _ _ _ _ ih => exact List.forall_mem_singleton.2 ih
  | field _ _ _ _ _ ihv ihfs => exact List.forall_mem_cons.2 ⟨ihv, ihfs⟩

/-- **No object that is read has a key twice.** -/
theorem distinct_of_read? {t : Text} {v : Json} (h : read? t = some v) : Distinct v := by
  obtain ⟨r, hv, -⟩ := read?_eq_some_iff.1 h
  exact hv.distinct

/-! ## written and read again -/

/-- no number with a point or an exponent; the numbers without digits have neither -/
inductive Whole : Json → Prop where
  | null : Whole .null
  | bool (b : Bool) : Whole (.bool b)
  | int (i : Int) : Whole (.int i)
  | infinity (negative : Bool) : Whole (.float (.infinity negative))
  | nan : Whole (.float .nan)
  | str (s : Units) : Whole (.str s)
  | arr {vs : List Json} (items : ∀ v ∈ vs, Whole v) : Whole (.arr vs)
  | obj {fs : Fields} (values : ∀ f ∈ fs, Whole f.2) : Whole (.obj fs)

theorem Whole.values {fs : Fields} (h : Whole (.obj fs)) : ∀ f ∈ fs, Whole f.2 := by
  cases h with
  | obj values => exact values

theorem whole_nil : Whole (.obj []) := .obj fun _ hf => absurd hf List.not_mem_nil

section
variable (l : Layout)

theorem readsBack_nan : ReadsBack l (.float .nan) :=
  readsBack_of_derives fun _ _ _ => .number rfl

theorem readsBack_infinity (negative : Bool) : ReadsBack l (.float (.infinity negative)) :=
  readsBack_of_derives fun _ _ _ => by cases negative <;> exact .number rfl

end

/-- a value that has been read, if its numbers are whole -/
theorem Whole.readsBack {v : Json} (h : Whole v) (hd : Distinct v) (l : Layout) :
    ReadsBack l v := by
  induction h with
  | null => exact readsBack_null l
  | bool b => exact readsBack_bool l b
  | int i => exact readsBack_int l i
  | infinity negative => exact readsBack_infinity l negative
  | nan => exact readsBack_nan l
  | str s => exact readsBack_str l s
  | arr _ ih =>
    cases hd with
    | arr items => exact readsBack_arr fun v hv => ih v hv (items v hv)
  | obj _ ih => exact readsBack_obj hd.nodup fun f hf => ih f hf (hd.values f hf)

end Dictation.Json
