import Dictation.Proofs.Validation
import Dictation.Proofs.WordSpacing

/-!
# The triggers of a context in normal form

Whatever texts are asked for as triggers, the record is read, and its triggers are the texts asked
for that are not blank, with single spaces, in their order, the first one of each lower case.  If
there are none, they are the default ones.  A record with the triggers that were made is read as the
same context.

* `Context.SingleSpaced`              words with single spaces between them;
* `Context.usableTriggers_eq`         the kept triggers without the loop;
* `Context.Clean.usableTriggers_eq`   clean triggers are kept as they are;
* `Context.triggers_normal`           whole records.
-/

namespace Dictation
namespace Context

/-- one or more words with single spaces between them and nothing else -/
def SingleSpaced (t : Text) : Prop :=
  ∃ ws, ws ≠ [] ∧ (∀ w ∈ ws, Text.IsWord w) ∧ t = Text.joinWith [' '] ws

def sameLower (s t : Text) : Bool := s.lower == t.lower

section
variable {t : Text} {ts kept : List Text}

/-! ## one trigger -/

theorem Usable.singleSpaced (h : Usable t) : SingleSpaced t :=
  ⟨t.words, h.words_ne_nil, fun _ => Text.isWord_of_mem_words, h.2.symm⟩

theorem Usable.trim (h : Usable t) : t.trim = t := by
  have hsolid := Text.endsSolid_of_usable h
  rw [Text.trim, Text.trimLeft_of_flush (Text.flush_of_usable h)]
  rcases List.eq_nil_or_concat' t with rfl | ⟨r, c, rfl⟩
  · rfl
  · exact Text.dropEndWhile_append_cons (Text.endsSolid_concat.1 hsolid) r []

theorem squeeze_eq_nil_iff (t : Text) : t.squeeze = [] ↔ t.allBlank = true := by
  rw [← Text.words_eq_nil_iff]
  refine ⟨fun h => ?_, fun h => by rw [Text.squeeze, h]; rfl⟩
  rw [← Text.words_squeeze, h, Text.words_nil]

/-! ## the triggers kept -/

theorem keepNew_of_blank (kept : List Text) (h : t.allBlank = true) : keepNew kept t = kept := by
  rw [keepNew, (squeeze_eq_nil_iff t).2 h]
  rfl

theorem keepNew_of_not_blank (kept : List Text) (h : t.allBlank = false) :
    keepNew kept t =
      if kept.any (sameLower · t.squeeze) then kept else kept ++ [t.squeeze] := by
  have hne : t.squeeze.isEmpty = false := by
    rw [List.isEmpty_eq_false_iff, ne_eq, squeeze_eq_nil_iff, h]
    exact Bool.false_ne_true
  rw [keepNew, hne, Bool.false_or]
  rfl

/-- what a list asks for: its texts that are not blank, with single spaces -/
def asksFor (asked : List Text) : List Text :=
  (asked.filter fun t => !t.allBlank).map Text.squeeze

theorem asksFor_cons_of_blank (h : t.allBlank = true) (asked : List Text) :
    asksFor (t :: asked) = asksFor asked := by
  rw [asksFor, List.filter_cons_of_neg (by rw [h]; decide), asksFor]

theorem asksFor_cons_of_not_blank (h : t.allBlank = false) (asked : List Text) :
    asksFor (t :: asked) = t.squeeze :: asksFor asked := by
  rw [asksFor, List.filter_cons_of_pos (by rw [h]; rfl), List.map_cons, asksFor]

theorem asksFor_eq_nil_iff (asked : List Text) :
    asksFor asked = [] ↔ asked.all Text.allBlank = true := by
  rw [asksFor, List.map_eq_nil_iff, List.filter_eq_nil_iff, List.all_eq_true]
  simp

/-- **The triggers kept, without the loop.**  Those that are asked for, the first one of each lower
case. -/
theorem usableTriggers_eq (asked : List Text) :
    usableTriggers asked = (asksFor asked).eraseDupsBy sameLower := by
  -- what the loop still adds is new to what it has kept
  have hfold (asked kept : List Text) : asked.foldl keepNew kept = kept ++
      ((asksFor asked).filter fun t => !kept.any (sameLower · t)).eraseDupsBy sameLower := by
    induction asked generalizing kept with
    | nil => simp [asksFor]
    | cons t asked ih =>
      rw [List.foldl_cons, ih]
      cases hblank : t.allBlank with
      | true => rw [keepNew_of_blank kept hblank, asksFor_cons_of_blank hblank]
      | false =>
        rw [keepNew_of_not_blank kept hblank, asksFor_cons_of_not_blank hblank]
        cases hany : kept.any (sameLower · t.squeeze) with
        | true => rw [if_pos rfl, List.filter_cons_of_neg (by rw [hany]; decide)]
        | false =>
          rw [if_neg Bool.false_ne_true, List.filter_cons_of_pos (by rw [hany]; rfl),
            List.eraseDupsBy_cons, List.filter_filter, List.append_assoc, List.singleton_append]
          congr 3
          refine List.filter_congr fun u _ => ?_
          have hsym : sameLower u t.squeeze = sameLower t.squeeze u := Bool.beq_comm
          rw [List.any_append, List.any_cons, List.any_nil, Bool.or_false, Bool.not_or,
            Bool.and_comm, hsym]
          cases sameLower t.squeeze u <;> rfl
  rw [usableTriggers, hfold]
  simp

/-- clean triggers are kept as they are -/
theorem Clean.usableTriggers_eq (h : Clean ts) : usableTriggers ts = ts := by
  have hfold (ts kept : List Text) (h : Clean (kept ++ ts)) :
      ts.foldl keepNew kept = kept ++ ts := by
    induction ts generalizing kept with
    | nil => rw [List.append_nil]; rfl
    | cons t ts ih =>
      have ht := h.usable t (by simp)
      have hblank : t.allBlank = false := by
        rw [Bool.eq_false_iff, ne_eq, ← squeeze_eq_nil_iff, ht.2]
        exact ht.1
      have hnew : kept.any (sameLower · t) = false := by
        rw [List.any_eq_false]
        intro s hs heq
        exact (List.pairwise_append.1 h.distinct).2.2 s hs t List.mem_cons_self (beq_iff_eq.1 heq)
      have hsplit : kept ++ t :: ts = (kept ++ [t]) ++ ts := by simp
      rw [List.foldl_cons, keepNew_of_not_blank kept hblank, ht.2, hnew,
        if_neg Bool.false_ne_true, hsplit, ih _ (hsplit ▸ h)]
  exact hfold ts [] h

theorem triggersFrom_eq (asked : List Text) :
    triggersFrom asked = if asked.all Text.allBlank then defaultTriggers
      else (asksFor asked).eraseDupsBy sameLower := by
  have hempty : (usableTriggers asked).isEmpty = asked.all Text.allBlank := by
    rw [Bool.eq_iff_iff, List.isEmpty_iff, ← asksFor_eq_nil_iff, usableTriggers_eq]
    cases asksFor asked with
    | nil => simp
    | cons t ts => simp [List.eraseDupsBy_cons]
  rw [triggersFrom, hempty, usableTriggers_eq]

/-- asked for again, the triggers are the same -/
theorem triggersFrom_triggersFrom (asked : List Text) :
    triggersFrom (triggersFrom asked) = triggersFrom asked := by
  have hkept := (clean_triggersFrom asked).usableTriggers_eq
  have hne := triggersFrom_ne_nil asked
  generalize triggersFrom asked = ts at hkept hne
  rw [triggersFrom, hkept, if_neg (by simpa using hne)]

end

/-! ## whole records -/

/-- a record of texts is read with its triggers cleaned -/
theorem context_toJson (ctx : Context) :
    Schema.context ctx.toJson = .ok { ctx with triggers := triggersFrom ctx.triggers } := by
  obtain ⟨locale, asked, cleanup⟩ := ctx
  have htexts : Schema.listOf Schema.text (.arr (asked.map .ofText)) = .ok asked :=
    Schema.listOf_map Schema.text_ofText asked
  refine Checked.both_of_ok (f := fun l (p : List Text × Bool) => Context.mk l p.1 p.2) ?_
    (Checked.both_of_ok ?_ ?_)
  · exact Schema.withDefault_of_lookup rfl (Schema.text_ofText locale)
  · exact Schema.withDefault_of_lookup rfl (by rw [Schema.triggers, htexts]; rfl)
  · exact Schema.withDefault_of_lookup (v := .bool cleanup) rfl rfl

/-- **Triggers are in normal form.**  Whatever texts are asked for, the record is read.  It has a
trigger; each one is words with single spaces between them; no two have the same lower case; they
are the texts asked for that are not blank, with single spaces, in their order, the first one of
each lower case, or the default ones if all are blank.  The record with these triggers is read as
the same context. -/
theorem triggers_normal (locale : Text) (asked : List Text) (cleanup : Bool) :
    ∃ ts, Schema.context (Context.mk locale asked cleanup).toJson = .ok ⟨locale, ts, cleanup⟩ ∧
      ts ≠ [] ∧
      (∀ t ∈ ts, t ≠ [] ∧ t.trim = t ∧ SingleSpaced t) ∧
      ts.Pairwise (fun s t => s.lower ≠ t.lower) ∧
      ts = (if asked.all Text.allBlank then defaultTriggers
        else (asksFor asked).eraseDupsBy sameLower) ∧
      Schema.context (Context.mk locale ts cleanup).toJson = .ok ⟨locale, ts, cleanup⟩ := by
  have hclean := clean_triggersFrom asked
  refine ⟨triggersFrom asked, context_toJson _, triggersFrom_ne_nil asked, fun t ht => ?_,
    hclean.distinct, triggersFrom_eq asked, ?_⟩
  · have husable := hclean.usable t ht
    exact ⟨husable.1, husable.trim, husable.singleSpaced⟩
  · rw [context_toJson, triggersFrom_triggersFrom]

/-- of two triggers with the same lower case the first one is kept -/
example : triggersFrom ["Alpha  beta".toList, " ".toList, "alpha Beta".toList, "gamma".toList] =
    ["Alpha beta".toList, "gamma".toList] := by
  decide

end Context
end Dictation
