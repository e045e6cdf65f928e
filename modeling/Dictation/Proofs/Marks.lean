import Dictation.Document
import Mathlib.Algebra.Ring.Parity
import Mathlib.Data.List.DropRight

/-!
# Text and marks of a document

Each operation works on the text of a document or on its marks, or on neither, and it looks only at
what it works on.  So the text is what the operations on texts make of it, and the marks are what
formatting makes of them, whatever else is done in between.  The marks are as independent of each
other: a style is what its last make or unmake has left, and each toggle after that turns it over.

* `Operation.isEdit`           works on the text;
* `Document.view_applyAll`     a part of a document, after the operations for it alone;
* `Style.setBy?`               what an operation sets a style to, whatever it was;
* `Style.settled`, `Style.sinceSet`   a style at its last make or unmake, and the operations after
                               that; `Document.has_applyAll` is what the two say of the end;
* `Document.applyAll_apart`    text, marks and the styles one by one.
-/

namespace Dictation

/-- works on the text, and not on the marks or on a history -/
def Operation.isEdit : Operation → Bool
  | .format _ _ => false
  | .undo => false
  | .redo => false
  | _ => true

namespace Document

/-! ## two parts -/

section
variable {α : Type} (view : Document → α) (keep : Operation → Bool)

/-- **A part of a document.**  If the operations that are kept look at nothing else of the document,
and the other ones leave the part alone, it ends the same without the other ones. -/
theorem view_applyAll
    (hsees : ∀ d e op, view d = view e → view (d.apply op) = view (e.apply op))
    (hleaves : ∀ d op, keep op = false → view (d.apply op) = view d)
    (ops : List Operation) (d e : Document) (h : view d = view e) :
    view (d.applyAll (ops.filter keep)) = view (e.applyAll ops) := by
  -- the two runs agree on the part all the way, though not on the rest of the document
  induction ops generalizing d e with
  | nil => exact h
  | cons op ops ih =>
    by_cases hk : keep op = true
    · rw [List.filter_cons_of_pos hk]
      show view ((d.apply op).applyAll (ops.filter keep)) = view ((e.apply op).applyAll ops)
      exact ih _ _ (hsees d e op h)
    · rw [List.filter_cons_of_neg hk]
      show view (d.applyAll (ops.filter keep)) = view ((e.apply op).applyAll ops)
      apply ih
      rw [h, hleaves e op (Bool.eq_false_iff.2 hk)]

end

theorem text_apply_congr (d e : Document) (op : Operation) (h : d.text = e.text) :
    (d.apply op).text = (e.apply op).text := by
  cases op <;> simp [apply, h]

theorem marks_apply_congr (d e : Document) (op : Operation) (h : d.marks = e.marks) :
    (d.apply op).marks = (e.apply op).marks := by
  cases op <;> simp [apply, h]

theorem text_apply_of_not_edit (d : Document) (op : Operation) (h : op.isEdit = false) :
    (d.apply op).text = d.text := by
  cases op <;> first | rfl | cases h

theorem marks_apply_of_not_format (d : Document) (op : Operation) (h : op.isFormat = false) :
    (d.apply op).marks = d.marks := by
  cases op <;> first | rfl | cases h

end Document

/-! ## one style -/

theorem xor_iff_left {p q : Prop} (h : ¬ q) : Xor p q ↔ p := by
  rw [xor_def, eq_false h]
  simp

namespace Style

/-- what an operation sets a style to, whatever it was before -/
def setBy? (s : Style) : Operation → Option Bool
  | .format s' .make => if s' = s then some true else none
  | .format s' .unmake => if s' = s then some false else none
  | _ => none

/-- a style after its last make or unmake; `on` if there is none -/
def settled (s : Style) (on : Bool) (ops : List Operation) : Bool :=
  (ops.filterMap s.setBy?).getLast?.getD on

/-- the operations after the last make or unmake of a style -/
def sinceSet (s : Style) (ops : List Operation) : List Operation :=
  ops.rtakeWhile fun op => (s.setBy? op).isNone

section
variable (s : Style) (on : Bool) (ops : List Operation)

theorem settled_nil : s.settled on [] = on := rfl
theorem sinceSet_nil : s.sinceSet [] = [] := rfl

theorem settled_concat (op : Operation) :
    s.settled on (ops ++ [op]) = (s.setBy? op).getD (s.settled on ops) := by
  unfold settled
  rw [List.filterMap_append]
  cases h : s.setBy? op with
  | none => simp [h]
  | some b => simp [h]

theorem sinceSet_concat (op : Operation) :
    s.sinceSet (ops ++ [op]) = if (s.setBy? op).isNone then s.sinceSet ops ++ [op] else [] :=
  List.rtakeWhile_concat ..

end
end Style

namespace Document

/-- what one operation does to a style -/
theorem has_apply (d : Document) (op : Operation) (s : Style) :
    (d.apply op).marks.has s =
      (s.setBy? op).getD (if op = .format s .toggle then !d.marks.has s else d.marks.has s) := by
  cases op with
  | format s' a =>
    show (d.marks.apply s' a).has s = _
    by_cases h : s = s'
    · subst h
      cases a <;> simp [Marks.apply, Marks.has_set, Style.setBy?]
    · cases a <;> simp [Marks.apply, Marks.has_set, Style.setBy?, h, Ne.symm h]
  | _ => rfl

/-- **A style at the end.** -/
theorem has_applyAll (d : Document) (ops : List Operation) (s : Style) :
    (d.applyAll ops).marks.has s = true ↔
      Xor (s.settled (d.marks.has s) ops = true)
        (Odd ((s.sinceSet ops).count (.format s .toggle))) := by
  -- from the right: the last operation sets the style, or turns it over, or leaves it
  induction ops using List.reverseRecOn with
  | nil =>
    show d.marks.has s = true ↔ Xor (d.marks.has s = true) (Odd 0)
    rw [xor_iff_left Nat.not_odd_zero]
  | append_singleton ops op ih =>
    rw [applyAll_append]
    show ((d.applyAll ops).apply op).marks.has s = true ↔ _
    rw [has_apply, Style.settled_concat, Style.sinceSet_concat]
    cases hset : s.setBy? op with
    | some b =>
      show b = true ↔ Xor (b = true) (Odd 0)
      rw [xor_iff_left Nat.not_odd_zero]
    | none =>
      simp only [Option.getD_none, Option.isNone_none, ite_true]
      by_cases htoggle : op = .format s .toggle
      · rw [if_pos htoggle, htoggle, List.count_append, List.count_singleton_self,
          Nat.odd_add_one, xor_not_right, Bool.not_eq_true', ← Bool.not_eq_true, ih, not_xor]
      · have hzero : [op].count (.format s .toggle) = 0 :=
          List.count_eq_zero_of_not_mem fun h => htoggle (List.mem_singleton.1 h).symm
        rw [if_neg htoggle, List.count_append, hzero, Nat.add_zero]
        exact ih

/-- **Text and marks do not meet.**  The text is the same without formatting, undo and redo, and the
marks are the same without everything but formatting.  Each style for itself is as its last make or
unmake has left it, or as it was if there is none, and turned over if an odd number of toggles of it
come after that. -/
theorem applyAll_apart (d : Document) (ops : List Operation) :
    (d.applyAll (ops.filter Operation.isEdit)).text = (d.applyAll ops).text ∧
      (d.applyAll (ops.filter Operation.isFormat)).marks = (d.applyAll ops).marks ∧
      ∀ s : Style, (d.applyAll ops).marks.has s = true ↔
        Xor (s.settled (d.marks.has s) ops = true)
          (Odd ((s.sinceSet ops).count (.format s .toggle))) := by
  refine ⟨?_, ?_, has_applyAll d ops⟩
  · exact view_applyAll text _ text_apply_congr text_apply_of_not_edit ops d d rfl
  · exact view_applyAll marks _ marks_apply_congr marks_apply_of_not_format ops d d rfl

end Document
end Dictation
