import Dictation.Proofs.Json.RoundTrip
import Dictation.Proofs.Text.Ascii

/-!
# Values in ASCII

A layout that is to be ASCII writes ASCII characters alone, whatever characters the strings of a
value have.

* `ascii_hexDigits`          the digits of an escape;
* `ascii_writeString`        a string;
* `Exact.ascii_writeAt`      a value, by induction on it.
-/

namespace Dictation

namespace Text

section
variable {c : Char} {s t : Text}

theorem ascii_append : Ascii (s ++ t) ↔ Ascii s ∧ Ascii t := List.forall_mem_append
theorem ascii_cons : Ascii (c :: t) ↔ c.toNat < 128 ∧ Ascii t := List.forall_mem_cons
theorem ascii_nil : Ascii [] := fun _ hc => absurd hc List.not_mem_nil

end
end Text

open Text

theorem ascii_hexDigit : ∀ n < 16, (hexDigit n).toNat < 128 := by decide

theorem ascii_hexDigits (width n : Nat) : Ascii (hexDigits width n) := by
  induction width generalizing n with
  | zero => exact ascii_nil
  | succ width ih =>
    rw [hexDigits, ascii_append, ascii_cons]
    exact ⟨ih _, ascii_hexDigit _ (Nat.mod_lt _ (by decide)), ascii_nil⟩

theorem Decimal.ascii_digits (n : Nat) : Ascii (digits n) := by
  intro c hc
  have h := isDigit_of_mem_digits hc
  rw [isDigit, Bool.and_eq_true, decide_eq_true_iff, decide_eq_true_iff] at h
  omega

namespace Json

/-! ## strings -/

theorem ascii_escapeUnit (u : UInt16) : Ascii (escapeUnit u) := by
  rw [escapeUnit, ascii_cons, ascii_cons]
  exact ⟨by decide, by decide, ascii_hexDigits _ _⟩

theorem ascii_of_shortEscape? {c e : Char} (h : shortEscape? c = some e) : e.toNat < 128 := by
  have he : e ∈ ['"', '\\', 'b', 'f', 'n', 'r', 't'] := by
    unfold shortEscape? at h
    grind
  have hall : ['"', '\\', 'b', 'f', 'n', 'r', 't'].all (·.toNat < 128) = true := by decide
  exact of_decide_eq_true (List.all_eq_true.1 hall e he)

theorem ascii_writeChar (c : Char) : Ascii (writeChar true c) := by
  rw [writeChar]
  cases h : shortEscape? c with
  | some e =>
    rw [ascii_cons, ascii_cons]
    exact ⟨by decide, ascii_of_shortEscape? h, ascii_nil⟩
  | none =>
    dsimp only
    split
    · next hplain =>
      rw [isPlain, Bool.and_eq_true, Bool.not_true, Bool.false_or, decide_eq_true_iff,
        decide_eq_true_iff] at hplain
      rw [ascii_cons]
      exact ⟨by omega, ascii_nil⟩
    · exact List.forall_mem_flatMap.2 fun u _ => ascii_escapeUnit u

theorem ascii_writeSymbol (s : Symbol) : Ascii (writeSymbol true s) := by
  cases s with
  | char c => exact ascii_writeChar c
  | lone u => exact ascii_escapeUnit u

theorem ascii_writeString (s : Units) : Ascii (writeString true s) := by
  rw [writeString, List.cons_append, ascii_cons, ascii_append]
  exact ⟨by decide, List.forall_mem_flatMap.2 fun s _ => ascii_writeSymbol s, by decide⟩

/-! ## values -/

section
variable (l : Layout) (depth : Nat)

theorem ascii_newline : Ascii (l.newline depth) := by
  unfold Layout.newline
  split
  · rw [ascii_cons]
    exact ⟨by decide, fun c hc => by rw [(List.mem_replicate.1 hc).2]; decide⟩
  · exact ascii_nil

theorem ascii_comma : Ascii l.comma := by
  unfold Layout.comma
  split
  · decide
  · decide

theorem ascii_colon : Ascii l.colon := by
  unfold Layout.colon
  split
  · decide
  · decide

end

theorem ascii_writeItems {l : Layout} {depth : Nat} {vs : List Json}
    (h : ∀ v ∈ vs, Ascii (writeAt l depth v)) : Ascii (writeItems l depth vs) := by
  induction vs with
  | nil => exact ascii_nil
  | cons v vs ih =>
    obtain ⟨hv, hvs⟩ := List.forall_mem_cons.1 h
    rw [writeItems, ascii_append, ascii_append, ascii_append]
    exact ⟨⟨⟨ascii_comma l, ascii_newline l depth⟩, hv⟩, ih hvs⟩

section
variable {l : Layout} (hascii : l.ascii = true)
include hascii

theorem ascii_fieldText {depth : Nat} {f : Units × Json} (h : Ascii (writeAt l depth f.2)) :
    Ascii (fieldText l depth f) := by
  rw [fieldText, hascii, ascii_append, ascii_append]
  exact ⟨ascii_writeString _, ascii_colon l, h⟩

theorem ascii_writeFields {depth : Nat} {fs : Fields}
    (h : ∀ f ∈ fs, Ascii (writeAt l depth f.2)) : Ascii (writeFields l depth fs) := by
  induction fs with
  | nil => exact ascii_nil
  | cons f fs ih =>
    obtain ⟨hf, hfs⟩ := List.forall_mem_cons.1 h
    rw [writeFields_cons, ascii_append, ascii_append, ascii_append]
    exact ⟨⟨ascii_comma l, ascii_newline l depth⟩, ascii_fieldText hascii hf, ih hfs⟩

theorem Exact.ascii_writeAt {v : Json} (h : Exact v) (depth : Nat) : Ascii (writeAt l depth v) := by
  induction h generalizing depth with
  | null =>
    rw [writeAt]
    decide
  | bool b =>
    cases b with
    | false =>
      rw [writeAt]
      decide
    | true =>
      rw [writeAt]
      decide
  | int i =>
    rw [writeAt, Decimal.ofInt]
    split
    · rw [ascii_cons]
      exact ⟨by decide, Decimal.ascii_digits _⟩
    · exact Decimal.ascii_digits _
  | str s =>
    rw [writeAt, hascii]
    exact ascii_writeString s
  | @arr vs _ ih =>
    cases vs with
    | nil =>
      rw [writeAt]
      decide
    | cons v vs =>
      obtain ⟨hv, hvs⟩ := List.forall_mem_cons.1 ih
      have hitems := ascii_writeItems fun w hw => hvs w hw (depth + 1)
      simp only [writeAt, List.cons_append, ascii_append, ascii_cons]
      exact ⟨by decide, ⟨⟨⟨ascii_newline l _, hv _⟩, hitems⟩, ascii_newline l _⟩, by decide⟩
  | @obj fs _ _ ih =>
    cases fs with
    | nil =>
      rw [writeAt]
      decide
    | cons f fs =>
      obtain ⟨hf, hfs⟩ := List.forall_mem_cons.1 ih
      have hfield := ascii_fieldText hascii (hf (depth + 1))
      have hfields := ascii_writeFields hascii fun g hg => hfs g hg (depth + 1)
      rw [writeAt_obj_cons]
      simp only [ascii_append, ascii_cons]
      exact ⟨by decide, ascii_newline l _, hfield, hfields, ascii_newline l _, by decide, ascii_nil⟩

end
end Json
end Dictation
