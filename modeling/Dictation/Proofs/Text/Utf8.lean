import Dictation.Text.Utf8

/-!
# Text as bytes and back

The UTF-8 of a text is read as the text.

* `Utf8.following_two`, `Utf8.following_three`, `Utf8.following_four`   what a first byte announces;
* `Utf8.next_encodeChar`   one character;
* `Utf8.decode_encode`     a whole text;
* `Utf8.toList_toUTF8`     the bytes that are written out are these.
-/

namespace Dictation.Utf8

def encode (t : Text) : List UInt8 := t.flatMap String.utf8EncodeChar

/-! ## first bytes -/

section
variable {b c : Nat}

theorem following_two (h : 0xc2 ≤ b) (h' : b < 0xe0) : following b = some (1, 0x80, 0xbf) := by
  rw [following, if_neg (by omega), if_neg (by omega), if_pos h']

/-- the second byte of three: neither an overlong form nor a surrogate -/
theorem following_three (h : 0xe0 ≤ b) (h' : b < 0xf0) (hc : 0x80 ≤ c) (hc' : c ≤ 0xbf)
    (hlow : b = 0xe0 → 0xa0 ≤ c) (hsurrogate : b = 0xed → c ≤ 0x9f) :
    ∃ lo hi, following b = some (2, lo, hi) ∧ lo ≤ c ∧ c ≤ hi := by
  by_cases h0 : b = 0xe0
  · exact ⟨0xa0, 0xbf, by rw [h0]; rfl, hlow h0, hc'⟩
  · by_cases hd : b = 0xed
    · exact ⟨0x80, 0x9f, by rw [hd]; rfl, hc, hsurrogate hd⟩
    · refine ⟨0x80, 0xbf, ?_, hc, hc'⟩
      rw [following, if_neg (by omega), if_neg (by omega), if_neg (by omega),
        if_neg (by rwa [beq_iff_eq]), if_neg (by rwa [beq_iff_eq]), if_pos h']

/-- the second byte of four: neither an overlong form nor beyond the last character -/
theorem following_four (h : 0xf0 ≤ b) (h' : b ≤ 0xf4) (hc : 0x80 ≤ c) (hc' : c ≤ 0xbf)
    (hlow : b = 0xf0 → 0x90 ≤ c) (hlast : b = 0xf4 → c ≤ 0x8f) :
    ∃ lo hi, following b = some (3, lo, hi) ∧ lo ≤ c ∧ c ≤ hi := by
  by_cases h0 : b = 0xf0
  · exact ⟨0x90, 0xbf, by rw [h0]; rfl, hlow h0, hc'⟩
  · by_cases h4 : b = 0xf4
    · exact ⟨0x80, 0x8f, by rw [h4]; rfl, hc, hlast h4⟩
    · obtain rfl | rfl | rfl : b = 0xf1 ∨ b = 0xf2 ∨ b = 0xf3 := by omega
      all_goals exact ⟨0x80, 0xbf, rfl, hc, hc'⟩

end

/-! ## one character -/

section
variable {b c : UInt8} {r : List UInt8}

theorem finish_cons {value used more : Nat} (h : 0x80 ≤ b.toNat) (h' : b.toNat < 0xc0) :
    finish value used (more + 1) (b :: r)
      = finish (value * 0x40 + (b.toNat - 0x80)) (used + 1) more r := by
  rw [finish, isContinuation, decide_eq_true h, decide_eq_true h']
  rfl

theorem next_cons {more lo hi : Nat} (h : following b.toNat = some (more + 1, lo, hi))
    (hlo : lo ≤ c.toNat) (hhi : c.toNat ≤ hi) :
    next b (c :: r) = finish (payload b.toNat (more + 1) * 0x40 + (c.toNat - 0x80)) 1 more r := by
  rw [next, h]
  dsimp only
  rw [decide_eq_true hlo, decide_eq_true hhi]
  rfl

end

theorem payload_one (b : Nat) : payload b (0 + 1) = b - 0xc0 := rfl
theorem payload_two (b : Nat) : payload b (1 + 1) = b - 0xe0 := rfl
theorem payload_three (b : Nat) : payload b (2 + 1) = b - 0xf0 := rfl

theorem toNat_ofNat {n : Nat} (h : n < 0x100) : (UInt8.ofNat n).toNat = n :=
  UInt8.toNat_ofNat_of_lt' h

section
variable {n : Nat} (r : List UInt8)

theorem next_one (h : n < 0x80) : next (UInt8.ofNat n) r = .char (Char.ofNat n) 0 := by
  rw [next, toNat_ofNat (by omega), following, if_pos h]

theorem next_two (h : 0x80 ≤ n) (h' : n < 0x800) :
    next (UInt8.ofNat (n / 64 % 32 + 192)) (UInt8.ofNat (n % 64 + 128) :: r)
      = .char (Char.ofNat n) 1 := by
  have hfollowing := following_two (b := n / 64 % 32 + 192) (by omega) (by omega)
  have hvalue : (n / 64 % 32 + 192 - 0xc0) * 0x40 + (n % 64 + 128 - 0x80) = n := by omega
  have hb := toNat_ofNat (n := n / 64 % 32 + 192) (by omega)
  have hc := toNat_ofNat (n := n % 64 + 128) (by omega)
  rw [← hb] at hfollowing
  rw [next_cons hfollowing, payload_one, hb, hc, hvalue, finish]
  all_goals
    rw [hc]
    omega

theorem next_three (h : 0x800 ≤ n) (h' : n < 0x10000) (hsurrogate : n < 0xd800 ∨ 0xdfff < n) :
    next (UInt8.ofNat (n / 4096 % 16 + 224))
        (UInt8.ofNat (n / 64 % 64 + 128) :: UInt8.ofNat (n % 64 + 128) :: r)
      = .char (Char.ofNat n) 2 := by
  obtain ⟨lo, hi, hfollowing, hlo, hhi⟩ :=
    following_three (b := n / 4096 % 16 + 224) (c := n / 64 % 64 + 128) (by omega) (by omega)
      (by omega) (by omega) (by omega) (by omega)
  have hvalue : ((n / 4096 % 16 + 224 - 0xe0) * 0x40 + (n / 64 % 64 + 128 - 0x80)) * 0x40
      + (n % 64 + 128 - 0x80) = n := by omega
  have hb := toNat_ofNat (n := n / 4096 % 16 + 224) (by omega)
  have hc := toNat_ofNat (n := n / 64 % 64 + 128) (by omega)
  have hd := toNat_ofNat (n := n % 64 + 128) (by omega)
  rw [← hb] at hfollowing
  rw [next_cons hfollowing (by rwa [hc]) (by rwa [hc]), payload_two, finish_cons, hb, hc, hd, hvalue,
    finish]
  all_goals
    rw [hd]
    omega

theorem next_four (h : 0x10000 ≤ n) (h' : n < 0x110000) :
    next (UInt8.ofNat (n / 262144 % 8 + 240))
        (UInt8.ofNat (n / 4096 % 64 + 128) :: UInt8.ofNat (n / 64 % 64 + 128)
          :: UInt8.ofNat (n % 64 + 128) :: r)
      = .char (Char.ofNat n) 3 := by
  obtain ⟨lo, hi, hfollowing, hlo, hhi⟩ :=
    following_four (b := n / 262144 % 8 + 240) (c := n / 4096 % 64 + 128) (by omega) (by omega)
      (by omega) (by omega) (by omega) (by omega)
  have hvalue : (((n / 262144 % 8 + 240 - 0xf0) * 0x40 + (n / 4096 % 64 + 128 - 0x80)) * 0x40
      + (n / 64 % 64 + 128 - 0x80)) * 0x40 + (n % 64 + 128 - 0x80) = n := by omega
  have hb := toNat_ofNat (n := n / 262144 % 8 + 240) (by omega)
  have hc := toNat_ofNat (n := n / 4096 % 64 + 128) (by omega)
  have hd := toNat_ofNat (n := n / 64 % 64 + 128) (by omega)
  have he := toNat_ofNat (n := n % 64 + 128) (by omega)
  rw [← hb] at hfollowing
  rw [next_cons hfollowing (by rwa [hc]) (by rwa [hc]), payload_three, finish_cons, finish_cons, hb,
    hc, hd, he, hvalue, finish]
  all_goals
    first | rw [hd] | rw [he]
    omega

end

/-- the bytes of a character are read as the character, and no more bytes than these -/
theorem next_encodeChar (c : Char) :
    ∃ b bs, String.utf8EncodeChar c = b :: bs ∧ ∀ r, next b (bs ++ r) = .char c bs.length := by
  have hvalid : c.toNat < 0xd800 ∨ (0xdfff < c.toNat ∧ c.toNat < 0x110000) := c.valid
  have hchar := Char.ofNat_toNat c
  rw [String.utf8EncodeChar, Char.toNat] at *
  generalize c.val.toNat = n at *
  subst hchar
  split
  · next h1 => exact ⟨_, _, rfl, fun r => next_one r (by omega)⟩
  split
  · next h1 h2 => exact ⟨_, _, rfl, fun r => next_two r (by omega) (by omega)⟩
  split
  · next h1 h2 h3 => exact ⟨_, _, rfl, fun r => next_three r (by omega) (by omega) (by omega)⟩
  · next h1 h2 h3 => exact ⟨_, _, rfl, fun r => next_four r (by omega) (by omega)⟩

/-! ## whole texts -/

theorem decodeFrom_skip (position : Nat) (bs r : List UInt8) :
    decodeFrom position bs.length (bs ++ r) = decodeFrom (position + bs.length) 0 r := by
  induction bs generalizing position with
  | nil => rfl
  | cons b bs ih =>
    rw [List.length_cons, List.cons_append, decodeFrom, ih]
    congr 1
    omega

theorem decodeFrom_encode (position : Nat) (t : Text) :
    decodeFrom position 0 (encode t) = .ok t := by
  induction t generalizing position with
  | nil => rfl
  | cons c t ih =>
    obtain ⟨b, bs, hbytes, hnext⟩ := next_encodeChar c
    rw [encode, List.flatMap_cons, hbytes, List.cons_append, decodeFrom, hnext]
    dsimp only
    rw [decodeFrom_skip, ← encode, ih]
    rfl

/-- a text is read from its bytes -/
theorem decode_encode (t : Text) : decode (encode t) = .ok t := decodeFrom_encode 0 t

/-! ## the bytes of a string -/

theorem toList_loop (bytes : ByteArray) (i : Nat) (done : List UInt8) :
    ByteArray.toList.loop bytes i done = done.reverse ++ bytes.data.toList.drop i := by
  induction i, done using ByteArray.toList.loop.induct bytes with
  | case1 i done hi ih =>
    have hlt : i < bytes.data.toList.length := hi
    have hget : bytes.get! i = bytes.data.toList[i] := getElem!_pos bytes.data i hi
    rw [ByteArray.toList.loop, if_pos hi, ih, List.drop_eq_getElem_cons hlt, hget,
      List.reverse_cons, List.append_assoc]
    rfl
  | case2 i done hi =>
    have hle : bytes.data.toList.length ≤ i := Nat.le_of_not_lt hi
    rw [ByteArray.toList.loop, if_neg hi, List.drop_of_length_le hle, List.append_nil]

theorem toList_toUTF8 (t : Text) : (String.ofList t).toUTF8.toList = encode t := by
  rw [String.toUTF8, String.toByteArray_ofList, List.utf8Encode, ByteArray.toList, toList_loop,
    List.data_toByteArray]
  rfl

end Dictation.Utf8
