import Mathlib.Data.List.Basic

/-!
# Lossy UTF-8

`String::from_utf8_lossy`: each maximal part of the bytes that cannot continue to a character
becomes one `U+FFFD`, and decoding goes on behind it.

* `fromUtf8Lossy_append` — decoding what was encoded
* `fromUtf8Lossy_take_encode` — decoding what was encoded and cut
-/

namespace Cpex.Infra.Utf8

/-- `char::REPLACEMENT_CHARACTER`. -/
def replacement : Char := '\uFFFD'

/-- The bytes of the sequence a first byte begins; 0 where none may begin. -/
def width (b : Nat) : Nat :=
  if b < 0x80 then 1
  else if 0xC2 ≤ b ∧ b ≤ 0xDF then 2
  else if 0xE0 ≤ b ∧ b ≤ 0xEF then 3
  else if 0xF0 ≤ b ∧ b ≤ 0xF4 then 4
  else 0

/-- A continuation byte. -/
def isContinuation (b : Nat) : Bool := 0x80 ≤ b && b ≤ 0xBF

/-- A second byte that may follow this first one: no overlong form, no surrogate, no code point
past the last one. -/
def isSecond (first b : Nat) : Bool :=
  isContinuation b && (first != 0xE0 || 0xA0 ≤ b) && (first != 0xED || b ≤ 0x9F) &&
    (first != 0xF0 || 0x90 ≤ b) && (first != 0xF4 || b ≤ 0x8F)

/-- The payload of a continuation byte. -/
def payload (b : UInt8) : Nat := b.toNat - 0x80

/-- `String::from_utf8_lossy`. -/
def fromUtf8Lossy : List UInt8 → List Char
  | [] => []
  | b :: bs =>
    match width b.toNat, bs with
    | 1, bs => Char.ofNat b.toNat :: fromUtf8Lossy bs
    | 2, b₁ :: bs =>
      if isContinuation b₁.toNat then
        Char.ofNat ((b.toNat - 0xC0) * 0x40 + payload b₁) :: fromUtf8Lossy bs
      else replacement :: fromUtf8Lossy (b₁ :: bs)
    | 3, b₁ :: bs =>
      if isSecond b.toNat b₁.toNat then
        match bs with
        | b₂ :: bs =>
          if isContinuation b₂.toNat then
            Char.ofNat (((b.toNat - 0xE0) * 0x40 + payload b₁) * 0x40 + payload b₂) ::
              fromUtf8Lossy bs
          else replacement :: fromUtf8Lossy (b₂ :: bs)
        | [] => [replacement]
      else replacement :: fromUtf8Lossy (b₁ :: bs)
    | 4, b₁ :: bs =>
      if isSecond b.toNat b₁.toNat then
        match bs with
        | b₂ :: bs =>
          if isContinuation b₂.toNat then
            match bs with
            | b₃ :: bs =>
              if isContinuation b₃.toNat then
                Char.ofNat ((((b.toNat - 0xF0) * 0x40 + payload b₁) * 0x40 + payload b₂) * 0x40 +
                  payload b₃) :: fromUtf8Lossy bs
              else replacement :: fromUtf8Lossy (b₃ :: bs)
            | [] => [replacement]
          else replacement :: fromUtf8Lossy (b₂ :: bs)
        | [] => [replacement]
      else replacement :: fromUtf8Lossy (b₁ :: bs)
    | _, bs => replacement :: fromUtf8Lossy bs

example : fromUtf8Lossy [0x68, 0xC3, 0xA9, 0xE2, 0x82, 0xAC, 0xF0, 0x9F, 0x98, 0x80, 0xE2, 0x82,
  0x41, 0xFF] = ['h', 'é', '€', '😀', replacement, 'A', replacement] := by decide

/-! ## Decoding what was encoded -/

/-- The bytes of a text. -/
def encode (cs : List Char) : List UInt8 := cs.flatMap String.utf8EncodeChar

/-- A code point is below the surrogates or above them. -/
theorem toNat_valid (c : Char) :
    c.toNat < 0xD800 ∨ 0xDFFF < c.toNat ∧ c.toNat < 0x110000 := by
  have h := c.valid
  unfold UInt32.isValidChar Nat.isValidChar at h
  exact h

/-- The bytes of one character, by how many they are. -/
inductive Encoded (c : Char) : Prop where
  | one (h : String.utf8EncodeChar c = [UInt8.ofNat c.toNat]) (hc : c.toNat < 0x80)
  | two (i j : Nat)
      (h : String.utf8EncodeChar c = [UInt8.ofNat (i + 0xC0), UInt8.ofNat (j + 0x80)])
      (hi : 2 ≤ i ∧ i < 0x20) (hj : j < 0x40) (hc : i * 0x40 + j = c.toNat)
  | three (i j k : Nat)
      (h : String.utf8EncodeChar c =
        [UInt8.ofNat (i + 0xE0), UInt8.ofNat (j + 0x80), UInt8.ofNat (k + 0x80)])
      (hi : i < 0x10) (hj : j < 0x40) (hk : k < 0x40) (hlow : i = 0 → 0x20 ≤ j)
      (hsurrogate : i = 0xD → j < 0x20) (hc : (i * 0x40 + j) * 0x40 + k = c.toNat)
  | four (i j k l : Nat)
      (h : String.utf8EncodeChar c =
        [UInt8.ofNat (i + 0xF0), UInt8.ofNat (j + 0x80), UInt8.ofNat (k + 0x80),
          UInt8.ofNat (l + 0x80)])
      (hi : i < 5) (hj : j < 0x40) (hk : k < 0x40) (hl : l < 0x40) (hlow : i = 0 → 0x10 ≤ j)
      (hlast : i = 4 → j < 0x10) (hc : ((i * 0x40 + j) * 0x40 + k) * 0x40 + l = c.toNat)

theorem encoded (c : Char) : Encoded c := by
  have hvalid := toNat_valid c
  have henc : String.utf8EncodeChar c =
      if c.toNat ≤ 0x7F then [UInt8.ofNat c.toNat]
      else if c.toNat ≤ 0x7FF then
        [UInt8.ofNat (c.toNat / 64 % 0x20 + 0xC0), UInt8.ofNat (c.toNat % 0x40 + 0x80)]
      else if c.toNat ≤ 0xFFFF then
        [UInt8.ofNat (c.toNat / 4096 % 0x10 + 0xE0), UInt8.ofNat (c.toNat / 64 % 0x40 + 0x80),
          UInt8.ofNat (c.toNat % 0x40 + 0x80)]
      else
        [UInt8.ofNat (c.toNat / 262144 % 0x08 + 0xF0), UInt8.ofNat (c.toNat / 4096 % 0x40 + 0x80),
          UInt8.ofNat (c.toNat / 64 % 0x40 + 0x80), UInt8.ofNat (c.toNat % 0x40 + 0x80)] := rfl
  by_cases h1 : c.toNat ≤ 0x7F
  · rw [if_pos h1] at henc
    exact .one henc (by omega)
  · rw [if_neg h1] at henc
    by_cases h2 : c.toNat ≤ 0x7FF
    · rw [if_pos h2] at henc
      exact .two _ _ henc (by omega) (by omega) (by omega)
    · rw [if_neg h2] at henc
      by_cases h3 : c.toNat ≤ 0xFFFF
      · rw [if_pos h3] at henc
        exact .three _ _ _ henc (by omega) (by omega) (by omega) (by omega) (by omega) (by omega)
      · rw [if_neg h3] at henc
        exact .four _ _ _ _ henc (by omega) (by omega) (by omega) (by omega) (by omega) (by omega)
          (by omega)

theorem toNat_ofNat {n : Nat} (h : n < 0x100) : (UInt8.ofNat n).toNat = n := by
  rw [UInt8.toNat_ofNat', Nat.mod_eq_of_lt h]

theorem payload_ofNat {n : Nat} (h : n < 0x40) : payload (UInt8.ofNat (n + 0x80)) = n := by
  have hbyte := toNat_ofNat (show n + 0x80 < 0x100 by omega)
  unfold payload
  omega

theorem isContinuation_ofNat {n : Nat} (h : n < 0x40) :
    isContinuation (UInt8.ofNat (n + 0x80)).toNat = true := by
  rw [toNat_ofNat (by omega), isContinuation]
  simp only [Bool.and_eq_true, decide_eq_true_eq]
  omega

theorem width_two {i : Nat} (h : 2 ≤ i ∧ i < 0x20) : width (i + 0xC0) = 2 := by
  unfold width
  rw [if_neg (by omega), if_pos (by omega)]

theorem width_three {i : Nat} (h : i < 0x10) : width (i + 0xE0) = 3 := by
  unfold width
  rw [if_neg (by omega), if_neg (by omega), if_pos (by omega)]

theorem width_four {i : Nat} (h : i < 5) : width (i + 0xF0) = 4 := by
  unfold width
  rw [if_neg (by omega), if_neg (by omega), if_neg (by omega), if_pos (by omega)]

theorem isSecond_three {i j : Nat} (hj : j < 0x40) (hlow : i = 0 → 0x20 ≤ j)
    (hsurrogate : i = 0xD → j < 0x20) (hi : i < 0x10) :
    isSecond (UInt8.ofNat (i + 0xE0)).toNat (UInt8.ofNat (j + 0x80)).toNat = true := by
  have hcont := isContinuation_ofNat hj
  rw [toNat_ofNat (show j + 0x80 < 0x100 by omega)] at hcont ⊢
  rw [toNat_ofNat (show i + 0xE0 < 0x100 by omega), isSecond, hcont]
  simp only [Bool.true_and, Bool.and_eq_true, Bool.or_eq_true, bne_iff_ne, decide_eq_true_eq]
  omega

theorem isSecond_four {i j : Nat} (hj : j < 0x40) (hlow : i = 0 → 0x10 ≤ j)
    (hlast : i = 4 → j < 0x10) (hi : i < 5) :
    isSecond (UInt8.ofNat (i + 0xF0)).toNat (UInt8.ofNat (j + 0x80)).toNat = true := by
  have hcont := isContinuation_ofNat hj
  rw [toNat_ofNat (show j + 0x80 < 0x100 by omega)] at hcont ⊢
  rw [toNat_ofNat (show i + 0xF0 < 0x100 by omega), isSecond, hcont]
  simp only [Bool.true_and, Bool.and_eq_true, Bool.or_eq_true, bne_iff_ne, decide_eq_true_eq]
  omega

/-- The first byte of a longer sequence says how long it is. -/
theorem width_ofNat {n w : Nat} (hn : n < 0x100) (hw : width n = w) :
    width (UInt8.ofNat n).toNat = w := by rw [toNat_ofNat hn, hw]

/-- Decoding takes a character off the front of its bytes. -/
theorem fromUtf8Lossy_append (c : Char) (bs : List UInt8) :
    fromUtf8Lossy (String.utf8EncodeChar c ++ bs) = c :: fromUtf8Lossy bs := by
  have hchar : ∀ n, n = c.toNat → Char.ofNat n = c := by
    rintro n rfl
    exact Char.ofNat_toNat c
  rcases encoded c with ⟨h, hc⟩ | ⟨i, j, h, hi, hj, hc⟩ |
    ⟨i, j, k, h, hi, hj, hk, hlow, hsur, hc⟩ | ⟨i, j, k, l, h, hi, hj, hk, hl, hlow, hlast, hc⟩
  · have hwidth := width_ofNat (show c.toNat < 0x100 by omega) (if_pos hc)
    simp only [h, List.singleton_append, fromUtf8Lossy, hwidth]
    rw [hchar _ (toNat_ofNat (by omega))]
  · have hwidth := width_ofNat (show i + 0xC0 < 0x100 by omega) (width_two hi)
    simp only [h, List.cons_append, List.nil_append, fromUtf8Lossy, hwidth,
      isContinuation_ofNat hj, payload_ofNat hj, if_true]
    rw [toNat_ofNat (by omega), hchar _ (by omega)]
  · have hwidth := width_ofNat (show i + 0xE0 < 0x100 by omega) (width_three hi)
    simp only [h, List.cons_append, List.nil_append, fromUtf8Lossy, hwidth,
      isSecond_three hj hlow hsur hi, isContinuation_ofNat hk, payload_ofNat hj, payload_ofNat hk,
      if_true]
    rw [toNat_ofNat (by omega), hchar _ (by omega)]
  · have hwidth := width_ofNat (show i + 0xF0 < 0x100 by omega) (width_four hi)
    simp only [h, List.cons_append, List.nil_append, fromUtf8Lossy, hwidth,
      isSecond_four hj hlow hlast hi, isContinuation_ofNat hk, isContinuation_ofNat hl,
      payload_ofNat hj, payload_ofNat hk, payload_ofNat hl, if_true]
    rw [toNat_ofNat (by omega), hchar _ (by omega)]

/-- The first byte of a longer sequence alone is no character. -/
theorem fromUtf8Lossy_first {b : UInt8} (h : 2 ≤ width b.toNat) :
    fromUtf8Lossy [b] = [replacement] := by
  unfold fromUtf8Lossy
  split
  · next hone => omega
  · next hnil => cases hnil
  · next hnil => cases hnil
  · next hnil => cases hnil
  · rfl

/-- A character that is cut decodes to a replacement. -/
theorem fromUtf8Lossy_take (c : Char) {n : Nat} (hn : n < (String.utf8EncodeChar c).length) :
    fromUtf8Lossy ((String.utf8EncodeChar c).take n) = if n = 0 then [] else [replacement] := by
  rcases encoded c with ⟨h, hc⟩ | ⟨i, j, h, hi, hj, hc⟩ |
    ⟨i, j, k, h, hi, hj, hk, hlow, hsur, hc⟩ | ⟨i, j, k, l, h, hi, hj, hk, hl, hlow, hlast, hc⟩
  · rw [h, List.length_singleton] at hn
    obtain rfl : n = 0 := by omega
    simp [fromUtf8Lossy]
  · have hwidth := width_ofNat (show i + 0xC0 < 0x100 by omega) (width_two hi)
    rw [h] at hn ⊢
    simp only [List.length_cons, List.length_nil] at hn
    obtain rfl | rfl : n = 0 ∨ n = 1 := by omega
    · simp [fromUtf8Lossy]
    · exact fromUtf8Lossy_first (Nat.le_of_eq hwidth.symm)
  · have hwidth := width_ofNat (show i + 0xE0 < 0x100 by omega) (width_three hi)
    have hsecond := isSecond_three hj hlow hsur hi
    rw [h] at hn ⊢
    simp only [List.length_cons, List.length_nil] at hn
    obtain rfl | rfl | rfl : n = 0 ∨ n = 1 ∨ n = 2 := by omega
    · simp [fromUtf8Lossy]
    · exact fromUtf8Lossy_first (by rw [hwidth]; decide)
    · simp only [List.take_succ_cons, List.take_zero, fromUtf8Lossy, hwidth, hsecond, if_true]
      rfl
  · have hwidth := width_ofNat (show i + 0xF0 < 0x100 by omega) (width_four hi)
    have hsecond := isSecond_four hj hlow hlast hi
    have hthird := isContinuation_ofNat hk
    rw [h] at hn ⊢
    simp only [List.length_cons, List.length_nil] at hn
    obtain rfl | rfl | rfl | rfl : n = 0 ∨ n = 1 ∨ n = 2 ∨ n = 3 := by omega
    · simp [fromUtf8Lossy]
    · exact fromUtf8Lossy_first (by rw [hwidth]; decide)
    · simp only [List.take_succ_cons, List.take_zero, fromUtf8Lossy, hwidth, hsecond, if_true]
      rfl
    · simp only [List.take_succ_cons, List.take_zero, fromUtf8Lossy, hwidth, hsecond, hthird,
        if_true]
      rfl

/-- **The first bytes of a text decode to its first characters, and to a replacement for one that
is cut.** -/
theorem fromUtf8Lossy_take_encode : ∀ (cs : List Char) (n : Nat),
    ∃ m k, fromUtf8Lossy ((encode cs).take n) = cs.take m ++ List.replicate k replacement
  | [], n => ⟨0, 0, by simp [encode, fromUtf8Lossy]⟩
  | c :: cs, n => by
    have hcons : encode (c :: cs) = String.utf8EncodeChar c ++ encode cs := rfl
    rw [hcons]
    by_cases hn : n < (String.utf8EncodeChar c).length
    · rw [List.take_append_of_le_length (Nat.le_of_lt hn), fromUtf8Lossy_take c hn]
      by_cases hzero : n = 0
      · exact ⟨0, 0, by simp [hzero]⟩
      · exact ⟨0, 1, by simp [hzero]⟩
    · obtain ⟨j, rfl⟩ := Nat.exists_eq_add_of_le (Nat.le_of_not_lt hn)
      obtain ⟨m, k, hrest⟩ := fromUtf8Lossy_take_encode cs j
      refine ⟨m + 1, k, ?_⟩
      rw [List.take_length_add_append, fromUtf8Lossy_append, hrest]
      rfl

/-! ## Bytes of characters -/

/-- An ASCII byte stands for itself only. -/
theorem toNat_of_mem {c : Char} {b : UInt8} (h : b ∈ String.utf8EncodeChar c)
    (hb : b.toNat < 0x80) : c.toNat = b.toNat := by
  have hlead : ∀ {n : Nat}, n < 0x100 → b = UInt8.ofNat n → b.toNat = n := fun hn heq => by
    rw [heq, toNat_ofNat hn]
  rcases encoded c with ⟨henc, hc⟩ | ⟨i, j, henc, hi, hj, hc⟩ |
    ⟨i, j, k, henc, hi, hj, hk, hlow, hsur, hc⟩ |
    ⟨i, j, k, l, henc, hi, hj, hk, hl, hlow, hlast, hc⟩
  · rw [henc, List.mem_singleton] at h
    exact (hlead (by omega) h).symm
  · simp only [henc, List.mem_cons, List.not_mem_nil, or_false] at h
    rcases h with h | h
    · have := hlead (by omega) h
      omega
    · have := hlead (by omega) h
      omega
  · simp only [henc, List.mem_cons, List.not_mem_nil, or_false] at h
    rcases h with h | h | h
    · have := hlead (by omega) h
      omega
    · have := hlead (by omega) h
      omega
    · have := hlead (by omega) h
      omega
  · simp only [henc, List.mem_cons, List.not_mem_nil, or_false] at h
    rcases h with h | h | h | h
    · have := hlead (by omega) h
      omega
    · have := hlead (by omega) h
      omega
    · have := hlead (by omega) h
      omega
    · have := hlead (by omega) h
      omega

theorem length_utf8_ofList (cs : List Char) :
    (String.ofList cs).utf8ByteSize = (encode cs).length := by
  rw [← String.size_toByteArray, String.toByteArray_ofList, List.utf8Encode]
  simp [encode]

theorem length_encode_cons (c : Char) (cs : List Char) :
    (encode (c :: cs)).length = c.utf8Size + (encode cs).length := by
  rw [encode, List.flatMap_cons, List.length_append, String.length_utf8EncodeChar]
  rfl

theorem utf8Size_ascii : ∀ n < 0x80, (Char.ofNat n).utf8Size = 1 := by decide

theorem lt_of_width_one {b : Nat} (h : width b = 1) : b < 0x80 := by
  by_contra hb
  rw [width, if_neg hb] at h
  split_ifs at h <;> omega

section

variable {cs : List Char} {n m : Nat}

theorem le_of_replacement (h : (encode cs).length ≤ 3 * n) (hm : n + 1 ≤ m) :
    (encode (replacement :: cs)).length ≤ 3 * m := by
  have hsize : replacement.utf8Size = 3 := by decide
  rw [length_encode_cons, hsize]
  omega

theorem le_of_char (c : Char) (h : (encode cs).length ≤ 3 * n) (hm : n + 2 ≤ m) :
    (encode (c :: cs)).length ≤ 3 * m := by
  have hsize := Char.utf8Size_le_four c
  rw [length_encode_cons]
  omega

end

/-- **Lossy decoding makes a text at most three times as long as its bytes**, a replacement being
three bytes long. -/
theorem length_encode_fromUtf8Lossy_le (bs : List UInt8) :
    (encode (fromUtf8Lossy bs)).length ≤ 3 * bs.length := by
  fun_induction fromUtf8Lossy bs with
  | case1 => exact Nat.zero_le _
  | case2 b bs hwidth ih =>
    rw [length_encode_cons, utf8Size_ascii _ (lt_of_width_one hwidth), List.length_cons]
    omega
  | case3 _ _ _ _ _ ih | case5 _ _ _ _ _ _ _ ih | case9 _ _ _ _ _ _ _ _ _ ih =>
    -- a character of two bytes or more
    exact le_of_char _ ih (by simp only [List.length_cons]; omega)
  | case7 | case11 | case13 =>
    exact le_of_replacement (Nat.zero_le _ : (encode []).length ≤ 3 * 0) (by simp)
  | case4 | case6 | case8 | case10 | case12 | case14 | case15 =>
    rename_i ih
    exact le_of_replacement ih (by simp)

end Cpex.Infra.Utf8
