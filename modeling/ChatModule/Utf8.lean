import Mathlib.Data.List.Basic

/-!
# Lossy UTF-8 decoding

Message bodies cross the module as bytes and are shown as text decoded with
`String::from_utf8_lossy`: valid sequences decode, and each maximal prefix of an
ill-formed sequence becomes one U+FFFD.

The decoder follows the standard library's chunk iterator. A leading byte fixes
the width of its sequence; the second byte is checked against the range that
leading byte allows (this is what rules out overlong forms, surrogates and
values past U+10FFFF), the others only have to be continuation bytes. The first
byte that does not fit ends the ill-formed prefix and is read again as the start
of the next sequence. Text that was encoded decodes to itself
(`fromUtf8Lossy_asBytes`).
-/

namespace ChatModule.Utf8

/-- U+FFFD, which stands for an ill-formed sequence. -/
def replacement : Char := '\uFFFD'

/-- The length of the sequence a byte leads, 0 when it cannot lead one. -/
def utf8CharWidth (b : UInt8) : ℕ :=
  if b < 0x80 then 1
  else if 0xC2 ≤ b ∧ b ≤ 0xDF then 2
  else if 0xE0 ≤ b ∧ b ≤ 0xEF then 3
  else if 0xF0 ≤ b ∧ b ≤ 0xF4 then 4
  else 0

/-- Whether `c` is a continuation byte. -/
def isCont (c : UInt8) : Bool := c &&& 192 == 128

/-- Whether `c` may come second in the three-byte sequence `b` leads. -/
def second3 (b c : UInt8) : Bool :=
  (b == 0xE0 && (0xA0 ≤ c && c ≤ 0xBF)) ||
  ((0xE1 ≤ b && b ≤ 0xEC) && (0x80 ≤ c && c ≤ 0xBF)) ||
  (b == 0xED && (0x80 ≤ c && c ≤ 0x9F)) ||
  ((0xEE ≤ b && b ≤ 0xEF) && (0x80 ≤ c && c ≤ 0xBF))

/-- Whether `c` may come second in the four-byte sequence `b` leads. -/
def second4 (b c : UInt8) : Bool :=
  (b == 0xF0 && (0x90 ≤ c && c ≤ 0xBF)) ||
  ((0xF1 ≤ b && b ≤ 0xF3) && (0x80 ≤ c && c ≤ 0xBF)) ||
  (b == 0xF4 && (0x80 ≤ c && c ≤ 0x8F))

/-- The six payload bits of a continuation byte, below the bits read so far. -/
def push (acc : ℕ) (c : UInt8) : ℕ := acc * 64 + (c &&& 0x3F).toNat

/-- The characters of `String::from_utf8_lossy`. -/
def lossyChars : List UInt8 → List Char
  | [] => []
  | b :: r =>
    match utf8CharWidth b with
    | 1 => Char.ofNat b.toNat :: lossyChars r
    | 2 =>
      match r with
      | [] => [replacement]
      | c :: r₁ =>
        if isCont c then Char.ofNat (push (b &&& 0x1F).toNat c) :: lossyChars r₁
        else replacement :: lossyChars (c :: r₁)
    | 3 =>
      match r with
      | [] => [replacement]
      | c :: r₁ =>
        if second3 b c then
          match r₁ with
          | [] => [replacement]
          | d :: r₂ =>
            if isCont d then
              Char.ofNat (push (push (b &&& 0x0F).toNat c) d) :: lossyChars r₂
            else replacement :: lossyChars (d :: r₂)
        else replacement :: lossyChars (c :: r₁)
    | 4 =>
      match r with
      | [] => [replacement]
      | c :: r₁ =>
        if second4 b c then
          match r₁ with
          | [] => [replacement]
          | d :: r₂ =>
            if isCont d then
              match r₂ with
              | [] => [replacement]
              | e :: r₃ =>
                if isCont e then
                  Char.ofNat (push (push (push (b &&& 0x07).toNat c) d) e) :: lossyChars r₃
                else replacement :: lossyChars (e :: r₃)
            else replacement :: lossyChars (d :: r₂)
        else replacement :: lossyChars (c :: r₁)
    | _ => replacement :: lossyChars r

/-- `String::from_utf8_lossy`. -/
def fromUtf8Lossy (bytes : List UInt8) : String := String.ofList (lossyChars bytes)

/-- `str::as_bytes`. -/
def asBytes (s : String) : List UInt8 := s.toUTF8.data.toList

/-! ## Valid text -/

theorem asBytes_eq (s : String) : asBytes s = s.toList.flatMap String.utf8EncodeChar := by
  unfold asBytes
  rw [String.toUTF8_eq_toByteArray, ← String.utf8Encode_toList]
  simp [List.utf8Encode]

/-- A leading byte says how many bytes follow, and keeps the bits it was given. -/
theorem lead1 : ∀ x < 128, utf8CharWidth (UInt8.ofNat x) = 1 ∧ (UInt8.ofNat x).toNat = x := by
  decide

theorem lead2 : ∀ x < 32, 2 ≤ x → utf8CharWidth (UInt8.ofNat (x + 0xC0)) = 2 ∧
    (UInt8.ofNat (x + 0xC0) &&& 0x1F).toNat = x := by
  decide

theorem lead3 : ∀ x < 16, utf8CharWidth (UInt8.ofNat (x + 0xE0)) = 3 ∧
    (UInt8.ofNat (x + 0xE0) &&& 0x0F).toNat = x := by
  decide

theorem lead4 : ∀ x < 5, utf8CharWidth (UInt8.ofNat (x + 0xF0)) = 4 ∧
    (UInt8.ofNat (x + 0xF0) &&& 0x07).toNat = x := by
  decide

/-- So does a continuation byte, with six bits. -/
theorem isCont_ofNat : ∀ x < 64, isCont (UInt8.ofNat (x + 0x80)) = true := by
  decide

theorem push_ofNat (acc : ℕ) {x : ℕ} (h : x < 64) :
    push acc (UInt8.ofNat (x + 0x80)) = acc * 64 + x := by
  have hbits : ∀ x < 64, (UInt8.ofNat (x + 0x80) &&& 0x3F).toNat = x := by decide
  unfold push
  rw [hbits x h]

/-- What the second byte may be, given that the value is neither overlong nor a
surrogate. -/
theorem second3_ofNat : ∀ x < 16, ∀ y < 64, (x = 0 → 32 ≤ y) → (x = 13 → y < 32) →
    second3 (UInt8.ofNat (x + 0xE0)) (UInt8.ofNat (y + 0x80)) = true := by
  decide +kernel

theorem second4_ofNat : ∀ x < 5, ∀ y < 64, (x = 0 → 16 ≤ y) → (x = 4 → y < 16) →
    second4 (UInt8.ofNat (x + 0xF0)) (UInt8.ofNat (y + 0x80)) = true := by
  decide +kernel

section Sequences

variable {b c d e : UInt8} {r : List UInt8}

/-- A well-formed sequence decodes to the character its bits spell. -/
theorem lossyChars_one (hb : utf8CharWidth b = 1) :
    lossyChars (b :: r) = Char.ofNat b.toNat :: lossyChars r := by
  rw [lossyChars.eq_def]
  simp only [hb]

theorem lossyChars_two (hb : utf8CharWidth b = 2) (hc : isCont c = true) :
    lossyChars (b :: c :: r) = Char.ofNat (push (b &&& 0x1F).toNat c) :: lossyChars r := by
  rw [lossyChars.eq_def]
  simp only [hb, hc, if_true]

theorem lossyChars_three (hb : utf8CharWidth b = 3) (hc : second3 b c = true)
    (hd : isCont d = true) :
    lossyChars (b :: c :: d :: r) =
      Char.ofNat (push (push (b &&& 0x0F).toNat c) d) :: lossyChars r := by
  rw [lossyChars.eq_def]
  simp only [hb, hc, hd, if_true]

theorem lossyChars_four (hb : utf8CharWidth b = 4) (hc : second4 b c = true)
    (hd : isCont d = true) (he : isCont e = true) :
    lossyChars (b :: c :: d :: e :: r) =
      Char.ofNat (push (push (push (b &&& 0x07).toNat c) d) e) :: lossyChars r := by
  rw [lossyChars.eq_def]
  simp only [hb, hc, hd, he, if_true]

end Sequences

/-- The bytes of one character decode to it, whatever follows. -/
theorem lossyChars_utf8EncodeChar (ch : Char) (r : List UInt8) :
    lossyChars (String.utf8EncodeChar ch ++ r) = ch :: lossyChars r := by
  have hvalid : ch.toNat < 0xD800 ∨ 0xDFFF < ch.toNat ∧ ch.toNat < 0x110000 := ch.valid
  have hchar : ∀ n, n = ch.toNat → Char.ofNat n = ch := by
    rintro n rfl
    exact Char.ofNat_toNat ch
  have hv : ch.val.toNat = ch.toNat := rfl
  -- by the length of the sequence, which is the width its leading byte announces
  fun_cases String.utf8EncodeChar
  · next v h =>
    obtain ⟨hwidth, hbits⟩ := lead1 v (by omega)
    have heq := lossyChars_one (r := r) hwidth
    rw [hbits, hchar _ hv] at heq
    exact heq
  · next v h1 h2 =>
    obtain ⟨hwidth, hbits⟩ := lead2 (v / 64 % 0x20) (by omega) (by omega)
    have hc := isCont_ofNat (v % 0x40) (by omega)
    have heq := lossyChars_two (r := r) hwidth hc
    rw [hbits, push_ofNat _ (by omega), hchar _ (by omega)] at heq
    exact heq
  · next v h1 h2 h3 =>
    obtain ⟨hwidth, hbits⟩ := lead3 (v / 4096 % 0x10) (by omega)
    have hc := second3_ofNat (v / 4096 % 0x10) (by omega) (v / 64 % 0x40) (by omega) (by omega)
      (by omega)
    have hd := isCont_ofNat (v % 0x40) (by omega)
    have heq := lossyChars_three (r := r) hwidth hc hd
    rw [hbits, push_ofNat _ (by omega), push_ofNat _ (by omega), hchar _ (by omega)] at heq
    exact heq
  · next v h1 h2 h3 =>
    have hlead : v / 262144 % 0x08 < 5 := by omega
    obtain ⟨hwidth, hbits⟩ := lead4 (v / 262144 % 0x08) hlead
    have hc := second4_ofNat (v / 262144 % 0x08) hlead (v / 4096 % 0x40) (by omega) (by omega)
      (by omega)
    have hd := isCont_ofNat (v / 64 % 0x40) (by omega)
    have he := isCont_ofNat (v % 0x40) (by omega)
    have heq := lossyChars_four (r := r) hwidth hc hd he
    rw [hbits, push_ofNat _ (by omega), push_ofNat _ (by omega), push_ofNat _ (by omega),
      hchar _ (by omega)] at heq
    exact heq

/-- Text is decoded as it was encoded. -/
theorem fromUtf8Lossy_asBytes (s : String) : fromUtf8Lossy (asBytes s) = s := by
  have hchars : ∀ cs : List Char, lossyChars (cs.flatMap String.utf8EncodeChar) = cs := by
    intro cs
    induction cs with
    | nil => rfl
    | cons c cs ih => rw [List.flatMap_cons, lossyChars_utf8EncodeChar, ih]
  unfold fromUtf8Lossy
  rw [asBytes_eq, hchars, String.ofList_toList]

example : fromUtf8Lossy (asBytes "hé €𝄞") = "hé €𝄞" := by decide

end ChatModule.Utf8
