import Dumbos.Foundation.Form

/-! # Hex strings as bytes

The value of a digit goes through a `char`, which may have no negative values: on
such a machine the -1 of a bad digit is not seen. The length of the string goes
through an `int`.
-/
namespace Dumbos.Common
open Foundation

/-- A number that is stored in a `char`. -/
def charValue (charSigned : Bool) (z : ℤ) : ℤ :=
  if charSigned then (z + 128) % 256 - 128 else z % 256

def hexchartoval (c : UInt8) : ℤ :=
  if 48 ≤ c ∧ c ≤ 57 then (c.toNat : ℤ) - 48
  else if 97 ≤ c ∧ c ≤ 102 then (c.toNat : ℤ) - 97 + 10
  else if 65 ≤ c ∧ c ≤ 70 then (c.toNat : ℤ) - 65 + 10
  else -1

/-- The loop over the pairs of digits; `none` is `EINVAL`. -/
def hexPairs (charSigned : Bool) : Bytes → Option Bytes
  | c :: d :: hex =>
    let top := charValue charSigned (hexchartoval c)
    let bottom := charValue charSigned (hexchartoval d)
    if top < 0 ∨ bottom < 0 then none
    else (hexPairs charSigned hex).map (UInt8.ofNat (16 * top + bottom).toNat :: ·)
  | _ => some []

section Digits

theorem hexDigitValue_lt {c : UInt8} {v : ℕ} (h : hexDigitValue c = some v) : v < 16 := by
  rw [hexDigitValue] at h
  simp only [Bool.and_eq_true, decide_eq_true_eq, UInt8.le_iff_toNat_le] at h
  split_ifs at h with hdigit hlower hupper <;> cases h
  · have := hdigit.2
    simp at this
    omega
  · have := hlower.2
    simp at this
    omega
  · have := hupper.2
    simp at this
    omega

/-- The value of a digit, or -1. -/
theorem hexchartoval_eq (c : UInt8) : hexchartoval c = ((hexDigitValue c).map Nat.cast).getD (-1) := by
  rw [hexchartoval, hexDigitValue]
  simp only [Bool.and_eq_true, decide_eq_true_eq]
  split_ifs with hdigit hlower hupper
  · have := UInt8.le_iff_toNat_le.mp hdigit.1
    simp at this ⊢
    omega
  · have := UInt8.le_iff_toNat_le.mp hlower.1
    simp at this ⊢
    omega
  · have := UInt8.le_iff_toNat_le.mp hupper.1
    simp at this ⊢
    omega
  · rfl

theorem charValue_of_lt (charSigned : Bool) {z : ℤ} (h₀ : 0 ≤ z) (h : z < 128) :
    charValue charSigned z = z := by
  rw [charValue]
  split_ifs <;> omega

/-- A pair of digits. -/
theorem hexPairs_cons (charSigned : Bool) {c d : UInt8} {top bottom : ℕ}
    (hc : hexDigitValue c = some top) (hd : hexDigitValue d = some bottom) (hex : Bytes) :
    hexPairs charSigned (c :: d :: hex) =
      (hexPairs charSigned hex).map (UInt8.ofNat (16 * top + bottom) :: ·) := by
  have htop : charValue charSigned (hexchartoval c) = top := by
    rw [hexchartoval_eq, hc]
    have := hexDigitValue_lt hc
    exact charValue_of_lt _ (Int.natCast_nonneg top) (by simp; omega)
  have hbottom : charValue charSigned (hexchartoval d) = bottom := by
    rw [hexchartoval_eq, hd]
    have := hexDigitValue_lt hd
    exact charValue_of_lt _ (Int.natCast_nonneg bottom) (by simp; omega)
  rw [hexPairs, htop, hbottom, if_neg (by omega)]
  congr

/-- A pair with a bad digit is seen if a `char` can be negative. -/
theorem hexPairs_bad {c d : UInt8} (h : ¬((hexDigitValue c).isSome ∧ (hexDigitValue d).isSome))
    (hex : Bytes) : hexPairs true (c :: d :: hex) = none := by
  have hbad : ∀ c, ¬(hexDigitValue c).isSome → charValue true (hexchartoval c) < 0 := by
    intro c hc
    rw [hexchartoval_eq, Option.not_isSome_iff_eq_none.mp hc]
    decide
  rw [hexPairs, if_pos]
  rcases not_and_or.mp h with hc | hd
  · exact Or.inl (hbad c hc)
  · exact Or.inr (hbad d hd)

/-- And it is passed over if not. -/
theorem hexPairs_unsigned_isSome (hex : Bytes) : (hexPairs false hex).isSome := by
  match hex with
  | [] => rfl
  | [_] => rfl
  | c :: d :: hex =>
    have hchar : ∀ z, ¬charValue false z < 0 := by
      intro z
      rw [charValue, if_neg Bool.false_ne_true]
      omega
    rw [hexPairs, if_neg (not_or.mpr ⟨hchar _, hchar _⟩), Option.isSome_map]
    exact hexPairs_unsigned_isSome hex

end Digits

end Dumbos.Common

namespace Dumbos.Common.Hex
open Foundation

def hexDigit (n : ℕ) : UInt8 := (ascii "0123456789ABCDEF").getD n 0

/-- `malloc_buf_to_hex` when there is memory. -/
def mallocBufToHex (buf : Bytes) : Bytes :=
  buf.flatMap fun c => [hexDigit (c.toNat / 16), hexDigit (c.toNat % 16)]

/-- The length of a string as an `int`. -/
def hexlen (hex : Bytes) : ℤ := ((hex.length : ℤ) + 2 ^ 31) % 2 ^ 32 - 2 ^ 31

/-- `malloc_hex_to_buf` when there is memory: what its loop has written. -/
def mallocHexToBuf (charSigned : Bool) (hex : Bytes) : Option Bytes :=
  if (hexlen hex).tmod 2 ≠ 0 then none else hexPairs charSigned (hex.take (hexlen hex).toNat)

/-- The bytes are the values of the pairs of digits. -/
def IsValueOf (hex buf : Bytes) : Prop :=
  buf.length = hex.length / 2 ∧ ∀ i < buf.length, ∃ top bottom,
    hexDigitValue (hex.getD (2 * i) 0) = some top ∧
      hexDigitValue (hex.getD (2 * i + 1) 0) = some bottom ∧
      buf.getD i 0 = UInt8.ofNat (16 * top + bottom)

/-- A string is decoded if it consists of pairs of digits, and to their values. -/
structure Decodes (charSigned : Bool) (hex : Bytes) : Prop where
  isSome_iff : (mallocHexToBuf charSigned hex).isSome ↔
    hex.length % 2 = 0 ∧ ∀ c ∈ hex, (hexDigitValue c).isSome
  value : ∀ buf, mallocHexToBuf charSigned hex = some buf → IsValueOf hex buf

theorem hexlen_eq {hex : Bytes} (h : hex.length < 2 ^ 31) : hexlen hex = hex.length := by
  rw [hexlen]
  omega

/-- A string whose length fits is taken as a whole. -/
theorem mallocHexToBuf_short (charSigned : Bool) {hex : Bytes} (h : hex.length < 2 ^ 31) :
    mallocHexToBuf charSigned hex = if hex.length % 2 ≠ 0 then none else hexPairs charSigned hex := by
  have hrem : (hexlen hex).tmod 2 = ((hex.length % 2 : ℕ) : ℤ) := by
    rw [hexlen_eq h]
    rfl
  rw [mallocHexToBuf, hrem, hexlen_eq h, Int.toNat_natCast, List.take_length]
  simp only [ne_eq, Int.natCast_eq_zero]

theorem isValueOf_nil : IsValueOf [] [] := ⟨rfl, by simp⟩

theorem IsValueOf.cons {hex buf : Bytes} (h : IsValueOf hex buf) {c d : UInt8} {top bottom : ℕ}
    (hc : hexDigitValue c = some top) (hd : hexDigitValue d = some bottom) :
    IsValueOf (c :: d :: hex) (UInt8.ofNat (16 * top + bottom) :: buf) := by
  constructor
  · rw [List.length_cons, h.1]
    simp only [List.length_cons]
    omega
  · intro i hi
    cases i with
    | zero => exact ⟨top, bottom, hc, hd, rfl⟩
    | succ i =>
      rw [List.length_cons] at hi
      obtain ⟨t, b, ht, hb, hvalue⟩ := h.2 i (by omega)
      exact ⟨t, b, ht, hb, hvalue⟩

/-- Run: pairs of digits give their values. -/
theorem hexPairs_value (charSigned : Bool) {hex : Bytes} (heven : hex.length % 2 = 0)
    (h : ∀ c ∈ hex, (hexDigitValue c).isSome) :
    ∃ buf, hexPairs charSigned hex = some buf ∧ IsValueOf hex buf := by
  match hex with
  | [] => exact ⟨[], rfl, isValueOf_nil⟩
  | [_] => simp at heven
  | c :: d :: hex =>
    obtain ⟨top, hc⟩ := Option.isSome_iff_exists.mp (h c (by simp))
    obtain ⟨bottom, hd⟩ := Option.isSome_iff_exists.mp (h d (by simp))
    obtain ⟨buf, hbuf, hvalue⟩ := @hexPairs_value charSigned hex
      (by simp only [List.length_cons] at heven; omega)
      fun e he => h e (List.mem_cons_of_mem _ (List.mem_cons_of_mem _ he))
    refine ⟨_, ?_, hvalue.cons hc hd⟩
    rw [hexPairs_cons charSigned hc hd, hbuf]
    rfl

/-- With a `char` that can be negative nothing else is accepted. -/
theorem hexPairs_signed_digits {hex buf : Bytes} (heven : hex.length % 2 = 0)
    (h : hexPairs true hex = some buf) : ∀ c ∈ hex, (hexDigitValue c).isSome := by
  match hex with
  | [] => simp
  | [_] => simp at heven
  | c :: d :: hex =>
    by_cases hdigits : (hexDigitValue c).isSome ∧ (hexDigitValue d).isSome
    · obtain ⟨top, hc⟩ := Option.isSome_iff_exists.mp hdigits.1
      obtain ⟨bottom, hd⟩ := Option.isSome_iff_exists.mp hdigits.2
      rw [hexPairs_cons true hc hd] at h
      obtain ⟨rest, hrest, -⟩ := Option.map_eq_some_iff.mp h
      have hall := @hexPairs_signed_digits hex rest (by simp only [List.length_cons] at heven; omega) hrest
      simp only [List.mem_cons, forall_eq_or_imp]
      exact ⟨hdigits.1, hdigits.2, hall⟩
    · rw [hexPairs_bad hdigits] at h
      cases h

theorem hexPairs_length {charSigned : Bool} {hex buf : Bytes} (h : hexPairs charSigned hex = some buf) :
    buf.length ≤ hex.length / 2 := by
  match hex with
  | [] =>
    cases h
    rfl
  | [_] =>
    cases h
    exact Nat.zero_le _
  | c :: d :: hex =>
    rw [hexPairs] at h
    split_ifs at h
    obtain ⟨rest, hrest, rfl⟩ := Option.map_eq_some_iff.mp h
    have := hexPairs_length hrest
    simp only [List.length_cons]
    omega

theorem hexDigitValue_hexDigit {n : ℕ} (h : n < 16) : hexDigitValue (hexDigit n) = some n := by
  have hall : ∀ n : Fin 16, hexDigitValue (hexDigit n) = some n.val := by decide +kernel
  exact hall ⟨n, h⟩

theorem mallocBufToHex_length (buf : Bytes) : (mallocBufToHex buf).length = 2 * buf.length := by
  rw [mallocBufToHex, List.length_flatMap]
  simp [Nat.mul_comm]

theorem mallocBufToHex_digits (buf : Bytes) : ∀ c ∈ mallocBufToHex buf, (hexDigitValue c).isSome := by
  intro c hc
  obtain ⟨b, -, hb⟩ := List.mem_flatMap.mp hc
  have hlt := b.toNat_lt
  rcases List.mem_pair.mp hb with rfl | rfl
  · rw [hexDigitValue_hexDigit (by omega)]
    rfl
  · rw [hexDigitValue_hexDigit (by omega)]
    rfl

/-- What has been printed is read. -/
theorem hexPairs_mallocBufToHex (charSigned : Bool) (buf : Bytes) :
    hexPairs charSigned (mallocBufToHex buf) = some buf := by
  induction buf with
  | nil => rfl
  | cons c buf ih =>
    have hlt := c.toNat_lt
    have hbyte : UInt8.ofNat (16 * (c.toNat / 16) + c.toNat % 16) = c := by
      rw [Nat.div_add_mod, UInt8.ofNat_toNat]
    change hexPairs charSigned
      (hexDigit (c.toNat / 16) :: hexDigit (c.toNat % 16) :: mallocBufToHex buf) = _
    rw [hexPairs_cons charSigned (hexDigitValue_hexDigit (by omega))
      (hexDigitValue_hexDigit (by omega)), ih, hbyte]
    rfl

/-- The length of a longer text does not fit, and part of the text is left. -/
theorem mallocHexToBuf_mallocBufToHex_iff (charSigned : Bool) (buf : Bytes) :
    mallocHexToBuf charSigned (mallocBufToHex buf) = some buf ↔ buf.length < 2 ^ 30 := by
  have hlen := mallocBufToHex_length buf
  constructor
  · intro h
    rw [mallocHexToBuf] at h
    split_ifs at h
    have hle := hexPairs_length h
    have hbound : hexlen (mallocBufToHex buf) < 2 ^ 31 := by
      rw [hexlen]
      omega
    rw [List.length_take] at hle
    omega
  · intro h
    rw [mallocHexToBuf_short charSigned (by omega), if_neg (by omega), hexPairs_mallocBufToHex]

/-- A string is decoded as it should be exactly if a `char` can be negative, or there is no bad digit
to be seen; and a buffer survives both functions exactly if the length of its text fits an `int`. -/
theorem mallocHexToBuf_decodes_iff (charSigned : Bool) :
    (∀ hex : Bytes, hex.length < 2 ^ 31 → (Decodes charSigned hex ↔
      charSigned = true ∨ hex.length % 2 = 1 ∨ ∀ c ∈ hex, (hexDigitValue c).isSome)) ∧
    ∀ buf, mallocHexToBuf charSigned (mallocBufToHex buf) = some buf ↔ buf.length < 2 ^ 30 := by
  refine ⟨?_, mallocHexToBuf_mallocBufToHex_iff charSigned⟩
  intro hex hshort
  have hcode := mallocHexToBuf_short charSigned hshort
  by_cases hodd : hex.length % 2 ≠ 0
  · rw [if_pos hodd] at hcode
    refine iff_of_true ⟨?_, ?_⟩ (Or.inr (Or.inl (by omega)))
    · rw [hcode]
      exact iff_of_false (by simp) fun h => hodd h.1
    · rw [hcode]
      simp
  have heven := not_ne_iff.mp hodd
  rw [if_neg hodd] at hcode
  by_cases hdigits : ∀ c ∈ hex, (hexDigitValue c).isSome
  · obtain ⟨buf, hbuf, hvalue⟩ := hexPairs_value charSigned heven hdigits
    refine iff_of_true ⟨?_, ?_⟩ (Or.inr (Or.inr hdigits))
    · rw [hcode, hbuf]
      exact iff_of_true rfl ⟨heven, hdigits⟩
    · rw [hcode, hbuf]
      rintro _ ⟨⟩
      exact hvalue
  · cases charSigned with
    | true =>
      have hnone : hexPairs true hex = none := by
        by_contra hsome
        obtain ⟨buf, hbuf⟩ := Option.ne_none_iff_exists'.mp hsome
        exact hdigits (hexPairs_signed_digits heven hbuf)
      refine iff_of_true ⟨?_, ?_⟩ (Or.inl rfl)
      · rw [hcode, hnone]
        exact iff_of_false (by simp) fun h => hdigits h.2
      · rw [hcode, hnone]
        simp
    | false =>
      apply iff_of_false
      · intro hdecodes
        have hsome := hexPairs_unsigned_isSome hex
        rw [← hcode] at hsome
        exact hdigits (hdecodes.isSome_iff.mp hsome).2
      · rintro (hsigned | hone | hall)
        · cases hsigned
        · omega
        · exact hdigits hall

theorem mallocHexToBuf_decodes_iff_digits : Decodes false (ascii "0aF9") ∧
    mallocHexToBuf true (mallocBufToHex [0, 255]) = some [0, 255] :=
  ⟨((mallocHexToBuf_decodes_iff false).1 _ (by decide)).mpr (Or.inr (Or.inr (by decide +kernel))),
    ((mallocHexToBuf_decodes_iff true).2 _).mpr (by decide)⟩

/-- On a machine whose `char` is unsigned two letters that are no digits are decoded. -/
theorem not_decodes_unsigned : mallocHexToBuf false (ascii "zz") = some [239] ∧
    ¬Decodes false (ascii "zz") := by
  have hbuf : mallocHexToBuf false (ascii "zz") = some [239] := by decide +kernel
  refine ⟨hbuf, fun h => ?_⟩
  have hdigit := (h.isSome_iff.mp (by rw [hbuf]; rfl)).2 122 (by decide)
  exact absurd hdigit (by decide)

end Dumbos.Common.Hex
