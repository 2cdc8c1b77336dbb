import Dumbos.Foundation.Bytes
import Mathlib.Data.Nat.Digits.Lemmas

/-! # Decimal text of numbers

`natText` and `intText` print a number as `%llu` and `%lld` do; `digitsValue`
reads a digit string. Reading undoes printing, and a printed number that is cut
keeps its leading digits, so a cut number is still large.
-/
namespace Dumbos.Foundation

def isDigit (c : UInt8) : Bool := 48 ≤ c && c ≤ 57

/-- The value of a digit string. -/
def digitsValue (b : Bytes) : ℕ := b.foldl (fun n c => 10 * n + (c.toNat - 48)) 0

def digitByte (d : ℕ) : UInt8 := UInt8.ofNat (48 + d)

def natText (n : ℕ) : Bytes :=
  if n = 0 then [digitByte 0] else (Nat.digits 10 n).reverse.map digitByte

def intText (z : ℤ) : Bytes := if z < 0 then 45 :: natText z.natAbs else natText z.natAbs

theorem isDigit_iff (c : UInt8) : isDigit c ↔ 48 ≤ c.toNat ∧ c.toNat ≤ 57 := by
  simp [isDigit, UInt8.le_iff_toNat_le]

theorem digitByte_toNat {d : ℕ} (h : d < 10) : (digitByte d).toNat = 48 + d := by
  simp only [digitByte, UInt8.toNat_ofNat']
  omega

theorem isDigit_digitByte {d : ℕ} (h : d < 10) : isDigit (digitByte d) := by
  rw [isDigit_iff, digitByte_toNat h]
  omega

theorem ne_zero_of_isDigit {c : UInt8} (h : isDigit c) : c ≠ 0 := by
  rintro rfl
  simp [isDigit] at h

private theorem digitsValue_foldl (b : Bytes) (n : ℕ) :
    b.foldl (fun n c => 10 * n + (c.toNat - 48)) n = n * 10 ^ b.length + digitsValue b := by
  induction b generalizing n with
  | nil => simp [digitsValue]
  | cons c b ih =>
    rw [digitsValue, List.foldl_cons, List.foldl_cons, ih, ih (10 * 0 + (c.toNat - 48)),
      List.length_cons, pow_succ]
    ring

theorem digitsValue_append (a b : Bytes) :
    digitsValue (a ++ b) = digitsValue a * 10 ^ b.length + digitsValue b := by
  rw [digitsValue, List.foldl_append, digitsValue_foldl]
  rfl

@[simp] theorem digitsValue_nil : digitsValue [] = 0 := rfl

theorem digitsValue_singleton (c : UInt8) : digitsValue [c] = c.toNat - 48 := by
  simp [digitsValue]

theorem digitsValue_concat (b : Bytes) (c : UInt8) :
    digitsValue (b ++ [c]) = 10 * digitsValue b + (c.toNat - 48) := by
  rw [digitsValue_append, digitsValue_singleton, List.length_singleton, pow_one, Nat.mul_comm]

theorem digitsValue_lt {b : Bytes} (h : ∀ c ∈ b, isDigit c) : digitsValue b < 10 ^ b.length := by
  induction b using List.reverseRecOn with
  | nil => simp
  | append_singleton b c ih =>
    have hb := ih (fun d hd => h d (by simp [hd]))
    have hc := (isDigit_iff c).mp (h c (by simp))
    rw [digitsValue_concat, List.length_append, List.length_singleton, pow_succ]
    omega

theorem digitsValue_lt_of_length_le {b : Bytes} {k : ℕ} (h : ∀ c ∈ b, isDigit c)
    (hk : b.length ≤ k) : digitsValue b < 10 ^ k :=
  (digitsValue_lt h).trans_le (Nat.pow_le_pow_right (by norm_num) hk)

/-- A digit string in reversed form carries the number its digits stand for. -/
theorem digitsValue_reverse_map {l : List ℕ} (h : ∀ d ∈ l, d < 10) :
    digitsValue (l.reverse.map digitByte) = Nat.ofDigits 10 l := by
  induction l with
  | nil => rfl
  | cons d l ih =>
    have hd := h d (by simp)
    rw [List.reverse_cons, List.map_append, digitsValue_append, ih (fun e he => h e (by simp [he])),
      List.map_singleton, digitsValue_singleton, digitByte_toNat hd, Nat.ofDigits_cons]
    simp
    ring

theorem digits_lt_ten {n d : ℕ} (h : d ∈ Nat.digits 10 n) : d < 10 :=
  Nat.digits_lt_base (by norm_num) h

theorem natText_digits (n : ℕ) : ∀ c ∈ natText n, isDigit c := by
  intro c hc
  rw [natText] at hc
  split_ifs at hc with h0
  · rw [List.mem_singleton.mp hc]
    exact isDigit_digitByte (by norm_num)
  · obtain ⟨d, hd, rfl⟩ := List.mem_map.mp hc
    exact isDigit_digitByte (digits_lt_ten (List.mem_reverse.mp hd))

theorem natText_ne_nil (n : ℕ) : natText n ≠ [] := by
  rw [natText]
  split_ifs with h0
  · simp
  · simpa [Nat.digits_eq_nil_iff_eq_zero] using h0

theorem natText_length (n : ℕ) : (natText n).length = max 1 (Nat.digits 10 n).length := by
  rw [natText]
  split_ifs with h0
  · simp [h0]
  · have hpos : 0 < (Nat.digits 10 n).length := by
      rw [List.length_pos_iff]
      exact mt Nat.digits_eq_nil_iff_eq_zero.mp h0
    simp only [List.length_map, List.length_reverse]
    omega

theorem natText_length_le {n k : ℕ} (hk : 0 < k) (h : n < 10 ^ k) : (natText n).length ≤ k := by
  have hd := (Nat.digits_length_le_iff (by norm_num : 1 < 10) n).mpr h
  rw [natText_length]
  omega

@[simp] theorem digitsValue_natText (n : ℕ) : digitsValue (natText n) = n := by
  rw [natText]
  split_ifs with h0
  · rw [h0]
    rfl
  · rw [digitsValue_reverse_map (fun d => digits_lt_ten), Nat.ofDigits_digits]

/-- Cutting the text of a number behind its `k`-th digit divides the number. -/
theorem digitsValue_take_natText (n k : ℕ) :
    digitsValue ((natText n).take k) = n / 10 ^ ((natText n).length - k) := by
  by_cases h0 : n = 0
  · subst h0
    cases k with
    | zero => rfl
    | succ k =>
      simp [natText, digitsValue_singleton, digitByte_toNat]
  · rw [natText, if_neg h0, ← List.map_take, List.take_reverse, List.length_map,
      List.length_reverse, digitsValue_reverse_map
        (fun d hd => digits_lt_ten (List.mem_of_mem_drop hd)),
      Nat.self_div_pow_eq_ofDigits_drop _ _ (by norm_num)]

/-- A number with more than `k` digits that is cut to `k + 1` digits is still at least `10 ^ k`. -/
theorem le_digitsValue_take {n k : ℕ} (h : 10 ^ k ≤ n) :
    10 ^ k ≤ digitsValue ((natText n).take (k + 1)) := by
  have hn : n ≠ 0 := fun h0 => by
    subst h0
    exact absurd h (by simp)
  have hlen : (natText n).length = (Nat.digits 10 n).length := by
    rw [natText, if_neg hn]
    simp
  have hk : k < (Nat.digits 10 n).length := (Nat.lt_digits_length_iff (by norm_num) n).mpr h
  have hlow : 10 ^ ((Nat.digits 10 n).length - 1) ≤ n := by
    rw [Nat.length_digits 10 n (by norm_num) hn]
    exact Nat.pow_log_le_self 10 hn
  rw [digitsValue_take_natText, hlen, Nat.le_div_iff_mul_le (by positivity), ← pow_add]
  refine le_trans (Nat.pow_le_pow_right (by norm_num) ?_) hlow
  omega

theorem intText_ne_zero (z : ℤ) : ∀ c ∈ intText z, c ≠ 0 := by
  intro c hc
  rw [intText] at hc
  split_ifs at hc
  · rcases List.mem_cons.mp hc with rfl | hc
    · decide
    · exact ne_zero_of_isDigit (natText_digits _ c hc)
  · exact ne_zero_of_isDigit (natText_digits _ c hc)

theorem intText_of_nonneg {z : ℤ} (h : 0 ≤ z) : intText z = natText z.toNat := by
  rw [intText, if_neg (by omega)]
  congr 1
  omega

theorem intText_of_neg {z : ℤ} (h : z < 0) : intText z = 45 :: natText z.natAbs := by
  rw [intText, if_pos h]

end Dumbos.Foundation
