import Dumbos.Foundation.Decimal

/-! # `strtoll` and `parse_long_long`

All expiry and freshness decisions read their numbers with `parse_long_long`.
The texts it accepts are exactly the numerals below: white space, an optional
sign, digits, white space, with a value that a `long long` can hold.
-/
namespace Dumbos.Common
open Foundation

def LLONG_MAX : ℤ := 9223372036854775807
def LLONG_MIN : ℤ := -9223372036854775808

abbrev InLongLong (z : ℤ) : Prop := LLONG_MIN ≤ z ∧ z ≤ LLONG_MAX

/-- The sum of two `long long`s; an overflow has no defined value. -/
def addLongLong (a b : ℤ) : Option ℤ := if InLongLong (a + b) then some (a + b) else none

/-- `isspace` in the C locale. -/
def isspace (c : UInt8) : Bool := c == 32 || (9 ≤ c && c ≤ 13)

/-- The minus or plus sign in front of a number, and what follows it. -/
def splitSign : Bytes → Bool × Bytes
  | [] => (false, [])
  | c :: s => if c = 45 then (true, s) else if c = 43 then (false, s) else (false, c :: s)

/-- What `strtoll(str, &end, 10)` leaves: its value, `end - str`, and whether `errno` is `ERANGE`. -/
structure Strtoll where
  value : ℤ
  stop : ℕ
  erange : Bool

def strtoll (str : Bytes) : Strtoll :=
  let (neg, s) := splitSign (str.dropWhile isspace)
  let ds := s.takeWhile isDigit
  let stop := str.length - (s.dropWhile isDigit).length
  let v : ℤ := if neg then -digitsValue ds else digitsValue ds
  if ds = [] then ⟨0, 0, false⟩
  else if LLONG_MAX < v then ⟨LLONG_MAX, stop, true⟩
  else if v < LLONG_MIN then ⟨LLONG_MIN, stop, true⟩
  else ⟨v, stop, false⟩

/-- `none` is the return value -1, with `*ret` not written. -/
def parseLongLong (str : Bytes) : Option ℤ :=
  let r := strtoll str
  if r.stop = 0 then none
  else if !(str.drop r.stop).all isspace then none
  else if r.erange then none
  else some r.value

/-- A text that denotes an integer, in the parts it is made of. -/
structure Numeral where
  lead : Bytes
  sign : Bytes
  digits : Bytes
  trail : Bytes
  lead_space : ∀ c ∈ lead, isspace c
  sign_eq : sign = [] ∨ sign = [43] ∨ sign = [45]
  digits_ne : digits ≠ []
  digits_digit : ∀ c ∈ digits, isDigit c
  trail_space : ∀ c ∈ trail, isspace c

namespace Numeral

def text (n : Numeral) : Bytes := n.lead ++ (n.sign ++ (n.digits ++ n.trail))

def value (n : Numeral) : ℤ :=
  if n.sign = [45] then -digitsValue n.digits else digitsValue n.digits

theorem natAbs_value (n : Numeral) : n.value.natAbs = digitsValue n.digits := by
  rw [value]
  split_ifs <;> simp

theorem digits_length_le (n : Numeral) : n.digits.length ≤ n.text.length := by
  simp only [text, List.length_append]
  omega

/-- A short text denotes a small number. -/
theorem natAbs_value_lt (n : Numeral) {k : ℕ} (hk : n.text.length ≤ k) :
    n.value.natAbs < 10 ^ k := by
  rw [n.natAbs_value]
  exact digitsValue_lt_of_length_le n.digits_digit (n.digits_length_le.trans hk)

end Numeral

theorem isspace_iff (c : UInt8) : isspace c ↔ c.toNat = 32 ∨ 9 ≤ c.toNat ∧ c.toNat ≤ 13 := by
  simp [isspace, UInt8.le_iff_toNat_le, ← UInt8.toNat_inj]

theorem not_isDigit_of_isspace {c : UInt8} (h : isspace c) : isDigit c = false := by
  rw [isspace_iff] at h
  rw [← Bool.not_eq_true, isDigit_iff]
  omega

theorem not_isspace_of_isDigit {c : UInt8} (h : isDigit c) : isspace c = false := by
  rw [isDigit_iff] at h
  rw [← Bool.not_eq_true, isspace_iff]
  omega

/-- In front of digits the sign that is split off is the sign that stands there. -/
theorem splitSign_append {sign ds : Bytes} (hsign : sign = [] ∨ sign = [43] ∨ sign = [45])
    (hne : ds ≠ []) (hd : ∀ c ∈ ds, isDigit c) (s : Bytes) :
    splitSign (sign ++ (ds ++ s)) = (decide (sign = [45]), ds ++ s) := by
  rcases hsign with rfl | rfl | rfl
  · cases ds with
    | nil => exact absurd rfl hne
    | cons c ds =>
      have hc : isDigit c := hd c List.mem_cons_self
      have h45 : c ≠ 45 := by rintro rfl; simp [isDigit] at hc
      have h43 : c ≠ 43 := by rintro rfl; simp [isDigit] at hc
      simp [splitSign, h45, h43]
  · simp [splitSign]
  · simp [splitSign]

/-- Any text starts with the sign that is split off. -/
theorem splitSign_spec (s : Bytes) :
    ∃ sign, (sign = [] ∨ sign = [43] ∨ sign = [45]) ∧ s = sign ++ (splitSign s).2 := by
  cases s with
  | nil => exact ⟨[], by simp, rfl⟩
  | cons c s =>
    by_cases h45 : c = 45
    · exact ⟨[45], by simp, by simp [splitSign, h45]⟩
    · by_cases h43 : c = 43
      · exact ⟨[43], by simp, by simp [splitSign, h43]⟩
      · exact ⟨[], by simp, by simp [splitSign, h45, h43]⟩

theorem dropWhile_append_of_all {p : UInt8 → Bool} {a b : Bytes} (ha : ∀ c ∈ a, p c)
    (hb : ∀ c, b.head? = some c → p c = false) : (a ++ b).dropWhile p = b := by
  rw [List.dropWhile_append, List.dropWhile_eq_nil_iff.mpr ha]
  cases b with
  | nil => rfl
  | cons c b => simp [hb c rfl]

theorem takeWhile_append_of_all {p : UInt8 → Bool} {a b : Bytes} (ha : ∀ c ∈ a, p c)
    (hb : ∀ c, b.head? = some c → p c = false) : (a ++ b).takeWhile p = a := by
  rw [List.takeWhile_append_of_pos ha]
  cases b with
  | nil => simp
  | cons c b => simp [hb c rfl]

/-- The scan of a text whose parts behind the white space are known. -/
theorem strtoll_of_parts {str sign ds rest : Bytes} {v : ℤ}
    (hstr : str.dropWhile isspace = sign ++ (ds ++ rest))
    (hsign : sign = [] ∨ sign = [43] ∨ sign = [45]) (hne : ds ≠ []) (hd : ∀ c ∈ ds, isDigit c)
    (hrest : ∀ c, rest.head? = some c → isDigit c = false)
    (hv : v = if sign = [45] then -(digitsValue ds : ℤ) else digitsValue ds) :
    strtoll str =
      if LLONG_MAX < v then ⟨LLONG_MAX, str.length - rest.length, true⟩
      else if v < LLONG_MIN then ⟨LLONG_MIN, str.length - rest.length, true⟩
      else ⟨v, str.length - rest.length, false⟩ := by
  have htake := takeWhile_append_of_all hd hrest
  have hdrop := dropWhile_append_of_all hd hrest
  simp only [strtoll, hstr, splitSign_append hsign hne hd, htake, hdrop, if_neg hne,
    decide_eq_true_eq, ← hv]

namespace Numeral

theorem eq_of_mem_sign (n : Numeral) {c : UInt8} (h : c ∈ n.sign) : c = 43 ∨ c = 45 := by
  rcases n.sign_eq with hs | hs | hs
  · simp [hs] at h
  · exact Or.inl (by simpa [hs] using h)
  · exact Or.inr (by simpa [hs] using h)

theorem head_digits_trail (n : Numeral) :
    ∃ c, (n.digits ++ n.trail).head? = some c ∧ isDigit c := by
  cases hd : n.digits with
  | nil => exact absurd hd n.digits_ne
  | cons c ds => exact ⟨c, rfl, n.digits_digit c (by simp [hd])⟩

theorem head_trail (n : Numeral) (c : UInt8) (h : n.trail.head? = some c) : isDigit c = false :=
  not_isDigit_of_isspace (n.trail_space c (List.mem_of_head? h))

/-- Behind the white space stands a sign or a digit. -/
theorem head_unspaced (n : Numeral) :
    ∃ c, (n.sign ++ (n.digits ++ n.trail)).head? = some c ∧ (c = 43 ∨ c = 45 ∨ isDigit c) := by
  rcases n.sign_eq with hs | hs | hs
  · obtain ⟨c, hc, hd⟩ := n.head_digits_trail
    exact ⟨c, by rw [hs, List.nil_append, hc], Or.inr (Or.inr hd)⟩
  · exact ⟨43, by rw [hs]; rfl, Or.inl rfl⟩
  · exact ⟨45, by rw [hs]; rfl, Or.inr (Or.inl rfl)⟩

theorem dropWhile_text (n : Numeral) :
    n.text.dropWhile isspace = n.sign ++ (n.digits ++ n.trail) := by
  apply dropWhile_append_of_all n.lead_space
  intro c hc
  obtain ⟨d, hd, hcase⟩ := n.head_unspaced
  rw [hc, Option.some.injEq] at hd
  subst hd
  rcases hcase with rfl | rfl | hdig
  · decide
  · decide
  · exact not_isspace_of_isDigit hdig

theorem splitSign_text (n : Numeral) :
    splitSign (n.sign ++ (n.digits ++ n.trail)) = (decide (n.sign = [45]), n.digits ++ n.trail) :=
  splitSign_append n.sign_eq n.digits_ne n.digits_digit n.trail

theorem drop_text (n : Numeral) : n.text.drop (n.text.length - n.trail.length) = n.trail := by
  have hl : n.text.length - n.trail.length = (n.lead ++ n.sign ++ n.digits).length := by
    simp only [text, List.length_append]
    omega
  rw [hl, text, ← List.append_assoc, ← List.append_assoc, List.drop_left]

theorem stop_pos (n : Numeral) : n.text.length - n.trail.length ≠ 0 := by
  have hpos : 0 < n.digits.length := List.length_pos_iff.mpr n.digits_ne
  simp only [text, List.length_append]
  omega

theorem strtoll_text (n : Numeral) :
    strtoll n.text =
      if LLONG_MAX < n.value then ⟨LLONG_MAX, n.text.length - n.trail.length, true⟩
      else if n.value < LLONG_MIN then ⟨LLONG_MIN, n.text.length - n.trail.length, true⟩
      else ⟨n.value, n.text.length - n.trail.length, false⟩ :=
  strtoll_of_parts n.dropWhile_text n.sign_eq n.digits_ne n.digits_digit n.head_trail rfl

theorem parseLongLong_text (n : Numeral) :
    parseLongLong n.text = if InLongLong n.value then some n.value else none := by
  have htrail : n.trail.all isspace = true := List.all_eq_true.mpr n.trail_space
  rw [parseLongLong, strtoll_text]
  by_cases hmax : LLONG_MAX < n.value
  · simp [hmax, n.stop_pos, drop_text, htrail]
  · by_cases hmin : n.value < LLONG_MIN
    · simp [hmax, hmin, n.stop_pos, drop_text, htrail]
    · simp [hmax, hmin, n.stop_pos, drop_text, htrail, not_lt.mp hmax, not_lt.mp hmin]

/-- No number of eighteen bytes is out of range. -/
theorem parseLongLong_short (n : Numeral) (h : n.text.length ≤ 18) :
    parseLongLong n.text = some n.value := by
  have hsize := n.natAbs_value_lt h
  rw [parseLongLong_text, if_pos]
  rw [InLongLong, LLONG_MIN, LLONG_MAX]
  omega

end Numeral

/-- Every accepted text is a numeral: the parts are those that the scan passes over. -/
theorem exists_numeral_of_parseLongLong {str : Bytes} {v : ℤ} (h : parseLongLong str = some v) :
    ∃ n : Numeral, n.text = str := by
  obtain ⟨sign, hsign, hs⟩ := splitSign_spec (str.dropWhile isspace)
  generalize hrest : (splitSign (str.dropWhile isspace)).2 = s at hs
  have hstr : str = str.takeWhile isspace ++ (sign ++ (s.takeWhile isDigit ++ s.dropWhile isDigit)) := by
    rw [List.takeWhile_append_dropWhile, ← hs, List.takeWhile_append_dropWhile]
  have hds : s.takeWhile isDigit ≠ [] := by
    intro hnil
    simp [parseLongLong, strtoll, hrest, hnil] at h
  have htrail : (s.dropWhile isDigit).all isspace := by
    have hdrop : str.drop (str.length - (s.dropWhile isDigit).length) = s.dropWhile isDigit := by
      generalize s.dropWhile isDigit = t at hstr
      rw [hstr, ← List.append_assoc, ← List.append_assoc, List.length_append, Nat.add_sub_cancel,
        List.drop_left]
    by_contra hsp
    have hstop : (strtoll str).stop = str.length - (s.dropWhile isDigit).length := by
      simp only [strtoll, hrest, if_neg hds]
      split_ifs <;> rfl
    rw [Bool.not_eq_true] at hsp
    simp only [parseLongLong, hstop, hdrop, hsp, Bool.not_false, if_true, ite_self] at h
    cases h
  exact ⟨⟨str.takeWhile isspace, sign, s.takeWhile isDigit, s.dropWhile isDigit,
    fun c hc => List.mem_takeWhile_imp hc, hsign, hds, fun c hc => List.mem_takeWhile_imp hc,
    List.all_eq_true.mp htrail⟩, hstr.symm⟩

/-- `parse_long_long` accepts exactly the numerals in range, with their value. -/
theorem parseLongLong_eq_some_iff {str : Bytes} {v : ℤ} :
    parseLongLong str = some v ↔ ∃ n : Numeral, n.text = str ∧ n.value = v ∧ InLongLong v := by
  constructor
  · intro h
    obtain ⟨n, rfl⟩ := exists_numeral_of_parseLongLong h
    rw [n.parseLongLong_text] at h
    split_ifs at h with hr
    rw [Option.some.injEq] at h
    exact ⟨n, rfl, h, h ▸ hr⟩
  · rintro ⟨n, rfl, rfl, hr⟩
    rw [n.parseLongLong_text, if_pos hr]

/-- A digit string whose value is in range parses to it. -/
theorem parseLongLong_digits {ds : Bytes} (hne : ds ≠ []) (hd : ∀ c ∈ ds, isDigit c)
    (hr : (digitsValue ds : ℤ) ≤ LLONG_MAX) : parseLongLong ds = some (digitsValue ds : ℤ) := by
  refine parseLongLong_eq_some_iff.mpr
    ⟨⟨[], [], ds, [], by simp, by simp, hne, hd, by simp⟩, by simp [Numeral.text], rfl, ?_, hr⟩
  have : (0 : ℤ) ≤ digitsValue ds := Int.natCast_nonneg _
  rw [LLONG_MIN]
  omega

/-- Reading undoes printing. -/
theorem parseLongLong_intText {z : ℤ} (h : InLongLong z) : parseLongLong (intText z) = some z := by
  refine parseLongLong_eq_some_iff.mpr ⟨⟨[], if z < 0 then [45] else [], natText z.natAbs, [],
    by simp, by split_ifs <;> simp, natText_ne_nil _, natText_digits _, by simp⟩, ?_, ?_, h⟩
  · rw [intText]
    split_ifs <;> simp [Numeral.text]
  · by_cases hz : z < 0
    · simp only [Numeral.value, hz, if_true, digitsValue_natText]
      omega
    · simp only [Numeral.value, hz, if_false, digitsValue_natText]
      simp
      omega

theorem natAbs_lt_of_parseLongLong {str : Bytes} {v : ℤ} (h : parseLongLong str = some v) {k : ℕ}
    (hk : str.length ≤ k) : v.natAbs < 10 ^ k := by
  obtain ⟨n, rfl, rfl, -⟩ := parseLongLong_eq_some_iff.mp h
  exact n.natAbs_value_lt hk

end Dumbos.Common
