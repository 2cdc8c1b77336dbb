import Dumbos.Payload.Layout

/-! # The expire field

An absolute time, an offset behind `:` that starts to run with the first use, or
anything else, which stands for the default offset. `-1` is the in-band error of
the reader, so the text of -1 is read as no number. `firstUse` is the time that
replaces a text of the last two kinds.
-/
namespace Dumbos.Payload
open Foundation Common

def DEFAULT_EXPIRE_TIME : ℤ := 60

def dpSetExpire (p : DumbPayload) (expire : ℤ) : DumbPayload :=
  { p with expire := Field.print (EXPIRE_SIZE - 1) (intText expire) }

def dpGetExpire (p : DumbPayload) : ℤ :=
  match parseLongLong (cstr (p.expire.val ++ [0])) with
  | none => -1
  | some expire => expire

/-- `memmove(expire, expire + 1, EXPIRE_SIZE - 1)`: the last byte stays where it is. -/
def shiftExpire (p : DumbPayload) : DumbPayload :=
  { p with expire := ⟨p.expire.val.drop 1 ++ p.expire.val.drop 15, by
      simp [p.expire.property]⟩ }

/-- `now` is the value of `time(NULL)`, which is read at most once. -/
def dpGetExpireOrSet (now : ℤ) (p : DumbPayload) : ℤ × DumbPayload :=
  let expire := dpGetExpire p
  if expire = -1 then
    if p.expire.val.head? = some 58 then
      let p := shiftExpire p
      let expire := dpGetExpire p
      let expire := if expire = -1 then now + DEFAULT_EXPIRE_TIME else expire + now
      (expire, dpSetExpire p expire)
    else
      let expire := now + DEFAULT_EXPIRE_TIME
      (expire, dpSetExpire p expire)
  else (expire, p)

def dpIsExpired (now : ℤ) (p : DumbPayload) : Bool × DumbPayload :=
  let (expire, p) := dpGetExpireOrSet now p
  (if expire = 0 then false else decide (expire ≤ now), p)

/-- The system clock `now` is still read when the field holds no time. -/
def dpIsExpiredCompare (now curTime : ℤ) (p : DumbPayload) : Bool × DumbPayload :=
  let (expire, p) := dpGetExpireOrSet now p
  (if expire = 0 then false else decide (expire ≤ curTime), p)

/-- The number of seconds a payload without an absolute time stays valid after its first use. -/
def useOffset (p : DumbPayload) : ℤ :=
  if p.expire.val.head? = some 58 ∧ dpGetExpire (shiftExpire p) ≠ -1 then
    dpGetExpire (shiftExpire p)
  else DEFAULT_EXPIRE_TIME

def firstUse (now : ℤ) (p : DumbPayload) : ℤ := now + useOffset p

@[simp] theorem dpSetExpire_shiftExpire (p : DumbPayload) (e : ℤ) :
    dpSetExpire (shiftExpire p) e = dpSetExpire p e := rfl

@[simp] theorem dpSetExpire_expire_congr (p q : DumbPayload) (e : ℤ) :
    (dpSetExpire p e).expire = (dpSetExpire q e).expire := rfl

theorem dpGetExpire_congr {p q : DumbPayload} (h : p.expire = q.expire) :
    dpGetExpire p = dpGetExpire q := by
  rw [dpGetExpire, dpGetExpire, h]

/-- An absolute time is returned and left alone. -/
theorem dpGetExpireOrSet_absolute {p : DumbPayload} (h : dpGetExpire p ≠ -1) (now : ℤ) :
    dpGetExpireOrSet now p = (dpGetExpire p, p) := by
  simp only [dpGetExpireOrSet, if_neg h]

/-- Every other text is replaced by the time of first use. -/
theorem dpGetExpireOrSet_unset {p : DumbPayload} (h : dpGetExpire p = -1) (now : ℤ) :
    dpGetExpireOrSet now p = (firstUse now p, dpSetExpire p (firstUse now p)) := by
  simp only [dpGetExpireOrSet, if_pos h, firstUse, useOffset]
  by_cases hcolon : p.expire.val.head? = some 58
  · by_cases hshift : dpGetExpire (shiftExpire p) = -1
    · simp [hcolon, hshift]
    · simp [hcolon, hshift, add_comm]
  · simp [hcolon]

/-- The reader touches nothing but the expire field. -/
theorem dpGetExpireOrSet_frame (now : ℤ) (p : DumbPayload) :
    { p with expire := (dpGetExpireOrSet now p).2.expire } = (dpGetExpireOrSet now p).2 := by
  by_cases h : dpGetExpire p = -1
  · rw [dpGetExpireOrSet_unset h]
    rfl
  · rw [dpGetExpireOrSet_absolute h]

/-- A time that is there to stay: the check only compares. -/
theorem dpIsExpiredCompare_absolute {p : DumbPayload} (h : dpGetExpire p ≠ -1) (now curTime : ℤ) :
    dpIsExpiredCompare now curTime p =
      (decide (dpGetExpire p ≠ 0 ∧ dpGetExpire p ≤ curTime), p) := by
  rw [dpIsExpiredCompare, dpGetExpireOrSet_absolute h]
  by_cases h0 : dpGetExpire p = 0 <;> simp [h0]

theorem dpIsExpired_eq_compare (now : ℤ) (p : DumbPayload) :
    dpIsExpired now p = dpIsExpiredCompare now now p := rfl

theorem dpIsExpiredCompare_snd (now curTime : ℤ) (p : DumbPayload) :
    (dpIsExpiredCompare now curTime p).2 = (dpGetExpireOrSet now p).2 := rfl

section Frame
variable (now curTime : ℤ) (p : DumbPayload)

@[simp] theorem dpIsExpiredCompare_signature :
    (dpIsExpiredCompare now curTime p).2.signature = p.signature := by
  rw [dpIsExpiredCompare_snd, ← dpGetExpireOrSet_frame]

@[simp] theorem dpIsExpiredCompare_command :
    (dpIsExpiredCompare now curTime p).2.command = p.command := by
  rw [dpIsExpiredCompare_snd, ← dpGetExpireOrSet_frame]

@[simp] theorem dpIsExpiredCompare_dataSize :
    (dpIsExpiredCompare now curTime p).2.dataSize = p.dataSize := by
  rw [dpIsExpiredCompare_snd, ← dpGetExpireOrSet_frame]

@[simp] theorem dpIsExpiredCompare_payload :
    (dpIsExpiredCompare now curTime p).2.payload = p.payload := by
  rw [dpIsExpiredCompare_snd, ← dpGetExpireOrSet_frame]

@[simp] theorem dpIsExpiredCompare_toBytes_length :
    (dpIsExpiredCompare now curTime p).2.toBytes.length = p.toBytes.length := by
  simp only [DumbPayload.toBytes_length, dpIsExpiredCompare_payload]

end Frame

theorem dpIsExpiredCompare_eq_false_iff (now curTime : ℤ) (p : DumbPayload) :
    (dpIsExpiredCompare now curTime p).1 = false ↔
      (dpGetExpireOrSet now p).1 = 0 ∨ curTime < (dpGetExpireOrSet now p).1 := by
  simp only [dpIsExpiredCompare]
  by_cases h : (dpGetExpireOrSet now p).1 = 0 <;> simp [h]

section Written
variable (p : DumbPayload)

/-- What a number that was written to the field is read back as: its text, cut to 15 bytes. -/
theorem dpGetExpire_dpSetExpire (z : ℤ) :
    dpGetExpire (dpSetExpire p z) = (parseLongLong ((intText z).take 15)).getD (-1) := by
  have hcstr : cstr ((dpSetExpire p z).expire.val ++ [0]) = (intText z).take 15 := by
    rw [cstr_append_singleton_zero]
    exact Field.cstr_print 15 (intText_ne_zero z)
  rw [dpGetExpire, hcstr]
  cases parseLongLong ((intText z).take 15) <;> rfl

private theorem parseLongLong_cut {n k : ℕ} (hk : 0 < k) (hk' : k ≤ 15) :
    parseLongLong ((natText n).take k) = some (digitsValue ((natText n).take k) : ℤ) := by
  have hdig : ∀ c ∈ (natText n).take k, isDigit c :=
    fun c hc => natText_digits n c (List.mem_of_mem_take hc)
  apply parseLongLong_digits _ hdig
  · have hlt := digitsValue_lt_of_length_le hdig ((List.length_take_le k _).trans hk')
    rw [LLONG_MAX]
    omega
  · intro hnil
    rcases List.take_eq_nil_iff.mp hnil with h | h
    · omega
    · exact natText_ne_nil n h

/-- A time of at most 15 digits is read back as it was written. -/
theorem dpGetExpire_dpSetExpire_eq {z : ℤ} (h₀ : 0 ≤ z) (h : z < 10 ^ 15) :
    dpGetExpire (dpSetExpire p z) = z := by
  have hlen : (natText z.toNat).length ≤ 15 := natText_length_le (by norm_num) (by omega)
  have htake : (natText z.toNat).take 15 = natText z.toNat := List.take_of_length_le hlen
  have hparse := parseLongLong_cut (n := z.toNat) (k := 15) (by norm_num) le_rfl
  rw [htake, digitsValue_natText] at hparse
  rw [dpGetExpire_dpSetExpire, intText_of_nonneg h₀, htake, hparse]
  exact Int.toNat_of_nonneg h₀

/-- A longer one is cut, and stays a 15-digit number. -/
theorem dpGetExpire_dpSetExpire_long {z : ℤ} (h : 10 ^ 15 ≤ z) :
    10 ^ 14 ≤ dpGetExpire (dpSetExpire p z) := by
  rw [dpGetExpire_dpSetExpire, intText_of_nonneg (le_trans (by norm_num) h),
    parseLongLong_cut (by norm_num) le_rfl, Option.getD_some]
  exact_mod_cast le_digitsValue_take (n := z.toNat) (k := 14) (by omega)

/-- A negative time is cut behind fourteen digits. -/
theorem dpGetExpire_dpSetExpire_neg {z : ℤ} (h : z < 0) :
    dpGetExpire (dpSetExpire p z) = -(digitsValue ((natText z.natAbs).take 14) : ℤ) := by
  have hcut : (intText z).take 15 = 45 :: (natText z.natAbs).take 14 := by
    rw [intText_of_neg h]
    rfl
  have hdig : ∀ c ∈ (natText z.natAbs).take 14, isDigit c :=
    fun c hc => natText_digits _ c (List.mem_of_mem_take hc)
  have hne : (natText z.natAbs).take 14 ≠ [] := by
    intro hnil
    rcases List.take_eq_nil_iff.mp hnil with h | h
    · omega
    · exact natText_ne_nil _ h
  have hlt := digitsValue_lt_of_length_le hdig (List.length_take_le 14 _)
  have hparse : parseLongLong (45 :: (natText z.natAbs).take 14) =
      some (-(digitsValue ((natText z.natAbs).take 14) : ℤ)) := by
    refine parseLongLong_eq_some_iff.mpr ⟨⟨[], [45], (natText z.natAbs).take 14, [], by simp, by simp,
      hne, hdig, by simp⟩, by simp [Numeral.text], by simp [Numeral.value], ?_, ?_⟩
    · rw [LLONG_MIN]
      omega
    · rw [LLONG_MAX]
      omega
  rw [dpGetExpire_dpSetExpire, hcut, hparse, Option.getD_some]

/-- A time that fits in the field is read back as it was written. -/
theorem dpGetExpire_dpSetExpire_fits {z : ℤ} (hlow : -10 ^ 14 < z) (h : z < 10 ^ 15) :
    dpGetExpire (dpSetExpire p z) = z := by
  rcases lt_or_ge z 0 with hneg | hpos
  · have hlen : (natText z.natAbs).length ≤ 14 := natText_length_le (by norm_num) (by omega)
    rw [dpGetExpire_dpSetExpire_neg p hneg, List.take_of_length_le hlen, digitsValue_natText]
    omega
  · exact dpGetExpire_dpSetExpire_eq p hpos h

/-- It loses digits only, so it is not read back as an earlier one. -/
theorem le_dpGetExpire_dpSetExpire_neg {z : ℤ} (h : z < 0) :
    z ≤ dpGetExpire (dpSetExpire p z) := by
  have hle : digitsValue ((natText z.natAbs).take 14) ≤ z.natAbs := by
    rw [digitsValue_take_natText]
    exact Nat.div_le_self _ _
  rw [dpGetExpire_dpSetExpire_neg p h]
  omega

/-- Whatever is written, the field does not hold an earlier time than the 15 digits allow. -/
theorem min_le_dpGetExpire_dpSetExpire (z : ℤ) :
    min z (10 ^ 14) ≤ dpGetExpire (dpSetExpire p z) := by
  rcases lt_or_ge z 0 with hneg | hpos
  · exact (min_le_left _ _).trans (le_dpGetExpire_dpSetExpire_neg p hneg)
  · rcases lt_or_ge z (10 ^ 15) with hshort | hlong
    · rw [dpGetExpire_dpSetExpire_eq p hpos hshort]
      exact min_le_left _ _
    · exact (min_le_right _ _).trans (dpGetExpire_dpSetExpire_long p hlong)

/-- No time but -1 is read back as -1. -/
theorem eq_of_dpGetExpire_dpSetExpire {z : ℤ} (h : dpGetExpire (dpSetExpire p z) = -1) : z = -1 := by
  have hmin := min_le_dpGetExpire_dpSetExpire p z
  have hneg : z < 0 := by omega
  rw [dpGetExpire_dpSetExpire_neg p hneg] at h
  rcases le_or_gt (10 ^ 13) z.natAbs with hlong | hshort
  · have hbig : 10 ^ 13 ≤ digitsValue ((natText z.natAbs).take 14) := le_digitsValue_take hlong
    omega
  · rw [← dpGetExpire_dpSetExpire_neg p hneg, dpGetExpire_dpSetExpire_fits p (by omega) (by omega)] at h
    exact h

/-- A payload that passed the check holds a time that the caller's clock has not reached. A time of
first use of more than 15 digits is cut, which the check does not see. -/
theorem lt_or_cut_of_not_expired {now curTime : ℤ}
    (h : (dpIsExpiredCompare now curTime p).1 = false) :
    dpGetExpire (dpIsExpiredCompare now curTime p).2 = 0 ∨
      curTime < dpGetExpire (dpIsExpiredCompare now curTime p).2 ∨
      dpGetExpire p = -1 ∧ 10 ^ 14 ≤ dpGetExpire (dpIsExpiredCompare now curTime p).2 := by
  rw [dpIsExpiredCompare_eq_false_iff] at h
  rw [dpIsExpiredCompare_snd]
  by_cases hset : dpGetExpire p = -1
  · rw [dpGetExpireOrSet_unset hset] at h ⊢
    rcases h with h | h
    · left
      simp only at h ⊢
      rw [h, dpGetExpire_dpSetExpire_eq p le_rfl (by norm_num)]
    · right
      have hmin := min_le_dpGetExpire_dpSetExpire p (firstUse now p)
      simp only at h ⊢
      omega
  · rw [dpGetExpireOrSet_absolute hset] at h ⊢
    exact h.imp_right Or.inl

theorem lt_dpGetExpire_of_not_expired {now curTime : ℤ}
    (h : (dpIsExpiredCompare now curTime p).1 = false) :
    dpGetExpire (dpIsExpiredCompare now curTime p).2 = 0 ∨
      min curTime (10 ^ 14 - 1) < dpGetExpire (dpIsExpiredCompare now curTime p).2 := by
  have hahead := lt_or_cut_of_not_expired p h
  omega

theorem useOffset_natAbs_lt : (useOffset p).natAbs < 10 ^ 16 := by
  rw [useOffset]
  split_ifs with h
  · rw [dpGetExpire, cstr_append_singleton_zero]
    have hlen : (cstr (shiftExpire p).expire.val).length ≤ 16 :=
      (cstr_length_le _).trans (shiftExpire p).expire.property.le
    cases hparse : parseLongLong (cstr (shiftExpire p).expire.val) with
    | none => norm_num
    | some v => exact natAbs_lt_of_parseLongLong hparse hlen
  · norm_num [DEFAULT_EXPIRE_TIME]

end Written

/-- The first use finds the text that it would write. -/
def FindsMinusOne (now : ℤ) (p : DumbPayload) : Prop :=
  now + DEFAULT_EXPIRE_TIME = -1 ∧ p.expire = Field.print (EXPIRE_SIZE - 1) (ascii "-1")

/-- The time of first use is what the field held before on a clock of 61 seconds before zero only. -/
theorem dpSetExpire_firstUse_eq_iff {p : DumbPayload} (hset : dpGetExpire p = -1) (now : ℤ) :
    dpSetExpire p (firstUse now p) = p ↔ FindsMinusOne now p := by
  have hminus : intText (-1) = ascii "-1" := by decide
  have hoffset : p.expire = Field.print (EXPIRE_SIZE - 1) (ascii "-1") →
      useOffset p = DEFAULT_EXPIRE_TIME := by
    intro hexpire
    rw [useOffset, if_neg]
    rw [hexpire]
    exact fun h => absurd h.1 (by decide)
  constructor
  · intro h
    have hget := dpGetExpire_congr (congrArg DumbPayload.expire h)
    have hfirst := eq_of_dpGetExpire_dpSetExpire p (hget.trans hset)
    have hexpire : p.expire = Field.print (EXPIRE_SIZE - 1) (ascii "-1") := by
      rw [← hminus, ← hfirst]
      exact (congrArg DumbPayload.expire h).symm
    exact ⟨by rw [← hfirst, firstUse, hoffset hexpire], hexpire⟩
  · rintro ⟨hnow, hexpire⟩
    rw [firstUse, hoffset hexpire, hnow, dpSetExpire, hminus, ← hexpire]

/-- For every clock below 10^12 the sum of `dp_get_expire_or_set` fits in a `long long`. -/
theorem firstUse_inLongLong (p : DumbPayload) {now : ℤ} (h₀ : 0 ≤ now) (h : now ≤ 10 ^ 12) :
    InLongLong (firstUse now p) := by
  have := useOffset_natAbs_lt p
  rw [InLongLong, LLONG_MIN, LLONG_MAX, firstUse]
  omega

end Dumbos.Payload
