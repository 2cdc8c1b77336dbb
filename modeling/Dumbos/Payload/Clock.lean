import Dumbos.Payload.Offset

/-! # The system clock and the expire field

`dp_is_expired_compare` is there for callers that do not trust the clock, but the
clock is still read for a field without an absolute time. The time that is then
written stays there, unless it is -1, the reader's mark for no time.
-/
namespace Dumbos.Payload
open Foundation Common

/-- Runs that differ in the system clock alone cannot be told apart. -/
def ClockFree (curTime : ℤ) (p : DumbPayload) : Prop :=
  ∀ now now', dpIsExpiredCompare now curTime p = dpIsExpiredCompare now' curTime p

/-- Two clocks that show the first second with 17 digits, and twice as much, after the offset. -/
theorem dpIsExpiredCompare_twoClocks {p : DumbPayload} (h : dpGetExpire p = -1) (curTime : ℤ) :
    dpIsExpiredCompare (10 ^ 16 - useOffset p) curTime p ≠
      dpIsExpiredCompare (2 * 10 ^ 16 - useOffset p) curTime p := by
  intro hsame
  have hbytes := congrArg (fun r => r.2.expire.val) hsame
  simp only [dpIsExpiredCompare_snd, dpGetExpireOrSet_unset h, firstUse, sub_add_cancel] at hbytes
  revert hbytes
  change (Field.print (EXPIRE_SIZE - 1) (intText (10 ^ 16))).val ≠
    (Field.print (EXPIRE_SIZE - 1) (intText (2 * 10 ^ 16))).val
  decide +kernel

/-- The clock is not read exactly when the field holds an absolute time. -/
theorem dpIsExpiredCompare_clockFree_iff (curTime : ℤ) (p : DumbPayload) :
    ClockFree curTime p ↔ dpGetExpire p ≠ -1 := by
  constructor
  · intro hfree hset
    exact dpIsExpiredCompare_twoClocks hset curTime (hfree _ _)
  · intro habsolute now now'
    rw [dpIsExpiredCompare_absolute habsolute, dpIsExpiredCompare_absolute habsolute]

/-- The default offset, compared with 2000: expired on a clock that shows 1000, not on one that
shows 5000. -/
theorem not_clockFree_default :
    ¬∀ (curTime : ℤ) (p : DumbPayload), ClockFree curTime p := by
  intro h
  have hsame := h 2000 (DumbPayload.unsigned [] (ascii "ok") []) 1000 5000
  have hanswer := congrArg Prod.fst hsame
  revert hanswer
  decide +kernel

/-- `dp_get_expire_or_set` with its one addition in `long long`; `none` is an overflow. -/
def dpGetExpireOrSetChecked (now : ℤ) (p : DumbPayload) : Option (ℤ × DumbPayload) :=
  let expire := dpGetExpire p
  if expire = -1 then
    if p.expire.val.head? = some 58 then
      let p := shiftExpire p
      let expire := dpGetExpire p
      if expire = -1 then do
        let expire ← addLongLong now DEFAULT_EXPIRE_TIME
        return (expire, dpSetExpire p expire)
      else do
        let expire ← addLongLong expire now
        return (expire, dpSetExpire p expire)
    else do
      let expire ← addLongLong now DEFAULT_EXPIRE_TIME
      return (expire, dpSetExpire p expire)
  else some (expire, p)

/-- The call has a value, leaves the rest of the payload alone, and is final. -/
def Settles (now : ℤ) (p : DumbPayload) : Prop :=
  ∃ e q, dpGetExpireOrSetChecked now p = some (e, q) ∧ DumbPayload.SameButExpire p q ∧
    dpGetExpire q = e ∧ ∀ later, now ≤ later → dpGetExpireOrSetChecked later q = some (e, q)

theorem dpGetExpireOrSetChecked_absolute {p : DumbPayload} (h : dpGetExpire p ≠ -1) (now : ℤ) :
    dpGetExpireOrSetChecked now p = some (dpGetExpire p, p) := by
  simp only [dpGetExpireOrSetChecked, if_neg h]

theorem dpGetExpireOrSetChecked_unset {p : DumbPayload} (h : dpGetExpire p = -1) (now : ℤ) :
    dpGetExpireOrSetChecked now p =
      if InLongLong (firstUse now p) then some (firstUse now p, dpSetExpire p (firstUse now p))
      else none := by
  have hadd : ∀ a b : ℤ, ∀ q : DumbPayload, dpSetExpire q (a + b) = dpSetExpire p (a + b) →
      ((addLongLong a b).bind fun e => some (e, dpSetExpire q e)) =
        if InLongLong (a + b) then some (a + b, dpSetExpire p (a + b)) else none := by
    intro a b q hq
    rw [addLongLong]
    split_ifs
    · rw [Option.bind_some, hq]
    · rfl
  simp only [dpGetExpireOrSetChecked, if_pos h, firstUse, useOffset]
  by_cases hcolon : p.expire.val.head? = some 58
  · by_cases hshift : dpGetExpire (shiftExpire p) = -1
    · simp only [hcolon, hshift, if_true, ne_eq, not_true_eq_false, and_false, if_false]
      exact hadd _ _ _ rfl
    · simp only [hcolon, hshift, if_true, ne_eq, not_false_eq_true, and_self, if_false]
      rw [add_comm now]
      exact hadd _ _ _ rfl
  · simp only [hcolon, if_false, false_and]
    exact hadd _ _ _ rfl

section Terminated
variable {p : DumbPayload} {now : ℤ}

theorem useOffset_bounds (hnul : 0 ∈ p.expire.val) :
    -10 ^ 14 < useOffset p ∧ useOffset p < 10 ^ 14 := by
  by_cases hcolon : p.expire.val.head? = some 58
  · rw [useOffset_colon hcolon hnul]
    have hlen := cstr_expire_length hnul
    cases hparse : parseLongLong (cstr p.expire.val).tail with
    | none => norm_num [DEFAULT_EXPIRE_TIME]
    | some v =>
      have := natAbs_lt_of_parseLongLong hparse (k := 14) (by rw [List.length_tail]; omega)
      rw [Option.getD_some, DEFAULT_EXPIRE_TIME]
      split_ifs <;> omega
  · rw [useOffset, if_neg (hcolon ·.1)]
    norm_num [DEFAULT_EXPIRE_TIME]

/-- The offset leads to -1 only from the text of a number that does. -/
theorem firstUse_eq_minusOne_iff (hnul : 0 ∈ p.expire.val) (hnow : 0 ≤ now) :
    dpGetExpire p = -1 ∧ firstUse now p = -1 ↔
      now ≠ 0 ∧ p.expire.val.head? = some 58 ∧
        parseLongLong (cstr p.expire.val).tail = some (-1 - now) := by
  by_cases hcolon : p.expire.val.head? = some 58
  · rw [firstUse, useOffset_colon hcolon hnul, DEFAULT_EXPIRE_TIME]
    simp only [dpGetExpire_colon hcolon, hcolon, true_and]
    cases parseLongLong (cstr p.expire.val).tail with
    | none => simp; omega
    | some v =>
      simp only [Option.getD_some, Option.some.injEq]
      split_ifs <;> omega
  · rw [firstUse, useOffset, if_neg (hcolon ·.1), DEFAULT_EXPIRE_TIME]
    simp only [hcolon, false_and, and_false, iff_false, not_and]
    omega

/-- A time that is written is final, unless it is the reader's mark. -/
theorem dpGetExpireOrSet_settles_iff (hnul : 0 ∈ p.expire.val) (hnow : 0 ≤ now)
    (hclock : now ≤ 10 ^ 12) :
    Settles now p ↔
      ¬(now ≠ 0 ∧ p.expire.val.head? = some 58 ∧
        parseLongLong (cstr p.expire.val).tail = some (-1 - now)) := by
  rw [← firstUse_eq_minusOne_iff hnul hnow]
  by_cases hset : dpGetExpire p = -1
  · have hfirst := dpGetExpireOrSetChecked_unset hset now
    rw [if_pos (firstUse_inLongLong p hnow hclock)] at hfirst
    have hback : dpGetExpire (dpSetExpire p (firstUse now p)) = firstUse now p := by
      have := useOffset_bounds hnul
      apply dpGetExpire_dpSetExpire_fits <;> rw [firstUse] <;> omega
    simp only [hset, true_and]
    constructor
    · rintro ⟨e, q, hcall, -, hget, hlater⟩ hminus
      rw [hfirst, Option.some.injEq, Prod.mk.injEq] at hcall
      obtain ⟨rfl, rfl⟩ := hcall
      -- the second call takes -1 for no time, and moves it to a minute from now
      have hagain := hlater now le_rfl
      rw [dpGetExpireOrSetChecked_unset (hget.trans hminus)] at hagain
      split_ifs at hagain
      rw [Option.some.injEq, Prod.mk.injEq, hminus] at hagain
      have hoffset : useOffset (dpSetExpire p (-1)) = 60 := by
        rw [useOffset, if_neg]
        · rfl
        · rintro ⟨h, -⟩
          revert h
          change (Field.print (EXPIRE_SIZE - 1) (intText (-1))).val.head? ≠ some 58
          decide
      rw [firstUse, hoffset] at hagain
      omega
    · intro hne
      refine ⟨firstUse now p, dpSetExpire p (firstUse now p), hfirst, rfl, hback, ?_⟩
      intro later _
      rw [dpGetExpireOrSetChecked_absolute (hback.trans_ne hne), hback]
  · simp only [hset, false_and, not_false_eq_true, iff_true]
    exact ⟨dpGetExpire p, p, dpGetExpireOrSetChecked_absolute hset now, rfl, rfl,
      fun later _ => dpGetExpireOrSetChecked_absolute hset later⟩

end Terminated

/-- An offset of seven seconds settles. -/
theorem dpGetExpireOrSet_settles_seven :
    Settles 1000 (DumbPayload.unsigned (ascii ":7") (ascii "ok") []) ↔
      ¬((1000 : ℤ) ≠ 0 ∧ (DumbPayload.unsigned (ascii ":7") (ascii "ok") []).expire.val.head? = some 58 ∧
        parseLongLong (cstr (DumbPayload.unsigned (ascii ":7") (ascii "ok") []).expire.val).tail =
          some (-1 - 1000)) :=
  dpGetExpireOrSet_settles_iff (by decide) (by norm_num) (by norm_num)

/-- A field of `:-61` at the time 60. -/
theorem not_settles_minusOne :
    ¬∀ (p : DumbPayload) (now : ℤ), 0 ∈ p.expire.val → 0 ≤ now → now ≤ 10 ^ 12 → Settles now p := by
  intro h
  have hsettles := h (DumbPayload.unsigned (ascii ":-61") (ascii "ok") []) 60 (by decide) (by norm_num)
    (by norm_num)
  obtain ⟨e, q, hcall, -, -, hlater⟩ := hsettles
  have hfirst : dpGetExpireOrSetChecked 60 (DumbPayload.unsigned (ascii ":-61") (ascii "ok") []) =
      some (-1, dpSetExpire (DumbPayload.unsigned (ascii ":-61") (ascii "ok") []) (-1)) := by
    decide +kernel
  rw [hfirst, Option.some.injEq, Prod.mk.injEq] at hcall
  obtain ⟨rfl, rfl⟩ := hcall
  have hagain := congrArg (Option.map Prod.fst) (hlater 60 le_rfl)
  revert hagain
  decide +kernel

end Dumbos.Payload
