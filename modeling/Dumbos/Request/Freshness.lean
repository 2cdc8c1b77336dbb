import Dumbos.Request.Signing

/-! # How long a signed request stays fresh

The time of a request is text of the client. It goes through `parse_long_long`
into a sum of `long long`s, which the last minute before `LLONG_MAX` overflows.
-/
namespace Dumbos.Request
open Foundation Common Payload

variable (E : Ed25519)

/-- `request_id_verify` with its sum in `long long`; `none` is an overflow. -/
def requestIdVerifyChecked (now : ℤ) (user requestId requestTimeStr signature pubKeyHex : Bytes) :
    Option (Except Errno Unit) :=
  match E.verifyHex pubKeyHex (requestMessage user requestId requestTimeStr) signature with
  | .error err => some (.error err)
  | .ok () => match parseLongLong requestTimeStr with
    | none => some (.error EINVAL)
    | some requestTime => do
      let validUntil ← addLongLong requestTime DEFAULT_EXPIRE_TIME
      return if validUntil < now then .error EKEYEXPIRED else .ok ()

/-- The sum of the time and the minute that a request is good for overflows. -/
def Overflows (requestTimeStr : Bytes) : Prop :=
  ∃ t, parseLongLong requestTimeStr = some t ∧ LLONG_MAX < t + DEFAULT_EXPIRE_TIME

/-- The call has a value, and it is 0 exactly for a number that is not older than a minute. -/
def FreshnessExact (now : ℤ) (user requestId requestTimeStr signature pubKeyHex : Bytes) : Prop :=
  ∃ r, requestIdVerifyChecked E now user requestId requestTimeStr signature pubKeyHex = some r ∧
    (r = .ok () ↔ ∃ n : Numeral, n.text = requestTimeStr ∧ InLongLong n.value ∧
      now ≤ n.value + DEFAULT_EXPIRE_TIME)

variable {E} {now : ℤ} {user id time signature key : Bytes}

theorem addLongLong_expire {t : ℤ} (h : parseLongLong time = some t) :
    addLongLong t DEFAULT_EXPIRE_TIME =
      if LLONG_MAX < t + DEFAULT_EXPIRE_TIME then none else some (t + DEFAULT_EXPIRE_TIME) := by
  obtain ⟨-, -, -, hlow, -⟩ := parseLongLong_eq_some_iff.mp h
  by_cases hhigh : LLONG_MAX < t + DEFAULT_EXPIRE_TIME
  · rw [if_pos hhigh, addLongLong, if_neg]
    exact fun hrange => absurd hrange.2 (not_le.mpr hhigh)
  · rw [if_neg hhigh, addLongLong, if_pos]
    exact ⟨hlow.trans (le_add_of_nonneg_right (by decide)), not_lt.mp hhigh⟩

/-- Without an overflow the sum is the one of the integers. -/
theorem requestIdVerifyChecked_eq (h : ¬Overflows time) :
    requestIdVerifyChecked E now user id time signature key =
      some (requestIdVerify E now user id time signature key) := by
  rw [requestIdVerifyChecked, requestIdVerify]
  cases E.verifyHex key (requestMessage user id time) signature with
  | error err => rfl
  | ok _ =>
    cases hparse : parseLongLong time with
    | none => rfl
    | some t =>
      have hfits : ¬LLONG_MAX < t + DEFAULT_EXPIRE_TIME := fun hover => h ⟨t, hparse, hover⟩
      simp only [addLongLong_expire hparse, if_neg hfits]
      rfl

theorem requestIdVerifyChecked_overflow
    (hsignature : E.verifyHex key (requestMessage user id time) signature = .ok ())
    (h : Overflows time) : requestIdVerifyChecked E now user id time signature key = none := by
  obtain ⟨t, hparse, hover⟩ := h
  simp only [requestIdVerifyChecked, hsignature, hparse, addLongLong_expire hparse, if_pos hover]
  rfl

/-- The check is exact up to the last minute that a `long long` can hold. -/
theorem requestIdVerify_exact_iff
    (hsignature : E.verifyHex key (requestMessage user id time) signature = .ok ()) :
    FreshnessExact E now user id time signature key ↔ ¬Overflows time := by
  constructor
  · rintro ⟨r, hcall, -⟩ hover
    rw [requestIdVerifyChecked_overflow hsignature hover] at hcall
    cases hcall
  · intro hfits
    refine ⟨_, requestIdVerifyChecked_eq hfits, ?_⟩
    rw [requestIdVerify_eq_ok_iff]
    constructor
    · rintro ⟨-, t, hparse, hfresh⟩
      obtain ⟨n, htext, rfl, hrange⟩ := parseLongLong_eq_some_iff.mp hparse
      exact ⟨n, htext, hrange, hfresh⟩
    · rintro ⟨n, htext, hrange, hfresh⟩
      exact ⟨hsignature, n.value, parseLongLong_eq_some_iff.mpr ⟨n, htext, rfl, hrange⟩, hfresh⟩

/-- A message of the user `u` with the id `a` and some time. -/
def timedMessage (time : Bytes) : Bytes := requestMessage (ascii "u") (ascii "a") time

theorem requestIdVerify_exact_now :
    FreshnessExact (Ed25519.single (timedMessage (ascii " +1000 "))) 1000 (ascii "u") (ascii "a")
        (ascii " +1000 ") singleSignature.val (KeyPair.single []).publicHex ↔
      ¬Overflows (ascii " +1000 ") :=
  requestIdVerify_exact_iff (by decide)

/-- The largest `long long`, which is fresh at any time, and overflows. -/
theorem not_requestIdVerify_exact :
    ¬∀ (E : Ed25519) (now : ℤ) (user id time signature key : Bytes), 0 ≤ now → now ≤ 10 ^ 12 →
      E.verifyHex key (requestMessage user id time) signature = .ok () →
        FreshnessExact E now user id time signature key := by
  intro h
  have hexact := h (Ed25519.single (timedMessage (ascii "9223372036854775807"))) 1000 (ascii "u")
    (ascii "a") (ascii "9223372036854775807") singleSignature.val (KeyPair.single []).publicHex
    (by norm_num) (by norm_num) (by decide)
  obtain ⟨r, hcall, -⟩ := hexact
  have hover : requestIdVerifyChecked (Ed25519.single (timedMessage (ascii "9223372036854775807")))
      1000 (ascii "u") (ascii "a") (ascii "9223372036854775807") singleSignature.val
      (KeyPair.single []).publicHex = none := by
    decide +kernel
  rw [hover] at hcall
  cases hcall

end Dumbos.Request
