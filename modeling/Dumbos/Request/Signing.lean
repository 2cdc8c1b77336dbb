import Dumbos.Common.Files
import Dumbos.Payload.Signature

/-! # Signed requests

A request is signed over the user, a separator, the request id and the time. The
id and the time stand next to each other with nothing between them, and digits
belong to both alphabets, so one signed message can be cut in two places.
-/
namespace Dumbos.Request
open Foundation Common Payload

def REQUEST_ID_MAGIC : Bytes := ascii "af123oidoo"

/-- The bytes that are signed for a request. -/
def requestMessage (user requestId requestTime : Bytes) : Bytes :=
  user ++ (REQUEST_ID_MAGIC ++ (requestId ++ requestTime))

variable (E : Ed25519)

def requestIdSign (user requestId : Bytes) (requestTime : ℤ) (privKeyHex : Bytes) :
    Except Errno SignatureHex :=
  if !checkAllowedChars requestId REQUESTID_ALLOWED_CHARS then .error EINVAL
  else E.signHex privKeyHex (requestMessage user requestId (intText requestTime))

/-- `now` is `time(NULL)`; `ok` is the return value 0. -/
def requestIdVerify (now : ℤ) (user requestId requestTimeStr signature pubKeyHex : Bytes) :
    Except Errno Unit :=
  match E.verifyHex pubKeyHex (requestMessage user requestId requestTimeStr) signature with
  | .error err => .error err
  | .ok () => match parseLongLong requestTimeStr with
    | none => .error EINVAL
    | some requestTime =>
      if requestTime + DEFAULT_EXPIRE_TIME < now then .error EKEYEXPIRED else .ok ()

def endsInDigit (id : Bytes) : Prop := ∃ init c, id = init ++ [c] ∧ isDigit c

variable {E}

theorem requestIdVerify_eq_ok_iff {now : ℤ} {user id time signature key : Bytes} :
    requestIdVerify E now user id time signature key = .ok () ↔
      E.verifyHex key (requestMessage user id time) signature = .ok () ∧
        ∃ v, parseLongLong time = some v ∧ now ≤ v + DEFAULT_EXPIRE_TIME := by
  rw [requestIdVerify]
  cases E.verifyHex key (requestMessage user id time) signature with
  | error err => simp
  | ok _ =>
    cases parseLongLong time with
    | none => simp
    | some v =>
      by_cases hv : v + DEFAULT_EXPIRE_TIME < now
      · simp [hv]
      · simp [hv, not_lt.mp hv]

theorem requestIdSign_eq_ok {user id key : Bytes} {t : ℤ} {s : SignatureHex}
    (h : requestIdSign E user id t key = .ok s) :
    checkAllowedChars id REQUESTID_ALLOWED_CHARS ∧
      E.signHex key (requestMessage user id (intText t)) = .ok s := by
  rw [requestIdSign] at h
  split_ifs at h with hid
  exact ⟨by simpa using hid, h⟩

theorem requestMessage_inj (user : Bytes) {id time id' time' : Bytes} :
    requestMessage user id time = requestMessage user id' time' ↔ id ++ time = id' ++ time' := by
  simp [requestMessage]

theorem requestid_char {c : UInt8} (h : c ∈ REQUESTID_ALLOWED_CHARS) :
    isspace c = false ∧ c ≠ 43 ∧ c ≠ 45 := by
  have hall : ∀ c ∈ REQUESTID_ALLOWED_CHARS, isspace c = false ∧ c ≠ 43 ∧ c ≠ 45 := by decide +kernel
  exact hall c h

theorem digit_mem_requestid {c : UInt8} (h : isDigit c) : c ∈ REQUESTID_ALLOWED_CHARS := by
  rw [isDigit_iff] at h
  obtain ⟨hlow, hhigh⟩ := h
  rw [← UInt8.ofNat_toNat (x := c)]
  interval_cases c.toNat <;> decide

/-- Behind a character of a request id a number has digits and white space only. -/
theorem mem_of_parse_requestid {c : UInt8} {rest : Bytes} {v : ℤ}
    (hc : c ∈ REQUESTID_ALLOWED_CHARS) (h : parseLongLong (c :: rest) = some v) :
    ∀ d ∈ c :: rest, isDigit d ∨ isspace d := by
  obtain ⟨n, hn⟩ := exists_numeral_of_parseLongLong h
  obtain ⟨hsp, h43, h45⟩ := requestid_char hc
  have hunspaced : n.sign ++ (n.digits ++ n.trail) = c :: rest := by
    rw [← n.dropWhile_text, hn]
    simp [hsp]
  have hsign : n.sign = [] := by
    rcases n.sign_eq with hs | hs | hs
    · exact hs
    · rw [hs] at hunspaced
      exact absurd (List.cons.inj hunspaced).1.symm h43
    · rw [hs] at hunspaced
      exact absurd (List.cons.inj hunspaced).1.symm h45
  intro d hd
  rw [← hunspaced, hsign, List.nil_append, List.mem_append] at hd
  exact hd.imp (n.digits_digit d) (n.trail_space d)

/-- A number in front of which an id was cut starts with digits of the id. -/
theorem endsInDigit_of_parse {init cut time : Bytes} {v : ℤ} (hne : cut ≠ [])
    (hcut : ∀ c ∈ cut, c ∈ REQUESTID_ALLOWED_CHARS) (h : parseLongLong (cut ++ time) = some v) :
    endsInDigit (init ++ cut) ∧ ∀ d ∈ time, isDigit d ∨ isspace d := by
  obtain ⟨c, rest, rfl⟩ := List.exists_cons_of_ne_nil hne
  have hall := mem_of_parse_requestid (hcut c (by simp)) h
  refine ⟨⟨init ++ (c :: rest).dropLast, (c :: rest).getLast hne, ?_, ?_⟩, ?_⟩
  · rw [List.append_assoc, List.dropLast_append_getLast]
  · have hlast := List.getLast_mem hne
    have hmem : (c :: rest).getLast hne ∈ c :: (rest ++ time) := by
      rw [← List.cons_append]
      exact List.mem_append_left _ hlast
    exact (hall _ hmem).resolve_right (by simp [(requestid_char (hcut _ hlast)).1])
  · intro d hd
    exact hall d (by simp [hd])

/-- The only way to cut a message with a negative or a one-digit time behind such an id. -/
theorem requestMessage_cut {id id' time' : Bytes} {t v : ℤ}
    (ht : t < 0 ∨ t ≤ 9 ∧ ¬endsInDigit id) (hid : ∀ c ∈ id, c ∈ REQUESTID_ALLOWED_CHARS)
    (hid' : ∀ c ∈ id', c ∈ REQUESTID_ALLOWED_CHARS) (htime : parseLongLong time' = some v)
    (h : id ++ intText t = id' ++ time') : id' = id ∧ time' = intText t := by
  rcases List.append_eq_append_iff.mp h with ⟨cut, rfl, htext⟩ | ⟨cut, rfl, htext⟩
  · cases cut with
    | nil => exact ⟨List.append_nil _, htext.symm⟩
    | cons c cut =>
      exfalso
      have hc := requestid_char (hid' c (by simp))
      rcases lt_or_ge t 0 with hneg | hpos
      · rw [intText_of_neg hneg, List.cons_append] at htext
        exact hc.2.2 (List.cons.inj htext).1.symm
      · have hlen : (intText t).length ≤ 1 := by
          rw [intText_of_nonneg hpos]
          exact natText_length_le (by norm_num) (by omega)
        have hnil : time' = [] := by
          rw [htext, List.length_append, List.length_cons] at hlen
          exact List.eq_nil_of_length_eq_zero (by omega)
        have hempty : parseLongLong [] = none := by decide
        rw [hnil, hempty] at htime
        cases htime
  · by_cases hnil : cut = []
    · subst hnil
      exact ⟨(List.append_nil _).symm, htext⟩
    · exfalso
      rw [htext] at htime
      obtain ⟨hends, hrest⟩ := @endsInDigit_of_parse id' _ _ _ hnil
        (fun c hc => hid c (by simp [hc])) htime
      rcases ht with hneg | ⟨-, hdigit⟩
      · have := hrest 45 (by simp [intText_of_neg hneg])
        simp [isDigit, isspace] at this
      · exact hdigit hends

/-- Otherwise a digit can move over the cut. -/
theorem requestMessage_recut {id : Bytes} {t : ℤ} (ht : InLongLong t)
    (hid : ∀ c ∈ id, c ∈ REQUESTID_ALLOWED_CHARS) (h : ¬(t < 0 ∨ t ≤ 9 ∧ ¬endsInDigit id)) :
    ∃ id' time' v, (∀ c ∈ id', c ∈ REQUESTID_ALLOWED_CHARS) ∧ (∀ c ∈ time', isDigit c) ∧
      parseLongLong time' = some v ∧ 0 ≤ v ∧ id ++ intText t = id' ++ time' ∧ id' ≠ id := by
  rw [not_or, not_and_or, not_not, not_lt, not_le] at h
  obtain ⟨hpos, hcase⟩ := h
  have htext : intText t = natText t.toNat := intText_of_nonneg hpos
  have hmax : t ≤ LLONG_MAX := ht.2
  rcases le_or_gt t 9 with hshort | hlong
  · -- the last digit of the id goes to the time
    obtain ⟨init, d, rfl, hd⟩ := hcase.resolve_left (not_lt.mpr hshort)
    have hdig : ∀ c ∈ d :: natText t.toNat, isDigit c := by
      intro c hc
      rcases List.mem_cons.mp hc with rfl | hc
      · exact hd
      · exact natText_digits _ c hc
    have hlen := natText_length_le (n := t.toNat) (k := 1) (by norm_num) (by omega)
    have hlt := digitsValue_lt_of_length_le (k := 2) hdig (by rw [List.length_cons]; omega)
    refine ⟨init, d :: natText t.toNat, digitsValue (d :: natText t.toNat),
      fun c hc => hid c (by simp [hc]), hdig, parseLongLong_digits (by simp) hdig ?_, by omega,
      by simp [htext], by simp⟩
    rw [LLONG_MAX]
    omega
  · -- the first of two or more digits goes to the id
    have hlead := le_digitsValue_take (n := t.toNat) (k := 1) (by omega)
    obtain ⟨c, rest, hcons⟩ := List.exists_cons_of_ne_nil (natText_ne_nil t.toNat)
    have hdig := natText_digits t.toNat
    rw [hcons] at hdig hlead
    have hrest : rest ≠ [] := by
      rintro rfl
      have hlt := digitsValue_lt (b := [c]) hdig
      simp only [List.take_succ_cons, List.take_nil, List.length_singleton] at hlead hlt
      omega
    have hvalue := digitsValue_natText t.toNat
    rw [hcons, ← List.singleton_append, digitsValue_append] at hvalue
    have hle : digitsValue rest ≤ t.toNat := hvalue ▸ Nat.le_add_left _ _
    refine ⟨id ++ [c], rest, digitsValue rest, ?_, fun c hc => hdig c (by simp [hc]),
      parseLongLong_digits hrest (fun c hc => hdig c (by simp [hc])) (by omega), by omega, ?_, ?_⟩
    · intro e he
      rcases List.mem_append.mp he with he | he
      · exact hid e he
      · exact digit_mem_requestid (hdig e (by simp [List.mem_singleton.mp he]))
    · rw [htext, hcons, List.append_assoc, List.singleton_append]
    · simp

/-- A signature stands for one request exactly when no digit can cross from the id to the time
or back. -/
theorem requestIdVerify_unique_iff (K : KeyPair E) {user id : Bytes} {t : ℤ} (ht : InLongLong t)
    {s : SignatureHex} (hs : requestIdSign E user id t K.privateHex = .ok s)
    (hbinds : K.Binds s.val (requestMessage user id (intText t))) :
    (∀ id' time' now, (∀ c ∈ id', c ∈ REQUESTID_ALLOWED_CHARS) → (∀ c ∈ time', c ≠ 0) →
      requestIdVerify E now user id' time' s.val K.publicHex = .ok () →
        id' = id ∧ time' = intText t) ↔
      t < 0 ∨ t ≤ 9 ∧ ¬endsInDigit id := by
  obtain ⟨hallowed, hsign⟩ := requestIdSign_eq_ok hs
  have hid := checkAllowedChars_iff.mp hallowed
  constructor
  · intro hunique
    by_contra hcut
    obtain ⟨id', time', v, hid', hdig, hparse, hv, hsame, hne⟩ := requestMessage_recut ht hid hcut
    have hmessage := (requestMessage_inj user).mpr hsame
    refine hne (hunique id' time' 0 hid' (fun c hc => ne_zero_of_isDigit (hdig c hc)) ?_).1
    refine requestIdVerify_eq_ok_iff.mpr ⟨?_, v, hparse, ?_⟩
    · rw [← hmessage]
      exact K.correct _ s hsign
    · rw [DEFAULT_EXPIRE_TIME]
      omega
  · intro hcond id' time' now hid' _ hverify
    obtain ⟨haccept, v, hparse, -⟩ := requestIdVerify_eq_ok_iff.mp hverify
    have hmessage := (requestMessage_inj user).mp (hbinds _ haccept)
    exact requestMessage_cut hcond hid hid' hparse hmessage.symm

/-- A message in which a digit of the id can be read as the first digit of the time. -/
def cutMessage : Bytes := requestMessage (ascii "u") (ascii "a5") (ascii "1700000000")

theorem requestIdVerify_unique_iff_short :
    (∀ id' time' now, (∀ c ∈ id', c ∈ REQUESTID_ALLOWED_CHARS) → (∀ c ∈ time', c ≠ 0) →
      requestIdVerify (Ed25519.single (requestMessage (ascii "u") (ascii "a") (ascii "7"))) now
        (ascii "u") id' time' singleSignature.val
        (KeyPair.single (requestMessage (ascii "u") (ascii "a") (ascii "7"))).publicHex = .ok () →
        id' = ascii "a" ∧ time' = intText 7) ↔
      (7 : ℤ) < 0 ∨ (7 : ℤ) ≤ 9 ∧ ¬endsInDigit (ascii "a") :=
  requestIdVerify_unique_iff (KeyPair.single _) (by decide) (s := singleSignature) (by decide)
    (KeyPair.single_binds _ _)

theorem requestIdVerify_cutMessage :
    (KeyPair.single cutMessage).Binds singleSignature.val cutMessage ∧
      requestIdSign (Ed25519.single cutMessage) (ascii "u") (ascii "a5") 1700000000
        (KeyPair.single cutMessage).privateHex = .ok singleSignature ∧
      requestIdVerify (Ed25519.single cutMessage) 1700000000 (ascii "u") (ascii "a")
        (ascii "51700000000") singleSignature.val (KeyPair.single cutMessage).publicHex = .ok () ∧
      ascii "a" ≠ ascii "a5" :=
  ⟨KeyPair.single_binds _ _, by decide⟩

end Dumbos.Request
