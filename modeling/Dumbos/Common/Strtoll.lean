import Dumbos.Common.Errno
import Dumbos.Common.ParseLongLong

/-! # `parse_long_long` on a standard `strtoll`

The standard describes `strtoll` by the longest part of a text that looks like a
number. On any function of that kind `parse_long_long` accepts the numerals in range
and nothing else: the end of the part tells whether there is a number at all, the loop
behind it what follows, and `errno`, which the loop leaves alone, whether it was in
range.
-/
namespace Dumbos.Common
open Foundation

/-- Memory that a string starts in, with its NUL. -/
abbrev CString := {b : Bytes // 0 ∈ b}

def CString.text (str : CString) : Bytes := cstr str.val

/-- The form that is expected in base 10: a sign that may be missing, and digits. -/
structure Signed where
  sign : Bytes
  digits : Bytes
  sign_eq : sign = [] ∨ sign = [43] ∨ sign = [45]
  digits_ne : digits ≠ []
  digits_digit : ∀ c ∈ digits, isDigit c

namespace Signed

def text (t : Signed) : Bytes := t.sign ++ t.digits

def value (t : Signed) : ℤ := if t.sign = [45] then -digitsValue t.digits else digitsValue t.digits

/-- One digit more. -/
def snoc (t : Signed) {c : UInt8} (hc : isDigit c) : Signed where
  sign := t.sign
  digits := t.digits ++ [c]
  sign_eq := t.sign_eq
  digits_ne := List.append_ne_nil_of_right_ne_nil _ (List.cons_ne_nil c [])
  digits_digit := List.forall_mem_append.mpr ⟨t.digits_digit, List.forall_mem_singleton.mpr hc⟩

theorem snoc_text (t : Signed) {c : UInt8} (hc : isDigit c) : (t.snoc hc).text = t.text ++ [c] :=
  (List.append_assoc _ _ _).symm

theorem splitSign_text_append (t : Signed) (s : Bytes) :
    splitSign (t.text ++ s) = (decide (t.sign = [45]), t.digits ++ s) := by
  rw [text, List.append_assoc]
  exact splitSign_append t.sign_eq t.digits_ne t.digits_digit s

/-- A number that a text starts with lies in what the scan takes of the text. -/
theorem scan_of_text_prefix {t : Signed} {w : Bytes} (h : t.text <+: w) :
    w = t.sign ++ (splitSign w).2 ∧ t.digits <+: (splitSign w).2.takeWhile isDigit := by
  obtain ⟨rest, rfl⟩ := h
  rw [t.splitSign_text_append]
  constructor
  · rw [text, List.append_assoc]
  · rw [List.takeWhile_append_of_pos t.digits_digit]
    exact List.prefix_append _ _

end Signed

/-- The subject sequence of a text: the longest part of that form behind the white space. -/
structure Subject (s : Bytes) where
  form : Signed
  starts : form.text <+: s.dropWhile isspace
  longest : ∀ t : Signed, t.text <+: s.dropWhile isspace → t.text.length ≤ form.text.length

/-- The distance of the end of a subject sequence from the start of its text. -/
def Subject.stop {s : Bytes} (t : Subject s) : ℕ :=
  (s.takeWhile isspace).length + t.form.text.length

namespace Subject
variable {s : Bytes}

/-- No digit stands behind a subject sequence. -/
theorem exists_rest (t : Subject s) :
    ∃ rest, s.dropWhile isspace = t.form.text ++ rest ∧
      ∀ c, rest.head? = some c → isDigit c = false := by
  obtain ⟨rest, hrest⟩ := t.starts
  refine ⟨rest, hrest.symm, ?_⟩
  intro c hc
  obtain ⟨rest', rfl⟩ := List.head?_eq_some_iff.mp hc
  by_contra hdigit
  rw [Bool.not_eq_false] at hdigit
  -- with that digit the sequence would be longer
  have hle : (t.form.snoc hdigit).text.length ≤ t.form.text.length := by
    apply t.longest
    rw [Signed.snoc_text, ← hrest]
    exact ⟨rest', List.append_assoc _ _ _⟩
  rw [Signed.snoc_text, List.length_append, List.length_singleton] at hle
  omega

theorem length_eq (t : Subject s) {rest : Bytes} (h : s.dropWhile isspace = t.form.text ++ rest) :
    s.length = t.stop + rest.length := by
  calc s.length = (s.takeWhile isspace ++ s.dropWhile isspace).length := by
        rw [List.takeWhile_append_dropWhile]
    _ = t.stop + rest.length := by
        rw [h, List.length_append, List.length_append, stop, Nat.add_assoc]

theorem stop_le (t : Subject s) : t.stop ≤ s.length := by
  obtain ⟨rest, hrest, -⟩ := t.exists_rest
  rw [t.length_eq hrest]
  exact Nat.le_add_right _ _

/-- The scan of the model finds the subject sequence. -/
theorem strtoll_eq (t : Subject s) :
    strtoll s =
      if LLONG_MAX < t.form.value then ⟨LLONG_MAX, t.stop, true⟩
      else if t.form.value < LLONG_MIN then ⟨LLONG_MIN, t.stop, true⟩
      else ⟨t.form.value, t.stop, false⟩ := by
  obtain ⟨rest, hrest, hhead⟩ := t.exists_rest
  have hparts : s.dropWhile isspace = t.form.sign ++ (t.form.digits ++ rest) := by
    rw [hrest, Signed.text, List.append_assoc]
  have hstop : s.length - rest.length = t.stop := by
    rw [t.length_eq hrest, Nat.add_sub_cancel]
  rw [← hstop]
  exact strtoll_of_parts hparts t.form.sign_eq t.form.digits_ne t.form.digits_digit hhead rfl

/-- A text without a subject sequence has no digits where the scan looks for them. -/
theorem strtoll_of_isEmpty (h : IsEmpty (Subject s)) : strtoll s = ⟨0, 0, false⟩ := by
  obtain ⟨sign, hsign, hs⟩ := splitSign_spec (s.dropWhile isspace)
  have hds : (splitSign (s.dropWhile isspace)).2.takeWhile isDigit = [] := by
    by_contra hne
    apply h.false
    refine ⟨⟨sign, _, hsign, hne, fun c hc => List.mem_takeWhile_imp hc⟩, ?_, ?_⟩
    · conv_rhs => rw [hs]
      exact (List.prefix_append_right_inj _).mpr (List.takeWhile_prefix _)
    · intro u hu
      obtain ⟨hscan, hdigits⟩ := Signed.scan_of_text_prefix hu
      obtain rfl : sign = u.sign := List.append_cancel_right (hs.symm.trans hscan)
      rw [Signed.text, Signed.text, List.length_append, List.length_append]
      exact Nat.add_le_add_left hdigits.length_le _
  simp only [strtoll, hds, if_true]

theorem strtoll_stop_le (s : Bytes) : (strtoll s).stop ≤ s.length := by
  rcases isEmpty_or_nonempty (Subject s) with h | ⟨⟨t⟩⟩
  · rw [strtoll_of_isEmpty h]
    exact Nat.zero_le _
  · rw [t.strtoll_eq]
    split_ifs
    · exact t.stop_le
    · exact t.stop_le
    · exact t.stop_le

end Subject

/-- What a call of `strtoll` returns and leaves: its value, `end - str`, and `errno`. -/
structure StrtollResult where
  value : ℤ
  stop : ℕ
  errno : ℕ

/-- A function of a string and of `errno` that is as the standard says of `strtoll` in base 10 and the
C locale. -/
structure StandardStrtoll where
  call : CString → ℕ → StrtollResult
  inRange : ∀ str errno (t : Subject str.text), InLongLong t.form.value →
    call str errno = ⟨t.form.value, t.stop, errno⟩
  above : ∀ str errno (t : Subject str.text), LLONG_MAX < t.form.value →
    call str errno = ⟨LLONG_MAX, t.stop, ERANGE⟩
  below : ∀ str errno (t : Subject str.text), t.form.value < LLONG_MIN →
    call str errno = ⟨LLONG_MIN, t.stop, ERANGE⟩
  unconverted : ∀ str errno, IsEmpty (Subject str.text) →
    (call str errno).value = 0 ∧ (call str errno).stop = 0

/-- The call as the scan of the model makes it. -/
def scanCall (str : CString) (errno : ℕ) : StrtollResult where
  value := (strtoll str.text).value
  stop := (strtoll str.text).stop
  errno := if (strtoll str.text).erange then ERANGE else errno

section ScanCall
variable {str : CString}

theorem scanCall_inRange (errno : ℕ) (t : Subject str.text) (h : InLongLong t.form.value) :
    scanCall str errno = ⟨t.form.value, t.stop, errno⟩ := by
  simp [scanCall, t.strtoll_eq, not_lt.mpr h.1, not_lt.mpr h.2]

theorem scanCall_above (errno : ℕ) (t : Subject str.text) (h : LLONG_MAX < t.form.value) :
    scanCall str errno = ⟨LLONG_MAX, t.stop, ERANGE⟩ := by
  simp [scanCall, t.strtoll_eq, h]

theorem scanCall_below (errno : ℕ) (t : Subject str.text) (h : t.form.value < LLONG_MIN) :
    scanCall str errno = ⟨LLONG_MIN, t.stop, ERANGE⟩ := by
  have hmax : ¬LLONG_MAX < t.form.value := by
    rw [LLONG_MIN] at h
    rw [LLONG_MAX]
    omega
  simp [scanCall, t.strtoll_eq, hmax, h]

theorem scanCall_unconverted (errno : ℕ) (h : IsEmpty (Subject str.text)) :
    (scanCall str errno).value = 0 ∧ (scanCall str errno).stop = 0 := by
  simp [scanCall, Subject.strtoll_of_isEmpty h]

end ScanCall

namespace StandardStrtoll

/-- The scan of the model is as the standard says. -/
def scan : StandardStrtoll where
  call := scanCall
  inRange _ := scanCall_inRange
  above _ := scanCall_above
  below _ := scanCall_below
  unconverted _ := scanCall_unconverted

variable (S : StandardStrtoll) {str : CString}

/-- Where there is a number, the standard leaves one result. -/
theorem call_of_subject (t : Subject str.text) (errno : ℕ) :
    S.call str errno = scanCall str errno := by
  by_cases hmax : LLONG_MAX < t.form.value
  · rw [S.above str errno t hmax, scanCall_above errno t hmax]
  · by_cases hmin : t.form.value < LLONG_MIN
    · rw [S.below str errno t hmin, scanCall_below errno t hmin]
    · have hrange : InLongLong t.form.value := ⟨not_lt.mp hmin, not_lt.mp hmax⟩
      rw [S.inRange str errno t hrange, scanCall_inRange errno t hrange]

/-- The end pointer is where the scan of the model stops. -/
theorem call_stop (str : CString) (errno : ℕ) :
    (S.call str errno).stop = (strtoll str.text).stop := by
  rcases isEmpty_or_nonempty (Subject str.text) with h | ⟨⟨t⟩⟩
  · rw [(S.unconverted str errno h).2, Subject.strtoll_of_isEmpty h]
  · rw [S.call_of_subject t, scanCall]

theorem call_eq (h : (strtoll str.text).stop ≠ 0) (errno : ℕ) :
    S.call str errno = scanCall str errno := by
  rcases isEmpty_or_nonempty (Subject str.text) with hempty | ⟨⟨t⟩⟩
  · rw [Subject.strtoll_of_isEmpty hempty] at h
    exact absurd rfl h
  · exact S.call_of_subject t errno

end StandardStrtoll

/-- `while (*end != '\0')`: whether there is white space alone up to the NUL. `none` is a read behind
the memory of the string. -/
def trailLoop : Bytes → Option Bool
  | [] => none
  | c :: s => if c = 0 then some true else if isspace c then trailLoop s else some false

theorem trailLoop_append {s : Bytes} (hs : ∀ c ∈ s, c ≠ 0) (rest : Bytes) :
    trailLoop (s ++ 0 :: rest) = some (s.all isspace) := by
  induction s with
  | nil => simp [trailLoop]
  | cons c s ih =>
    have hc : c ≠ 0 := hs c List.mem_cons_self
    have ih := ih fun d hd => hs d (List.mem_cons_of_mem c hd)
    by_cases hspace : isspace c
    · simp [trailLoop, hc, hspace, ih]
    · simp [trailLoop, hc, hspace]

/-- From a place in the string the loop ends at its NUL or before. -/
theorem trailLoop_drop (str : CString) {k : ℕ} (hk : k ≤ str.text.length) :
    trailLoop (str.val.drop k) = some ((str.text.drop k).all isspace) := by
  have hsplit : str.text ++ 0 :: str.val.drop (str.text.length + 1) = str.val :=
    cstr_append_drop str.property
  have htext : ∀ c ∈ str.text.drop k, c ≠ 0 := fun c hc =>
    cstr_no_nul str.val c (List.mem_of_mem_drop hc)
  rw [← trailLoop_append htext, ← List.drop_append_of_le_length hk, hsplit]

/-- The return value of `parse_long_long`, and `errno` and `*ret` behind the call. -/
structure Parsed where
  status : ℤ
  errno : ℕ
  ret : Option ℤ
deriving DecidableEq

/-- `parse_long_long` with its pointers, of which each may be `NULL`. -/
def parseLongLongAt (S : StandardStrtoll) (str : Option CString) (ret : Option ℤ) : Option Parsed :=
  match str, ret with
  | some str, some old =>
    let r := S.call str 0
    if r.stop = 0 then some ⟨-1, EINVAL, some old⟩
    else match trailLoop (str.val.drop r.stop) with
      | none => none
      | some false => some ⟨-1, EINVAL, some old⟩
      | some true =>
        if r.errno = ERANGE then some ⟨-1, r.errno, some old⟩ else some ⟨0, r.errno, some r.value⟩
  | _, _ => some ⟨-1, EINVAL, ret⟩

/-- With its pointers and `errno` the function decides as on the text alone. -/
theorem parseLongLongAt_eq (S : StandardStrtoll) (str : CString) (old : ℤ) :
    ∃ errno, (errno = EINVAL ∨ errno = ERANGE) ∧
      parseLongLongAt S (some str) (some old) =
        some ((parseLongLong str.text).elim ⟨-1, errno, some old⟩ fun z => ⟨0, 0, some z⟩) := by
  by_cases hstop : (strtoll str.text).stop = 0
  · exact ⟨EINVAL, Or.inl rfl, by simp [parseLongLongAt, parseLongLong, S.call_stop, hstop]⟩
  · have hcall := S.call_eq hstop 0
    have hloop := trailLoop_drop str (Subject.strtoll_stop_le str.text)
    cases hspace : (str.text.drop (strtoll str.text).stop).all isspace with
    | false =>
      rw [hspace] at hloop
      exact ⟨EINVAL, Or.inl rfl,
        by simp [parseLongLongAt, parseLongLong, hcall, scanCall, hstop, hloop, hspace]⟩
    | true =>
      rw [hspace] at hloop
      cases hrange : (strtoll str.text).erange with
      | true =>
        exact ⟨ERANGE, Or.inr rfl,
          by simp [parseLongLongAt, parseLongLong, hcall, scanCall, hstop, hloop, hspace, hrange]⟩
      | false =>
        have hzero : (0 : ℕ) ≠ ERANGE := ERANGE.ne_zero.symm
        exact ⟨EINVAL, Or.inl rfl, by
          simp [parseLongLongAt, parseLongLong, hcall, scanCall, hstop, hloop, hspace, hrange, hzero]⟩

/-- The numerals in range are accepted and stored, and on any other string nothing is stored. -/
theorem parseLongLongAt_exact (S : StandardStrtoll) (str : CString) (old : ℤ) :
    ∃ r, parseLongLongAt S (some str) (some old) = some r ∧
      (r.status = 0 ↔ ∃ n : Numeral, n.text = str.text ∧ InLongLong n.value) ∧
      (∀ n : Numeral, n.text = str.text → InLongLong n.value → r.ret = some n.value) ∧
      ((¬∃ n : Numeral, n.text = str.text ∧ InLongLong n.value) →
        r.status = -1 ∧ r.ret = some old) := by
  obtain ⟨errno, -, hparsed⟩ := parseLongLongAt_eq S str old
  have haccepted : ∀ n : Numeral, n.text = str.text → InLongLong n.value →
      parseLongLong str.text = some n.value := fun n htext hr =>
    parseLongLong_eq_some_iff.mpr ⟨n, htext, rfl, hr⟩
  refine ⟨_, hparsed, ?_⟩
  cases hv : parseLongLong str.text with
  | none =>
    have hno : ¬∃ n : Numeral, n.text = str.text ∧ InLongLong n.value := by
      rintro ⟨n, htext, hr⟩
      rw [haccepted n htext hr] at hv
      cases hv
    refine ⟨⟨fun h => ?_, fun h => absurd h hno⟩, fun n htext hr => absurd ⟨n, htext, hr⟩ hno,
      fun _ => ⟨rfl, rfl⟩⟩
    simp at h
  | some v =>
    obtain ⟨n, htext, hvalue, hr⟩ := parseLongLong_eq_some_iff.mp hv
    have hyes : ∃ n : Numeral, n.text = str.text ∧ InLongLong n.value := ⟨n, htext, hvalue ▸ hr⟩
    refine ⟨⟨fun _ => hyes, fun _ => rfl⟩, fun m hm hmr => ?_, fun h => absurd hyes h⟩
    exact hv.symm.trans (haccepted m hm hmr)

/-- White space in front, a sign and a line end behind the digits. -/
theorem parseLongLongAt_minus_twelve :
    ∃ r, parseLongLongAt StandardStrtoll.scan
        (some ⟨[32, 45, 49, 50, 10, 0], by decide⟩) (some 7) = some r ∧
      r.status = 0 ∧ r.ret = some (-12) := by
  obtain ⟨r, hr, hstatus, hret, -⟩ :=
    parseLongLongAt_exact StandardStrtoll.scan ⟨[32, 45, 49, 50, 10, 0], by decide⟩ 7
  let n : Numeral := ⟨[32], [45], [49, 50], [10], by simp [isspace], Or.inr (Or.inr rfl),
    List.cons_ne_nil _ _, by simp [isDigit], by simp [isspace]⟩
  have hrange : InLongLong n.value := by decide
  exact ⟨r, hr, hstatus.mpr ⟨n, rfl, hrange⟩, hret n rfl hrange⟩

end Dumbos.Common
