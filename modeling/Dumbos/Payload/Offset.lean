import Dumbos.Payload.Expire

/-! # Offsets that run from the first use

What the field is documented to say is read from its string: `:` and a number of
seconds, or no number, which stands for the default. The code shifts the field by
one byte, and a field without a NUL then holds its last byte twice. A zero stays
a zero and nothing else becomes one.
-/
namespace Dumbos.Payload
open Foundation Common

/-- What the text behind the colon stands for; negative offsets stand for nothing. -/
def colonOffset (rest : Bytes) : Option ℤ :=
  match parseLongLong rest with
  | some d => if 0 ≤ d then some d else none
  | none => some DEFAULT_EXPIRE_TIME

/-- The documented offset of a field that is not an absolute time. -/
def documentedOffset (p : DumbPayload) : Option ℤ :=
  if (parseLongLong (cstr p.expire.val)).isSome then none
  else if p.expire.val.head? = some 58 then colonOffset (cstr p.expire.val).tail
  else some DEFAULT_EXPIRE_TIME

section Doubled
variable {a : Bytes} {c : UInt8}

/-- A numeral ends in white space, or in a digit and then it has nothing behind its digits. -/
theorem numeral_last_cases {n : Numeral} (h : n.text = a ++ [c]) :
    (∃ trail, n.trail = trail ++ [c]) ∨ n.trail = [] ∧ ∃ digits, n.digits = digits ++ [c] := by
  rcases List.eq_nil_or_concat n.trail with htrail | ⟨trail, x, htrail⟩
  · right
    refine ⟨htrail, n.digits.dropLast, ?_⟩
    have hlast := congrArg List.getLast? h
    rw [Numeral.text, htrail, List.append_nil, ← List.append_assoc, List.getLast?_append_of_ne_nil _
      n.digits_ne, List.getLast?_concat] at hlast
    rw [← List.dropLast_append_getLast? c hlast]
    simp
  · left
    refine ⟨trail, ?_⟩
    have hlast := congrArg List.getLast? h
    rw [Numeral.text, htrail] at hlast
    simp only [List.concat_eq_append, ← List.append_assoc, List.getLast?_append, List.getLast?_singleton,
      Option.some_or, Option.some.injEq] at hlast
    rw [htrail, hlast, List.concat_eq_append]

/-- Doubling the last byte of a number keeps it a number, and keeps it zero or positive. -/
theorem parseLongLong_doubled {d : ℤ} (h : parseLongLong (a ++ [c]) = some d) (hd : 0 ≤ d)
    (hlen : a.length ≤ 14) :
    ∃ d', parseLongLong (a ++ [c, c]) = some d' ∧ 0 ≤ d' ∧ (d' = 0 ↔ d = 0) := by
  obtain ⟨n, hn, rfl, hr⟩ := parseLongLong_eq_some_iff.mp h
  have hmore : a ++ [c, c] = n.text ++ [c] := by
    rw [hn, List.append_assoc, List.singleton_append]
  rcases numeral_last_cases hn with ⟨trail, htrail⟩ | ⟨htrail, digits, hdigits⟩
  · have hc : isspace c := n.trail_space c (by simp [htrail])
    have hspace := List.forall_mem_append.mpr ⟨n.trail_space, List.forall_mem_singleton.mpr hc⟩
    refine ⟨n.value, parseLongLong_eq_some_iff.mpr ⟨{ n with
      trail := n.trail ++ [c]
      trail_space := hspace }, ?_, rfl, hr⟩, hd, Iff.rfl⟩
    rw [hmore]
    simp [Numeral.text]
  · have hc : isDigit c := n.digits_digit c (by simp [hdigits])
    have hall := List.forall_mem_append.mpr ⟨n.digits_digit, List.forall_mem_singleton.mpr hc⟩
    have hvalue := digitsValue_concat n.digits c
    have hlast := digitsValue_concat digits c
    rw [← hdigits] at hlast
    set m : Numeral := ⟨n.lead, n.sign, n.digits ++ [c], [], n.lead_space, n.sign_eq, by simp, hall,
      by simp⟩ with hm
    have hmtext : m.text = a ++ [c, c] := by
      rw [hmore]
      simp [hm, Numeral.text, htrail]
    have hmvalue : 0 ≤ m.value ∧ (m.value = 0 ↔ n.value = 0) := by
      simp only [hm, Numeral.value] at hd ⊢
      split_ifs at hd ⊢ <;> omega
    have hparse := m.parseLongLong_short (by
      rw [hmtext, List.length_append, List.length_cons, List.length_singleton]
      omega)
    rw [hmtext] at hparse
    exact ⟨m.value, hparse, hmvalue⟩

/-- In front of the digits there is white space or a sign. -/
theorem not_isDigit_of_mem_front {n : Numeral} {b : UInt8} (h : b ∈ n.lead ++ n.sign) :
    isDigit b = false := by
  rcases List.mem_append.mp h with h | h
  · exact not_isDigit_of_isspace (n.lead_space b h)
  · rcases n.eq_of_mem_sign h with rfl | rfl
    · rfl
    · rfl

/-- A text that is a number only with its last byte doubled does not exist. -/
theorem parseLongLong_doubled_none (h : parseLongLong (a ++ [c]) = none) (hlen : a.length ≤ 14) :
    parseLongLong (a ++ [c, c]) = none := by
  by_contra hne
  obtain ⟨v, hv⟩ := Option.ne_none_iff_exists'.mp hne
  obtain ⟨n, hn⟩ := exists_numeral_of_parseLongLong hv
  have hlast : n.text = (a ++ [c]) ++ [c] := by simp [hn]
  have hmake : ∀ m : Numeral, m.text ≠ a ++ [c] := by
    intro m hm
    have hparse := m.parseLongLong_short (by
      rw [hm, List.length_append, List.length_singleton]
      omega)
    rw [hm, h] at hparse
    cases hparse
  rcases numeral_last_cases hlast with ⟨trail, htrail⟩ | ⟨htrail, digits, hdigits⟩
  · have hspace : ∀ b ∈ trail, isspace b := fun b hb => n.trail_space b (by simp [htrail, hb])
    have htext : n.lead ++ (n.sign ++ (n.digits ++ trail)) ++ [c] = (a ++ [c]) ++ [c] := by
      rw [← hlast, Numeral.text, htrail]
      simp
    exact hmake { n with trail := trail, trail_space := hspace } (List.append_cancel_right htext)
  · have htext : n.lead ++ (n.sign ++ digits) ++ [c] = (a ++ [c]) ++ [c] := by
      rw [← hlast, Numeral.text, htrail, hdigits]
      simp
    have hcut := List.append_cancel_right htext
    by_cases hnil : digits = []
    · -- the byte before the only digit is the same digit, but it is white space or a sign
      have hc : isDigit c := n.digits_digit c (by simp [hdigits])
      rw [hnil, List.append_nil] at hcut
      have hmem : c ∈ n.lead ++ n.sign := by simp [hcut]
      have hfront := not_isDigit_of_mem_front hmem
      rw [hc] at hfront
      cases hfront
    · exact hmake ⟨n.lead, n.sign, digits, [], n.lead_space, n.sign_eq, hnil,
        fun b hb => n.digits_digit b (by simp [hdigits, hb]), by simp⟩ (by simpa [Numeral.text] using hcut)

end Doubled

section Documented
variable {p : DumbPayload}

theorem dpGetExpire_eq_parse (p : DumbPayload) :
    dpGetExpire p = (parseLongLong (cstr p.expire.val)).getD (-1) := by
  rw [dpGetExpire, cstr_append_singleton_zero]
  cases parseLongLong (cstr p.expire.val) <;> rfl

/-- Behind the colon of a field with a NUL the shift finds the same string. -/
theorem cstr_shiftExpire_terminated {e : Bytes} (hfield : p.expire.val = 58 :: e) (h0 : 0 ∈ e) :
    cstr (shiftExpire p).expire.val = cstr e := by
  have happend : ∀ (e x : Bytes), 0 ∈ e → cstr (e ++ x) = cstr e := by
    intro e x h
    induction e with
    | nil => simp at h
    | cons b e ih =>
      by_cases hb : b = 0
      · simp [cstr, hb]
      · have htail : (0 : UInt8) ∈ e := (List.mem_cons.mp h).resolve_left (Ne.symm hb)
        rw [List.cons_append, cstr_cons_of_ne hb, cstr_cons_of_ne hb, ih htail]
  change cstr (p.expire.val.drop 1 ++ p.expire.val.drop 15) = cstr e
  rw [hfield]
  exact happend e _ h0

/-- Without one it finds the string with its last byte doubled. -/
theorem cstr_shiftExpire_unterminated (h0 : 0 ∉ p.expire.val) (hcolon : p.expire.val.head? = some 58) :
    ∃ a c, a.length = 14 ∧ p.expire.val = 58 :: (a ++ [c]) ∧
      cstr (shiftExpire p).expire.val = a ++ [c, c] := by
  obtain ⟨e, he⟩ := List.head?_eq_some_iff.mp hcolon
  have hlen : e.length = 15 := by
    have := p.expire.property
    rw [he, List.length_cons] at this
    simpa using this
  obtain ⟨a, c, rfl⟩ : ∃ a c, e = a ++ [c] :=
    ⟨e.dropLast, e.getLast (by rintro rfl; simp at hlen), (List.dropLast_append_getLast _).symm⟩
  have ha : a.length = 14 := by simpa using hlen
  refine ⟨a, c, ha, he, ?_⟩
  have hshift : (shiftExpire p).expire.val = a ++ [c, c] := by
    change p.expire.val.drop 1 ++ p.expire.val.drop 15 = a ++ [c, c]
    have hdrop : (58 :: (a ++ [c])).drop 15 = [c] := by
      rw [List.drop_succ_cons, List.drop_left' ha]
    rw [he, hdrop]
    simp
  rw [hshift]
  apply cstr_eq_self
  intro b hb hb0
  apply h0
  rw [he, ← hb0]
  simp only [List.mem_append, List.mem_cons, List.not_mem_nil, or_false] at hb ⊢
  tauto

theorem parseLongLong_colon (s : Bytes) : parseLongLong (58 :: s) = none := by
  rfl

/-- A text behind a colon is no absolute time. -/
theorem dpGetExpire_colon (hcolon : p.expire.val.head? = some 58) : dpGetExpire p = -1 := by
  obtain ⟨e, he⟩ := List.head?_eq_some_iff.mp hcolon
  rw [dpGetExpire_eq_parse, he, cstr_cons_of_ne (by decide), parseLongLong_colon, Option.getD_none]

theorem useOffset_colon (hcolon : p.expire.val.head? = some 58) (h0 : 0 ∈ p.expire.val) :
    useOffset p =
      if (parseLongLong (cstr p.expire.val).tail).getD (-1) = -1 then DEFAULT_EXPIRE_TIME
      else (parseLongLong (cstr p.expire.val).tail).getD (-1) := by
  obtain ⟨e, he⟩ := List.head?_eq_some_iff.mp hcolon
  have h0e : 0 ∈ e := by simpa [he] using h0
  have htail : (cstr p.expire.val).tail = cstr e := by
    rw [he, cstr_cons_of_ne (by decide), List.tail_cons]
  rw [useOffset, dpGetExpire_eq_parse, cstr_shiftExpire_terminated he h0e, htail]
  simp only [hcolon, true_and]
  split_ifs <;> simp_all

/-- A NUL in the field leaves fifteen bytes in front of it. -/
theorem cstr_expire_length (h0 : 0 ∈ p.expire.val) : (cstr p.expire.val).length ≤ 15 := by
  have hcut := congrArg List.length (cstr_append_drop h0)
  rw [List.length_append, List.length_cons, p.expire.property] at hcut
  simp only [EXPIRE_SIZE] at hcut
  omega

theorem useOffset_terminated {d : ℤ} (hcolon : p.expire.val.head? = some 58)
    (h0 : 0 ∈ p.expire.val) (h : colonOffset (cstr p.expire.val).tail = some d) :
    useOffset p = d ∧ 0 ≤ d := by
  rw [colonOffset] at h
  rw [useOffset_colon hcolon h0]
  cases hparse : parseLongLong (cstr p.expire.val).tail with
  | none =>
    simp only [hparse, Option.some.injEq] at h
    simp [← h, DEFAULT_EXPIRE_TIME]
  | some v =>
    simp only [hparse] at h
    split_ifs at h with hv
    obtain rfl := Option.some.inj h
    have hne : v ≠ -1 := by omega
    simp [hne, hv]

theorem useOffset_unterminated {d : ℤ} (hcolon : p.expire.val.head? = some 58)
    (h0 : 0 ∉ p.expire.val) (h : colonOffset (cstr p.expire.val).tail = some d) :
    0 ≤ useOffset p ∧ 0 ≤ d ∧ (useOffset p = 0 ↔ d = 0) := by
  obtain ⟨a, c, ha, he, hshift⟩ := cstr_shiftExpire_unterminated h0 hcolon
  have htail : (cstr p.expire.val).tail = a ++ [c] := by
    rw [cstr_eq_self (fun b hb hb0 => h0 (hb0 ▸ hb)), he, List.tail_cons]
  rw [htail, colonOffset] at h
  rw [useOffset, dpGetExpire_eq_parse, hshift]
  cases hparse : parseLongLong (a ++ [c]) with
  | none =>
    simp only [hparse, Option.some.injEq] at h
    simp [← h, parseLongLong_doubled_none hparse ha.le, DEFAULT_EXPIRE_TIME]
  | some v =>
    simp only [hparse] at h
    split_ifs at h with hv
    obtain rfl := Option.some.inj h
    obtain ⟨v', hv', hpos, hzero⟩ := parseLongLong_doubled hparse hv ha.le
    have hne : v' ≠ -1 := by omega
    simp only [hv', Option.getD_some, hcolon, hne, ne_eq, not_false_eq_true, and_self, if_true]
    exact ⟨hpos, hv, hzero⟩

/-- A field with a documented offset is no absolute time, and the offset that the code uses has
the sign of the documented one; it is the same when the field has a NUL. -/
theorem useOffset_of_documentedOffset {d : ℤ} (h : documentedOffset p = some d) :
    dpGetExpire p = -1 ∧ 0 ≤ useOffset p ∧ 0 ≤ d ∧ (useOffset p = 0 ↔ d = 0) ∧
      (0 ∈ p.expire.val → useOffset p = d) := by
  rw [documentedOffset] at h
  split_ifs at h with habs hcolon
  · refine ⟨by rw [dpGetExpire_eq_parse, Option.not_isSome_iff_eq_none.mp habs, Option.getD_none], ?_⟩
    by_cases h0 : 0 ∈ p.expire.val
    · obtain ⟨hsame, hpos⟩ := useOffset_terminated hcolon h0 h
      exact ⟨hsame ▸ hpos, hpos, by rw [hsame], fun _ => hsame⟩
    · obtain ⟨hcode, hpos, hzero⟩ := useOffset_unterminated hcolon h0 h
      exact ⟨hcode, hpos, hzero, fun hmem => absurd hmem h0⟩
  · obtain rfl := Option.some.inj h
    refine ⟨by rw [dpGetExpire_eq_parse, Option.not_isSome_iff_eq_none.mp habs, Option.getD_none], ?_⟩
    simp [useOffset, hcolon, DEFAULT_EXPIRE_TIME]

/-- Fourteen digits fit between the colon and the NUL. -/
theorem documentedOffset_lt {d : ℤ} (h0 : 0 ∈ p.expire.val) (h : documentedOffset p = some d) :
    d < 10 ^ 14 := by
  have hshort := cstr_expire_length h0
  rw [documentedOffset] at h
  split_ifs at h
  · rw [colonOffset] at h
    cases hparse : parseLongLong (cstr p.expire.val).tail with
    | none =>
      simp only [hparse, Option.some.injEq] at h
      norm_num [← h, DEFAULT_EXPIRE_TIME]
    | some v =>
      simp only [hparse] at h
      split_ifs at h
      have := natAbs_lt_of_parseLongLong hparse (k := 14) (by rw [List.length_tail]; omega)
      rw [Option.some.injEq] at h
      omega
  · rw [Option.some.injEq] at h
    norm_num [← h, DEFAULT_EXPIRE_TIME]

end Documented

end Dumbos.Payload
