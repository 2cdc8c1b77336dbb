import Dumbos.Payload.Offset
import Dumbos.RustTool.Representation

/-! # The expire field as the tool reports it

`effective_expire` reads the field that `dp_get_expire_or_set` uses with a parser
of its own. It takes no white space around a number, and it has no in-band error,
so `-1` is a number to it. On every other text the two readers agree.
-/
namespace Dumbos.RustTool
open Foundation Common Payload

def DEFAULT_EXPIRE_TIMEOUT : ℤ := 60

/-- `str::parse::<i64>`. -/
def parseI64 (s : Bytes) : Option ℤ :=
  let (neg, ds) := splitSign s
  let n : ℤ := if neg then -digitsValue ds else digitsValue ds
  if ds = [] then none
  else if !ds.all isDigit then none
  else if InLongLong n then some n
  else none

/-- What is left of an expire text without its first colon. -/
def expireBody (expire : Bytes) : Bytes :=
  if expire.head? = some 58 then expire.tail else expire

/-- Is relative time, is default, timestamp in seconds. -/
def effectiveExpire (p : DumbPayload) : Except Failure (Bool × Bool × ℤ) := do
  let expire ← getExpireRaw p
  match parseI64 (expireBody (ascii expire)) with
  | some n => return (decide ((ascii expire).head? = some 58), false, n)
  | none => return (true, true, DEFAULT_EXPIRE_TIMEOUT)

/-- The payload is used at `now` as the report says. -/
def UsedAs (now : ℤ) (p : Payload.DumbPayload) : Bool × Bool × ℤ → Prop
  | (_, true, _) => (dpGetExpireOrSet now p).1 = now + 60
  | (true, false, d) => (dpGetExpireOrSet now p).1 = now + d
  | (false, false, e) => dpGetExpireOrSet now p = (e, p)

/-- A number behind the optional colon is not -1 where it stands alone; with white space around it
it is -1 or what the default gives. -/
def ReadAlike (now : ℤ) (expire : Bytes) : Prop :=
  ∀ n : Numeral, n.text = expireBody expire →
    if n.lead = [] ∧ n.trail = [] then n.value ≠ -1
    else n.value = -1 ∨ n.value = if expire.head? = some 58 then 60 else now + 60

theorem bare_iff (n : Numeral) :
    n.lead = [] ∧ n.trail = [] ↔ ∀ c ∈ n.text, isspace c = false := by
  constructor
  · rintro ⟨hlead, htrail⟩ c hc
    rw [Numeral.text, hlead, htrail, List.append_nil, List.nil_append] at hc
    rcases List.mem_append.mp hc with hc | hc
    · rcases n.eq_of_mem_sign hc with rfl | rfl
      · rfl
      · rfl
    · exact not_isspace_of_isDigit (n.digits_digit c hc)
  · intro h
    constructor
    · apply List.eq_nil_iff_forall_not_mem.mpr
      intro c hc
      have hspace := h c (by simp [Numeral.text, hc])
      rw [n.lead_space c hc] at hspace
      cases hspace
    · apply List.eq_nil_iff_forall_not_mem.mpr
      intro c hc
      have hspace := h c (by simp [Numeral.text, hc])
      rw [n.trail_space c hc] at hspace
      cases hspace

theorem parseI64_text {n : Numeral} (hlead : n.lead = []) (htrail : n.trail = []) :
    parseI64 n.text = if InLongLong n.value then some n.value else none := by
  have htext : n.text = n.sign ++ (n.digits ++ n.trail) := by
    rw [Numeral.text, hlead, List.nil_append]
  have hsplit : splitSign n.text = (decide (n.sign = [45]), n.digits) := by
    rw [htext, n.splitSign_text, htrail, List.append_nil]
  have hdigits : n.digits.all isDigit = true := List.all_eq_true.mpr n.digits_digit
  have hvalue : n.value =
      if decide (n.sign = [45]) = true then -(digitsValue n.digits : ℤ) else digitsValue n.digits := by
    simp only [Numeral.value, decide_eq_true_eq]
  simp only [parseI64, hsplit, if_neg n.digits_ne, hdigits, Bool.not_true, Bool.false_eq_true,
    if_false, ← hvalue]

/-- Every text that is parsed is a numeral without white space. -/
theorem exists_bare_of_parseI64 {s : Bytes} {v : ℤ} (h : parseI64 s = some v) :
    ∃ n : Numeral, n.lead = [] ∧ n.trail = [] ∧ n.text = s := by
  obtain ⟨sign, hsign, hs⟩ := splitSign_spec s
  have hne : (splitSign s).2 ≠ [] := by
    intro hnil
    simp [parseI64, hnil] at h
  have hall : (splitSign s).2.all isDigit = true := by
    by_contra hdigit
    rw [Bool.not_eq_true] at hdigit
    simp [parseI64, hdigit] at h
  exact ⟨⟨[], sign, (splitSign s).2, [], by simp, hsign, hne, List.all_eq_true.mp hall, by simp⟩,
    rfl, rfl, by simp [Numeral.text, ← hs]⟩

/-- The two parsers accept the same texts without white space. -/
theorem parseI64_eq_some_iff {s : Bytes} {v : ℤ} :
    parseI64 s = some v ↔ (∀ c ∈ s, isspace c = false) ∧ parseLongLong s = some v := by
  constructor
  · intro h
    obtain ⟨n, hlead, htrail, rfl⟩ := exists_bare_of_parseI64 h
    rw [parseI64_text hlead htrail] at h
    rw [n.parseLongLong_text]
    exact ⟨(bare_iff n).mp ⟨hlead, htrail⟩, h⟩
  · rintro ⟨hspace, h⟩
    obtain ⟨n, rfl⟩ := exists_numeral_of_parseLongLong h
    obtain ⟨hlead, htrail⟩ := (bare_iff n).mpr hspace
    rw [n.parseLongLong_text] at h
    rw [parseI64_text hlead htrail, h]

section ReadAlike
variable {now v : ℤ} {expire : Bytes}

/-- A text that is no number is the default to both readers. -/
theorem readAlike_of_none (h : parseLongLong (expireBody expire) = none)
    (hlen : (expireBody expire).length ≤ 15) : ReadAlike now expire := by
  intro n hn
  have hparse := n.parseLongLong_short (by rw [hn]; omega)
  rw [hn, h] at hparse
  cases hparse

theorem readAlike_iff_of_some {n : Numeral} (hn : n.text = expireBody expire)
    (h : parseLongLong (expireBody expire) = some v) :
    ReadAlike now expire ↔
      if n.lead = [] ∧ n.trail = [] then v ≠ -1
      else v = -1 ∨ v = if expire.head? = some 58 then 60 else now + 60 := by
  have hvalue : ∀ n : Numeral, n.text = expireBody expire → n.value = v := by
    intro n hn
    have hparse := n.parseLongLong_text
    rw [hn, h] at hparse
    split_ifs at hparse with hrange
    exact (Option.some.inj hparse).symm
  constructor
  · intro halike
    have hread := halike n hn
    rw [hvalue n hn] at hread
    exact hread
  · intro hread m hm
    have hbare : (m.lead = [] ∧ m.trail = []) ↔ (n.lead = [] ∧ n.trail = []) := by
      rw [bare_iff, bare_iff, hm, hn]
    simp only [hbare, hvalue m hm]
    exact hread

end ReadAlike

section Used
variable {q : Payload.DumbPayload} {text : Bytes}

theorem head?_cstr {c : UInt8} (hc : c ≠ 0) (b : Bytes) :
    (cstr b).head? = some c ↔ b.head? = some c := by
  cases b with
  | nil => rfl
  | cons d b =>
    by_cases hd : d = 0
    · simp [cstr, hd, hc.symm]
    · simp [cstr_cons_of_ne hd]

/-- Behind a colon the field holds an offset. -/
theorem dpGetExpireOrSet_colon (htext : cstr q.expire.val = text) (h0 : 0 ∈ q.expire.val)
    (hcolon : text.head? = some 58) (now : ℤ) :
    (dpGetExpireOrSet now q).1 =
      now + if (parseLongLong text.tail).getD (-1) = -1 then 60
        else (parseLongLong text.tail).getD (-1) := by
  have hhead : q.expire.val.head? = some 58 := by
    rw [← htext] at hcolon
    exact (head?_cstr (by decide) _).mp hcolon
  rw [dpGetExpireOrSet_unset (dpGetExpire_colon hhead), firstUse, useOffset_colon hhead h0, htext,
    DEFAULT_EXPIRE_TIME]

/-- Anything but a number without a colon is the default. -/
theorem dpGetExpireOrSet_plain (htext : cstr q.expire.val = text) (hcolon : text.head? ≠ some 58)
    (now : ℤ) :
    if (parseLongLong text).getD (-1) = -1 then (dpGetExpireOrSet now q).1 = now + 60
    else dpGetExpireOrSet now q = ((parseLongLong text).getD (-1), q) := by
  have hhead : q.expire.val.head? ≠ some 58 := by
    rw [← htext] at hcolon
    exact mt (head?_cstr (by decide) _).mpr hcolon
  have hget : dpGetExpire q = (parseLongLong text).getD (-1) := by
    rw [dpGetExpire_eq_parse, htext]
  split_ifs with hset
  · rw [dpGetExpireOrSet_unset (hget.trans hset), firstUse, useOffset, if_neg (hhead ·.1),
      DEFAULT_EXPIRE_TIME]
  · rw [dpGetExpireOrSet_absolute (hget ▸ hset), hget]

/-- A number that is reported is what the payload is used as, -1 apart. -/
theorem usedAs_number (htext : cstr q.expire.val = text) (h0 : 0 ∈ q.expire.val) {now v : ℤ}
    (hnow : 0 ≤ now) (hparse : parseLongLong (expireBody text) = some v) :
    UsedAs now q (decide (text.head? = some 58), false, v) ↔ v ≠ -1 := by
  by_cases hcolon : text.head? = some 58
  · rw [expireBody, if_pos hcolon] at hparse
    rw [decide_eq_true hcolon]
    change (dpGetExpireOrSet now q).1 = now + v ↔ _
    rw [dpGetExpireOrSet_colon htext h0 hcolon, hparse, Option.getD_some]
    split_ifs with hv <;> omega
  · rw [expireBody, if_neg hcolon] at hparse
    rw [decide_eq_false hcolon]
    change dpGetExpireOrSet now q = (v, q) ↔ _
    have hplain := dpGetExpireOrSet_plain htext hcolon now
    rw [hparse, Option.getD_some] at hplain
    split_ifs at hplain with hv
    · constructor
      · intro huse
        rw [huse] at hplain
        simp only at hplain
        omega
      · exact fun hne => absurd hv hne
    · exact iff_of_true hplain hv

theorem usedAs_default_of_none (htext : cstr q.expire.val = text) (h0 : 0 ∈ q.expire.val) {now : ℤ}
    (hparse : parseLongLong (expireBody text) = none) (n : ℤ) : UsedAs now q (true, true, n) := by
  change (dpGetExpireOrSet now q).1 = now + 60
  by_cases hcolon : text.head? = some 58
  · rw [expireBody, if_pos hcolon] at hparse
    rw [dpGetExpireOrSet_colon htext h0 hcolon, hparse, Option.getD_none, if_pos rfl]
  · rw [expireBody, if_neg hcolon] at hparse
    have hplain := dpGetExpireOrSet_plain htext hcolon now
    rw [hparse, Option.getD_none, if_pos rfl] at hplain
    exact hplain

/-- A number that is reported as the default is used as the number. -/
theorem usedAs_default_of_some (htext : cstr q.expire.val = text) (h0 : 0 ∈ q.expire.val)
    {now v : ℤ} (hparse : parseLongLong (expireBody text) = some v) (n : ℤ) :
    UsedAs now q (true, true, n) ↔
      v = -1 ∨ v = if text.head? = some 58 then 60 else now + 60 := by
  change (dpGetExpireOrSet now q).1 = now + 60 ↔ _
  by_cases hcolon : text.head? = some 58
  · rw [expireBody, if_pos hcolon] at hparse
    rw [dpGetExpireOrSet_colon htext h0 hcolon, hparse, Option.getD_some, if_pos hcolon]
    split_ifs with hv <;> omega
  · rw [expireBody, if_neg hcolon] at hparse
    have hplain := dpGetExpireOrSet_plain htext hcolon now
    rw [hparse, Option.getD_some] at hplain
    rw [if_neg hcolon]
    split_ifs at hplain with hv
    · exact iff_of_true hplain (.inl hv)
    · rw [hplain]
      exact (or_iff_right hv).symm

end Used

/-- Every text that leaves room for its NUL is stored, and is read back. -/
theorem setExpireRaw_short {expire : String} (hnul : ∀ c ∈ ascii expire, c ≠ 0)
    (hlen : (ascii expire).length ≤ 15) (p : DumbPayload) :
    (setExpireRaw expire p).1 = .ok () ∧
      (setExpireRaw expire p).2.ptr.expire = Field.print 15 (ascii expire) := by
  have hfield : setText (EXPIRE_SIZE - 1) (ascii expire) = .ok (Field.print 15 (ascii expire)) := by
    rw [setText, if_neg (by simp only [EXPIRE_SIZE]; omega)]
    rfl
  rw [setExpireRaw, setString, cString_eq_ok hnul]
  simp only [dpSetExpireStr, hfield]
  exact ⟨rfl, trivial⟩

/-- The tool's report on a stored text and the use of the payload agree exactly on the texts that
the two parsers read alike. -/
theorem effectiveExpire_usedAs_iff {expire : String} (hnul : ∀ c ∈ ascii expire, c ≠ 0)
    (hlen : (ascii expire).length ≤ 15) (p : DumbPayload) {now : ℤ} (hnow : 0 ≤ now) :
    (∃ report, effectiveExpire (setExpireRaw expire p).2 = .ok report ∧
      UsedAs now (setExpireRaw expire p).2.ptr report) ↔ ReadAlike now (ascii expire) := by
  obtain ⟨-, hfield⟩ := setExpireRaw_short hnul hlen p
  generalize (setExpireRaw expire p).2 = q at hfield
  have htext : cstr q.ptr.expire.val = ascii expire := by
    rw [hfield, Field.cstr_print 15 hnul, List.take_of_length_le hlen]
  have h0 : 0 ∈ q.ptr.expire.val := by
    by_contra hnone
    have hall := cstr_eq_self (fun b hb hb0 => hnone (hb0 ▸ hb))
    rw [← hall.symm.trans htext, q.ptr.expire.property] at hlen
    exact absurd hlen (by decide)
  have hraw : getExpireRaw q = .ok expire := by
    have hget : dpGetExpireStr q.ptr = .ok (ascii expire) := by
      rw [dpGetExpireStr, getText, htext, if_neg (by simp only [EXPIRE_SIZE]; omega)]
    rw [getExpireRaw, hget]
    exact toStr_ascii expire
  have hbody : (expireBody (ascii expire)).length ≤ 15 := by
    rw [expireBody]
    split_ifs
    · rw [List.length_tail]
      omega
    · exact hlen
  cases hnumber : parseI64 (expireBody (ascii expire)) with
  | some v =>
    have hreport : effectiveExpire q =
        .ok (decide ((ascii expire).head? = some 58), false, v) := by
      rw [effectiveExpire, hraw]
      change (match parseI64 (expireBody (ascii expire)) with | some n => _ | none => _) = _
      rw [hnumber]
      rfl
    obtain ⟨hspace, hparse⟩ := parseI64_eq_some_iff.mp hnumber
    obtain ⟨n, hn⟩ := exists_numeral_of_parseLongLong hparse
    rw [readAlike_iff_of_some hn hparse, if_pos ((bare_iff n).mpr (hn ▸ hspace)),
      ← usedAs_number htext h0 hnow hparse]
    simp only [hreport, Except.ok.injEq, exists_eq_left']
  | none =>
    have hreport : effectiveExpire q = .ok (true, true, DEFAULT_EXPIRE_TIMEOUT) := by
      rw [effectiveExpire, hraw]
      change (match parseI64 (expireBody (ascii expire)) with | some n => _ | none => _) = _
      rw [hnumber]
      rfl
    simp only [hreport, Except.ok.injEq, exists_eq_left']
    cases hparse : parseLongLong (expireBody (ascii expire)) with
    | none =>
      exact iff_of_true (usedAs_default_of_none htext h0 hparse _) (readAlike_of_none hparse hbody)
    | some v =>
      obtain ⟨n, hn⟩ := exists_numeral_of_parseLongLong hparse
      have hblank : ¬(n.lead = [] ∧ n.trail = []) := by
        intro hbare
        have hspace := (bare_iff n).mp hbare
        rw [hn] at hspace
        rw [parseI64_eq_some_iff.mpr ⟨hspace, hparse⟩] at hnumber
        cases hnumber
      rw [readAlike_iff_of_some hn hparse, if_neg hblank]
      exact usedAs_default_of_some htext h0 hparse _

/-- Seven seconds from the first use. -/
theorem effectiveExpire_usedAs_seven :
    ∃ p, createNew (.ok ()) = .ok p ∧
      ((∃ report, effectiveExpire (setExpireRaw ":7" p).2 = .ok report ∧
        UsedAs 1000 (setExpireRaw ":7" p).2.ptr report) ↔ ReadAlike 1000 (ascii ":7")) :=
  ⟨_, rfl, effectiveExpire_usedAs_iff (by decide +kernel) (by decide +kernel) _ (by norm_num)⟩

/-- The tool reports -1 as an absolute time, the library uses the default. -/
theorem effectiveExpire_minusOne :
    ∃ p, createNew (.ok ()) = .ok p ∧ (setExpireRaw "-1" p).1 = .ok () ∧
      effectiveExpire (setExpireRaw "-1" p).2 = .ok (false, false, -1) ∧
      ¬UsedAs 1000 (setExpireRaw "-1" p).2.ptr (false, false, -1) := by
  refine ⟨_, rfl, by decide +kernel, by decide +kernel, ?_⟩
  intro huse
  have hused : (dpGetExpireOrSet 1000 (setExpireRaw "-1" _).2.ptr).1 = -1 := congrArg Prod.fst huse
  exact absurd hused (by decide +kernel)

end Dumbos.RustTool
