import Dumbos.Foundation.Form
import Dumbos.RustServer.Request

/-! # The parameters of a request

The server takes the parameters from the query of the URL. A missing field, a field
that is there twice or a time that is no number is an error; other fields are passed
over. Texts that are not UTF-8 are replaced in a way that is left open.
-/
namespace Dumbos.RustServer
open Foundation Common Payload

/-- What follows the first `?`. -/
def queryOf (url : Bytes) : Bytes := (url.dropWhile (· != 63)).drop 1

def fromUtf8Lossy (lossy : Bytes → Bytes) (b : Bytes) : Bytes := if isUtf8 b then b else lossy b

def parseU64 (s : Bytes) : Option ℕ :=
  let digits := if s.head? = some 43 then s.tail else s
  if digits ≠ [] ∧ digits.all isDigit ∧ digitsValue digits < 2 ^ 64 then some (digitsValue digits)
  else none

/-- The only value of a field. -/
def field (pairs : List (Bytes × Bytes)) (name : String) : Option Bytes :=
  match pairs.filter (·.1 = ascii name) with
  | [p] => some p.2
  | _ => none

/-- `Query<DumbRequestParams>`. -/
def parseQuery (lossy : Bytes → Bytes) (query : Bytes) : Option DumbRequestParams := do
  let pairs := (formPairs query).map (Prod.map (fromUtf8Lossy lossy) (fromUtf8Lossy lossy))
  let user ← field pairs "user"
  let code ← field pairs "code"
  let requestid ← field pairs "requestid"
  let requestsig ← field pairs "requestsig"
  let time ← field pairs "time"
  return ⟨user, code, requestid, requestsig, ← parseU64 time⟩

theorem isUtf8_cons {c : UInt8} (hc : c < 0x80) (b : Bytes) : isUtf8 (c :: b) = isUtf8 b := by
  match b with
  | [] => simpa [isUtf8] using hc
  | [_] => simp [isUtf8, hc]
  | [_, _] => simp [isUtf8, hc]
  | _ :: _ :: _ :: _ => rw [isUtf8, if_pos hc]

theorem isUtf8_of_ascii {b : Bytes} (h : ∀ c ∈ b, c < 0x80) : isUtf8 b := by
  induction b with
  | nil => rfl
  | cons c b ih =>
    rw [isUtf8_cons (h c (by simp))]
    exact ih fun d hd => h d (List.mem_cons_of_mem _ hd)

/-- What stands for itself in a query: plain ASCII. -/
def Literal (b : Bytes) : Prop := Plain b ∧ ∀ c ∈ b, c < 0x80

theorem fromUtf8Lossy_literal (lossy : Bytes → Bytes) {b : Bytes} (h : Literal b) :
    fromUtf8Lossy lossy b = b := if_pos (isUtf8_of_ascii h.2)

theorem literal_of_mem {b whitelist : Bytes} (hb : ∀ c ∈ b, c ∈ whitelist)
    (h : ∀ c ∈ whitelist, (c ≠ 37 ∧ c ≠ 38 ∧ c ≠ 43 ∧ c ≠ 61) ∧ c < 0x80) : Literal b :=
  ⟨fun c hc => (h c (hb c hc)).1, fun c hc => (h c (hb c hc)).2⟩

theorem literal_of_digits {b : Bytes} (h : ∀ c ∈ b, isDigit c) : Literal b := by
  have hall : ∀ c : UInt8, 48 ≤ c.toNat ∧ c.toNat ≤ 57 →
      (c ≠ 37 ∧ c ≠ 38 ∧ c ≠ 43 ∧ c ≠ 61) ∧ c < 0x80 := by
    intro c hc
    rw [UInt8.lt_iff_toNat_lt]
    refine ⟨⟨?_, ?_, ?_, ?_⟩, lt_of_le_of_lt hc.2 (by decide)⟩ <;> rintro rfl <;>
      exact absurd hc (by decide)
  exact ⟨fun c hc => (hall c ((isDigit_iff c).mp (h c hc))).1,
    fun c hc => (hall c ((isDigit_iff c).mp (h c hc))).2⟩

theorem parseU64_natText {n : ℕ} (h : n < 2 ^ 64) : parseU64 (natText n) = some n := by
  have hdigits := natText_digits n
  have hhead : (natText n).head? ≠ some 43 := by
    intro hhead
    have := hdigits 43 (List.mem_of_mem_head? hhead)
    simp [isDigit] at this
  simp only [parseU64, hhead, if_false]
  rw [if_pos ⟨natText_ne_nil n, List.all_eq_true.mpr hdigits, by rwa [digitsValue_natText]⟩,
    digitsValue_natText]

/-- Parameters that stand for themselves are read back. -/
theorem parseQuery_formText (lossy : Bytes → Bytes) {q : DumbRequestParams} (hcode : Literal q.code)
    (huser : Literal q.user) (hid : Literal q.requestid) (hsig : Literal q.requestsig)
    (htime : q.time < 2 ^ 64) :
    parseQuery lossy (formText [(ascii "code", q.code), (ascii "user", q.user),
      (ascii "requestid", q.requestid), (ascii "requestsig", q.requestsig),
      (ascii "time", natText q.time)]) = some q := by
  have hnumber : Literal (natText q.time) := literal_of_digits (natText_digits q.time)
  have hnames : ∀ name ∈ ["code", "user", "requestid", "requestsig", "time"],
      Literal (ascii name) := by
    unfold Literal Plain
    decide +kernel
  simp only [List.mem_cons, List.not_mem_nil, or_false, forall_eq_or_imp, forall_eq] at hnames
  obtain ⟨hcode', huser', hid', hsig', htime'⟩ := hnames
  have hpairs := @formPairs_formText [(ascii "code", q.code), (ascii "user", q.user),
    (ascii "requestid", q.requestid), (ascii "requestsig", q.requestsig),
    (ascii "time", natText q.time)] (by simp) (by
      simp only [List.mem_cons, List.not_mem_nil, or_false, forall_eq_or_imp, forall_eq]
      exact ⟨⟨hcode'.1, hcode.1⟩, ⟨huser'.1, huser.1⟩, ⟨hid'.1, hid.1⟩, ⟨hsig'.1, hsig.1⟩,
        htime'.1, hnumber.1⟩)
  rw [parseQuery, hpairs]
  simp only [List.map_cons, List.map_nil, Prod.map, fromUtf8Lossy_literal lossy hcode',
    fromUtf8Lossy_literal lossy huser', fromUtf8Lossy_literal lossy hid',
    fromUtf8Lossy_literal lossy hsig', fromUtf8Lossy_literal lossy htime',
    fromUtf8Lossy_literal lossy hcode, fromUtf8Lossy_literal lossy huser,
    fromUtf8Lossy_literal lossy hid, fromUtf8Lossy_literal lossy hsig,
    fromUtf8Lossy_literal lossy hnumber]
  change (parseU64 (natText q.time)).bind
    (fun time => some ⟨q.user, q.code, q.requestid, q.requestsig, time⟩) = some q
  rw [parseU64_natText htime]
  rfl

end Dumbos.RustServer
