import Dumbos.RustServer.Query
import Dumbos.Request.UserData

/-! # The code in the address

The device puts a code into the query of its address as it is. Decoding gives it
back if it has no character that means something there: a `&` or a `#` ends it, a
`+` becomes a space, and `%` with two hex digits becomes a byte.
-/
namespace Dumbos.System
open Foundation Common Payload Request RustServer

/-- The query of an address, which ends where the fragment begins. -/
def urlQuery (url : Bytes) : Bytes := queryOf (url.takeWhile (· != 35))

/-- The pairs that a parser of queries gets. -/
def decodeQuery (lossy : Bytes → Bytes) (query : Bytes) : List (Bytes × Bytes) :=
  (formPairs query).map (Prod.map (fromUtf8Lossy lossy) (fromUtf8Lossy lossy))

/-- What replaces malformed parts of a text leaves UTF-8, and the ASCII characters as they are. -/
structure ReplacesMalformed (lossy : Bytes → Bytes) : Prop where
  utf8 : ∀ b, isUtf8 (lossy b)
  ascii : ∀ b, asciiPart (lossy b) = asciiPart b

/-- The parameters of a request for a code. -/
def requestPairs (user requestid requestsig : Bytes) (netTime : ℤ) (code : Bytes) :
    List (Bytes × Bytes) :=
  [(ascii "code", code), (ascii "user", user), (ascii "requestid", requestid),
    (ascii "requestsig", requestsig), (ascii "time", intText netTime)]

/-- A code without a character that means something in a query. -/
structure SafeCode (code : Bytes) : Prop where
  plain : ∀ c ∈ code, c ≠ 35 ∧ c ≠ 38 ∧ c ≠ 43
  noEscape : NoEscape code
  utf8 : isUtf8 code

section Query
variable {baseURL user requestid requestsig code : Bytes} {netTime : ℤ}

theorem requestURL_eq (baseURL user requestid requestsig : Bytes) (netTime : ℤ) (code : Bytes) :
    allocConstructRequestURL baseURL user requestid requestsig netTime (some code) =
      baseURL ++ 63 :: formText (requestPairs user requestid requestsig netTime code) := by
  have hcode : ascii "?code=" = 63 :: (ascii "code" ++ [61]) := by decide
  have huser : ascii "&user=" = 38 :: (ascii "user" ++ [61]) := by decide
  have hid : ascii "&requestid=" = 38 :: (ascii "requestid" ++ [61]) := by decide
  have hsig : ascii "&requestsig=" = 38 :: (ascii "requestsig" ++ [61]) := by decide
  have htime : ascii "&time=" = 38 :: (ascii "time" ++ [61]) := by decide
  rw [allocConstructRequestURL, hcode, huser, hid, hsig, htime]
  simp [formText, List.intercalate, requestPairs]

theorem urlQuery_requestURL (hquery : 63 ∉ baseURL) (hfragment : 35 ∉ baseURL) :
    urlQuery (allocConstructRequestURL baseURL user requestid requestsig netTime (some code)) =
      (formText (requestPairs user requestid requestsig netTime code)).takeWhile (· != 35) := by
  have hbase : ∀ c ∈ baseURL, (c != 35) = true ∧ (c != 63) = true := by
    intro c hc
    simp only [bne_iff_ne, ne_eq]
    exact ⟨fun h => hfragment (h ▸ hc), fun h => hquery (h ▸ hc)⟩
  rw [urlQuery, requestURL_eq, List.takeWhile_append_of_pos fun c hc => (hbase c hc).1,
    List.takeWhile_cons_of_pos (by decide), queryOf,
    List.dropWhile_append_of_pos fun c hc => (hbase c hc).2]
  rfl

/-- The code ends at the first `&` or `#`. -/
def codePiece (code : Bytes) : Bytes := code.takeWhile fun c => c != 38 && c != 35

theorem takeWhile_append_stop {p : UInt8 → Bool} {c : UInt8} (hc : p c = false) (a b : Bytes) :
    (a ++ c :: b).takeWhile p = a.takeWhile p := by
  rw [List.takeWhile_append]
  split_ifs with hall
  · have htake : a.takeWhile p = a := (List.takeWhile_prefix p).eq_of_length hall
    simp [hc, htake]
  · rfl

theorem takeWhile_urlQuery (hquery : 63 ∉ baseURL) (hfragment : 35 ∉ baseURL) :
    (urlQuery (allocConstructRequestURL baseURL user requestid requestsig netTime
      (some code))).takeWhile (· != 38) = ascii "code" ++ 61 :: codePiece code := by
  obtain ⟨rest, hrest⟩ : ∃ rest, formText (requestPairs user requestid requestsig netTime code) =
      (ascii "code" ++ [61]) ++ (code ++ 38 :: rest) := by
    simp only [formText, requestPairs, List.intercalate, List.map_cons, List.map_nil,
      List.intersperse_cons_cons, List.flatten_cons]
    exact ⟨_, by simp only [List.append_assoc, List.cons_append, List.nil_append]; rfl⟩
  have hname : ∀ c ∈ ascii "code" ++ [61], (c != 38 && c != 35) = true := by decide +kernel
  have hstop : (fun c : UInt8 => decide ((c != 38) = true ∧ (c != 35) = true)) =
      fun c => c != 38 && c != 35 := by
    funext c
    rw [Bool.decide_and, Bool.decide_eq_true, Bool.decide_eq_true]
  rw [urlQuery_requestURL hquery hfragment, List.takeWhile_takeWhile, hstop, hrest,
    List.takeWhile_append_of_pos hname, takeWhile_append_stop (by decide), codePiece]
  simp

end Query

section Safe
variable {lossy : Bytes → Bytes} {code : Bytes}

/-- A code that is cut off loses the ASCII character at which it is. -/
theorem asciiPart_codePiece_length (code : Bytes) :
    (asciiPart (codePiece code)).length ≤ (asciiPart code).length ∧
      ((asciiPart (codePiece code)).length = (asciiPart code).length →
        ∀ c ∈ code, c ≠ 35 ∧ c ≠ 38) := by
  induction code with
  | nil => exact ⟨le_rfl, by simp⟩
  | cons c code ih =>
    by_cases hstop : c = 38 ∨ c = 35
    · have hnil : codePiece (c :: code) = [] := by
        rcases hstop with rfl | rfl <;> rfl
      have hc : c < 0x80 := by
        rcases hstop with rfl | rfl <;> decide
      rw [hnil, asciiPart_cons, if_pos hc]
      exact ⟨Nat.zero_le _, fun h => absurd h (by simp [asciiPart])⟩
    · rw [not_or] at hstop
      have hcons : codePiece (c :: code) = c :: codePiece code := by
        rw [codePiece, List.takeWhile_cons_of_pos (by simp [hstop.1, hstop.2])]
        rfl
      rw [hcons, asciiPart_cons, asciiPart_cons]
      split_ifs
      · rw [List.length_cons, List.length_cons]
        refine ⟨Nat.succ_le_succ ih.1, fun h => ?_⟩
        exact List.forall_mem_cons.mpr ⟨⟨hstop.2, hstop.1⟩, ih.2 (Nat.succ.inj h)⟩
      · exact ⟨ih.1, fun h => List.forall_mem_cons.mpr ⟨⟨hstop.2, hstop.1⟩, ih.2 h⟩⟩

theorem codePiece_eq_self {code : Bytes} (h : ∀ c ∈ code, c ≠ 35 ∧ c ≠ 38) : codePiece code = code := by
  apply List.takeWhile_eq_self_iff.mpr
  intro c hc
  simp [h c hc]

/-- A code that is decoded to itself is safe. -/
theorem safeCode_of_decode (hlossy : ReplacesMalformed lossy)
    (h : fromUtf8Lossy lossy (formDecode (codePiece code)) = code) : SafeCode code := by
  have hresult : isUtf8 (fromUtf8Lossy lossy (formDecode (codePiece code))) ∧
      asciiPart (fromUtf8Lossy lossy (formDecode (codePiece code))) =
        asciiPart (formDecode (codePiece code)) := by
    rw [fromUtf8Lossy]
    split_ifs with hutf8
    · exact ⟨hutf8, rfl⟩
    · exact ⟨hlossy.utf8 _, hlossy.ascii _⟩
  rw [h] at hresult
  obtain ⟨hutf8, hascii⟩ := hresult
  obtain ⟨hdecode, hescape⟩ := asciiPart_formDecode_length (codePiece code)
  obtain ⟨hpiece, hwhole⟩ := asciiPart_codePiece_length code
  have hlength := congrArg List.length hascii
  have hstop := hwhole (by omega)
  have hnoescape := hescape (by omega)
  rw [codePiece_eq_self hstop] at hnoescape hascii
  have hplus : 43 ∉ code := by
    intro hmem
    have hpart : 43 ∈ asciiPart code := List.mem_filter.mpr ⟨hmem, by decide⟩
    rw [hascii, formDecode_of_noEscape hnoescape] at hpart
    obtain ⟨c, -, hc⟩ := List.mem_map.mp (List.mem_filter.mp hpart).1
    split_ifs at hc with hc43
    · cases hc
    · exact hc43 hc
  refine ⟨fun c hc => ⟨(hstop c hc).1, (hstop c hc).2, ?_⟩, hnoescape, hutf8⟩
  rintro rfl
  exact hplus hc

theorem SafeCode.formDecode_eq (h : SafeCode code) : formDecode code = code := by
  rw [formDecode_of_noEscape h.noEscape]
  conv_rhs => rw [← List.map_id code]
  apply List.map_congr_left
  intro c hc
  exact if_neg (h.plain c hc).2.2

end Safe

section Survives
variable {lossy : Bytes → Bytes} {baseURL user requestid requestsig code : Bytes} {netTime : ℤ}

/-- A part of a query that is read back: no fragment begins in it, and it stands for itself. -/
def Survives (b : Bytes) : Prop := 35 ∉ b ∧ 38 ∉ b ∧ formDecode b = b ∧ isUtf8 b

theorem SafeCode.survives (h : SafeCode code) : Survives code :=
  ⟨fun hc => (h.plain 35 hc).1 rfl, fun hc => (h.plain 38 hc).2.1 rfl, h.formDecode_eq, h.utf8⟩

theorem survives_of_literal {b : Bytes} (h : Literal b) (hfragment : 35 ∉ b) : Survives b :=
  ⟨hfragment, fun hc => (h.1 38 hc).2.1 rfl, formDecode_plain h.1, isUtf8_of_ascii h.2⟩

theorem survives_of_mem {b whitelist : Bytes} (hb : ∀ c ∈ b, c ∈ whitelist)
    (h : ∀ c ∈ whitelist, (c ≠ 37 ∧ c ≠ 38 ∧ c ≠ 43 ∧ c ≠ 61) ∧ c < 0x80) (h35 : 35 ∉ whitelist) :
    Survives b :=
  survives_of_literal (literal_of_mem hb h) fun hc => h35 (hb 35 hc)

theorem survives_intText (htime : 0 ≤ netTime) : Survives (intText netTime) := by
  rw [intText_of_nonneg htime]
  apply survives_of_literal (literal_of_digits (natText_digits _))
  exact fun hc => absurd (natText_digits _ 35 hc) (by decide)

theorem survives_hex (hsig : ∀ c ∈ requestsig, (hexDigitValue c).isSome) : Survives requestsig := by
  have hnot : ∀ d : UInt8, hexDigitValue d = none → d ∉ requestsig := by
    intro d hd hmem
    have hsome := hsig d hmem
    rw [hd] at hsome
    cases hsome
  apply survives_of_literal
  · constructor
    · intro c hc
      refine ⟨?_, ?_, ?_, ?_⟩ <;> rintro rfl
      · exact hnot 37 (by decide) hc
      · exact hnot 38 (by decide) hc
      · exact hnot 43 (by decide) hc
      · exact hnot 61 (by decide) hc
    · intro c hc
      obtain ⟨v, hv⟩ := Option.isSome_iff_exists.mp (hsig c hc)
      exact isAscii_of_hexDigitValue hv
  · exact hnot 35 (by decide)

/-- Parts that are read back make pairs that are. -/
theorem decodeQuery_of_survives (hquery : 63 ∉ baseURL) (hfragment : 35 ∉ baseURL)
    (hcode : Survives code) (huser : Survives user) (hid : Survives requestid)
    (hsig : Survives requestsig) (htime : 0 ≤ netTime) :
    decodeQuery lossy (urlQuery (allocConstructRequestURL baseURL user requestid requestsig netTime
      (some code))) = requestPairs user requestid requestsig netTime code := by
  have hnames : ∀ name ∈ ["code", "user", "requestid", "requestsig", "time"],
      Literal (ascii name) ∧ 35 ∉ ascii name := by
    unfold Literal Plain
    decide +kernel
  have hpairs : ∀ p ∈ requestPairs user requestid requestsig netTime code,
      (Literal p.1 ∧ 35 ∉ p.1) ∧ Survives p.2 := by
    simp only [requestPairs, List.forall_mem_cons, List.not_mem_nil, false_implies, implies_true, and_true]
    simp only [List.forall_mem_cons, List.not_mem_nil, false_implies, implies_true, and_true] at hnames
    exact ⟨⟨hnames.1, hcode⟩, ⟨hnames.2.1, huser⟩, ⟨hnames.2.2.1, hid⟩, ⟨hnames.2.2.2.1, hsig⟩,
      hnames.2.2.2.2, survives_intText htime⟩
  have hwhole : ∀ c ∈ formText (requestPairs user requestid requestsig netTime code),
      (c != 35) = true := by
    intro c hc
    rw [bne_iff_ne]
    rintro rfl
    rcases mem_formText hc with h | h | ⟨p, hp, h | h⟩
    · cases h
    · cases h
    · exact (hpairs p hp).1.2 h
    · exact (hpairs p hp).2.1 h
  have hform := @formPairs_formText_of_decode (requestPairs user requestid requestsig netTime code)
    (List.cons_ne_nil _ _) fun p hp => ⟨(hpairs p hp).1.1.1, (hpairs p hp).2.2.1, (hpairs p hp).2.2.2.1⟩
  rw [decodeQuery, urlQuery_requestURL hquery hfragment, List.takeWhile_eq_self_iff.mpr hwhole, hform]
  conv_rhs => rw [← List.map_id (requestPairs user requestid requestsig netTime code)]
  apply List.map_congr_left
  intro p hp
  rw [Prod.map, fromUtf8Lossy_literal lossy (hpairs p hp).1.1, fromUtf8Lossy,
    if_pos (hpairs p hp).2.2.2.2]
  rfl

/-- The server reads the parameters of the device, each once, exactly if the code is safe. -/
theorem decodeQuery_requestURL_iff (hlossy : ReplacesMalformed lossy)
    (hquery : 63 ∉ baseURL) (hfragment : 35 ∉ baseURL)
    (huser : ∀ c ∈ user, c ∈ DUMBOS_USER_ALLOWED_CHARS)
    (hid : ∀ c ∈ requestid, c ∈ REQUESTID_ALLOWED_CHARS)
    (hsig : ∀ c ∈ requestsig, (hexDigitValue c).isSome) (htime : 0 ≤ netTime) :
    decodeQuery lossy (urlQuery (allocConstructRequestURL baseURL user requestid requestsig netTime
      (some code))) = requestPairs user requestid requestsig netTime code ↔ SafeCode code := by
  constructor
  · intro h
    apply safeCode_of_decode hlossy
    have hname : Plain (ascii "code") := by
      unfold Plain
      decide +kernel
    have hhead := congrArg List.head? h
    have hpiece := @takeWhile_urlQuery baseURL user requestid requestsig code netTime hquery hfragment
    rw [decodeQuery, List.head?_map, formPairs_head? (by rw [hpiece]; simp), hpiece] at hhead
    rw [formPair_of_plain hname] at hhead
    exact congrArg Prod.snd (Option.some.inj hhead)
  · intro h
    exact decodeQuery_of_survives hquery hfragment h.survives
      (survives_of_mem huser (by decide +kernel) (by decide))
      (survives_of_mem hid (by decide +kernel) (by decide)) (survives_hex hsig) htime

end Survives

section Example

/-- Malformed texts lose everything that is not ASCII. -/
theorem replacesMalformed_asciiPart : ReplacesMalformed asciiPart where
  utf8 b := isUtf8_of_ascii fun c hc => by simpa using (List.mem_filter.mp hc).2
  ascii b := by simp [asciiPart]

theorem decodeQuery_requestURL_iff_dummy :
    decodeQuery asciiPart (urlQuery (allocConstructRequestURL (ascii "https://dumb/code") (ascii "u")
      (ascii "q") (ascii "0a") 5 (some (ascii "a=b%")))) =
        requestPairs (ascii "u") (ascii "q") (ascii "0a") 5 (ascii "a=b%") ↔ SafeCode (ascii "a=b%") :=
  decodeQuery_requestURL_iff replacesMalformed_asciiPart (by decide +kernel) (by decide +kernel)
    (by decide +kernel) (by decide +kernel) (by decide +kernel) (by decide)

/-- The server looks up `aa` where the user has typed `a%61`. -/
theorem decodeQuery_requestURL_escape :
    field (decodeQuery asciiPart (urlQuery (allocConstructRequestURL (ascii "https://dumb/code")
      (ascii "u") (ascii "q") (ascii "0a") 5 (some (ascii "a%61"))))) "code" = some (ascii "aa") ∧
    decodeQuery asciiPart (urlQuery (allocConstructRequestURL (ascii "https://dumb/code")
      (ascii "u") (ascii "q") (ascii "0a") 5 (some (ascii "a%61")))) ≠
        requestPairs (ascii "u") (ascii "q") (ascii "0a") 5 (ascii "a%61") := by
  decide +kernel

end Example

end Dumbos.System
