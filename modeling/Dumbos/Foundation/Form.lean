import Dumbos.Foundation.Bytes

/-! # Form-encoded pairs

The query of a URL is a list of pairs of a name and a value. A value may stand for
other bytes than its own; a plain text, without the four bytes that have a meaning,
stands for itself and is read back.
-/
namespace Dumbos.Foundation

def hexDigitValue (c : UInt8) : Option ℕ :=
  if 48 ≤ c && c ≤ 57 then some (c.toNat - 48)
  else if 97 ≤ c && c ≤ 102 then some (c.toNat - 87)
  else if 65 ≤ c && c ≤ 70 then some (c.toNat - 55)
  else none

/-- `+` is a space, `%` and two hex digits are a byte, and another `%` is itself. -/
def formDecode : Bytes → Bytes
  | c :: rest =>
    if c = 43 then 32 :: formDecode rest
    else if c = 37 then match rest with
      | a :: b :: rest => match hexDigitValue a, hexDigitValue b with
        | some top, some bottom => UInt8.ofNat (16 * top + bottom) :: formDecode rest
        | _, _ => 37 :: formDecode (a :: b :: rest)
      | rest => 37 :: formDecode rest
    else c :: formDecode rest
  | [] => []

/-- A piece up to its first `=`, and what follows it. -/
def formPair (piece : Bytes) : Bytes × Bytes :=
  (formDecode (piece.takeWhile (· != 61)), formDecode ((piece.dropWhile (· != 61)).drop 1))

/-- The pairs of a query; empty pieces are passed over. -/
def formPairs (query : Bytes) : List (Bytes × Bytes) :=
  ((query.splitOn 38).filter (· ≠ [])).map formPair

/-- The text of a list of pairs. -/
def formText (pairs : List (Bytes × Bytes)) : Bytes :=
  [38].intercalate (pairs.map fun p => p.1 ++ 61 :: p.2)

/-- None of `%`, `&`, `+` and `=`. -/
def Plain (b : Bytes) : Prop := ∀ c ∈ b, c ≠ 37 ∧ c ≠ 38 ∧ c ≠ 43 ∧ c ≠ 61

theorem formDecode_plain {b : Bytes} (h : Plain b) : formDecode b = b := by
  induction b with
  | nil => rfl
  | cons c b ih =>
    obtain ⟨h37, -, h43, -⟩ := h c (by simp)
    unfold formDecode
    rw [if_neg h43, if_neg h37, ih fun d hd => h d (List.mem_cons_of_mem _ hd)]

/-- A name that stands for itself, and a value, which may have a `=`. -/
theorem formPair_of_plain {name : Bytes} (hname : Plain name) (value : Bytes) :
    formPair (name ++ 61 :: value) = (name, formDecode value) := by
  have hall : ∀ c ∈ name, (c != 61) = true := fun c hc => by simpa using (hname c hc).2.2.2
  rw [formPair, List.takeWhile_append_of_pos hall, List.dropWhile_append_of_pos hall]
  simp [formDecode_plain hname]

/-- Pairs that stand for themselves are read back. -/
theorem formPairs_formText_of_decode {pairs : List (Bytes × Bytes)} (hne : pairs ≠ [])
    (h : ∀ p ∈ pairs, Plain p.1 ∧ 38 ∉ p.2 ∧ formDecode p.2 = p.2) :
    formPairs (formText pairs) = pairs := by
  have hsplit : (formText pairs).splitOn 38 = pairs.map fun p => p.1 ++ 61 :: p.2 := by
    apply List.splitOn_intercalate
    · intro piece hpiece
      obtain ⟨p, hp, rfl⟩ := List.mem_map.mp hpiece
      simp only [List.mem_append, List.mem_cons, not_or]
      exact ⟨fun hc => ((h p hp).1 38 hc).2.1 rfl, by decide, (h p hp).2.1⟩
    · simpa using hne
  have hfull : (pairs.map fun p => p.1 ++ 61 :: p.2).filter (· ≠ []) =
      pairs.map fun p => p.1 ++ 61 :: p.2 := by
    apply List.filter_eq_self.mpr
    intro piece hpiece
    obtain ⟨p, -, rfl⟩ := List.mem_map.mp hpiece
    simp
  rw [formPairs, hsplit, hfull, List.map_map]
  have hpair : ∀ p ∈ pairs, formPair (p.1 ++ 61 :: p.2) = p := by
    intro p hp
    rw [formPair_of_plain (h p hp).1, (h p hp).2.2]
  exact (List.map_congr_left hpair).trans (List.map_id' pairs)

/-- Plain pairs are read back. -/
theorem formPairs_formText {pairs : List (Bytes × Bytes)} (hne : pairs ≠ [])
    (h : ∀ p ∈ pairs, Plain p.1 ∧ Plain p.2) : formPairs (formText pairs) = pairs := by
  apply formPairs_formText_of_decode hne
  intro p hp
  obtain ⟨hname, hvalue⟩ := h p hp
  exact ⟨hname, fun hc => (hvalue 38 hc).2.1 rfl, formDecode_plain hvalue⟩

/-- What a text of pairs consists of. -/
theorem mem_formText {pairs : List (Bytes × Bytes)} {c : UInt8} (h : c ∈ formText pairs) :
    c = 38 ∨ c = 61 ∨ ∃ p ∈ pairs, c ∈ p.1 ∨ c ∈ p.2 := by
  have hfirst : ∀ p : Bytes × Bytes, ∀ rest, c ∈ p.1 ++ 61 :: p.2 →
      c = 61 ∨ ∃ q ∈ p :: rest, c ∈ q.1 ∨ c ∈ q.2 := by
    intro p rest hc
    rcases List.mem_append.mp hc with hc | hc
    · exact .inr ⟨p, List.mem_cons_self, .inl hc⟩
    · rcases List.mem_cons.mp hc with rfl | hc
      · exact .inl rfl
      · exact .inr ⟨p, List.mem_cons_self, .inr hc⟩
  induction pairs with
  | nil => exact absurd h List.not_mem_nil
  | cons p rest ih =>
    cases rest with
    | nil =>
      rw [formText, List.map_singleton, List.intercalate_singleton] at h
      exact .inr (hfirst p [] h)
    | cons q rest =>
      rw [formText, List.map_cons, List.map_cons, List.intercalate_cons_cons, List.append_assoc] at h
      rcases List.mem_append.mp h with h | h
      · exact .inr (hfirst p _ h)
      · rcases List.mem_cons.mp h with h | h
        · exact .inl h
        · rcases ih h with h | h | ⟨r, hr, hc⟩
          · exact .inl h
          · exact .inr (.inl h)
          · exact .inr (.inr ⟨r, List.mem_cons_of_mem _ hr, hc⟩)

/-- The first pair of a query. -/
theorem formPairs_head? {query : Bytes} (h : query.takeWhile (· != 38) ≠ []) :
    (formPairs query).head? = some (formPair (query.takeWhile (· != 38))) := by
  have htake : ∀ first : Bytes, 38 ∉ first → ∀ c ∈ first, (c != 38) = true := by
    intro first hfirst c hc
    simpa using fun heq : c = 38 => hfirst (heq ▸ hc)
  have hsplit : ∃ pieces, query.splitOn 38 = query.takeWhile (· != 38) :: pieces := by
    by_cases hmem : 38 ∈ query
    · obtain ⟨first, rest, rfl, hfirst⟩ := List.eq_append_cons_of_mem hmem
      refine ⟨rest.splitOn 38, ?_⟩
      rw [List.splitOn_append_cons_self_of_not_mem hfirst,
        List.takeWhile_append_of_pos (htake first hfirst)]
      simp
    · refine ⟨[], ?_⟩
      rw [List.splitOn_eq_singleton hmem, List.takeWhile_eq_self_iff.mpr (htake query hmem)]
  obtain ⟨pieces, hpieces⟩ := hsplit
  rw [formPairs, hpieces, List.filter_cons, if_pos (by simpa using h), List.map_cons, List.head?_cons]

section Ascii

def asciiPart (b : Bytes) : Bytes := b.filter (· < 0x80)

/-- No `%` has two hex digits behind it. -/
def NoEscape (b : Bytes) : Prop :=
  ∀ front x y rest, b = front ++ 37 :: x :: y :: rest →
    ¬((hexDigitValue x).isSome ∧ (hexDigitValue y).isSome)

theorem noEscape_cons {c : UInt8} {b : Bytes} (h : NoEscape b)
    (hc : ∀ x y rest, c = 37 → b = x :: y :: rest →
      ¬((hexDigitValue x).isSome ∧ (hexDigitValue y).isSome)) : NoEscape (c :: b) := by
  rintro (_ | ⟨d, front⟩) x y rest heq
  · obtain ⟨rfl, hb⟩ := List.cons.inj heq
    exact hc x y rest rfl hb
  · obtain ⟨rfl, hb⟩ := List.cons.inj heq
    exact h front x y rest hb

theorem NoEscape.tail {c : UInt8} {b : Bytes} (h : NoEscape (c :: b)) : NoEscape b :=
  fun front x y rest heq => h (c :: front) x y rest (by rw [heq]; rfl)

theorem formDecode_plus (rest : Bytes) : formDecode (43 :: rest) = 32 :: formDecode rest := by
  conv_lhs => unfold formDecode
  rw [if_pos rfl]

theorem formDecode_escape {x y : UInt8} {top bottom : ℕ} (hx : hexDigitValue x = some top)
    (hy : hexDigitValue y = some bottom) (rest : Bytes) :
    formDecode (37 :: x :: y :: rest) = UInt8.ofNat (16 * top + bottom) :: formDecode rest := by
  conv_lhs => unfold formDecode
  rw [if_neg (by decide), if_pos rfl]
  simp only [hx, hy]

theorem formDecode_percent {rest : Bytes} (h : ∀ x y rest', rest = x :: y :: rest' →
    ¬((hexDigitValue x).isSome ∧ (hexDigitValue y).isSome)) :
    formDecode (37 :: rest) = 37 :: formDecode rest := by
  conv_lhs => unfold formDecode
  rw [if_neg (by decide), if_pos rfl]
  match rest with
  | [] => rfl
  | [_] => rfl
  | x :: y :: rest' =>
    have hxy := h x y rest' rfl
    cases hx : hexDigitValue x with
    | none => simp only [hx]
    | some top =>
      cases hy : hexDigitValue y with
      | none => simp only [hx, hy]
      | some bottom =>
        rw [hx, hy] at hxy
        exact absurd ⟨rfl, rfl⟩ hxy

theorem formDecode_other {c : UInt8} (hplus : c ≠ 43) (hpercent : c ≠ 37) (rest : Bytes) :
    formDecode (c :: rest) = c :: formDecode rest := by
  conv_lhs => unfold formDecode
  rw [if_neg hplus, if_neg hpercent]

/-- Without escapes only `+` changes. -/
theorem formDecode_of_noEscape {b : Bytes} (h : NoEscape b) :
    formDecode b = b.map fun c => if c = 43 then 32 else c := by
  induction b with
  | nil => rfl
  | cons c b ih =>
    by_cases hplus : c = 43
    · rw [hplus, formDecode_plus, ih h.tail]
      rfl
    · have hkeep : formDecode (c :: b) = c :: formDecode b := by
        by_cases hpercent : c = 37
        · subst hpercent
          exact formDecode_percent fun x y rest heq => h [] x y rest (by rw [heq]; rfl)
        · exact formDecode_other hplus hpercent b
      rw [hkeep, ih h.tail, List.map_cons, if_neg hplus]

@[simp] theorem asciiPart_cons (c : UInt8) (b : Bytes) :
    asciiPart (c :: b) = if c < 0x80 then c :: asciiPart b else asciiPart b := by
  rw [asciiPart, List.filter_cons]
  simp [asciiPart]

theorem isAscii_of_hexDigitValue {c : UInt8} {v : ℕ} (h : hexDigitValue c = some v) : c < 0x80 := by
  rw [hexDigitValue] at h
  simp only [Bool.and_eq_true, decide_eq_true_eq] at h
  split_ifs at h with hdigit hlower hupper
  · exact UInt8.lt_of_le_of_lt hdigit.2 (by decide)
  · exact UInt8.lt_of_le_of_lt hlower.2 (by decide)
  · exact UInt8.lt_of_le_of_lt hupper.2 (by decide)

/-- A byte that is decoded to one byte of its kind counts alike before and after. -/
theorem asciiPart_formDecode_cons {c d : UInt8} {rest : Bytes}
    (hdecode : formDecode (c :: rest) = d :: formDecode rest) (hkind : d < 0x80 ↔ c < 0x80)
    (hc : ∀ x y rest', c = 37 → rest = x :: y :: rest' →
      ¬((hexDigitValue x).isSome ∧ (hexDigitValue y).isSome))
    (ih : (asciiPart (formDecode rest)).length ≤ (asciiPart rest).length ∧
      ((asciiPart (formDecode rest)).length = (asciiPart rest).length → NoEscape rest)) :
    (asciiPart (formDecode (c :: rest))).length ≤ (asciiPart (c :: rest)).length ∧
      ((asciiPart (formDecode (c :: rest))).length = (asciiPart (c :: rest)).length →
        NoEscape (c :: rest)) := by
  rw [hdecode, asciiPart_cons, asciiPart_cons, if_congr hkind rfl rfl]
  split_ifs
  · rw [List.length_cons, List.length_cons]
    exact ⟨Nat.succ_le_succ ih.1, fun heq => noEscape_cons (ih.2 (Nat.succ.inj heq)) hc⟩
  · exact ⟨ih.1, fun heq => noEscape_cons (ih.2 heq) hc⟩

/-- Decoding loses ASCII characters with every escape, and only there. -/
theorem asciiPart_formDecode_length (b : Bytes) :
    (asciiPart (formDecode b)).length ≤ (asciiPart b).length ∧
      ((asciiPart (formDecode b)).length = (asciiPart b).length → NoEscape b) := by
  induction b using formDecode.induct with
  | case1 rest ih =>
    apply asciiPart_formDecode_cons (formDecode_plus rest) (by decide) _ ih
    exact fun _ _ _ hc => absurd hc (by decide)
  | case2 x y rest top bottom hy hx _ ih =>
    have hless : (asciiPart (formDecode (37 :: x :: y :: rest))).length <
        (asciiPart (37 :: x :: y :: rest)).length := by
      rw [formDecode_escape hx hy]
      simp only [asciiPart_cons, if_pos (isAscii_of_hexDigitValue hx),
        if_pos (isAscii_of_hexDigitValue hy), if_pos (by decide : (37 : UInt8) < 0x80)]
      have hih := ih.1
      split_ifs <;> simp only [List.length_cons] <;> omega
    exact ⟨hless.le, fun heq => absurd heq hless.ne⟩
  | case3 x y rest hxy _ ih =>
    have hnot : ∀ x' y' rest', x :: y :: rest = x' :: y' :: rest' →
        ¬((hexDigitValue x').isSome ∧ (hexDigitValue y').isSome) := by
      rintro x' y' rest' heq ⟨hx, hy⟩
      cases heq
      obtain ⟨top, hx⟩ := Option.isSome_iff_exists.mp hx
      obtain ⟨bottom, hy⟩ := Option.isSome_iff_exists.mp hy
      exact hxy top bottom hx hy
    exact asciiPart_formDecode_cons (formDecode_percent hnot) Iff.rfl
      (fun x' y' rest' _ => hnot x' y' rest') ih
  | case4 rest hshort _ ih =>
    have hnot : ∀ x' y' rest', rest = x' :: y' :: rest' →
        ¬((hexDigitValue x').isSome ∧ (hexDigitValue y').isSome) :=
      fun x' y' rest' heq => absurd heq (hshort x' y' rest')
    exact asciiPart_formDecode_cons (formDecode_percent hnot) Iff.rfl
      (fun x' y' rest' _ => hnot x' y' rest') ih
  | case5 c rest hplus hpercent ih =>
    apply asciiPart_formDecode_cons (formDecode_other hplus hpercent rest) Iff.rfl _ ih
    exact fun _ _ _ hc => absurd hc hpercent
  | case6 =>
    refine ⟨le_rfl, fun _ => ?_⟩
    rintro front x y rest heq
    simp at heq

end Ascii

end Dumbos.Foundation
