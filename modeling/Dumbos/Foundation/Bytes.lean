import Mathlib.Data.List.TakeWhile
import Mathlib.Tactic

/-! # Byte buffers as C sees them

A buffer is a list of bytes, a string is what stands before the first NUL, and
a structure field is a buffer of a fixed length. Slices and splices are the
reads and writes at an offset; the frame lemmas say which bytes they leave.
-/
namespace Dumbos.Foundation

abbrev Bytes := List UInt8

/-- Whether a buffer is in a list of buffers is decided by this comparison. -/
instance (priority := high) : LawfulBEq Bytes := inferInstance

/-- The bytes of a literal. -/
def ascii (s : String) : Bytes := s.toByteArray.data.toList

/-- The C string that starts at the first byte of a buffer. -/
def cstr (b : Bytes) : Bytes := b.takeWhile (· != 0)

@[simp] theorem cstr_nil : cstr [] = [] := rfl

theorem cstr_no_nul (b : Bytes) : ∀ c ∈ cstr b, c ≠ 0 := by
  intro c hc
  simpa using List.mem_takeWhile_imp hc

theorem cstr_eq_self {b : Bytes} (h : ∀ c ∈ b, c ≠ 0) : cstr b = b := by
  rw [cstr, List.takeWhile_eq_self_iff]
  intro c hc
  simpa using h c hc

@[simp] theorem cstr_cstr (b : Bytes) : cstr (cstr b) = cstr b := cstr_eq_self (cstr_no_nul b)

theorem cstr_append_nul {b : Bytes} (h : ∀ c ∈ b, c ≠ 0) (rest : Bytes) :
    cstr (b ++ 0 :: rest) = b := by
  rw [cstr, List.takeWhile_append_of_pos (by simpa using h)]
  simp

theorem cstr_append_zeros {b : Bytes} (h : ∀ c ∈ b, c ≠ 0) (n : ℕ) :
    cstr (b ++ List.replicate n 0) = b := by
  cases n with
  | zero => simpa using cstr_eq_self h
  | succ n => rw [List.replicate_succ, cstr_append_nul h]

theorem cstr_length_le (b : Bytes) : (cstr b).length ≤ b.length :=
  (List.takeWhile_prefix _).length_le

/-- Forcing a NUL behind a buffer does not change the string in it. -/
theorem cstr_append_singleton_zero (b : Bytes) : cstr (b ++ [0]) = cstr b := by
  induction b with
  | nil => simp [cstr]
  | cons c b ih =>
    by_cases hc : c = 0
    · simp [cstr, hc]
    · simp only [cstr, List.cons_append] at ih ⊢
      simp [hc, ih]

theorem cstr_cons_of_ne {c : UInt8} (h : c ≠ 0) (b : Bytes) : cstr (c :: b) = c :: cstr b := by
  simp [cstr, h]

/-- A buffer with a NUL in it: the string, the NUL and the rest. -/
theorem cstr_append_drop {b : Bytes} (h : 0 ∈ b) : cstr b ++ 0 :: b.drop ((cstr b).length + 1) = b := by
  induction b with
  | nil => cases h
  | cons c b ih =>
    by_cases hc : c = 0
    · simp [cstr, hc]
    · rw [cstr_cons_of_ne hc, List.length_cons, List.drop_succ_cons, List.cons_append,
        ih ((List.mem_cons.mp h).resolve_left (Ne.symm hc))]

/-- Network byte order. -/
def bigEndian (b : Bytes) : ℕ := b.foldl (fun n c => 256 * n + c.toNat) 0

/-- The two bytes of a 16-bit number in network byte order. -/
def be16 (n : ℕ) : Bytes := [UInt8.ofNat (n / 256), UInt8.ofNat n]

@[simp] theorem be16_length (n : ℕ) : (be16 n).length = 2 := rfl

theorem bigEndian_be16 (n : ℕ) : bigEndian (be16 n) = n % 65536 := by
  simp [bigEndian, be16]
  omega

def be32 (n : ℕ) : Bytes :=
  [UInt8.ofNat (n / 16777216), UInt8.ofNat (n / 65536), UInt8.ofNat (n / 256), UInt8.ofNat n]

theorem bigEndian_be32 (n : ℕ) : bigEndian (be32 n) = n % 4294967296 := by
  simp [bigEndian, be32]
  omega

@[simp] theorem be32_length (n : ℕ) : (be32 n).length = 4 := rfl

theorem bigEndian_lt (b : Bytes) : bigEndian b < 256 ^ b.length := by
  induction b using List.reverseRecOn with
  | nil => simp [bigEndian]
  | append_singleton b c ih =>
    have hc := c.toNat_lt
    rw [bigEndian, List.foldl_append, List.length_append, List.length_singleton, pow_succ]
    change 256 * bigEndian b + c.toNat < _
    omega

theorem be16_bigEndian {b : Bytes} (h : b.length = 2) : be16 (bigEndian b) = b := by
  obtain ⟨x, y, rfl⟩ := List.length_eq_two.mp h
  have hx := x.toNat_lt
  have hy := y.toNat_lt
  simp only [be16, bigEndian, List.foldl_cons, List.foldl_nil, List.cons.injEq, ← UInt8.toNat_inj,
    UInt8.toNat_ofNat', and_true]
  omega

theorem be32_bigEndian {b : Bytes} (h : b.length = 4) : be32 (bigEndian b) = b := by
  match b, h with
  | [x, y, z, w], _ =>
    have hx := x.toNat_lt
    have hy := y.toNat_lt
    have hz := z.toNat_lt
    have hw := w.toNat_lt
    simp only [be32, bigEndian, List.foldl_cons, List.foldl_nil, List.cons.injEq, ← UInt8.toNat_inj,
      UInt8.toNat_ofNat', and_true]
    omega

section Slices
variable {α : Type*}

/-- Read `n` elements at offset `o`. -/
def slice (o n : ℕ) (b : List α) : List α := (b.drop o).take n

/-- Overwrite the elements at offset `o`. -/
def splice (o : ℕ) (new b : List α) : List α := b.take o ++ new ++ b.drop (o + new.length)

theorem slice_length {o n : ℕ} {b : List α} (h : o + n ≤ b.length) : (slice o n b).length = n := by
  simp only [slice, List.length_take, List.length_drop]
  omega

theorem slice_append_drop (o n : ℕ) (b : List α) : slice o n b ++ b.drop (o + n) = b.drop o := by
  rw [slice, ← List.drop_drop, List.take_append_drop]

/-- Reading back the middle of three parts. -/
theorem slice_append {o n : ℕ} {a b : List α} (ha : a.length = o) (hb : b.length = n) (c : List α) :
    slice o n (a ++ (b ++ c)) = b := by
  rw [slice, List.drop_left' ha, List.take_left' hb]

theorem slice_context (o n : ℕ) (b : List α) : b = b.take o ++ slice o n b ++ b.drop (o + n) := by
  rw [List.append_assoc, slice_append_drop, List.take_append_drop]

theorem splice_length {o : ℕ} {new b : List α} (h : o + new.length ≤ b.length) :
    (splice o new b).length = b.length := by
  simp only [splice, List.length_append, List.length_take, List.length_drop]
  omega

/-- A write leaves everything behind it alone. -/
theorem drop_splice {o : ℕ} {new b : List α} (h : o + new.length ≤ b.length) :
    (splice o new b).drop (o + new.length) = b.drop (o + new.length) := by
  have hl : (b.take o ++ new).length = o + new.length := by
    simp only [List.length_append, List.length_take]
    omega
  rw [splice, ← hl, List.drop_left]

theorem slice_eq_of_drop_eq {o : ℕ} {b b' : List α} (h : b.drop o = b'.drop o) {k : ℕ} (hk : o ≤ k)
    (n : ℕ) : slice k n b = slice k n b' := by
  have hd : b.drop k = b'.drop k := by
    have hs : k = o + (k - o) := by omega
    rw [hs, ← List.drop_drop, ← List.drop_drop, h]
  rw [slice, slice, hd]

/-- A list put over the front of another agrees with it as far as it is a prefix of it. -/
theorem take_overlay_iff (new b : List α) (k : ℕ) :
    (new ++ b.drop new.length).take k = b.take k ↔ new.take k <+: b := by
  constructor
  · intro h
    have hprefix : new.take k <+: (new ++ b.drop new.length).take k :=
      (List.prefix_append new _).take k
    rw [h] at hprefix
    exact hprefix.trans (List.take_prefix k b)
  · rintro ⟨rest, rfl⟩
    rcases le_total k new.length with hk | hk
    · rw [List.take_append_of_le_length hk, List.take_left' (List.length_take_of_le hk)]
    · rw [List.take_of_length_le hk, List.drop_left]

/-- A write that is cut short changes nothing if its bytes were there before. -/
theorem take_splice_eq_take_iff {o : ℕ} {new b : List α} (ho : o ≤ b.length) (n : ℕ) :
    (splice o new b).take n = b.take n ↔ new.take (n - o) <+: b.drop o := by
  have hsplice : (splice o new b).take n =
      (b.take o).take n ++ (new ++ (b.drop o).drop new.length).take (n - o) := by
    rw [splice, List.append_assoc, ← List.drop_drop, List.take_append, List.length_take_of_le ho]
  have hb : b.take n = (b.take o).take n ++ (b.drop o).take (n - o) := by
    conv_lhs => rw [← List.take_append_drop o b]
    rw [List.take_append, List.length_take_of_le ho]
  rw [hsplice, hb, List.append_cancel_left_eq]
  exact take_overlay_iff new (b.drop o) (n - o)

end Slices

/-- A structure field: a buffer of a fixed size. -/
abbrev Field (n : ℕ) := {b : Bytes // b.length = n}

def Field.zero (n : ℕ) : Field n := ⟨List.replicate n 0, List.length_replicate⟩

/-- `snprintf` of a string into a zeroed field: what fits before the last byte, then NULs. -/
def Field.print (n : ℕ) (s : Bytes) : Field (n + 1) :=
  ⟨s.take n ++ List.replicate (n + 1 - (s.take n).length) 0, by
    simp only [List.length_append, List.length_take, List.length_replicate]
    omega⟩

/-- `snprintf` of a string over a field; what stands behind its NUL is left. -/
def Field.snprintf {n : ℕ} (old : Field (n + 1)) (s : Bytes) : Field (n + 1) :=
  ⟨splice 0 (s.take n ++ [0]) old.val, by
    have hlen : 0 + (s.take n ++ [0]).length ≤ old.val.length := by
      simp only [List.length_append, List.length_take, List.length_singleton, old.property]
      omega
    rw [splice_length hlen, old.property]⟩

theorem Field.snprintf_val {n : ℕ} (old : Field (n + 1)) {s : Bytes} (h : s.length ≤ n) :
    (old.snprintf s).val = s ++ [0] ++ old.val.drop (s ++ [0]).length := by
  change splice 0 (s.take n ++ [0]) old.val = _
  rw [List.take_of_length_le h, splice, List.take_zero, List.nil_append, Nat.zero_add]

theorem Field.cstr_print (n : ℕ) {s : Bytes} (h : ∀ c ∈ s, c ≠ 0) :
    cstr (Field.print n s).val = s.take n :=
  cstr_append_zeros (fun c hc => h c (List.mem_of_mem_take hc)) _

end Dumbos.Foundation
