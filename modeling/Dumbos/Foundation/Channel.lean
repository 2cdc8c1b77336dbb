import Dumbos.Foundation.Bytes

/-! # A program on byte streams

A program writes and reads buffers as a whole, and the system below moves them in
pieces of any size, interrupts calls and lets a reader wait. What a program has
done is a function of the bytes that it has read, however they came in.
-/
namespace Dumbos.Foundation
variable {ε α β : Type}

/-- Loops that move a whole buffer, with what is left of it, one after the other. -/
inductive Io (ε α : Type) where
  | done (a : α)
  | writeAll (buf : Bytes) (k : Except ε Unit → Io ε α)
  | readAll (got : Bytes) (len : ℕ) (k : Except ε Bytes → Io ε α)

namespace Io

/-- A loop with nothing left to move ends without a call. -/
def settle : Io ε α → Io ε α
  | .done a => .done a
  | .writeAll buf k => if buf = [] then (k (.ok ())).settle else .writeAll buf k
  | .readAll got len k => if len = 0 then (k (.ok got)).settle else .readAll got len k

/-- How a program goes on with some input: what it writes, and where it stops for want of more. -/
def drive : Io ε α → Bytes → Bytes × Io ε α
  | .done a, _ => ([], .done a)
  | .writeAll buf k, input =>
    let r := (k (.ok ())).drive input
    (buf ++ r.1, r.2)
  | .readAll got len k, input =>
    if len ≤ input.length then (k (.ok (got ++ input.take len))).drive (input.drop len)
    else ([], .readAll (got ++ input) (len - input.length) k)

theorem drive_writeAll (buf : Bytes) (k : Except ε Unit → Io ε α) (input : Bytes) :
    (writeAll buf k).drive input =
      (buf ++ ((k (.ok ())).drive input).1, ((k (.ok ())).drive input).2) := rfl

theorem drive_readAll_append (got a : Bytes) (k : Except ε Bytes → Io ε α) (input : Bytes) :
    (readAll got a.length k).drive (a ++ input) = (k (.ok (got ++ a))).drive input := by
  rw [drive, if_pos (by simp), List.take_left, List.drop_left]

/-- A read that has part of its bytes needs the rest. -/
theorem drive_readAll_part {a : Bytes} {len : ℕ} (h : a.length ≤ len) (got : Bytes)
    (k : Except ε Bytes → Io ε α) (input : Bytes) :
    (readAll got len k).drive (a ++ input) =
      (readAll (got ++ a) (len - a.length) k).drive input := by
  have hle : len ≤ (a ++ input).length ↔ len - a.length ≤ input.length := by
    rw [List.length_append]
    omega
  simp only [drive, hle]
  split_ifs with hlen
  · rw [List.take_append, List.drop_append, List.take_of_length_le h, List.drop_eq_nil_of_le h,
      List.nil_append, List.append_assoc]
  · have hrest : len - (a ++ input).length = len - a.length - input.length := by
      rw [List.length_append]
      omega
    rw [hrest, List.append_assoc]

@[simp] theorem drive_settle (io : Io ε α) (input : Bytes) : io.settle.drive input = io.drive input := by
  induction io generalizing input with
  | done a => rfl
  | writeAll buf k ih =>
    rw [settle]
    split_ifs with hbuf
    · rw [ih, drive_writeAll, hbuf]
      rfl
    · rfl
  | readAll got len k ih =>
    rw [settle]
    split_ifs with hlen
    · rw [ih, hlen, drive, if_pos (Nat.zero_le _), List.take_zero, List.append_nil, List.drop_zero]
    · rfl

/-- Input may come in two parts. -/
theorem drive_append (io : Io ε α) (a b : Bytes) :
    io.drive (a ++ b) =
      ((io.drive a).1 ++ ((io.drive a).2.drive b).1, ((io.drive a).2.drive b).2) := by
  induction io generalizing a with
  | done x => rfl
  | writeAll buf k ih => simp only [drive_writeAll, ih, List.append_assoc]
  | readAll got len k ih =>
    by_cases hlen : len ≤ a.length
    · have hall : len ≤ (a ++ b).length := by
        rw [List.length_append]
        omega
      rw [drive, if_pos hall, List.take_append_of_le_length hlen, List.drop_append_of_le_length hlen,
        ih, drive, if_pos hlen]
    · have hpart : (readAll got len k).drive a = ([], readAll (got ++ a) (len - a.length) k) := by
        rw [drive, if_neg hlen]
      rw [drive_readAll_part (by omega), hpart]
      rfl

theorem drive_prefix (io : Io ε α) {a b : Bytes} (h : a <+: b) : (io.drive a).1 <+: (io.drive b).1 := by
  obtain ⟨c, rfl⟩ := h
  rw [drive_append]
  exact List.prefix_append _ _

/-- A program that is done stays so. -/
theorem drive_done {io : Io ε α} {a : Bytes} {x : α} (h : (io.drive a).2 = .done x) {b : Bytes}
    (hab : a <+: b) : (io.drive b).2 = .done x := by
  obtain ⟨c, rfl⟩ := hab
  rw [drive_append, h]
  rfl

/-- How a program goes on when it reads the end of its input: what it writes, and its result. -/
def close (closed : ε) : Io ε α → Bytes × α
  | .done a => ([], a)
  | .writeAll buf k =>
    let r := (k (.ok ())).close closed
    (buf ++ r.1, r.2)
  | .readAll _ _ k => (k (.error closed)).close closed

/-- A run on all the input there will be. -/
def eval (closed : ε) (io : Io ε α) (input : Bytes) : Bytes × α :=
  let r := io.drive input
  let c := r.2.close closed
  (r.1 ++ c.1, c.2)

theorem eval_writeAll (closed : ε) (buf : Bytes) (k : Except ε Unit → Io ε α) (input : Bytes) :
    (writeAll buf k).eval closed input =
      (buf ++ ((k (.ok ())).eval closed input).1, ((k (.ok ())).eval closed input).2) := by
  simp only [eval, drive_writeAll, List.append_assoc]

theorem eval_readAll (closed : ε) {len : ℕ} {input : Bytes} (h : len ≤ input.length)
    (k : Except ε Bytes → Io ε α) :
    (readAll [] len k).eval closed input = (k (.ok (input.take len))).eval closed (input.drop len) := by
  simp only [eval, drive, if_pos h, List.nil_append]

theorem eval_readAll_short (closed : ε) {len : ℕ} {input : Bytes} (h : ¬len ≤ input.length)
    (k : Except ε Bytes → Io ε α) :
    (readAll [] len k).eval closed input = (k (.error closed)).close closed := by
  simp only [eval, drive, if_neg h, close, List.nil_append]

end Io

/-- What the system says to a call that moves bytes. -/
inductive Reply (ε : Type) where
  | interrupted
  | failed (err : ε)
  | moved (count : ℕ)

/-- Interrupted, or some bytes are moved. -/
def Reply.Clean : Reply ε → Prop
  | .interrupted => True
  | .failed _ => False
  | .moved count => 0 < count

section Step
variable (closed : ε)

/-- One call of a program: where it goes on, what it has written, and what is left to be read. A
count of zero means that the other end is closed; a reader of an empty stream waits. -/
def Io.step (io : Io ε α) (reply : Reply ε) (input : Bytes) : Io ε α × Bytes × Bytes :=
  match io, reply with
  | .done a, _ => (.done a, [], input)
  | io, .interrupted => (io, [], input)
  | .writeAll _ k, .failed err => ((k (.error err)).settle, [], input)
  | .readAll _ _ k, .failed err => ((k (.error err)).settle, [], input)
  | .writeAll buf k, .moved count =>
    if count = 0 then ((k (.error closed)).settle, [], input)
    else ((Io.writeAll (buf.drop count) k).settle, buf.take count, input)
  | .readAll got len k, .moved count =>
    if count = 0 then ((k (.error closed)).settle, [], input)
    else if input = [] then (.readAll got len k, [], input)
    else
      let bytes := input.take (min count len)
      ((Io.readAll (got ++ bytes) (len - bytes.length) k).settle, [], input.drop (min count len))

/-- What a clean call reads and writes is what the program would have read and written anyway. -/
theorem Io.step_drive (io : Io ε α) {reply : Reply ε} (h : reply.Clean) (input : Bytes) :
    ∃ bytes, input = bytes ++ (io.step closed reply input).2.2 ∧ ∀ rest,
      io.drive (bytes ++ rest) =
        ((io.step closed reply input).2.1 ++ ((io.step closed reply input).1.drive rest).1,
          ((io.step closed reply input).1.drive rest).2) := by
  have hstay : (io.step closed reply input) = (io, [], input) → ∃ bytes,
      input = bytes ++ (io.step closed reply input).2.2 ∧ ∀ rest, io.drive (bytes ++ rest) =
        ((io.step closed reply input).2.1 ++ ((io.step closed reply input).1.drive rest).1,
          ((io.step closed reply input).1.drive rest).2) := by
    intro hsame
    rw [hsame]
    exact ⟨[], rfl, fun rest => rfl⟩
  cases reply with
  | interrupted => cases io <;> exact hstay rfl
  | failed err => exact absurd h (by simp [Reply.Clean])
  | moved count =>
    have hcount : count ≠ 0 := Nat.pos_iff_ne_zero.mp h
    cases io with
    | done a => exact hstay rfl
    | writeAll buf k =>
      refine ⟨[], ?_, ?_⟩
      · rw [step, if_neg hcount, List.nil_append]
      · intro rest
        rw [step, if_neg hcount, List.nil_append]
        simp only [drive_settle, drive_writeAll]
        rw [← List.append_assoc, List.take_append_drop]
    | readAll got len k =>
      by_cases hinput : input = []
      · apply hstay
        rw [step, if_neg hcount, if_pos hinput]
      · refine ⟨input.take (min count len), ?_, ?_⟩
        · rw [step, if_neg hcount, if_neg hinput, List.take_append_drop]
        · intro rest
          rw [step, if_neg hcount, if_neg hinput]
          simp only [drive_settle, List.nil_append]
          apply drive_readAll_part
          rw [List.length_take]
          omega

end Step

end Dumbos.Foundation
