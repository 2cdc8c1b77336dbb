import Dumbos.Common.Wire
import Dumbos.Foundation.Channel

/-! # Numbers and strings on a file descriptor

The same readers and writers as programs over `write_all` and `read_all`. Each of
them reads from the bytes that are there what its counterpart on a whole stream
reads, and goes on with what is left.
-/
namespace Dumbos.Common.Fd
open Foundation
variable {α : Type}

def writeUshort (n : ℤ) (k : Except Errno Unit → Io Errno α) : Io Errno α :=
  .writeAll (Common.writeUshort n) k

def readUshort (k : Except Errno ℕ → Io Errno α) : Io Errno α :=
  .readAll [] 2 fun r => k (r.map bigEndian)

def writeString (s : Bytes) (k : Except Errno Unit → Io Errno α) : Io Errno α :=
  if MAX_STRING ≤ (cstr s).length then k (.error EOVERFLOW)
  else writeUshort (cstr s).length fun
    | .error err => k (.error err)
    | .ok _ => .writeAll (cstr s) k

/-- `memory` is false when `malloc` fails. -/
def mallocReadString (memory : Bool) (k : Except Errno Bytes → Io Errno α) : Io Errno α :=
  readUshort fun
    | .error err => k (.error err)
    | .ok len =>
      if MAX_STRING ≤ len then k (.error EOVERFLOW)
      else if !memory then k (.error ENOMEM)
      else .readAll [] len fun r => k (r.map cstr)

section Drive

theorem drive_writeUshort (n : ℤ) (k : Except Errno Unit → Io Errno α) (input : Bytes) :
    (writeUshort n k).drive input =
      (Common.writeUshort n ++ ((k (.ok ())).drive input).1, ((k (.ok ())).drive input).2) := rfl

theorem drive_readUshort (n : ℤ) (k : Except Errno ℕ → Io Errno α) (rest : Bytes) :
    (readUshort k).drive (Common.writeUshort n ++ rest) =
      (k (.ok (n % 65536).toNat)).drive rest := by
  have hread := readUshort_writeUshort .closed n []
  have hvalue : bigEndian (Common.writeUshort n) = (n % 65536).toNat :=
    congrArg Prod.fst (Except.ok.inj hread)
  have hdrive := Io.drive_readAll_append [] (Common.writeUshort n)
    (fun r => k (r.map bigEndian)) rest
  rw [List.nil_append] at hdrive
  rw [← hvalue]
  exact hdrive

theorem drive_writeString {s : Bytes} (h : Sendable s) (k : Except Errno Unit → Io Errno α)
    (input : Bytes) :
    (writeString s k).drive input =
      (frame s ++ ((k (.ok ())).drive input).1, ((k (.ok ())).drive input).2) := by
  rw [writeString, cstr_eq_self h.string, if_neg (not_le.mpr h.short), drive_writeUshort,
    Io.drive_writeAll, frame, List.append_assoc]

theorem drive_mallocReadString {s : Bytes} (h : Sendable s) (k : Except Errno Bytes → Io Errno α)
    (rest : Bytes) :
    (mallocReadString true k).drive (frame s ++ rest) = (k (.ok s)).drive rest := by
  have hshort := h.short
  have hlen : ((s.length : ℤ) % 65536).toNat = s.length := by
    rw [MAX_STRING] at hshort
    omega
  have hdrive := Io.drive_readAll_append [] s (fun r => k (r.map cstr)) rest
  rw [mallocReadString, frame, List.append_assoc, drive_readUshort, hlen]
  simp only [if_neg (not_le.mpr hshort), Bool.not_true, Bool.false_eq_true, if_false]
  rw [hdrive]
  simp only [Except.map, List.nil_append, cstr_eq_self h.string]

end Drive

/-- A program that does not look at its input any more. -/
def Deaf (io : Io Errno α) : Prop := ∀ input, io.eval EPIPE input = io.close EPIPE

theorem deaf_done (a : α) : Deaf (.done a : Io Errno α) := fun _ => rfl

theorem deaf_writeUshort (n : ℤ) {k : Except Errno Unit → Io Errno α} (h : Deaf (k (.ok ()))) :
    Deaf (writeUshort n k) := by
  intro input
  rw [writeUshort, Io.eval_writeAll, h, Io.close]

theorem deaf_writeString (s : Bytes) {k : Except Errno Unit → Io Errno α} (h : ∀ r, Deaf (k r)) :
    Deaf (writeString s k) := by
  rw [writeString]
  split_ifs
  · exact h _
  · apply deaf_writeUshort
    intro input
    simp only [Io.eval_writeAll, h _ input, Io.close]

theorem close_writeString {s : Bytes} (h : Sendable s) (k : Except Errno Unit → Io Errno α) :
    (writeString s k).close EPIPE =
      (frame s ++ ((k (.ok ())).close EPIPE).1, ((k (.ok ())).close EPIPE).2) := by
  rw [writeString, cstr_eq_self h.string, if_neg (not_le.mpr h.short), writeUshort, Io.close,
    Io.close, frame, List.append_assoc]

section Eval

/-- On a whole stream the programs are the readers of a stream. -/
theorem eval_readUshort (k : Except Errno ℕ → Io Errno α) (input : Bytes) :
    (readUshort k).eval EPIPE input = match Common.readUshort .closed input with
      | .error err => (k (.error err)).close EPIPE
      | .ok (n, rest) => (k (.ok n)).eval EPIPE rest := by
  match input with
  | [] => rfl
  | [_] => rfl
  | hi :: lo :: rest => exact Io.eval_readAll EPIPE (by simp) _

theorem eval_mallocReadString (memory : Bool) {k : Except Errno Bytes → Io Errno α}
    (hk : ∀ err, Deaf (k (.error err))) (input : Bytes) :
    (mallocReadString memory k).eval EPIPE input = match Common.mallocReadString .closed memory input with
      | .error err => (k (.error err)).close EPIPE
      | .ok (s, rest) => (k (.ok s)).eval EPIPE rest := by
  rw [mallocReadString, eval_readUshort, Common.mallocReadString]
  cases Common.readUshort .closed input with
  | error err => rfl
  | ok r =>
    obtain ⟨len, rest⟩ := r
    simp only
    split_ifs with hlong hmemory hshort
    · exact hk _ rest
    · exact hk _ rest
    · exact Io.eval_readAll_short EPIPE (not_le.mpr hshort) _
    · exact Io.eval_readAll EPIPE (not_lt.mp hshort) _

end Eval

end Dumbos.Common.Fd
