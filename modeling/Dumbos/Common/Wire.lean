import Dumbos.Common.Errno
import Dumbos.Foundation.Bytes

/-! # Numbers and strings on a stream

A number is two bytes and a string is its length and its bytes. Messages end with
an empty string, so what a reader takes for the end depends on every string before
it. A reader that comes to the end of the stream fails.
-/
namespace Dumbos.Common
open Foundation

/-- Includes the final NUL. -/
def MAX_STRING : ℕ := 4096

/-- `write_ushort` of a number that may be no `unsigned short`. -/
def writeUshort (n : ℤ) : Bytes := be16 (n % 65536).toNat

/-- What is at the end of a stream: the other end has closed it, and may have left bytes unread. -/
inductive StreamEnd where
  | closed
  | reset
deriving DecidableEq

/-- With what `read_all` fails there. -/
def StreamEnd.errno : StreamEnd → Errno
  | .closed => EPIPE
  | .reset => ECONNRESET

def readUshort (ends : StreamEnd) : Bytes → Except Errno (ℕ × Bytes)
  | hi :: lo :: rest => .ok (bigEndian [hi, lo], rest)
  | _ => .error ends.errno

/-- What `write_string` puts on the stream when it succeeds. -/
def frame (s : Bytes) : Bytes := writeUshort s.length ++ s

def writeString (s : Bytes) : Except Errno Bytes :=
  if MAX_STRING ≤ (cstr s).length then .error EOVERFLOW else .ok (frame (cstr s))

/-- `memory` is false when `malloc` fails; the buffer is used as a C string. -/
def mallocReadString (ends : StreamEnd) (memory : Bool) (stream : Bytes) :
    Except Errno (Bytes × Bytes) :=
  match readUshort ends stream with
  | .error err => .error err
  | .ok (len, rest) =>
    if MAX_STRING ≤ len then .error EOVERFLOW
    else if !memory then .error ENOMEM
    else if rest.length < len then .error ends.errno
    else .ok (cstr (rest.take len), rest.drop len)

/-- The strings up to an empty one, and what follows it. Every string takes two bytes at least, so
the length of the stream is enough fuel. -/
def readMessages (ends : StreamEnd) : ℕ → Bytes → List Bytes × Except Errno Bytes
  | 0, _ => ([], .error ends.errno)
  | fuel + 1, stream =>
    match mallocReadString ends true stream with
    | .error err => ([], .error err)
    | .ok (msg, rest) =>
      if msg = [] then ([], .ok rest)
      else
        let r := readMessages ends fuel rest
        (msg :: r.1, r.2)

/-- A string that goes over the stream as it is. -/
structure Sendable (s : Bytes) : Prop where
  short : s.length < MAX_STRING
  string : ∀ c ∈ s, c ≠ 0

theorem sendable_nil : Sendable [] := ⟨by decide, by simp⟩

variable (ends : StreamEnd)

theorem readUshort_writeUshort (n : ℤ) (rest : Bytes) :
    readUshort ends (writeUshort n ++ rest) = .ok ((n % 65536).toNat, rest) := by
  have hrange : (n % 65536).toNat < 65536 := by omega
  have hread := bigEndian_be16 (n % 65536).toNat
  rw [Nat.mod_eq_of_lt hrange] at hread
  rw [← hread]
  rfl

theorem writeString_sendable {s : Bytes} (h : Sendable s) : writeString s = .ok (frame s) := by
  rw [writeString, cstr_eq_self h.string, if_neg (not_le.mpr h.short)]

/-- A string is read back with what follows it. -/
theorem mallocReadString_frame {s : Bytes} (h : Sendable s) (rest : Bytes) :
    mallocReadString ends true (frame s ++ rest) = .ok (s, rest) := by
  have hshort := h.short
  have hlen : ((s.length : ℤ) % 65536).toNat = s.length := by
    rw [MAX_STRING] at hshort
    omega
  rw [mallocReadString, frame, List.append_assoc, readUshort_writeUshort, hlen]
  simp only [Bool.not_true, Bool.false_eq_true, if_false, if_neg (not_le.mpr hshort),
    List.length_append, Nat.not_lt.mpr (Nat.le_add_right _ _), List.take_left', List.drop_left',
    cstr_eq_self h.string]

theorem mallocReadString_noMemory {s : Bytes} (h : Sendable s) (rest : Bytes) :
    mallocReadString ends false (frame s ++ rest) = .error ENOMEM := by
  have hshort := h.short
  have hlen : ((s.length : ℤ) % 65536).toNat = s.length := by
    rw [MAX_STRING] at hshort
    omega
  rw [mallocReadString, frame, List.append_assoc, readUshort_writeUshort, hlen]
  simp only [if_neg (not_le.mpr hshort), Bool.not_false, if_true]

def frames (msgs : List Bytes) : Bytes := msgs.flatMap frame

@[simp] theorem frames_nil : frames [] = [] := rfl

@[simp] theorem frames_cons (msg : Bytes) (msgs : List Bytes) :
    frames (msg :: msgs) = frame msg ++ frames msgs := by
  rw [frames, List.flatMap_cons, frames]

theorem frames_append (a b : List Bytes) : frames (a ++ b) = frames a ++ frames b :=
  List.flatMap_append

theorem length_le_frames (msgs : List Bytes) : msgs.length ≤ (frames msgs).length := by
  induction msgs with
  | nil => exact le_rfl
  | cons msg msgs ih =>
    rw [frames_cons, List.length_cons, List.length_append, frame, List.length_append, writeUshort,
      be16_length]
    omega

/-- The reader passes over messages and goes on behind them. -/
theorem readMessages_frames {msgs : List Bytes} (h : ∀ msg ∈ msgs, Sendable msg ∧ msg ≠ [])
    (fuel : ℕ) (rest : Bytes) :
    readMessages ends (msgs.length + fuel) (frames msgs ++ rest) =
      (msgs ++ (readMessages ends fuel rest).1, (readMessages ends fuel rest).2) := by
  induction msgs with
  | nil => rw [List.length_nil, Nat.zero_add, frames_nil, List.nil_append, List.nil_append]
  | cons msg msgs ih =>
    obtain ⟨hsend, hne⟩ := h msg (by simp)
    have hfuel : (msg :: msgs).length + fuel = (msgs.length + fuel) + 1 := by
      rw [List.length_cons]
      omega
    rw [hfuel, readMessages, frames_cons, List.append_assoc, mallocReadString_frame ends hsend]
    simp only [if_neg hne]
    rw [ih fun m hm => h m (List.mem_cons_of_mem _ hm), List.cons_append]

/-- An empty string ends the messages, whatever comes behind it. -/
theorem readMessages_end {msgs : List Bytes} (h : ∀ msg ∈ msgs, Sendable msg ∧ msg ≠ [])
    (rest : Bytes) :
    readMessages ends (frames msgs ++ (frame [] ++ rest)).length
      (frames msgs ++ (frame [] ++ rest)) = (msgs, .ok rest) := by
  have hcount := length_le_frames msgs
  obtain ⟨fuel, hfuel⟩ : ∃ fuel, (frames msgs ++ (frame [] ++ rest)).length =
      msgs.length + (fuel + 1) := by
    have hempty : (frame []).length = 2 := rfl
    refine ⟨(frames msgs ++ (frame [] ++ rest)).length - msgs.length - 1, ?_⟩
    simp only [List.length_append, hempty]
    omega
  rw [hfuel, readMessages_frames ends h, readMessages, mallocReadString_frame ends sendable_nil]
  simp only [if_true, List.append_nil]

end Dumbos.Common
