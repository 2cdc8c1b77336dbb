import Mathlib.Data.PNat.Basic
import Dumbos.Foundation.Volume

/-! # Error numbers

The values of `errno` that the sources name, as Linux numbers them, and what a
sequence of calls that did not fail says about each of them.
-/
namespace Dumbos.Common
open Foundation

/-- A value of `errno` after a failure; it is never 0. -/
abbrev Errno := ℕ+

def EPERM : Errno := 1
def ENOENT : Errno := 2
def EINTR : Errno := 4
def EIO : Errno := 5
def E2BIG : Errno := 7
def ECHILD : Errno := 10
def ENOMEM : Errno := 12
def EEXIST : Errno := 17
def ENODEV : Errno := 19
def ENOTDIR : Errno := 20
def EISDIR : Errno := 21
def EINVAL : Errno := 22
def ENOSPC : Errno := 28
def EPIPE : Errno := 32
def ERANGE : Errno := 34
def ENAMETOOLONG : Errno := 36
def ENOSYS : Errno := 38
def ELOOP : Errno := 40
def EPROTO : Errno := 71
def EOVERFLOW : Errno := 75
def EUSERS : Errno := 87
def ECONNRESET : Errno := 104
def ECONNREFUSED : Errno := 111
def EKEYEXPIRED : Errno := 127

/-- The number as a return value. -/
def Errno.code (e : Errno) : ℤ := (e : ℕ)

def errnoOf : Refusal → Errno
  | .missing => ENOENT
  | .taken => EEXIST
  | .notDirectory => ENOTDIR
  | .isDirectory => EISDIR
  | .loop => ELOOP

/-- A sequence that succeeds has succeeded step by step. -/
theorem bind_eq_ok {ε α β : Type} {x : Except ε α} {f : α → Except ε β} {b : β}
    (h : x >>= f = .ok b) : ∃ a, x = .ok a ∧ f a = .ok b := by
  cases x with
  | error e => cases h
  | ok a => exact ⟨a, rfl, h⟩

end Dumbos.Common
