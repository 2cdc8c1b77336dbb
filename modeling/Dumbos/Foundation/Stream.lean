import Dumbos.Foundation.Action
import Dumbos.Foundation.Bytes

/-! # Writing through a stream

A stream is opened over a file, which cuts the file to nothing. What a program hands
over waits in a buffer, so a write that succeeds need not have reached the file, and
the last of it is written when the stream is closed. A program that fails leaves what
it has handed over by then.
-/
namespace Dumbos.Foundation

/-- What has been handed to a stream; `none` before it is opened. -/
abbrev Stream := Option Bytes

/-- The file behind a stream that is closed, as much of it as the disk has kept. -/
def Stream.leaves (file : Bytes) (kept : ℕ) : Stream → Bytes
  | none => file
  | some bytes => bytes.take kept

/-- A program that writes through a stream and may fail. -/
abbrev Writing (ε α : Type) := ExceptT ε (StateM Stream) α

namespace Writing
variable {ε α β : Type}

def fopen (opened : Except ε Unit) : Writing ε Unit := fun s =>
  match opened with
  | .error e => (.error e, s)
  | .ok () => (.ok (), some [])

/-- A write that fails may have handed over a part, which is then what the disk keeps. -/
def fwrite (written : Except ε Unit) (bytes : Bytes) : Writing ε Unit := fun s =>
  (written, s.map (· ++ bytes))

/-- What has been handed over by now. -/
def handed : Writing ε Bytes := fun s => (.ok (s.getD []), s)

section Ok
variable {m : Writing ε α} {f : α → Writing ε β} {s t : Stream}

theorem bind_run (m : Writing ε α) (f : α → Writing ε β) (s : Stream) :
    (m >>= f) s = match m s with
      | (.ok a, t) => f a t
      | (.error e, t) => (.error e, t) := by
  change ExceptT.bindCont f (m s).1 (m s).2 = _
  rcases m s with ⟨_ | _, t⟩ <;> rfl

/-- A program that succeeds has succeeded step by step. -/
theorem exists_of_bind {b : β} (h : (m >>= f) s = (.ok b, t)) :
    ∃ a u, m s = (.ok a, u) ∧ f a u = (.ok b, t) := by
  rw [bind_run] at h
  rcases hm : m s with ⟨e | a, u⟩
  · rw [hm] at h
    cases h
  · rw [hm] at h
    exact ⟨a, u, rfl, h⟩

theorem lift_eq_ok {x : Except ε α} {a : α} (h : (liftM x : Writing ε α) s = (.ok a, t)) :
    x = .ok a ∧ t = s := by
  cases h
  exact ⟨rfl, rfl⟩

theorem fopen_eq_ok {opened : Except ε Unit} {u : Unit} (h : fopen opened s = (.ok u, t)) :
    t = some [] := by
  cases opened with
  | error e => cases h
  | ok _ =>
    cases h
    rfl

theorem fwrite_eq_ok {written : Except ε Unit} {bytes : Bytes} {u : Unit}
    (h : fwrite written bytes s = (.ok u, t)) : t = s.map (· ++ bytes) :=
  (Prod.mk.inj h).2.symm

end Ok

section Leaves
variable {m : Writing ε α} {f : α → Writing ε β} {s : Stream} {P : Stream → Prop}

/-- What holds of the stream however the program ends. -/
theorem leaves_bind (herror : ∀ e t, m s = (.error e, t) → P t)
    (hok : ∀ a t, m s = (.ok a, t) → P (f a t).2) : P ((m >>= f) s).2 := by
  rw [bind_run]
  rcases hm : m s with ⟨e | a, t⟩
  · exact herror e t hm
  · exact hok a t hm

end Leaves

section Grows
variable {F : Frame Stream}

theorem keeps_bind {m : Writing ε α} {f : α → Writing ε β} (hm : F.Keeps m)
    (hf : ∀ a, F.Keeps (f a)) : F.Keeps (m >>= f : Writing ε β) := by
  intro s
  refine leaves_bind (P := F.Allows s) (fun e t h => ?_) (fun a t h => ?_)
  · have hstep := hm s
    rwa [h] at hstep
  · have hstep := hm s
    rw [h] at hstep
    exact F.trans hstep (hf a t)

theorem keeps_pure (a : α) : F.Keeps (pure a : Writing ε α) := fun s => F.refl s

end Grows

end Writing

end Dumbos.Foundation
