import Dumbos.Foundation.Bytes

/-! # A disk that several programs use

A name stands for a file, and an open file stays the same file whatever happens to
its name. A file is created with a number that no name has had, in one step that
fails when the name is taken; nothing is truncated.
-/
namespace Dumbos.Foundation

structure Disk where
  entry : Bytes → Option ℕ
  content : ℕ → Bytes
  /-- The number of the next file that is created. -/
  next : ℕ
  entry_lt : ∀ path ino, entry path = some ino → ino < next

namespace Disk

/-- The content of every file that has a name. -/
def file (d : Disk) (path : Bytes) : Option Bytes := (d.entry path).map d.content

/-- `open` with `O_CREAT | O_EXCL` of a name that is free. -/
def create (d : Disk) (path : Bytes) : Disk where
  entry := Function.update d.entry path (some d.next)
  content := Function.update d.content d.next []
  next := d.next + 1
  entry_lt := by
    intro p ino h
    rw [Function.update_apply] at h
    split_ifs at h
    · exact Nat.lt_succ_of_le (Option.some.inj h).ge
    · exact Nat.lt_succ_of_lt (d.entry_lt p ino h)

/-- A write over an open file from offset 0. -/
def write (d : Disk) (ino : ℕ) (b : Bytes) : Disk :=
  { d with content := Function.update d.content ino (b ++ (d.content ino).drop b.length) }

@[simp] theorem write_entry (d : Disk) (ino : ℕ) (b : Bytes) : (d.write ino b).entry = d.entry := rfl

theorem create_entry (d : Disk) (path p : Bytes) :
    (d.create path).entry p = if p = path then some d.next else d.entry p :=
  Function.update_apply d.entry path _ p

theorem create_entry_isSome (d : Disk) (path : Bytes) : ((d.create path).entry path).isSome := by
  simp [create_entry]

theorem create_keeps (d : Disk) (path : Bytes) {p : Bytes} (h : (d.entry p).isSome) :
    ((d.create path).entry p).isSome := by
  rw [create_entry]
  split_ifs
  · rfl
  · exact h

end Disk

end Dumbos.Foundation
