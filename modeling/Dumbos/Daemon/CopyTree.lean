import Dumbos.Common.Errno
import Dumbos.Foundation.Lookup

/-! # Copying a tree

`copy_tree` lays a tree of directories, files and links over a destination, and counts
the bytes of the files as `measure_tree` has counted them before. The source does not
change meanwhile, so it stands here as a tree; the destination is a path into a volume,
resolved anew by each call. Mode bits and what is printed on the way are left out.
-/
namespace Dumbos.Daemon
open Foundation Common

def COPY_BUFFER_SIZE : ℕ := 1024 * 1024
def UINT64_MAX : UInt64 := 18446744073709551615
def SIZE_MAX : ℕ := 18446744073709551615

/-- `d_name`; `.` and `..` are among them. -/
abbrev FileName := {name : Bytes // name ≠ [] ∧ slash ∉ name ∧ 0 ∉ name}

/-- What a link can stand for. -/
abbrev LinkTarget := {target : Bytes // target ≠ [] ∧ 0 ∉ target ∧ target.length < 2 ^ 63}

mutual

/-- An entry of the source. The size that `lstat` tells of a link need not be that of its target. -/
inductive Tree where
  | file (content : Bytes)
  | link (stSize : {n : ℕ // n < 2 ^ 63}) (target : LinkTarget)
  | directory (entries : Entries)

/-- What `readdir` returns, one after the other. -/
inductive Entries where
  | nil
  | cons (name : FileName) (tree : Tree) (rest : Entries)

end

/-- The entries that the loops skip. -/
def IsDots (name : FileName) : Prop := name.val = dot ∨ name.val = dots

instance : DecidablePred IsDots := fun name => inferInstanceAs (Decidable (name.val = dot ∨ name.val = dots))

mutual

def measureTree : Tree → UInt64 → Except Errno UInt64
  | .file content, total =>
    if UINT64_MAX - total < UInt64.ofNat content.length then .error EOVERFLOW
    else .ok (total + UInt64.ofNat content.length)
  | .link _ _, total => .ok total
  | .directory entries, total => measureEntries entries total

def measureEntries : Entries → UInt64 → Except Errno UInt64
  | .nil, total => .ok total
  | .cons name tree rest, total =>
    if IsDots name then measureEntries rest total
    else match measureTree tree total with
      | .error e => .error e
      | .ok total => measureEntries rest total

end

def joinPath (parent name : Bytes) : Bytes :=
  parent ++ (if parent ≠ [] ∧ parent.getLast? = some slash then [] else [slash]) ++ name

/-- `done` of the progress, and how the next reads and writes go: `none` is interrupted, a number is
what a call moves at most. Behind the last of them nothing is interrupted or cut. -/
structure CopyState where
  volume : Volume
  done : UInt64
  calls : List (Option ℕ)

/-- How many of at least one byte the next call moves. -/
def transferred (calls : List (Option ℕ)) (n : ℕ) : Option ℕ :=
  match calls with
  | [] => some n
  | none :: _ => none
  | some most :: _ => some (max 1 (min most n))

theorem transferred_eq_none {calls : List (Option ℕ)} {n : ℕ} (h : transferred calls n = none) :
    calls.tail.length < calls.length := by
  cases calls with
  | nil => cases h
  | cons call calls => exact Nat.lt_succ_self _

theorem transferred_bounds {calls : List (Option ℕ)} {n k : ℕ} (hn : 0 < n)
    (h : transferred calls n = some k) : 0 < k ∧ k ≤ n := by
  cases calls with
  | nil =>
    cases h
    exact ⟨hn, le_rfl⟩
  | cons call calls =>
    cases call with
    | none => cases h
    | some most =>
      cases h
      omega

theorem transferred_decreases {calls : List (Option ℕ)} {buf : Bytes} {k : ℕ} (hne : buf ≠ [])
    (h : transferred calls buf.length = some k) :
    (buf.drop k).length + calls.tail.length < buf.length + calls.length := by
  obtain ⟨hpos, -⟩ := transferred_bounds (List.length_pos_iff.mpr hne) h
  have := List.length_pos_iff.mpr hne
  rw [List.length_drop, List.length_tail]
  omega

def chatgptWriteAll (p : Place) (calls : List (Option ℕ)) (buf : Bytes) (v : Volume) :
    Volume × List (Option ℕ) :=
  if _hne : buf = [] then (v, calls)
  else match _h : transferred calls buf.length with
    | none => chatgptWriteAll p calls.tail buf v
    | some n => chatgptWriteAll p calls.tail (buf.drop n) (v.append p (buf.take n))
termination_by buf.length + calls.length
decreasing_by
  · exact Nat.add_lt_add_left (transferred_eq_none _h) _
  · exact transferred_decreases _hne _h

theorem chatgptWriteAll_of_ne {p : Place} {calls : List (Option ℕ)} {buf : Bytes} {v : Volume}
    (hne : buf ≠ []) : chatgptWriteAll p calls buf v =
      match transferred calls buf.length with
      | none => chatgptWriteAll p calls.tail buf v
      | some n => chatgptWriteAll p calls.tail (buf.drop n) (v.append p (buf.take n)) := by
  rw [chatgptWriteAll, dif_neg hne]
  split <;> rename_i h <;> rw [h]

/-- The loop writes all of it, however the calls go. -/
theorem chatgptWriteAll_spec (p : Place) (calls : List (Option ℕ)) (buf : Bytes) (v : Volume) :
    (chatgptWriteAll p calls buf v).1 = v.append p buf ∧
      (chatgptWriteAll p calls buf v).2.length ≤ calls.length := by
  induction calls, buf, v using chatgptWriteAll.induct p with
  | case1 calls v =>
    rw [chatgptWriteAll, dif_pos rfl, Volume.append_nil]
    exact ⟨rfl, le_rfl⟩
  | case2 calls buf v hne hcall ih =>
    rw [chatgptWriteAll_of_ne hne, hcall]
    exact ⟨ih.1, ih.2.trans (transferred_eq_none hcall).le⟩
  | case3 calls buf v hne n hcall ih =>
    rw [chatgptWriteAll_of_ne hne, hcall]
    constructor
    · exact ih.1.trans (by rw [Volume.append_append, List.take_append_drop])
    · apply ih.2.trans
      rw [List.length_tail]
      exact Nat.sub_le _ _

/-- `copy_regular_file` behind the opening of its files: one buffer after the other. -/
def copyLoop (p : Place) (rest : Bytes) (s : CopyState) : CopyState :=
  if _hne : rest = [] then s
  else match _h : transferred s.calls (min rest.length COPY_BUFFER_SIZE) with
    | none => copyLoop p rest { s with calls := s.calls.tail }
    | some nread =>
      let written := chatgptWriteAll p s.calls.tail (rest.take nread) s.volume
      copyLoop p (rest.drop nread) ⟨written.1, s.done + UInt64.ofNat nread, written.2⟩
termination_by rest.length + s.calls.length
decreasing_by
  · exact Nat.add_lt_add_left (transferred_eq_none _h) _
  · have hpos := List.length_pos_iff.mpr _hne
    have hbuffer : 0 < COPY_BUFFER_SIZE := by decide
    have hbounds := transferred_bounds (by omega) _h
    have hcalls := (chatgptWriteAll_spec p s.calls.tail (rest.take nread) s.volume).2
    rw [List.length_tail] at hcalls
    simp only [List.length_drop]
    omega

theorem copyLoop_of_ne {p : Place} {rest : Bytes} {s : CopyState} (hne : rest ≠ []) :
    copyLoop p rest s = match transferred s.calls (min rest.length COPY_BUFFER_SIZE) with
      | none => copyLoop p rest { s with calls := s.calls.tail }
      | some nread =>
        let written := chatgptWriteAll p s.calls.tail (rest.take nread) s.volume
        copyLoop p (rest.drop nread) ⟨written.1, s.done + UInt64.ofNat nread, written.2⟩ := by
  rw [copyLoop, dif_neg hne]
  split <;> rename_i h <;> rw [h]

/-- The loop copies what is left of the file, and counts it. -/
theorem copyLoop_spec (p : Place) (rest : Bytes) (s : CopyState) :
    (copyLoop p rest s).volume = s.volume.append p rest ∧
      (copyLoop p rest s).done = s.done + UInt64.ofNat rest.length := by
  induction rest, s using copyLoop.induct p with
  | case1 s =>
    rw [copyLoop, dif_pos rfl, Volume.append_nil]
    exact ⟨rfl, (UInt64.add_zero _).symm⟩
  | case2 rest s hne hcall ih =>
    rw [copyLoop_of_ne hne, hcall]
    exact ih
  | case3 rest s hne nread hcall written ih =>
    rw [copyLoop_of_ne hne, hcall]
    have hpos := List.length_pos_iff.mpr hne
    have hbounds := transferred_bounds (by rw [COPY_BUFFER_SIZE]; omega) hcall
    have hvolume := (chatgptWriteAll_spec p s.calls.tail (rest.take nread) s.volume).1
    constructor
    · refine ih.1.trans ?_
      change written.1.append p _ = _
      rw [hvolume, Volume.append_append, List.take_append_drop]
    · refine ih.2.trans ?_
      have hlen : rest.length = nread + (rest.drop nread).length := by
        rw [List.length_drop]
        omega
      rw [hlen, UInt64.ofNat_add, ← UInt64.add_assoc]

section Calls
variable (cwd : Place) (dst : Bytes)

/-- `open` with `O_WRONLY`, `O_CREAT`, `O_TRUNC` and `O_NOFOLLOW`. -/
def openNoFollow (v : Volume) : Except Refusal (Place × Volume) :=
  (v.lookup cwd false dst).bind fun p => (v.create p).map fun v' => (p, v')

def unlinkPath (v : Volume) : Except Refusal Volume :=
  (v.lookup cwd false dst).bind v.unlink

def mkdirPath (v : Volume) : Except Refusal Volume :=
  (v.lookupNew cwd dst).bind (v.make .directory)

/-- `symlink` takes no empty target. -/
def symlinkPath (target : Bytes) (v : Volume) : Except Refusal Volume :=
  if target = [] then .error .missing
  else (v.lookup cwd false dst).bind (v.make (.link target))

def lstatPath (v : Volume) : Except Refusal Node :=
  (v.lookup cwd false dst).bind fun p => (v.node p).elim (.error .missing) .ok

def copyRegularFile (content : Bytes) (s : CopyState) : Except Errno Unit × CopyState :=
  match openNoFollow cwd dst s.volume with
  | .ok (p, volume) => (.ok (), copyLoop p content { s with volume := volume })
  | .error .loop => match unlinkPath cwd dst s.volume with
    | .error e => (.error (errnoOf e), s)
    | .ok volume => match openNoFollow cwd dst volume with
      | .error e => (.error (errnoOf e), { s with volume := volume })
      | .ok (p, volume) => (.ok (), copyLoop p content { s with volume := volume })
  | .error e => (.error (errnoOf e), s)

/-- The buffer for `readlink` is doubled until there is room behind the target. -/
def readlinkLoop (target : Bytes) (size : ℕ+) : Except Errno Bytes :=
  let n := min target.length size
  if _h : n < size then .ok (target.take n)
  else if SIZE_MAX / 2 < size then .error EOVERFLOW
  else readlinkLoop target (2 * size)
termination_by target.length + 1 - size
decreasing_by
  have := size.pos
  simp only [PNat.mul_coe]
  change target.length + 1 - 2 * (size : ℕ) < _
  omega

def firstSize (stSize : ℕ) : ℕ+ := if 0 < stSize then stSize.succPNat else 256

def copySymlink (stSize : ℕ) (target : Bytes) (s : CopyState) : Except Errno Unit × CopyState :=
  match readlinkLoop target (firstSize stSize) with
  | .error e => (.error e, s)
  | .ok target => match unlinkPath cwd dst s.volume with
    | .ok volume => link target volume
    | .error .missing => link target s.volume
    | .error e => (.error (errnoOf e), s)
where
  link (target : Bytes) (volume : Volume) : Except Errno Unit × CopyState :=
    match symlinkPath cwd dst (cstr target) volume with
    | .ok volume => (.ok (), { s with volume := volume })
    | .error e => (.error (errnoOf e), { s with volume := volume })

end Calls

mutual

def copyTree (cwd : Place) (dst : Bytes) : Tree → CopyState → Except Errno Unit × CopyState
  | .file content, s => copyRegularFile cwd dst content s
  | .link stSize target, s => copySymlink cwd dst stSize target.val s
  | .directory entries, s => match mkdirPath cwd dst s.volume with
    | .ok volume => copyEntries cwd dst entries { s with volume := volume }
    | .error .taken => match lstatPath cwd dst s.volume with
      | .error e => (.error (errnoOf e), s)
      | .ok .directory => copyEntries cwd dst entries s
      | .ok _ => (.error ENOTDIR, s)
    | .error e => (.error (errnoOf e), s)

def copyEntries (cwd : Place) (dst : Bytes) : Entries → CopyState → Except Errno Unit × CopyState
  | .nil, s => (.ok (), s)
  | .cons name tree rest, s =>
    if IsDots name then copyEntries cwd dst rest s
    else match copyTree cwd (joinPath dst name.val) tree s with
      | (.error e, s) => (.error e, s)
      | (.ok (), s) => copyEntries cwd dst rest s

end

end Dumbos.Daemon
