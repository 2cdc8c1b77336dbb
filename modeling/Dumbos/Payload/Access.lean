import Dumbos.Common.Errno
import Dumbos.Common.Files
import Dumbos.Payload.Layout

/-! # Setters, getters and files of a payload

The command and the expire text must leave room for their NUL, the data must
stay below the limit of the size field. A payload is written to a file by its
header; what is loaded is the whole file, whatever its header says.
-/
namespace Dumbos.Payload
open Foundation Common

/-- `strncpy` into a field, its last byte forced to NUL; a string that does not fit is refused. -/
def setText (n : ℕ) (s : Bytes) : Except Errno (Foundation.Field (n + 1)) :=
  if n + 1 ≤ min s.length (n + 1) then .error EOVERFLOW else .ok (Field.print n s)

/-- The string in a field, or `NULL` where it has no end. -/
def getText {n : ℕ} (field : Foundation.Field n) : Except Errno Bytes :=
  if n ≤ (cstr field.val).length then .error EOVERFLOW else .ok (cstr field.val)

def dpSetCommand (command : Bytes) (p : DumbPayload) : Except Errno Unit × DumbPayload :=
  match setText (COMMAND_SIZE - 1) command with
  | .error e => (.error e, p)
  | .ok field => (.ok (), { p with command := field })

def dpGetCommand (p : DumbPayload) : Except Errno Bytes := getText p.command

def dpSetExpireStr (expireString : Bytes) (p : DumbPayload) : Except Errno Unit × DumbPayload :=
  match setText (EXPIRE_SIZE - 1) expireString with
  | .error e => (.error e, p)
  | .ok field => (.ok (), { p with expire := field })

def dpGetExpireStr (p : DumbPayload) : Except Errno Bytes := getText p.expire

def dpSetDataSize (size : ℕ) (p : DumbPayload) : Except Errno Unit × DumbPayload :=
  if DUMB_PAYLOAD_DATA_MAX_SIZE < size then (.error EOVERFLOW, p)
  else (.ok (), { p with dataSize := ⟨be32 size, rfl⟩ })

/-- A reallocation that fails leaves the new size over the old data. -/
def dpSetData (realloc : Except Errno Unit) (data : Bytes) (p : DumbPayload) :
    Except Errno Unit × DumbPayload :=
  match dpSetDataSize data.length p with
  | (.error e, p) => (.error e, p)
  | (.ok (), p) => match realloc with
    | .error e => (.error e, p)
    | .ok () => (.ok (), { p with payload := data })

/-- `dp_malloc_get_data`; without data it returns `NULL` and sets `errno` to 0. -/
def dpMallocGetData (malloc : Except Errno Unit) (p : DumbPayload) : Except (Option Errno) Bytes :=
  match dpGetDataSize p with
  | none => .error (some EOVERFLOW)
  | some size =>
    if size = 0 then .error none
    else match malloc with
      | .error e => .error (some e)
      | .ok () => .ok (p.payload.take size)

def dpCreateNew (malloc : Except Errno Unit) : Except Errno DumbPayload := do
  malloc
  return DumbPayload.ofBytes (List.replicate sizeofDumbPayload 0) header_le_replicate

/-- A file that has room for a header. -/
abbrev PayloadFile := {b : Bytes // sizeofDumbPayload ≤ b.length}

def PayloadFile.payload (file : PayloadFile) : DumbPayload :=
  DumbPayload.ofBytes file.val (header_le_loaded file)

/-- A length that is negative as an `int`. -/
def NegativeInt (n : ℕ) : Prop := 2 ^ 31 ≤ n % 2 ^ 32

instance (n : ℕ) : Decidable (NegativeInt n) := inferInstanceAs (Decidable (_ ≤ _))

/-- The calls of `dp_malloc_load`, the `errno` of a file that cannot be opened, and what `errno` holds
while none of the calls has failed. -/
structure LoadCalls where
  openErrno : Errno
  fstat : Except Errno Unit
  malloc : Except Errno Unit
  readAll : Except Errno Unit
  errno : ℕ

/-- Behind `open`, up to what `read_all` returns. -/
def readOpened (calls : LoadCalls) (file : Bytes) : Except Errno PayloadFile := do
  calls.fstat
  if h : file.length < sizeofDumbPayload then throw EINVAL
  else do
    calls.malloc
    calls.readAll
    return ⟨file, header_le_of_not_lt h⟩

/-- `read_all` returns the length of the file, which is kept in an `int`. -/
def dpMallocLoad (fs : FileSystem) (calls : LoadCalls) (path : Bytes) : Except ℕ PayloadFile :=
  match fs path with
  | none => .error calls.openErrno
  | some file => match readOpened calls file with
    | .error e => .error e
    | .ok loaded => if NegativeInt file.length then .error calls.errno else .ok loaded

/-- A call of `dp_malloc_load` behind the opening fails. -/
def LoadFails (calls : LoadCalls) : Prop :=
  calls.fstat ≠ .ok () ∨ calls.malloc ≠ .ok () ∨ calls.readAll ≠ .ok ()

theorem PayloadFile.payload_toBytes (file : PayloadFile) : file.payload.toBytes = file.val :=
  DumbPayload.toBytes_ofBytes _ _

theorem readOpened_cases (calls : LoadCalls) {file : Bytes} (hle : sizeofDumbPayload ≤ file.length) :
    (LoadFails calls ∧ ∃ e, readOpened calls file = .error e) ∨
      ¬LoadFails calls ∧ readOpened calls file = .ok ⟨file, hle⟩ := by
  rw [readOpened, dif_neg (not_lt.mpr hle), LoadFails]
  cases calls.fstat with
  | error e => exact .inl ⟨.inl (by simp), e, rfl⟩
  | ok _ =>
    cases calls.malloc with
    | error e => exact .inl ⟨.inr (.inl (by simp)), e, rfl⟩
    | ok _ =>
      cases calls.readAll with
      | error e => exact .inl ⟨.inr (.inr (by simp)), e, rfl⟩
      | ok _ => exact .inr ⟨by simp, rfl⟩

theorem readOpened_short (calls : LoadCalls) {file : Bytes} (h : file.length < sizeofDumbPayload) :
    ∃ e, readOpened calls file = .error e := by
  rw [readOpened, dif_pos h]
  cases calls.fstat with
  | error e => exact ⟨e, rfl⟩
  | ok _ => exact ⟨EINVAL, rfl⟩

/-- What is loaded is the file that is there. -/
theorem dpMallocLoad_eq_ok_iff {fs : FileSystem} {calls : LoadCalls} {path : Bytes}
    {loaded : PayloadFile} :
    dpMallocLoad fs calls path = .ok loaded ↔
      fs path = some loaded.val ∧ ¬LoadFails calls ∧ ¬NegativeInt loaded.val.length := by
  rw [dpMallocLoad]
  cases hfile : fs path with
  | none => simp
  | some file =>
    rcases lt_or_ge file.length sizeofDumbPayload with hshort | hle
    · obtain ⟨e, he⟩ := readOpened_short calls hshort
      simp only [he, reduceCtorEq, Option.some.injEq, false_iff, not_and]
      intro hsame
      exact absurd (hsame ▸ loaded.property) (not_le.mpr hshort)
    · rcases readOpened_cases calls hle with ⟨hfails, e, he⟩ | ⟨hfails, hread⟩
      · simp [he, hfails]
      · simp only [hread, Option.some.injEq]
        split_ifs with hint
        · simp only [false_iff, not_and, not_not]
          intro hsame _
          rwa [← hsame]
        · simp only [Except.ok.injEq, Subtype.ext_iff]
          constructor
          · intro hsame
            exact ⟨hsame, hfails, hsame ▸ hint⟩
          · exact fun h => h.1

/-- A valid payload is too short for a length that is negative. -/
theorem not_negativeInt_of_validSize {p : DumbPayload} {n : ℕ} (h : dpValidateSize p n) :
    ¬NegativeInt n := by
  obtain ⟨hmax, hlen⟩ := (dpValidateSize_iff _ _).mp h
  simp only [DUMB_PAYLOAD_DATA_MAX_SIZE, sizeofDumbPayload] at hmax hlen
  rw [NegativeInt]
  omega

/-- The calls of `dp_write_to_file`; a write that fails has written some bytes. -/
structure WriteCalls where
  openFile : Except Errno Unit
  writeAll : Option (ℕ × Errno)

def dpWriteToFile (fs : FileSystem) (calls : WriteCalls) (pathname : Bytes) (p : DumbPayload) :
    Except Errno Unit × FileSystem :=
  match calls.openFile with
  | .error e => (.error e, fs)
  | .ok () => match dpGetDataSize p with
    | none => (.error EOVERFLOW, Function.update fs pathname (some []))
    | some size => match calls.writeAll with
      | some (n, e) => (.error e, Function.update fs pathname (some (p.toBytes.take n)))
      | none => (.ok (),
          Function.update fs pathname (some (p.toBytes.take (sizeofDumbPayload + size))))

theorem getText_setText {n : ℕ} {s : Bytes} (hs : ∀ c ∈ s, c ≠ 0) {field : Foundation.Field (n + 1)}
    (h : setText n s = .ok field) : getText field = .ok s := by
  rw [setText] at h
  split_ifs at h with hfit
  cases h
  have hlen : s.length ≤ n := by omega
  have hcstr : cstr (Field.print n s).val = s := by
    rw [Field.cstr_print n hs, List.take_of_length_le hlen]
  rw [getText, hcstr, if_neg (by omega)]

/-- Data that is too long is refused and changes nothing. -/
theorem dpSetData_cases (data : Bytes) (p : DumbPayload) :
    (∃ e, DUMB_PAYLOAD_DATA_MAX_SIZE < data.length ∧ dpSetData (.ok ()) data p = (.error e, p)) ∨
      data.length ≤ DUMB_PAYLOAD_DATA_MAX_SIZE ∧ dpSetData (.ok ()) data p =
        (.ok (), { p with dataSize := ⟨be32 data.length, rfl⟩, payload := data }) := by
  rw [dpSetData, dpSetDataSize]
  by_cases hmax : DUMB_PAYLOAD_DATA_MAX_SIZE < data.length
  · rw [if_pos hmax]
    exact .inl ⟨_, hmax, rfl⟩
  · rw [if_neg hmax]
    exact .inr ⟨not_lt.mp hmax, rfl⟩

/-- The data of a payload whose size field counts it. -/
theorem dpMallocGetData_of_length {p : DumbPayload} {n : ℕ} (hsize : dpGetDataSize p = some n)
    (hlen : p.payload.length = n) :
    dpMallocGetData (.ok ()) p = if n = 0 then .error none else .ok p.payload := by
  rw [dpMallocGetData, hsize]
  simp only
  rw [← hlen, List.take_length]

end Dumbos.Payload
