import Dumbos.RustTool.DumbPayload

/-! # The representation of a payload

The recorded size, the size in the header and the allocation agree, from the
moment that a payload is created. Such a payload is what its bytes and its file
are read back as. Each setter either fails and changes nothing or sets what its
getter returns.
-/
namespace Dumbos.RustTool
open Foundation Common Payload

/-- The recorded size, the size in the header and the allocation agree. -/
structure Consistent (p : DumbPayload) : Prop where
  size_eq : p.size = sizeofDumbPayload + bigEndian p.ptr.dataSize.val
  small : bigEndian p.ptr.dataSize.val ≤ DUMB_PAYLOAD_DATA_MAX_SIZE
  allocated : p.ptr.payload.length = bigEndian p.ptr.dataSize.val

namespace Consistent

theorem valid {p : DumbPayload} (h : Consistent p) : dpValidateSize p.ptr p.size :=
  (dpValidateSize_iff _ _).mpr ⟨h.small, h.size_eq⟩

theorem dpGetDataSize_eq {p : DumbPayload} (h : Consistent p) :
    dpGetDataSize p.ptr = some (bigEndian p.ptr.dataSize.val) := by
  rw [dpGetDataSize]
  exact if_neg (not_lt.mpr h.small)

theorem fullSize_eq {p : DumbPayload} (h : Consistent p) : fullSize p.ptr = p.size := by
  rw [fullSize, h.dpGetDataSize_eq, h.size_eq]
  exact Nat.add_comm _ _

theorem toBytes_length {p : DumbPayload} (h : Consistent p) : p.ptr.toBytes.length = p.size := by
  rw [DumbPayload.toBytes_length, h.allocated, h.size_eq]

/-- The sizes do not depend on the texts and the signature. -/
theorem of_eq {p : DumbPayload} (h : Consistent p) {ptr : Payload.DumbPayload}
    (hsize : ptr.dataSize = p.ptr.dataSize) (hdata : ptr.payload = p.ptr.payload) :
    Consistent { p with ptr := ptr } := by
  constructor
  · rw [hsize]
    exact h.size_eq
  · rw [hsize]
    exact h.small
  · rw [hsize, hdata]
    exact h.allocated

theorem of_validate {b : Bytes} (hle : sizeofDumbPayload ≤ b.length)
    (hvalid : dpValidateSize (DumbPayload.ofBytes b hle) b.length) :
    Consistent ⟨DumbPayload.ofBytes b hle, b.length⟩ := by
  obtain ⟨hmax, hsize⟩ := (dpValidateSize_iff _ _).mp hvalid
  constructor
  · exact hsize
  · exact hmax
  · rw [DumbPayload.ofBytes_payload_length]
    exact Nat.sub_eq_of_eq_add (hsize.trans (Nat.add_comm _ _))

end Consistent

theorem withContext_eq_ok {α : Type} {context : String} {r : Except Errno α} {a : α}
    (h : withContext context r = .ok a) : r = .ok a := by
  cases r with
  | error e => cases h
  | ok b =>
    cases h
    rfl

theorem u8ToDumbpayload_consistent {malloc : Except Errno Unit} {data : Bytes} {p : DumbPayload}
    (h : u8ToDumbpayload malloc data = .ok p) : Consistent p := by
  rw [u8ToDumbpayload] at h
  split_ifs at h with hshort
  obtain ⟨-, -, h⟩ := bind_eq_ok h
  split_ifs at h with hvalid
  cases h
  exact .of_validate _ (by simpa using hvalid)

theorem readFromFile_consistent {fs : FileSystem} {calls : LoadCalls} {path : String}
    {p : DumbPayload} (h : readFromFile fs calls path = .ok p) : Consistent p := by
  obtain ⟨name, -, h⟩ := bind_eq_ok h
  obtain ⟨file, -, h⟩ := bind_eq_ok h
  simp only at h
  split_ifs at h with hvalid
  cases h
  exact .of_validate _ (by simpa using hvalid)

theorem createNew_consistent {malloc : Except Errno Unit} {p : DumbPayload}
    (h : createNew malloc = .ok p) : Consistent p := by
  obtain ⟨ptr, hptr, h⟩ := bind_eq_ok h
  obtain ⟨-, -, hptr⟩ := bind_eq_ok (withContext_eq_ok hptr)
  cases h
  cases hptr
  exact ⟨by decide +kernel, by decide +kernel, by decide +kernel⟩

/-- A payload of `new`, `from_u8` or `from_file`. -/
inductive Created : DumbPayload → Prop where
  | new {malloc : Except Errno Unit} {p : DumbPayload} (h : createNew malloc = .ok p) : Created p
  | fromU8 {malloc : Except Errno Unit} {data : Bytes} {p : DumbPayload}
    (h : u8ToDumbpayload malloc data = .ok p) : Created p
  | fromFile {fs : FileSystem} {calls : LoadCalls} {path : String} {p : DumbPayload}
    (h : readFromFile fs calls path = .ok p) : Created p

theorem Created.consistent {p : DumbPayload} (h : Created p) : Consistent p := by
  cases h with
  | new h => exact createNew_consistent h
  | fromU8 h => exact u8ToDumbpayload_consistent h
  | fromFile h => exact readFromFile_consistent h

theorem cString_eq_ok {s : String} (h : ∀ c ∈ ascii s, c ≠ 0) : cString s = .ok (ascii s) :=
  if_neg fun h₀ => h 0 h₀ rfl

theorem toStr_ascii (s : String) : toStr (ascii s) = .ok s := by
  have hutf : String.fromUTF8? ⟨(ascii s).toArray⟩ = some s := dif_pos s.isValidUTF8
  rw [toStr, hutf]

theorem ascii_injective : Function.Injective ascii := fun s t h =>
  Except.ok.inj ((toStr_ascii s).symm.trans (h ▸ toStr_ascii t))

/-- A setter of a string either fails and changes nothing, or sets a text that is read back. -/
theorem setString_cases
    {set : Bytes → Payload.DumbPayload → Except Errno Unit × Payload.DumbPayload}
    (hset : ∀ t ptr e ptr', set t ptr = (.error e, ptr') → ptr' = ptr)
    (context s : String) (p : DumbPayload) :
    (∃ e, setString set context s p = (.error e, p)) ∨
      ∃ ptr, (∀ c ∈ ascii s, c ≠ 0) ∧ set (ascii s) p.ptr = (.ok (), ptr) ∧
        setString set context s p = (.ok (), { p with ptr := ptr }) := by
  rw [setString, cString]
  by_cases hnul : 0 ∈ ascii s
  · rw [if_pos hnul]
    exact .inl ⟨_, rfl⟩
  · rw [if_neg hnul]
    simp only
    generalize hr : set (ascii s) p.ptr = r
    obtain ⟨e | u, ptr⟩ := r
    · left
      rw [hset _ _ _ _ hr]
      exact ⟨_, rfl⟩
    · right
      refine ⟨ptr, ?_, rfl, rfl⟩
      intro c hc hzero
      exact hnul (hzero ▸ hc)

theorem setCommand_cases (command : String) (p : DumbPayload) :
    (∃ e, setCommand command p = (.error e, p)) ∨
      ∃ field, getText field = .ok (ascii command) ∧
        setCommand command p = (.ok (), { p with ptr := { p.ptr with command := field } }) := by
  have hset : ∀ t ptr e ptr', dpSetCommand t ptr = (.error e, ptr') → ptr' = ptr := by
    intro t ptr e ptr' h
    rw [dpSetCommand] at h
    split at h
    · cases h
      rfl
    · cases h
  rcases setString_cases hset "dp_set_command() failed" command p with herr | ⟨ptr, hnul, hptr, hok⟩
  · exact .inl herr
  · rw [dpSetCommand] at hptr
    split at hptr
    · cases hptr
    · next field hfield =>
      cases hptr
      exact .inr ⟨field, getText_setText hnul hfield, hok⟩

theorem setExpireRaw_cases (expire : String) (p : DumbPayload) :
    (∃ e, setExpireRaw expire p = (.error e, p)) ∨
      ∃ field, getText field = .ok (ascii expire) ∧
        setExpireRaw expire p = (.ok (), { p with ptr := { p.ptr with expire := field } }) := by
  have hset : ∀ t ptr e ptr', dpSetExpireStr t ptr = (.error e, ptr') → ptr' = ptr := by
    intro t ptr e ptr' h
    rw [dpSetExpireStr] at h
    split at h
    · cases h
      rfl
    · cases h
  rcases setString_cases hset "dp_set_expire_str() failed" expire p with herr | ⟨ptr, hnul, hptr, hok⟩
  · exact .inl herr
  · rw [dpSetExpireStr] at hptr
    split at hptr
    · cases hptr
    · next field hfield =>
      cases hptr
      exact .inr ⟨field, getText_setText hnul hfield, hok⟩

theorem setData_cases (data : Bytes) (p : DumbPayload) :
    (∃ e, DUMB_PAYLOAD_DATA_MAX_SIZE < data.length ∧ setData (.ok ()) data p = (.error e, p)) ∨
      data.length ≤ DUMB_PAYLOAD_DATA_MAX_SIZE ∧
        setData (.ok ()) data p =
          (.ok (), ⟨{ p.ptr with dataSize := ⟨be32 data.length, rfl⟩, payload := data },
            sizeofDumbPayload + data.length⟩) := by
  rcases dpSetData_cases data p.ptr with ⟨e, hmax, h⟩ | ⟨hmax, h⟩
  · exact .inl ⟨_, hmax, by rw [setData, h]⟩
  · exact .inr ⟨hmax, by rw [setData, h]⟩

variable (E : Ed25519) in
theorem sign_cases {p : DumbPayload} (h : Consistent p) (privKey : String) :
    (∃ e, sign E privKey p = (.error e, p) ∨
      sign E privKey p = (.error e, { p with ptr := zeroSignature p.ptr })) ∨
      ∃ s, sign E privKey p = (.ok (), { p with ptr := setSignature p.ptr s }) := by
  rw [sign, h.fullSize_eq, h.valid, cString]
  by_cases hnul : 0 ∈ ascii privKey
  · rw [if_pos hnul]
    exact .inl ⟨_, .inl rfl⟩
  · rw [if_neg hnul]
    simp only [Bool.not_true, Bool.false_eq_true, if_false, dpSign]
    split_ifs with hkey hsize
    · exact .inl ⟨_, .inl rfl⟩
    · exact .inl ⟨_, .inl rfl⟩
    · cases E.signHex (ascii privKey) (signedBytes p.ptr p.size) with
      | error e => exact .inl ⟨_, .inr rfl⟩
      | ok s => exact .inr ⟨s, rfl⟩

/-- The check leaves a time alone and replaces every other text. -/
theorem checkExpireAndSet_cases (now later : ℤ) (p : DumbPayload) :
    dpGetExpire p.ptr ≠ -1 ∧ (checkExpireAndSet now later p).2 = p ∨
      dpGetExpire p.ptr = -1 ∧ (checkExpireAndSet now later p).2 =
        { p with ptr := dpSetExpire p.ptr (firstUse now p.ptr) } := by
  by_cases h : dpGetExpire p.ptr = -1
  · right
    rw [checkExpireAndSet, dpIsExpiredCompare, dpGetExpireOrSet_unset h]
    exact ⟨h, rfl⟩
  · left
    rw [checkExpireAndSet, dpIsExpiredCompare, dpGetExpireOrSet_absolute h]
    exact ⟨h, rfl⟩

theorem payloadClone_eq {p : DumbPayload} (h : Consistent p) : payloadClone (.ok ()) p = .ok p := by
  have htake : p.ptr.payload.take (p.size - sizeofDumbPayload) = p.ptr.payload := by
    apply List.take_of_length_le
    rw [h.allocated, h.size_eq, Nat.add_sub_cancel_left]
  change Except.ok { p with ptr := { p.ptr with payload := _ } } = _
  rw [htake]

theorem setData_consistent {data : Bytes} (h : data.length ≤ DUMB_PAYLOAD_DATA_MAX_SIZE)
    (ptr : Payload.DumbPayload) :
    Consistent ⟨{ ptr with dataSize := ⟨be32 data.length, rfl⟩, payload := data },
      sizeofDumbPayload + data.length⟩ := by
  have hsize : bigEndian (be32 data.length) = data.length := by
    rw [bigEndian_be32]
    simp only [DUMB_PAYLOAD_DATA_MAX_SIZE] at h
    omega
  constructor
  · exact congrArg (sizeofDumbPayload + ·) hsize.symm
  · exact hsize.le.trans h
  · exact hsize.symm

theorem Consistent.getData_eq {p : DumbPayload} (h : Consistent p) :
    getData (.ok ()) p = .ok p.ptr.payload := by
  rw [getData, dpMallocGetData_of_length h.dpGetDataSize_eq h.allocated]
  split_ifs with hzero
  · have hnil : p.ptr.payload = [] := List.eq_nil_of_length_eq_zero (h.allocated.trans hzero)
    rw [hnil]
  · rfl

/-- The bytes of a payload are read as the payload. -/
theorem u8ToDumbpayload_toBytes {p : DumbPayload} (h : Consistent p) :
    u8ToDumbpayload (.ok ()) p.ptr.toBytes = .ok p := by
  rw [u8ToDumbpayload, dif_neg (not_lt.mpr p.ptr.le_toBytes_length)]
  simp only [DumbPayload.ofBytes_toBytes, h.toBytes_length, h.valid]
  rfl

theorem dumbpayloadToU8_eq {p : DumbPayload} (h : Consistent p) :
    dumbpayloadToU8 p = .ok p.ptr.toBytes := by
  rw [dumbpayloadToU8, h.valid, h.fullSize_eq, List.take_of_length_le h.toBytes_length.le]
  rfl

theorem dpWriteToFile_eq_ok {p : DumbPayload} (h : Consistent p) {fs fs' : FileSystem}
    {calls : WriteCalls} {name : Bytes} (hwrite : dpWriteToFile fs calls name p.ptr = (.ok (), fs')) :
    fs' name = some p.ptr.toBytes := by
  rw [dpWriteToFile, h.dpGetDataSize_eq] at hwrite
  simp only [← h.size_eq, List.take_of_length_le h.toBytes_length.le] at hwrite
  split at hwrite
  · cases hwrite
  · split at hwrite
    · cases hwrite
    · cases hwrite
      exact Function.update_self name _ fs

/-- A valid file is loaded when the calls succeed. -/
theorem dpMallocLoad_eq {fs : FileSystem} {name file : Bytes} (hfs : fs name = some file)
    (hle : sizeofDumbPayload ≤ file.length)
    (hvalid : dpValidateSize (DumbPayload.ofBytes file hle) file.length) (openErrno : Errno)
    (errno : ℕ) :
    dpMallocLoad fs ⟨openErrno, .ok (), .ok (), .ok (), errno⟩ name = .ok ⟨file, hle⟩ := by
  apply dpMallocLoad_eq_ok_iff.mpr
  exact ⟨hfs, by simp [LoadFails], not_negativeInt_of_validSize hvalid⟩

/-- A file that was written is loaded as the payload. -/
theorem readFromFile_writeToFile {p : DumbPayload} (h : Consistent p) {fs fs' : FileSystem}
    {calls : WriteCalls} {path : String} (hwrite : writeToFile fs calls path p = (.ok (), fs'))
    (openErrno : Errno) (errno : ℕ) :
    readFromFile fs' ⟨openErrno, .ok (), .ok (), .ok (), errno⟩ path = .ok p := by
  rw [writeToFile] at hwrite
  cases hname : cString path with
  | error e =>
    rw [hname] at hwrite
    cases hwrite
  | ok name =>
    rw [hname] at hwrite
    simp only [Prod.mk.injEq] at hwrite
    have hfile := dpWriteToFile_eq_ok h (Prod.ext (withContext_eq_ok hwrite.1) hwrite.2)
    rw [readFromFile, hname]
    change ((dpMallocLoad fs' _ name).mapError _ >>= _) = _
    rw [dpMallocLoad_eq hfile p.ptr.le_toBytes_length
      (by rw [DumbPayload.ofBytes_toBytes, h.toBytes_length]; exact h.valid)]
    change (if _ then _ else _) = _
    simp only [DumbPayload.ofBytes_toBytes, h.toBytes_length, h.valid]
    rfl

end Dumbos.RustTool
