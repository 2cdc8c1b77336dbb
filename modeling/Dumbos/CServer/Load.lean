import Dumbos.Payload.Access
import Dumbos.Payload.Signature

/-! # `dp_malloc_check_load`

The C server finds the file of a code, checks its expiry, writes the checked
payload back and signs what it returns. The length of the file is compared with
the header only from below, so a payload of the wrong size leaves the server
signed, and no device verifies it.
-/
namespace Dumbos.CServer
open Foundation Common Payload

/-- The calls into the system that fail; `write` is the number of bytes written before that. -/
structure LoadFaults where
  mallocPath : Bool
  mallocUserpath : Bool
  fstat : Bool
  mallocPayload : Bool
  readAll : Bool
  lseek : Bool
  writeAll : Option ℕ

def LoadFaults.none : LoadFaults := ⟨false, false, false, false, false, false, Option.none⟩

structure LoadCall where
  code : Bytes
  username : Bytes
  now : ℤ
  faults : LoadFaults

def codePath (code : Bytes) : Bytes := CODE_FILE_PATH ++ CODE_FILE_PREFIX ++ code

def userCodePath (username code : Bytes) : Bytes :=
  USERDATA_PREFIX ++ username ++ ascii "/" ++ CODE_FILE_PREFIX ++ code

/-- The path that is opened: the one of the user comes first. -/
def openCode (fs : FileSystem) (code username : Bytes) : Option Bytes :=
  if !checkAllowedChars code SECRET_CODE_ALLOWED_CHARS then none
  else if PATH_MAX ≤ (codePath code).length then none
  else if PATH_MAX ≤ (userCodePath username code).length then none
  else if (fs (userCodePath username code)).isSome then some (userCodePath username code)
  else if (fs (codePath code)).isSome then some (codePath code)
  else none

variable (E : Ed25519) (privateKey : Bytes)

/-- The checked payload goes back to the file unsigned, and out signed. -/
def writeBack (faults : LoadFaults) (size : ℕ) (payload : DumbPayload) :
    Option (DumbPayload × ℕ) × Bytes :=
  if faults.lseek then (none, [])
  else match faults.writeAll with
    | some n => (none, payload.toBytes.take n)
    | none => match dpSign E privateKey size payload with
      | (.error _, _) => (none, payload.toBytes)
      | (.ok (), signed) => (some (signed, size), payload.toBytes)

/-- What follows `open`: the payload that is returned with its size, and the bytes that are
written over the file from its start. `read_all` returns the length, which is kept in an `int`. -/
def checkLoad (now : ℤ) (faults : LoadFaults) (file : Bytes) : Option (DumbPayload × ℕ) × Bytes :=
  if faults.fstat then (none, [])
  else if h : file.length < sizeofDumbPayload then (none, [])
  else if faults.mallocPayload then (none, [])
  else if faults.readAll then (none, [])
  else if NegativeInt file.length then (none, [])
  else
    let (expired, payload) := dpIsExpired now (DumbPayload.ofBytes file (header_le_of_not_lt h))
    if expired then (none, []) else writeBack E privateKey faults file.length payload

def dpMallocCheckLoad (fs : FileSystem) (c : LoadCall) :
    Option (DumbPayload × ℕ) × FileSystem :=
  if c.faults.mallocPath then (none, fs)
  else if c.faults.mallocUserpath then (none, fs)
  else match openCode fs c.code c.username with
    | none => (none, fs)
    | some path => match fs path with
      | none => (none, fs)
      | some file =>
        let (payload, written) := checkLoad E privateKey c.now c.faults file
        (payload, writeOver fs path written)

theorem openCode_congr {fs fs' : FileSystem} (h : ∀ p, (fs p).isSome = (fs' p).isSome)
    (code username : Bytes) : openCode fs code username = openCode fs' code username := by
  simp only [openCode, h]

variable {E privateKey}

theorem writeBack_eq_some {faults : LoadFaults} {size : ℕ} {p q : DumbPayload} {n : ℕ}
    (h : (writeBack E privateKey faults size p).1 = some (q, n)) :
    n = size ∧ dpSign E privateKey size p = (.ok (), q) := by
  rw [writeBack] at h
  split_ifs at h
  cases hwrite : faults.writeAll with
  | some k => simp [hwrite] at h
  | none =>
    generalize dpSign E privateKey size p = r at h ⊢
    obtain ⟨_ | _, signed⟩ := r
    · simp [hwrite] at h
    · simp only [hwrite, Option.some.injEq, Prod.mk.injEq] at h
      exact ⟨h.2.symm, by rw [h.1]⟩

/-- What a call that returns a payload has done to get it. -/
theorem checkLoad_eq_some {now : ℤ} {faults : LoadFaults} {file : Bytes} {q : DumbPayload} {n : ℕ}
    (h : (checkLoad E privateKey now faults file).1 = some (q, n)) :
    ∃ hfile : sizeofDumbPayload ≤ file.length,
      n = file.length ∧ ¬NegativeInt file.length ∧ (dpIsExpired now (DumbPayload.ofBytes file hfile)).1 = false ∧
        dpSign E privateKey file.length (dpIsExpired now (DumbPayload.ofBytes file hfile)).2 =
          (.ok (), q) := by
  rw [checkLoad] at h
  split_ifs at h with hfstat hshort hmalloc hread hint
  generalize hexp : dpIsExpired now (DumbPayload.ofBytes file (not_lt.mp hshort)) = r at h
  obtain ⟨_ | _, payload⟩ := r
  · obtain ⟨hn, hsign⟩ := writeBack_eq_some h
    exact ⟨not_lt.mp hshort, hn, hint, by rw [hexp], by rw [hexp, hsign]⟩
  · simp at h

/-- A returned payload verifies on a device exactly when the file had the size its header
gives, and has that size itself only then. -/
theorem dpVerify_dpMallocCheckLoad (K : KeyPair E) {fs : FileSystem} {c : LoadCall}
    {path file : Bytes} (hopen : openCode fs c.code c.username = some path)
    (hread : fs path = some file) (hfile : sizeofDumbPayload ≤ file.length) {q : DumbPayload} {n : ℕ}
    (h : (dpMallocCheckLoad E K.privateHex fs c).1 = some (q, n)) :
    ((dpVerify E K.publicHex n q).1 = .ok () ∧ n = sizeofDumbPayload + bigEndian q.dataSize.val) ↔
      dpValidateSize (DumbPayload.ofBytes file hfile) file.length := by
  have hload : (checkLoad E K.privateHex c.now c.faults file).1 = some (q, n) := by
    rw [dpMallocCheckLoad] at h
    split_ifs at h
    simpa only [hopen, hread] using h
  obtain ⟨_, rfl, -, -, hsign⟩ := checkLoad_eq_some hload
  generalize hchecked : (dpIsExpired c.now (DumbPayload.ofBytes file hfile)).2 = p at hsign
  have hsize : dpValidateSize p file.length =
      dpValidateSize (DumbPayload.ofBytes file hfile) file.length := by
    apply dpValidateSize_congr
    rw [← hchecked, dpIsExpired_eq_compare, dpIsExpiredCompare_dataSize]
  have hq : q.dataSize = p.dataSize := by
    obtain ⟨-, -, s, -, rfl⟩ := dpSign_eq_ok hsign
    rfl
  rw [dpVerify_dpSign K hsign, ← hsize, and_iff_left_iff_imp, hq]
  exact fun hv => ((dpValidateSize_iff _ _).mp hv).2

/-- A server with one code file, the code `1`. -/
def oneCode (file : Bytes) : FileSystem :=
  fun path => if path = codePath (ascii "1") then some file else none

def callOne (now : ℤ) : LoadCall := ⟨ascii "1", ascii "u", now, LoadFaults.none⟩

def okPayload : DumbPayload := DumbPayload.unsigned (ascii "0") (ascii "ok") []

/-- Its header promises five bytes of data that the file does not have. -/
def shortPayload : DumbPayload := { okPayload with dataSize := ⟨be32 5, rfl⟩ }

theorem dpVerify_dpMallocCheckLoad_okPayload :
    ((dpVerify (Ed25519.single okPayload.toBytes) (KeyPair.single okPayload.toBytes).publicHex 168
        (setSignature okPayload singleSignature)).1 = .ok () ∧
      168 = sizeofDumbPayload + bigEndian okPayload.dataSize.val) ↔
      dpValidateSize (DumbPayload.ofBytes okPayload.toBytes okPayload.le_toBytes_length)
        okPayload.toBytes.length :=
  @dpVerify_dpMallocCheckLoad _ (KeyPair.single okPayload.toBytes) (oneCode okPayload.toBytes)
    (callOne 1000) (codePath (ascii "1")) okPayload.toBytes
    (by decide +kernel) (by decide +kernel) okPayload.le_toBytes_length _ _
    (by decide +kernel)

theorem dpMallocCheckLoad_shortPayload :
    (dpMallocCheckLoad (Ed25519.single shortPayload.toBytes)
        (KeyPair.single shortPayload.toBytes).privateHex (oneCode shortPayload.toBytes)
        (callOne 1000)).1 =
      some (setSignature shortPayload singleSignature, 168) ∧
    (dpVerify (Ed25519.single shortPayload.toBytes) (KeyPair.single shortPayload.toBytes).publicHex
        168 (setSignature shortPayload singleSignature)).1 = .error EINVAL := by
  decide +kernel

end Dumbos.CServer
