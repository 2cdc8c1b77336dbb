import Dumbos.Payload.Access
import Dumbos.Payload.Signature

/-! # `DumbPayload` of the Rust tools

The struct holds a pointer into C and the size that it was built with. The size
is also in the header that C writes, so each operation has to keep the two in
step, on its error path too.
-/
namespace Dumbos.RustTool
open Foundation Common Payload

/-- How a call ends other than well. -/
inductive Failure where
  | os (errno : ℕ) (context : String)
  | bail (message : String)
  | panic
deriving DecidableEq

/-- The payload behind the pointer is the whole allocation. -/
@[ext] structure DumbPayload where
  ptr : Payload.DumbPayload
  size : ℕ
deriving DecidableEq

/-- `CString::new(..).unwrap()`. -/
def cString (s : String) : Except Failure Bytes :=
  if 0 ∈ ascii s then .error .panic else .ok (ascii s)

/-- `CStr::to_str().unwrap()`. -/
def toStr (b : Bytes) : Except Failure String :=
  match String.fromUTF8? ⟨b.toArray⟩ with
  | none => .error .panic
  | some s => .ok s

/-- The error of a C function as the Rust one reports it. -/
def withContext {α : Type} (context : String) (r : Except Errno α) : Except Failure α :=
  r.mapError fun (e : Errno) => .os e context

/-- A C setter of a string. -/
def setString (set : Bytes → Payload.DumbPayload → Except Errno Unit × Payload.DumbPayload)
    (context : String) (s : String) (p : DumbPayload) : Except Failure Unit × DumbPayload :=
  match cString s with
  | .error e => (.error e, p)
  | .ok text =>
    let (result, ptr) := set text p.ptr
    (withContext context result, { p with ptr := ptr })

def setCommand (command : String) (p : DumbPayload) : Except Failure Unit × DumbPayload :=
  setString dpSetCommand "dp_set_command() failed" command p

def setExpireRaw (expire : String) (p : DumbPayload) : Except Failure Unit × DumbPayload :=
  setString dpSetExpireStr "dp_set_expire_str() failed" expire p

def getCommand (p : DumbPayload) : Except Failure String := do
  let command ← withContext "dp_get_command() failed" (dpGetCommand p.ptr)
  toStr command

def getExpireRaw (p : DumbPayload) : Except Failure String := do
  let expire ← withContext "dp_get_expire_str() failed" (dpGetExpireStr p.ptr)
  toStr expire

def setData (realloc : Except Errno Unit) (data : Bytes) (p : DumbPayload) :
    Except Failure Unit × DumbPayload :=
  match dpSetData realloc data p.ptr with
  | (.error e, ptr) => (.error (.os e "dp_set_data() failed"), { p with ptr := ptr })
  | (.ok (), ptr) => (.ok (), ⟨ptr, sizeofDumbPayload + data.length⟩)

def clearData (realloc : Except Errno Unit) (p : DumbPayload) : Except Failure Unit × DumbPayload :=
  setData realloc [] p

def getData (malloc : Except Errno Unit) (p : DumbPayload) : Except Failure Bytes :=
  match dpMallocGetData malloc p.ptr with
  | .error none => .ok []
  | .error (some e) => .error (.os e "dp_get_data() failed")
  | .ok data => .ok data

/-- `dp_get_data_size() as usize` plus the header; the -1 of an error wraps around. -/
def fullSize (ptr : Payload.DumbPayload) : ℕ :=
  match dpGetDataSize ptr with
  | none => (2 ^ 64 - 1 + sizeofDumbPayload) % 2 ^ 64
  | some dataSize => dataSize + sizeofDumbPayload

def sign (E : Ed25519) (privKey : String) (p : DumbPayload) : Except Failure Unit × DumbPayload :=
  if !dpValidateSize p.ptr (fullSize p.ptr) then (.error (.bail "invalid payload"), p)
  else match cString privKey with
    | .error e => (.error e, p)
    | .ok key =>
      let (result, ptr) := dpSign E key (fullSize p.ptr) p.ptr
      (withContext "dp_sign() failed" result, { p with ptr := ptr })

/-- The clock is read by `dp_get_expire_or_set` and by `dp_is_expired`. -/
def checkExpireAndSet (now later : ℤ) (p : DumbPayload) : Bool × DumbPayload :=
  let (expired, ptr) := dpIsExpiredCompare now later p.ptr
  (expired, { p with ptr := ptr })

/-- `memcpy` of `size` bytes, of which the header is a part. -/
def payloadClone (malloc : Except Errno Unit) (p : DumbPayload) : Except Failure DumbPayload := do
  withContext "malloc() failed" malloc
  return { p with ptr := { p.ptr with payload := p.ptr.payload.take (p.size - sizeofDumbPayload) } }

def createNew (malloc : Except Errno Unit) : Except Failure DumbPayload := do
  let ptr ← withContext "dp_create_new() failed" (dpCreateNew malloc)
  return ⟨ptr, sizeofDumbPayload⟩

def u8ToDumbpayload (malloc : Except Errno Unit) (data : Bytes) : Except Failure DumbPayload :=
  if h : data.length < sizeofDumbPayload then .error (.bail "invalid payload")
  else do
    let payload : DumbPayload := ⟨DumbPayload.ofBytes data (header_le_of_not_lt h), data.length⟩
    withContext "malloc failed" malloc
    if !dpValidateSize payload.ptr data.length then throw (.bail "invalid payload")
    else return payload

def dumbpayloadToU8 (p : DumbPayload) : Except Failure Bytes :=
  if !dpValidateSize p.ptr p.size then .error (.bail "invalid payload")
  else .ok (p.ptr.toBytes.take (fullSize p.ptr))

def readFromFile (fs : FileSystem) (calls : LoadCalls) (path : String) :
    Except Failure DumbPayload := do
  let name ← cString path
  let file ← (dpMallocLoad fs calls name).mapError (.os · "dp_malloc_load() failed")
  let payload : DumbPayload := ⟨DumbPayload.ofBytes file.val (header_le_loaded file), file.val.length⟩
  if !dpValidateSize payload.ptr payload.size then
    throw (.bail "malformed payload detected (stated size doesn't match detected size)")
  else return payload

def writeToFile (fs : FileSystem) (calls : WriteCalls) (path : String) (p : DumbPayload) :
    Except Failure Unit × FileSystem :=
  match cString path with
  | .error e => (.error e, fs)
  | .ok name =>
    let (result, fs) := dpWriteToFile fs calls name p.ptr
    (withContext "dp_write_to_file() failed" result, fs)

def setDataStringlist (realloc : Except Errno Unit) (strings : List String) (p : DumbPayload) :
    Except Failure Unit × DumbPayload :=
  setData realloc (if strings.length = 0 then [0] else strings.flatMap (fun s => ascii s ++ [0])) p

end Dumbos.RustTool
