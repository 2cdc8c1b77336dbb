import Dumbos.Foundation.Run
import Dumbos.RustServer.Request

/-! # `dumbcode::main`

The Rust server answers a request for a code: it checks the request, reads the
file of the user or the global one, and returns the payload with its expiry set
and a signature. Each exit leaves one event. Nothing is written to the file.
-/
namespace Dumbos.RustServer
open Foundation Common Payload

inductive EventType where
  | Code
  | Upload
  | CodeRejected
  | UploadRejected
  | GenericReject
  | Error
  | Info
deriving DecidableEq

structure Event where
  eventType : EventType
  user : Option Bytes
  time : ℤ
  reason : Option Bytes
  extra : Option Bytes
deriving DecidableEq

inductive StatusCode where
  | FORBIDDEN
  | INTERNAL_SERVER_ERROR
deriving DecidableEq

/-- The state that requests share; a panic under the lock of the events poisons it. -/
structure Server where
  files : Files
  requestIds : Bytes → Bool
  events : List Event
  poisoned : Bool

/-- A request, and the world it is handled in. -/
structure Visit where
  env : Env
  params : DumbRequestParams

def codeName (code : Bytes) (personal : Bool) : Bytes :=
  code ++ (if personal then ascii " (personal)" else ascii " (global)")

namespace Event

def code (user code : Bytes) (personal : Bool) : Event :=
  ⟨.Code, some user, -1, none, some (codeName code personal)⟩

def rejectCode (user code : Bytes) (personal : Bool) (reason : Bytes) : Event :=
  ⟨.CodeRejected, some user, -1, some reason, some (codeName code personal)⟩

def reject (user action reason : Bytes) : Event :=
  ⟨.GenericReject, some user, -1, some reason, some action⟩

def error (action message : Bytes) : Event := ⟨.Error, none, -1, some message, some action⟩

/-- `none` is a panic. -/
def dispatch (env : Env) (e : Event) (s : Server) : Option Unit × Server :=
  if s.poisoned then (none, s)
  else match env.pushError with
    | some _ => (none, { s with poisoned := true })
    | none => (some (), { s with events := s.events ++ [{ e with time := env.now }] })

end Event

def createCodeFilename (directory user code : Bytes) : Option (Except Bytes Bytes) :=
  match verifyCharsUsername user with
  | none => none
  | some false => some (.error (ascii "bad characters in username"))
  | some true => match verifyCharsSecretcode code with
    | none => none
    | some false => some (.error (ascii "bad characters in code"))
    | some true => some (.ok (withSlash directory ++ (if user = [] then [] else withSlash user) ++
        CODE_FILE_PREFIX ++ code))

theorem createCodeFilename_clean (directory : Bytes) {user code : Bytes}
    (huser : ∀ c ∈ user, c ∈ DUMBOS_USER_ALLOWED_CHARS)
    (hcode : ∀ c ∈ code, c ∈ SECRET_CODE_ALLOWED_CHARS) :
    createCodeFilename directory user code = some (.ok (withSlash directory ++
      (if user = [] then [] else withSlash user) ++ CODE_FILE_PREFIX ++ code)) := by
  have hcode' : verifyCharsSecretcode code = some true := (verifyChars_eq_true (by decide)).mpr hcode
  rw [createCodeFilename, verifyCharsUsername_eq_true.mpr huser, hcode']

/-- `DumbPayload::from_u8`. -/
def u8ToDumbpayload (env : Env) (data : Bytes) : Except Bytes DumbPayload :=
  if h : data.length < sizeofDumbPayload then .error (ascii "invalid payload")
  else if env.mallocFails then .error (ascii "malloc failed")
  else if !dpValidateSize (DumbPayload.ofBytes data (header_le_of_not_lt h)) data.length then
    .error (ascii "invalid payload")
  else .ok (DumbPayload.ofBytes data (header_le_of_not_lt h))

def sign (E : Ed25519) (privKey : Bytes) (p : DumbPayload) : Except Bytes DumbPayload :=
  match dpGetDataSize p with
  | none => .error (ascii "invalid payload")
  | some dataSize =>
    if !dpValidateSize p (dataSize + sizeofDumbPayload) then .error (ascii "invalid payload")
    else match dpSign E privKey (dataSize + sizeofDumbPayload) p with
      | (.error _, _) => .error (ascii "dp_sign() failed")
      | (.ok (), p) => .ok p

/-- `to_u8` of a payload that was built with `size` bytes. -/
def dumbpayloadToU8 (p : DumbPayload) (size : ℕ) : Except Bytes Bytes :=
  if !dpValidateSize p size then .error (ascii "invalid payload")
  else .ok (p.toBytes.take (sizeofDumbPayload + bigEndian p.dataSize.val))

/-- An exit of `main` before its end: the event, and the status that is returned. -/
abbrev Refusal := Event × StatusCode

/-- The file of the user if there is one, or the global one; whether it is personal. -/
def readCode (env : Env) (files : Files) (user code userPath globalPath : Bytes) :
    Except Refusal (Bool × Bytes) :=
  match readFile env files userPath with
  | .ok file => .ok (true, file)
  | .error e =>
    if e.notFound then match readFile env files globalPath with
      | .ok file => .ok (false, file)
      | .error e =>
        if e.notFound then
          .error (Event.rejectCode user code false (ascii "no code found"), .FORBIDDEN)
        else .error (Event.error (ascii "opening file " ++ globalPath) e.text, .INTERNAL_SERVER_ERROR)
    else .error (Event.error (ascii "opening file " ++ userPath) e.text, .INTERNAL_SERVER_ERROR)

/-- From the bytes of the file to the bytes of the answer. -/
def servePayload (E : Ed25519) (privateKey : Bytes) (env : Env) (user code : Bytes)
    (personal : Bool) (file : Bytes) : Except Refusal Bytes :=
  match u8ToDumbpayload env file with
  | .error e => .error (Event.error (ascii "u8_to_payload()") e, .INTERNAL_SERVER_ERROR)
  | .ok p =>
    let (expired, p) := dpIsExpired env.now p
    if expired then .error (Event.rejectCode user code personal (ascii "expired"), .FORBIDDEN)
    else match sign E privateKey p with
      | .error e => .error (Event.error (ascii "signing payload") e, .INTERNAL_SERVER_ERROR)
      | .ok p => match dumbpayloadToU8 p file.length with
        | .error e => .error (Event.error (ascii "dumbpayload_to_u8()") e, .INTERNAL_SERVER_ERROR)
        | .ok bytes => .ok bytes

/-- What `main` returns; `none` is a panic. -/
abbrev Response := Option (Except StatusCode Bytes)

/-- Log the event and return. -/
def answer (env : Env) (event : Event) (result : Except StatusCode Bytes) (s : Server) :
    Response × Server :=
  match event.dispatch env s with
  | (none, s) => (none, s)
  | (some (), s) => (some result, s)

variable (E : Ed25519) (privateKey directory : Bytes)

/-- After the request has been verified. -/
def serveCode (v : Visit) (userPath globalPath : Bytes) (s : Server) : Response × Server :=
  match readCode v.env s.files v.params.user v.params.code userPath globalPath with
  | .error (event, status) => answer v.env event (.error status) s
  | .ok (personal, file) =>
    match servePayload E privateKey v.env v.params.user v.params.code personal file with
    | .error (event, status) => answer v.env event (.error status) s
    | .ok bytes => answer v.env (Event.code v.params.user v.params.code personal) (.ok bytes) s

def dumbcodeMain (s : Server) (v : Visit) : Response × Server :=
  match createCodeFilename directory [] v.params.code with
  | none => (none, s)
  | some (.error msg) =>
    answer v.env (Event.rejectCode v.params.user v.params.code false msg) (.error .FORBIDDEN) s
  | some (.ok globalPath) => match createCodeFilename directory v.params.user v.params.code with
    | none => (none, s)
    | some (.error msg) =>
      answer v.env (Event.rejectCode v.params.user v.params.code true msg) (.error .FORBIDDEN) s
    | some (.ok userPath) =>
      match dumbVerifyRequest E v.env s.files directory v.params s.requestIds with
      | (none, requestIds) => (none, { s with requestIds := requestIds })
      | (some (.error e), requestIds) =>
        answer v.env (Event.error (ascii "verifying request") e) (.error .INTERNAL_SERVER_ERROR)
          { s with requestIds := requestIds }
      | (some (.ok (.error e)), requestIds) =>
        answer v.env (Event.reject v.params.user (ascii "using code " ++ v.params.code) e)
          (.error .FORBIDDEN) { s with requestIds := requestIds }
      | (some (.ok (.ok ())), requestIds) =>
        serveCode E privateKey v userPath globalPath { s with requestIds := requestIds }

/-- The request is accepted by `dumb_verify_request`. -/
def Authenticated (s : Server) (v : Visit) : Prop :=
  (dumbVerifyRequest E v.env s.files directory v.params s.requestIds).1 = some accepted

/-- The file of the code of a request. -/
def Reads (files : Files) (v : Visit) (personal : Bool) (file : Bytes) : Prop :=
  ∃ userPath globalPath,
    createCodeFilename directory [] v.params.code = some (.ok globalPath) ∧
    createCodeFilename directory v.params.user v.params.code = some (.ok userPath) ∧
    readCode v.env files v.params.user v.params.code userPath globalPath = .ok (personal, file)

section Answer
variable {env : Env} {event : Event} {result : Except StatusCode Bytes} {s : Server}

theorem answer_eq_ok {bytes : Bytes} (h : (answer env event result s).1 = some (.ok bytes)) :
    result = .ok bytes := by
  rw [answer] at h
  split at h
  · cases h
  · exact Option.some.inj h

theorem answer_files : (answer env event result s).2.files = s.files := by
  rw [answer, Event.dispatch]
  split_ifs
  · rfl
  · cases env.pushError <;> rfl

/-- As long as no push fails, every answer arrives. -/
theorem answer_of_push (hpush : env.pushError = none) (hlock : s.poisoned = false) :
    (answer env event result s).1 = some result ∧ (answer env event result s).2.poisoned = false := by
  simp [answer, Event.dispatch, hpush, hlock]

end Answer

section Serve
variable {E privateKey directory}

theorem u8ToDumbpayload_eq_ok {env : Env} {data : Bytes} {p : DumbPayload}
    (h : u8ToDumbpayload env data = .ok p) :
    ∃ hdata : sizeofDumbPayload ≤ data.length,
      p = DumbPayload.ofBytes data hdata ∧ dpValidateSize p data.length := by
  rw [u8ToDumbpayload] at h
  split_ifs at h with hshort hmalloc hsize
  cases h
  exact ⟨not_lt.mp hshort, rfl, by simpa using hsize⟩

theorem sign_eq_ok {p q : DumbPayload} (h : sign E privateKey p = .ok q) :
    dpSign E privateKey (bigEndian p.dataSize.val + sizeofDumbPayload) p = (.ok (), q) := by
  rw [sign, dpGetDataSize] at h
  split_ifs at h with hmax
  simp only at h
  split_ifs at h with hsize
  generalize dpSign E privateKey (bigEndian p.dataSize.val + sizeofDumbPayload) p = r at h ⊢
  obtain ⟨_ | _, signed⟩ := r
  · cases h
  · cases h
    rfl

/-- What is served is the checked payload with its signature, over all of its bytes. -/
theorem servePayload_eq_ok {env : Env} {user code : Bytes} {personal : Bool} {file bytes : Bytes}
    (h : servePayload E privateKey env user code personal file = .ok bytes) :
    ∃ hfile : sizeofDumbPayload ≤ file.length,
      dpValidateSize (DumbPayload.ofBytes file hfile) file.length ∧
      (dpIsExpired env.now (DumbPayload.ofBytes file hfile)).1 = false ∧
      ∃ q, dpSign E privateKey file.length
          (dpIsExpired env.now (DumbPayload.ofBytes file hfile)).2 = (.ok (), q) ∧
        bytes = q.toBytes := by
  rw [servePayload] at h
  cases hload : u8ToDumbpayload env file with
  | error e => simp [hload] at h
  | ok p =>
    obtain ⟨hfile, rfl, hsize⟩ := u8ToDumbpayload_eq_ok hload
    obtain ⟨-, hlen⟩ := (dpValidateSize_iff _ _).mp hsize
    refine ⟨hfile, hsize, ?_⟩
    simp only [hload] at h
    generalize hchecked : dpIsExpired env.now (DumbPayload.ofBytes file hfile) = r at h ⊢
    obtain ⟨expired, p⟩ := r
    have hp : p = (dpIsExpiredCompare env.now env.now (DumbPayload.ofBytes file hfile)).2 := by
      rw [← dpIsExpired_eq_compare, hchecked]
    have hdata : p.dataSize = (DumbPayload.ofBytes file hfile).dataSize := by
      rw [hp, dpIsExpiredCompare_dataSize]
    have hbytes : p.toBytes.length = file.length := by
      rw [hp, dpIsExpiredCompare_toBytes_length, DumbPayload.toBytes_ofBytes]
    cases expired with
    | true => simp at h
    | false =>
      simp only [Bool.false_eq_true, if_false] at h
      cases hsign : sign E privateKey p with
      | error e => simp [hsign] at h
      | ok q =>
        have hok := sign_eq_ok hsign
        rw [hdata, Nat.add_comm, ← hlen] at hok
        obtain ⟨-, -, s, -, rfl⟩ := dpSign_eq_ok hok
        refine ⟨rfl, _, hok, ?_⟩
        simp only [hsign, dumbpayloadToU8] at h
        split_ifs at h
        simp only [Except.ok.injEq] at h
        rw [← h, List.take_of_length_le]
        rw [DumbPayload.toBytes_length] at hbytes ⊢
        change sizeofDumbPayload + p.payload.length ≤ sizeofDumbPayload + bigEndian p.dataSize.val
        rw [hbytes, hlen, hdata]

end Serve

end Dumbos.RustServer
