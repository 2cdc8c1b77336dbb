import Dumbos.RustServer.Dumbcode
import Dumbos.RustServer.Query
import Dumbos.RustServer.Replay

/-! # `dumbupload::main`

An upload is checked like a request for a code, with the same table of used ids,
and its body goes to a new file of the user. A request whose id has been used is
refused whatever its body is.
-/
namespace Dumbos.RustServer
open Foundation Common Payload Request

def UPLOAD_FILE_PREFIX : Bytes := ascii "upload-"

/-- How `fs::write` fails: the text of its error, and how much it has written of a file that it has
created. -/
structure WriteError where
  text : Bytes
  written : Option ℕ

/-- A POST as it arrives, and the world it is handled in: the text of the local time, the letters
that were drawn for the name of the file, and whether the file cannot be written. -/
structure Upload where
  env : Env
  query : Bytes
  data : Bytes
  time : Bytes
  uniqueid : Bytes
  writeError : Option WriteError

namespace Event

def rejectUpload (user reason : Bytes) : Event :=
  ⟨.UploadRejected, some user, -1, some reason, none⟩

def upload (user dest : Bytes) (size : ℕ) : Event :=
  ⟨.Upload, some user, -1, some (natText size), some dest⟩

end Event

def createUploadFilename (directory user time uniqueid : Bytes) : Option (Except Bytes Bytes) :=
  match verifyCharsUsername user with
  | none => none
  | some false => some (.error (ascii "bad characters in username"))
  | some true => some (.ok (createUserPath directory user ++ UPLOAD_FILE_PREFIX ++ time ++
      ascii "-" ++ uniqueid))

/-- `fs::write`, or the standard output. -/
def writeFile (files : Files) (path data : Bytes) : Files :=
  if path = ascii "-" then files else Function.update files path (.ok data)

/-- What a write that fails leaves. -/
def WriteError.leaves (e : WriteError) (files : Files) (path data : Bytes) : Files :=
  match e.written with
  | none => files
  | some n => writeFile files path (data.take n)

variable (E : Ed25519) (directory : Bytes)

/-- After the request has been verified. -/
def storeUpload (u : Upload) (user : Bytes) (s : Server) : Response × Server :=
  match createUploadFilename directory user u.time u.uniqueid with
  | none => (none, s)
  | some (.error e) =>
    answer u.env (Event.error (ascii "creating upload path") e) (.error .INTERNAL_SERVER_ERROR) s
  | some (.ok uploadPath) => match u.writeError with
    | some e => answer u.env (Event.error (ascii "writing to " ++ uploadPath) e.text)
        (.error .INTERNAL_SERVER_ERROR) { s with files := e.leaves s.files uploadPath u.data }
    | none => answer u.env (Event.upload user uploadPath u.data.length) (.ok [])
        { s with files := writeFile s.files uploadPath u.data }

def dumbuploadMain (s : Server) (u : Upload) (q : DumbRequestParams) : Response × Server :=
  match dumbVerifyRequest E u.env s.files directory q s.requestIds with
  | (none, requestIds) => (none, { s with requestIds := requestIds })
  | (some (.error e), requestIds) =>
    answer u.env (Event.error (ascii "verifying request") e) (.error .INTERNAL_SERVER_ERROR)
      { s with requestIds := requestIds }
  | (some (.ok (.error e)), requestIds) =>
    answer u.env (Event.rejectUpload q.user e) (.error .FORBIDDEN)
      { s with requestIds := requestIds }
  | (some (.ok (.ok ())), requestIds) =>
    storeUpload directory u q.user { s with requestIds := requestIds }

/-- The status that is sent; a panic closes the connection. -/
def httpStatus : Response → Option ℕ
  | none => none
  | some (.ok _) => some 200
  | some (.error .FORBIDDEN) => some 403
  | some (.error .INTERNAL_SERVER_ERROR) => some 500

variable (lossy : Bytes → Bytes) (bodyLimit : ℕ)

/-- The route of an upload: the parameters, then the body, then the handler. -/
def dumbpost (s : Server) (u : Upload) : Option ℕ × Server :=
  match parseQuery lossy u.query with
  | none => (some 400, s)
  | some q =>
    if bodyLimit < u.data.length then (some 413, s)
    else
      let (r, s) := dumbuploadMain E directory s u q
      (httpStatus r, s)

section Verify
variable {E directory} {env : Env} {files : Files} {q : DumbRequestParams} {table : Bytes → Bool}

/-- A registered user signed the parameters in time, and the names are clean. -/
structure Genuine (E : Ed25519) (directory : Bytes) (env : Env) (files : Files)
    (q : DumbRequestParams) : Prop where
  user : ∀ c ∈ q.user, c ∈ DUMBOS_USER_ALLOWED_CHARS
  code : ∀ c ∈ q.code, c ∈ SECRET_CODE_ALLOWED_CHARS
  requestid : ∀ c ∈ q.requestid, c ∈ REQUESTID_ALLOWED_CHARS
  key : ∃ key, files (createUserPubkeyPath directory q.user) = .ok key ∧ isUtf8 key ∧
    verifyDumbosRequest E env q.user q.requestid q.time q.requestsig key = some (.ok ())
  existsError : env.existsError = none
  insertError : env.insertError = none

theorem createUserPubkeyPath_ne (directory user : Bytes) :
    createUserPubkeyPath directory user ≠ ascii "-" := by
  intro h
  have hpath : SERVER_USER_PUBKEY_FILE.getLast? = some 121 := by decide
  have hstdin : (ascii "-").getLast? = some 45 := by decide
  have hlast := congrArg List.getLast? h
  rw [createUserPubkeyPath, List.getLast?_append, hpath, hstdin] at hlast
  cases hlast

/-- Such a request is accepted once, and is refused from then on. -/
theorem dumbVerifyRequest_genuine (h : Genuine E directory env files q) :
    dumbVerifyRequest E env files directory q table =
      if table (q.user ++ ascii "/" ++ q.requestid) then
        (some (.ok (.error (ascii "user " ++ q.user ++
          ascii " tried to make a duplicate request (id=" ++ q.requestid ++ ascii ")"))), table)
      else (some accepted, Function.update table (q.user ++ ascii "/" ++ q.requestid) true) := by
  obtain ⟨key, hkey, hutf8, hverify⟩ := h.key
  have hread : readFile env files (createUserPubkeyPath directory q.user) = .ok key := by
    rw [readFile, if_neg (createUserPubkeyPath_ne directory q.user), hkey]
  have hnames : checkNames env files directory q =
      some (.ok ⟨q.user ++ ascii "/" ++ q.requestid, key⟩) := by
    have hcode : verifyCharsSecretcode q.code = some true :=
      (verifyChars_eq_true (by decide)).mpr h.code
    have hid : verifyCharsRequestid q.requestid = some true :=
      (verifyChars_eq_true (by decide)).mpr h.requestid
    simp only [checkNames, verifyCharsUsername_eq_true.mpr h.user, hcode, hid, hread]
  have hsignature : checkSignature E env q ⟨q.user ++ ascii "/" ++ q.requestid, key⟩ =
      some (.ok ()) := by
    simp [checkSignature, hutf8, hverify]
  rw [dumbVerifyRequest, hnames]
  dsimp only
  rw [lookupRequestId, h.existsError]
  split_ifs with hseen
  · rfl
  · dsimp only
    rw [hsignature]
    dsimp only
    rw [insertRequestId, h.insertError]

/-- A request that is accepted has an id that was unused, and uses it up. -/
theorem dumbVerifyRequest_accepted {table' : Bytes → Bool}
    (h : dumbVerifyRequest E env files directory q table = (some accepted, table')) :
    table (requestKey q) = false ∧ table' (requestKey q) := by
  rw [dumbVerifyRequest] at h
  cases hnames : checkNames env files directory q with
  | none => simp [hnames] at h
  | some r =>
    cases r with
    | error r =>
      simp only [hnames, Prod.mk.injEq, Option.some.injEq] at h
      exact absurd h.1 (checkNames_error directory hnames)
    | ok c =>
      have hkey := (checkNames_eq_ok hnames).2
      cases hlookup : lookupRequestId env table q c with
      | error r =>
        simp only [hnames, hlookup, Prod.mk.injEq, Option.some.injEq] at h
        exact absurd h.1 (lookupRequestId_error hlookup)
      | ok _ =>
        have hnew := lookupRequestId_ok hlookup
        rw [hkey] at hnew
        refine ⟨hnew, ?_⟩
        cases hsig : checkSignature E env q c with
        | none => simp [hnames, hlookup, hsig] at h
        | some r =>
          cases r with
          | error r =>
            simp only [hnames, hlookup, hsig, Prod.mk.injEq, Option.some.injEq] at h
            exact absurd h.1 (checkSignature_error E hsig)
          | ok _ =>
            simp only [hnames, hlookup, hsig, insertRequestId] at h
            split at h
            · simp [accepted] at h
            · rw [← (Prod.mk.inj h).2, hkey]
              simp [requestKey]

end Verify

section Post
variable {E directory lossy bodyLimit} {s : Server} {u : Upload} {q : DumbRequestParams}

theorem answer_requestIds (env : Env) (event : Event) (result : Except StatusCode Bytes)
    (s : Server) : (answer env event result s).2.requestIds = s.requestIds := by
  rw [answer, Event.dispatch]
  split_ifs
  · rfl
  · cases env.pushError <;> rfl

theorem answer_error_status (env : Env) (event : Event) (status : StatusCode) (s : Server) :
    httpStatus (answer env event (.error status) s).1 ≠ some 200 := by
  rw [answer, Event.dispatch]
  split_ifs
  · simp [httpStatus]
  · cases env.pushError <;> cases status <;> simp [httpStatus]

theorem storeUpload_requestIds (user : Bytes) (s : Server) :
    (storeUpload directory u user s).2.requestIds = s.requestIds := by
  rw [storeUpload]
  split
  · rfl
  · exact answer_requestIds _ _ _ _
  · split <;> exact answer_requestIds _ _ _ _

/-- A success has used up the id of its address. -/
theorem dumbpost_ok (hquery : parseQuery lossy u.query = some q)
    (h : (dumbpost E directory lossy bodyLimit s u).1 = some 200) :
    s.requestIds (requestKey q) = false ∧
      (dumbpost E directory lossy bodyLimit s u).2.requestIds (requestKey q) := by
  simp only [dumbpost, hquery] at h ⊢
  split_ifs at h ⊢ with hlimit
  · simp at h
  · rw [dumbuploadMain] at h ⊢
    cases hverify : dumbVerifyRequest E u.env s.files directory q s.requestIds with
    | mk r table =>
      rw [hverify] at h
      rcases r with _ | (_ | (_ | ⟨⟨⟩⟩))
      · simp [httpStatus] at h
      · exact absurd h (answer_error_status _ _ _ _)
      · exact absurd h (answer_error_status _ _ _ _)
      · dsimp only
        rw [storeUpload_requestIds]
        exact dumbVerifyRequest_accepted hverify

/-- The path of an upload stands for no stream. -/
theorem writeFile_upload (files : Files) (a b data : Bytes) :
    writeFile files (a ++ UPLOAD_FILE_PREFIX ++ b) data (a ++ UPLOAD_FILE_PREFIX ++ b) =
      .ok data := by
  have hlong : a ++ UPLOAD_FILE_PREFIX ++ b ≠ ascii "-" := by
    intro h
    have hlength := congrArg List.length h
    have hstart : UPLOAD_FILE_PREFIX.length = 7 := by decide
    have hstdin : (ascii "-").length = 1 := by decide
    rw [List.length_append, List.length_append, hstart, hstdin] at hlength
    omega
  rw [writeFile, if_neg hlong, Function.update_self]

/-- A first request of a registered user is accepted, and its body is stored. -/
theorem dumbpost_genuine (hquery : parseQuery lossy u.query = some q)
    (h : Genuine E directory u.env s.files q) (hfresh : s.requestIds (requestKey q) = false)
    (hsize : u.data.length ≤ bodyLimit) (hwrite : u.writeError = none)
    (hpush : u.env.pushError = none) (hlock : s.poisoned = false) :
    (dumbpost E directory lossy bodyLimit s u).1 = some 200 ∧
      ∃ path, (dumbpost E directory lossy bodyLimit s u).2.files path = .ok u.data := by
  have hverify := @dumbVerifyRequest_genuine E directory u.env s.files q s.requestIds h
  rw [if_neg (by rw [← requestKey, hfresh]; simp)] at hverify
  have hpath : createUploadFilename directory q.user u.time u.uniqueid =
      some (.ok (createUserPath directory q.user ++ UPLOAD_FILE_PREFIX ++
        (u.time ++ ascii "-" ++ u.uniqueid))) := by
    simp only [createUploadFilename, verifyCharsUsername_eq_true.mpr h.user, List.append_assoc]
  have hpost : dumbpost E directory lossy bodyLimit s u =
      ((httpStatus (storeUpload directory u q.user
          { s with requestIds := Function.update s.requestIds (requestKey q) true }).1),
        (storeUpload directory u q.user
          { s with requestIds := Function.update s.requestIds (requestKey q) true }).2) := by
    simp only [dumbpost, hquery, if_neg (not_lt.mpr hsize), dumbuploadMain, hverify, accepted]
    rfl
  rw [hpost, storeUpload, hpath]
  dsimp only
  rw [hwrite]
  dsimp only
  constructor
  · refine congrArg httpStatus (answer_of_push hpush ?_).1
    exact hlock
  · refine ⟨createUserPath directory q.user ++ UPLOAD_FILE_PREFIX ++
      (u.time ++ ascii "-" ++ u.uniqueid), ?_⟩
    rw [answer_files]
    exact writeFile_upload _ _ _ _

end Post

end Dumbos.RustServer
