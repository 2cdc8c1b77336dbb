import Dumbos.RustServer.Audit
import Dumbos.Session.Cut
import Dumbos.System.Upload

/-! # The upload of the logs

`dumbos-log-upload.sh` hands every old log to the client and removes it when the client
exits with 0. Between the script and the file on the server stand the client, the
socket, the daemon, libcurl and the handler of the server, and each of them can fail or
be killed. A log is removed when all of them have done their part, and only then.
Meanwhile a `gzip` in the background replaces the log by its archive. The script does not
wait for it: a log is lost if its archive is read before `gzip` has come to its end.
-/
namespace Dumbos.System
open Foundation Common Payload Request Daemon RustServer Session

/-- The arguments that `getopt_long` leaves of `upload_data -- "$path"`. -/
def uploadArgv (path : Bytes) : List Bytes := [ascii "upload_data", path]

/-- What the shell sees of the return value of `main`. -/
def exitStatus (ret : ℤ) : ℤ := ret % 256

/-- The path of the file that an upload is written to. -/
def uploadPath (directory : Bytes) (lossy : Bytes → Bytes) (u : Upload) : Option Bytes :=
  match parseQuery lossy u.query with
  | none => none
  | some q => match createUploadFilename directory q.user u.time u.uniqueid with
    | some (.ok path) => some path
    | _ => none

/-- A pass of the loop over a log: the state in which the daemon forks a handler, the connection to it,
the request as it comes to the server, and whether `rm` succeeds. There is no connection when the
client does not get one or is killed, and no request when it is lost. -/
structure Pass (D : Device) where
  path : Bytes
  sendable : Sendable path
  start : State
  connection : Option (CutConnection D (uploadArgv path) start)
  post : Option Upload
  removes : Bool

/-- The exit status of the client is 0. -/
def Pass.succeeds {D : Device} (a : Pass D) : Bool :=
  match a.connection with
  | none => false
  | some C => match C.result with
    | none => false
    | some ret => exitStatus ret = 0

/-- The script removes the file. -/
def Pass.Removes {D : Device} (a : Pass D) : Prop := (a.succeeds && a.removes) = true

theorem Pass.Removes.succeeds {D : Device} {a : Pass D} (h : a.Removes) : a.succeeds := by
  rw [Pass.Removes, Bool.and_eq_true] at h
  exact h.1

/-- A `gzip` at work: the log as it has opened it, and what it has written of the archive. -/
structure Archiving where
  source : Bytes
  written : Bytes

/-- What the `gzip` of a log does next. One that fails removes its archive, and one that has come to the
end may still fail to remove the log. -/
inductive GzipEvent where
  | opens
  | writes (more : Bytes)
  | finishes (removes : Bool)
  | fails
  | killed

inductive LogEvent (D : Device) where
  /-- `dumbosd-wrapper.sh` moves a log to the old ones. -/
  | rotate (path data : Bytes)
  | gzip (path : Bytes) (e : GzipEvent)
  /-- A request of any client for a code. -/
  | visit (v : Visit)
  /-- An upload of any client. -/
  | upload (u : Upload)
  /-- The script comes to a log, and the daemon reads it. -/
  | reads (a : Pass D)
  /-- The request comes to the server, the client exits and `rm` is run. -/
  | ends

/-- The old logs, the `gzip` at work on each, the pass that has read its log, and the server. -/
structure LogState (D : Device) where
  logs : FileSystem
  jobs : Bytes → Option Archiving
  pass : Option (Pass D)
  server : Server

def ARCHIVE_SUFFIX : Bytes := ascii ".gz"

def archivePath (path : Bytes) : Bytes := path ++ ARCHIVE_SUFFIX

/-- A log, its archive, and the `gzip` at work on them. -/
structure Archival where
  log : Option Bytes
  archive : Option Bytes
  job : Option Archiving

/-- `gzip` leaves archives alone, and does not write over a file. -/
def Archival.next (path : Bytes) (v : Archival) : GzipEvent → Archival
  | .opens => match v.log, v.archive, v.job with
    | some source, none, none =>
      if ARCHIVE_SUFFIX <:+ path then v
      else { v with archive := some [], job := some ⟨source, []⟩ }
    | _, _, _ => v
  | .writes more => match v.job with
    | none => v
    | some job =>
      -- an archive that has been removed is written without a name
      { v with
        archive := v.archive.map fun _ => job.written ++ more
        job := some ⟨job.source, job.written ++ more⟩ }
  | .finishes removes => match v.job with
    | none => v
    | some _ => { v with log := if removes then none else v.log, job := none }
  | .fails => match v.job with
    | none => v
    | some _ => { v with archive := none, job := none }
  | .killed => { v with job := none }

def LogState.archival {D : Device} (s : LogState D) (path : Bytes) : Archival :=
  ⟨s.logs path, s.logs (archivePath path), s.jobs path⟩

def LogState.gzip {D : Device} (s : LogState D) (path : Bytes) (e : GzipEvent) : LogState D :=
  let v := (s.archival path).next path e
  { s with
    jobs := Function.update s.jobs path v.job
    logs := Function.update (Function.update s.logs path v.log) (archivePath path) v.archive }

section Step
variable (D : Device) (privateKey directory : Bytes) (lossy : Bytes → Bytes) (bodyLimit : ℕ)
variable (unpack : Bytes → Option Bytes)

/-- A request that may be lost on its way. -/
def deliver (server : Server) (post : Option Upload) : Server :=
  match post with
  | none => server
  | some u => (dumbpost D.ed directory lossy bodyLimit server u).2

def LogState.next (s : LogState D) : LogEvent D → LogState D
  | .rotate path data => { s with logs := Function.update s.logs path (some data) }
  | .gzip path e => s.gzip path e
  | .visit v => { s with server := (dumbcodeMain D.ed privateKey directory s.server v).2 }
  | .upload u => { s with server := deliver D directory lossy bodyLimit s.server (some u) }
  | .reads a => { s with pass := some a }
  | .ends => match s.pass with
    | none => s
    | some a =>
      { s with
        logs := if a.succeeds && a.removes then Function.update s.logs a.path none else s.logs
        pass := none
        server := deliver D directory lossy bodyLimit s.server a.post }

/-- An event has no answer. -/
def logStep (s : LogState D) (e : LogEvent D) : Unit × LogState D :=
  ((), s.next D privateKey directory lossy bodyLimit e)

/-- No file stands where the upload is written to. -/
def Vacant (server : Server) (u : Upload) : Prop :=
  ∀ path, uploadPath directory lossy u = some path → ∀ data, server.files path ≠ .ok data

/-- The calls of `upload_data` from this one on keep to what they document, and the standard input
of the daemon is open, so that no file is opened as 0. -/
structure Calls (t : ℕ) : Prop where
  random : 0 ≤ (D.reply (t + 2)).ret → (D.reply (t + 2)).data.length = REQUEST_ID_LEN
  stat : (D.reply (t + 5)).ret ≤ 0
  opened : (D.reply (t + 6)).ret ≠ 0
  posted : (D.reply (t + 9)).ret ≤ 0

/-- The command starts behind the allocations for the version, the vector and two arguments. -/
def Pass.tick {D : Device} (a : Pass D) : ℕ := a.start.ticks + 4

/-- A `gzip` writes the file. -/
def LogState.Written {D : Device} (s : LogState D) (path : Bytes) : Prop :=
  ∃ log, archivePath log = path ∧ s.jobs log ≠ none

/-- What the calls of a pass have to do with its file. -/
structure FaithfulRead (s : LogState D) (a : Pass D) : Prop where
  calls : Calls D a.tick
  /-- What is read is the file, unless it changes meanwhile. -/
  read : 0 ≤ (D.reply (a.tick + 8)).ret →
    s.Written a.path ∨ s.logs a.path = some (D.reply (a.tick + 8)).data
  /-- What has been read is posted. -/
  body : ∀ u, a.post = some u → u.data = (D.reply (a.tick + 8)).data

/-- What they have to do with the server. -/
structure FaithfulAnswer (server : Server) (a : Pass D) : Prop where
  /-- libcurl takes a status from 400 on for a failure. -/
  answered : (D.reply (a.tick + 9)).ret = 0 → ∃ u status, a.post = some u ∧
    (dumbpost D.ed directory lossy bodyLimit server u).1 = some status ∧ status < 400
  fresh : ∀ u, a.post = some u → Vacant directory lossy server u

/-- A log gets a name that nothing has had to do with. -/
structure NewName {D : Device} (s : LogState D) (path : Bytes) : Prop where
  log : s.logs path = none
  archive : s.logs (archivePath path) = none
  job : s.jobs path = none
  plain : ¬ARCHIVE_SUFFIX <:+ path
  pass : ∀ a, s.pass = some a → a.path ≠ path ∧ a.path ≠ archivePath path

/-- The names of logs and of uploads are new, a `gzip` that has come to its end has written an archive
of its log, and a pass is what it says. -/
def Possible (s : LogState D) : LogEvent D → Prop
  | .rotate path _ => NewName s path
  | .gzip path (.finishes _) => ∀ job, s.jobs path = some job → unpack job.written = some job.source
  | .gzip _ _ => True
  | .visit _ => True
  | .upload u => Vacant directory lossy s.server u
  | .reads a => FaithfulRead D s a
  | .ends => ∀ a, s.pass = some a → FaithfulAnswer D directory lossy bodyLimit s.server a

/-- The server has a file with the log or with an archive of it. -/
def Served (data : Bytes) (server : Server) : Prop :=
  ∃ file content, server.files file = .ok content ∧ (content = data ∨ unpack content = some data)

/-- The daemon has the log or its whole archive, or the server has one of them. -/
def Preserved {D : Device} (path data : Bytes) (s : LogState D) : Prop :=
  s.logs path = some data ∨
    (∃ archive, s.logs (archivePath path) = some archive ∧ s.jobs path = none ∧
      unpack archive = some data) ∨ Served unpack data s.server

/-- The script reads the archive of a log while `gzip` writes it, and will remove it. -/
def Hasty {D : Device} (path : Bytes) (s : LogState D) (e : LogEvent D) : Prop :=
  ∃ a, e = .reads a ∧ a.path = archivePath path ∧ s.jobs path ≠ none ∧ a.Removes

end Step

/-- A call that fails says why, with a number that a process can exit with. -/
structure Explains (D : Device) : Prop where
  reply : ∀ t, (D.reply t).ret < 0 → 0 < (D.reply t).errno ∧ (D.reply t).errno < 256
  userFile : ∀ t errno, D.userFile t = .error errno → 0 < errno ∧ errno < 256
  sign : ∀ key data (err : Errno), D.ed.signHex key data = .error err → (err : ℕ) < 256

section Server
variable {E : Ed25519} {directory : Bytes} {lossy : Bytes → Bytes} {bodyLimit : ℕ} {server : Server}
variable {u : Upload}

/-- An upload leaves the files alone, or writes to the one of its name, and there all of its body if it
is accepted. -/
structure Stores (path : Option Bytes) (files files' : Files) (data : Bytes) (accepted : Prop) :
    Prop where
  written : files' = files ∨ ∃ file part, path = some file ∧ files' = writeFile files file part
  whole : accepted → ∃ file, path = some file ∧ files' = writeFile files file data

/-- One that is not accepted, and has not written. -/
theorem stores_same {path : Option Bytes} {files : Files} {data : Bytes} {accepted : Prop}
    (h : ¬accepted) : Stores path files files data accepted :=
  ⟨Or.inl rfl, fun haccepted => absurd haccepted h⟩

theorem storeUpload_files (user : Bytes) (s : Server) :
    Stores (match createUploadFilename directory user u.time u.uniqueid with
        | some (.ok path) => some path
        | _ => none) s.files (storeUpload directory u user s).2.files u.data
      (httpStatus (storeUpload directory u user s).1 = some 200) := by
  rw [storeUpload]
  cases hpath : createUploadFilename directory user u.time u.uniqueid with
  | none => exact stores_same (by simp [httpStatus])
  | some r =>
    cases r with
    | error e =>
      dsimp only
      rw [answer_files]
      exact stores_same (answer_error_status _ _ _ _)
    | ok path =>
      dsimp only
      cases u.writeError with
      | some e =>
        dsimp only
        rw [answer_files]
        refine ⟨?_, fun haccepted => absurd haccepted (answer_error_status _ _ _ _)⟩
        cases hwritten : e.written with
        | none => exact Or.inl (by simp [WriteError.leaves, hwritten])
        | some n => exact Or.inr ⟨path, u.data.take n, rfl, by simp [WriteError.leaves, hwritten]⟩
      | none =>
        dsimp only
        rw [answer_files]
        exact ⟨Or.inr ⟨path, u.data, rfl, rfl⟩, fun _ => ⟨path, rfl, rfl⟩⟩

theorem dumbpost_files : Stores (uploadPath directory lossy u) server.files
    (dumbpost E directory lossy bodyLimit server u).2.files u.data
    ((dumbpost E directory lossy bodyLimit server u).1 = some 200) := by
  rw [dumbpost, uploadPath]
  cases parseQuery lossy u.query with
  | none => exact stores_same (by simp)
  | some q =>
    dsimp only
    by_cases hlimit : bodyLimit < u.data.length
    · rw [if_pos hlimit]
      exact stores_same (by simp)
    · rw [if_neg hlimit, dumbuploadMain]
      rcases dumbVerifyRequest E u.env server.files directory q server.requestIds with
        ⟨_ | (_ | (_ | ⟨⟨⟩⟩)), table⟩
      · exact stores_same (by simp [httpStatus])
      · dsimp only
        rw [answer_files]
        exact stores_same (answer_error_status _ _ _ _)
      · dsimp only
        rw [answer_files]
        exact stores_same (answer_error_status _ _ _ _)
      · exact storeUpload_files q.user { server with requestIds := table }

/-- Below 400 there is one status. -/
theorem dumbpost_status {status : ℕ}
    (h : (dumbpost E directory lossy bodyLimit server u).1 = some status) (hlow : status < 400) :
    status = 200 := by
  have hhttp : ∀ r : RustServer.Response, httpStatus r = some status → status = 200 := by
    rintro (_ | _ | _) hr
    · cases hr
    · rename_i code
      cases code <;> simp [httpStatus] at hr <;> omega
    · simpa [httpStatus] using hr.symm
  rw [dumbpost] at h
  split at h
  · simp only [Option.some.injEq] at h
    omega
  · split_ifs at h
    · simp only [Option.some.injEq] at h
      omega
    · exact hhttp _ h

end Server

section Command
variable {D : Device}

/-- A number that a process exits with when it fails. -/
def IsErrno (n : ℤ) : Prop := 0 < n ∧ n < 256

theorem isErrno_natCast {n : ℕ} (h : 0 < n ∧ n < 256) : IsErrno n := by
  rw [IsErrno]
  omega

theorem dumbosAllocGetUser_error (hexplains : Explains D) {t errno : ℕ}
    (h : dumbosAllocGetUser (D.userFile t) = .error errno) : 0 < errno ∧ errno < 256 := by
  cases hblob : D.userFile t with
  | error err =>
    rw [hblob] at h
    cases h
    exact hexplains.userFile t _ hblob
  | ok blob =>
    rw [hblob, dumbosAllocGetUser] at h
    dsimp only at h
    split_ifs at h <;> cases h <;> decide

/-- The address comes with five calls, or the command ends with an error code. -/
theorem requestURL_upload (hexplains : Explains D) (baseURL : Bytes) (netTime : ℤ) {s : State}
    (hrandom : 0 ≤ (D.reply (s.ticks + 1)).ret →
      (D.reply (s.ticks + 1)).data.length = REQUEST_ID_LEN) :
    (∃ err s', requestURL D baseURL netTime none (fun url => url.errno) s = (.error err, s') ∧
        IsErrno err) ∨
      ∃ url, requestURL D baseURL netTime none (fun url => url.errno) s =
        (.ok url, { s with ticks := s.ticks + 4 }) := by
  rcases requestURL_cases D baseURL netTime none (fun url => url.errno) s with
    ⟨err, s', hrun, hfails⟩ | ⟨_, _, _, -, -, -, hrun⟩
  · refine Or.inl ⟨err, s', hrun, ?_⟩
    cases hfails with
    | user hget => exact isErrno_natCast (dumbosAllocGetUser_error hexplains hget)
    | random hnone =>
      refine isErrno_natCast (hexplains.reply _ ?_)
      by_contra hret
      have hid := hnone (not_lt.mp hret)
      rw [requestIdGenerate, if_neg (not_not.mpr (hrandom (not_lt.mp hret)))] at hid
      cases hid
    | malloc hmalloc => exact isErrno_natCast (hexplains.reply _ hmalloc)
    | @sign _ _ _ err hsign =>
      have hsmall : (err : ℕ) < 256 := by
        rw [requestIdSign] at hsign
        split_ifs at hsign
        · cases hsign
          decide
        · exact hexplains.sign _ _ _ hsign
      exact isErrno_natCast ⟨err.pos, hsmall⟩
    | url hurl => exact isErrno_natCast (hexplains.reply _ hurl)
  · exact Or.inr ⟨_, hrun⟩

/-- One file: an error code, or the file was read and the post succeeded. -/
theorem uploadFiles_one (hexplains : Explains D) (url name : Bytes) {s : State}
    (hstat : (D.reply s.ticks).ret ≤ 0) (hopened : (D.reply (s.ticks + 1)).ret ≠ 0)
    (hposted : (D.reply (s.ticks + 4)).ret ≤ 0) :
    IsErrno (uploadFiles D url [name] s).1 ∨
      0 ≤ (D.reply (s.ticks + 3)).ret ∧ (D.reply (s.ticks + 4)).ret = 0 := by
  have hcall : ∀ t, call D { s with ticks := t } = (D.reply t, { s with ticks := t + 1 }) :=
    fun _ => rfl
  have hfirst : call D s = (D.reply s.ticks, { s with ticks := s.ticks + 1 }) := rfl
  have hfetch : fetch D url { s with ticks := s.ticks + 4 } = (D.reply (s.ticks + 4),
      { s with ticks := s.ticks + 5, fetched := s.fetched ++ [url] }) := rfl
  unfold uploadFiles
  rw [bind_run, hfirst]
  dsimp only
  by_cases hs : (D.reply s.ticks).ret ≠ 0
  · rw [if_pos hs]
    exact Or.inl (isErrno_natCast (hexplains.reply _ (lt_of_le_of_ne hstat hs)))
  rw [if_neg hs, bind_run, hcall]
  dsimp only
  rw [if_neg hopened, bind_run, hcall]
  dsimp only
  by_cases hmalloc : (D.reply (s.ticks + 1 + 1)).ret < 0
  · rw [if_pos hmalloc]
    exact Or.inl (isErrno_natCast (hexplains.reply _ hmalloc))
  rw [if_neg hmalloc, bind_run, hcall]
  dsimp only
  by_cases hread : (D.reply (s.ticks + 1 + 1 + 1)).ret < 0
  · rw [if_pos hread]
    exact Or.inl (isErrno_natCast (hexplains.reply _ hread))
  rw [if_neg hread, bind_run, hfetch]
  dsimp only
  by_cases hpost : (D.reply (s.ticks + 4)).ret ≠ 0
  · rw [if_pos hpost]
    exact Or.inl (isErrno_natCast (hexplains.reply _ (lt_of_le_of_ne hposted hpost)))
  · exact Or.inr ⟨not_lt.mp hread, not_not.mp hpost⟩

/-- The command on one file. -/
theorem cmdUploadData_one (hexplains : Explains D) (name : Bytes) {s : State} (h : Calls D s.ticks) :
    IsErrno (cmdUploadData D [name] s).1 ∨
      0 ≤ (D.reply (s.ticks + 8)).ret ∧ (D.reply (s.ticks + 9)).ret = 0 := by
  have hfirst : call D s = (D.reply s.ticks, { s with ticks := s.ticks + 1 }) := rfl
  have hargs : [name] ≠ [] := by simp
  rw [cmdUploadData, if_neg hargs, withNetworkTime, bind_run, hfirst]
  dsimp only
  by_cases htime : (D.reply s.ticks).ret < 0
  · rw [if_pos htime]
    exact Or.inl (isErrno_natCast (hexplains.reply _ htime))
  rw [if_neg htime, bind_run]
  rcases requestURL_upload hexplains (getDumbServerUpload D) (D.reply s.ticks).ret
      (s := { s with ticks := s.ticks + 1 }) h.random with ⟨err, s', herr, hcode⟩ | ⟨url, hurl⟩
  · rw [herr]
    exact Or.inl hcode
  · rw [hurl]
    exact uploadFiles_one hexplains url name (s := { s with ticks := s.ticks + 5 }) h.stat h.opened
      h.posted

/-- The handler of an upload: an error code, or the file was read and the post succeeded. -/
theorem handler_upload (hexplains : Explains D) {path : Bytes} (hpath : Sendable path) {s : State}
    (h : Calls D (s.ticks + 4)) :
    IsErrno (handler D (request (uploadArgv path)) s).1.2 ∨
      0 ≤ (D.reply (s.ticks + 4 + 8)).ret ∧ (D.reply (s.ticks + 4 + 9)).ret = 0 := by
  have hsendable : ∀ arg ∈ uploadArgv path, Sendable arg := by
    have hname : Sendable (ascii "upload_data") := ⟨by decide +kernel, by decide +kernel⟩
    simp [uploadArgv, hname, hpath]
  have hnomem : IsErrno ENOMEM.code := by
    rw [IsErrno]
    decide
  by_cases hmemory : 0 ≤ (D.reply s.ticks).ret
  · have hcount : (uploadArgv path).length ≠ 0 := by simp [uploadArgv]
    have hfew : ¬MAX_ARGS < (uploadArgv path).length := by simp [uploadArgv, MAX_ARGS]
    rw [handler_request D s hmemory, serve_run D hcount hfew]
    dsimp only
    by_cases hcalloc : (D.reply (s.ticks + 1)).ret < 0
    · rw [if_pos hcalloc]
      exact Or.inl (isErrno_natCast (hexplains.reply _ hcalloc))
    rw [if_neg hcalloc]
    by_cases hargs : ∀ i < (uploadArgv path).length, 0 ≤ (D.reply (s.ticks + 1 + 1 + i)).ret
    · rw [readArgs_frames D hsendable { s with sent := [], ticks := s.ticks + 1 + 1 } hargs]
      have hcommand : ClientCommand.ofName (ascii "upload_data") = some .uploadData := by decide
      have hrun : ∀ t, doCommand D ((uploadArgv path).headD []) (uploadArgv path).tail t =
          cmdUploadData D [path] t := by
        intro t
        simp only [uploadArgv, List.headD_cons, List.tail_cons, doCommand, hcommand]
        rfl
      dsimp only
      rw [hrun]
      exact cmdUploadData_one hexplains path (s := ⟨s.ticks + 4, [], s.ran, s.fetched, s.newUser,
        s.dispatched⟩) h
    · have herror := readArgs_noMemory D hsendable { s with sent := [], ticks := s.ticks + 1 + 1 }
        hargs
      generalize readArgs D (uploadArgv path).length (frames (uploadArgv path))
        { s with sent := [], ticks := s.ticks + 1 + 1 } = r at herror ⊢
      obtain ⟨result, t⟩ := r
      obtain rfl : result = .error ENOMEM := herror
      exact Or.inl hnomem
  · rw [handler_run, decide_eq_false hmemory, request, readVersion_noMemory]
    exact Or.inl hnomem

/-- The client exits with 0 only after the log has been read and the server has accepted it. -/
theorem Pass.succeeds_posted (hexplains : Explains D) (a : Pass D) (h : Calls D a.tick)
    (hzero : a.succeeds) :
    0 ≤ (D.reply (a.tick + 8)).ret ∧ (D.reply (a.tick + 9)).ret = 0 := by
  have hsendable : ∀ arg ∈ uploadArgv a.path, Sendable arg := by
    have hname : Sendable (ascii "upload_data") := ⟨by decide +kernel, by decide +kernel⟩
    simp [uploadArgv, hname, a.sendable]
  have hframed : Framed D (uploadArgv a.path) a.start := by
    constructor
    · simp [uploadArgv, MAX_ARGS]
    · intro _ _
      have hname : ascii "upload_data" ≠ ascii "get_name" ∧
          ascii "upload_data" ≠ ascii "code" := by decide +kernel
      exact ⟨fun h => absurd h hname.1, fun h => absurd h hname.2⟩
  rw [Pass.succeeds] at hzero
  cases hconnection : a.connection with
  | none => simp [hconnection] at hzero
  | some C =>
    simp only [hconnection] at hzero
    have hcount : (uploadArgv a.path).length < 65536 := by simp [uploadArgv]
    rcases client_cut hsendable hcount C hframed with hsignaled | ⟨ends, hcut⟩ | ⟨hfull, hret⟩
    · simp [hsignaled] at hzero
    · simp only [hcut, exitStatus] at hzero
      cases ends <;> exact absurd hzero (by decide)
    · rw [hfull] at hret
      rcases handler_upload hexplains a.sendable h with herrno | hposted
      · obtain ⟨hpos, hsmall⟩ := herrno
        simp only [hret, exitStatus] at hzero
        replace hzero := of_decide_eq_true hzero
        omega
      · exact hposted

end Command

section Gzip
variable {D : Device} {s : LogState D} {log path : Bytes} {e : GzipEvent}

theorem archivePath_ne (path : Bytes) : archivePath path ≠ path := by
  intro h
  have hlength := congrArg List.length h
  rw [archivePath, List.length_append, ARCHIVE_SUFFIX] at hlength
  simp [ascii] at hlength

theorem archivePath_injective : Function.Injective archivePath :=
  fun _ _ h => List.append_cancel_right h

theorem suffix_archivePath (path : Bytes) : ARCHIVE_SUFFIX <:+ archivePath path :=
  List.suffix_append path ARCHIVE_SUFFIX

/-- Without a `gzip` of it, a log with an archive, and an archive, stay as they are. -/
theorem gzip_idle (hjob : s.jobs log = none)
    (h : s.logs (archivePath log) ≠ none ∨ ARCHIVE_SUFFIX <:+ log) : s.gzip log e = s := by
  have hsame : (s.archival log).next log e = s.archival log := by
    cases e with
    | opens =>
      rw [Archival.next]
      split
      · rename_i harchive _
        rcases h with hthere | hsuffix
        · exact absurd harchive hthere
        · rw [if_pos hsuffix]
      · rfl
    | _ => simp [Archival.next, LogState.archival, hjob]
  rw [LogState.gzip, hsame]
  simp only [LogState.archival, Function.update_eq_self]

theorem gzip_jobs_of_ne (h : path ≠ log) : (s.gzip log e).jobs path = s.jobs path :=
  Function.update_of_ne h _ _

theorem gzip_logs_of_ne (hlog : path ≠ log) (harchive : path ≠ archivePath log) :
    (s.gzip log e).logs path = s.logs path := by
  change Function.update (Function.update s.logs log _) (archivePath log) _ path = s.logs path
  rw [Function.update_of_ne harchive, Function.update_of_ne hlog]

/-- The log of a `gzip` and what belongs to it. -/
theorem gzip_archival : (s.gzip log e).archival log = (s.archival log).next log e := by
  rw [LogState.archival, LogState.gzip]
  dsimp only
  rw [Function.update_of_ne (archivePath_ne log).symm, Function.update_self, Function.update_self,
    Function.update_self]

/-- A `gzip` that is at work has been at work before, or its log is no archive. -/
theorem gzip_jobs_plain (h : (s.gzip log e).jobs path ≠ none) :
    s.jobs path ≠ none ∨ ¬ARCHIVE_SUFFIX <:+ path := by
  by_cases hpath : path = log
  · subst hpath
    by_cases hjob : s.jobs path = none
    · right
      intro hsuffix
      rw [gzip_idle hjob (Or.inr hsuffix)] at h
      exact h hjob
    · exact Or.inl hjob
  · rw [gzip_jobs_of_ne hpath] at h
    exact Or.inl h

end Gzip

section Server
variable {D : Device} {directory : Bytes} {lossy : Bytes → Bytes} {bodyLimit : ℕ} {data : Bytes}

/-- A file that is there is not written again. -/
theorem deliver_keeps {server : Server} {post : Option Upload}
    (hfresh : ∀ u, post = some u → Vacant directory lossy server u) {file : Bytes}
    (h : server.files file = .ok data) :
    (deliver D directory lossy bodyLimit server post).files file = .ok data := by
  cases post with
  | none => exact h
  | some u =>
    rw [deliver]
    rcases (@dumbpost_files D.ed directory lossy bodyLimit server u).written with
      hsame | ⟨path, part, hpath, hfiles⟩
    · rw [hsame]
      exact h
    · have hother : file ≠ path := by
        rintro rfl
        exact hfresh u rfl file hpath data h
      rw [hfiles, writeFile]
      split_ifs
      · exact h
      · rw [Function.update_of_ne hother]
        exact h

/-- A pass whose client exits with 0 puts on the server what the daemon has read. -/
theorem pass_stores (hexplains : Explains D) {server : Server} {a : Pass D} (h : Calls D a.tick)
    (hbody : ∀ u, a.post = some u → u.data = (D.reply (a.tick + 8)).data)
    (hanswer : FaithfulAnswer D directory lossy bodyLimit server a) (hzero : a.succeeds) :
    ∃ file, (deliver D directory lossy bodyLimit server a.post).files file =
      .ok (D.reply (a.tick + 8)).data := by
  obtain ⟨-, hposted⟩ := a.succeeds_posted hexplains h hzero
  obtain ⟨u, status, hpost, hstatus, hlow⟩ := hanswer.answered hposted
  obtain rfl := dumbpost_status hstatus hlow
  obtain ⟨path, hpath, hfiles⟩ :=
    (@dumbpost_files D.ed directory lossy bodyLimit server u).whole hstatus
  rw [hpost, deliver, ← hbody u hpost]
  rw [uploadPath] at hpath
  split at hpath
  · cases hpath
  · split at hpath
    · rename_i hcreate
      cases hpath
      refine ⟨path, ?_⟩
      rw [hfiles, createUploadFilename_eq_ok hcreate]
      exact writeFile_upload _ _ _ _
    · cases hpath

end Server

section Runs
variable {D : Device} {privateKey directory : Bytes} {lossy : Bytes → Bytes} {bodyLimit : ℕ}
variable {unpack : Bytes → Option Bytes} {s s' : LogState D} {path data : Bytes}

/-- No archive is archived, and the pass under way is what it says. -/
structure Sane (s : LogState D) : Prop where
  plain : ∀ log, s.jobs log ≠ none → ¬ARCHIVE_SUFFIX <:+ log
  pass : ∀ a, s.pass = some a →
    Calls D a.tick ∧ ∀ u, a.post = some u → u.data = (D.reply (a.tick + 8)).data

/-- The log is there. A `gzip` of it has the log open and its archive at hand, and the script has not
read an archive that it will remove. -/
structure Raw (path data : Bytes) (s : LogState D) : Prop where
  log : s.logs path = some data
  unwritten : ¬s.Written path
  job : ∀ job, s.jobs path = some job →
    job.source = data ∧ s.logs (archivePath path) = some job.written
  read : ∀ a, s.pass = some a → a.succeeds → a.path = path → (D.reply (a.tick + 8)).data = data
  patient : ∀ a, s.pass = some a → a.Removes → a.path = archivePath path →
    s.jobs path = none ∧ s.logs (archivePath path) ≠ none

/-- The archive is there, and whole. -/
structure Archived (unpack : Bytes → Option Bytes) (path data : Bytes) (s : LogState D) : Prop where
  idle : s.jobs path = none
  archive : ∃ archive, s.logs (archivePath path) = some archive ∧ unpack archive = some data ∧
    ∀ a, s.pass = some a → a.Removes → a.path = archivePath path →
      (D.reply (a.tick + 8)).data = archive

/-- One of the three, in the state between two events. -/
def Retained (unpack : Bytes → Option Bytes) (path data : Bytes) (s : LogState D) : Prop :=
  Raw path data s ∨ Archived unpack path data s ∨ Served unpack data s.server

theorem Retained.preserved (h : Retained unpack path data s) : Preserved unpack path data s := by
  rcases h with hraw | ⟨hidle, archive, harchive, hunpack, -⟩ | hserved
  · exact Or.inl hraw.log
  · exact Or.inr (Or.inl ⟨archive, harchive, hidle, hunpack⟩)
  · exact Or.inr (Or.inr hserved)

/-- What belongs to a log is the same in both states. -/
structure SameLog (path : Bytes) (s s' : LogState D) : Prop where
  archival : s'.archival path = s.archival path
  written : s'.Written path → s.Written path
  pass : s'.pass = s.pass

theorem SameLog.fields (h : SameLog path s s') : s'.logs path = s.logs path ∧
    s'.logs (archivePath path) = s.logs (archivePath path) ∧ s'.jobs path = s.jobs path := by
  have harchival := h.archival
  simp only [LogState.archival, Archival.mk.injEq] at harchival
  exact harchival

theorem Raw.same (hraw : Raw path data s) (h : SameLog path s s') : Raw path data s' := by
  obtain ⟨hlog, harchive, hjob⟩ := h.fields
  refine ⟨?_, fun hwritten => hraw.unwritten (h.written hwritten), ?_, ?_, ?_⟩
  · rw [hlog]
    exact hraw.log
  · rw [hjob, harchive]
    exact hraw.job
  · rw [h.pass]
    exact hraw.read
  · rw [h.pass, hjob, harchive]
    exact hraw.patient

theorem Archived.same (harchived : Archived unpack path data s) (h : SameLog path s s') :
    Archived unpack path data s' := by
  obtain ⟨-, harchive, hjob⟩ := h.fields
  refine ⟨?_, ?_⟩
  · rw [hjob]
    exact harchived.idle
  · rw [harchive, h.pass]
    exact harchived.archive

theorem sameLog_update {other : Bytes} (hlog : path ≠ other) (harchive : archivePath path ≠ other)
    (content : Option Bytes) :
    SameLog path s { s with logs := Function.update s.logs other content } := by
  refine ⟨?_, id, rfl⟩
  simp only [LogState.archival, Function.update_of_ne hlog, Function.update_of_ne harchive]

/-- A `gzip` of another log. -/
theorem sameLog_gzip {log : Bytes} {e : GzipEvent} (hne : path ≠ log)
    (hwrites : path ≠ archivePath log) (harchive : archivePath path ≠ log) :
    SameLog path s (s.gzip log e) := by
  refine ⟨?_, ?_, rfl⟩
  · simp only [LogState.archival]
    rw [gzip_jobs_of_ne hne, gzip_logs_of_ne hne hwrites, gzip_logs_of_ne harchive]
    exact fun h => hne (archivePath_injective h)
  · rintro ⟨other, rfl, hjob⟩
    have hother : other ≠ log := fun h => hwrites (congrArg archivePath h)
    rw [gzip_jobs_of_ne hother] at hjob
    exact ⟨other, rfl, hjob⟩

/-- Step: a `gzip` of another log. -/
theorem Raw.gzip_other (hraw : Raw path data s) (hsane : Sane s) {log : Bytes} {e : GzipEvent}
    (hne : path ≠ log) : Raw path data (s.gzip log e) := by
  by_cases hwrites : path = archivePath log
  · -- this log is a file that the other `gzip` would write to
    have hidle : s.jobs log = none := by
      by_contra hjob
      exact hraw.unwritten ⟨log, hwrites.symm, hjob⟩
    have hthere : s.logs (archivePath log) ≠ none := by
      rw [← hwrites, hraw.log]
      simp
    rw [gzip_idle hidle (Or.inl hthere)]
    exact hraw
  by_cases harchive : archivePath path = log
  · subst harchive
    have hidle : s.jobs (archivePath path) = none := by
      by_contra hjob
      exact hsane.plain _ hjob (suffix_archivePath path)
    rw [gzip_idle hidle (Or.inr (suffix_archivePath path))]
    exact hraw
  exact hraw.same (sameLog_gzip hne hwrites harchive)

/-- A `gzip` of the log that leaves it, where the script does not wait to remove the archive. -/
theorem Raw.gzip_leaves (hraw : Raw path data s) {e : GzipEvent} {archive : Option Bytes}
    {job : Option Archiving} (hnext : (s.archival path).next path e = ⟨some data, archive, job⟩)
    (hjob : ∀ j, job = some j → j.source = data ∧ archive = some j.written)
    (hpatient : ∀ a, s.pass = some a → a.Removes → a.path = archivePath path →
      job = none ∧ archive ≠ none) :
    Raw path data (s.gzip path e) := by
  have hleaves : (s.gzip path e).archival path = (s.archival path).next path e := gzip_archival
  rw [hnext, LogState.archival, Archival.mk.injEq] at hleaves
  obtain ⟨hlog, harchive, hnew⟩ := hleaves
  refine ⟨hlog, ?_, ?_, hraw.read, ?_⟩
  · rintro ⟨other, hother, hworks⟩
    have hne : other ≠ path := by
      rintro rfl
      exact archivePath_ne other hother
    rw [gzip_jobs_of_ne hne] at hworks
    exact hraw.unwritten ⟨other, hother, hworks⟩
  · rw [hnew, harchive]
    exact hjob
  · rw [hnew, harchive]
    exact hpatient

theorem Raw.gzip_starts (hraw : Raw path data s) {e : GzipEvent} (hjob : s.jobs path = none) :
    Raw path data (s.gzip path e) := by
  by_cases hidle : s.logs (archivePath path) ≠ none ∨ ARCHIVE_SUFFIX <:+ path
  · rw [gzip_idle hjob hidle]
    exact hraw
  obtain ⟨hempty, hplain⟩ := not_or.mp hidle
  rw [not_not] at hempty
  have hpatient : ∀ a, s.pass = some a → a.Removes → a.path ≠ archivePath path :=
    fun a ha hremoves hpath => (hraw.patient a ha hremoves hpath).2 hempty
  cases e with
  | opens =>
    have hnext : (s.archival path).next path .opens =
        ⟨some data, some [], some ⟨data, []⟩⟩ := by
      simp only [LogState.archival, Archival.next, hraw.log, hempty, hjob, if_neg hplain]
    refine hraw.gzip_leaves hnext ?_ fun a ha hremoves hpath =>
      absurd hpath (hpatient a ha hremoves)
    rintro job ⟨⟩
    exact ⟨rfl, rfl⟩
  | _ =>
    have hnext : s.archival path = ⟨some data, none, none⟩ := by
      rw [LogState.archival, hraw.log, hempty, hjob]
    refine hraw.gzip_leaves (by rw [hnext]; rfl) ?_ fun a ha hremoves hpath =>
      absurd hpath (hpatient a ha hremoves)
    rintro job ⟨⟩

theorem Raw.gzip_works (hraw : Raw path data s) {e : GzipEvent} {job : Archiving}
    (hjob : s.jobs path = some job)
    (hwhole : ∀ removes, e = .finishes removes → unpack job.written = some job.source) :
    Raw path data (s.gzip path e) ∨ Archived unpack path data (s.gzip path e) := by
  obtain ⟨hsource, hwritten⟩ := hraw.job job hjob
  have hpatient : ∀ a, s.pass = some a → a.Removes → a.path ≠ archivePath path := by
    intro a ha hremoves hpath
    rw [(hraw.patient a ha hremoves hpath).1] at hjob
    cases hjob
  have harchival : s.archival path = ⟨some data, some job.written, some job⟩ := by
    rw [LogState.archival, hraw.log, hwritten, hjob]
  cases e with
  | opens =>
    left
    refine hraw.gzip_leaves (by rw [harchival]; rfl) ?_ fun a ha hremoves hpath =>
      absurd hpath (hpatient a ha hremoves)
    rintro _ ⟨⟩
    exact ⟨hsource, rfl⟩
  | writes more =>
    left
    refine hraw.gzip_leaves (by rw [harchival]; rfl) ?_ fun a ha hremoves hpath =>
      absurd hpath (hpatient a ha hremoves)
    rintro _ ⟨⟩
    exact ⟨hsource, rfl⟩
  | finishes removes =>
    right
    have hleaves : (s.gzip path (.finishes removes)).archival path =
        ⟨if removes then none else some data, some job.written, none⟩ := by
      rw [gzip_archival, harchival]
      rfl
    rw [LogState.archival, Archival.mk.injEq] at hleaves
    obtain ⟨-, harchive, hnew⟩ := hleaves
    refine ⟨hnew, job.written, harchive, ?_, ?_⟩
    · rw [hwhole removes rfl, hsource]
    · exact fun a ha hremoves hpath => absurd hpath (hpatient a ha hremoves)
  | _ =>
    left
    refine hraw.gzip_leaves (by rw [harchival]; rfl) ?_ fun a ha hremoves hpath =>
      absurd hpath (hpatient a ha hremoves)
    rintro _ ⟨⟩

/-- Step: the `gzip` of the log. -/
theorem Raw.gzip_self (hraw : Raw path data s) {e : GzipEvent}
    (hwhole : ∀ removes, e = .finishes removes → ∀ job, s.jobs path = some job →
      unpack job.written = some job.source) :
    Raw path data (s.gzip path e) ∨ Archived unpack path data (s.gzip path e) := by
  cases hjob : s.jobs path with
  | none => exact Or.inl (hraw.gzip_starts hjob)
  | some job => exact hraw.gzip_works hjob fun removes hfinishes => hwhole removes hfinishes job hjob

/-- Step: a `gzip` next to a whole archive. -/
theorem Archived.gzip (harchived : Archived unpack path data s) (hsane : Sane s) {log : Bytes}
    {e : GzipEvent} : Archived unpack path data (s.gzip log e) := by
  obtain ⟨archive, harchive, -⟩ := harchived.archive
  have hthere : s.logs (archivePath path) ≠ none := by
    rw [harchive]
    simp
  by_cases hne : path = log
  · subst hne
    rw [gzip_idle harchived.idle (Or.inl hthere)]
    exact harchived
  by_cases hown : archivePath path = log
  · subst hown
    have hidle : s.jobs (archivePath path) = none := by
      by_contra hjob
      exact hsane.plain _ hjob (suffix_archivePath path)
    rw [gzip_idle hidle (Or.inr (suffix_archivePath path))]
    exact harchived
  have hsame : (s.gzip log e).logs (archivePath path) = s.logs (archivePath path) :=
    gzip_logs_of_ne hown fun h => hne (archivePath_injective h)
  refine ⟨?_, ?_⟩
  · rw [gzip_jobs_of_ne hne]
    exact harchived.idle
  · rw [hsame]
    exact harchived.archive

/-- A file of the server stays. -/
theorem Served.deliver {server : Server} {post : Option Upload}
    (hfresh : ∀ u, post = some u → Vacant directory lossy server u) (h : Served unpack data server) :
    Served unpack data (deliver D directory lossy bodyLimit server post) := by
  obtain ⟨file, content, hfile, hcontent⟩ := h
  exact ⟨file, content, deliver_keeps hfresh hfile, hcontent⟩

/-- Step: the daemon reads a file. -/
theorem Raw.reads (hexplains : Explains D) (hraw : Raw path data s) {a : Pass D}
    (hread : FaithfulRead D s a) (hpatient : ¬Hasty path s (.reads a)) :
    Raw path data { s with pass := some a } := by
  refine ⟨hraw.log, hraw.unwritten, hraw.job, ?_, ?_⟩
  · rintro a' ⟨⟩ hzero rfl
    rcases hread.read (a.succeeds_posted hexplains hread.calls hzero).1 with hwritten | hlog
    · exact absurd hwritten hraw.unwritten
    · rw [hraw.log, Option.some.injEq] at hlog
      exact hlog.symm
  · rintro a' ⟨⟩ hremoves hpath
    have hzero : a.succeeds := hremoves.succeeds
    have hidle : s.jobs path = none := by
      by_contra hjob
      exact hpatient ⟨a, rfl, hpath, hjob, hremoves⟩
    refine ⟨hidle, ?_⟩
    rcases hread.read (a.succeeds_posted hexplains hread.calls hzero).1 with hwritten | hlog
    · obtain ⟨log, hlog, hjob⟩ := hwritten
      rw [archivePath_injective (hlog.trans hpath)] at hjob
      exact absurd hidle hjob
    · rw [← hpath, hlog]
      simp

theorem Archived.reads (hexplains : Explains D) (harchived : Archived unpack path data s)
    {a : Pass D} (hread : FaithfulRead D s a) :
    Archived unpack path data { s with pass := some a } := by
  obtain ⟨archive, harchive, hunpack, -⟩ := harchived.archive
  refine ⟨harchived.idle, archive, harchive, hunpack, ?_⟩
  rintro a' ⟨⟩ hremoves hpath
  have hzero : a.succeeds := hremoves.succeeds
  rcases hread.read (a.succeeds_posted hexplains hread.calls hzero).1 with hwritten | hlog
  · obtain ⟨log, hlog, hjob⟩ := hwritten
    rw [archivePath_injective (hlog.trans hpath)] at hjob
    exact absurd harchived.idle hjob
  · rw [hpath, harchive, Option.some.injEq] at hlog
    exact hlog.symm

/-- The state behind a pass. -/
def LogState.behind (directory : Bytes) (lossy : Bytes → Bytes) (bodyLimit : ℕ) (s : LogState D)
    (a : Pass D) : LogState D :=
  { s with
    logs := if a.succeeds && a.removes then Function.update s.logs a.path none else s.logs
    pass := none
    server := deliver D directory lossy bodyLimit s.server a.post }

theorem behind_logs_of_ne {a : Pass D} {file : Bytes} (h : a.Removes → a.path ≠ file) :
    (s.behind directory lossy bodyLimit a).logs file = s.logs file := by
  rw [LogState.behind]
  dsimp only
  split_ifs with hremoves
  · exact Function.update_of_ne (h hremoves).symm _ _
  · rfl

/-- Step: a pass comes to its end. -/
theorem Raw.ends (hexplains : Explains D) (hraw : Raw path data s) (hsane : Sane s) {a : Pass D}
    (ha : s.pass = some a) (hanswer : FaithfulAnswer D directory lossy bodyLimit s.server a) :
    Retained unpack path data (s.behind directory lossy bodyLimit a) := by
  obtain ⟨hcalls, hbody⟩ := hsane.pass a ha
  by_cases hown : a.Removes ∧ a.path = path
  · right
    right
    obtain ⟨hremoves, hpath⟩ := hown
    have hzero : a.succeeds := hremoves.succeeds
    obtain ⟨file, hfile⟩ := pass_stores hexplains hcalls hbody hanswer hzero
    rw [hraw.read a ha hzero hpath] at hfile
    exact ⟨file, data, hfile, Or.inl rfl⟩
  · left
    have hlog : (s.behind directory lossy bodyLimit a).logs path = s.logs path :=
      behind_logs_of_ne fun hremoves hpath => hown ⟨hremoves, hpath⟩
    refine ⟨hlog.trans hraw.log, hraw.unwritten, ?_, ?_, ?_⟩
    · intro job hjob
      obtain ⟨hsource, hwritten⟩ := hraw.job job hjob
      refine ⟨hsource, ?_⟩
      rw [behind_logs_of_ne]
      · exact hwritten
      · intro hremoves hpath
        have hidle := (hraw.patient a ha hremoves hpath).1
        exact absurd hjob (by rw [LogState.behind, hidle]; simp)
    · rintro a' ⟨⟩
    · rintro a' ⟨⟩

theorem Archived.ends (hexplains : Explains D) (harchived : Archived unpack path data s)
    (hsane : Sane s) {a : Pass D} (ha : s.pass = some a)
    (hanswer : FaithfulAnswer D directory lossy bodyLimit s.server a) :
    Retained unpack path data (s.behind directory lossy bodyLimit a) := by
  obtain ⟨hcalls, hbody⟩ := hsane.pass a ha
  obtain ⟨archive, harchive, hunpack, hread⟩ := harchived.archive
  right
  by_cases hown : a.Removes ∧ a.path = archivePath path
  · right
    obtain ⟨hremoves, hpath⟩ := hown
    have hzero : a.succeeds := hremoves.succeeds
    obtain ⟨file, hfile⟩ := pass_stores hexplains hcalls hbody hanswer hzero
    rw [hread a ha hremoves hpath] at hfile
    exact ⟨file, archive, hfile, Or.inr hunpack⟩
  · left
    refine ⟨harchived.idle, archive, ?_, hunpack, ?_⟩
    · rw [behind_logs_of_ne fun hremoves hpath => hown ⟨hremoves, hpath⟩]
      exact harchive
    · rintro a' ⟨⟩

/-- A new log. -/
theorem raw_of_newName (h : NewName s path) :
    Raw path data { s with logs := Function.update s.logs path (some data) } := by
  refine ⟨Function.update_self _ _ _, ?_, ?_, ?_, ?_⟩
  · rintro ⟨log, rfl, -⟩
    exact h.plain (suffix_archivePath log)
  · intro job hjob
    rw [h.job] at hjob
    cases hjob
  · exact fun a ha _ hpath => absurd hpath (h.pass a ha).1
  · exact fun a ha _ hpath => absurd hpath (h.pass a ha).2

/-- Step: whatever comes next. -/
theorem next_sane {e : LogEvent D} (hpossible : Possible D directory lossy bodyLimit unpack s e)
    (h : Sane s) : Sane (s.next D privateKey directory lossy bodyLimit e) := by
  cases e with
  | rotate log content => exact ⟨h.plain, h.pass⟩
  | visit v => exact ⟨h.plain, h.pass⟩
  | upload u => exact ⟨h.plain, h.pass⟩
  | gzip log e =>
    refine ⟨?_, h.pass⟩
    intro other hjob
    rcases gzip_jobs_plain hjob with hbefore | hplain
    · exact h.plain other hbefore
    · exact hplain
  | reads a =>
    refine ⟨h.plain, ?_⟩
    rintro a' ⟨⟩
    exact ⟨hpossible.calls, hpossible.body⟩
  | ends =>
    rw [LogState.next]
    cases s.pass with
    | none => exact h
    | some a =>
      refine ⟨h.plain, ?_⟩
      rintro a' ⟨⟩

/-- No event loses a log, but for a pass that has not waited for `gzip`. -/
theorem next_kept (hexplains : Explains D) {e : LogEvent D} (hsane : Sane s)
    (hpossible : Possible D directory lossy bodyLimit unpack s e) (hpatient : ¬Hasty path s e)
    (h : Retained unpack path data s) :
    Retained unpack path data (s.next D privateKey directory lossy bodyLimit e) := by
  cases e with
  | rotate log content =>
    have hplain : archivePath path ≠ log := by
      rintro rfl
      exact hpossible.plain (suffix_archivePath path)
    rcases h with hraw | harchived | hserved
    · have hother : path ≠ log := by
        rintro rfl
        have hnew := hpossible.log
        rw [hraw.log] at hnew
        cases hnew
      exact Or.inl (hraw.same (sameLog_update hother hplain _))
    · have hother : path ≠ log := by
        rintro rfl
        obtain ⟨archive, harchive, -⟩ := harchived.archive
        have hnew := hpossible.archive
        rw [harchive] at hnew
        cases hnew
      exact Or.inr (Or.inl (harchived.same (sameLog_update hother hplain _)))
    · exact Or.inr (Or.inr hserved)
  | gzip log e =>
    rcases h with hraw | harchived | hserved
    · by_cases hself : path = log
      · subst hself
        have hwhole : ∀ removes, e = .finishes removes → ∀ job, s.jobs path = some job →
            unpack job.written = some job.source := by
          rintro removes rfl
          exact hpossible
        rcases hraw.gzip_self hwhole with hraw' | harchived
        · exact Or.inl hraw'
        · exact Or.inr (Or.inl harchived)
      · exact Or.inl (hraw.gzip_other hsane hself)
    · exact Or.inr (Or.inl (harchived.gzip hsane))
    · exact Or.inr (Or.inr hserved)
  | visit v =>
    refine h.imp (fun hraw => hraw.same ⟨rfl, id, rfl⟩) (Or.imp (fun harchived =>
      harchived.same ⟨rfl, id, rfl⟩) ?_)
    rintro ⟨file, content, hfile, hcontent⟩
    refine ⟨file, content, ?_, hcontent⟩
    rw [LogState.next, dumbcodeMain_files]
    exact hfile
  | upload u =>
    refine h.imp (fun hraw => hraw.same ⟨rfl, id, rfl⟩) (Or.imp (fun harchived =>
      harchived.same ⟨rfl, id, rfl⟩) fun hserved => hserved.deliver ?_)
    rintro u' ⟨⟩
    exact hpossible
  | reads a =>
    rcases h with hraw | harchived | hserved
    · exact Or.inl (hraw.reads hexplains hpossible hpatient)
    · exact Or.inr (Or.inl (harchived.reads hexplains hpossible))
    · exact Or.inr (Or.inr hserved)
  | ends =>
    rw [LogState.next]
    cases ha : s.pass with
    | none => exact h
    | some a =>
      have hanswer := hpossible a ha
      rcases h with hraw | harchived | hserved
      · exact hraw.ends hexplains hsane ha hanswer
      · exact harchived.ends hexplains hsane ha hanswer
      · exact Or.inr (Or.inr (hserved.deliver hanswer.fresh))

/-- No `gzip` is at work and no pass under way. -/
structure Booted (s : LogState D) : Prop where
  jobs : ∀ log, s.jobs log = none
  pass : s.pass = none

theorem Booted.sane (h : Booted s) : Sane s := by
  constructor
  · exact fun log hjob => absurd (h.jobs log) hjob
  · intro a ha
    rw [h.pass] at ha
    cases ha

theorem Booted.raw (h : Booted s) (hlog : s.logs path = some data) : Raw path data s := by
  have hnone : ∀ a, s.pass ≠ some a := by
    intro a ha
    rw [h.pass] at ha
    cases ha
  refine ⟨hlog, ?_, ?_, fun a ha => absurd ha (hnone a), fun a ha => absurd ha (hnone a)⟩
  · rintro ⟨log, -, hjob⟩
    exact hjob (h.jobs log)
  · intro job hjob
    rw [h.jobs] at hjob
    cases hjob

/-- A run from a state in which the log is kept. -/
theorem run_kept (hexplains : Explains D) {run : List (LogEvent D)} (hsane : Sane s)
    (hpossible : ∀ e ∈ trace (logStep D privateKey directory lossy bodyLimit) s run,
      Possible D directory lossy bodyLimit unpack e.before e.input)
    (hpatient : ∀ e ∈ trace (logStep D privateKey directory lossy bodyLimit) s run,
      ¬Hasty path e.before e.input) (h : Retained unpack path data s) :
    Retained unpack path data (finalState (logStep D privateKey directory lossy bodyLimit) s run) := by
  have hinvariant := trace_invariant (logStep D privateKey directory lossy bodyLimit)
    (fun s => Sane s ∧ Retained unpack path data s) s run ⟨hsane, h⟩ fun e he hbefore => by
      rw [eq_callOf_of_mem_trace _ he]
      exact ⟨next_sane (hpossible e he) hbefore.1,
        next_kept hexplains hbefore.1 (hpossible e he) (hpatient e he) hbefore.2⟩
  exact hinvariant.2.2

/-- However the passes of the script, the background `gzip`s, the requests of all clients and the
rotation of the logs follow each other, and whatever fails on the way: a log that the daemon had at
any time is still there, whole or as its archive, or the server has a file with one of them, or the
script has read the archive before `gzip` was done and removed it. -/
theorem no_log_lost (hexplains : Explains D) {run : List (LogEvent D)} (hbooted : Booted s)
    (hpossible : ∀ e ∈ trace (logStep D privateKey directory lossy bodyLimit) s run,
      Possible D directory lossy bodyLimit unpack e.before e.input)
    (h : s.logs path = some data ∨ .rotate path data ∈ run) :
    Preserved unpack path data (finalState (logStep D privateKey directory lossy bodyLimit) s run) ∨
      ∃ e ∈ trace (logStep D privateKey directory lossy bodyLimit) s run,
        Hasty path e.before e.input := by
  by_cases hpatient : ∃ e ∈ trace (logStep D privateKey directory lossy bodyLimit) s run,
      Hasty path e.before e.input
  · exact Or.inr hpatient
  left
  simp only [not_exists, not_and] at hpatient
  apply Retained.preserved
  rcases h with hlog | hrotate
  · exact run_kept hexplains hbooted.sane hpossible hpatient (Or.inl (hbooted.raw hlog))
  · obtain ⟨past, future, rfl⟩ := List.append_of_mem hrotate
    rw [trace_append, trace_cons] at hpossible hpatient
    have hmiddle : Sane (finalState (logStep D privateKey directory lossy bodyLimit) s past) := by
      refine (trace_invariant (logStep D privateKey directory lossy bodyLimit) Sane s past hbooted.sane
        fun e he hbefore => ?_).2
      rw [eq_callOf_of_mem_trace _ he]
      exact next_sane (hpossible e (List.mem_append_left _ he)) hbefore
    have hnew := hpossible _ (List.mem_append_right _ List.mem_cons_self)
    have hrotated : Sane ((finalState (logStep D privateKey directory lossy bodyLimit) s past).next D
        privateKey directory lossy bodyLimit (.rotate path data)) := next_sane hnew hmiddle
    rw [finalState_append, finalState_cons]
    apply run_kept hexplains hrotated
    · exact fun e he => hpossible e (List.mem_append_right _ (List.mem_cons_of_mem _ he))
    · exact fun e he => hpatient e (List.mem_append_right _ (List.mem_cons_of_mem _ he))
    · exact Or.inl (raw_of_newName hnew)

end Runs

section Example

def logName : Bytes := ascii "/data/local/tmp/dumb/logs/1.log"

def logPath : Bytes := archivePath logName

/-- A device whose daemon has one log to post, in its first session. -/
def logDevice : Device :=
  { Device.plain Ed25519.always 5 with
    userFile := fun _ => .ok blobOfU
    reply := fun t =>
      if t = 4 then ⟨5, 0, [], []⟩
      else if t = 6 then ⟨0, 0, List.replicate 64 0, []⟩
      else if t = 10 then ⟨3, 0, [], []⟩
      else if t = 12 then ⟨1, 0, ascii "A", []⟩
      else ⟨0, 0, [], []⟩ }

theorem logPath_sendable : Sendable logPath := ⟨by decide +kernel, by decide +kernel⟩

theorem uploadArgv_sendable : ∀ arg ∈ uploadArgv logPath, Sendable arg := by
  have hname : Sendable (ascii "upload_data") := ⟨by decide +kernel, by decide +kernel⟩
  simp [uploadArgv, hname, logPath_sendable]

/-- A pass in which all goes well. -/
def logPass : Pass logDevice where
  path := logPath
  sendable := logPath_sendable
  start := State.start
  connection := some (CutConnection.killed uploadArgv_sendable le_rfl 4)
  post := some (uploadOf (ascii "A"))
  removes := true

/-- A `gzip` that needs one byte for a log, or two. -/
def unpackText (archive content : Bytes) : Option Bytes :=
  if content = archive then some (ascii "text") else none

/-- The script comes when `gzip` is done. -/
def logRun : List (LogEvent logDevice) :=
  [.rotate logName (ascii "text"), .gzip logName .opens, .gzip logName (.writes (ascii "A")),
    .gzip logName (.finishes true), .reads logPass, .ends]

/-- The script comes in the middle. -/
def hastyRun : List (LogEvent logDevice) :=
  [.rotate logName (ascii "text"), .gzip logName .opens, .gzip logName (.writes (ascii "A")),
    .reads logPass, .ends, .gzip logName (.writes (ascii "B")), .gzip logName (.finishes true)]

def logStart : LogState logDevice := ⟨fun _ => none, fun _ => none, none, serverOfU⟩

theorem logStart_booted : Booted logStart := ⟨fun _ => rfl, rfl⟩

theorem logDevice_explains : Explains logDevice where
  reply t h := by
    have hret : 0 ≤ (logDevice.reply t).ret := by
      simp only [logDevice]
      split_ifs <;> decide
    omega
  userFile t errno h := by cases h
  sign key data err h := by cases h

theorem logName_newName : NewName logStart logName where
  log := rfl
  archive := rfl
  job := rfl
  plain := by decide +kernel
  pass a ha := by cases ha

theorem logPass_faithfulRead {s : LogState logDevice} (h : s.logs logPath = some (ascii "A")) :
    FaithfulRead logDevice s logPass where
  calls := ⟨by decide, by decide, by decide, by decide⟩
  read _ := Or.inr h
  body u hu := by
    cases hu
    rfl

theorem logPass_faithfulAnswer : FaithfulAnswer logDevice (ascii "d") id 2097152 serverOfU logPass where
  answered _ := ⟨_, 200, rfl, by decide +kernel, by decide⟩
  fresh u hu := by
    cases hu
    intro path hpath data hdata
    have hother : uploadPath (ascii "d") id (uploadOf (ascii "A")) ≠
        some (createUserPubkeyPath (ascii "d") (ascii "u")) := by decide +kernel
    simp only [serverOfU] at hdata
    split_ifs at hdata with hkey
    exact hother (hkey ▸ hpath)

theorem logRun_possible :
    ∀ e ∈ trace (logStep logDevice [] (ascii "d") id 2097152) logStart logRun,
      Possible logDevice (ascii "d") id 2097152 (unpackText (ascii "A")) e.before e.input := by
  intro e he
  simp only [logRun, trace_cons, trace_nil, List.mem_cons, List.not_mem_nil, or_false] at he
  rcases he with rfl | rfl | rfl | rfl | rfl | rfl
  · exact logName_newName
  · trivial
  · trivial
  · intro job hjob
    have hworks : job = ⟨ascii "text", ascii "A"⟩ := (Option.some.inj hjob).symm
    rw [hworks]
    decide
  · exact logPass_faithfulRead (by decide +kernel)
  · rintro a ⟨⟩
    exact logPass_faithfulAnswer

/-- The log and its archive are gone from the device. -/
theorem no_log_lost_archived :
    (finalState (logStep logDevice [] (ascii "d") id 2097152) logStart logRun).logs logName = none ∧
      (finalState (logStep logDevice [] (ascii "d") id 2097152) logStart logRun).logs logPath = none ∧
      (Preserved (unpackText (ascii "A")) logName (ascii "text")
        (finalState (logStep logDevice [] (ascii "d") id 2097152) logStart logRun) ∨
      ∃ e ∈ trace (logStep logDevice [] (ascii "d") id 2097152) logStart logRun,
        Hasty logName e.before e.input) := by
  have hmember : LogEvent.rotate logName (ascii "text") ∈ logRun := by simp [logRun]
  exact ⟨by decide +kernel, by decide +kernel,
    no_log_lost logDevice_explains logStart_booted logRun_possible (Or.inr hmember)⟩

theorem hastyRun_possible :
    ∀ e ∈ trace (logStep logDevice [] (ascii "d") id 2097152) logStart hastyRun,
      Possible logDevice (ascii "d") id 2097152 (unpackText (ascii "AB")) e.before e.input := by
  intro e he
  simp only [hastyRun, trace_cons, trace_nil, List.mem_cons, List.not_mem_nil, or_false] at he
  rcases he with rfl | rfl | rfl | rfl | rfl | rfl | rfl
  · exact logName_newName
  · trivial
  · trivial
  · exact logPass_faithfulRead (by decide +kernel)
  · rintro a ⟨⟩
    exact logPass_faithfulAnswer
  · trivial
  · intro job hjob
    have hworks : job = ⟨ascii "text", ascii "AB"⟩ := (Option.some.inj hjob).symm
    rw [hworks]
    decide

/-- The server has a part of the archive, and the key of the user. -/
theorem hastyRun_files {file content : Bytes}
    (h : (finalState (logStep logDevice [] (ascii "d") id 2097152) logStart hastyRun).server.files
      file = .ok content) : content = ascii "A" ∨ content = KeyPair.always.publicHex := by
  have haccepted : (dumbpost logDevice.ed (ascii "d") id 2097152 serverOfU (uploadOf (ascii "A"))).1 =
      some 200 := by decide +kernel
  obtain ⟨path, -, hfiles⟩ := (@dumbpost_files logDevice.ed (ascii "d") id 2097152 serverOfU
    (uploadOf (ascii "A"))).whole haccepted
  change (dumbpost logDevice.ed (ascii "d") id 2097152 serverOfU (uploadOf (ascii "A"))).2.files
    file = .ok content at h
  rw [hfiles, writeFile] at h
  have hstart : ∀ file content, serverOfU.files file = .ok content →
      content = KeyPair.always.publicHex := by
    intro file content hfile
    simp only [serverOfU] at hfile
    split_ifs at hfile
    exact (Except.ok.inj hfile).symm
  split_ifs at h
  · exact Or.inr (hstart file content h)
  · by_cases hpath : file = path
    · subst hpath
      rw [Function.update_self] at h
      exact Or.inl (Except.ok.inj h).symm
    · rw [Function.update_of_ne hpath] at h
      exact Or.inr (hstart file content h)

/-- A script that does not wait loses a log. -/
theorem hastyRun_loses : ¬Preserved (unpackText (ascii "AB")) logName (ascii "text")
    (finalState (logStep logDevice [] (ascii "d") id 2097152) logStart hastyRun) := by
  have hgone : (finalState (logStep logDevice [] (ascii "d") id 2097152) logStart hastyRun).logs
      logName = none ∧ (finalState (logStep logDevice [] (ascii "d") id 2097152) logStart
        hastyRun).logs (archivePath logName) = none := by decide +kernel
  rintro (hlog | ⟨archive, harchive, -⟩ | ⟨file, content, hfile, hcontent⟩)
  · rw [hgone.1] at hlog
    cases hlog
  · rw [hgone.2] at harchive
    cases harchive
  · rcases hastyRun_files hfile with rfl | rfl
    · exact absurd hcontent (by decide)
    · exact absurd hcontent (by decide +kernel)

end Example

end Dumbos.System
