import Dumbos.Foundation.Disk
import Dumbos.Foundation.Run
import Dumbos.CServer.Load
import Dumbos.Request.Signing

/-! # `dumb_handler`

The handler of the C server in a build without debug mode, cut at its calls into
the file system. Any number of requests is served at the same time: a turn lets one
of them make its next step, or lets something else change the disk. The paths are
taken to fit into memory, as the source takes them.
-/
namespace Dumbos.CServer
open Foundation Common Payload Request

def SERVER_USER_PUBKEY_FILE : Bytes := ascii "pubkey"

/-- The arguments of the connection, as C strings; a missing one is NULL. -/
structure Query where
  code : Option Bytes
  user : Option Bytes
  requestid : Option Bytes
  requestsig : Option Bytes
  requesttime : Option Bytes

structure Params where
  code : Bytes
  user : Bytes
  requestid : Bytes
  requestsig : Bytes
  requesttime : Bytes

/-- The tests for NULL. -/
def Query.params (q : Query) : Option Params := do
  let code ← q.code
  let user ← q.user
  let requestid ← q.requestid
  let requestsig ← q.requestsig
  let requesttime ← q.requesttime
  return ⟨code, user, requestid, requestsig, requesttime⟩

def userpath (user : Bytes) : Bytes := USERDATA_PREFIX ++ user ++ ascii "/"

def userPubkeyPath (user : Bytes) : Bytes := userpath user ++ SERVER_USER_PUBKEY_FILE

def requestDataPath (user requestid : Bytes) : Bytes :=
  userpath user ++ ascii "/request-" ++ requestid

/-- What a step meets: the clock as a number and as text, whether its call into the system fails,
and what fails while a code is loaded. -/
structure Meets where
  now : ℤ
  timestamp : Bytes
  fails : Bool
  faults : LoadFaults

/-- Where `dp_malloc_check_load` is. -/
inductive Loading where
  | start
  | userpathTried
  | opened (ino : ℕ)
  | sized (ino : ℕ) (size : {n // sizeofDumbPayload ≤ n})
  | buffered (ino size : ℕ) (payload : DumbPayload)
  | returned (payload : DumbPayload) (size : ℕ)

/-- Where `dumb_handler` is. -/
inductive Phase where
  | waiting
  | keyOpened (ino : ℕ)
  | keyRead (userPubkey : Bytes)
  | verified
  | created (requestFile : ℕ)
  | loading (requestFile : ℕ) (l : Loading)
  | answered (response : DumbPayload) (size : ℕ)
  | notFound

/-- The request has been answered with a payload. -/
def Phase.Answered : Phase → Prop
  | answered _ _ => True
  | _ => False

instance : DecidablePred Phase.Answered
  | .answered _ _ => isTrue trivial
  | .waiting | .keyOpened _ | .keyRead _ | .verified | .created _ | .loading _ _ | .notFound =>
    isFalse id

section Step
variable (E : Ed25519) (privateKey : Bytes) (p : Params) (m : Meets) (disk : Disk)

/-- `read_all` of an open file: what is there has to be enough. -/
def readAll (ino size : ℕ) : Option {b : Bytes // b.length = size} :=
  if h : size ≤ (disk.content ino).length then
    some ⟨(disk.content ino).take size, List.length_take_of_le h⟩
  else none

/-- The next step of `dp_malloc_check_load`; `none` is NULL. -/
def loadStep : Loading → Option Loading × Disk
  | .start =>
    if !checkAllowedChars p.code SECRET_CODE_ALLOWED_CHARS then (none, disk)
    else if m.faults.mallocPath then (none, disk)
    else if PATH_MAX ≤ (codePath p.code).length then (none, disk)
    else if m.faults.mallocUserpath then (none, disk)
    else if PATH_MAX ≤ (userCodePath p.user p.code).length then (none, disk)
    else match if m.fails then none else disk.entry (userCodePath p.user p.code) with
      | some ino => (some (.opened ino), disk)
      | none => (some .userpathTried, disk)
  | .userpathTried => match if m.fails then none else disk.entry (codePath p.code) with
    | some ino => (some (.opened ino), disk)
    | none => (none, disk)
  | .opened ino =>
    if m.faults.fstat then (none, disk)
    else if h : (disk.content ino).length < sizeofDumbPayload then (none, disk)
    else if m.faults.mallocPayload then (none, disk)
    else (some (.sized ino ⟨(disk.content ino).length, not_lt.mp h⟩), disk)
  | .sized ino size =>
    match if m.faults.readAll ∨ NegativeInt size.val then none else readAll disk ino size.val with
    | none => (none, disk)
    | some buf =>
      (some (.buffered ino size.val (DumbPayload.ofBytes buf.val (size.property.trans buf.property.ge))),
        disk)
  | .buffered ino size payload =>
    let (expired, payload) := dpIsExpired m.now payload
    if expired then (none, disk)
    else
      let (payload, written) := writeBack E privateKey m.faults size payload
      (payload.map (fun r => .returned r.1 r.2), disk.write ino written)
  | .returned payload size => (some (.returned payload size), disk)

/-- What is left in the request file of an answered request. -/
def requestRecord (timestamp : Bytes) (response : DumbPayload) : Bytes :=
  timestamp ++ ascii "\n" ++ response.command.val ++ ascii "\n"

/-- The next step of `dumb_handler` behind its tests for NULL. -/
def serveStep : Phase → Phase × Disk
  | .waiting =>
    if !checkAllowedChars p.user DUMBOS_USER_ALLOWED_CHARS then (.notFound, disk)
    else if !checkAllowedChars p.requestid REQUESTID_ALLOWED_CHARS then (.notFound, disk)
    else match if m.fails then none else disk.entry (userPubkeyPath p.user) with
      | none => (.notFound, disk)
      | some ino => (.keyOpened ino, disk)
  | .keyOpened ino =>
    match if m.fails then none else readAll disk ino (ED25519_PUBLIC_KEY_HEX_SIZE - 1) with
    | none => (.notFound, disk)
    | some userPubkey => (.keyRead (cstr userPubkey.val), disk)
  | .keyRead userPubkey =>
    if m.fails then (.notFound, disk)
    else match requestIdVerify E m.now p.user p.requestid p.requesttime p.requestsig userPubkey with
      | .error _ => (.notFound, disk)
      | .ok () => (.verified, disk)
  | .verified =>
    -- `O_CREAT | O_EXCL`: the test and the creation are one step
    if m.fails || (disk.entry (requestDataPath p.user p.requestid)).isSome then (.notFound, disk)
    else (.created disk.next, disk.create (requestDataPath p.user p.requestid))
  | .created requestFile =>
    if m.fails then (.notFound, disk) else (.loading requestFile .start, disk)
  | .loading requestFile (.returned response size) =>
    -- the writes are not checked
    (.answered response size,
      if m.fails then disk else disk.write requestFile (requestRecord m.timestamp response))
  | .loading requestFile l => match loadStep E privateKey p m disk l with
    | (none, disk) => (.notFound, disk)
    | (some l, disk) => (.loading requestFile l, disk)
  | .answered response size => (.answered response size, disk)
  | .notFound => (.notFound, disk)

end Step

section Alone
variable (E : Ed25519) (privateKey : Bytes) (p : Params) (m : Meets)

/-- The step of a request that has the server for itself. -/
def serveAlone (s : Phase × Disk) : Phase × Disk := serveStep E privateKey p m s.2 s.1

/-- The phase in which a request ends that was handed this by `dp_malloc_check_load`. -/
def answer : Option (DumbPayload × ℕ) → Phase
  | some r => .answered r.1 r.2
  | none => .notFound

variable {E privateKey p m}

/-- A request that has ended stays as it is. -/
theorem serveAlone_answer (n : ℕ) (r : Option (DumbPayload × ℕ)) (disk : Disk) :
    (serveAlone E privateKey p m)^[n] (answer r, disk) = (answer r, disk) := by
  apply Function.iterate_fixed
  cases r <;> rfl

theorem serveAlone_buffered (requestFile ino size n : ℕ) (payload : DumbPayload) (disk : Disk) :
    ((serveAlone E privateKey p m)^[n + 2]
      (.loading requestFile (.buffered ino size payload), disk)).1 =
      answer (if (dpIsExpired m.now payload).1 then none
        else (writeBack E privateKey m.faults size (dpIsExpired m.now payload).2).1) := by
  rw [Function.iterate_succ_apply]
  simp only [serveAlone, serveStep, loadStep]
  split_ifs with hexpired
  · exact congrArg Prod.fst (serveAlone_answer (n + 1) none disk)
  · cases hwrite : (writeBack E privateKey m.faults size (dpIsExpired m.now payload).2).1 with
    | none => exact congrArg Prod.fst (serveAlone_answer (n + 1) none _)
    | some r =>
      rw [Function.iterate_succ_apply]
      exact congrArg Prod.fst (serveAlone_answer n (some r) _)

theorem serveAlone_opened (requestFile ino n : ℕ) (disk : Disk) :
    ((serveAlone E privateKey p m)^[n + 4] (.loading requestFile (.opened ino), disk)).1 =
      answer (checkLoad E privateKey m.now m.faults (disk.content ino)).1 := by
  rw [checkLoad, Function.iterate_succ_apply]
  simp only [serveAlone, serveStep, loadStep]
  split_ifs with hfstat hshort hmalloc hread hint
  · exact congrArg Prod.fst (serveAlone_answer (n + 3) none disk)
  · exact congrArg Prod.fst (serveAlone_answer (n + 3) none disk)
  · exact congrArg Prod.fst (serveAlone_answer (n + 3) none disk)
  · rw [Function.iterate_succ_apply]
    simp only [serveAlone, serveStep, loadStep, hread, true_or, if_true]
    exact congrArg Prod.fst (serveAlone_answer (n + 2) none disk)
  · rw [Function.iterate_succ_apply]
    simp only [serveAlone, serveStep, loadStep, hint, or_true, if_true]
    exact congrArg Prod.fst (serveAlone_answer (n + 2) none disk)
  all_goals
    rw [Function.iterate_succ_apply]
    simp only [serveAlone, serveStep, loadStep, hread, hint, or_self, readAll, le_refl, dite_true,
      if_false, Bool.false_eq_true, List.take_length]
    apply (serveAlone_buffered requestFile ino _ (n + 0) _ _).trans
    simp [*]

/-- The loading of a request that nothing interrupts ends as `dp_malloc_check_load` does. -/
theorem serveAlone_dpMallocCheckLoad (hm : m.fails = false) (requestFile : ℕ) (disk : Disk) :
    ((serveAlone E privateKey p m)^[6] (.loading requestFile .start, disk)).1 =
      answer (dpMallocCheckLoad E privateKey disk.file ⟨p.code, p.user, m.now, m.faults⟩).1 := by
  have hend : ∀ n d, ((serveAlone E privateKey p m)^[n] (.notFound, d)).1 = answer none :=
    fun n d => congrArg Prod.fst (serveAlone_answer n none d)
  have hfile : ∀ path, disk.file path = (disk.entry path).map disk.content := fun _ => rfl
  rw [Function.iterate_succ_apply, dpMallocCheckLoad, openCode]
  simp only [serveAlone, serveStep, loadStep, hm, if_false, Bool.false_eq_true]
  split_ifs
  -- no file is looked for when the code is refused or a buffer is missing
  all_goals try exact hend 5 disk
  · rename_i huser
    obtain ⟨file, huser⟩ := Option.isSome_iff_exists.mp huser
    obtain ⟨ino, hentry, rfl⟩ := Option.map_eq_some_iff.mp huser
    simp only [hentry, huser]
    exact serveAlone_opened requestFile ino 1 disk
  · rename_i huser hcode
    obtain ⟨file, hcode⟩ := Option.isSome_iff_exists.mp hcode
    obtain ⟨ino, hentry, rfl⟩ := Option.map_eq_some_iff.mp hcode
    rw [hfile, Option.isSome_map, Option.not_isSome_iff_eq_none] at huser
    rw [huser, Function.iterate_succ_apply]
    simp only [serveAlone, serveStep, loadStep, hm, if_false, Bool.false_eq_true, hentry, hcode]
    exact serveAlone_opened requestFile ino 0 disk
  · rename_i huser hcode
    rw [hfile, Option.isSome_map, Option.not_isSome_iff_eq_none] at huser hcode
    rw [huser, Function.iterate_succ_apply]
    simp only [serveAlone, serveStep, loadStep, hm, if_false, Bool.false_eq_true, hcode]
    exact hend 4 disk

end Alone

/-- Something else that uses the disk, and deletes no request file. -/
structure Outside where
  change : Disk → Disk
  keepsRequests : ∀ disk user requestid, (disk.entry (requestDataPath user requestid)).isSome →
    ((change disk).entry (requestDataPath user requestid)).isSome

inductive Turn (ι : Type*) where
  | serve (i : ι) (m : Meets)
  | outside (o : Outside)

structure Service (ι : Type*) where
  disk : Disk
  phase : ι → Phase

def Service.initial {ι : Type*} (disk : Disk) : Service ι := ⟨disk, fun _ => .waiting⟩

variable {ι : Type*} [DecidableEq ι] (E : Ed25519) (privateKey : Bytes) (query : ι → Query)

def advance (s : Service ι) : Turn ι → Service ι
  | .serve i m => match (query i).params with
    | none => { s with phase := Function.update s.phase i .notFound }
    | some p =>
      let (phase, disk) := serveStep E privateKey p m s.disk (s.phase i)
      ⟨disk, Function.update s.phase i phase⟩
  | .outside o => { s with disk := o.change s.disk }

/-- The machine of all requests; a turn has no answer of its own. -/
def turnStep (s : Service ι) (t : Turn ι) : Unit × Service ι :=
  ((), advance E privateKey query s t)

/-- The state in which a run from this disk ends. -/
def serviceAfter (disk : Disk) (turns : List (Turn ι)) : Service ι :=
  finalState (turnStep E privateKey query) (Service.initial disk) turns

/-- The key has been read from the file that had the name of the user's stored key. -/
def StoredKey (disk : Disk) (turns : List (Turn ι)) (user key : Bytes) : Prop :=
  ∃ opening reading ino buf, opening <+: reading ∧ reading <+: turns ∧
    (serviceAfter E privateKey query disk opening).disk.entry (userPubkeyPath user) = some ino ∧
    readAll (serviceAfter E privateKey query disk reading).disk ino
      (ED25519_PUBLIC_KEY_HEX_SIZE - 1) = some buf ∧
    key = cstr buf.val

end Dumbos.CServer
