import Dumbos.RustServer.FirstUse
import Dumbos.RustServer.Panics

/-! # What the log says of a request

Every exit of a handler logs one event and returns one status. The kind of the event
goes with the status, the event of a code names the file that was served, the event of
an upload the file that was written, and an id is used up by an accepted request alone.
-/
namespace Dumbos.RustServer
open Foundation Common Payload Request

variable (E : Ed25519) (privateKey directory : Bytes)

/-- `dumb_verify_request` returns `Ok(Ok(()))`. -/
def Accepts (env : Env) (s : Server) (q : DumbRequestParams) : Prop :=
  (dumbVerifyRequest E env s.files directory q s.requestIds).1 = some accepted

/-- The request's own key is newly in the table, and no other key has changed. -/
structure Recorded (table table' : Bytes → Bool) (q : DumbRequestParams) (accepted : Prop) : Prop where
  newly : table (requestKey q) = false ∧ table' (requestKey q) = true ↔ accepted
  others : ∀ key, key ≠ requestKey q → table' key = table key

/-- The event of a request for a code, before it gets its time. -/
structure CodeEvent (files : Files) (v : Visit) (event : Event) (result : Except StatusCode Bytes) :
    Prop where
  code : event.eventType = .Code ↔ ∃ bytes, result = .ok bytes
  rejected : event.eventType = .CodeRejected ∨ event.eventType = .GenericReject ↔
    result = .error .FORBIDDEN
  error : event.eventType = .Error ↔ result = .error .INTERNAL_SERVER_ERROR
  served : ∀ bytes, result = .ok bytes → ∃ personal file,
    event = Event.code v.params.user v.params.code personal ∧
    Reads directory files v personal file ∧
    servePayload E privateKey v.env v.params.user v.params.code personal file = .ok bytes

/-- The event of an upload, before it gets its time, and the files behind it. -/
structure UploadEvent (files files' : Files) (u : Upload) (q : DumbRequestParams) (event : Event) :
    Prop where
  upload : event.eventType = .Upload ↔ ∃ path,
    createUploadFilename directory q.user u.time u.uniqueid = some (.ok path) ∧
    event.extra = some path ∧ files' = writeFile files path u.data
  written : event.eventType = .Upload → ∃ path,
    event = Event.upload q.user path u.data.length ∧ files' path = .ok u.data
  /-- At most a write that has failed leaves something. -/
  kept : event.eventType ≠ .Upload → files' = files ∨ ∃ (path : Bytes) (e : WriteError),
    createUploadFilename directory q.user u.time u.uniqueid = some (.ok path) ∧
    event = Event.error (ascii "writing to " ++ path) e.text ∧ files' = e.leaves files path u.data

/-- What a request for a code leaves behind. -/
structure CodeAudit (s s' : Server) (v : Visit) (result : Except StatusCode Bytes) : Prop where
  logged : ∃ event, s'.events = s.events ++ [{ event with time := v.env.now }] ∧
    CodeEvent E privateKey directory s.files v event result
  recorded : Recorded s.requestIds s'.requestIds v.params (Accepts E directory v.env s v.params)

/-- What an upload leaves behind. -/
structure UploadAudit (s s' : Server) (u : Upload) (q : DumbRequestParams) : Prop where
  logged : ∃ event, s'.events = s.events ++ [{ event with time := u.env.now }] ∧
    UploadEvent directory s.files s'.files u q event
  recorded : Recorded s.requestIds s'.requestIds q (Accepts E directory u.env s q)

section Verifier
variable {E directory} {env : Env} {files : Files} {q : DumbRequestParams} {table : Bytes → Bool}

theorem clean_of_accepted
    (h : (dumbVerifyRequest E env files directory q table).1 = some accepted) : CleanParams q := by
  by_contra hunclean
  rcases @dumbVerifyRequest_unclean E env files directory q table hunclean True with ⟨-, hresult⟩ | ⟨-, msg, hresult⟩
  · rw [hresult] at h
    cases h
  · rw [hresult] at h
    cases h

/-- The table changes with an accepted request, and there in the key of the request. -/
theorem dumbVerifyRequest_table :
    (dumbVerifyRequest E env files directory q table).2 =
      if (dumbVerifyRequest E env files directory q table).1 = some accepted then
        Function.update table (requestKey q) true
      else table := by
  rw [dumbVerifyRequest]
  cases hnames : checkNames env files directory q with
  | none => rfl
  | some r =>
    cases r with
    | error r => exact (if_neg fun h => checkNames_error directory hnames (Option.some.inj h)).symm
    | ok c =>
      cases hlookup : lookupRequestId env table q c with
      | error r =>
        simp only [hlookup]
        exact (if_neg fun h => lookupRequestId_error hlookup (Option.some.inj h)).symm
      | ok _ =>
        cases hsig : checkSignature E env q c with
        | none => simp [hlookup, hsig]
        | some r =>
          cases r with
          | error r =>
            simp only [hlookup, hsig]
            exact (if_neg fun h => checkSignature_error E hsig (Option.some.inj h)).symm
          | ok _ =>
            have hkey : c.userRequestid = requestKey q := (checkNames_eq_ok hnames).2
            simp only [hlookup, hsig, insertRequestId]
            cases env.insertError with
            | none => rw [if_pos rfl, hkey]
            | some e => simp [accepted]

theorem dumbVerifyRequest_recorded :
    Recorded table (dumbVerifyRequest E env files directory q table).2 q
      ((dumbVerifyRequest E env files directory q table).1 = some accepted) := by
  rw [dumbVerifyRequest_table]
  constructor
  · split_ifs with h
    · refine iff_of_true ⟨?_, Function.update_self _ _ _⟩ h
      exact (dumbVerifyRequest_accepted (Prod.ext h rfl)).1
    · refine iff_of_false ?_ h
      rintro ⟨hfalse, htrue⟩
      rw [hfalse] at htrue
      cases htrue
  · intro key hkey
    split_ifs
    · exact Function.update_of_ne hkey _ _
    · rfl

/-- A request that does not come to the verifier leaves the table alone. -/
theorem recorded_refused (h : ¬CleanParams q) :
    Recorded table table q ((dumbVerifyRequest E env files directory q table).1 = some accepted) := by
  refine ⟨iff_of_false ?_ fun haccepted => h (clean_of_accepted haccepted), fun _ _ => rfl⟩
  rintro ⟨hfalse, htrue⟩
  rw [hfalse] at htrue
  cases htrue

end Verifier

section Exits
variable {E privateKey directory} {s : Server}

/-- An answer that arrives has logged its event at the time of the server, and nothing else. -/
theorem answer_eq_some {env : Env} {event : Event} {result r : Except StatusCode Bytes}
    (h : (answer env event result s).1 = some r) :
    r = result ∧ (answer env event result s).2 =
      { s with events := s.events ++ [{ event with time := env.now }] } := by
  rw [answer, Event.dispatch] at h ⊢
  split_ifs at h ⊢
  cases hpush : env.pushError with
  | some e => simp [hpush] at h
  | none =>
    simp only [hpush, Option.some.injEq] at h ⊢
    exact ⟨h.symm, trivial⟩

section Code
variable {v : Visit} {result : Except StatusCode Bytes} {event : Event}

theorem codeEvent_refusal {files : Files} {status : StatusCode}
    (h : (event.eventType = .CodeRejected ∨ event.eventType = .GenericReject) ∧ status = .FORBIDDEN ∨
      event.eventType = .Error ∧ status = .INTERNAL_SERVER_ERROR) :
    CodeEvent E privateKey directory files v event (.error status) := by
  rcases h with ⟨hkind | hkind, rfl⟩ | ⟨hkind, rfl⟩ <;> constructor <;> simp [hkind]

/-- An exit that logs an event that goes with its result. -/
theorem codeAudit_answer (table : Bytes → Bool) {r : Except StatusCode Bytes}
    (hevent : CodeEvent E privateKey directory s.files v event r)
    (htable : Recorded s.requestIds table v.params (Accepts E directory v.env s v.params))
    (h : (answer v.env event r { s with requestIds := table }).1 = some result) :
    CodeAudit E privateKey directory s (answer v.env event r { s with requestIds := table }).2 v
      result := by
  obtain ⟨rfl, hstate⟩ := answer_eq_some h
  rw [hstate]
  exact ⟨⟨event, rfl, hevent⟩, htable⟩

theorem readCode_eq_error {env : Env} {files : Files} {user code userPath globalPath : Bytes}
    {refusal : Refusal} (h : readCode env files user code userPath globalPath = .error refusal) :
    refusal.1.eventType = .CodeRejected ∧ refusal.2 = .FORBIDDEN ∨
      refusal.1.eventType = .Error ∧ refusal.2 = .INTERNAL_SERVER_ERROR := by
  rw [readCode] at h
  repeat' split at h
  all_goals cases h <;> simp [Event.rejectCode, Event.error]

theorem servePayload_eq_error {env : Env} {user code : Bytes} {personal : Bool} {file : Bytes}
    {refusal : Refusal} (h : servePayload E privateKey env user code personal file = .error refusal) :
    refusal.1.eventType = .CodeRejected ∧ refusal.2 = .FORBIDDEN ∨
      refusal.1.eventType = .Error ∧ refusal.2 = .INTERNAL_SERVER_ERROR := by
  rw [servePayload] at h
  repeat' split at h
  all_goals cases h <;> simp [Event.rejectCode, Event.error]

theorem serveCode_audit {table : Bytes → Bool} {userPath globalPath : Bytes}
    (huser : createCodeFilename directory v.params.user v.params.code = some (.ok userPath))
    (hglobal : createCodeFilename directory [] v.params.code = some (.ok globalPath))
    (htable : Recorded s.requestIds table v.params (Accepts E directory v.env s v.params))
    (h : (serveCode E privateKey v userPath globalPath { s with requestIds := table }).1 =
      some result) :
    CodeAudit E privateKey directory s
      (serveCode E privateKey v userPath globalPath { s with requestIds := table }).2 v result := by
  rw [serveCode] at h ⊢
  cases hread : readCode v.env s.files v.params.user v.params.code userPath globalPath with
  | error refusal =>
    simp only [hread] at h ⊢
    refine codeAudit_answer table (codeEvent_refusal ?_) htable h
    exact (readCode_eq_error hread).imp_left fun hr => ⟨Or.inl hr.1, hr.2⟩
  | ok r =>
    obtain ⟨personal, file⟩ := r
    simp only [hread] at h ⊢
    cases hserve : servePayload E privateKey v.env v.params.user v.params.code personal file with
    | error refusal =>
      simp only [hserve] at h ⊢
      refine codeAudit_answer table (codeEvent_refusal ?_) htable h
      exact (servePayload_eq_error hserve).imp_left fun hr => ⟨Or.inl hr.1, hr.2⟩
    | ok bytes =>
      simp only [hserve] at h ⊢
      refine codeAudit_answer table ?_ htable h
      constructor
      · simp [Event.code]
      · simp [Event.code]
      · simp [Event.code]
      · rintro _ ⟨⟩
        exact ⟨personal, file, rfl, ⟨userPath, globalPath, hglobal, huser, hread⟩, hserve⟩

/-- The handler of a code, exit by exit. -/
theorem dumbcodeMain_audit (h : (dumbcodeMain E privateKey directory s v).1 = some result) :
    CodeAudit E privateKey directory s (dumbcodeMain E privateKey directory s v).2 v result := by
  rw [dumbcodeMain] at h ⊢
  cases hglobal : createCodeFilename directory [] v.params.code with
  | none => simp [hglobal] at h
  | some globalResult =>
    cases globalResult with
    | error msg =>
      simp only [hglobal] at h ⊢
      refine codeAudit_answer s.requestIds (codeEvent_refusal (by simp [Event.rejectCode]))
        (recorded_refused fun hclean => ?_) h
      rw [createCodeFilename_clean directory (by simp) hclean.code] at hglobal
      cases hglobal
    | ok globalPath =>
      cases huser : createCodeFilename directory v.params.user v.params.code with
      | none => simp [hglobal, huser] at h
      | some userResult =>
        cases userResult with
        | error msg =>
          simp only [hglobal, huser] at h ⊢
          refine codeAudit_answer s.requestIds (codeEvent_refusal (by simp [Event.rejectCode]))
            (recorded_refused fun hclean => ?_) h
          rw [createCodeFilename_clean directory hclean.user hclean.code] at huser
          cases huser
        | ok userPath =>
          simp only [hglobal, huser] at h ⊢
          have htable : Recorded s.requestIds
              (dumbVerifyRequest E v.env s.files directory v.params s.requestIds).2 v.params
              (Accepts E directory v.env s v.params) := dumbVerifyRequest_recorded
          generalize dumbVerifyRequest E v.env s.files directory v.params s.requestIds = verified
            at h htable ⊢
          obtain ⟨r, table⟩ := verified
          rcases r with _ | (e | (e | ⟨⟨⟩⟩))
          · cases h
          · exact codeAudit_answer table (codeEvent_refusal (by simp [Event.error])) htable h
          · exact codeAudit_answer table (codeEvent_refusal (by simp [Event.reject])) htable h
          · exact serveCode_audit huser hglobal htable h

end Code

section Upload
variable {u : Upload} {q : DumbRequestParams} {event : Event} {result r : Except StatusCode Bytes}

/-- An exit that has written nothing. -/
theorem uploadAudit_answer {table : Bytes → Bool} (hevent : event.eventType ≠ .Upload)
    (hpath : ∀ path, createUploadFilename directory q.user u.time u.uniqueid = some (.ok path) →
      event.extra ≠ some path)
    (htable : Recorded s.requestIds table q (Accepts E directory u.env s q))
    (h : (answer u.env event r { s with requestIds := table }).1 = some result) :
    UploadAudit E directory s (answer u.env event r { s with requestIds := table }).2 u q := by
  obtain ⟨rfl, hstate⟩ := answer_eq_some h
  rw [hstate]
  refine ⟨⟨event, rfl, ⟨iff_of_false hevent ?_, fun hup => absurd hup hevent, fun _ => Or.inl rfl⟩⟩,
    htable⟩
  rintro ⟨path, hcreate, hextra, -⟩
  exact hpath path hcreate hextra

theorem createUploadFilename_eq_ok {user time uniqueid path : Bytes}
    (h : createUploadFilename directory user time uniqueid = some (.ok path)) :
    path = createUserPath directory user ++ UPLOAD_FILE_PREFIX ++ (time ++ ascii "-" ++ uniqueid) := by
  rw [createUploadFilename] at h
  split at h
  · cases h
  · cases h
  · simp only [Option.some.injEq, Except.ok.injEq] at h
    simp [← h]

/-- The path of an upload has a slash, the names of the other steps have none. -/
theorem slash_mem_upload {user time uniqueid path : Bytes}
    (h : createUploadFilename directory user time uniqueid = some (.ok path)) : 47 ∈ path := by
  have hdata : (47 : UInt8) ∈ USERDATA_PREFIX := by decide
  rw [createUploadFilename_eq_ok h, createUserPath]
  simp [hdata]

theorem storeUpload_audit {table : Bytes → Bool}
    (htable : Recorded s.requestIds table q (Accepts E directory u.env s q))
    (h : (storeUpload directory u q.user { s with requestIds := table }).1 = some result) :
    UploadAudit E directory s (storeUpload directory u q.user { s with requestIds := table }).2 u q := by
  rw [storeUpload] at h ⊢
  cases hcreate : createUploadFilename directory q.user u.time u.uniqueid with
  | none => simp [hcreate] at h
  | some created =>
    cases created with
    | error e =>
      simp only [hcreate] at h ⊢
      refine uploadAudit_answer (by simp [Event.error]) ?_ htable h
      intro path hpath
      rw [hcreate] at hpath
      cases hpath
    | ok path =>
      simp only [hcreate] at h ⊢
      cases hwrite : u.writeError with
      | some e =>
        simp only [hwrite] at h ⊢
        obtain ⟨-, hstate⟩ := answer_eq_some h
        rw [hstate]
        refine ⟨⟨_, rfl, ⟨iff_of_false (by simp [Event.error]) ?_, fun hup => absurd hup (by simp [Event.error]),
          fun _ => Or.inr ⟨path, e, hcreate, rfl, rfl⟩⟩⟩, htable⟩
        rintro ⟨path', hpath, hextra, -⟩
        rw [hcreate, Option.some.injEq, Except.ok.injEq] at hpath
        subst hpath
        have hlength := congrArg (Option.map List.length) hextra
        have hwriting : (ascii "writing to ").length = 11 := by decide
        simp only [Event.error, Option.map_some, List.length_append, hwriting,
          Option.some.injEq] at hlength
        omega
      | none =>
        simp only [hwrite] at h ⊢
        obtain ⟨-, hstate⟩ := answer_eq_some h
        rw [hstate]
        refine ⟨⟨_, rfl, ⟨iff_of_true rfl ⟨path, hcreate, rfl, rfl⟩, fun _ => ⟨path, rfl, ?_⟩,
          fun hup => absurd rfl hup⟩⟩, htable⟩
        rw [createUploadFilename_eq_ok hcreate]
        exact writeFile_upload _ _ _ _

/-- The handler of an upload, exit by exit. -/
theorem dumbuploadMain_audit (h : (dumbuploadMain E directory s u q).1 = some result) :
    UploadAudit E directory s (dumbuploadMain E directory s u q).2 u q := by
  rw [dumbuploadMain] at h ⊢
  have htable : Recorded s.requestIds
      (dumbVerifyRequest E u.env s.files directory q s.requestIds).2 q
      (Accepts E directory u.env s q) := dumbVerifyRequest_recorded
  generalize dumbVerifyRequest E u.env s.files directory q s.requestIds = verified at h htable ⊢
  obtain ⟨r, table⟩ := verified
  have hplain : ∀ path, createUploadFilename directory q.user u.time u.uniqueid = some (.ok path) →
      some (ascii "verifying request") ≠ some path := by
    rintro path hpath ⟨⟩
    exact absurd (slash_mem_upload hpath) (by decide)
  rcases r with _ | (e | (e | ⟨⟨⟩⟩))
  · cases h
  · exact uploadAudit_answer (by simp [Event.error]) hplain htable h
  · exact uploadAudit_answer (by simp [Event.rejectUpload]) (by simp [Event.rejectUpload]) htable h
  · exact storeUpload_audit htable h

end Upload

/-- Whenever a handler returns, its one event tells what it did. -/
theorem handlers_audit {v : Visit} {u : Upload} {q : DumbRequestParams} :
    (∀ result, (dumbcodeMain E privateKey directory s v).1 = some result →
      CodeAudit E privateKey directory s (dumbcodeMain E privateKey directory s v).2 v result) ∧
    (∀ result, (dumbuploadMain E directory s u q).1 = some result →
      UploadAudit E directory s (dumbuploadMain E directory s u q).2 u q) :=
  ⟨fun _ h => dumbcodeMain_audit h, fun _ h => dumbuploadMain_audit h⟩

end Exits

def uploadAt (now : ℕ) : Upload := ⟨Env.at now, [], ascii "x", ascii "now", ascii "id", none⟩

theorem handlers_audit_defaultServer :
    CodeAudit Ed25519.always (List.replicate 64 98) (ascii "d") defaultServer
      (dumbcodeMain Ed25519.always (List.replicate 64 98) (ascii "d") defaultServer
        (visitAt (ascii "a") 1000)).2 (visitAt (ascii "a") 1000) (.ok (defaultAnswer 1000)) ∧
    UploadAudit Ed25519.always (ascii "d") defaultServer
      (dumbuploadMain Ed25519.always (ascii "d") defaultServer (uploadAt 1000)
        (visitAt (ascii "a") 1000).params).2 (uploadAt 1000) (visitAt (ascii "a") 1000).params := by
  obtain ⟨hcode, hupload⟩ := @handlers_audit Ed25519.always (List.replicate 64 98) (ascii "d")
    defaultServer (visitAt (ascii "a") 1000) (uploadAt 1000) (visitAt (ascii "a") 1000).params
  exact ⟨hcode _ (by decide +kernel), hupload (.ok []) (by decide +kernel)⟩

end Dumbos.RustServer
