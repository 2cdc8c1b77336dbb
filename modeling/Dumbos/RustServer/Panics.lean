import Dumbos.RustServer.Dumbupload

/-! # Which requests a handler of the Rust server answers

The checks of the characters turn a string into a C string first, which panics on
a NUL. The strings are looked at one after the other, so a NUL is harmless behind
a string that is refused. The signature has no check of its own: it is turned into
a C string as soon as it is needed.
-/
namespace Dumbos.RustServer
open Foundation Common Payload Request

/-- Strings that are turned into C strings in this order, each if all before it are clean. -/
def Converts (last : Prop) : List (Bytes × Bytes) → Prop
  | [] => last
  | (s, whitelist) :: rest => 0 ∉ s ∧ ((∀ c ∈ s, c ∈ whitelist) → Converts last rest)

structure CleanParams (q : DumbRequestParams) : Prop where
  user : ∀ c ∈ q.user, c ∈ DUMBOS_USER_ALLOWED_CHARS
  code : ∀ c ∈ q.code, c ∈ SECRET_CODE_ALLOWED_CHARS
  requestid : ∀ c ∈ q.requestid, c ∈ REQUESTID_ALLOWED_CHARS

/-- The user has a key and the id is new, so the signature is looked at. -/
def SignatureReached (env : Env) (files : Files) (directory : Bytes) (table : Bytes → Bool)
    (q : DumbRequestParams) : Prop :=
  env.existsError = none ∧ table (requestKey q) = false ∧
    ∃ key, files (createUserPubkeyPath directory q.user) = .ok key

/-- Every stored key is text without a NUL. -/
def TextKeys (files : Files) (directory : Bytes) : Prop :=
  ∀ user key, files (createUserPubkeyPath directory user) = .ok key → isUtf8 key ∧ 0 ∉ key

/-- The handler returns, and refuses what is not clean. -/
def Handled (q : DumbRequestParams) (r : Response) : Prop :=
  ∃ result, r = some result ∧ (¬CleanParams q → result = .error .FORBIDDEN)

theorem verifyChars_cases {s whitelist : Bytes} (hzero : 0 ∉ whitelist) :
    0 ∈ s ∧ (cstring s).map (checkAllowedChars · whitelist) = none ∨
      0 ∉ s ∧ ¬(∀ c ∈ s, c ∈ whitelist) ∧
        (cstring s).map (checkAllowedChars · whitelist) = some false ∨
      0 ∉ s ∧ (∀ c ∈ s, c ∈ whitelist) ∧
        (cstring s).map (checkAllowedChars · whitelist) = some true := by
  by_cases h0 : 0 ∈ s
  · exact Or.inl ⟨h0, by rw [cstring, if_pos h0, Option.map_none]⟩
  · by_cases hclean : ∀ c ∈ s, c ∈ whitelist
    · exact Or.inr (Or.inr ⟨h0, hclean, (verifyChars_eq_true hzero).mpr hclean⟩)
    · refine Or.inr (Or.inl ⟨h0, hclean, ?_⟩)
      rw [cstring, if_neg h0, Option.map_some, Option.some.injEq, ← Bool.not_eq_true,
        checkAllowedChars_iff]
      exact hclean

section Verify
variable {E : Ed25519} {env : Env} {files : Files} {directory : Bytes} {q : DumbRequestParams}
  {table : Bytes → Bool}

theorem CleanParams.nulFree (h : CleanParams q) : 0 ∉ q.user ∧ 0 ∉ q.code ∧ 0 ∉ q.requestid := by
  have hzero : 0 ∉ DUMBOS_USER_ALLOWED_CHARS ∧ 0 ∉ SECRET_CODE_ALLOWED_CHARS ∧
      0 ∉ REQUESTID_ALLOWED_CHARS := by decide
  exact ⟨fun h0 => hzero.1 (h.user 0 h0), fun h0 => hzero.2.1 (h.code 0 h0),
    fun h0 => hzero.2.2 (h.requestid 0 h0)⟩

theorem readFile_pubkey (env : Env) (files : Files) (directory user : Bytes) :
    readFile env files (createUserPubkeyPath directory user) =
      files (createUserPubkeyPath directory user) := by
  rw [readFile, if_neg (createUserPubkeyPath_ne directory user)]

/-- Clean names lead to the key of the user. -/
theorem checkNames_clean (h : CleanParams q) :
    checkNames env files directory q = match files (createUserPubkeyPath directory q.user) with
      | .error e => some (.error (.error
          (if e.notFound then ascii "user " ++ q.user ++ ascii " probably doesn't exist"
          else ascii "error opening " ++ createUserPubkeyPath directory q.user ++ ascii ":" ++ e.text)))
      | .ok key => some (.ok ⟨requestKey q, key⟩) := by
  have huser : verifyCharsUsername q.user = some true := verifyCharsUsername_eq_true.mpr h.user
  have hcode : verifyCharsSecretcode q.code = some true := (verifyChars_eq_true (by decide)).mpr h.code
  have hid : verifyCharsRequestid q.requestid = some true :=
    (verifyChars_eq_true (by decide)).mpr h.requestid
  rw [checkNames, huser, hcode, hid, readFile_pubkey]
  cases files (createUserPubkeyPath directory q.user) <;> rfl

/-- Only the signature is left to be turned into a C string. -/
theorem checkSignature_eq_none_iff (h : CleanParams q) {key : Bytes} (hutf8 : isUtf8 key)
    (hkey : 0 ∉ key) : checkSignature E env q ⟨requestKey q, key⟩ = none ↔ 0 ∈ q.requestsig := by
  obtain ⟨huser, -, hid⟩ := h.nulFree
  have hverify : verifyDumbosRequest E env q.user q.requestid q.time q.requestsig key = none ↔
      0 ∈ q.requestsig := by
    simp only [verifyDumbosRequest, cstring, if_neg huser, if_neg hid, if_neg hkey]
    by_cases hsig : 0 ∈ q.requestsig
    · simp [hsig]
    · simp only [hsig, if_false, iff_false]
      cases requestIdVerify E env.now q.user q.requestid (natText q.time) q.requestsig key <;> simp
  rw [checkSignature, hutf8, ← hverify]
  simp only [Bool.not_true, Bool.false_eq_true, if_false]
  split <;> simp_all

/-- A request with clean names panics exactly where its signature does. -/
theorem dumbVerifyRequest_clean (h : CleanParams q) (hkeys : TextKeys files directory) :
    (dumbVerifyRequest E env files directory q table).1 = none ↔
      SignatureReached env files directory table q ∧ 0 ∈ q.requestsig := by
  rw [dumbVerifyRequest, checkNames_clean h]
  cases hfile : files (createUserPubkeyPath directory q.user) with
  | error e => simp [SignatureReached, hfile]
  | ok key =>
    obtain ⟨hutf8, hnul⟩ := hkeys q.user key hfile
    have hpanic := @checkSignature_eq_none_iff E env q h key hutf8 hnul
    simp only [SignatureReached, hfile, Except.ok.injEq, exists_eq', and_true]
    cases hexists : env.existsError with
    | some e => simp [lookupRequestId, hexists]
    | none =>
      cases hseen : table (requestKey q) with
      | true => simp [lookupRequestId, hexists, hseen]
      | false =>
        simp only [lookupRequestId, hexists, hseen, Bool.false_eq_true, if_false, true_and]
        rw [← hpanic]
        cases hsig : checkSignature E env q ⟨requestKey q, key⟩ with
        | none => simp
        | some r => cases r <;> simp

/-- The names of a request in the order in which the verifier looks at them. -/
def verifyOrder (q : DumbRequestParams) : List (Bytes × Bytes) :=
  [(q.user, DUMBOS_USER_ALLOWED_CHARS), (q.code, SECRET_CODE_ALLOWED_CHARS),
    (q.requestid, REQUESTID_ALLOWED_CHARS)]

/-- A name that is not clean is refused, unless one up to it has a NUL. -/
theorem dumbVerifyRequest_unclean (h : ¬CleanParams q) (last : Prop) :
    ¬Converts last (verifyOrder q) ∧ (dumbVerifyRequest E env files directory q table).1 = none ∨
      Converts last (verifyOrder q) ∧
        ∃ msg, (dumbVerifyRequest E env files directory q table).1 = some (.ok (.error msg)) := by
  rcases @verifyChars_cases q.user DUMBOS_USER_ALLOWED_CHARS (by decide) with
    ⟨h0, huser⟩ | ⟨h0, hunclean, huser⟩ | ⟨h0, hclean, huser⟩
  · left
    exact ⟨fun hc => hc.1 h0, by simp only [dumbVerifyRequest, checkNames, verifyCharsUsername, huser]⟩
  · right
    refine ⟨⟨h0, fun hc => absurd hc hunclean⟩, ascii "bad characters found in username", ?_⟩
    simp only [dumbVerifyRequest, checkNames, verifyCharsUsername, huser]
  · rcases @verifyChars_cases q.code SECRET_CODE_ALLOWED_CHARS (by decide) with
      ⟨h0', hcode⟩ | ⟨h0', hunclean, hcode⟩ | ⟨h0', hclean', hcode⟩
    · left
      exact ⟨fun hc => (hc.2 hclean).1 h0', by
        simp only [dumbVerifyRequest, checkNames, verifyCharsUsername, verifyCharsSecretcode, huser,
          hcode]⟩
    · right
      refine ⟨⟨h0, fun _ => ⟨h0', fun hc => absurd hc hunclean⟩⟩,
        ascii "bad characters found in secret code", ?_⟩
      simp only [dumbVerifyRequest, checkNames, verifyCharsUsername, verifyCharsSecretcode, huser, hcode]
    · rcases @verifyChars_cases q.requestid REQUESTID_ALLOWED_CHARS (by decide)
        with ⟨h0'', hid⟩ | ⟨h0'', hunclean, hid⟩ | ⟨-, hclean'', -⟩
      · left
        exact ⟨fun hc => ((hc.2 hclean).2 hclean').1 h0'', by
          simp only [dumbVerifyRequest, checkNames, verifyCharsUsername, verifyCharsSecretcode,
            verifyCharsRequestid, huser, hcode, hid]⟩
      · right
        refine ⟨⟨h0, fun _ => ⟨h0', fun _ => ⟨h0'', fun hc => absurd hc hunclean⟩⟩⟩,
          ascii "bad characters found in requestid", ?_⟩
        simp only [dumbVerifyRequest, checkNames, verifyCharsUsername, verifyCharsSecretcode,
          verifyCharsRequestid, huser, hcode, hid]
      · exact absurd ⟨hclean, hclean', hclean''⟩ h

theorem Converts.verifyOrder_clean (h : CleanParams q) (last : Prop) :
    Converts last (verifyOrder q) ↔ last := by
  obtain ⟨huser, hcode, hid⟩ := h.nulFree
  constructor
  · exact fun hc => ((hc.2 h.user).2 h.code).2 h.requestid
  · exact fun hl => ⟨huser, fun _ => ⟨hcode, fun _ => ⟨hid, fun _ => hl⟩⟩⟩

end Verify

section Handlers
variable {E : Ed25519} {privateKey directory : Bytes} {s : Server}

theorem answer_handled {env : Env} {event : Event} {result : Except StatusCode Bytes}
    {q : DumbRequestParams} (hpush : env.pushError = none) (hlock : s.poisoned = false)
    (h : ¬CleanParams q → result = .error .FORBIDDEN) :
    Handled q (answer env event result s).1 :=
  ⟨result, (answer_of_push hpush hlock).1, h⟩

/-- Whatever the files hold, a clean request that has been verified is answered. -/
theorem serveCode_handled {v : Visit} (hclean : CleanParams v.params)
    (hpush : v.env.pushError = none) (hlock : s.poisoned = false) (userPath globalPath : Bytes) :
    Handled v.params (serveCode E privateKey v userPath globalPath s).1 := by
  rw [serveCode]
  cases readCode v.env s.files v.params.user v.params.code userPath globalPath with
  | error e => exact answer_handled hpush hlock (absurd hclean)
  | ok r =>
    simp only
    cases servePayload E privateKey v.env v.params.user v.params.code r.1 r.2 with
    | error e => exact answer_handled hpush hlock (absurd hclean)
    | ok bytes => exact answer_handled hpush hlock (absurd hclean)

theorem storeUpload_handled {u : Upload} {q : DumbRequestParams} (hclean : CleanParams q)
    (hpush : u.env.pushError = none) (hlock : s.poisoned = false) :
    Handled q (storeUpload directory u q.user s).1 := by
  have hpath : createUploadFilename directory q.user u.time u.uniqueid =
      some (.ok (createUserPath directory q.user ++ UPLOAD_FILE_PREFIX ++ u.time ++ ascii "-" ++
        u.uniqueid)) := by
    simp only [createUploadFilename, verifyCharsUsername_eq_true.mpr hclean.user]
  rw [storeUpload, hpath]
  cases u.writeError with
  | some e => exact answer_handled hpush hlock (absurd hclean)
  | none => exact answer_handled hpush hlock (absurd hclean)

/-- A handler that panics with the verifier, refuses what it refuses and goes on with the rest. -/
theorem handled_of_verify {q : DumbRequestParams} {env : Env} {r : Response}
    (hkeys : TextKeys s.files directory)
    (hnone : (dumbVerifyRequest E env s.files directory q s.requestIds).1 = none → r = none)
    (hrefuse : ∀ msg, (dumbVerifyRequest E env s.files directory q s.requestIds).1 =
      some (.ok (.error msg)) → Handled q r)
    (hclean : CleanParams q → ∀ result,
      (dumbVerifyRequest E env s.files directory q s.requestIds).1 = some result → Handled q r) :
    Handled q r ↔
      Converts (SignatureReached env s.files directory s.requestIds q → 0 ∉ q.requestsig)
        (verifyOrder q) := by
  have hpanics : r = none → ¬Handled q r := by
    rintro rfl ⟨_, hr, -⟩
    cases hr
  by_cases h : CleanParams q
  · rw [Converts.verifyOrder_clean h]
    have hpanic := @dumbVerifyRequest_clean E env s.files directory q s.requestIds h hkeys
    cases hresult : (dumbVerifyRequest E env s.files directory q s.requestIds).1 with
    | none =>
      obtain ⟨hreached, hsig⟩ := hpanic.mp hresult
      exact iff_of_false (hpanics (hnone hresult)) fun hfree => hfree hreached hsig
    | some result =>
      refine iff_of_true (hclean h result hresult) fun hreached hsig => ?_
      rw [hpanic.mpr ⟨hreached, hsig⟩] at hresult
      cases hresult
  · rcases @dumbVerifyRequest_unclean E env s.files directory q s.requestIds h
      (SignatureReached env s.files directory s.requestIds q → 0 ∉ q.requestsig) with
      ⟨hconverts, hresult⟩ | ⟨hconverts, msg, hresult⟩
    · exact iff_of_false (hpanics (hnone hresult)) hconverts
    · exact iff_of_true (hrefuse msg hresult) hconverts

theorem dumbuploadMain_handled_iff {u : Upload} {q : DumbRequestParams}
    (hkeys : TextKeys s.files directory) (hpush : u.env.pushError = none)
    (hlock : s.poisoned = false) :
    Handled q (dumbuploadMain E directory s u q).1 ↔
      Converts (SignatureReached u.env s.files directory s.requestIds q → 0 ∉ q.requestsig)
        (verifyOrder q) := by
  apply handled_of_verify (E := E) hkeys <;> rw [dumbuploadMain] <;>
    obtain ⟨result, table⟩ := dumbVerifyRequest E u.env s.files directory q s.requestIds
  · rintro rfl
    rfl
  · rintro msg rfl
    exact answer_handled hpush hlock fun _ => rfl
  · rintro hclean result rfl
    rcases result with e | (e | ⟨⟨⟩⟩)
    · exact answer_handled hpush hlock (absurd hclean)
    · exact answer_handled hpush hlock fun _ => rfl
    · exact storeUpload_handled hclean hpush hlock

/-- The names of a request in the order in which the handler of a code looks at them. -/
def codeOrder (q : DumbRequestParams) : List (Bytes × Bytes) :=
  [(q.code, SECRET_CODE_ALLOWED_CHARS), (q.user, DUMBOS_USER_ALLOWED_CHARS),
    (q.requestid, REQUESTID_ALLOWED_CHARS)]

theorem dumbcodeMain_handled_iff {v : Visit} (hkeys : TextKeys s.files directory)
    (hpush : v.env.pushError = none) (hlock : s.poisoned = false) :
    Handled v.params (dumbcodeMain E privateKey directory s v).1 ↔
      Converts (SignatureReached v.env s.files directory s.requestIds v.params →
        0 ∉ v.params.requestsig) (codeOrder v.params) := by
  have hpanics : ¬Handled v.params none := fun ⟨_, hr, _⟩ => by cases hr
  have hempty : verifyCharsUsername [] = some true := verifyCharsUsername_eq_true.mpr (by simp)
  rcases @verifyChars_cases v.params.code SECRET_CODE_ALLOWED_CHARS (by decide)
    with ⟨h0, hcode⟩ | ⟨h0, hunclean, hcode⟩ | ⟨h0, hclean, hcode⟩
  · refine iff_of_false ?_ fun hc => hc.1 h0
    rw [dumbcodeMain, createCodeFilename, hempty, verifyCharsSecretcode, hcode]
    exact hpanics
  · refine iff_of_true ?_ ⟨h0, fun hc => absurd hc hunclean⟩
    rw [dumbcodeMain, createCodeFilename, hempty, verifyCharsSecretcode, hcode]
    exact answer_handled hpush hlock fun _ => rfl
  · rcases @verifyChars_cases v.params.user DUMBOS_USER_ALLOWED_CHARS (by decide)
      with ⟨h0', huser⟩ | ⟨h0', hunclean, huser⟩ | ⟨h0', hclean', huser⟩
    · refine iff_of_false ?_ fun hc => (hc.2 hclean).1 h0'
      rw [dumbcodeMain, createCodeFilename, createCodeFilename, hempty, verifyCharsSecretcode, hcode,
        verifyCharsUsername, huser]
      exact hpanics
    · refine iff_of_true ?_ ⟨h0, fun _ => ⟨h0', fun hc => absurd hc hunclean⟩⟩
      rw [dumbcodeMain, createCodeFilename, createCodeFilename, hempty, verifyCharsSecretcode, hcode,
        verifyCharsUsername, huser]
      exact answer_handled hpush hlock fun _ => rfl
    · have horder : Converts (SignatureReached v.env s.files directory s.requestIds v.params →
          0 ∉ v.params.requestsig) (codeOrder v.params) ↔
          Converts (SignatureReached v.env s.files directory s.requestIds v.params →
            0 ∉ v.params.requestsig) (verifyOrder v.params) := by
        constructor
        · exact fun hc => ⟨h0', fun _ => ⟨h0, fun _ => (hc.2 hclean).2 hclean'⟩⟩
        · exact fun hc => ⟨h0, fun _ => ⟨h0', fun _ => (hc.2 hclean').2 hclean⟩⟩
      rw [horder]
      apply handled_of_verify (E := E) hkeys <;>
        rw [dumbcodeMain, createCodeFilename, createCodeFilename, hempty, verifyCharsSecretcode, hcode,
          verifyCharsUsername, huser] <;>
        obtain ⟨result, table⟩ := dumbVerifyRequest E v.env s.files directory v.params s.requestIds
      · rintro rfl
        rfl
      · rintro msg rfl
        exact answer_handled hpush hlock fun _ => rfl
      · rintro hall result rfl
        rcases result with e | (e | ⟨⟨⟩⟩)
        · exact answer_handled hpush hlock (absurd hall)
        · exact answer_handled hpush hlock fun _ => rfl
        · exact serveCode_handled (s := { s with requestIds := table }) hall hpush hlock _ _

/-- Each handler answers exactly the requests without a NUL in a string that it comes to. -/
theorem handlers_handled_iff {v : Visit} {u : Upload} {q : DumbRequestParams}
    (hkeys : TextKeys s.files directory) (hlock : s.poisoned = false)
    (hpush : v.env.pushError = none) (hpush' : u.env.pushError = none) :
    (Handled v.params (dumbcodeMain E privateKey directory s v).1 ↔
      Converts (SignatureReached v.env s.files directory s.requestIds v.params →
        0 ∉ v.params.requestsig) (codeOrder v.params)) ∧
    (Handled q (dumbuploadMain E directory s u q).1 ↔
      Converts (SignatureReached u.env s.files directory s.requestIds q → 0 ∉ q.requestsig)
        (verifyOrder q)) :=
  ⟨dumbcodeMain_handled_iff hkeys hpush hlock, dumbuploadMain_handled_iff hkeys hpush' hlock⟩

end Handlers

/-- A server without files, tables and events. -/
def emptyServer : Server := ⟨fun _ => .error ⟨true, []⟩, fun _ => false, [], false⟩

theorem emptyServer_textKeys (directory : Bytes) : TextKeys emptyServer.files directory := by
  intro user key h
  cases h

/-- A server that has the key of one user. -/
def oneKeyServer : Server where
  files path :=
    if path = ascii "d/user/u/pubkey" then .ok (List.replicate 64 99) else .error ⟨true, []⟩
  requestIds _ := false
  events := []
  poisoned := false

theorem oneKeyServer_textKeys : TextKeys oneKeyServer.files (ascii "d") := by
  have hkey : isUtf8 (List.replicate 64 99) ∧ (0 : UInt8) ∉ List.replicate 64 99 := by decide
  intro user key h
  change (if _ then _ else _) = _ at h
  split_ifs at h
  cases h
  exact hkey

/-- A request of this user with this signature. -/
def keyedRequest (requestsig : Bytes) : DumbRequestParams :=
  ⟨ascii "u", ascii "a", ascii "i", requestsig, 7⟩

/-- The signature of a user is come to, and panics with a NUL. -/
theorem handlers_handled_iff_oneKeyServer :
    ¬Handled (keyedRequest [0]) (dumbcodeMain Ed25519.always [] (ascii "d") oneKeyServer
        ⟨Env.at 7, keyedRequest [0]⟩).1 ∧
      Handled (keyedRequest []) (dumbuploadMain Ed25519.always (ascii "d") oneKeyServer
        ⟨Env.at 7, [], [], [], [], none⟩ (keyedRequest [])).1 := by
  have hiff := @handlers_handled_iff Ed25519.always [] (ascii "d") oneKeyServer
    ⟨Env.at 7, keyedRequest [0]⟩ ⟨Env.at 7, [], [], [], [], none⟩ (keyedRequest [])
    oneKeyServer_textKeys rfl rfl rfl
  refine ⟨fun h => ?_, hiff.2.mpr ?_⟩
  · obtain ⟨-, huser⟩ := hiff.1.mp h
    obtain ⟨-, hrequestid⟩ := huser (by decide +kernel)
    obtain ⟨-, hsig⟩ := hrequestid (by decide +kernel)
    exact hsig (by decide +kernel) ⟨rfl, rfl, _, rfl⟩ (List.mem_singleton_self 0)
  · exact ⟨by decide +kernel, fun _ => ⟨by decide +kernel, fun _ =>
      ⟨by decide +kernel, fun _ _ => List.not_mem_nil⟩⟩⟩

/-- A code of one NUL. -/
theorem not_handlers_handled :
    ¬∀ (E : Ed25519) (privateKey directory : Bytes) (s : Server) (v : Visit),
      TextKeys s.files directory → s.poisoned = false → v.env.pushError = none →
        Handled v.params (dumbcodeMain E privateKey directory s v).1 := by
  intro h
  have hhandled := h Ed25519.always [] (ascii "d") emptyServer
    ⟨Env.at 7, ⟨ascii "u", [0], ascii "i", [], 7⟩⟩ (emptyServer_textKeys _) rfl rfl
  rw [dumbcodeMain_handled_iff (emptyServer_textKeys _) rfl rfl] at hhandled
  exact hhandled.1 (by decide)

end Dumbos.RustServer
