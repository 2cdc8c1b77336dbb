import Dumbos.Request.Signing

/-! # `dumb_verify_request`

The check that a request is signed, fresh and new, as the Rust server makes it.
Rust strings are their bytes. A panic is the outer `none`: it comes from
`CString::new` on a string with a NUL and from `from_utf8` on other bytes. The
check is cut at its two uses of the table, which are atomic; between them any
other request may run.
-/
namespace Dumbos.RustServer
open Foundation Common Payload Request

structure IoError where
  notFound : Bool
  text : Bytes
deriving DecidableEq

/-- `fs::read` of every path. -/
abbrev Files := Bytes → Except IoError Bytes

/-- What a request meets besides files and tables: the clock, the standard input, and the calls
that fail, each with the text of its error. -/
structure Env where
  now : ℤ
  stdin : Except IoError Bytes
  existsError : Option Bytes
  insertError : Option Bytes
  pushError : Option Bytes
  mallocFails : Bool

/-- Nothing fails. -/
def Env.at (now : ℤ) : Env := ⟨now, .ok [], none, none, none, false⟩

structure DumbRequestParams where
  user : Bytes
  code : Bytes
  requestid : Bytes
  requestsig : Bytes
  time : ℕ
deriving DecidableEq

def readFile (env : Env) (files : Files) (path : Bytes) : Except IoError Bytes :=
  if path = ascii "-" then env.stdin else files path

/-- `CString::new(s).unwrap()`. -/
def cstring (s : Bytes) : Option Bytes := if 0 ∈ s then none else some s

def isContinuation (c : UInt8) : Bool := 0x80 ≤ c && c ≤ 0xBF

/-- Well-formed UTF-8, by the leading byte of each character. -/
def isUtf8 : Bytes → Bool
  | [] => true
  | a :: b :: c :: d :: rest =>
    if a < 0x80 then isUtf8 (b :: c :: d :: rest)
    else if 0xC2 ≤ a && a ≤ 0xDF then isContinuation b && isUtf8 (c :: d :: rest)
    else if a = 0xE0 then 0xA0 ≤ b && b ≤ 0xBF && isContinuation c && isUtf8 (d :: rest)
    else if a = 0xED then 0x80 ≤ b && b ≤ 0x9F && isContinuation c && isUtf8 (d :: rest)
    else if 0xE1 ≤ a && a ≤ 0xEF then isContinuation b && isContinuation c && isUtf8 (d :: rest)
    else if a = 0xF0 then 0x90 ≤ b && b ≤ 0xBF && isContinuation c && isContinuation d && isUtf8 rest
    else if a = 0xF4 then 0x80 ≤ b && b ≤ 0x8F && isContinuation c && isContinuation d && isUtf8 rest
    else 0xF1 ≤ a && a ≤ 0xF3 && isContinuation b && isContinuation c && isContinuation d && isUtf8 rest
  | [a, b, c] =>
    if a < 0x80 then isUtf8 [b, c]
    else if 0xC2 ≤ a && a ≤ 0xDF then isContinuation b && isUtf8 [c]
    else if a = 0xE0 then 0xA0 ≤ b && b ≤ 0xBF && isContinuation c
    else if a = 0xED then 0x80 ≤ b && b ≤ 0x9F && isContinuation c
    else 0xE1 ≤ a && a ≤ 0xEF && isContinuation b && isContinuation c
  | [a, b] =>
    if a < 0x80 then isUtf8 [b] else 0xC2 ≤ a && a ≤ 0xDF && isContinuation b
  | [a] => a < 0x80

def verifyCharsUsername (username : Bytes) : Option Bool :=
  (cstring username).map (checkAllowedChars · DUMBOS_USER_ALLOWED_CHARS)

def verifyCharsSecretcode (code : Bytes) : Option Bool :=
  (cstring code).map (checkAllowedChars · SECRET_CODE_ALLOWED_CHARS)

def verifyCharsRequestid (requestid : Bytes) : Option Bool :=
  (cstring requestid).map (checkAllowedChars · REQUESTID_ALLOWED_CHARS)

/-- A `/` is added unless the text ends in one. -/
def withSlash (s : Bytes) : Bytes := if s.getLast? = some 47 then s else s ++ [47]

def SERVER_USER_PUBKEY_FILE : Bytes := ascii "pubkey"

def createUserPath (directory user : Bytes) : Bytes :=
  withSlash directory ++ USERDATA_PREFIX ++ (if user = [] then [] else withSlash user)

def createUserPubkeyPath (directory user : Bytes) : Bytes :=
  createUserPath directory user ++ SERVER_USER_PUBKEY_FILE

/-- `Ok(Ok(()))`, `Ok(Err(reason))` for a refused request, and `Err(reason)` for a failure. -/
abbrev VerifyResult := Except Bytes (Except Bytes Unit)

def accepted : VerifyResult := .ok (.ok ())

/-- What is known of a request once its names are checked and the key of its user is read. -/
structure Checked where
  userRequestid : Bytes
  userPubkey : Bytes
deriving DecidableEq

/-- Before the first use of the table; an early return is an `error`. -/
def checkNames (env : Env) (files : Files) (directory : Bytes) (q : DumbRequestParams) :
    Option (Except VerifyResult Checked) :=
  match verifyCharsUsername q.user with
  | none => none
  | some false => some (.error (.ok (.error (ascii "bad characters found in username"))))
  | some true => match verifyCharsSecretcode q.code with
    | none => none
    | some false => some (.error (.ok (.error (ascii "bad characters found in secret code"))))
    | some true => match verifyCharsRequestid q.requestid with
      | none => none
      | some false => some (.error (.ok (.error (ascii "bad characters found in requestid"))))
      | some true => match readFile env files (createUserPubkeyPath directory q.user) with
        | .error e => some (.error (.error
            (if e.notFound then ascii "user " ++ q.user ++ ascii " probably doesn't exist"
            else ascii "error opening " ++ createUserPubkeyPath directory q.user ++ ascii ":" ++
              e.text)))
        | .ok key => some (.ok ⟨q.user ++ ascii "/" ++ q.requestid, key⟩)

/-- `RequestIdTable::exists`. -/
def lookupRequestId (env : Env) (table : Bytes → Bool) (q : DumbRequestParams) (c : Checked) :
    Except VerifyResult Unit :=
  match env.existsError with
  | some e => .error (.error (ascii "error reading REQUEST_ID_TABLE: " ++ e))
  | none =>
    if table c.userRequestid then
      .error (.ok (.error (ascii "user " ++ q.user ++ ascii " tried to make a duplicate request (id=" ++
        q.requestid ++ ascii ")")))
    else .ok ()

def verifyDumbosRequest (E : Ed25519) (env : Env) (user requestId : Bytes) (requestTime : ℕ)
    (signature pubkeyHex : Bytes) : Option (Except Bytes Unit) :=
  match cstring user, cstring requestId, cstring signature, cstring pubkeyHex with
  | some user, some requestId, some signature, some pubkeyHex =>
    match requestIdVerify E env.now user requestId (natText requestTime) signature pubkeyHex with
    | .ok () => some (.ok ())
    | .error _ => some (.error (ascii "verify_dumbos_request() failed"))
  | _, _, _, _ => none

/-- Between the two uses of the table. -/
def checkSignature (E : Ed25519) (env : Env) (q : DumbRequestParams) (c : Checked) :
    Option (Except VerifyResult Unit) :=
  if !isUtf8 c.userPubkey then none
  else match verifyDumbosRequest E env q.user q.requestid q.time q.requestsig c.userPubkey with
    | none => none
    | some (.ok ()) => some (.ok ())
    | some (.error msg) =>
      some (.error (.ok (.error (ascii "verify_dumbos_request() failed:" ++ msg))))

/-- `RequestIdTable::insert`. -/
def insertRequestId (env : Env) (table : Bytes → Bool) (c : Checked) :
    VerifyResult × (Bytes → Bool) :=
  match env.insertError with
  | some e => (.error (ascii "consuming request id failed:" ++ e), table)
  | none => (accepted, Function.update table c.userRequestid true)

def dumbVerifyRequest (E : Ed25519) (env : Env) (files : Files) (directory : Bytes)
    (q : DumbRequestParams) (table : Bytes → Bool) : Option VerifyResult × (Bytes → Bool) :=
  match checkNames env files directory q with
  | none => (none, table)
  | some (.error r) => (some r, table)
  | some (.ok c) => match lookupRequestId env table q c with
    | .error r => (some r, table)
    | .ok () => match checkSignature E env q c with
      | none => (none, table)
      | some (.error r) => (some r, table)
      | some (.ok ()) =>
        let (r, table) := insertRequestId env table c
        (some r, table)

theorem cstring_eq_some {s t : Bytes} : cstring s = some t ↔ 0 ∉ s ∧ t = s := by
  rw [cstring]
  split_ifs with h
  · simp [h]
  · simp [h, eq_comm]

section Alphabet
variable {s whitelist : Bytes} (hzero : 0 ∉ whitelist)
include hzero

/-- A text over an alphabet without NUL is a C string. -/
theorem cstring_of_mem (h : ∀ c ∈ s, c ∈ whitelist) : cstring s = some s :=
  cstring_eq_some.mpr ⟨fun h0 => hzero (h 0 h0), rfl⟩

theorem verifyChars_eq_true :
    (cstring s).map (checkAllowedChars · whitelist) = some true ↔ ∀ c ∈ s, c ∈ whitelist := by
  rw [Option.map_eq_some_iff]
  constructor
  · rintro ⟨t, ht, hall⟩
    obtain ⟨-, rfl⟩ := cstring_eq_some.mp ht
    exact checkAllowedChars_iff.mp hall
  · intro h
    exact ⟨s, cstring_of_mem hzero h, checkAllowedChars_iff.mpr h⟩

end Alphabet

theorem verifyCharsUsername_eq_true {user : Bytes} :
    verifyCharsUsername user = some true ↔ ∀ c ∈ user, c ∈ DUMBOS_USER_ALLOWED_CHARS :=
  verifyChars_eq_true (by decide)

/-- The names of a checked request are clean, and its key in the table is made of them. -/
theorem checkNames_eq_ok {env : Env} {files : Files} {directory : Bytes} {q : DumbRequestParams}
    {c : Checked} (h : checkNames env files directory q = some (.ok c)) :
    (∀ b ∈ q.user, b ∈ DUMBOS_USER_ALLOWED_CHARS) ∧
      c.userRequestid = q.user ++ ascii "/" ++ q.requestid := by
  rw [checkNames] at h
  cases huser : verifyCharsUsername q.user with
  | none => simp [huser] at h
  | some ok =>
    cases ok with
    | false => simp [huser] at h
    | true =>
      refine ⟨verifyCharsUsername_eq_true.mp huser, ?_⟩
      simp only [huser] at h
      split at h
      · cases h
      · cases h
      · split at h
        · cases h
        · cases h
        · split at h
          · cases h
          · simp only [Option.some.injEq, Except.ok.injEq] at h
            rw [← h]

/-- A user name has no `/`, so the key in the table stands for one user and one id. -/
theorem userRequestid_inj {user requestid user' requestid' : Bytes}
    (h : ∀ b ∈ user, b ∈ DUMBOS_USER_ALLOWED_CHARS) (h' : ∀ b ∈ user', b ∈ DUMBOS_USER_ALLOWED_CHARS)
    (heq : user ++ ascii "/" ++ requestid = user' ++ ascii "/" ++ requestid') :
    user = user' ∧ requestid = requestid' := by
  have hslash : (47 : UInt8) ∉ DUMBOS_USER_ALLOWED_CHARS := by decide
  have hcut : ∀ (u r : Bytes), (∀ b ∈ u, b ∈ DUMBOS_USER_ALLOWED_CHARS) →
      (u ++ ascii "/" ++ r).takeWhile (· != 47) = u := by
    intro u r hu
    have htext : ascii "/" = [47] := by decide
    rw [htext, List.append_assoc, List.takeWhile_append_of_pos]
    · simp
    · intro b hb
      simpa using fun hb' : b = 47 => hslash (hb' ▸ hu b hb)
  have huser : user = user' := by
    rw [← hcut user requestid h, heq, hcut user' requestid' h']
  subst huser
  exact ⟨rfl, List.append_cancel_left heq⟩

end Dumbos.RustServer
