import Dumbos.Daemon.Command
import Dumbos.RustServer.Dumbupload
import Dumbos.RustServer.Replay
import Dumbos.System.CodeUrl

/-! # From the device to the server

`upload_data` signs one address and posts every file to it. The server uses up the
id in the address with the first file, so a second file is refused as a replay, and
the command works for one file exactly.
-/
namespace Dumbos.System
open Foundation Common Payload Request Daemon RustServer

/-- The digits that `bytes_to_hex` writes. -/
def hexTable : Bytes := ascii "0123456789abcdef"

/-- What an address is made of. -/
structure Address where
  user : DumbosUserData
  netTime : ℤ
  requestid : Bytes
  signature : SignatureHex

def Address.url (a : Address) (D : Device) : Bytes :=
  allocConstructRequestURL (getDumbServerUpload D) a.user.name a.requestid a.signature.val a.netTime
    none

/-- The key of the address in the table of the server. -/
def Address.key (a : Address) : Bytes := a.user.name ++ ascii "/" ++ a.requestid

/-- The device comes to this address from this state, in five calls. -/
structure Addressed (D : Device) (K : KeyPair D.ed) (s : State) (a : Address) : Prop where
  network : (D.reply s.ticks).ret = a.netTime
  time : 0 ≤ a.netTime ∧ a.netTime ≤ LLONG_MAX
  user : dumbosAllocGetUser (D.userFile (s.ticks + 1)) = .ok a.user
  random : 0 ≤ (D.reply (s.ticks + 2)).ret
  generated : requestIdGenerate D.charSigned (D.reply (s.ticks + 2)).data = some a.requestid
  malloc : 0 ≤ (D.reply (s.ticks + 3)).ret
  url : 0 ≤ (D.reply (s.ticks + 4)).ret
  key : a.user.key = K.privateHex
  signed : D.ed.signHex K.privateHex
    (requestMessage a.user.name a.requestid (intText a.netTime)) = .ok a.signature
  hex : ∀ c ∈ a.signature.val, c ∈ hexTable
  /-- The server has an address without a query. -/
  server : (63 : UInt8) ∉ D.server

/-- The server knows the user, and its files can be used. -/
structure Registered {E : Ed25519} (K : KeyPair E) (directory : Bytes) (server : Server)
    (user : Bytes) : Prop where
  name : ∀ c ∈ user, c ∈ DUMBOS_USER_ALLOWED_CHARS
  key : server.files (createUserPubkeyPath directory user) = .ok K.publicHex
  hex : ∀ c ∈ K.publicHex, c ∈ hexTable
  lock : server.poisoned = false

/-- The body is within the limit, nothing fails on the server, and its clock agrees. -/
structure Sound (bodyLimit : ℕ) (netTime : ℤ) (u : Upload) : Prop where
  size : u.data.length ≤ bodyLimit
  clock : u.env.now ≤ netTime + DEFAULT_EXPIRE_TIME
  existsError : u.env.existsError = none
  insertError : u.env.insertError = none
  pushError : u.env.pushError = none
  writeError : u.writeError = none

/-- A file with this content is found, opened and read. -/
structure ReadsFile (D : Device) (t : ℕ) (data : Bytes) : Prop where
  stat : (D.reply t).ret = 0
  /-- The standard streams are open. -/
  opened : 0 < (D.reply (t + 1)).ret
  malloc : 0 ≤ (D.reply (t + 2)).ret
  read : 0 ≤ (D.reply (t + 3)).ret
  data : (D.reply (t + 3)).data = data

/-- What `post_buffer` returns for a status. -/
def Answers (r : Reply) (status : Option ℕ) : Prop :=
  if status = some 200 then r.ret = 0 else r.ret ≠ 0 ∧ r.errno ≠ 0

/-- Every file is read and posted to the server, from this call on. -/
def Serves (D : Device) (url : Bytes) (post : Server → Upload → Option ℕ × Server) :
    ℕ → Server → List Upload → Prop
  | _, _, [] => True
  | t, server, u :: us => ReadsFile D t u.data ∧ u.query = queryOf url ∧
    Answers (D.reply (t + 4)) (post server u).1 ∧
    ((post server u).1 = some 200 → Serves D url post (t + 5) (post server u).2 us)

/-- Every body has a file of its own. -/
def Stored (files : Files) (us : List Upload) : Prop :=
  ∃ paths : List Bytes, paths.Nodup ∧
    List.Forall₂ (fun path (u : Upload) => files path = .ok u.data) paths us

/-- How no address comes about, and the error code. -/
inductive URLFails (D : Device) (netTime : ℤ) (onUrl : Reply → ℤ) (s : State) : ℤ → Prop where
  | user {errno : ℕ} (h : dumbosAllocGetUser (D.userFile s.ticks) = .error errno) :
    URLFails D netTime onUrl s errno
  | random (h : 0 ≤ (D.reply (s.ticks + 1)).ret →
      requestIdGenerate D.charSigned (D.reply (s.ticks + 1)).data = none) :
    URLFails D netTime onUrl s (D.reply (s.ticks + 1)).errno
  | malloc (h : (D.reply (s.ticks + 2)).ret < 0) :
    URLFails D netTime onUrl s (D.reply (s.ticks + 2)).errno
  | sign {user requestid key : Bytes} {err : Errno}
      (h : requestIdSign D.ed user requestid netTime key = .error err) :
    URLFails D netTime onUrl s err.code
  | url (h : (D.reply (s.ticks + 3)).ret < 0) :
    URLFails D netTime onUrl s (onUrl (D.reply (s.ticks + 3)))

/-- An address that is made is signed with the key of the user. -/
theorem requestURL_cases (D : Device) (baseURL : Bytes) (netTime : ℤ) (code : Option Bytes)
    (onUrl : Reply → ℤ) (s : State) :
    (∃ err s', requestURL D baseURL netTime code onUrl s = (.error err, s') ∧
        URLFails D netTime onUrl s err) ∨
      ∃ user requestid signature, dumbosAllocGetUser (D.userFile s.ticks) = .ok user ∧
        requestIdGenerate D.charSigned (D.reply (s.ticks + 1)).data = some requestid ∧
        requestIdSign D.ed user.name requestid netTime user.key = .ok signature ∧
        requestURL D baseURL netTime code onUrl s =
          (.ok (allocConstructRequestURL baseURL user.name requestid signature.val netTime code),
            { s with ticks := s.ticks + 4 }) := by
  have huser : allocGetUser D s =
      (dumbosAllocGetUser (D.userFile s.ticks), { s with ticks := s.ticks + 1 }) := rfl
  have hcall : ∀ t, call D { s with ticks := t } = (D.reply t, { s with ticks := t + 1 }) :=
    fun _ => rfl
  rw [requestURL, bind_run, huser]
  dsimp only
  cases hget : dumbosAllocGetUser (D.userFile s.ticks) with
  | error errno => exact Or.inl ⟨_, _, rfl, .user hget⟩
  | ok user =>
    dsimp only
    rw [bind_run, hcall]
    dsimp only
    cases hid : if (D.reply (s.ticks + 1)).ret < 0 then none
        else requestIdGenerate D.charSigned (D.reply (s.ticks + 1)).data with
    | none =>
      refine Or.inl ⟨_, _, rfl, .random fun hret => ?_⟩
      rwa [if_neg (not_lt.mpr hret)] at hid
    | some requestid =>
      have hgenerated : requestIdGenerate D.charSigned (D.reply (s.ticks + 1)).data =
          some requestid := by
        split_ifs at hid
        exact hid
      dsimp only
      rw [bind_run, hcall]
      dsimp only
      by_cases hmalloc : (D.reply (s.ticks + 2)).ret < 0
      · rw [if_pos hmalloc]
        exact Or.inl ⟨_, _, rfl, .malloc hmalloc⟩
      · rw [if_neg hmalloc]
        cases hsign : requestIdSign D.ed user.name requestid netTime user.key with
        | error err => exact Or.inl ⟨_, _, rfl, .sign hsign⟩
        | ok signature =>
          dsimp only
          rw [bind_run, hcall]
          dsimp only
          by_cases hurl : (D.reply (s.ticks + 3)).ret < 0
          · rw [if_pos hurl]
            exact Or.inl ⟨_, _, rfl, .url hurl⟩
          · rw [if_neg hurl]
            exact Or.inr ⟨user, requestid, signature, rfl, hgenerated, hsign, rfl⟩

section Device
variable {D : Device} {K : KeyPair D.ed} {s : State} {a : Address}

theorem requestURL_run (h : Addressed D K s a) (baseURL : Bytes) (code : Option Bytes)
    (onUrl : Reply → ℤ) :
    requestURL D baseURL a.netTime code onUrl { s with ticks := s.ticks + 1 } =
      (.ok (allocConstructRequestURL baseURL a.user.name a.requestid a.signature.val a.netTime code),
        { s with ticks := s.ticks + 5 }) := by
  have huser : allocGetUser D { s with ticks := s.ticks + 1 } =
      (.ok a.user, { s with ticks := s.ticks + 2 }) := by
    rw [← h.user]
    rfl
  have hcall : ∀ t, call D { s with ticks := t } = (D.reply t, { s with ticks := t + 1 }) :=
    fun _ => rfl
  have hsign : requestIdSign D.ed a.user.name a.requestid a.netTime a.user.key = .ok a.signature := by
    rw [requestIdSign, requestIdGenerate_allowed h.generated, h.key, h.signed]
    rfl
  rw [requestURL, bind_run, huser]
  dsimp only
  rw [bind_run, hcall, if_neg (not_lt.mpr h.random), h.generated]
  dsimp only
  rw [bind_run, hcall, if_neg (not_lt.mpr h.malloc), hsign]
  dsimp only
  rw [bind_run, hcall, if_neg (not_lt.mpr h.url)]
  rfl

/-- With an address the command comes to its files, the last one first. -/
theorem cmdUploadData_run (h : Addressed D K s a) {args : List Bytes} (hargs : args ≠ []) :
    cmdUploadData D args s =
      uploadFiles D (a.url D) args.reverse { s with ticks := s.ticks + 5 } := by
  have hnetwork : call D s = (D.reply s.ticks, { s with ticks := s.ticks + 1 }) := rfl
  have htime : ¬(D.reply s.ticks).ret < 0 := by
    rw [h.network]
    exact not_lt.mpr h.time.1
  rw [cmdUploadData, if_neg hargs, withNetworkTime, bind_run, hnetwork, if_neg htime, h.network,
    bind_run, requestURL_run h]
  rfl

/-- A file that is read is posted, and what is left depends on the answer. -/
theorem uploadFiles_cons {url data : Bytes} (h : ReadsFile D s.ticks data) (name : Bytes)
    (names : List Bytes) :
    uploadFiles D url (name :: names) s =
      let s' := { s with ticks := s.ticks + 5, fetched := s.fetched ++ [url] }
      if (D.reply (s.ticks + 4)).ret ≠ 0 then (((D.reply (s.ticks + 4)).errno : ℤ), s')
      else uploadFiles D url names s' := by
  have hcall : ∀ t, call D { s with ticks := t } = (D.reply t, { s with ticks := t + 1 }) :=
    fun _ => rfl
  have hfetch : fetch D url { s with ticks := s.ticks + 4 } = (D.reply (s.ticks + 4),
      { s with ticks := s.ticks + 5, fetched := s.fetched ++ [url] }) := rfl
  have hstat : call D s = (D.reply s.ticks, { s with ticks := s.ticks + 1 }) := rfl
  conv_lhs => unfold uploadFiles
  rw [bind_run, hstat, if_neg (not_not.mpr h.stat), bind_run, hcall,
    if_neg h.opened.ne', bind_run, hcall, if_neg (not_lt.mpr h.malloc), bind_run, hcall,
    if_neg (not_lt.mpr h.read), bind_run, hfetch]
  dsimp only
  split_ifs <;> rfl

/-- The loop succeeds when the server accepts every file, and only then. -/
theorem uploadFiles_run {url : Bytes} {post : Server → Upload → Option ℕ × Server}
    {server : Server} {us : List Upload} {names : List Bytes}
    (h : Serves D url post s.ticks server us) (hlength : us.length = names.length) :
    let r := uploadFiles D url names s
    (r.1 = 0 ∧ r.2.fetched.length = s.fetched.length + us.length ∧
      ∀ e ∈ trace post server us, e.output = some 200) ∨
    (r.1 ≠ 0 ∧ ∃ e ∈ trace post server us, e.output ≠ some 200) := by
  induction us generalizing s server names with
  | nil =>
    obtain rfl := List.eq_nil_of_length_eq_zero hlength.symm
    exact Or.inl ⟨rfl, rfl, by simp⟩
  | cons u us ih =>
    obtain ⟨name, names, rfl⟩ := List.exists_cons_of_length_eq_add_one hlength.symm
    obtain ⟨hread, -, hanswer, hrest⟩ := h
    dsimp only
    rw [uploadFiles_cons hread]
    rw [Answers] at hanswer
    split_ifs at hanswer with hstatus
    · dsimp only
      rw [if_neg (not_not.mpr hanswer)]
      rcases @ih { s with ticks := s.ticks + 5, fetched := s.fetched ++ [url] } _ names
          (hrest hstatus) (by simpa using hlength) with ⟨hzero, hfetched, hall⟩ | ⟨hne, e, he, hout⟩
      · refine Or.inl ⟨hzero, ?_, ?_⟩
        · rw [hfetched]
          simp
          omega
        · intro e he
          rcases List.mem_cons.mp he with rfl | he
          · exact hstatus
          · exact hall e he
      · exact Or.inr ⟨hne, e, List.mem_cons_of_mem _ he, hout⟩
    · dsimp only
      rw [if_pos hanswer.1]
      exact Or.inr ⟨Int.natCast_ne_zero.mpr hanswer.2, _, List.mem_cons_self, hstatus⟩

/-- The command succeeds when the server accepts every file, and only then. -/
theorem cmdUploadData_accepts {post : Server → Upload → Option ℕ × Server} {server : Server}
    {us : List Upload} {args : List Bytes} (h : Addressed D K s a) (hargs : args ≠ [])
    (hserves : Serves D (a.url D) post (s.ticks + 5) server us) (hlength : us.length = args.length) :
    let r := cmdUploadData D args s
    (r.1 = 0 ∧ r.2.fetched.length = s.fetched.length + us.length ∧
      ∀ e ∈ trace post server us, e.output = some 200) ∨
    (r.1 ≠ 0 ∧ ∃ e ∈ trace post server us, e.output ≠ some 200) := by
  rw [cmdUploadData_run h hargs]
  apply @uploadFiles_run D { s with ticks := s.ticks + 5 } (a.url D) post server us args.reverse hserves
  rw [hlength, List.length_reverse]

end Device

section Query
variable {D : Device} {K : KeyPair D.ed} {s : State} {a : Address}

/-- The parameters that the server reads from the address. -/
def Address.params (a : Address) : DumbRequestParams where
  user := a.user.name
  code := ascii "dummy"
  requestid := a.requestid
  requestsig := a.signature.val
  time := a.netTime.toNat

/-- No alphabet has a character that means something in a query. -/
theorem alphabet_plain {whitelist : Bytes} (h : whitelist ∈ [DUMBOS_USER_ALLOWED_CHARS,
      REQUESTID_ALLOWED_CHARS, SECRET_CODE_ALLOWED_CHARS, hexTable]) :
    ∀ c ∈ whitelist, (c ≠ 37 ∧ c ≠ 38 ∧ c ≠ 43 ∧ c ≠ 61) ∧ c < 0x80 := by
  revert whitelist
  decide +kernel

theorem dummy_allowed : ∀ c ∈ ascii "dummy", c ∈ SECRET_CODE_ALLOWED_CHARS := by decide +kernel

theorem queryOf_requestURL {baseURL user requestid requestsig : Bytes} {netTime : ℤ}
    (hserver : (63 : UInt8) ∉ baseURL) (htime : 0 ≤ netTime) (code : Option Bytes) :
    queryOf (allocConstructRequestURL baseURL user requestid requestsig netTime code) =
      formText [(ascii "code", code.getD (ascii "dummy")), (ascii "user", user),
        (ascii "requestid", requestid), (ascii "requestsig", requestsig),
        (ascii "time", natText netTime.toNat)] := by
  have hbase : ∀ c ∈ baseURL, (c != 63) = true := by
    intro c hc
    simpa using fun h : c = 63 => hserver (h ▸ hc)
  have hurl : allocConstructRequestURL baseURL user requestid requestsig netTime code =
      baseURL ++ 63 :: formText (requestPairs user requestid requestsig netTime
        (code.getD (ascii "dummy"))) :=
    requestURL_eq baseURL user requestid requestsig netTime _
  rw [hurl, queryOf, List.dropWhile_append_of_pos hbase, requestPairs, intText_of_nonneg htime]
  rfl

/-- The server reads what the device has written. -/
theorem parseQuery_requestURL {baseURL user requestid requestsig : Bytes} {netTime : ℤ}
    {code : Option Bytes} (hserver : (63 : UInt8) ∉ baseURL) (htime : 0 ≤ netTime ∧ netTime ≤ LLONG_MAX)
    (hcode : Literal (code.getD (ascii "dummy"))) (huser : ∀ c ∈ user, c ∈ DUMBOS_USER_ALLOWED_CHARS)
    (hid : ∀ c ∈ requestid, c ∈ REQUESTID_ALLOWED_CHARS) (hsig : ∀ c ∈ requestsig, c ∈ hexTable)
    (lossy : Bytes → Bytes) :
    parseQuery lossy (queryOf (allocConstructRequestURL baseURL user requestid requestsig netTime code)) =
      some ⟨user, code.getD (ascii "dummy"), requestid, requestsig, netTime.toNat⟩ := by
  rw [LLONG_MAX] at htime
  rw [queryOf_requestURL hserver htime.1]
  apply @parseQuery_formText lossy
    ⟨user, code.getD (ascii "dummy"), requestid, requestsig, netTime.toNat⟩
  · exact hcode
  · exact literal_of_mem huser (alphabet_plain (by simp))
  · exact literal_of_mem hid (alphabet_plain (by simp))
  · exact literal_of_mem hsig (alphabet_plain (by simp))
  · dsimp only
    omega

theorem not_mem_getDumbServerUpload (hserver : (63 : UInt8) ∉ D.server) :
    (63 : UInt8) ∉ getDumbServerUpload D := by
  have hpath : (63 : UInt8) ∉ ascii "/" ++ ascii "upload" := by decide
  intro hc
  rw [getDumbServerUpload, dumbServerAppend, List.append_assoc, List.mem_append] at hc
  rcases hc with hc | hc
  · exact hserver hc
  · split_ifs at hc
    · exact hpath hc
    · exact hpath (List.mem_append_right _ hc)

theorem parseQuery_url (h : Addressed D K s a) (hname : ∀ c ∈ a.user.name, c ∈ DUMBOS_USER_ALLOWED_CHARS)
    (lossy : Bytes → Bytes) : parseQuery lossy (queryOf (a.url D)) = some a.params := by
  have hid := checkAllowedChars_iff.mp (requestIdGenerate_allowed h.generated)
  have hcode : Literal (ascii "dummy") := literal_of_mem dummy_allowed (alphabet_plain (by simp))
  exact @parseQuery_requestURL _ _ _ _ _ none (not_mem_getDumbServerUpload h.server) h.time hcode hname
    hid h.hex lossy

/-- Parameters that are signed with the key of a user, in time, are genuine. -/
theorem genuine_of_signed {E : Ed25519} (K : KeyPair E) {directory : Bytes} {env : Env} {files : Files}
    {q : DumbRequestParams} {signature : SignatureHex}
    (huser : ∀ c ∈ q.user, c ∈ DUMBOS_USER_ALLOWED_CHARS)
    (hcode : ∀ c ∈ q.code, c ∈ SECRET_CODE_ALLOWED_CHARS)
    (hid : ∀ c ∈ q.requestid, c ∈ REQUESTID_ALLOWED_CHARS)
    (hkey : files (createUserPubkeyPath directory q.user) = .ok K.publicHex)
    (hpublic : ∀ c ∈ K.publicHex, c ∈ hexTable) (hsig : q.requestsig = signature.val)
    (hsigned : E.signHex K.privateHex (requestMessage q.user q.requestid (natText q.time)) = .ok signature)
    (htime : (q.time : ℤ) ≤ LLONG_MAX) (hclock : env.now ≤ q.time + DEFAULT_EXPIRE_TIME)
    (hexists : env.existsError = none) (hinsert : env.insertError = none) :
    Genuine E directory env files q := by
  have hutf8 : isUtf8 K.publicHex := by
    apply isUtf8_of_ascii
    exact (literal_of_mem hpublic (alphabet_plain (by simp))).2
  have hverify : requestIdVerify E env.now q.user q.requestid (natText q.time) signature.val
      K.publicHex = .ok () := by
    rw [requestIdVerify_eq_ok_iff]
    refine ⟨K.correct _ _ hsigned, q.time, ?_, hclock⟩
    have hvalue : digitsValue (natText q.time) = q.time := digitsValue_natText _
    rw [parseLongLong_digits (natText_ne_nil _) (natText_digits _) (by rwa [hvalue]), hvalue]
  refine ⟨huser, hcode, hid, ⟨K.publicHex, hkey, hutf8, ?_⟩, hexists, hinsert⟩
  have hname : cstring q.user = some q.user := cstring_of_mem (by decide) huser
  have hrequestid : cstring q.requestid = some q.requestid := cstring_of_mem (by decide) hid
  have hsignature : cstring q.requestsig = some signature.val := by
    rw [hsig]
    exact cstring_eq_some.mpr ⟨fun hzero => signature.property.2 0 hzero rfl, rfl⟩
  rw [verifyDumbosRequest, hname, hrequestid, hsignature, cstring_of_mem (by decide) hpublic]
  dsimp only
  rw [hverify]

/-- What the device signs is genuine for the server. -/
theorem genuine_params {directory : Bytes} {server : Server} {bodyLimit : ℕ} {u : Upload}
    (h : Addressed D K s a) (hreg : Registered K directory server a.user.name)
    (hsound : Sound bodyLimit a.netTime u) :
    Genuine D.ed directory u.env server.files a.params := by
  have hid := checkAllowedChars_iff.mp (requestIdGenerate_allowed h.generated)
  have htext : natText a.params.time = intText a.netTime := (intText_of_nonneg h.time.1).symm
  have hnat : (a.params.time : ℤ) = a.netTime := Int.toNat_of_nonneg h.time.1
  refine genuine_of_signed K hreg.name dummy_allowed hid hreg.key hreg.hex rfl ?_ ?_ ?_ hsound.existsError
    hsound.insertError
  · rw [htext]
    exact h.signed
  · rw [hnat]
    exact h.time.2
  · rw [hnat]
    exact hsound.clock

end Query

section Files
variable {D : Device} {K : KeyPair D.ed} {s : State} {a : Address} {directory : Bytes}
variable {lossy : Bytes → Bytes} {bodyLimit : ℕ} {server : Server} {us : List Upload}

/-- Two files are not both accepted, nor is one whose id has been used. -/
theorem length_eq_one_of_accepted (haddress : Addressed D K s a)
    (hreg : Registered K directory server a.user.name) {t : ℕ}
    (hserves : Serves D (a.url D) (dumbpost D.ed directory lossy bodyLimit) t server us)
    (hne : us ≠ [])
    (hall : ∀ e ∈ trace (dumbpost D.ed directory lossy bodyLimit) server us, e.output = some 200) :
    us.length = 1 ∧ server.requestIds a.key = false := by
  have hquery := parseQuery_url haddress hreg.name lossy
  cases us with
  | nil => exact absurd rfl hne
  | cons u us =>
    obtain ⟨-, hu, -, hrest⟩ := hserves
    rw [← hu] at hquery
    have hfirst := hall _ List.mem_cons_self
    obtain ⟨hfresh, hused⟩ := dumbpost_ok hquery hfirst
    refine ⟨?_, hfresh⟩
    cases us with
    | nil => rfl
    | cons v us =>
      exfalso
      obtain ⟨-, hv, -, -⟩ := hrest hfirst
      rw [hu, ← hv] at hquery
      have hsecond := hall _ (List.mem_cons_of_mem _ List.mem_cons_self)
      rw [(dumbpost_ok hquery hsecond).1] at hused
      cases hused

/-- A first file is accepted, and stored. -/
theorem dumbpost_oneFile {u : Upload} (haddress : Addressed D K s a)
    (hreg : Registered K directory server a.user.name) (hsound : Sound bodyLimit a.netTime u)
    (hu : u.query = queryOf (a.url D)) (hfresh : server.requestIds a.key = false) :
    (dumbpost D.ed directory lossy bodyLimit server u).1 = some 200 ∧
      ∃ path, (dumbpost D.ed directory lossy bodyLimit server u).2.files path = .ok u.data := by
  have hquery := parseQuery_url haddress hreg.name lossy
  rw [← hu] at hquery
  exact dumbpost_genuine hquery (genuine_params haddress hreg hsound) hfresh hsound.size
    hsound.writeError hsound.pushError hreg.lock

/-- A command stores every file and succeeds exactly when there is one file, and the server has
not seen the id that was drawn. -/
theorem cmdUploadData_stored_iff {args : List Bytes} (haddress : Addressed D K s a)
    (hreg : Registered K directory server a.user.name) (hsound : ∀ u ∈ us, Sound bodyLimit a.netTime u)
    (hserves : Serves D (a.url D) (dumbpost D.ed directory lossy bodyLimit) (s.ticks + 5) server us)
    (hlength : us.length = args.length) :
    let r := cmdUploadData D args s
    let posts := r.2.fetched.length - s.fetched.length
    (r.1 = 0 ∧
      Stored (finalState (dumbpost D.ed directory lossy bodyLimit) server (us.take posts)).files us) ↔
      args.length = 1 ∧ server.requestIds (a.user.name ++ ascii "/" ++ a.requestid) = false := by
  intro r posts
  constructor
  · rintro ⟨hzero, -⟩
    have hargs : args ≠ [] := by
      rintro rfl
      have hfail : (cmdUploadData D [] s).1 = EINVAL.code := rfl
      exact absurd (hfail.symm.trans hzero) (by decide)
    have hne : us ≠ [] := by
      rintro rfl
      exact hargs (List.eq_nil_of_length_eq_zero hlength.symm)
    rw [← hlength]
    rcases cmdUploadData_accepts haddress hargs hserves hlength with ⟨-, -, hall⟩ | ⟨hfail, -⟩
    · exact length_eq_one_of_accepted haddress hreg hserves hne hall
    · exact absurd hzero hfail
  · rintro ⟨hone, hfresh⟩
    have hargs : args ≠ [] := by
      rintro rfl
      cases hone
    obtain ⟨u, rfl⟩ := List.length_eq_one_iff.mp (hlength.trans hone)
    obtain ⟨hstatus, path, hpath⟩ := dumbpost_oneFile haddress hreg
      (hsound u (List.mem_singleton_self u)) hserves.2.1 hfresh
    rcases cmdUploadData_accepts haddress hargs hserves hlength with
      ⟨hzero, hfetched, -⟩ | ⟨-, e, he, hout⟩
    · have hposts : posts = 1 := by
        change r.2.fetched.length - s.fetched.length = 1
        rw [show r.2.fetched.length = s.fetched.length + 1 from hfetched]
        exact Nat.add_sub_cancel_left _ _
      refine ⟨hzero, [path], List.nodup_singleton path, ?_⟩
      rw [hposts]
      exact List.Forall₂.cons hpath List.Forall₂.nil
    · rw [trace_cons, trace_nil, List.mem_singleton] at he
      rw [he] at hout
      exact absurd hstatus hout

end Files

section Example

/-- The user `u`, with the key that signs everything. -/
def blobOfU : Bytes :=
  DUMBOS_USER_DATA_MAGIC ++ (ascii "u" ++ List.replicate 63 0) ++ [0] ++ List.replicate 127 0 ++ [0] ++
    KeyPair.always.privateHex ++ [0]

/-- A device on which two files can be read; the server takes the first and refuses the second. -/
def twoFilesDevice : Device :=
  { Device.plain Ed25519.always 5 with
    userFile := fun _ => .ok blobOfU
    reply := fun t =>
      if t = 0 then ⟨5, 0, [], []⟩
      else if t = 2 then ⟨0, 0, List.replicate 64 0, []⟩
      else if t = 6 ∨ t = 11 then ⟨3, 0, [], []⟩
      else if t = 8 then ⟨1, 0, ascii "A", []⟩
      else if t = 13 then ⟨1, 0, ascii "B", []⟩
      else if t = 14 then ⟨-1, EPROTO, [], []⟩
      else ⟨0, 0, [], []⟩ }

theorem le_blobOfU_length : sizeofDumbosUserData ≤ blobOfU.length := by decide +kernel

def addressOfU : Address where
  user := (DumbosUserData.ofBytes blobOfU le_blobOfU_length).terminate
  netTime := 5
  requestid := List.replicate 64 113
  signature := singleSignature

def serverOfU : Server where
  files path :=
    if path = createUserPubkeyPath (ascii "d") (ascii "u") then .ok KeyPair.always.publicHex
    else .error ⟨true, ascii "not found"⟩
  requestIds _ := false
  events := []
  poisoned := false

def uploadOf (data : Bytes) : Upload :=
  ⟨Env.at 5, queryOf (addressOfU.url twoFilesDevice), data, ascii "now", ascii "abcdefgh", none⟩

def postToU : Server → Upload → Option ℕ × Server :=
  dumbpost Ed25519.always (ascii "d") id 2097152

theorem twoFilesDevice_addressed :
    @Addressed twoFilesDevice KeyPair.always State.start addressOfU where
  network := rfl
  time := by decide
  user := dumbosAllocGetUser_eq_ok le_blobOfU_length (by decide)
  random := by decide
  generated := by decide +kernel
  malloc := by decide
  url := by decide
  key := by decide +kernel
  signed := rfl
  hex := by
    intro c hc
    have ha : c = 97 := List.eq_of_mem_replicate hc
    rw [ha]
    decide
  server := by decide

theorem serverOfU_registered : Registered KeyPair.always (ascii "d") serverOfU addressOfU.user.name where
  name := by decide +kernel
  key := by decide
  hex := by decide +kernel
  lock := rfl

theorem uploadOf_sound (data : Bytes) (h : data.length ≤ 2097152) :
    Sound 2097152 addressOfU.netTime (uploadOf data) where
  size := h
  clock := by
    change (5 : ℤ) ≤ 5 + DEFAULT_EXPIRE_TIME
    decide
  existsError := rfl
  insertError := rfl
  pushError := rfl
  writeError := rfl

theorem twoFilesDevice_serves : Serves twoFilesDevice (addressOfU.url twoFilesDevice) postToU 5
    serverOfU [uploadOf (ascii "A"), uploadOf (ascii "B")] := by
  have hfirst : (postToU serverOfU (uploadOf (ascii "A"))).1 = some 200 := by decide +kernel
  have hsecond : (postToU (postToU serverOfU (uploadOf (ascii "A"))).2
      (uploadOf (ascii "B"))).1 = some 403 := by decide +kernel
  refine ⟨⟨rfl, by decide, by decide, by decide, by decide⟩, rfl, ?_, fun _ =>
    ⟨⟨rfl, by decide, by decide, by decide, by decide⟩, rfl, ?_, ?_⟩⟩
  · rw [Answers, hfirst]
    decide
  · rw [Answers, hsecond]
    decide
  · rw [hsecond]
    simp

theorem cmdUploadData_stored_iff_oneFile :
    (cmdUploadData twoFilesDevice [ascii "a"] State.start).1 = 0 ∧
      Stored (finalState postToU serverOfU ([uploadOf (ascii "A")].take
        ((cmdUploadData twoFilesDevice [ascii "a"] State.start).2.fetched.length -
          State.start.fetched.length))).files [uploadOf (ascii "A")] := by
  have hsound : ∀ u ∈ [uploadOf (ascii "A")], Sound 2097152 addressOfU.netTime u := by
    intro u hu
    rw [List.mem_singleton.mp hu]
    exact uploadOf_sound _ (by decide)
  obtain ⟨hread, hquery, hanswer, -⟩ := twoFilesDevice_serves
  exact (cmdUploadData_stored_iff twoFilesDevice_addressed serverOfU_registered hsound
    ⟨hread, hquery, hanswer, fun _ => trivial⟩ rfl).mpr ⟨rfl, rfl⟩

/-- Two files: the second is refused although nothing else is wrong. -/
theorem not_cmdUploadData_stored :
    @Addressed twoFilesDevice KeyPair.always State.start addressOfU ∧
      Registered KeyPair.always (ascii "d") serverOfU addressOfU.user.name ∧
      (∀ u ∈ [uploadOf (ascii "A"), uploadOf (ascii "B")],
        Sound 2097152 addressOfU.netTime u) ∧
      Serves twoFilesDevice (addressOfU.url twoFilesDevice) postToU 5 serverOfU
        [uploadOf (ascii "A"), uploadOf (ascii "B")] ∧
      serverOfU.requestIds addressOfU.key = false ∧
      (cmdUploadData twoFilesDevice [ascii "b", ascii "a"] State.start).1 = EPROTO.code := by
  refine ⟨twoFilesDevice_addressed, serverOfU_registered, ?_, twoFilesDevice_serves, rfl, ?_⟩
  · intro u hu
    rcases List.mem_cons.mp hu with rfl | hu
    · exact uploadOf_sound _ (by decide)
    · rw [List.mem_singleton.mp hu]
      exact uploadOf_sound _ (by decide)
  · decide +kernel

end Example

end Dumbos.System
