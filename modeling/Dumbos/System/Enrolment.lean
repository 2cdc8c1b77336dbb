import Dumbos.System.Upload
import Dumbos.System.Users

/-! # From the creation of a user to its requests

`DumbUser::new` leaves a key with the server and a blob for the device. The blob is
sent to the device in hex, the device signs with the key in it, and the server looks
the signature up under the name that the device sends: the two ends fit together.
-/
namespace Dumbos.System
open Foundation Common Payload Request Daemon RustTool RustServer

section Blob
variable {v : Volume} {cwd : Place} {c : Creation} {n : NewUser} {name key : String}

theorem cString_eq_ok_nul {s : String} {text : Bytes} (h : cString s = .ok text) :
    ∀ ch ∈ ascii s, ch ≠ 0 := by
  rw [cString] at h
  split_ifs at h with hzero
  rintro ch hch rfl
  exact hzero hch

theorem makeUser_ok {blob : Bytes} (h : makeUser name key = .ok blob) :
    (∀ ch ∈ ascii name, ch ≠ 0) ∧ (ascii name).length ≤ 63 ∧ (∀ ch ∈ ascii key, ch ≠ 0) ∧
      (ascii key).length = 64 := by
  rw [makeUser] at h
  obtain ⟨user, huser, h⟩ := bind_eq_ok h
  obtain ⟨text, hkey, h⟩ := bind_eq_ok h
  obtain ⟨data, hdata, -⟩ := bind_eq_ok h
  have hnameNul := cString_eq_ok_nul huser
  have hkeyNul := cString_eq_ok_nul hkey
  rw [cString_eq_ok hnameNul] at huser
  rw [cString_eq_ok hkeyNul] at hkey
  cases huser
  cases hkey
  rw [dumbosAllocNewUser] at hdata
  split_ifs at hdata with hlong hsize
  · cases hdata
  · cases hdata
  · rw [DUMBOS_USERNAME_MAXLEN, not_lt] at hlong
    rw [not_not] at hsize
    exact ⟨hnameNul, hlong, hkeyNul, hsize⟩

theorem userSetFancyName_ok {fancy : String} {user : DumbosUserData} {blob : Bytes}
    (h : userSetFancyName fancy user.toBytes = (.ok (), blob)) :
    (∀ ch ∈ ascii fancy, ch ≠ 0) ∧ (ascii fancy).length ≤ 64 ∧
      blob = (dumbosSetFancyName (ascii fancy) user).2.toBytes := by
  have hfancy : ∀ ch ∈ ascii fancy, ch ≠ 0 := by
    rw [userSetFancyName] at h
    cases hstring : cString fancy with
    | error e =>
      rw [hstring] at h
      cases h
    | ok text => exact cString_eq_ok_nul hstring
  rw [userSetFancyName_toBytes hfancy] at h
  obtain ⟨hok, rfl⟩ := Prod.mk.inj h
  refine ⟨hfancy, ?_, rfl⟩
  by_contra hlong
  rw [dumbosSetFancyName_eq, if_neg hlong] at hok
  cases hok

/-- What a device reads from the blob of a user that is about to be stored. -/
theorem blob_of_checkNew (h : checkNew v cwd c = .ok n) :
    ∃ publicKey privateKey, c.keys = .ok (publicKey, privateKey) ∧ n.user.pubkey = publicKey ∧
      ∃ data : DumbosUserData, n.blob = data.toBytes ∧ data.magic.val = DUMBOS_USER_DATA_MAGIC ∧
        Reads (ascii c.username) (ascii privateKey) (ascii n.user.fancyname) data.terminate := by
  rw [checkNew] at h
  obtain ⟨_, -, h⟩ := bind_eq_ok h
  obtain ⟨found, -, h⟩ := bind_eq_ok h
  cases found with
  | true => cases h
  | false =>
    obtain ⟨⟨publicKey, privateKey⟩, hkeys, h⟩ := bind_eq_ok h
    obtain ⟨blob, hblob, h⟩ := bind_eq_ok h
    obtain ⟨_, hset, h⟩ := bind_eq_ok h
    cases h
    obtain ⟨hname, hnameLen, hkey, hkeyLen⟩ := makeUser_ok hblob
    rw [makeUser_eq_ok hname hnameLen hkey hkeyLen] at hblob
    cases hblob
    obtain ⟨hfancy, hfancyLen, hdata⟩ := userSetFancyName_ok (Prod.ext hset rfl)
    refine ⟨publicKey, privateKey, hkeys, rfl, _, hdata, ?_,
      reads_ofNameAndKey hname hnameLen hkey hkeyLen hfancy hfancyLen⟩
    rw [dumbosSetFancyName_eq, if_pos hfancyLen]
    rfl

end Blob

/-- The keys of a creation are the pair, and keys and signatures are hex. -/
structure MadeWith {E : Ed25519} (K : KeyPair E) (c : Creation) : Prop where
  keys : ∃ publicKey privateKey, c.keys = .ok (publicKey, privateKey) ∧
    ascii publicKey = K.publicHex ∧ ascii privateKey = K.privateHex
  public_hex : ∀ ch ∈ K.publicHex, ch ∈ hexTable
  signature_hex : ∀ m signature, E.signHex K.privateHex m = .ok signature →
    ∀ ch ∈ signature.val, ch ∈ hexTable

/-- The device makes an address with this user. -/
structure SignedURL (D : Device) (store : Option Bytes) (netTime : ℤ) (code : Option Bytes)
    (url : Bytes) : Prop where
  made : ∃ (baseURL : Bytes) (onUrl : Reply → ℤ) (s : State), (63 : UInt8) ∉ baseURL ∧
    D.userFile s.ticks = userFile store ∧ (requestURL D baseURL netTime code onUrl s).1 = .ok url
  time : 0 ≤ netTime ∧ netTime ≤ LLONG_MAX
  code : ∀ secret ∈ code, ∀ ch ∈ secret, ch ∈ SECRET_CODE_ALLOWED_CHARS

/-- The clocks of the server and of the network agree, and the table of the server works. -/
structure OnTime (env : Env) (netTime : ℤ) : Prop where
  clock : env.now ≤ netTime + DEFAULT_EXPIRE_TIME
  existsError : env.existsError = none
  insertError : env.insertError = none

section Request
variable {D : Device} {K : KeyPair D.ed} {user : DumbosUserData} {store : Option Bytes}
variable {netTime : ℤ} {code : Option Bytes} {url : Bytes}

theorem SignedURL.literal (h : SignedURL D store netTime code url) :
    ∀ ch ∈ code.getD (ascii "dummy"), ch ∈ SECRET_CODE_ALLOWED_CHARS := by
  cases code with
  | none => exact dummy_allowed
  | some secret => exact h.code secret rfl

/-- An address is made with a user that can be read. -/
theorem SignedURL.readable (h : SignedURL D store netTime code url) : Readable store := by
  obtain ⟨baseURL, onUrl, s, -, hstore, hmade⟩ := h.made
  rcases requestURL_cases D baseURL netTime code onUrl s with
    ⟨err, s', hrun, -⟩ | ⟨user', requestid, signature, huser', -⟩
  · rw [hrun] at hmade
    cases hmade
  · rw [hstore] at huser'
    exact ⟨user', huser'⟩

/-- The server takes the address for one of the user. -/
theorem SignedURL.accepted (h : SignedURL D store netTime code url)
    (huser : dumbosAllocGetUser (userFile store) = .ok user) (hkey : user.key = K.privateHex)
    (hname : ∀ ch ∈ user.name, ch ∈ DUMBOS_USER_ALLOWED_CHARS)
    (hpublic : ∀ ch ∈ K.publicHex, ch ∈ hexTable)
    (hhex : ∀ m signature, D.ed.signHex K.privateHex m = .ok signature →
      ∀ ch ∈ signature.val, ch ∈ hexTable)
    {env : Env} (henv : OnTime env netTime) {files : Files} {directory : Bytes}
    (hfile : files (createUserPubkeyPath directory user.name) = .ok K.publicHex)
    (lossy : Bytes → Bytes) :
    ∃ q, parseQuery lossy (queryOf url) = some q ∧ q.user = user.name ∧
      q.code = code.getD (ascii "dummy") ∧ ∀ table, table (requestKey q) = false →
        (dumbVerifyRequest D.ed env files directory q table).1 = some accepted := by
  obtain ⟨baseURL, onUrl, s, hbase, hstore, hmade⟩ := h.made
  rcases requestURL_cases D baseURL netTime code onUrl s with
    ⟨err, s', hrun, -⟩ | ⟨user', requestid, signature, huser', hgenerated, hsign, hrun⟩
  · rw [hrun] at hmade
    cases hmade
  rw [hrun] at hmade
  cases hmade
  rw [hstore, huser] at huser'
  cases huser'
  have hid := checkAllowedChars_iff.mp (requestIdGenerate_allowed hgenerated)
  have hsigned := (requestIdSign_eq_ok hsign).2
  rw [hkey] at hsigned
  have hliteral : Literal (code.getD (ascii "dummy")) := literal_of_mem h.literal (alphabet_plain (by simp))
  have htext : natText netTime.toNat = intText netTime := (intText_of_nonneg h.time.1).symm
  have hnat : (netTime.toNat : ℤ) = netTime := Int.toNat_of_nonneg h.time.1
  refine ⟨_, parseQuery_requestURL hbase h.time hliteral hname hid (hhex _ _ hsigned) lossy, rfl, rfl,
    fun table hfresh => ?_⟩
  have hgenuine : Genuine D.ed directory env files
      ⟨user.name, code.getD (ascii "dummy"), requestid, signature.val, netTime.toNat⟩ := by
    refine genuine_of_signed K hname h.literal hid hfile hpublic rfl ?_ ?_ ?_ henv.existsError
      henv.insertError
    · rw [htext]
      exact hsigned
    · rw [hnat]
      exact h.time.2
    · rw [hnat]
      exact henv.clock
  rw [dumbVerifyRequest_genuine hgenuine]
  rw [requestKey] at hfresh
  rw [if_neg (ne_true_of_eq_false hfresh)]

end Request

/-- Whoever was created is let in: after any later creations the server still has the blob, and once
a device has it, the server accepts each address that the device signs and that is not used yet. -/
theorem enrolled_accepted {v : Volume} {cwd : Place} {c : Creation} {D : Device} {K : KeyPair D.ed}
    (hserver : ServerDirectory v cwd c.directory) (hkeys : MadeWith K c) {user : DumbUser}
    (hcreated : (DumbUser.new v cwd c).1 = .ok user) {run : List Creation}
    (hrun : ∀ c' ∈ run, c'.directory = c.directory) {later : Volume}
    (hlater : later = finalState (createStep cwd) (DumbUser.new v cwd c).2 run) :
    ∃ blob, later.read cwd (none : Option IoFault)
        (createUserBlobPath (ascii c.directory) (ascii c.username)) = .ok blob ∧
      Sendable (Hex.mallocBufToHex blob) ∧
      ∀ set : SetName, set.args.head? = some (Hex.mallocBufToHex blob) → (setNameStep none set).1 = 0 →
        ∀ netTime code url, SignedURL D (setNameStep none set).2 netTime code url →
        ∀ (env : Env) (files : Files) (lossy : Bytes → Bytes), OnTime env netTime →
          (∀ path content, later.read cwd (none : Option IoFault) path = .ok content →
            files path = .ok content) →
          ∃ q, parseQuery lossy (queryOf url) = some q ∧ q.user = ascii c.username ∧
            q.code = code.getD (ascii "dummy") ∧ ∀ table, table (requestKey q) = false →
              (dumbVerifyRequest D.ed env files (ascii c.directory) q table).1 = some accepted := by
  obtain ⟨hextends, hnew⟩ := new_keeps hserver
  obtain ⟨n, rfl, hcheck, henrolled⟩ := hnew user hcreated
  obtain ⟨-, hfinal⟩ := run_extends (hserver.mono hextends) hrun
  rw [← hlater] at hfinal
  have hthere := henrolled.mono hfinal
  have hchars := ensureChars_eq_ok (checkNew_eq_ok hcheck).chars
  obtain ⟨publicKey, privateKey, hpair, hpubkey, data, hblob, hmagic, hreads⟩ := blob_of_checkNew hcheck
  obtain ⟨publicKey', privateKey', hpair', hpublic, hprivate⟩ := hkeys.keys
  rw [hpair] at hpair'
  cases hpair'
  refine ⟨n.blob, hthere.blob, hblob ▸ toBytes_hex_sendable data, ?_⟩
  intro set hhead hzero netTime code url hurl env files lossy henv hfiles
  rw [hblob] at hhead
  have huser := setNameStep_toBytes hmagic hhead hzero
    (setNameStep_kept hhead hzero hurl.readable)
  have hname : data.terminate.name = ascii c.username := hreads.name_eq
  have hkey : data.terminate.key = K.privateHex := hreads.key_eq.trans hprivate
  have hfile := hfiles _ _ hthere.pubkey
  rw [hpubkey, hpublic, ← hname] at hfile
  rw [← hname] at hchars ⊢
  exact hurl.accepted huser hkey hchars hkeys.public_hex hkeys.signature_hex henv hfile lossy

/-- A user in the root whose signatures are always the same. -/
def keyedUser : Creation :=
  { someone none with
    keys := .ok (String.ofList (List.replicate 64 'c'), String.ofList (List.replicate 64 'b')) }

/-- The server when the user is there, and has been asked for once more. -/
def keyedServer : Volume :=
  finalState (createStep []) (DumbUser.new bareVolume [] keyedUser).2 [someone none]

def keyedBlob : Bytes :=
  (dumbosSetFancyName (ascii "u") (.ofNameAndKey (ascii "u") KeyPair.always.privateHex)).2.toBytes

/-- The device of the user; its random bytes are zeros. -/
def keyedDevice : Device :=
  { Device.plain Ed25519.always 5 with
    userFile := fun _ => .ok keyedBlob
    reply := fun t => if t = 1 then ⟨0, 0, List.replicate 64 0, []⟩ else ⟨0, 0, [], []⟩ }

/-- What the server reads. -/
def keyedFiles : Files := fun path =>
  match keyedServer.read [] (none : Option IoFault) path with
  | .ok content => .ok content
  | .error _ => .error ⟨true, ascii "not found"⟩

theorem keyedUser_madeWith : MadeWith KeyPair.always keyedUser where
  keys := ⟨_, _, rfl, by decide +kernel⟩
  public_hex := serverOfU_registered.hex
  signature_hex := by
    intro m signature hsigned
    obtain rfl := Except.ok.inj hsigned
    exact twoFilesDevice_addressed.hex

/-- On a device without a user and without a failing call the blob is set. -/
theorem setNameStep_accepting (blob : Bytes) :
    (setNameStep none (setNameCommand blob.length (Hex.mallocBufToHex blob))).1 = 0 ∧
      (setNameStep none (setNameCommand blob.length (Hex.mallocBufToHex blob))).2 = some blob := by
  have hzero : (setNameStep none (setNameCommand blob.length (Hex.mallocBufToHex blob))).1 = 0 :=
    cmdSetname_succeeds (hexToBuf_mallocBufToHex true blob) ⟨le_rfl, rfl, le_rfl, rfl, rfl, rfl⟩ []
  refine ⟨hzero, ?_⟩
  rcases setNameStep_unset (setNameCommand blob.length (Hex.mallocBufToHex blob)) with
    ⟨hne, -⟩ | ⟨-, hex, hhex, data, hdata, hstore⟩
  · exact absurd hzero hne
  · cases hhex
    rw [hexToBuf_mallocBufToHex] at hdata
    cases hdata
    rw [hstore]
    exact congrArg some (List.take_length)

theorem enrolled_accepted_keyed :
    ∃ url q, (requestURL keyedDevice (ascii "https://dumb/code") 5 none (fun _ => 0) State.start).1 =
        .ok url ∧ parseQuery id (queryOf url) = some q ∧ q.user = ascii "u" ∧
      (dumbVerifyRequest Ed25519.always (Env.at 5) keyedFiles (ascii "/") q fun _ => false).1 =
        some accepted := by
  obtain ⟨hfirst, hread, hmade⟩ : (DumbUser.new bareVolume [] keyedUser).1.isOk = true ∧
      (keyedServer.read [] (none : Option IoFault) (createUserBlobPath (ascii keyedUser.directory)
        (ascii keyedUser.username))).toOption = some keyedBlob ∧
      (requestURL keyedDevice (ascii "https://dumb/code") 5 none (fun _ => 0) State.start).1.isOk =
        true := by decide +kernel
  obtain ⟨user, hcreated⟩ : ∃ user, (DumbUser.new bareVolume [] keyedUser).1 = .ok user := by
    cases hnew : (DumbUser.new bareVolume [] keyedUser).1 with
    | error e =>
      rw [hnew] at hfirst
      cases hfirst
    | ok user => exact ⟨user, rfl⟩
  obtain ⟨blob, hblob, -, haccepted⟩ := @enrolled_accepted bareVolume [] keyedUser keyedDevice
    KeyPair.always serverDirectory_bare keyedUser_madeWith user hcreated [someone none]
    (by simp [someone, keyedUser]) keyedServer rfl
  obtain rfl : blob = keyedBlob := by
    rw [hblob] at hread
    exact Option.some.inj hread
  obtain ⟨hzero, hstore⟩ := setNameStep_accepting keyedBlob
  cases hurl : (requestURL keyedDevice (ascii "https://dumb/code") 5 none (fun _ => 0)
      State.start).1 with
  | error err =>
    rw [hurl] at hmade
    cases hmade
  | ok url =>
    have hsigned : SignedURL keyedDevice (setNameStep none (setNameCommand keyedBlob.length
        (Hex.mallocBufToHex keyedBlob))).2 5 none url := by
      refine ⟨⟨ascii "https://dumb/code", fun _ => 0, State.start, by decide, ?_, hurl⟩,
        by decide, by simp⟩
      rw [hstore]
      rfl
    obtain ⟨q, hq, huser, -, hverify⟩ := haccepted _ rfl hzero 5 none url hsigned (Env.at 5) keyedFiles
      id ⟨by decide, rfl, rfl⟩ (fun path content hcontent => by rw [keyedFiles, hcontent])
    exact ⟨url, q, rfl, hq, huser, hverify (fun _ => false) rfl⟩

end Dumbos.System
