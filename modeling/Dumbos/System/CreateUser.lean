import Dumbos.Common.Errno
import Dumbos.Foundation.Writes
import Dumbos.RustServer.Paths
import Dumbos.System.UserBlob

/-! # Creating a user on the server

A user is a directory with three files. Everything that can be refused is refused
before the directory is made, and nothing is taken back behind that: where a write
fails the directory stays, and the next call takes it for a user that exists.
-/
namespace Dumbos.System
open Foundation Common RustTool RustServer

/-- What a call fails with for a reason of its own; what is missing, the file system says. -/
abbrev IoFault := {e : Errno // e ≠ ENOENT}

@[ext] structure DumbUser where
  name : String
  fancyname : String
  pubkey : String
  datapath : Bytes
deriving DecidableEq

/-- How the calls on files go that `DumbUser::new` makes. -/
structure CreateFaults where
  metadata : Option IoFault
  directories : Attempts IoFault
  pubkey : Option (WriteFault IoFault)
  fancyname : Option (WriteFault IoFault)
  blob : Option (WriteFault IoFault)

/-- The arguments of `DumbUser::new`, and the keys that it gets. -/
structure Creation where
  directory : String
  username : String
  fancyname : Option String
  keys : Except Failure (String × String)
  faults : CreateFaults

/-- A user that is about to be stored. -/
structure NewUser where
  user : DumbUser
  blob : Bytes

def invalidPath : Failure := .bail "file name contained an unexpected NUL byte"

/-- An `io::Error` without context. -/
def ioFailure : Trouble IoFault → Failure
  | .refused r => .os (errnoOf r) ""
  | .failed e => .os e ""

/-- `fs::exists`. -/
def fsExists (v : Volume) (cwd : Place) (fault : Option IoFault) (path : Bytes) : Except Failure Bool :=
  if 0 ∈ path then .error invalidPath
  else match fault with
    | some e => .error (ioFailure (.failed e))
    | none => match v.lookup cwd true path with
      | .ok _ => .ok true
      | .error .missing => .ok false
      | .error r => .error (ioFailure (.refused r))

/-- `fs::read`. -/
def fsRead (v : Volume) (cwd : Place) (fault : Option IoFault) (path : Bytes) : Except Failure Bytes :=
  if 0 ∈ path then .error invalidPath else (v.read cwd fault path).mapError ioFailure

/-- `String::from_utf8`. -/
def fromUtf8 (content : Bytes) : Except Failure String :=
  match String.fromUTF8? ⟨content.toArray⟩ with
  | some s => .ok s
  | none => .error (.bail "invalid utf-8 sequence")

def ensureChars (username : String) : Except Failure Unit :=
  match verifyCharsUsername (ascii username) with
  | none => .error .panic
  | some false => .error (.bail "invalid characters in username")
  | some true => .ok ()

section Create
variable (v : Volume) (cwd : Place) (c : Creation)

/-- `DumbUser::new` before it makes anything. -/
def checkNew : Except Failure NewUser := do
  ensureChars c.username
  let userPath := createUserPath (ascii c.directory) (ascii c.username)
  if ← fsExists v cwd c.faults.metadata userPath then
    throw (.bail ("user " ++ c.username ++ " already exists"))
  let fancyname := c.fancyname.getD c.username
  let (publicKey, privateKey) ← c.keys
  let userBlob ← makeUser c.username privateKey
  let (result, userBlob) := userSetFancyName fancyname userBlob
  result
  return ⟨⟨c.username, fancyname, publicKey, userPath⟩, userBlob⟩

def Creation.pubkeyFile (n : NewUser) : FileWrite IoFault where
  path := createUserPubkeyPath (ascii c.directory) (ascii c.username)
  content := ascii n.user.pubkey
  fault := c.faults.pubkey

def Creation.fancynameFile (n : NewUser) : FileWrite IoFault where
  path := createUserFancynamePath (ascii c.directory) (ascii c.username)
  content := ascii n.user.fancyname
  fault := c.faults.fancyname

def Creation.blobFile (n : NewUser) : FileWrite IoFault where
  path := createUserBlobPath (ascii c.directory) (ascii c.username)
  content := n.blob
  fault := c.faults.blob

/-- The files in the order in which they are written. -/
def Creation.files (n : NewUser) : List (FileWrite IoFault) :=
  [c.pubkeyFile n, c.fancynameFile n, c.blobFile n]

/-- `fs::create_dir_all` of the path of the user. -/
def Creation.makePath : Except (Trouble IoFault) Unit × Volume :=
  let userPath := createUserPath (ascii c.directory) (ascii c.username)
  createDirAll c.faults.directories (startFrom cwd userPath) (components userPath).reverse v

def DumbUser.new : Except Failure DumbUser × Volume :=
  match checkNew v cwd c with
  | .error e => (.error e, v)
  | .ok n => match c.makePath v cwd with
    | (.error e, v) => (.error (ioFailure e), v)
    | (.ok (), v) => match Volume.writeAll cwd (c.files n) v with
      | (.error e, v) => (.error (ioFailure e), v)
      | (.ok (), v) => (.ok n.user, v)

/-- `DumbUser::get`, with how the two reads go. -/
def DumbUser.get (fancynameFault pubkeyFault : Option IoFault) (directory username : String) :
    Except Failure DumbUser := do
  ensureChars username
  let fancyname ← match fsRead v cwd fancynameFault
      (createUserFancynamePath (ascii directory) (ascii username)) with
    | .ok content => fromUtf8 content
    | .error e => if e = ioFailure (.refused .missing) then .ok username else .error e
  let content ← fsRead v cwd pubkeyFault (createUserPubkeyPath (ascii directory) (ascii username))
  let pubkey ← fromUtf8 content
  return ⟨username, fancyname, pubkey, createUserPath (ascii directory) (ascii username)⟩

/-- A call that fails changes nothing, and a user that is created is there. -/
structure AllOrNothing : Prop where
  nothing : ∀ e, (DumbUser.new v cwd c).1 = .error e → (DumbUser.new v cwd c).2 = v
  all : ∀ user, (DumbUser.new v cwd c).1 = .ok user →
    DumbUser.get (DumbUser.new v cwd c).2 cwd none none c.directory c.username = .ok user

/-- Nothing is begun that is not finished: no directory is made, or the path is made, and the files
are written and do not overwrite each other. -/
def Finishes (n : NewUser) : Prop :=
  (c.makePath v cwd).2 = v ∨
    (c.makePath v cwd).1 = .ok () ∧ (∀ w ∈ c.files n, (c.makePath v cwd).2.Writable cwd w) ∧
      (c.makePath v cwd).2.Apart cwd (c.files n)

/-- No call fails behind the one that makes the first directory. Only a path with a `..` behind
something that is missing can lead through files and links then: it has to be laid to its end, and the
files must have room there. -/
structure Undisturbed (n : NewUser) : Prop where
  grounded : Grounded v (startFrom cwd n.user.datapath) (components n.user.datapath).reverse →
    ∀ level, Makes c.faults.directories v (startFrom cwd n.user.datapath)
        (components n.user.datapath).reverse level →
      NoneFails c.faults.directories level (components n.user.datapath).length ∧
        ∀ w ∈ c.files n, ¬w.Fails
  climbing : ¬Grounded v (startFrom cwd n.user.datapath) (components n.user.datapath).reverse →
    ∀ level, Makes c.faults.directories v (startFrom cwd n.user.datapath)
        (components n.user.datapath).reverse level →
      ∃ w, Laid c.faults.directories v (startFrom cwd n.user.datapath) level
          (components n.user.datapath).reverse w ∧
        (∀ f ∈ c.files n, w.Writable cwd f) ∧ w.Apart cwd (c.files n)

end Create

section Checks
variable {v : Volume} {cwd : Place} {c : Creation} {n : NewUser}

theorem fromUtf8_eq_ok_iff {content : Bytes} {s : String} :
    fromUtf8 content = .ok s ↔ content = ascii s := by
  constructor
  · intro h
    rw [fromUtf8, String.fromUTF8?] at h
    split_ifs at h with hvalid
    cases h
    rfl
  · rintro rfl
    have hutf : String.fromUTF8? ⟨(ascii s).toArray⟩ = some s := dif_pos s.isValidUTF8
    rw [fromUtf8, hutf]

theorem ensureChars_eq_ok {username : String} (h : ensureChars username = .ok ()) :
    ∀ ch ∈ ascii username, ch ∈ DUMBOS_USER_ALLOWED_CHARS := by
  rw [ensureChars] at h
  cases hverify : verifyCharsUsername (ascii username) with
  | none =>
    rw [hverify] at h
    cases h
  | some clean => cases clean with
    | false =>
      rw [hverify] at h
      cases h
    | true => exact verifyCharsUsername_eq_true.mp hverify

theorem fsExists_eq_false {fault : Option IoFault} {path : Bytes}
    (h : fsExists v cwd fault path = .ok false) : 0 ∉ path ∧ v.lookup cwd true path = .error .missing := by
  unfold fsExists at h
  split_ifs at h with hnul
  refine ⟨hnul, ?_⟩
  cases fault with
  | some e => cases h
  | none =>
    dsimp only at h
    cases hlookup : v.lookup cwd true path with
    | ok p =>
      rw [hlookup] at h
      cases h
    | error r =>
      rw [hlookup] at h
      cases r with
      | missing => rfl
      | _ => cases h

/-- What is known of a user that is about to be stored. -/
structure Admitted (v : Volume) (cwd : Place) (c : Creation) (n : NewUser) : Prop where
  chars : ensureChars c.username = .ok ()
  path : n.user.datapath = createUserPath (ascii c.directory) (ascii c.username)
  name : n.user.name = c.username
  nul : 0 ∉ n.user.datapath
  missing : v.lookup cwd true n.user.datapath = .error .missing

theorem checkNew_eq_ok (h : checkNew v cwd c = .ok n) : Admitted v cwd c n := by
  rw [checkNew] at h
  obtain ⟨_, hchars, h⟩ := bind_eq_ok h
  obtain ⟨found, hexists, h⟩ := bind_eq_ok h
  cases found with
  | true => cases h
  | false =>
    obtain ⟨⟨publicKey, privateKey⟩, -, h⟩ := bind_eq_ok h
    obtain ⟨userBlob, -, h⟩ := bind_eq_ok h
    obtain ⟨_, -, h⟩ := bind_eq_ok h
    cases h
    obtain ⟨hnul, hmissing⟩ := fsExists_eq_false hexists
    exact ⟨hchars, rfl, rfl, hnul, hmissing⟩

theorem checkNew_of (hchars : ensureChars c.username = .ok ())
    (hexists : fsExists v cwd c.faults.metadata
      (createUserPath (ascii c.directory) (ascii c.username)) = .ok false)
    {publicKey privateKey : String} (hkeys : c.keys = .ok (publicKey, privateKey)) {blob blob' : Bytes}
    (hmake : makeUser c.username privateKey = .ok blob)
    (hset : userSetFancyName (c.fancyname.getD c.username) blob = (.ok (), blob')) :
    checkNew v cwd c = .ok ⟨⟨c.username, c.fancyname.getD c.username, publicKey,
      createUserPath (ascii c.directory) (ascii c.username)⟩, blob'⟩ := by
  rw [checkNew, hchars, hkeys]
  dsimp only
  rw [hexists]
  change (makeUser c.username privateKey >>= fun userBlob => _) = _
  rw [hmake]
  change ((userSetFancyName (c.fancyname.getD c.username) blob).1 >>= fun _ => _) = _
  rw [hset]
  rfl

theorem fsRead_eq (cwd : Place) {path file : Bytes} (h : 0 ∉ path) (hfile : 0 ∉ file) (v : Volume) :
    fsRead v cwd none (path ++ file) = (v.read cwd none (path ++ file)).mapError ioFailure := by
  rw [fsRead, if_neg]
  intro hmem
  rcases List.mem_append.mp hmem with hmem | hmem
  · exact h hmem
  · exact hfile hmem

theorem mapError_eq_ok_iff {α : Type} {r : Except (Trouble IoFault) α} {a : α} :
    r.mapError ioFailure = .ok a ↔ r = .ok a := by
  cases r <;> simp [Except.mapError]

/-- The user is read as it was made when both files are read back. -/
theorem get_eq_ok_iff (h : Admitted v cwd c n) (v' : Volume) {content : Bytes}
    (hcontent : v'.read cwd (none : Option IoFault)
      (createUserFancynamePath (ascii c.directory) (ascii c.username)) = .ok content) :
    DumbUser.get v' cwd none none c.directory c.username = .ok n.user ↔
      v'.read cwd (none : Option IoFault)
          (createUserPubkeyPath (ascii c.directory) (ascii c.username)) = .ok (ascii n.user.pubkey) ∧
        content = ascii n.user.fancyname := by
  have hnul := h.nul
  rw [h.path] at hnul
  have hfancy := fsRead_eq cwd hnul (by decide : 0 ∉ SERVER_USER_FANCYNAME_FILE) v'
  have hpubkey := fsRead_eq cwd hnul (by decide : 0 ∉ SERVER_USER_PUBKEY_FILE) v'
  rw [← createUserFancynamePath, hcontent] at hfancy
  rw [← createUserPubkeyPath] at hpubkey
  rw [DumbUser.get, h.chars, hfancy, hpubkey]
  change ((fromUtf8 content) >>= fun fancyname => Except.mapError ioFailure _ >>= fun content =>
    fromUtf8 content >>= fun pubkey => Except.ok (DumbUser.mk c.username fancyname pubkey _)) = _ ↔ _
  constructor
  · intro hget
    obtain ⟨fancyname, hfancyname, hget⟩ := bind_eq_ok hget
    obtain ⟨key, hkey, hget⟩ := bind_eq_ok hget
    obtain ⟨pubkey, hpubkey, hget⟩ := bind_eq_ok hget
    rw [fromUtf8_eq_ok_iff] at hfancyname hpubkey
    rw [mapError_eq_ok_iff] at hkey
    rw [← Except.ok.inj hget, hkey, hfancyname, hpubkey]
    exact ⟨rfl, rfl⟩
  · rintro ⟨hkey, hfancyname⟩
    rw [fromUtf8_eq_ok_iff.mpr hfancyname, hkey]
    change (fromUtf8 (ascii n.user.pubkey) >>= fun pubkey => _) = _
    rw [fromUtf8_eq_ok_iff.mpr rfl, ← h.path, ← h.name]
    rfl

end Checks

section Store
variable {v : Volume} {cwd : Place} {c : Creation} {n : NewUser}

theorem createUserPath_slash (directory : Bytes) {user : Bytes}
    (h : ∀ ch ∈ user, ch ∈ DUMBOS_USER_ALLOWED_CHARS) :
    ∃ s, createUserPath directory user = s ++ [slash] := by
  have hdata : USERDATA_PREFIX = ascii "user" ++ [slash] := by decide
  rw [createUserPath]
  split_ifs
  · exact ⟨withSlash directory ++ ascii "user", by rw [hdata, List.append_nil, List.append_assoc]⟩
  · refine ⟨withSlash directory ++ USERDATA_PREFIX ++ user, ?_⟩
    rw [withSlash_of_not_mem (slash_not_mem_user h), List.append_assoc _ user]
    rfl

/-- The path of the user is none of a directory yet. -/
theorem Admitted.isDir (h : Admitted v cwd c n) :
    v.isDir (startFrom cwd n.user.datapath) (components n.user.datapath).reverse = false := by
  rw [← Bool.not_eq_true]
  intro hdir
  have hne : n.user.datapath ≠ [] := by
    obtain ⟨s, hs⟩ := createUserPath_slash (ascii c.directory) (ensureChars_eq_ok h.chars)
    rw [h.path, hs]
    exact List.append_ne_nil_of_right_ne_nil s (List.cons_ne_nil slash [])
  obtain ⟨p, hlookup⟩ := lookup_of_isDir hne hdir
  rw [h.missing] at hlookup
  cases hlookup

section Outcome
variable {v' : Volume}

theorem allOrNothing_of_error {e : Failure} (hnew : DumbUser.new v cwd c = (.error e, v')) :
    AllOrNothing v cwd c ↔ v' = v := by
  constructor
  · intro hall
    have hnothing := hall.nothing e
    rw [hnew] at hnothing
    exact hnothing rfl
  · intro hsame
    refine ⟨fun _ _ => ?_, ?_⟩
    · rw [hnew]
      exact hsame
    · rw [hnew]
      rintro _ ⟨⟩

theorem allOrNothing_of_ok {user : DumbUser} (hnew : DumbUser.new v cwd c = (.ok user, v')) :
    AllOrNothing v cwd c ↔ DumbUser.get v' cwd none none c.directory c.username = .ok user := by
  constructor
  · intro hall
    have hget := hall.all user
    rw [hnew] at hget
    exact hget rfl
  · intro hget
    refine ⟨?_, fun other hother => ?_⟩
    · rw [hnew]
      rintro _ ⟨⟩
    · rw [hnew] at hother ⊢
      rw [← Except.ok.inj hother]
      exact hget

theorem new_of_makePath (h : checkNew v cwd c = .ok n) (hmake : c.makePath v cwd = (.ok (), v')) :
    DumbUser.new v cwd c = match Volume.writeAll cwd (c.files n) v' with
      | (.error e, v) => (.error (ioFailure e), v)
      | (.ok (), v) => (.ok n.user, v) := by
  rw [DumbUser.new, h]
  dsimp only
  rw [hmake]

/-- Three files that are written hold the user when they are apart. -/
theorem allOrNothing_of_writable (h : checkNew v cwd c = .ok n)
    (hmake : c.makePath v cwd = (.ok (), v')) (hwritable : ∀ w ∈ c.files n, v'.Writable cwd w) :
    AllOrNothing v cwd c ↔ v'.Apart cwd (c.files n) := by
  obtain ⟨v'', hwriteAll, hreads, hapart⟩ :=
    @writeAll_readBack IoFault [c.pubkeyFile n, c.fancynameFile n] v' cwd (c.blobFile n) hwritable
  have hfiles : Volume.writeAll cwd (c.files n) v' = (.ok (), v'') := hwriteAll
  have hnew := new_of_makePath h hmake
  rw [hfiles] at hnew
  obtain ⟨content, hcontent⟩ := hreads (c.fancynameFile n) (by simp)
  change _ ↔ v'.Apart cwd ([c.pubkeyFile n, c.fancynameFile n] ++ [c.blobFile n])
  rw [allOrNothing_of_ok hnew, get_eq_ok_iff (checkNew_eq_ok h) v'' hcontent, ← hapart,
    List.forall_mem_cons, List.forall_mem_singleton, hcontent, Except.ok.injEq]
  rfl

end Outcome

/-- A call that gets past its checks is all or nothing when it finishes what it begins. -/
theorem allOrNothing_iff_finishes (hcwd : v.node cwd = some .directory)
    (h : checkNew v cwd c = .ok n) : AllOrNothing v cwd c ↔ Finishes v cwd c n := by
  have hadmitted := checkNew_eq_ok h
  have hkept : Kept v (startFrom cwd n.user.datapath) (components n.user.datapath).reverse
      (c.makePath v cwd) := by
    rw [Creation.makePath, ← hadmitted.path]
    exact createDirAll_kept c.faults.directories (Volume.startFrom_directory hcwd _) _
  rw [Finishes]
  cases hmake : c.makePath v cwd with | mk result v' =>
  rw [hmake] at hkept
  dsimp only
  cases result with
  | error e =>
    have hnew : DumbUser.new v cwd c = (.error (ioFailure e), v') := by
      rw [DumbUser.new, h]
      dsimp only
      rw [hmake]
    rw [allOrNothing_of_error hnew, or_iff_left]
    rintro ⟨⟨⟩, -⟩
  | ok u =>
    have hchanged : v' ≠ v := by
      rintro rfl
      exact Bool.false_ne_true (hadmitted.isDir.symm.trans (hkept.isDir rfl))
    rw [or_iff_right hchanged, and_iff_right rfl]
    by_cases hwritable : ∀ w ∈ c.files n, v'.Writable cwd w
    · rw [allOrNothing_of_writable h hmake hwritable, and_iff_right hwritable]
    · obtain ⟨e, v'', hwriteAll, hrefilled⟩ := writeAll_of_not hwritable
      have hnew := new_of_makePath h hmake
      rw [hwriteAll] at hnew
      refine iff_of_false ?_ fun hall => hwritable hall.1
      rw [allOrNothing_of_error hnew]
      rintro rfl
      -- the first directory that was made is still there
      obtain ⟨p, hp, hp'⟩ := (hkept.grown.resolve_left hchanged).adds
      exact hrefilled.ne_none hp' hp

/-- In a new directory the files have places of their own with nothing there. -/
theorem opens_of_fresh {v' : Volume} (hadmitted : Admitted v cwd c n)
    (hcwd : v'.node cwd = some .directory)
    (hfresh : Fresh v' (startFrom cwd n.user.datapath) (components n.user.datapath).reverse) :
    ∃ p, ∀ name, Proper name →
      v'.Opens cwd (createUserPath (ascii c.directory) (ascii c.username) ++ name) (name :: p) ∧
        v'.node (name :: p) = none := by
  obtain ⟨s, hs⟩ := createUserPath_slash (ascii c.directory) (ensureChars_eq_ok hadmitted.chars)
  rw [hadmitted.path, hs] at hfresh
  rw [hs]
  exact Fresh.opens hcwd hfresh

theorem files_of_fresh {v' : Volume} (hadmitted : Admitted v cwd c n)
    (hcwd : v'.node cwd = some .directory)
    (hfresh : Fresh v' (startFrom cwd n.user.datapath) (components n.user.datapath).reverse) :
    ∀ w ∈ c.files n, ∃ p, v'.Opens cwd w.path p ∧ v'.node p = none := by
  obtain ⟨p, hopens⟩ := opens_of_fresh hadmitted hcwd hfresh
  intro w hw
  rw [Creation.files, List.mem_cons, List.mem_cons, List.mem_singleton] at hw
  rcases hw with rfl | rfl | rfl
  · exact ⟨_, hopens SERVER_USER_PUBKEY_FILE ⟨by decide, by decide, by decide, by decide⟩⟩
  · exact ⟨_, hopens SERVER_USER_FANCYNAME_FILE ⟨by decide, by decide, by decide, by decide⟩⟩
  · exact ⟨_, hopens SERVER_USER_BLOB_FILE ⟨by decide, by decide, by decide, by decide⟩⟩

/-- In a new directory the files can be written but for failures of their own, and are apart. -/
theorem writable_of_fresh {v' : Volume} (hadmitted : Admitted v cwd c n)
    (hcwd : v'.node cwd = some .directory)
    (hfresh : Fresh v' (startFrom cwd n.user.datapath) (components n.user.datapath).reverse) :
    ((∀ w ∈ c.files n, v'.Writable cwd w) ↔ ∀ w ∈ c.files n, ¬w.Fails) ∧ v'.Apart cwd (c.files n) := by
  obtain ⟨p, hopens⟩ := opens_of_fresh hadmitted hcwd hfresh
  have hpubkey := (hopens SERVER_USER_PUBKEY_FILE ⟨by decide, by decide, by decide, by decide⟩).1
  have hfancyname := (hopens SERVER_USER_FANCYNAME_FILE ⟨by decide, by decide, by decide, by decide⟩).1
  have hblob := (hopens SERVER_USER_BLOB_FILE ⟨by decide, by decide, by decide, by decide⟩).1
  constructor
  · refine forall₂_congr fun w hw => and_iff_right ?_
    obtain ⟨q, hplace, -⟩ := files_of_fresh hadmitted hcwd hfresh w hw
    exact ⟨q, hplace⟩
  · have hne : ∀ {w w' : FileWrite IoFault} {name name' : Bytes}, v'.lookup cwd true w.path = .ok (name :: p) →
        v'.lookup cwd true w'.path = .ok (name' :: p) → name ≠ name' →
        v'.lookup cwd true w.path = v'.lookup cwd true w'.path → w.content = w'.content := by
      intro w w' name name' hw hw' hname hsame
      rw [hw, hw', Except.ok.injEq, List.cons.injEq] at hsame
      exact absurd hsame.1 hname
    rw [Volume.Apart, Creation.files, List.pairwise_cons, List.forall_mem_cons, List.forall_mem_singleton,
      List.pairwise_pair]
    exact ⟨⟨hne hpubkey.lookup hfancyname.lookup (by decide), hne hpubkey.lookup hblob.lookup (by decide)⟩,
      hne hfancyname.lookup hblob.lookup (by decide)⟩

theorem makePath_outcome (hcwd : v.node cwd = some .directory) (hadmitted : Admitted v cwd c n)
    (hgrounded : Grounded v (startFrom cwd n.user.datapath) (components n.user.datapath).reverse) :
    PathOutcome c.faults.directories v (startFrom cwd n.user.datapath)
      (components n.user.datapath).reverse (c.makePath v cwd) := by
  obtain ⟨ups, base, hsplit, hbase, hdots⟩ := hgrounded
  have hmissing := hadmitted.isDir
  rw [Creation.makePath, ← hadmitted.path, hsplit] at *
  exact createDirAll_outcome _ (Volume.startFrom_directory hcwd _) hbase hdots hmissing

/-- On an ordinary path what is begun is finished unless a call fails behind the first directory. -/
theorem finishes_iff_of_grounded (hcwd : v.node cwd = some .directory)
    (h : checkNew v cwd c = .ok n)
    (hgrounded : Grounded v (startFrom cwd n.user.datapath) (components n.user.datapath).reverse) :
    Finishes v cwd c n ↔ ∀ level, Makes c.faults.directories v (startFrom cwd n.user.datapath)
        (components n.user.datapath).reverse level →
      NoneFails c.faults.directories level (components n.user.datapath).length ∧
        ∀ w ∈ c.files n, ¬w.Fails := by
  have hadmitted := checkNew_eq_ok h
  rcases makePath_outcome hcwd hadmitted hgrounded with ⟨hnever, e, hmake⟩ | ⟨level, hmakes, hgrown, hmade⟩
  · refine iff_of_true (.inl ?_) fun level hmakes => absurd hmakes (hnever level)
    rw [hmake]
  rw [List.length_reverse] at hmade
  rw [Finishes, or_iff_right hgrown.ne]
  rcases hmade with ⟨hnone, hok, hfresh⟩ | ⟨hfails, e, he⟩
  · have hcwd' : (c.makePath v cwd).2.node cwd = some .directory := hgrown.keeps.node hcwd
    obtain ⟨hwritable, hapart⟩ := writable_of_fresh hadmitted hcwd' hfresh
    rw [and_iff_right hok, and_iff_left hapart, hwritable]
    constructor
    · intro hfiles level' hmakes'
      obtain rfl := hmakes.unique hmakes'
      exact ⟨hnone, hfiles⟩
    · exact fun hall => (hall level hmakes).2
  · refine iff_of_false ?_ fun hall => hfails (hall level hmakes).1
    rintro ⟨hok, -⟩
    rw [he] at hok
    cases hok

/-- On any path what is begun is finished if the path is laid and the files have room there. -/
theorem finishes_iff_laid (hcwd : v.node cwd = some .directory) (h : checkNew v cwd c = .ok n) :
    Finishes v cwd c n ↔ ∀ level, Makes c.faults.directories v (startFrom cwd n.user.datapath)
        (components n.user.datapath).reverse level →
      ∃ w, Laid c.faults.directories v (startFrom cwd n.user.datapath) level
          (components n.user.datapath).reverse w ∧
        (∀ f ∈ c.files n, w.Writable cwd f) ∧ w.Apart cwd (c.files n) := by
  have hadmitted := checkNew_eq_ok h
  have houtcome : LaidOutcome c.faults.directories v (startFrom cwd n.user.datapath)
      (components n.user.datapath).reverse (c.makePath v cwd) := by
    have hmissing := hadmitted.isDir
    rw [Creation.makePath, ← hadmitted.path]
    exact createDirAll_laid _ (Volume.startFrom_directory hcwd _) hmissing
  rw [Finishes]
  generalize c.makePath v cwd = made at houtcome
  rcases houtcome with ⟨hnever, e, rfl⟩ | ⟨level, hmakes, hgrown, hlaid⟩
  · exact iff_of_true (.inl rfl) fun level hmakes => absurd hmakes (hnever level)
  rw [or_iff_right hgrown.ne]
  constructor
  · rintro ⟨hok, hroom⟩ level' hmakes'
    obtain rfl := hmakes.unique hmakes'
    exact ⟨made.2, (hlaid made.2).mp (Prod.ext hok rfl), hroom⟩
  · intro hall
    obtain ⟨w, hw, hroom⟩ := hall level hmakes
    obtain rfl := (hlaid w).mpr hw
    exact ⟨rfl, hroom⟩

end Store

/-- Creating a user is all or nothing unless a call fails behind the one that makes the first
directory. -/
theorem new_allOrNothing_iff (v : Volume) (cwd : Place) (c : Creation)
    (hcwd : v.node cwd = some .directory) :
    AllOrNothing v cwd c ↔ ∀ n, checkNew v cwd c = .ok n → Undisturbed v cwd c n := by
  cases h : checkNew v cwd c with
  | error e =>
    have hnew : DumbUser.new v cwd c = (.error e, v) := by rw [DumbUser.new, h]
    rw [allOrNothing_of_error hnew]
    exact iff_of_true rfl (by rintro _ ⟨⟩)
  | ok n =>
    rw [allOrNothing_iff_finishes hcwd h]
    simp only [Except.ok.injEq, forall_eq']
    constructor
    · intro hfinishes
      exact ⟨fun hgrounded => (finishes_iff_of_grounded hcwd h hgrounded).mp hfinishes,
        fun _ => (finishes_iff_laid hcwd h).mp hfinishes⟩
    · intro hundisturbed
      by_cases hgrounded : Grounded v (startFrom cwd n.user.datapath)
          (components n.user.datapath).reverse
      · exact (finishes_iff_of_grounded hcwd h hgrounded).mpr (hundisturbed.grounded hgrounded)
      · exact (finishes_iff_laid hcwd h).mpr (hundisturbed.climbing hgrounded)

def bareNode (p : Place) : Option Node := if p = [] then some .directory else none

theorem bareNode_inside (name : Bytes) (dir : Place) (h : bareNode (name :: dir) ≠ none) :
    bareNode dir = some .directory := absurd (if_neg (List.cons_ne_nil name dir)) h

/-- Nothing but the root. -/
def bareVolume : Volume := ⟨bareNode, rfl, bareNode_inside⟩

theorem enomem_ne_enoent : ENOMEM ≠ ENOENT := by decide

/-- A user in the root, and how the write of its key goes. -/
def someone (pubkey : Option (WriteFault IoFault)) : Creation where
  directory := "/"
  username := "u"
  fancyname := none
  keys := .ok (String.ofList (List.replicate 64 'a'), String.ofList (List.replicate 64 'b'))
  faults := ⟨none, ⟨fun _ => ⟨none, false⟩, fun _ => ⟨none, false⟩⟩, pubkey, none, none⟩

section Someone
variable (pubkey : Option (WriteFault IoFault))

theorem checkNew_someone : ∃ n, checkNew bareVolume [] (someone pubkey) = .ok n := by
  have hchars : ensureChars "u" = .ok () := by decide +kernel
  have hexists : fsExists bareVolume [] none (createUserPath (ascii "/") (ascii "u")) = .ok false := by
    decide +kernel
  have hname : ∀ ch ∈ ascii "u", ch ≠ 0 := by decide +kernel
  have hkey : ∀ ch ∈ ascii (String.ofList (List.replicate 64 'b')), ch ≠ 0 := by decide +kernel
  have hmake := makeUser_eq_ok hname (by decide) hkey (by decide +kernel)
  have hset := userSetFancyName_toBytes hname
    (.ofNameAndKey (ascii "u") (ascii (String.ofList (List.replicate 64 'b'))))
  rw [dumbosSetFancyName_eq, if_pos (by decide)] at hset
  exact ⟨_, @checkNew_of bareVolume [] (someone pubkey) hchars hexists _ _ rfl _ _ hmake hset⟩

theorem grounded_someone : Grounded bareVolume (startFrom [] (createUserPath (ascii "/") (ascii "u")))
    (components (createUserPath (ascii "/") (ascii "u"))).reverse :=
  ⟨_, [], (List.append_nil _).symm, by decide +kernel, by decide +kernel⟩

end Someone

/-- Without a failure the user is created. -/
theorem new_allOrNothing_calm : AllOrNothing bareVolume [] (someone none) := by
  refine (new_allOrNothing_iff bareVolume [] (someone none) rfl).mpr fun n hn => ?_
  have hpath : n.user.datapath = createUserPath (ascii "/") (ascii "u") := (checkNew_eq_ok hn).path
  refine ⟨fun _ level _ => ⟨fun i _ _ => rfl, ?_⟩, fun hclimbing => absurd ?_ hclimbing⟩
  · intro w hw
    rw [Creation.files, List.mem_cons, List.mem_cons, List.mem_singleton] at hw
    rcases hw with rfl | rfl | rfl <;> exact not_false
  · rw [hpath]
    exact grounded_someone

/-- The file of the key cannot be opened, and the directory of the user stays. -/
theorem not_new_allOrNothing : ¬∀ (v : Volume) (cwd : Place) (c : Creation),
    v.node cwd = some .directory → AllOrNothing v cwd c := by
  intro h
  have hall := h bareVolume [] (someone (some (.opening ⟨ENOMEM, enomem_ne_enoent⟩))) rfl
  obtain ⟨n, hn⟩ := checkNew_someone (some (.opening ⟨ENOMEM, enomem_ne_enoent⟩))
  have hpath : n.user.datapath = createUserPath (ascii "/") (ascii "u") := (checkNew_eq_ok hn).path
  rw [allOrNothing_iff_finishes rfl hn, finishes_iff_of_grounded rfl hn
    (by rw [hpath]; exact grounded_someone), hpath] at hall
  have hmakes : firstToMake bareVolume (startFrom [] (createUserPath (ascii "/") (ascii "u")))
      (components (createUserPath (ascii "/") (ascii "u"))).reverse = some 1 := by
    decide +kernel
  exact (hall 1 ⟨hmakes, fun i _ _ => rfl⟩).2 _ List.mem_cons_self trivial

end Dumbos.System
