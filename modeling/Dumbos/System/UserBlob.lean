import Dumbos.Common.Hex
import Dumbos.RustTool.Representation
import Dumbos.System.NewUser

/-! # A user from the tool to the device

The tool makes a blob of a name, a key and a display name, and sends it in hex as
the argument of `set_name`. What the device reads from the copy of init are the
same three, the user name standing in for an empty display name.
-/
namespace Dumbos.System
open Foundation Common Payload Request Daemon RustTool

def makeUser (username privKey : String) : Except Failure Bytes := do
  let user ← cString username
  let key ← cString privKey
  let data ← withContext "dumbos_alloc_new_user() failed" (dumbosAllocNewUser user key)
  return data.toBytes

def userSetFancyName (fancyName : String) (userData : Bytes) : Except Failure Unit × Bytes :=
  match cString fancyName with
  | .error e => (.error e, userData)
  | .ok name =>
    if h : userData.length = sizeofDumbosUserData then
      let (status, data) := dumbosSetFancyName name (DumbosUserData.ofBytes userData h.ge)
      (withContext "dumbos_set_fancy_name() failed" status, data.toBytes)
    else (.error (.bail "user_set_fancy_name(): recieved invalid data"), userData)

/-- Every call that `set_name` makes succeeds. -/
structure NothingFails (D : Device) (s : State) (size : ℕ) : Prop where
  malloc : 0 ≤ (D.reply s.ticks).ret
  userFile : D.userFile (s.ticks + 1) = .error ENOENT
  opened : 0 ≤ (D.reply (s.ticks + 2)).ret
  written : (D.reply (s.ticks + 3)).ret = size
  flushed : (D.reply (s.ticks + 4)).ret = size
  setprop : (D.reply (s.ticks + 5)).ret = 0

section Fields
variable {name key fancy : Bytes} {user : DumbosUserData}

/-- The user with these strings. -/
structure Reads (name key fancy : Bytes) (user : DumbosUserData) : Prop where
  name_eq : user.name = name
  key_eq : user.key = key
  fancy_eq : dumbosGetFancyName user = if fancy = [] then name else fancy

theorem cstr_snprintf {n : ℕ} (old : Foundation.Field (n + 1)) {s : Bytes} (hs : ∀ c ∈ s, c ≠ 0)
    (hlen : s.length ≤ n) : cstr (Foundation.Field.snprintf old s).val = s := by
  change cstr (splice 0 (s.take n ++ [0]) old.val) = s
  rw [splice, List.take_zero, List.nil_append, List.take_of_length_le hlen, List.append_assoc]
  exact cstr_append_nul hs _

/-- The tool refuses a display name by its length alone. -/
theorem dumbosSetFancyName_eq (fancy : Bytes) (data : DumbosUserData) :
    dumbosSetFancyName fancy data =
      if fancy.length ≤ 64 then
        (.ok (), { data with
          fancyName := Foundation.Field.snprintf data.fancyName fancy, fancyNullByte := 0 })
      else (.error E2BIG, data) := by
  rw [dumbosSetFancyName]
  simp only [DUMBOS_USERNAME_MAXLEN]
  by_cases hlen : fancy.length ≤ 64
  · rw [if_pos hlen, if_neg (by omega)]
  · rw [if_neg hlen, if_pos (by omega)]

/-- What the device reads from the struct of the tool. -/
theorem reads_ofNameAndKey (hname : ∀ c ∈ name, c ≠ 0) (hnameLen : name.length ≤ 63)
    (hkey : ∀ c ∈ key, c ≠ 0) (hkeyLen : key.length = 64) (hfancy : ∀ c ∈ fancy, c ≠ 0)
    (hfancyLen : fancy.length ≤ 64) :
    Reads name key fancy (dumbosSetFancyName fancy (.ofNameAndKey name key)).2.terminate := by
  have huser : cstr ((Foundation.Field.print 63 name).val ++ [0]) = name := by
    rw [cstr_append_singleton_zero, Foundation.Field.cstr_print 63 hname,
      List.take_of_length_le hnameLen]
  have hcut : (Foundation.Field.print 64 key).val.take 64 = key := by
    change (key.take 64 ++ List.replicate _ 0).take 64 = key
    rw [List.take_of_length_le hkeyLen.le, List.take_left' hkeyLen]
  have hshown : cstr ((Foundation.Field.snprintf (Foundation.Field.zero 127) fancy).val ++ [0]) =
      fancy := by
    rw [cstr_append_singleton_zero]
    exact cstr_snprintf _ hfancy (by omega)
  rw [dumbosSetFancyName_eq, if_pos hfancyLen]
  refine ⟨huser, ?_, ?_⟩
  · change cstr ((Foundation.Field.print 64 key).val.take 64 ++ [0]) = key
    rw [hcut, cstr_append_singleton_zero, cstr_eq_self hkey]
  · have hend : ¬(0 : UInt8) ≠ 0 := not_not.mpr rfl
    change (if (0 : UInt8) ≠ 0 then cstr ((Foundation.Field.print 63 name).val ++ [0])
      else if cstr ((Foundation.Field.snprintf (Foundation.Field.zero 127) fancy).val ++ [0]) = []
        then cstr ((Foundation.Field.print 63 name).val ++ [0])
      else cstr ((Foundation.Field.snprintf (Foundation.Field.zero 127) fancy).val ++ [0])) = _
    rw [if_neg hend, hshown, huser]

end Fields

section Device
variable {D : Device} {s : State}

theorem hexToBuf_mallocBufToHex (charSigned : Bool) (buf : Bytes) :
    hexToBuf charSigned (Hex.mallocBufToHex buf) = some buf := by
  rw [hexToBuf, Hex.mallocBufToHex_length, if_neg (by omega), Hex.hexPairs_mallocBufToHex]

/-- Without a user and without a failing call `set_name` succeeds. -/
theorem cmdSetname_succeeds {hex data : Bytes} (h : hexToBuf D.charSigned hex = some data)
    (hnothing : NothingFails D s data.length) (args : List Bytes) :
    (cmdSetname (overStore D none) (hex :: args) s).1 = 0 := by
  have hnone : (overStore D none).userFile (s.ticks + 1) = .error ENOENT := by
    simp [overStore, userFile, hnothing.userFile]
  have huser : allocGetUser (overStore D none) { s with ticks := s.ticks + 1 } =
      (.error ENOENT, { s with ticks := s.ticks + 2 }) := by
    simp only [allocGetUser, hnone]
    rfl
  rw [cmdSetname, bind_run, @mallocHexToBuf_run (overStore D none) hex data s h hnothing.malloc]
  dsimp only
  rw [bind_run, huser]
  dsimp only
  rw [if_neg (not_not.mpr rfl)]
  exact @writeNewUser_run (overStore D none) data { s with ticks := s.ticks + 2 }
    hnothing.opened hnothing.written hnothing.setprop

end Device

section Tool
variable {name key fancy : String}

theorem makeUser_eq_ok (hname : ∀ c ∈ ascii name, c ≠ 0) (hnameLen : (ascii name).length ≤ 63)
    (hkey : ∀ c ∈ ascii key, c ≠ 0) (hkeyLen : (ascii key).length = 64) :
    makeUser name key = .ok (DumbosUserData.ofNameAndKey (ascii name) (ascii key)).toBytes := by
  have hnew : dumbosAllocNewUser (ascii name) (ascii key) =
      .ok (.ofNameAndKey (ascii name) (ascii key)) := by
    rw [dumbosAllocNewUser, if_neg (by simpa using hnameLen), if_neg (by simp [hkeyLen])]
  rw [makeUser, cString_eq_ok hname, cString_eq_ok hkey]
  change (withContext _ (dumbosAllocNewUser (ascii name) (ascii key))).bind _ = _
  rw [hnew]
  rfl

/-- The tool works on the struct that the bytes are. -/
theorem userSetFancyName_toBytes (hfancy : ∀ c ∈ ascii fancy, c ≠ 0) (user : DumbosUserData) :
    userSetFancyName fancy user.toBytes =
      (withContext "dumbos_set_fancy_name() failed" (dumbosSetFancyName (ascii fancy) user).1,
        (dumbosSetFancyName (ascii fancy) user).2.toBytes) := by
  rw [userSetFancyName, cString_eq_ok hfancy]
  dsimp only
  rw [dif_pos user.toBytes_length, user.ofBytes_toBytes]

theorem toBytes_hex_sendable (user : DumbosUserData) : Sendable (Hex.mallocBufToHex user.toBytes) where
  short := by
    rw [Hex.mallocBufToHex_length, user.toBytes_length]
    decide
  string := by
    rintro c hc rfl
    exact absurd (Hex.mallocBufToHex_digits _ 0 hc) (by decide)

theorem dumbosAllocGetUser_toBytes {user : DumbosUserData}
    (h : user.magic.val = DUMBOS_USER_DATA_MAGIC) :
    dumbosAllocGetUser (.ok user.toBytes) = .ok user.terminate := by
  have hmagic : user.toBytes.take DUMBOS_USER_DATA_MAGIC_SIZE = DUMBOS_USER_DATA_MAGIC := by
    rw [DumbosUserData.toBytes, List.take_left' user.magic.property, h]
  rw [dumbosAllocGetUser_eq_ok user.toBytes_length.ge hmagic, user.ofBytes_toBytes]

end Tool

section Stored
variable {user : DumbosUserData} {c : SetName}

theorem setNameStep_take (hhead : c.args.head? = some (Hex.mallocBufToHex user.toBytes))
    (hzero : (setNameStep none c).1 = 0) :
    (setNameStep none c).2 = some (user.toBytes.take c.kept) := by
  rcases setNameStep_unset c with ⟨hne, -⟩ | ⟨-, hex, hhex, data, hdata, hstore⟩
  · exact absurd hzero hne
  · obtain rfl := Option.some.inj (hhead.symm.trans hhex)
    rw [hexToBuf_mallocBufToHex] at hdata
    obtain rfl := Option.some.inj hdata
    exact hstore

/-- The argument of a command that succeeds and keeps it is read as the user. -/
theorem setNameStep_toBytes (h : user.magic.val = DUMBOS_USER_DATA_MAGIC)
    (hhead : c.args.head? = some (Hex.mallocBufToHex user.toBytes))
    (hzero : (setNameStep none c).1 = 0) (hkept : user.toBytes.length ≤ c.kept) :
    dumbosAllocGetUser (userFile (setNameStep none c).2) = .ok user.terminate := by
  rw [setNameStep_take hhead hzero, List.take_of_length_le hkept]
  exact dumbosAllocGetUser_toBytes h

/-- A part of the argument is not read as a user. -/
theorem setNameStep_kept (hhead : c.args.head? = some (Hex.mallocBufToHex user.toBytes))
    (hzero : (setNameStep none c).1 = 0) (hread : Readable (setNameStep none c).2) :
    user.toBytes.length ≤ c.kept := by
  rw [setNameStep_take hhead hzero] at hread
  have hsize := ((dumbosAllocGetUser_ok_iff (user.toBytes.take c.kept)).mp hread).1
  rw [List.length_take] at hsize
  rw [user.toBytes_length]
  exact hsize.trans (min_le_left _ _)

end Stored

/-- The blob of a user that is set on a device without one is read back, whatever the lengths of the
names that the tool accepts. -/
theorem userBlob_roundTrip {name key fancy : String}
    (hname : ∀ c ∈ ascii name, c ∈ DUMBOS_USER_ALLOWED_CHARS) (hnameLen : (ascii name).length ≤ 63)
    (hkey : ∀ c ∈ ascii key, (hexDigitValue c).isSome) (hkeyLen : (ascii key).length = 64)
    (hfancy : ∀ c ∈ ascii fancy, c ≠ 0) :
    ∃ blob, makeUser name key = .ok blob ∧
      ((userSetFancyName fancy blob).1 = .ok () ↔ (ascii fancy).length ≤ 64) ∧
      ∀ blob', userSetFancyName fancy blob = (.ok (), blob') →
        Sendable (Hex.mallocBufToHex blob') ∧
        ∀ c : SetName, c.args.head? = some (Hex.mallocBufToHex blob') →
          (NothingFails c.device c.state blob'.length →
            (setNameStep none c).1 = 0 ∧ blob'.length ≤ c.kept) ∧
          ((setNameStep none c).1 = 0 → blob'.length ≤ c.kept →
            ∃ user, dumbosAllocGetUser (userFile (setNameStep none c).2) = .ok user ∧
              Reads (ascii name) (ascii key) (ascii fancy) user) := by
  have hnameNul : ∀ c ∈ ascii name, c ≠ 0 := by
    rintro c hc rfl
    exact absurd (hname 0 hc) (by decide)
  have hkeyNul : ∀ c ∈ ascii key, c ≠ 0 := by
    rintro c hc rfl
    exact absurd (hkey 0 hc) (by decide)
  have hset := userSetFancyName_toBytes hfancy (.ofNameAndKey (ascii name) (ascii key))
  refine ⟨_, makeUser_eq_ok hnameNul hnameLen hkeyNul hkeyLen, ?_, ?_⟩
  · rw [hset, dumbosSetFancyName_eq]
    split_ifs with hlen
    · exact iff_of_true rfl hlen
    · exact iff_of_false (by rintro ⟨⟩) hlen
  intro blob' hblob
  rw [hset] at hblob
  obtain ⟨hok, rfl⟩ := Prod.mk.inj hblob
  have hfancyLen : (ascii fancy).length ≤ 64 := by
    by_contra hlong
    rw [dumbosSetFancyName_eq, if_neg hlong] at hok
    cases hok
  refine ⟨toBytes_hex_sendable _, ?_⟩
  intro c hhead
  constructor
  · intro hnothing
    obtain ⟨args, hargs⟩ := List.head?_eq_some_iff.mp hhead
    constructor
    · change (cmdSetname (overStore c.device none) c.args c.state).1 = 0
      rw [hargs]
      exact cmdSetname_succeeds (hexToBuf_mallocBufToHex _ _) hnothing args
    · rw [SetName.kept, hnothing.flushed]
      exact le_rfl
  · intro hzero hkept
    refine ⟨_, setNameStep_toBytes ?_ hhead hzero hkept,
      reads_ofNameAndKey hnameNul hnameLen hkeyNul hkeyLen hfancy hfancyLen⟩
    rw [dumbosSetFancyName_eq, if_pos hfancyLen]
    rfl

/-- A user whose display name is the user name. -/
theorem userBlob_roundTrip_noFancyName : ∃ blob blob' user,
    makeUser "u" (String.ofList (List.replicate 64 'a')) = .ok blob ∧
      userSetFancyName "" blob = (.ok (), blob') ∧
      dumbosAllocGetUser (userFile
        (setNameStep none (setNameCommand blob'.length (Hex.mallocBufToHex blob'))).2) = .ok user ∧
      Reads (ascii "u") (List.replicate 64 97) [] user := by
  obtain ⟨blob, hblob, hset, hread⟩ := @userBlob_roundTrip "u" (String.ofList (List.replicate 64 'a')) ""
    (by decide +kernel) (by decide +kernel) (by decide +kernel) (by decide +kernel) (by decide +kernel)
  have hpair : userSetFancyName "" blob = (.ok (), (userSetFancyName "" blob).2) :=
    Prod.ext (hset.mpr (by decide)) rfl
  obtain ⟨-, hcommand⟩ := hread _ hpair
  have hbound := hcommand (setNameCommand (userSetFancyName "" blob).2.length
    (Hex.mallocBufToHex (userSetFancyName "" blob).2)) rfl
  obtain ⟨hzero, hkept⟩ := hbound.1 ⟨le_rfl, rfl, le_rfl, rfl, rfl, rfl⟩
  obtain ⟨user, huser, hreads⟩ := hbound.2 hzero hkept
  exact ⟨blob, _, user, hblob, hpair, huser, hreads⟩

end Dumbos.System
