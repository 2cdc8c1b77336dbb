import Dumbos.Request.Signing

/-! # The user of a device

The blob that the server makes and the device stores: a magic, the name, a display
name and the private key, each in a field of fixed size. Two bytes behind the names
end them; loading sets the first and takes the second as it is.
-/
namespace Dumbos.Request
open Foundation Common Payload

@[simp] abbrev DUMBOS_USERNAME_MAXLEN : ℕ := 64
@[simp] abbrev DUMBOS_FANCY_NAME_MAXLEN : ℕ := 127
@[simp] abbrev DUMBOS_USER_DATA_MAGIC_SIZE : ℕ := 16
@[simp] abbrev sizeofDumbosUserData : ℕ := 274

def DUMBOS_USER_DATA_MAGIC : Bytes := ascii "dp2js9chakqkqe1" ++ [0]

def REQUEST_ID_LEN : ℕ := 64

@[ext] structure DumbosUserData where
  magic : Field DUMBOS_USER_DATA_MAGIC_SIZE
  username : Field DUMBOS_USERNAME_MAXLEN
  nullByte : UInt8
  fancyName : Field DUMBOS_FANCY_NAME_MAXLEN
  fancyNullByte : UInt8
  privKeyHex : Field ED25519_PRIVATE_KEY_HEX_SIZE

namespace DumbosUserData

def ofBytes (b : Bytes) (h : sizeofDumbosUserData ≤ b.length) : DumbosUserData where
  magic := ⟨slice 0 16 b, slice_length (le_trans (by decide) h)⟩
  username := ⟨slice 16 64 b, slice_length (le_trans (by decide) h)⟩
  nullByte := (slice 80 1 b).headD 0
  fancyName := ⟨slice 81 127 b, slice_length (le_trans (by decide) h)⟩
  fancyNullByte := (slice 208 1 b).headD 0
  privKeyHex := ⟨slice 209 65 b, slice_length (le_trans (by decide) h)⟩

def toBytes (user : DumbosUserData) : Bytes :=
  user.magic.val ++ (user.username.val ++ ([user.nullByte] ++ (user.fancyName.val ++
    ([user.fancyNullByte] ++ user.privKeyHex.val))))

@[simp] theorem toBytes_length (user : DumbosUserData) :
    user.toBytes.length = sizeofDumbosUserData := by
  simp only [toBytes, List.length_append, List.length_singleton, user.magic.property,
    user.username.property, user.fancyName.property, user.privKeyHex.property]
  rfl

/-- A struct is read back from its bytes. -/
theorem ofBytes_toBytes (user : DumbosUserData) (h : sizeofDumbosUserData ≤ user.toBytes.length) :
    ofBytes user.toBytes h = user := by
  obtain ⟨⟨magic, hmagic⟩, ⟨username, husername⟩, nullByte, ⟨fancy, hfancy⟩, fancyNullByte,
    ⟨key, hkey⟩⟩ := user
  set b := toBytes ⟨⟨magic, hmagic⟩, ⟨username, husername⟩, nullByte, ⟨fancy, hfancy⟩, fancyNullByte,
    ⟨key, hkey⟩⟩ with hb
  have hparts : b = magic ++ (username ++ ([nullByte] ++ (fancy ++ ([fancyNullByte] ++ key)))) := rfl
  have hfields : slice 0 16 b = magic ∧ slice 16 64 b = username ∧ slice 80 1 b = [nullByte] ∧
      slice 81 127 b = fancy ∧ slice 208 1 b = [fancyNullByte] ∧ slice 209 65 b = key := by
    have h80 : (magic ++ username).length = 80 := by simp [hmagic, husername]
    have h81 : (magic ++ username ++ [nullByte]).length = 81 := by
      rw [List.length_append, h80, List.length_singleton]
    have h208 : (magic ++ username ++ [nullByte] ++ fancy).length = 208 := by
      simp [hmagic, husername, hfancy]
    have h209 : (magic ++ username ++ [nullByte] ++ fancy ++ [fancyNullByte]).length = 209 := by
      rw [List.length_append, h208, List.length_singleton]
    refine ⟨?_, ?_, ?_, ?_, ?_, ?_⟩
    · exact @slice_append _ 0 16 [] magic rfl hmagic _
    · exact slice_append hmagic husername _
    · rw [hparts, ← List.append_assoc]
      exact slice_append h80 List.length_singleton _
    · rw [hparts, ← List.append_assoc, ← List.append_assoc]
      exact slice_append h81 hfancy _
    · rw [hparts, ← List.append_assoc, ← List.append_assoc, ← List.append_assoc]
      exact slice_append h208 List.length_singleton _
    · have hlast := slice_append h209 hkey []
      rwa [List.append_nil, List.append_assoc, List.append_assoc, List.append_assoc,
        List.append_assoc] at hlast
  obtain ⟨h₁, h₂, h₃, h₄, h₅, h₆⟩ := hfields
  apply DumbosUserData.ext
  · exact Subtype.ext h₁
  · exact Subtype.ext h₂
  · exact congrArg (List.headD · 0) h₃
  · exact Subtype.ext h₄
  · exact congrArg (List.headD · 0) h₅
  · exact Subtype.ext h₆

/-- The NULs that loading puts behind the name and the key. -/
def terminate (user : DumbosUserData) : DumbosUserData :=
  { user with
    nullByte := 0
    privKeyHex := ⟨user.privKeyHex.val.take (ED25519_PRIVATE_KEY_HEX_SIZE - 1) ++ [0], by
      simp [user.privKeyHex.property]⟩ }

/-- The string that starts at the name. -/
def name (user : DumbosUserData) : Bytes := cstr (user.username.val ++ [user.nullByte])

def key (user : DumbosUserData) : Bytes := cstr user.privKeyHex.val

end DumbosUserData

/-- `dumbos_alloc_get_user` behind its allocation: what is in the file, or why it cannot be opened. -/
def dumbosAllocGetUser (file : Except ℕ Bytes) : Except ℕ DumbosUserData :=
  match file with
  | .error errno => .error errno
  | .ok blob =>
    if h : blob.length < sizeofDumbosUserData then .error EIO
    else
      let user := DumbosUserData.ofBytes blob (not_lt.mp h)
      if user.magic.val ≠ DUMBOS_USER_DATA_MAGIC then .error EINVAL else .ok user.terminate

theorem dumbosAllocGetUser_eq_ok {blob : Bytes} (h : sizeofDumbosUserData ≤ blob.length)
    (hmagic : blob.take DUMBOS_USER_DATA_MAGIC_SIZE = DUMBOS_USER_DATA_MAGIC) :
    dumbosAllocGetUser (.ok blob) = .ok (DumbosUserData.ofBytes blob h).terminate := by
  have hofBytes : (DumbosUserData.ofBytes blob h).magic.val = DUMBOS_USER_DATA_MAGIC := hmagic
  rw [dumbosAllocGetUser, dif_neg (not_lt.mpr h)]
  exact if_neg (not_not.mpr hofBytes)

/-- A blob can be read when its size and its magic are those of a user. -/
theorem dumbosAllocGetUser_ok_iff (blob : Bytes) :
    (∃ user, dumbosAllocGetUser (.ok blob) = .ok user) ↔ sizeofDumbosUserData ≤ blob.length ∧
      blob.take DUMBOS_USER_DATA_MAGIC_SIZE = DUMBOS_USER_DATA_MAGIC := by
  constructor
  · rintro ⟨user, h⟩
    rw [dumbosAllocGetUser] at h
    dsimp only at h
    split_ifs at h with hshort hmagic
    exact ⟨not_lt.mp hshort, not_not.mp hmagic⟩
  · rintro ⟨hsize, hmagic⟩
    exact ⟨_, dumbosAllocGetUser_eq_ok hsize hmagic⟩

/-- Only a file that is not there makes the user look unset. -/
theorem dumbosAllocGetUser_eq_enoent {file : Except ℕ Bytes}
    (h : dumbosAllocGetUser file = .error ENOENT) : file = .error ENOENT := by
  cases file with
  | error errno =>
    rw [dumbosAllocGetUser] at h
    rw [Except.error.inj h]
  | ok blob =>
    rw [dumbosAllocGetUser] at h
    dsimp only at h
    split_ifs at h <;> exact absurd (Except.error.inj h) (by decide)

/-- A zeroed struct with the magic, a name and a key. -/
def DumbosUserData.ofNameAndKey (user privKeyHex : Bytes) : DumbosUserData where
  magic := ⟨DUMBOS_USER_DATA_MAGIC, by decide⟩
  username := Field.print (DUMBOS_USERNAME_MAXLEN - 1) user
  nullByte := 0
  fancyName := Field.zero DUMBOS_FANCY_NAME_MAXLEN
  fancyNullByte := 0
  privKeyHex := Field.print (ED25519_PRIVATE_KEY_HEX_SIZE - 1) privKeyHex

/-- `dumbos_alloc_new_user` when there is memory. -/
def dumbosAllocNewUser (user privKeyHex : Bytes) : Except Errno DumbosUserData :=
  if DUMBOS_USERNAME_MAXLEN - 1 < user.length then .error EINVAL
  else if privKeyHex.length ≠ ED25519_PRIVATE_KEY_HEX_SIZE - 1 then .error EINVAL
  else .ok (.ofNameAndKey user privKeyHex)

/-- The limit is that of the user name; `strcpy` of what is within it stays in the field. -/
def dumbosSetFancyName (name : Bytes) (data : DumbosUserData) : Except Errno Unit × DumbosUserData :=
  if DUMBOS_USERNAME_MAXLEN < min name.length (DUMBOS_USERNAME_MAXLEN + 1) then (.error E2BIG, data)
  else (.ok (), { data with
    fancyName := Field.snprintf data.fancyName name
    fancyNullByte := 0 })

/-- The display name, or the user name if there is none. -/
def dumbosGetFancyName (user : DumbosUserData) : Bytes :=
  if user.fancyNullByte ≠ 0 then user.name
  else if cstr (user.fancyName.val ++ [user.fancyNullByte]) = [] then user.name
  else cstr (user.fancyName.val ++ [user.fancyNullByte])

theorem name_length_le (user : DumbosUserData) : user.name.length ≤ 65 := by
  apply (cstr_length_le _).trans
  rw [List.length_append, user.username.property, List.length_singleton]

theorem dumbosGetFancyName_length_le (user : DumbosUserData) :
    (dumbosGetFancyName user).length ≤ 128 := by
  rw [dumbosGetFancyName]
  split_ifs
  · exact (name_length_le user).trans (by norm_num)
  · exact (name_length_le user).trans (by norm_num)
  · apply (cstr_length_le _).trans
    rw [List.length_append, user.fancyName.property, List.length_singleton]

theorem dumbosGetFancyName_no_nul (user : DumbosUserData) :
    ∀ c ∈ dumbosGetFancyName user, c ≠ 0 := by
  rw [dumbosGetFancyName]
  split_ifs <;> exact cstr_no_nul _

/-- Who has a name has a name to show. -/
theorem dumbosGetFancyName_ne_nil {user : DumbosUserData} (h : user.name ≠ []) :
    dumbosGetFancyName user ≠ [] := by
  rw [dumbosGetFancyName]
  split_ifs with hnull hempty
  · exact h
  · exact h
  · exact hempty

/-- A negative `char` is widened to 64 bits before the remainder is taken. -/
def requestIdChar (charSigned : Bool) (c : UInt8) : UInt8 :=
  let index := if charSigned ∧ 128 ≤ c.toNat then c.toNat + 2 ^ 64 - 256 else c.toNat
  REQUESTID_ALLOWED_CHARS.getD (index % REQUESTID_ALLOWED_CHARS.length) 0

/-- The id that is made from the random bytes, if there are enough of them. -/
def requestIdGenerate (charSigned : Bool) (random : Bytes) : Option Bytes :=
  if random.length ≠ REQUEST_ID_LEN then none else some (random.map (requestIdChar charSigned))

def allocConstructRequestURL (baseURL user requestid requestsig : Bytes) (netTime : ℤ)
    (code : Option Bytes) : Bytes :=
  baseURL ++ ascii "?code=" ++ code.getD (ascii "dummy") ++ ascii "&user=" ++ user ++
    ascii "&requestid=" ++ requestid ++ ascii "&requestsig=" ++ requestsig ++
    ascii "&time=" ++ intText netTime

/-- A generated id is over the alphabet that signing asks for. -/
theorem requestIdGenerate_allowed {charSigned : Bool} {random id : Bytes}
    (h : requestIdGenerate charSigned random = some id) :
    checkAllowedChars id REQUESTID_ALLOWED_CHARS := by
  rw [requestIdGenerate] at h
  split_ifs at h
  cases h
  rw [checkAllowedChars_iff]
  intro c hc
  obtain ⟨b, -, rfl⟩ := List.mem_map.mp hc
  have hindex : ∀ i, i % REQUESTID_ALLOWED_CHARS.length < REQUESTID_ALLOWED_CHARS.length :=
    fun i => Nat.mod_lt _ (by decide)
  rw [requestIdChar, List.getD_eq_getElem?_getD, List.getElem?_eq_getElem (hindex _)]
  exact List.getElem_mem _

end Dumbos.Request
