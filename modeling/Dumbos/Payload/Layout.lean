import Dumbos.Common.ParseLongLong

/-! # `struct DUMB_PAYLOAD`

The header is 168 bytes: the hex signature, the expire and command texts, three
bytes of alignment and the big-endian data size; the data follows. A buffer of
at least that length and a payload are the same thing, seen as C sees it through
the pointer cast.
-/
namespace Dumbos.Payload
open Foundation Common

@[simp] abbrev ED25519_SIGNATURE_HEX_SIZE : ℕ := 129
@[simp] abbrev ED25519_PRIVATE_KEY_HEX_SIZE : ℕ := 65
@[simp] abbrev ED25519_PUBLIC_KEY_HEX_SIZE : ℕ := 65
@[simp] abbrev EXPIRE_SIZE : ℕ := 16
@[simp] abbrev COMMAND_SIZE : ℕ := 16
@[simp] abbrev DUMB_PAYLOAD_DATA_MAX_SIZE : ℕ := 512 * 1024 * 1024

/-- `sizeof(struct DUMB_PAYLOAD)`, which excludes the data. -/
@[simp] abbrev sizeofDumbPayload : ℕ := 168

@[ext] structure DumbPayload where
  signature : Field ED25519_SIGNATURE_HEX_SIZE
  expire : Field EXPIRE_SIZE
  command : Field COMMAND_SIZE
  /-- Alignment of `data_size`; it is signed with the rest. -/
  padding : Field 3
  /-- In network byte order. -/
  dataSize : Field 4
  payload : Bytes
deriving DecidableEq

/-! The bounds under which a buffer is read as a payload: behind a check of its length, as a file
that was loaded, and as a new payload. -/

theorem header_le_of_not_lt {b : Bytes} (h : ¬b.length < sizeofDumbPayload) :
    sizeofDumbPayload ≤ b.length := not_lt.mp h

theorem header_le_loaded (file : {b : Bytes // sizeofDumbPayload ≤ b.length}) :
    sizeofDumbPayload ≤ file.val.length := file.property

theorem header_le_replicate :
    sizeofDumbPayload ≤ (List.replicate sizeofDumbPayload (0 : UInt8)).length :=
  List.length_replicate.ge

namespace DumbPayload

def toBytes (p : DumbPayload) : Bytes :=
  p.signature.val ++ (p.expire.val ++ (p.command.val ++ (p.padding.val ++
    (p.dataSize.val ++ p.payload))))

/-- The payload that a pointer to the buffer points to. -/
def ofBytes (b : Bytes) (h : sizeofDumbPayload ≤ b.length) : DumbPayload where
  signature := ⟨slice 0 129 b, slice_length (le_trans (by decide) h)⟩
  expire := ⟨slice 129 16 b, slice_length (le_trans (by decide) h)⟩
  command := ⟨slice 145 16 b, slice_length (le_trans (by decide) h)⟩
  padding := ⟨slice 161 3 b, slice_length (le_trans (by decide) h)⟩
  dataSize := ⟨slice 164 4 b, slice_length (le_trans (by decide) h)⟩
  payload := b.drop 168

@[simp] theorem toBytes_length (p : DumbPayload) :
    p.toBytes.length = sizeofDumbPayload + p.payload.length := by
  simp only [toBytes, List.length_append, p.signature.property, p.expire.property,
    p.command.property, p.padding.property, p.dataSize.property, ED25519_SIGNATURE_HEX_SIZE,
    EXPIRE_SIZE, COMMAND_SIZE, sizeofDumbPayload]
  omega

theorem le_toBytes_length (p : DumbPayload) : sizeofDumbPayload ≤ p.toBytes.length := by
  rw [toBytes_length]
  exact Nat.le_add_right _ _

@[simp] theorem toBytes_ofBytes (b : Bytes) (h : sizeofDumbPayload ≤ b.length) :
    (ofBytes b h).toBytes = b := by
  simp only [toBytes, ofBytes]
  rw [slice_append_drop 164 4, slice_append_drop 161 3, slice_append_drop 145 16,
    slice_append_drop 129 16, slice_append_drop 0 129, List.drop_zero]

theorem toBytes_injective : Function.Injective toBytes := by
  intro p q h
  obtain ⟨hsig, h⟩ := List.append_inj h (p.signature.property.trans q.signature.property.symm)
  obtain ⟨hexp, h⟩ := List.append_inj h (p.expire.property.trans q.expire.property.symm)
  obtain ⟨hcmd, h⟩ := List.append_inj h (p.command.property.trans q.command.property.symm)
  obtain ⟨hpad, h⟩ := List.append_inj h (p.padding.property.trans q.padding.property.symm)
  obtain ⟨hsize, hdata⟩ := List.append_inj h (p.dataSize.property.trans q.dataSize.property.symm)
  exact DumbPayload.ext (Subtype.ext hsig) (Subtype.ext hexp) (Subtype.ext hcmd)
    (Subtype.ext hpad) (Subtype.ext hsize) hdata

theorem slice_expire (p : DumbPayload) :
    slice ED25519_SIGNATURE_HEX_SIZE EXPIRE_SIZE p.toBytes = p.expire.val :=
  slice_append p.signature.property p.expire.property _

theorem toBytes_drop_signature (p : DumbPayload) :
    p.toBytes.drop ED25519_SIGNATURE_HEX_SIZE =
      p.expire.val ++ (p.command.val ++ (p.padding.val ++ (p.dataSize.val ++ p.payload))) :=
  List.drop_left' p.signature.property

@[simp] theorem ofBytes_toBytes (p : DumbPayload) (h : sizeofDumbPayload ≤ p.toBytes.length) :
    ofBytes p.toBytes h = p :=
  toBytes_injective (toBytes_ofBytes _ _)

theorem take_toBytes_append (p : DumbPayload) :
    p.toBytes.take sizeofDumbPayload ++ p.payload = p.toBytes := by
  have hdrop : p.toBytes.drop sizeofDumbPayload = p.payload := by
    conv_rhs => rw [← ofBytes_toBytes p p.le_toBytes_length]
    rfl
  conv_rhs => rw [← List.take_append_drop sizeofDumbPayload p.toBytes, hdrop]

theorem ofBytes_payload_length (b : Bytes) (h : sizeofDumbPayload ≤ b.length) :
    (ofBytes b h).payload.length = b.length - sizeofDumbPayload := by
  simp [ofBytes]

/-- An unsigned payload with the given texts and data. -/
def unsigned (expire command data : Bytes) : DumbPayload where
  signature := Field.zero ED25519_SIGNATURE_HEX_SIZE
  expire := Field.print (EXPIRE_SIZE - 1) expire
  command := Field.print (COMMAND_SIZE - 1) command
  padding := Field.zero 3
  dataSize := ⟨be32 data.length, rfl⟩
  payload := data

/-- Everything but the expire field is the same. -/
def SameButExpire (p q : DumbPayload) : Prop := { p with expire := q.expire } = q

/-- The command that is dispatched: the text of the field, its last byte forced to NUL. -/
def commandText (p : DumbPayload) : Bytes := cstr (p.command.val.take (COMMAND_SIZE - 1))

end DumbPayload

/-- `ntohl(data_size)`, or `none` with `EOVERFLOW`. -/
def dpGetDataSize (p : DumbPayload) : Option ℕ :=
  let size := bigEndian p.dataSize.val
  if DUMB_PAYLOAD_DATA_MAX_SIZE < size then none else some size

def dpValidateSize (p : DumbPayload) (detectedFullSize : ℕ) : Bool :=
  if detectedFullSize < sizeofDumbPayload then false
  else match dpGetDataSize p with
    | none => false
    | some dataSize => dataSize + sizeofDumbPayload == detectedFullSize

theorem dpValidateSize_iff (p : DumbPayload) (n : ℕ) :
    dpValidateSize p n ↔
      bigEndian p.dataSize.val ≤ DUMB_PAYLOAD_DATA_MAX_SIZE ∧
        n = sizeofDumbPayload + bigEndian p.dataSize.val := by
  unfold dpValidateSize dpGetDataSize
  by_cases hmax : DUMB_PAYLOAD_DATA_MAX_SIZE < bigEndian p.dataSize.val
  · simp [hmax]
  · by_cases hn : n < sizeofDumbPayload
    · simp only [hn, if_true, Bool.false_eq_true, false_iff]
      intro h
      exact absurd (h.2 ▸ Nat.le_add_right _ _) (not_le.mpr hn)
    · simp only [hn, hmax, if_false, beq_iff_eq]
      constructor
      · intro h
        exact ⟨not_lt.mp hmax, by rw [← h, Nat.add_comm]⟩
      · intro h
        rw [h.2, Nat.add_comm]

/-- The size check reads nothing but the size field. -/
theorem dpValidateSize_congr {p q : DumbPayload} (h : p.dataSize = q.dataSize) (n : ℕ) :
    dpValidateSize p n = dpValidateSize q n := by
  rw [dpValidateSize, dpValidateSize, dpGetDataSize, dpGetDataSize, h]

end Dumbos.Payload
