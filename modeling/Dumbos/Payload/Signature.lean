import Dumbos.Common.Errno
import Dumbos.Payload.Expire

/-! # Signing and verifying a payload

Both functions sign the whole buffer with the signature field zeroed. They admit
different buffers: `dp_sign` asks for a header, `dp_verify` for the exact size.
The scheme itself is a parameter, as `ed25519.c` hands its work to OpenSSL.
-/
namespace Dumbos.Payload
open Foundation Common

/-- What `ed25519_sign_hex` writes before the final NUL. -/
abbrev SignatureHex := {s : Bytes // s.length = 128 ∧ ∀ c ∈ s, c ≠ 0}

/-- `ed25519_sign_hex` and `ed25519_verify_hex`, keys and signatures as hex strings. -/
structure Ed25519 where
  signHex (privateHex data : Bytes) : Except Errno SignatureHex
  verifyHex (publicHex data signatureHex : Bytes) : Except Errno Unit

/-- Matching keys: what the private key signs verifies under the public key. -/
structure KeyPair (E : Ed25519) where
  privateHex : Bytes
  publicHex : Bytes
  private_length : privateHex.length = ED25519_PRIVATE_KEY_HEX_SIZE - 1
  public_length : publicHex.length = ED25519_PUBLIC_KEY_HEX_SIZE - 1
  correct : ∀ m s, E.signHex privateHex m = .ok s → E.verifyHex publicHex m s.val = .ok ()

/-- The signature is accepted for no message but `m`. -/
def KeyPair.Binds {E : Ed25519} (K : KeyPair E) (signature m : Bytes) : Prop :=
  ∀ m', E.verifyHex K.publicHex m' signature = .ok () → m' = m

/-- Signing with the key does not fail. -/
structure Signs (E : Ed25519) (key : Bytes) : Prop where
  length : key.length = ED25519_PRIVATE_KEY_HEX_SIZE - 1
  signs : ∀ m, ∃ s, E.signHex key m = .ok s

def zeroSignature (p : DumbPayload) : DumbPayload :=
  { p with signature := Field.zero ED25519_SIGNATURE_HEX_SIZE }

/-- The bytes that are signed. -/
def signedBytes (p : DumbPayload) (size : ℕ) : Bytes := (zeroSignature p).toBytes.take size

def setSignature (p : DumbPayload) (s : SignatureHex) : DumbPayload :=
  { p with signature := ⟨s.val ++ [0], by simp [s.property.1]⟩ }

/-- The signature as `dp_verify` passes it on, with the last byte of the field forced to NUL. -/
def signatureText (p : DumbPayload) : Bytes :=
  cstr (p.signature.val.take (ED25519_SIGNATURE_HEX_SIZE - 1))

variable (E : Ed25519)

def dpSign (privateKeyHex : Bytes) (size : ℕ) (p : DumbPayload) :
    Except Errno Unit × DumbPayload :=
  if privateKeyHex.length ≠ ED25519_PRIVATE_KEY_HEX_SIZE - 1 then (.error EINVAL, p)
  else if size < sizeofDumbPayload then (.error EINVAL, p)
  else match E.signHex privateKeyHex (signedBytes p size) with
    | .error err => (.error err, zeroSignature p)
    | .ok signature => (.ok (), setSignature p signature)

def dpVerify (pubkeyHex : Bytes) (size : ℕ) (p : DumbPayload) :
    Except Errno Unit × DumbPayload :=
  if pubkeyHex.length ≠ ED25519_PUBLIC_KEY_HEX_SIZE - 1 then (.error EINVAL, p)
  else if !dpValidateSize p size then (.error EINVAL, p)
  else (E.verifyHex pubkeyHex (signedBytes p size) (signatureText p), zeroSignature p)

@[simp] theorem zeroSignature_setSignature (p : DumbPayload) (s : SignatureHex) :
    zeroSignature (setSignature p s) = zeroSignature p := rfl

@[simp] theorem signedBytes_setSignature (p : DumbPayload) (s : SignatureHex) (size : ℕ) :
    signedBytes (setSignature p s) size = signedBytes p size := rfl

@[simp] theorem signatureText_setSignature (p : DumbPayload) (s : SignatureHex) :
    signatureText (setSignature p s) = s.val := by
  have hlen : s.val.length = ED25519_SIGNATURE_HEX_SIZE - 1 := s.property.1
  rw [signatureText, setSignature, List.take_left' hlen, cstr_eq_self s.property.2]

/-- Over its own length a payload is signed whole. -/
theorem signedBytes_all (p : DumbPayload) {size : ℕ} (h : p.toBytes.length ≤ size) :
    signedBytes p size = (zeroSignature p).toBytes := by
  apply List.take_of_length_le
  rw [DumbPayload.toBytes_length] at h ⊢
  exact h

variable {E}

theorem dpSign_eq_ok {key : Bytes} {size : ℕ} {p q : DumbPayload}
    (h : dpSign E key size p = (.ok (), q)) :
    key.length = ED25519_PRIVATE_KEY_HEX_SIZE - 1 ∧ sizeofDumbPayload ≤ size ∧
      ∃ s, E.signHex key (signedBytes p size) = .ok s ∧ q = setSignature p s := by
  rw [dpSign] at h
  split_ifs at h with hkey hsize
  · simp at h
  · simp at h
  · cases hs : E.signHex key (signedBytes p size) with
    | error err => simp [hs] at h
    | ok s =>
      rw [hs] at h
      exact ⟨not_not.mp hkey, not_lt.mp hsize, s, rfl, (Prod.ext_iff.mp h).2.symm⟩

theorem dpSign_signs {key : Bytes} (hs : Signs E key) {size : ℕ} (h : sizeofDumbPayload ≤ size)
    (p : DumbPayload) : ∃ s, dpSign E key size p = (.ok (), setSignature p s) := by
  obtain ⟨s, hsign⟩ := hs.signs (signedBytes p size)
  refine ⟨s, ?_⟩
  rw [dpSign, if_neg (not_not.mpr hs.length), if_neg (not_lt.mpr h), hsign]

theorem dpVerify_eq_ok_iff {key : Bytes} {size : ℕ} {p : DumbPayload} :
    (dpVerify E key size p).1 = .ok () ↔
      key.length = ED25519_PUBLIC_KEY_HEX_SIZE - 1 ∧ dpValidateSize p size ∧
        E.verifyHex key (signedBytes p size) (signatureText p) = .ok () := by
  rw [dpVerify]
  split_ifs with hkey hsize
  · simp only [false_iff]
    exact fun h => hkey h.1
  · simp only [false_iff]
    exact fun h => by simp [h.2.1] at hsize
  · exact ⟨fun h => ⟨not_not.mp hkey, by simpa using hsize, h⟩, fun h => h.2.2⟩

/-- Verifying touches nothing but the signature. -/
theorem dpVerify_frame (key : Bytes) (size : ℕ) (p : DumbPayload) :
    { (dpVerify E key size p).2 with signature := p.signature } = p := by
  rw [dpVerify]
  split_ifs <;> rfl

theorem dpVerify_snd_of_ok {key : Bytes} {size : ℕ} {p : DumbPayload}
    (h : (dpVerify E key size p).1 = .ok ()) : (dpVerify E key size p).2 = zeroSignature p := by
  obtain ⟨hkey, hsize, -⟩ := dpVerify_eq_ok_iff.mp h
  rw [dpVerify, if_neg (not_not.mpr hkey), hsize]
  rfl

/-- Signing admits a buffer that verifying refuses: the size check alone decides. -/
theorem dpVerify_dpSign (K : KeyPair E) {size : ℕ} {p q : DumbPayload}
    (h : dpSign E K.privateHex size p = (.ok (), q)) :
    (dpVerify E K.publicHex size q).1 = .ok () ↔ dpValidateSize p size := by
  obtain ⟨-, -, s, hs, rfl⟩ := dpSign_eq_ok h
  have hsize : dpValidateSize (setSignature p s) size = dpValidateSize p size :=
    dpValidateSize_congr rfl size
  rw [dpVerify_eq_ok_iff, hsize, signedBytes_setSignature, signatureText_setSignature]
  constructor
  · exact fun hv => hv.2.1
  · exact fun hv => ⟨K.public_length, hv, K.correct _ s hs⟩

section Single

def singleSignature : SignatureHex := ⟨List.replicate 128 97, List.length_replicate, by simp⟩

/-- A scheme that has signed one message. -/
def Ed25519.single (m : Bytes) : Ed25519 where
  signHex _ data := if data = m then .ok singleSignature else .error EIO
  verifyHex _ data signature :=
    if data = m ∧ signature = singleSignature.val then .ok () else .error EPERM

/-- A scheme that signs every message alike. -/
def Ed25519.always : Ed25519 where
  signHex _ _ := .ok singleSignature
  verifyHex _ _ signature := if signature = singleSignature.val then .ok () else .error EPERM

def KeyPair.always : KeyPair Ed25519.always where
  privateHex := List.replicate 64 98
  publicHex := List.replicate 64 99
  private_length := List.length_replicate
  public_length := List.length_replicate
  correct data s h := by
    simp only [Ed25519.always, Except.ok.injEq] at h ⊢
    rw [if_pos (h ▸ rfl)]

def KeyPair.single (m : Bytes) : KeyPair (Ed25519.single m) where
  privateHex := List.replicate 64 98
  publicHex := List.replicate 64 99
  private_length := List.length_replicate
  public_length := List.length_replicate
  correct data s h := by
    simp only [Ed25519.single] at h ⊢
    split_ifs at h with hm
    simp only [Except.ok.injEq] at h
    rw [if_pos ⟨hm, h ▸ rfl⟩]

theorem KeyPair.single_binds (m signature : Bytes) : (KeyPair.single m).Binds signature m := by
  intro m' h
  simp only [Ed25519.single] at h
  split_ifs at h with hm
  exact hm.1

end Single

end Dumbos.Payload
