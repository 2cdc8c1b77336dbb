import Dumbos.Foundation.Form
import Dumbos.Payload.Signature

/-! # Keys and signatures as text

`ed25519.c` reads hex digits in either case, prints them in lower case and hands the
bytes to OpenSSL, of which only the return values are modelled. So the functions on
text are a scheme as the other modules assume one, and they do not see the case of
a digit.
-/
namespace Dumbos.Payload
open Foundation Common

def ED25519_PUBLIC_KEY_SIZE : ℕ := 32
def ED25519_PRIVATE_KEY_SIZE : ℕ := 32
def ED25519_SIGNATURE_SIZE : ℕ := 64

section Hex

/-- The pairs of digits of a string, if it consists of them. -/
def hexPairsToBytes : Bytes → Option Bytes
  | [] => some []
  | [_] => none
  | c :: d :: hex =>
    match hexDigitValue c, hexDigitValue d with
    | some hi, some lo => (hexPairsToBytes hex).map (UInt8.ofNat (16 * hi + lo) :: ·)
    | _, _ => none

def hexToBytes (hex : Bytes) (outLen : ℕ) : Except Errno Bytes :=
  if hex.length ≠ outLen * 2 then .error EINVAL
  else match hexPairsToBytes hex with
    | none => .error EINVAL
    | some out => .ok out

def hexTable (n : ℕ) : UInt8 := (ascii "0123456789abcdef").getD n 0

def hexText (bytes : Bytes) : Bytes :=
  bytes.flatMap fun c => [hexTable (c.toNat / 16), hexTable (c.toNat % 16)]

def bytesToHex (bytes : Bytes) (outSize : ℕ) : Except Errno Bytes :=
  if outSize < bytes.length * 2 + 1 then .error ENOSPC else .ok (hexText bytes)

/-- A digit in lower case. -/
def foldCase (c : UInt8) : UInt8 := if 65 ≤ c && c ≤ 70 then c + 32 else c

/-- The text is that of the bytes but for the case of its digits. -/
def Reads (hex : Bytes) (n : ℕ) (bytes : Bytes) : Prop :=
  bytes.length = n ∧ hex.map foldCase = hexText bytes

/-- A fact about all bytes is a fact about 256 of them. -/
theorem forall_byte {P : UInt8 → Prop} (h : ∀ n : Fin 256, P (UInt8.ofNat n)) (c : UInt8) : P c := by
  have hc := h ⟨c.toNat, c.toNat_lt⟩
  rwa [UInt8.ofNat_toNat] at hc

theorem hexTable_value {c : UInt8} {v : ℕ} (h : hexDigitValue c = some v) :
    v < 16 ∧ foldCase c = hexTable v := by
  have hall : ∀ n : Fin 256, ∀ v ∈ hexDigitValue (UInt8.ofNat n),
      v < 16 ∧ foldCase (UInt8.ofNat n) = hexTable v := by decide +kernel
  exact forall_byte (P := fun c => ∀ v ∈ hexDigitValue c, v < 16 ∧ foldCase c = hexTable v) hall c v h

theorem value_of_foldCase {c : UInt8} {v : ℕ} (hv : v < 16) (h : foldCase c = hexTable v) :
    hexDigitValue c = some v := by
  have hall : ∀ n : Fin 256, ∀ v : Fin 16, foldCase (UInt8.ofNat n) = hexTable v →
      hexDigitValue (UInt8.ofNat n) = some v.val := by decide +kernel
  exact forall_byte (P := fun c => ∀ v : Fin 16, foldCase c = hexTable v →
    hexDigitValue c = some v.val) hall c ⟨v, hv⟩ h

theorem hexText_cons (c : UInt8) (bytes : Bytes) :
    hexText (c :: bytes) = hexTable (c.toNat / 16) :: hexTable (c.toNat % 16) :: hexText bytes := rfl

theorem hexText_length (bytes : Bytes) : (hexText bytes).length = bytes.length * 2 := by
  rw [hexText, List.length_flatMap]
  simp

theorem hexTable_ne_zero {n : ℕ} (h : n < 16) : hexTable n ≠ 0 := by
  have hall : ∀ n : Fin 16, hexTable n ≠ 0 := by decide
  exact hall ⟨n, h⟩

theorem hexText_no_nul (bytes : Bytes) : ∀ c ∈ hexText bytes, c ≠ 0 := by
  intro c hc
  obtain ⟨b, -, hb⟩ := List.mem_flatMap.mp hc
  have hlt := b.toNat_lt
  rcases List.mem_pair.mp hb with rfl | rfl
  · exact hexTable_ne_zero (by omega)
  · exact hexTable_ne_zero (by omega)

/-- A string is read as the bytes whose text it is, but for the case. -/
theorem hexPairsToBytes_eq_some_iff {hex bytes : Bytes} :
    hexPairsToBytes hex = some bytes ↔ hex.map foldCase = hexText bytes := by
  induction bytes generalizing hex with
  | nil =>
    match hex with
    | [] => simp [hexPairsToBytes, hexText]
    | [_] => simp [hexPairsToBytes, hexText]
    | c :: d :: hex =>
      rw [hexPairsToBytes]
      split <;> simp [hexText]
  | cons b bytes ih =>
    have hlt := b.toNat_lt
    match hex with
    | [] => simp [hexPairsToBytes, hexText]
    | [_] => simp [hexPairsToBytes, hexText]
    | c :: d :: hex =>
      rw [hexText_cons, List.map_cons, List.map_cons, List.cons.injEq, List.cons.injEq, ← ih,
        hexPairsToBytes]
      constructor
      · intro h
        split at h
        · next hi lo hc hd =>
          obtain ⟨rest, hrest, hcons⟩ := Option.map_eq_some_iff.mp h
          obtain ⟨rfl, rfl⟩ := List.cons.inj hcons
          obtain ⟨hhi, htop⟩ := hexTable_value hc
          obtain ⟨hlo, hbottom⟩ := hexTable_value hd
          have hvalue : (UInt8.ofNat (16 * hi + lo)).toNat = 16 * hi + lo := by
            rw [UInt8.toNat_ofNat']
            omega
          rw [hvalue, show (16 * hi + lo) / 16 = hi by omega, show (16 * hi + lo) % 16 = lo by omega]
          exact ⟨htop, hbottom, hrest⟩
        · cases h
      · rintro ⟨htop, hbottom, hrest⟩
        rw [value_of_foldCase (by omega) htop, value_of_foldCase (by omega) hbottom, hrest]
        simp only [Option.map_some, Option.some.injEq, List.cons.injEq, and_true]
        rw [Nat.div_add_mod, UInt8.ofNat_toNat]

theorem hexToBytes_eq_ok_iff {hex : Bytes} {n : ℕ} {bytes : Bytes} :
    hexToBytes hex n = .ok bytes ↔ Reads hex n bytes := by
  have hlength : hex.map foldCase = hexText bytes → hex.length = bytes.length * 2 := by
    intro h
    rw [← hexText_length, ← h, List.length_map]
  rw [hexToBytes, Reads, ← hexPairsToBytes_eq_some_iff]
  constructor
  · intro h
    split_ifs at h with hlen
    cases hpairs : hexPairsToBytes hex with
    | none => simp [hpairs] at h
    | some out =>
      rw [hpairs] at h
      obtain rfl := Except.ok.inj h
      have := hlength (hexPairsToBytes_eq_some_iff.mp hpairs)
      exact ⟨by omega, rfl⟩
  · rintro ⟨hn, hpairs⟩
    have := hlength (hexPairsToBytes_eq_some_iff.mp hpairs)
    rw [if_neg (by omega), hpairs]

/-- What is not read is refused as invalid. -/
theorem hexToBytes_cases (hex : Bytes) (n : ℕ) :
    (∃ bytes, hexToBytes hex n = .ok bytes ∧ Reads hex n bytes) ∨
      hexToBytes hex n = .error EINVAL ∧ ¬∃ bytes, Reads hex n bytes := by
  cases h : hexToBytes hex n with
  | ok bytes => exact .inl ⟨bytes, rfl, hexToBytes_eq_ok_iff.mp h⟩
  | error e =>
    refine .inr ⟨?_, ?_⟩
    · rw [hexToBytes] at h
      split_ifs at h
      · exact h.symm
      · split at h
        · exact h.symm
        · cases h
    · rintro ⟨bytes, hreads⟩
      rw [hexToBytes_eq_ok_iff.mpr hreads] at h
      cases h

end Hex

section OpenSsl

/-- What the functions of OpenSSL return for raw keys, signatures and data. -/
structure OpenSsl where
  mdCtxNew : Bool
  newRawPrivateKey (seed : Bytes) : Bool
  digestSignInit (seed : Bytes) : ℤ
  digestSign (seed data : Bytes) : ℤ × Bytes
  newRawPublicKey (key : Bytes) : Bool
  digestVerifyInit (key : Bytes) : ℤ
  digestVerify (key signature data : Bytes) : ℤ

/-- One generation of a key, return value by return value. -/
structure Keygen where
  ctxNewId : Bool
  keygenInit : ℤ
  keygen : ℤ
  getRawPublicKey : ℤ × Bytes
  getRawPrivateKey : ℤ × Bytes

def ed25519GenerateKeypairHex (K : Keygen) : Except Errno (Bytes × Bytes) :=
  if !K.ctxNewId then .error EIO
  else if K.keygenInit ≤ 0 then .error EIO
  else if K.keygen ≤ 0 then .error EIO
  else if K.getRawPublicKey.1 ≤ 0 ∨ K.getRawPublicKey.2.length ≠ ED25519_PUBLIC_KEY_SIZE then
    .error EIO
  else if K.getRawPrivateKey.1 ≤ 0 ∨ K.getRawPrivateKey.2.length ≠ ED25519_PRIVATE_KEY_SIZE then
    .error EIO
  else do
    let publicHex ← bytesToHex K.getRawPublicKey.2 ED25519_PUBLIC_KEY_HEX_SIZE
    let privateHex ← bytesToHex K.getRawPrivateKey.2 ED25519_PRIVATE_KEY_HEX_SIZE
    return (publicHex, privateHex)

/-- 64 bytes as text. -/
def hexSignature (signature : Bytes) (h : signature.length = ED25519_SIGNATURE_SIZE) : SignatureHex :=
  ⟨hexText signature, (hexText_length signature).trans (congrArg (· * 2) h), hexText_no_nul signature⟩

variable (S : OpenSsl)

def ed25519SignHex (privateHex data : Bytes) : Except Errno SignatureHex :=
  match hexToBytes privateHex ED25519_PRIVATE_KEY_SIZE with
  | .error e => .error e
  | .ok seed =>
    if !S.newRawPrivateKey seed then .error EIO
    else if !S.mdCtxNew then .error EIO
    else if S.digestSignInit seed ≤ 0 then .error EIO
    else if (S.digestSign seed data).1 ≤ 0 then .error EIO
    else if h : (S.digestSign seed data).2.length = ED25519_SIGNATURE_SIZE then
      .ok (hexSignature _ h)
    else .error EIO

def ed25519VerifyHex (publicHex data signatureHex : Bytes) : Except Errno Unit :=
  match hexToBytes publicHex ED25519_PUBLIC_KEY_SIZE with
  | .error e => .error e
  | .ok key => match hexToBytes signatureHex ED25519_SIGNATURE_SIZE with
    | .error e => .error e
    | .ok signature =>
      if !S.newRawPublicKey key then .error EIO
      else if !S.mdCtxNew then .error EIO
      else if S.digestVerifyInit key ≤ 0 then .error EIO
      else if S.digestVerify key signature data = 1 then .ok ()
      else if S.digestVerify key signature data = 0 then .error EPERM
      else .error EIO

/-- The functions on text, as the scheme that the payloads are signed with. -/
def OpenSsl.ed25519 : Ed25519 := ⟨ed25519SignHex S, ed25519VerifyHex S⟩

/-- The calls before `EVP_DigestVerify` succeed. -/
def OpenSsl.Ready (key : Bytes) : Prop :=
  S.newRawPublicKey key = true ∧ S.mdCtxNew = true ∧ 0 < S.digestVerifyInit key

/-- Keys that belong together: OpenSSL verifies under the one what it has signed with the other. -/
def OpenSsl.Matches (seed key : Bytes) : Prop :=
  ∀ data, S.mdCtxNew = true → 0 < (S.digestSign seed data).1 →
    S.Ready key ∧ S.digestVerify key (S.digestSign seed data).2 data = 1

variable {S}

theorem ed25519VerifyHex_of_reads {publicHex signatureHex key signature : Bytes}
    (hkey : Reads publicHex ED25519_PUBLIC_KEY_SIZE key)
    (hsignature : Reads signatureHex ED25519_SIGNATURE_SIZE signature) (data : Bytes) :
    ed25519VerifyHex S publicHex data signatureHex =
      if S.newRawPublicKey key = true ∧ S.mdCtxNew = true ∧ 0 < S.digestVerifyInit key then
        if S.digestVerify key signature data = 1 then .ok ()
        else if S.digestVerify key signature data = 0 then .error EPERM
        else .error EIO
      else .error EIO := by
  rw [ed25519VerifyHex, hexToBytes_eq_ok_iff.mpr hkey]
  simp only [hexToBytes_eq_ok_iff.mpr hsignature]
  by_cases hnew : S.newRawPublicKey key = true
  · by_cases hctx : S.mdCtxNew = true
    · by_cases hinit : 0 < S.digestVerifyInit key
      · simp [hnew, hctx, hinit, not_le.mpr hinit]
      · simp [hnew, hctx, hinit, not_lt.mp hinit]
    · simp [hnew, hctx]
  · simp [hnew]

theorem Reads.unique {hex bytes bytes' : Bytes} {n : ℕ} (h : Reads hex n bytes) (h' : Reads hex n bytes') :
    bytes = bytes' :=
  Except.ok.inj ((hexToBytes_eq_ok_iff.mpr h).symm.trans (hexToBytes_eq_ok_iff.mpr h'))

/-- The texts are hex for so many bytes, but for their case. -/
def BothRead (publicHex signatureHex : Bytes) (P : Bytes → Bytes → Prop) : Prop :=
  ∃ key signature, Reads publicHex ED25519_PUBLIC_KEY_SIZE key ∧
    Reads signatureHex ED25519_SIGNATURE_SIZE signature ∧ P key signature

theorem bothRead_iff {publicHex signatureHex key signature : Bytes}
    (hkey : Reads publicHex ED25519_PUBLIC_KEY_SIZE key)
    (hsignature : Reads signatureHex ED25519_SIGNATURE_SIZE signature) (P : Bytes → Bytes → Prop) :
    BothRead publicHex signatureHex P ↔ P key signature := by
  constructor
  · rintro ⟨key', signature', hkey', hsignature', hP⟩
    rwa [hkey.unique hkey', hsignature.unique hsignature']
  · exact fun hP => ⟨key, signature, hkey, hsignature, hP⟩

theorem ed25519VerifyHex_of_not_read {publicHex signatureHex : Bytes}
    (h : ¬BothRead publicHex signatureHex fun _ _ => True) (data : Bytes) :
    ed25519VerifyHex S publicHex data signatureHex = .error EINVAL := by
  rcases hexToBytes_cases publicHex ED25519_PUBLIC_KEY_SIZE with ⟨key, hok, hkey⟩ | ⟨hbad, -⟩
  · rcases hexToBytes_cases signatureHex ED25519_SIGNATURE_SIZE with
      ⟨signature, -, hsignature⟩ | ⟨hbad, -⟩
    · exact absurd ⟨key, signature, hkey, hsignature, trivial⟩ h
    · simp only [ed25519VerifyHex, hok, hbad]
  · simp only [ed25519VerifyHex, hbad]

/-- Which verdict `ed25519_verify_hex` gives: on texts that are hex but for their case it is OpenSSL's
over the bytes, and every other text is invalid. -/
theorem ed25519VerifyHex_verdict (S : OpenSsl) (publicHex data signatureHex : Bytes) :
    (ed25519VerifyHex S publicHex data signatureHex = .ok () ↔
      BothRead publicHex signatureHex fun key signature =>
        S.Ready key ∧ S.digestVerify key signature data = 1) ∧
    (ed25519VerifyHex S publicHex data signatureHex = .error EPERM ↔
      BothRead publicHex signatureHex fun key signature =>
        S.Ready key ∧ S.digestVerify key signature data = 0) ∧
    (ed25519VerifyHex S publicHex data signatureHex = .error EINVAL ↔
      ¬BothRead publicHex signatureHex fun _ _ => True) := by
  have heio : ( EIO : Errno) ≠ EPERM ∧ ( EIO : Errno) ≠ EINVAL ∧ EPERM ≠ EINVAL := by decide
  by_cases hboth : BothRead publicHex signatureHex fun _ _ => True
  · obtain ⟨key, signature, hkey, hsignature, -⟩ := hboth
    simp only [bothRead_iff hkey hsignature, ed25519VerifyHex_of_reads hkey hsignature, OpenSsl.Ready]
    split_ifs with hready hone hzero
    · simp [hready, hone]
    · simp [hready, hzero, heio]
    · simp [hone, hzero, heio]
    · simp [hready, heio]
  · have hnone : ∀ P, ¬BothRead publicHex signatureHex P := by
      rintro P ⟨key, signature, hkey, hsignature, -⟩
      exact hboth ⟨key, signature, hkey, hsignature, trivial⟩
    simp [ed25519VerifyHex_of_not_read hboth data, hnone, heio.2.2.symm]

end OpenSsl

section Generated
variable {S : OpenSsl} {K : Keygen} {publicHex privateHex : Bytes}

/-- Both texts have room in their buffers. -/
theorem generated_eq_ok (h : ed25519GenerateKeypairHex K = .ok (publicHex, privateHex)) :
    publicHex = hexText K.getRawPublicKey.2 ∧ privateHex = hexText K.getRawPrivateKey.2 ∧
      K.getRawPublicKey.2.length = ED25519_PUBLIC_KEY_SIZE ∧
      K.getRawPrivateKey.2.length = ED25519_PRIVATE_KEY_SIZE := by
  rw [ed25519GenerateKeypairHex] at h
  split_ifs at h with _ _ _ hpublic hprivate
  rw [not_or, not_not] at hpublic hprivate
  have hroom : bytesToHex K.getRawPublicKey.2 ED25519_PUBLIC_KEY_HEX_SIZE =
      .ok (hexText K.getRawPublicKey.2) := by
    rw [bytesToHex, hpublic.2, if_neg (by decide)]
  have hroom' : bytesToHex K.getRawPrivateKey.2 ED25519_PRIVATE_KEY_HEX_SIZE =
      .ok (hexText K.getRawPrivateKey.2) := by
    rw [bytesToHex, hprivate.2, if_neg (by decide)]
  rw [hroom, hroom'] at h
  obtain ⟨rfl, rfl⟩ := Prod.mk.inj (Except.ok.inj h)
  exact ⟨rfl, rfl, hpublic.2, hprivate.2⟩

/-- A signature made is the text of OpenSSL's. -/
theorem ed25519SignHex_eq_ok {data : Bytes} {s : SignatureHex}
    (h : ed25519SignHex S privateHex data = .ok s) : ∃ seed, Reads privateHex ED25519_PRIVATE_KEY_SIZE seed ∧
      S.mdCtxNew = true ∧ 0 < (S.digestSign seed data).1 ∧
      (S.digestSign seed data).2.length = ED25519_SIGNATURE_SIZE ∧
      s.val = hexText (S.digestSign seed data).2 := by
  rw [ed25519SignHex] at h
  cases hseed : hexToBytes privateHex ED25519_PRIVATE_KEY_SIZE with
  | error e => simp [hseed] at h
  | ok seed =>
    simp only [hseed] at h
    split_ifs at h with _ hctx _ hsign hlength
    obtain rfl := Except.ok.inj h
    exact ⟨seed, hexToBytes_eq_ok_iff.mp hseed, by simpa using hctx, not_le.mp hsign, hlength, rfl⟩

/-- What has been signed with a generated key verifies, whatever the case of the digits in the keys
and in the signature that is checked; the size decides alone. -/
theorem dpVerify_generated (hgenerate : ed25519GenerateKeypairHex K = .ok (publicHex, privateHex))
    (hmatches : S.Matches K.getRawPrivateKey.2 K.getRawPublicKey.2) {privateKey publicKey : Bytes}
    (hprivate : privateKey.map foldCase = privateHex) (hpublic : publicKey.map foldCase = publicHex)
    {size : ℕ} {p q q' : DumbPayload} (hsign : dpSign S.ed25519 privateKey size p = (.ok (), q))
    (hrest : zeroSignature q' = zeroSignature q)
    (htext : (signatureText q').map foldCase = signatureText q) :
    (dpVerify S.ed25519 publicKey size q').1 = .ok () ↔ dpValidateSize p size := by
  obtain ⟨rfl, rfl, hpublicSize, hprivateSize⟩ := generated_eq_ok hgenerate
  obtain ⟨-, -, s, hs, rfl⟩ := dpSign_eq_ok hsign
  obtain ⟨seed, hseed, hctx, hpositive, hlength, hs⟩ := ed25519SignHex_eq_ok hs
  obtain rfl : K.getRawPrivateKey.2 = seed := Reads.unique ⟨hprivateSize, hprivate⟩ hseed
  rw [signatureText_setSignature, hs] at htext
  rw [zeroSignature_setSignature] at hrest
  have hsigned : signedBytes q' size = signedBytes p size := by rw [signedBytes, hrest, signedBytes]
  have hvalid : dpValidateSize q' size = dpValidateSize p size :=
    dpValidateSize_congr (congrArg DumbPayload.dataSize hrest) size
  have hkeyLength : publicKey.length = ED25519_PUBLIC_KEY_HEX_SIZE - 1 := by
    rw [← List.length_map (f := foldCase), hpublic, hexText_length, hpublicSize]
    rfl
  have hverified : ed25519VerifyHex S publicKey (signedBytes p size) (signatureText q') = .ok () := by
    obtain ⟨hready, hone⟩ := hmatches (signedBytes p size) hctx hpositive
    rw [OpenSsl.Ready] at hready
    rw [ed25519VerifyHex_of_reads ⟨hpublicSize, hpublic⟩ ⟨hlength, htext⟩, if_pos hready, if_pos hone]
  rw [dpVerify_eq_ok_iff, hvalid, hsigned]
  exact ⟨fun h => h.2.1, fun h => ⟨hkeyLength, h, hverified⟩⟩

/-- An OpenSSL with one signature. -/
def OpenSsl.constant : OpenSsl where
  mdCtxNew := true
  newRawPrivateKey _ := true
  digestSignInit _ := 1
  digestSign _ _ := (1, List.replicate 64 171)
  newRawPublicKey _ := true
  digestVerifyInit _ := 1
  digestVerify _ signature _ := if signature = List.replicate 64 171 then 1 else 0

def Keygen.constant : Keygen := ⟨true, 1, 1, (1, List.replicate 32 171), (1, List.replicate 32 171)⟩

/-- `AB` many times. -/
def upperText (n : ℕ) : Bytes := (List.replicate n [65, 66]).flatten

theorem upperText_length (n : ℕ) : (upperText n).length = n * 2 := by simp [upperText]

theorem upperText_no_nul (n : ℕ) : ∀ c ∈ upperText n, c ≠ 0 := by
  intro c hc
  simp only [upperText, List.mem_flatten, List.mem_replicate] at hc
  obtain ⟨pair, ⟨-, rfl⟩, hc⟩ := hc
  rcases List.mem_pair.mp hc with rfl | rfl
  · decide
  · decide

theorem map_foldCase_upperText (n : ℕ) :
    (upperText n).map foldCase = hexText (List.replicate n 171) := by
  induction n with
  | zero => rfl
  | succ n ih =>
    rw [List.replicate_succ, hexText_cons, ← ih, upperText, List.replicate_succ, List.flatten_cons,
      List.map_append]
    rfl

def upperSignature : SignatureHex := ⟨upperText 64, upperText_length 64, upperText_no_nul 64⟩

theorem dpVerify_generated_upper :
    (dpVerify OpenSsl.constant.ed25519 (upperText 32) 168
      (setSignature (DumbPayload.unsigned (ascii "0") (ascii "ok") []) upperSignature)).1 = .ok () := by
  have hsign : dpSign OpenSsl.constant.ed25519 (upperText 32) 168
      (DumbPayload.unsigned (ascii "0") (ascii "ok") []) = (.ok (),
        setSignature (DumbPayload.unsigned (ascii "0") (ascii "ok") [])
          (hexSignature (List.replicate 64 171) rfl)) := rfl
  have htext : (signatureText (setSignature (DumbPayload.unsigned (ascii "0") (ascii "ok") [])
      upperSignature)).map foldCase = signatureText (setSignature
        (DumbPayload.unsigned (ascii "0") (ascii "ok") []) (hexSignature (List.replicate 64 171) rfl)) := by
    rw [signatureText_setSignature, signatureText_setSignature]
    exact map_foldCase_upperText 64
  have hgenerate : ed25519GenerateKeypairHex Keygen.constant =
      .ok (hexText (List.replicate 32 171), hexText (List.replicate 32 171)) := rfl
  have hkey := map_foldCase_upperText 32
  have hrest := zeroSignature_setSignature (DumbPayload.unsigned (ascii "0") (ascii "ok") [])
  refine (dpVerify_generated hgenerate ?_ hkey hkey hsign
    ((hrest upperSignature).trans (hrest _).symm) htext).mpr ?_
  · exact fun _ _ _ => ⟨⟨rfl, rfl, one_pos⟩, rfl⟩
  · decide

end Generated

end Dumbos.Payload
