import Dumbos.Daemon.Authenticity

/-! # What a signed payload needs to be accepted

The expiry check comes first and writes into bytes that the signature covers. A
payload whose field holds a time passes both checks unchanged. One whose time
starts with the first use reaches the signature check with other bytes than were
signed.
-/
namespace Dumbos.Daemon
open Foundation Common Payload

/-- The payload is not expired: its time lies ahead, or it starts to run now on both clocks. -/
def NotExpired (now time : ℤ) (p : DumbPayload) : Prop :=
  if dpGetExpire p = -1 then now = time ∧ 0 < useOffset p
  else dpGetExpire p = 0 ∨ time < dpGetExpire p

theorem dpIsExpiredCompare_of_notExpired {now time : ℤ} {p : DumbPayload}
    (h : NotExpired now time p) : (dpIsExpiredCompare now time p).1 = false := by
  rw [dpIsExpiredCompare_eq_false_iff]
  rw [NotExpired] at h
  split_ifs at h with hset
  · rw [dpGetExpireOrSet_unset hset, firstUse]
    right
    simp only
    omega
  · rwa [dpGetExpireOrSet_absolute hset]

variable (D : Device) (time : ℤ)

/-- A command is recorded before its handler runs. -/
theorem dispatch_prefix (p : DumbPayload) (s : State) :
    s.dispatched ++ [(p.commandText, p.payload)] <+:
      (dispatch D (payloadCmdComposite (handleOnePayload D time)) p s).2.dispatched := by
  rw [dispatch_run]
  set t := (send p.commandText (send (ascii "command is") (send (ascii "loading...") s).2).2).2 with ht
  have hsent : t.dispatched = s.dispatched := by
    rw [ht]
    exact (fixes_send _ _).trans ((fixes_send _ _).trans (fixes_send _ _))
  have hcomposite : (dispatchesAuthentic D time p.payload).Keeps
      (payloadCmdComposite (handleOnePayload D time) p.payload) :=
    payloadCmdComposite_authentic (fun q => handleAt_keepsLength D time _ q)
      (fun q => handleAt_authentic _ q) p.payload
  obtain ⟨new, hnew, -⟩ := runCommand_authentic hcomposite p.commandText
    { t with dispatched := t.dispatched ++ [(p.commandText, p.payload)] }
  simp only
  rw [hnew, hsent]
  exact List.prefix_append _ _

variable {D time}

/-- Past both checks the payload is dispatched. -/
theorem handleOnePayload_accepts {p : DumbPayload} {s : State}
    (hfresh : (dpIsExpiredCompare (D.clock s.ticks) time p).1 = false)
    (hverify : (dpVerify D.ed D.publicKeyHex (p.payload.length + sizeofDumbPayload)
      (dpIsExpiredCompare (D.clock s.ticks) time p).2).1 = .ok ()) :
    handleOnePayload D time p s =
      dispatch D (payloadCmdComposite (handleOnePayload D time))
        (zeroSignature (dpIsExpiredCompare (D.clock s.ticks) time p).2)
        { s with ticks := s.ticks + 1 } := by
  have hsnd := dpVerify_snd_of_ok hverify
  rw [handleOnePayload_eq, handleWith_run]
  simp only [hfresh, Bool.false_eq_true, if_false, dpIsExpiredCompare_payload]
  generalize dpVerify D.ed D.publicKeyHex (p.payload.length + sizeofDumbPayload)
    (dpIsExpiredCompare (D.clock s.ticks) time p).2 = v at hverify hsnd
  obtain ⟨result, q⟩ := v
  obtain rfl : result = .ok () := hverify
  obtain rfl : q = _ := hsnd
  rfl

/-- A payload that is refused by the signature check is not dispatched, and an error is returned. -/
theorem handleOnePayload_rejects {p : DumbPayload} {s : State} {err : Errno}
    (hfresh : (dpIsExpiredCompare (D.clock s.ticks) time p).1 = false)
    (hverify : (dpVerify D.ed D.publicKeyHex (p.payload.length + sizeofDumbPayload)
      (dpIsExpiredCompare (D.clock s.ticks) time p).2).1 = .error err) :
    (handleOnePayload D time p s).1.1 = err.code ∧
      (handleOnePayload D time p s).2.dispatched = s.dispatched := by
  rw [handleOnePayload_eq, handleWith_run]
  simp only [hfresh, Bool.false_eq_true, if_false, dpIsExpiredCompare_payload]
  generalize dpVerify D.ed D.publicKeyHex (p.payload.length + sizeofDumbPayload)
    (dpIsExpiredCompare (D.clock s.ticks) time p).2 = v at hverify
  obtain ⟨result, q⟩ := v
  obtain rfl : result = .error err := hverify
  exact ⟨rfl, fixes_send _ _⟩

/-- A time that is there passes through both checks. -/
theorem handleOnePayload_absolute {p : DumbPayload} {s : State} (hset : dpGetExpire p ≠ -1)
    (htime : dpGetExpire p = 0 ∨ time < dpGetExpire p)
    (hverify : (dpVerify D.ed D.publicKeyHex (p.payload.length + sizeofDumbPayload) p).1 = .ok ()) :
    handleOnePayload D time p s =
      dispatch D (payloadCmdComposite (handleOnePayload D time)) (zeroSignature p)
        { s with ticks := s.ticks + 1 } := by
  have hsame : dpIsExpiredCompare (D.clock s.ticks) time p = (false, p) := by
    rw [dpIsExpiredCompare_absolute hset, decide_eq_false]
    omega
  rw [handleOnePayload_accepts (by rw [hsame]) (by rw [hsame]; exact hverify), hsame]

theorem handleOnePayload_absolute_prefix {p : DumbPayload} {s : State} (hset : dpGetExpire p ≠ -1)
    (htime : dpGetExpire p = 0 ∨ time < dpGetExpire p)
    (hverify : (dpVerify D.ed D.publicKeyHex (p.payload.length + sizeofDumbPayload) p).1 = .ok ()) :
    s.dispatched ++ [(p.commandText, p.payload)] <+:
      (handleOnePayload D time p s).2.dispatched := by
  rw [handleOnePayload_absolute hset htime hverify]
  exact dispatch_prefix D time (zeroSignature p) { s with ticks := s.ticks + 1 }

/-- The check leaves the signed bytes as they are. -/
def SignedBytesStay (now : ℤ) (p : DumbPayload) : Prop := dpGetExpire p ≠ -1 ∨ FindsMinusOne now p

/-- Only a payload that the check does not write to keeps the bytes that were signed. -/
theorem signedBytesStay_of_eq {now time : ℤ} {p : DumbPayload} {size : ℕ}
    (hsize : size = p.toBytes.length)
    (h : signedBytes (dpIsExpiredCompare now time p).2 size = signedBytes p size) :
    SignedBytesStay now p := by
  by_cases hset : dpGetExpire p = -1
  · right
    rw [signedBytes_all _ (by rw [dpIsExpiredCompare_toBytes_length, hsize]),
      signedBytes_all _ hsize.ge, dpIsExpiredCompare_snd, dpGetExpireOrSet_unset hset] at h
    have hzero : zeroSignature (dpSetExpire p (firstUse now p)) = zeroSignature p :=
      DumbPayload.toBytes_injective h
    apply (dpSetExpire_firstUse_eq_iff hset now).mp
    rw [dpSetExpire]
    exact DumbPayload.ext rfl (DumbPayload.mk.inj hzero).2.1 rfl rfl rfl rfl
  · exact Or.inl hset

theorem dpIsExpiredCompare_of_signedBytesStay {now time : ℤ} {p : DumbPayload}
    (h : SignedBytesStay now p) : (dpIsExpiredCompare now time p).2 = p := by
  by_cases hset : dpGetExpire p = -1
  · rw [dpIsExpiredCompare_snd, dpGetExpireOrSet_unset hset]
    exact (dpSetExpire_firstUse_eq_iff hset now).mpr (h.resolve_left (not_not.mpr hset))
  · rw [dpIsExpiredCompare_absolute hset]

section Signed
variable (K : KeyPair D.ed) (hkey : D.publicKeyHex = K.publicHex) {p₀ p : DumbPayload} {size : ℕ}
  (hlen : size = p₀.toBytes.length) (hsize : dpValidateSize p₀ size)
  (hsign : dpSign D.ed K.privateHex size p₀ = (.ok (), p))
  (hbinds : K.Binds (signatureText p) (signedBytes p size))
include K hkey hlen hsize hsign hbinds

/-- The outcome of the signature check on a payload that was signed with its own size. -/
theorem dpVerify_signed (now time : ℤ) :
    (dpVerify D.ed D.publicKeyHex (p.payload.length + sizeofDumbPayload)
      (dpIsExpiredCompare now time p).2).1 = .ok () ↔ SignedBytesStay now p := by
  have hverify := (dpVerify_dpSign K hsign).mpr hsize
  obtain ⟨-, -, signature, -, hp⟩ := dpSign_eq_ok hsign
  have hbytes : size = p.toBytes.length := by
    rw [hlen, hp, DumbPayload.toBytes_length, DumbPayload.toBytes_length]
    rfl
  have hargs : p.payload.length + sizeofDumbPayload = size := by
    rw [hbytes, DumbPayload.toBytes_length, Nat.add_comm]
  rw [hkey, hargs]
  constructor
  · intro haccept
    obtain ⟨-, -, hsigned⟩ := dpVerify_eq_ok_iff.mp haccept
    rw [signatureText, dpIsExpiredCompare_signature] at hsigned
    exact signedBytesStay_of_eq hbytes (hbinds _ hsigned)
  · intro hstay
    rw [dpIsExpiredCompare_of_signedBytesStay hstay]
    exact hverify

theorem handleOnePayload_signed {s : State} (hfresh : NotExpired (D.clock s.ticks) time p) :
    (s.dispatched ++ [(p.commandText, p.payload)] <+: (handleOnePayload D time p s).2.dispatched ∧
      SignedBytesStay (D.clock s.ticks) p) ∨
    ((handleOnePayload D time p s).1.1 ≠ 0 ∧
      (handleOnePayload D time p s).2.dispatched = s.dispatched ∧
      ¬SignedBytesStay (D.clock s.ticks) p) := by
  have hiff := dpVerify_signed K hkey hlen hsize hsign hbinds (D.clock s.ticks) time
  have hnot := dpIsExpiredCompare_of_notExpired hfresh
  cases hresult : (dpVerify D.ed D.publicKeyHex (p.payload.length + sizeofDumbPayload)
      (dpIsExpiredCompare (D.clock s.ticks) time p).2).1 with
  | ok _ =>
    have hstay := hiff.mp hresult
    refine Or.inl ⟨?_, hstay⟩
    rw [handleOnePayload_accepts hnot hresult, dpIsExpiredCompare_of_signedBytesStay hstay]
    exact dispatch_prefix D time (zeroSignature p) { s with ticks := s.ticks + 1 }
  | error err =>
    obtain ⟨hret, hsame⟩ := handleOnePayload_rejects hnot hresult
    refine Or.inr ⟨?_, hsame, ?_⟩
    · rw [hret, Errno.code]
      exact_mod_cast err.ne_zero
    · intro hstay
      rw [hiff.mpr hstay] at hresult
      cases hresult

/-- A signed payload that is not expired is dispatched exactly when the check leaves the signed
bytes, when it comes directly and when a composite reaches it. -/
theorem handleOnePayload_accepts_iff {s : State} (hfresh : NotExpired (D.clock s.ticks) time p) :
    (s.dispatched ++ [(p.commandText, p.payload)] <+: (handleOnePayload D time p s).2.dispatched ↔
      SignedBytesStay (D.clock s.ticks) p) ∧
    ∀ count offset data entry, entryAt offset data = some entry → entry.val = p.toBytes →
      (s.dispatched ++ [(p.commandText, p.payload)] <+:
        (compositeLoop (handleOnePayload D time) (count + 1) offset data s).2.dispatched ↔
      SignedBytesStay (D.clock s.ticks) p) := by
  have hcases := handleOnePayload_signed K hkey hlen hsize hsign hbinds hfresh
  have hno : ∀ t : State, t.dispatched = s.dispatched →
      ¬s.dispatched ++ [(p.commandText, p.payload)] <+: t.dispatched := by
    intro t ht hbegins
    have := hbegins.length_le
    rw [ht, List.length_append, List.length_singleton] at this
    omega
  constructor
  · rcases hcases with ⟨hbegins, hstay⟩ | ⟨-, hsame, hstay⟩
    · exact ⟨fun _ => hstay, fun _ => hbegins⟩
    · exact ⟨fun h => absurd h (hno _ hsame), fun h => absurd h hstay⟩
  · intro count offset data entry hentry hval
    have hp : DumbPayload.ofBytes entry.val entry.property = p := by
      apply DumbPayload.toBytes_injective
      rw [DumbPayload.toBytes_ofBytes, hval]
    rw [compositeLoop_succ hentry, hp]
    rcases hcases with ⟨hbegins, hstay⟩ | ⟨hret, hsame, hstay⟩
    · refine ⟨fun _ => hstay, fun _ => hbegins.trans ?_⟩
      simp only
      split_ifs
      · exact (leaving_keeps (fixes_fail _ _) _ _).symm ▸ List.prefix_rfl
      · obtain ⟨new, hnew, -⟩ := @compositeLoop_authentic D time _
          (fun q => handleAt_keepsLength D time _ q) (fun q => handleAt_authentic _ q) count
          (offset + 4 + entry.val.length) _ _ rfl rfl (handleOnePayload D time p s).2
        exact hnew ▸ List.prefix_append _ _
    · refine ⟨fun h => absurd h (hno _ ?_), fun h => absurd h hstay⟩
      simp only [if_pos hret]
      exact (leaving_keeps (fixes_fail _ _) _ _).trans hsame

end Signed

/-- A device that holds the key of the one signature there is, and a standing clock. -/
def signedDevice (expire : Bytes) (now : ℤ) : Device :=
  Device.plain (Ed25519.single (DumbPayload.unsigned expire (ascii "ok") []).toBytes) now

def signedPayload (expire : Bytes) : DumbPayload :=
  setSignature (DumbPayload.unsigned expire (ascii "ok") []) singleSignature

theorem signedBytes_signedPayload (expire : Bytes) :
    signedBytes (signedPayload expire) sizeofDumbPayload =
      (DumbPayload.unsigned expire (ascii "ok") []).toBytes :=
  signedBytes_all (signedPayload expire) (DumbPayload.toBytes_length _).le

theorem handleOnePayload_accepts_forever :
    [(ascii "ok", [])] <+: (handleOnePayload (signedDevice (ascii "0") 1000) 1000
      (signedPayload (ascii "0")) State.start).2.dispatched := by
  obtain ⟨hdirect, -⟩ := @handleOnePayload_accepts_iff (signedDevice (ascii "0") 1000) 1000
    (KeyPair.single (DumbPayload.unsigned (ascii "0") (ascii "ok") []).toBytes) rfl
    (DumbPayload.unsigned (ascii "0") (ascii "ok") []) (signedPayload (ascii "0")) 168
    (by decide +kernel) (by decide +kernel) (by decide +kernel)
    ((signedBytes_signedPayload (ascii "0")).symm ▸ KeyPair.single_binds _ _) State.start
    (Or.inl (by decide +kernel))
  exact hdirect.mpr (Or.inl (by decide))

/-- The default field is rewritten on its first use, and the signature does not hold any more. -/
theorem handleOnePayload_default :
    dpValidateSize (DumbPayload.unsigned [] (ascii "ok") []) 168 ∧
      dpSign (signedDevice [] 1000).ed (List.replicate 64 98) 168
        (DumbPayload.unsigned [] (ascii "ok") []) = (.ok (), signedPayload []) ∧
      NotExpired 1000 1000 (signedPayload []) ∧
      (handleOnePayload (signedDevice [] 1000) 1000 (signedPayload []) State.start).1.1 =
        EPERM.code ∧
      (handleOnePayload (signedDevice [] 1000) 1000 (signedPayload []) State.start).2.dispatched =
        [] := by
  refine ⟨by decide +kernel, by decide +kernel, ?_, by decide +kernel, by decide +kernel⟩
  rw [NotExpired, if_pos (by decide)]
  decide

end Dumbos.Daemon
