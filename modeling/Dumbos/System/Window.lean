import Dumbos.CServer.FirstUse
import Dumbos.Daemon.Authenticity

/-! # The time in which a code works

A code that is valid for some seconds from its first use stands in a file of the C
server, and the file remembers the first use. Whoever is between the server and the
devices can keep what was served, play it again, change it, cut it and nest it. He
cannot sign, so no device carries the code out when its seconds are over.
-/
namespace Dumbos.System
open Foundation Common Payload Daemon CServer

/-- The bytes that the server has signed. -/
def Signed (calls : List (Call FileSystem LoadCall (Option (DumbPayload × ℕ)))) (m : Bytes) : Prop :=
  ∃ e ∈ calls, ∃ q n, e.output = some (q, n) ∧ m = signedBytes q n

/-- The signatures in a buffer are accepted for nothing but what has been signed. -/
def Unforged {E : Ed25519} (K : KeyPair E) (signed : Bytes → Prop) (buffer : Bytes) : Prop :=
  ∀ (pre suf : Bytes) (q : DumbPayload), buffer = pre ++ (q.toBytes ++ suf) →
    ∀ m, E.verifyHex K.publicHex m (signatureText q) = .ok () → signed m

section Server
variable {E : Ed25519} {key : Bytes} {fs : FileSystem} {path : Bytes}

/-- What is served of a frozen file is the file. -/
theorem served_frozen (hs : Signs E key) {fs₁ : FileSystem} {c : LoadCall} (hc : c.Opens fs path)
    {p : DumbPayload} (hp : dpGetExpire p ≠ -1) (h : HoldsAt fs path p.toBytes fs₁) {q : DumbPayload}
    {n : ℕ} (hout : (dpMallocCheckLoad E key fs₁ c).1 = some (q, n)) :
    ∃ s, q = setSignature p s ∧ n = p.toBytes.length := by
  have hstep := dpMallocCheckLoad_step hs hc h p.le_toBytes_length
  rw [DumbPayload.ofBytes_toBytes, dpIsExpired_eq_compare, dpIsExpiredCompare_absolute hp] at hstep
  simp only at hstep
  split_ifs at hstep
  · rw [hstep] at hout
    cases hout
  · obtain ⟨s, hserved, -⟩ := hstep
    rw [hserved, Option.some.injEq, Prod.mk.injEq] at hout
    exact ⟨s, hout.1.symm, hout.2.symm⟩

/-- The payload that the file holds once it has been used. -/
def usedPayload (now : ℤ) (p : DumbPayload) : DumbPayload := dpSetExpire p (firstUse now p)

theorem dpIsExpired_used {p : DumbPayload} (hunset : dpGetExpire p = -1) (now : ℤ) :
    (dpIsExpired now p).2 = usedPayload now p := by
  rw [dpIsExpired_eq_compare, dpIsExpiredCompare_snd, dpGetExpireOrSet_unset hunset]
  rfl

/-- A few seconds behind a time of the server fit in the field. -/
theorem dpGetExpire_used {p : DumbPayload} {now : ℤ} (hnow : 0 ≤ now ∧ now ≤ 10 ^ 12)
    (hoffset : 0 < useOffset p ∧ useOffset p < 10 ^ 14) :
    dpGetExpire (usedPayload now p) = now + useOffset p := by
  apply dpGetExpire_dpSetExpire_eq
  · rw [firstUse]
    omega
  · rw [firstUse]
    omega

/-- Either nothing is served, or there is a first use, and what is served is the file as it was left
by it. -/
theorem served_firstUse (hs : Signs E key) {p : DumbPayload} (hunset : dpGetExpire p = -1)
    (hoffset : 0 < useOffset p ∧ useOffset p < 10 ^ 14) {fs₁ : FileSystem}
    (h : HoldsAt fs path p.toBytes fs₁) {calls : List LoadCall} (hcalls : ∀ c ∈ calls, c.Opens fs path)
    (hsorted : calls.Pairwise (fun c d => c.now ≤ d.now)) :
    (∀ e ∈ trace (dpMallocCheckLoad E key) fs₁ calls, e.output = none) ∨
      ∃ first ∈ calls,
        (∀ e ∈ trace (dpMallocCheckLoad E key) fs₁ calls, e.output.isSome →
          first.now ≤ e.input.now) ∧
        ∀ e ∈ trace (dpMallocCheckLoad E key) fs₁ calls, ∀ q n, e.output = some (q, n) →
          ∃ s, q = setSignature (usedPayload first.now p) s ∧
            n = (usedPayload first.now p).toBytes.length := by
  induction calls generalizing fs₁ with
  | nil => exact Or.inl (by simp)
  | cons c calls ih =>
    have hc : c.Opens fs path := hcalls c (by simp)
    have hrest : ∀ d ∈ calls, d.Opens fs path := fun d hd => hcalls d (List.mem_cons_of_mem _ hd)
    obtain ⟨hlater, hsorted⟩ := List.pairwise_cons.mp hsorted
    have hstep := dpMallocCheckLoad_step hs hc h p.le_toBytes_length
    rw [DumbPayload.ofBytes_toBytes] at hstep
    simp only at hstep
    split_ifs at hstep with hrefuses
    · -- a call that refuses leaves the file for a later first use
      have hnone : (dpMallocCheckLoad E key fs₁ c).1 = none := by rw [hstep]
      have hnext : HoldsAt fs path p.toBytes (dpMallocCheckLoad E key fs₁ c).2 := by
        rw [hstep]
        exact h
      rcases ih hnext hrest hsorted with hall | ⟨first, hfirst, hnow, hserved⟩
      · left
        rw [trace_cons, List.forall_mem_cons]
        exact ⟨hnone, hall⟩
      · right
        refine ⟨first, List.mem_cons_of_mem _ hfirst, ?_, ?_⟩
        · rw [trace_cons, List.forall_mem_cons]
          refine ⟨fun hsome => ?_, hnow⟩
          rw [callOf, hnone] at hsome
          cases hsome
        · rw [trace_cons, List.forall_mem_cons]
          refine ⟨fun q n hout => ?_, hserved⟩
          rw [callOf, hnone] at hout
          cases hout
    · obtain ⟨signature, hserved, hafter⟩ := hstep
      rw [dpIsExpired_used hunset] at hserved hafter
      have hset : dpGetExpire (usedPayload c.now p) ≠ -1 := by
        have hclock := hc.clock
        rw [dpGetExpire_used hclock hoffset]
        omega
      right
      refine ⟨c, by simp, ?_, ?_⟩
      · rw [trace_cons, List.forall_mem_cons]
        refine ⟨fun _ => le_rfl, fun e he _ => hlater _ (input_mem_of_mem_trace _ he)⟩
      · rw [trace_cons, List.forall_mem_cons]
        constructor
        · intro q n hout
          rw [callOf, hserved, Option.some.injEq, Prod.mk.injEq] at hout
          refine ⟨signature, hout.1.symm, ?_⟩
          rw [← hout.2, DumbPayload.toBytes_length, DumbPayload.toBytes_length]
          rfl
        · intro e he q n hout
          have hint : ¬NegativeInt (usedPayload c.now p).toBytes.length := by
            intro hnegative
            rw [DumbPayload.toBytes_length] at hnegative
            apply hrefuses
            right
            rw [DumbPayload.toBytes_length]
            exact hnegative
          obtain ⟨hbefore, -, -⟩ := trace_frozen hs hset hint hafter hrest e he
          rw [eq_callOf_of_mem_trace _ he] at hout
          exact served_frozen hs (hrest _ (input_mem_of_mem_trace _ he)) hset hbefore hout

end Server

section Device
variable {D : Device} {path : Bytes} {fs : FileSystem}

/-- On every network between the server and the devices: what is dispatched is the command of the
file with its data, the code has been used, and its seconds since the first use are not over. -/
theorem dispatched_inWindow (K : KeyPair D.ed) (hkey : D.publicKeyHex = K.publicHex)
    (hs : Signs D.ed K.privateHex) {p : DumbPayload} (hread : fs path = some p.toBytes)
    (hunset : dpGetExpire p = -1) (hoffset : 0 < useOffset p ∧ useOffset p < 10 ^ 14)
    {calls : List LoadCall} (hcalls : ∀ c ∈ calls, c.Opens fs path)
    (hsorted : calls.Pairwise (fun c d => c.now ≤ d.now)) (buffer : DumbPayload)
    (hunforged : Unforged K (Signed (trace (dpMallocCheckLoad D.ed K.privateHex) fs calls))
      buffer.toBytes) {time : ℤ} (htime : time ≤ 10 ^ 12) (s : State) :
    ∃ new, (handleOnePayload D time buffer s).2.dispatched = s.dispatched ++ new ∧
      ∀ x ∈ new, x = (p.commandText, p.payload) ∧
        (∃ e ∈ trace (dpMallocCheckLoad D.ed K.privateHex) fs calls, e.output.isSome) ∧
        ∀ e ∈ trace (dpMallocCheckLoad D.ed K.privateHex) fs calls, e.output.isSome →
          time < e.input.now + useOffset p := by
  obtain ⟨new, hnew, hauthentic⟩ := handleOnePayload_authentic D time buffer s
  refine ⟨new, hnew, fun x hx => ?_⟩
  obtain ⟨q, ⟨pre, suf, hpart⟩, -, -, -, hcommand, hdata, tick, hverified, hahead⟩ := hauthentic x hx
  rw [hkey] at hverified
  obtain ⟨e, he, served, n, hout, hsigned⟩ := hunforged pre suf q hpart _ hverified
  rcases served_firstUse hs hunset hoffset ⟨fun _ => rfl, hread⟩ hcalls hsorted with
    hnone | ⟨first, hfirst, hearliest, hserved⟩
  · rw [hnone e he] at hout
    cases hout
  · obtain ⟨signature, rfl, rfl⟩ := hserved e he served n hout
    have hsame : zeroSignature (verifiedPayload (D.clock tick) q) =
        zeroSignature (usedPayload first.now p) := by
      apply DumbPayload.toBytes_injective
      rw [hsigned, signedBytes_setSignature, signedBytes_all _ le_rfl]
    have hclock := (hcalls first hfirst).clock
    have hexpire : dpGetExpire (verifiedPayload (D.clock tick) q) = first.now + useOffset p := by
      have hfield := congrArg DumbPayload.expire hsame
      rw [← dpGetExpire_used hclock hoffset]
      exact dpGetExpire_congr hfield
    have hcmd : (verifiedPayload (D.clock tick) q).commandText = p.commandText := by
      have hfield := congrArg DumbPayload.commandText hsame
      exact hfield
    have hpayload : (verifiedPayload (D.clock tick) q).payload = p.payload := by
      have hfield := congrArg DumbPayload.payload hsame
      exact hfield
    have hframe : (verifiedPayload (D.clock tick) q).commandText = q.commandText ∧
        (verifiedPayload (D.clock tick) q).payload = q.payload := by
      rw [verifiedPayload]
      split_ifs <;> exact ⟨rfl, rfl⟩
    refine ⟨Prod.ext ?_ ?_, ⟨e, he, by rw [hout]; rfl⟩, ?_⟩
    · rw [← hcommand, ← hframe.1, hcmd]
    · rw [← hdata, ← hframe.2, hpayload]
    · intro e' he' hsome
      have hfirst_le := hearliest e' he' hsome
      rw [hexpire] at hahead
      omega

end Device

section Example

/-- Valid for 60 seconds, and used at the time 1000. -/
def playedPayload : DumbPayload := setSignature (usedPayload 1000 defaultPayload) singleSignature

def otherSignature : SignatureHex := ⟨List.replicate 128 98, List.length_replicate, by simp⟩

/-- One message has a signature of its own. -/
def Ed25519.apart (m : Bytes) : Ed25519 where
  signHex _ data := .ok (if data = m then singleSignature else otherSignature)
  verifyHex _ data signature :=
    if signature = (if data = m then singleSignature else otherSignature).val then .ok ()
    else .error EPERM

def apartKey (c : UInt8) : Bytes := List.replicate 64 c

theorem apartKey_length (c : UInt8) : (apartKey c).length = 64 := List.length_replicate

theorem Ed25519.apart_correct (m data : Bytes) (s : SignatureHex)
    (h : (Ed25519.apart m).signHex (apartKey 98) data = .ok s) :
    (Ed25519.apart m).verifyHex (apartKey 99) data s.val = .ok () := by
  simp only [Ed25519.apart, Except.ok.injEq] at h ⊢
  rw [h, if_pos rfl]

def KeyPair.apart (m : Bytes) : KeyPair (Ed25519.apart m) where
  privateHex := apartKey 98
  publicHex := apartKey 99
  private_length := apartKey_length _
  public_length := apartKey_length _
  correct := Ed25519.apart_correct m

def playedMessage : Bytes := (zeroSignature playedPayload).toBytes

def playedDevice : Device := Device.plain (Ed25519.apart playedMessage) 5

/-- What was served at the time 1000 is played again. -/
theorem dispatched_inWindow_played :
    ∃ new, (handleOnePayload playedDevice 1059 playedPayload State.start).2.dispatched =
        State.start.dispatched ++ new ∧
      ∀ x ∈ new, x = (defaultPayload.commandText, defaultPayload.payload) ∧
        (∃ e ∈ trace (dpMallocCheckLoad playedDevice.ed (KeyPair.apart playedMessage).privateHex)
          (oneCode defaultPayload.toBytes) [callOne 1000, callOne 1030], e.output.isSome) ∧
        ∀ e ∈ trace (dpMallocCheckLoad playedDevice.ed (KeyPair.apart playedMessage).privateHex)
          (oneCode defaultPayload.toBytes) [callOne 1000, callOne 1030], e.output.isSome →
            (1059 : ℤ) < e.input.now + useOffset defaultPayload := by
  apply @dispatched_inWindow playedDevice (codePath (ascii "1")) (oneCode defaultPayload.toBytes)
    (KeyPair.apart playedMessage) rfl
  · exact ⟨apartKey_length _, fun m => ⟨_, rfl⟩⟩
  · decide +kernel
  · decide +kernel
  · decide +kernel
  · intro c hc
    simp only [List.mem_cons, List.not_mem_nil, or_false] at hc
    rcases hc with rfl | rfl <;> exact ⟨by decide, rfl, by decide⟩
  · decide
  · intro pre suf q hpart m haccept
    obtain rfl := eq_of_part rfl hpart
    have hm : m = playedMessage := by
      by_contra hm
      simp only [playedDevice, Device.plain, Ed25519.apart, if_neg hm] at haccept
      revert haccept
      decide +kernel
    refine ⟨callOf _ _ (callOne 1000), by rw [trace_cons]; exact List.mem_cons_self, playedPayload,
      168, ?_, ?_⟩
    · decide +kernel
    · rw [hm]
      decide +kernel
  · norm_num

/-- The last second, and the first one after it. -/
example : (handleOnePayload playedDevice 1059 playedPayload State.start).2.dispatched =
      [(ascii "ok", [])] ∧
    (handleOnePayload playedDevice 1060 playedPayload State.start).2.dispatched = [] := by
  decide +kernel

end Example

end Dumbos.System
