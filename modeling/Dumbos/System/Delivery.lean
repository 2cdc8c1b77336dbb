import Dumbos.Daemon.Acceptance
import Dumbos.Daemon.Speech
import Dumbos.RustServer.FirstUse

/-! # From the server to the device

A payload leaves the server with a time in its expire field, so the device reads it
without writing, verifies the bytes that were signed, and dispatches the command
and the data of the file.
-/
namespace Dumbos.System
open Foundation Common Payload Daemon RustServer

/-- The response of the server for a file: the same but for the signature and the expire field. -/
structure Response (E : Ed25519) (publicHex : Bytes) (now : ℤ) (file : DumbPayload)
    (p : DumbPayload) : Prop where
  command : p.commandText = file.commandText
  payload : p.payload = file.payload
  set : dpGetExpire p ≠ -1
  /-- Fifteen digits fit in the field. -/
  time : dpGetExpire p = 0 ∨ min now (10 ^ 14 - 1) < dpGetExpire p
  verified : (dpVerify E publicHex (p.payload.length + sizeofDumbPayload) p).1 = .ok ()

theorem response_of_servePayload {E : Ed25519} (K : KeyPair E) {env : Env} {user code : Bytes}
    {personal : Bool} {file bytes : Bytes}
    (h : servePayload E K.privateHex env user code personal file = .ok bytes)
    (hclock : 0 ≤ env.now) :
    ∃ (hfile : sizeofDumbPayload ≤ file.length) (p : DumbPayload), bytes = p.toBytes ∧
      Response E K.publicHex env.now (DumbPayload.ofBytes file hfile) p := by
  obtain ⟨hfile, hsize, hfresh, q, hsign, rfl⟩ := servePayload_eq_ok h
  refine ⟨hfile, q, rfl, ?_⟩
  rw [dpIsExpired_eq_compare] at hfresh hsign
  have hverify := dpVerify_dpSign K hsign
  have hsame : dpValidateSize (dpIsExpiredCompare env.now env.now (DumbPayload.ofBytes file hfile)).2
      file.length = dpValidateSize (DumbPayload.ofBytes file hfile) file.length :=
    dpValidateSize_congr (dpIsExpiredCompare_dataSize _ _ _) _
  have htime := lt_dpGetExpire_of_not_expired _ hfresh
  obtain ⟨-, -, signature, -, rfl⟩ := dpSign_eq_ok hsign
  have hexpire : dpGetExpire (setSignature (dpIsExpiredCompare env.now env.now
      (DumbPayload.ofBytes file hfile)).2 signature) =
        dpGetExpire (dpIsExpiredCompare env.now env.now (DumbPayload.ofBytes file hfile)).2 :=
    dpGetExpire_congr rfl
  have hdata : (setSignature (dpIsExpiredCompare env.now env.now
      (DumbPayload.ofBytes file hfile)).2 signature).payload = (DumbPayload.ofBytes file hfile).payload :=
    dpIsExpiredCompare_payload _ _ _
  have hlen : (DumbPayload.ofBytes file hfile).payload.length + sizeofDumbPayload = file.length := by
    rw [DumbPayload.ofBytes_payload_length, Nat.sub_add_cancel hfile]
  constructor
  · exact congrArg (fun c : Field COMMAND_SIZE => cstr (c.val.take (COMMAND_SIZE - 1)))
      (dpIsExpiredCompare_command _ _ _)
  · exact hdata
  · rw [hexpire]
    omega
  · rwa [hexpire]
  · rw [hdata, hlen]
    exact hverify.mpr (hsame.trans hsize)

/-- What the server answers with, the device accepts as it is and carries out. -/
theorem dumbcodeMain_delivers (D : Device) (K : KeyPair D.ed) (hkey : D.publicKeyHex = K.publicHex)
    {directory : Bytes} {s : Server} {v : Visit} {bytes : Bytes}
    (h : (dumbcodeMain D.ed K.privateHex directory s v).1 = some (.ok bytes))
    (hclock : 0 ≤ v.env.now) :
    ∃ (personal : Bool) (file : Bytes) (hfile : sizeofDumbPayload ≤ file.length)
      (hbytes : sizeofDumbPayload ≤ bytes.length) (e : ℤ),
      Reads directory s.files v personal file ∧
      parseLongLong (cstr (DumbPayload.ofBytes bytes hbytes).expire.val) = some e ∧
      e ≠ -1 ∧ (v.env.now < 10 ^ 12 → e = 0 ∨ v.env.now < e) ∧
      ∀ (time : ℤ) (t : State), e = 0 ∨ time < e →
        dpIsExpiredCompare (D.clock t.ticks) time (DumbPayload.ofBytes bytes hbytes) =
          (false, DumbPayload.ofBytes bytes hbytes) ∧
        (dpVerify D.ed D.publicKeyHex bytes.length (DumbPayload.ofBytes bytes hbytes)).1 = .ok () ∧
        t.dispatched ++ [((DumbPayload.ofBytes file hfile).commandText, file.drop sizeofDumbPayload)]
          <+: (handleDownload D time bytes t).2.dispatched := by
  obtain ⟨-, personal, file, hreads, hserve⟩ := dumbcodeMain_eq_ok h
  obtain ⟨hfile, p, rfl, hp⟩ := response_of_servePayload K hserve hclock
  have hlater := hp.time
  refine ⟨personal, file, hfile, p.le_toBytes_length, dpGetExpire p, hreads, ?_, hp.set,
    fun hrange => by omega, ?_⟩
  · rw [DumbPayload.ofBytes_toBytes]
    have hset := hp.set
    rw [dpGetExpire, cstr_append_singleton_zero] at hset ⊢
    cases hparse : parseLongLong (cstr p.expire.val) with
    | none =>
      rw [hparse] at hset
      exact absurd rfl hset
    | some e => rfl
  · intro time t htime
    have hverified := hp.verified
    rw [← hkey] at hverified
    rw [DumbPayload.ofBytes_toBytes, handleDownload_run D time p.le_toBytes_length,
      DumbPayload.ofBytes_toBytes, DumbPayload.toBytes_length, Nat.add_comm]
    refine ⟨?_, hverified, ?_⟩
    · rw [dpIsExpiredCompare_absolute hp.set, decide_eq_false]
      omega
    · have hdispatch := handleOnePayload_absolute_prefix (s := t) hp.set htime hverified
      rw [hp.command, hp.payload] at hdispatch
      exact hdispatch

theorem dumbcodeMain_delivers_defaultServer :
    [(ascii "ok", [])] <+: (handleDownload (Device.plain Ed25519.always 5) 1030 (defaultAnswer 1000)
      State.start).2.dispatched := by
  obtain ⟨personal, file, hfile, hbytes, e, hreads, hparse, -, -, hdelivers⟩ :=
    @dumbcodeMain_delivers (Device.plain Ed25519.always 5) KeyPair.always rfl (ascii "d") defaultServer
      (visitAt (ascii "a") 1000) (defaultAnswer 1000) (by decide +kernel) (by decide)
  have hexpire : parseLongLong (cstr (DumbPayload.ofBytes (defaultAnswer 1000) hbytes).expire.val) =
      some 1060 := by
    clear hparse hdelivers
    revert hbytes
    decide +kernel
  obtain rfl : e = 1060 := Option.some.inj (hparse.symm.trans hexpire)
  obtain ⟨-, rfl⟩ := hreads.unique defaultServer_reads
  have hcommand : (DumbPayload.ofBytes (DumbPayload.unsigned [] (ascii "ok") []).toBytes
      hfile).commandText = ascii "ok" := by
    clear hdelivers
    revert hfile
    decide +kernel
  obtain ⟨-, -, hdispatch⟩ := hdelivers 1030 State.start (by norm_num)
  rwa [hcommand] at hdispatch

end Dumbos.System
