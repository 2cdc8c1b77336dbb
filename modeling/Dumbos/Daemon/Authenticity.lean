import Dumbos.Daemon.OnePayload

/-! # Nothing is dispatched without a signature

Whatever the nesting, a dispatched command stands with its data in a part of the
buffer that is a payload of its own, whose bytes were accepted under the public
key of the device and whose time had not come. Siblings and outer payloads only
write over bytes that lie elsewhere.
-/
namespace Dumbos.Daemon
open Foundation Common Payload

/-- The bytes that are verified: without a time, the time of first use is written first. -/
def verifiedPayload (now : ℤ) (q : DumbPayload) : DumbPayload :=
  if dpGetExpire q = -1 then dpSetExpire q (dpGetExpireOrSet now q).1 else q

theorem dpGetExpireOrSet_verifiedPayload (now : ℤ) (q : DumbPayload) :
    (dpGetExpireOrSet now q).2 = verifiedPayload now q := by
  rw [verifiedPayload]
  split_ifs with h
  · rw [dpGetExpireOrSet_unset h]
  · rw [dpGetExpireOrSet_absolute h]

/-- A part of the buffer is a payload with this command and this data, accepted under the key, and
its time is not over. A time of first use of more than fifteen digits is cut when it is written. -/
structure AuthenticAt (D : Device) (time : ℤ) (buffer cmd data : Bytes) (q : DumbPayload) : Prop where
  part : ∃ pre suf, buffer = pre ++ (q.toBytes ++ suf)
  key : D.publicKeyHex.length = ED25519_PUBLIC_KEY_HEX_SIZE - 1
  limit : bigEndian q.dataSize.val ≤ DUMB_PAYLOAD_DATA_MAX_SIZE
  size : q.toBytes.length = sizeofDumbPayload + bigEndian q.dataSize.val
  command : q.commandText = cmd
  data : q.payload = data
  verified : ∃ tick, D.ed.verifyHex D.publicKeyHex
      (zeroSignature (verifiedPayload (D.clock tick) q)).toBytes (signatureText q) = .ok () ∧
    (dpGetExpire (verifiedPayload (D.clock tick) q) = 0 ∨
      time < dpGetExpire (verifiedPayload (D.clock tick) q) ∨
      dpGetExpire q = -1 ∧ 10 ^ 14 ≤ dpGetExpire (verifiedPayload (D.clock tick) q))

def Authentic (D : Device) (time : ℤ) (buffer : Bytes) (x : Bytes × Bytes) : Prop :=
  ∃ q, AuthenticAt D time buffer x.1 x.2 q

/-- Only authentic commands are dispatched. -/
def dispatchesAuthentic (D : Device) (time : ℤ) (buffer : Bytes) : Frame State :=
  Frame.appends State.dispatched (Authentic D time buffer)

variable {D : Device} {time : ℤ}

/-- What is authentic in a part is authentic in the whole. -/
theorem Authentic.mono {buffer : Bytes} {x : Bytes × Bytes} (h : Authentic D time buffer x)
    (pre suf : Bytes) : Authentic D time (pre ++ (buffer ++ suf)) x := by
  obtain ⟨q, ⟨a, b, hpart⟩, hkey, hlimit, hsize, hcmd, hdata, hver⟩ := h
  exact ⟨q, ⟨pre ++ a, b ++ suf, by rw [hpart]; simp⟩, hkey, hlimit, hsize, hcmd, hdata, hver⟩

theorem dispatchesAuthentic_mono {buffer : Bytes} (pre suf : Bytes) {s t : State}
    (h : (dispatchesAuthentic D time buffer).Allows s t) :
    (dispatchesAuthentic D time (pre ++ (buffer ++ suf))).Allows s t := by
  obtain ⟨new, hnew, hall⟩ := h
  exact ⟨new, hnew, fun x hx => (hall x hx).mono pre suf⟩

theorem dispatchesAuthentic_of_fixes {buffer : Bytes} {s t : State}
    (h : (Frame.fixes State.dispatched).Allows s t) :
    (dispatchesAuthentic D time buffer).Allows s t :=
  ⟨[], by rw [List.append_nil]; exact h, by simp⟩

theorem fixes_send (msg : Bytes) : (Frame.fixes State.dispatched).Keeps (send msg) := by
  apply Frame.keeps_modify
  intro s
  split_ifs <;> rfl

theorem fixes_fail (msg : String) (err : ℤ) :
    (Frame.fixes State.dispatched).Keeps (fail msg err) :=
  Frame.keeps_bind (fixes_send _) (fun _ => Frame.keeps_pure _)

theorem fixes_unknownCommand (cmd : Bytes) :
    (Frame.fixes State.dispatched).Keeps (unknownCommand cmd) :=
  Frame.keeps_bind (fixes_send _) (fun _ =>
    Frame.keeps_bind (fixes_send _) (fun _ => Frame.keeps_pure _))

theorem leaving_keeps {F : Frame State} {m : Act ℤ} (h : F.Keeps m) (data : Bytes) :
    F.Keeps (leaving data m) :=
  Frame.keeps_bind h (fun _ => Frame.keeps_pure _)

/-- Every handler but the composite one only speaks. -/
theorem speaks_run (composite : Bytes → Act (ℤ × Bytes)) (data : Bytes) {command : Command}
    (h : command ≠ .composite) : speaks.Keeps (command.run D composite data) := by
  cases command with
  | ok => exact leaving_keeps (speaks_fail (by decide) _) _
  | installThis => exact leaving_keeps (speaks_payloadCmdInstallThis D) _
  | installPath => exact leaving_keeps (Frame.keeps_pure _) _
  | fileExport | fileImport => exact leaving_keeps (speaks_copyFiles D _) _
  | adbEnable | adbDisable => exact leaving_keeps (speaks_setAdbEnabled D _) _
  | wifiEnable | wifiDisable => exact leaving_keeps (speaks_setWifiEnabled D _) _
  | oemUnlock | oemLock => exact leaving_keeps (speaks_setOemLock D _) _
  | composite => exact absurd rfl h
  | fwAllow | fwDeny | fwTempAdd | singboxAdd | singboxRemove => exact speaks_scriptHelper D _ _ _
  | fwFlush => exact leaving_keeps (speaks_payloadCmdFirewallFlush D) _

theorem runCommand_authentic {composite : Bytes → Act (ℤ × Bytes)} {data : Bytes}
    (h : (dispatchesAuthentic D time data).Keeps (composite data)) (cmd : Bytes) :
    (dispatchesAuthentic D time data).Keeps (runCommand D composite cmd data) := by
  rw [runCommand]
  cases Command.ofName cmd with
  | none => exact (leaving_keeps (fixes_unknownCommand cmd) data).mono dispatchesAuthentic_of_fixes
  | some command =>
    by_cases hcomp : command = .composite
    · subst hcomp
      exact h
    · exact (speaks_run composite data hcomp).mono fun hspeaks => dispatchesAuthentic_of_fixes hspeaks.2

/-- An entry lies in the data that its composite was given, whatever happened before it. -/
theorem entryAt_part {offset : ℕ} {data : Bytes} {e : {b : Bytes // sizeofDumbPayload ≤ b.length}}
    (h : entryAt offset data = some e) : ∃ pre suf, data = pre ++ (e.val ++ suf) := by
  obtain ⟨-, hslice, -⟩ := entryAt_eq_some h
  refine ⟨data.take (offset + 4), data.drop (offset + 4 + e.val.length), ?_⟩
  conv_lhs => rw [slice_context (offset + 4) e.val.length data, ← hslice]
  rw [List.append_assoc]

/-- The loop over the entries: `data` is what earlier entries have left of the composite's `whole`
data, the same from the next entry on. -/
theorem compositeLoop_authentic {inner : DumbPayload → Act (ℤ × DumbPayload)}
    (hkeeps : KeepsLength inner)
    (h : ∀ p : DumbPayload, (dispatchesAuthentic D time p.toBytes).Keeps (inner p))
    (count offset : ℕ) {data whole : Bytes} (hlen : data.length = whole.length)
    (hdrop : data.drop offset = whole.drop offset) :
    (dispatchesAuthentic D time whole).Keeps (compositeLoop inner count offset data) := by
  induction count generalizing offset data with
  | zero => exact Frame.keeps_pure _
  | succ count ih =>
    intro s
    cases hentry : entryAt offset data with
    | none =>
      rw [compositeLoop, hentry]
      exact (leaving_keeps (fixes_fail _ _) data).mono dispatchesAuthentic_of_fixes s
    | some e =>
      obtain ⟨pre, suf, hwhole⟩ := entryAt_part ((entryAt_congr hlen hdrop) ▸ hentry)
      obtain ⟨-, hsplice, hbehind⟩ := splice_entry hkeeps hentry s
      have hinner := h (DumbPayload.ofBytes e.val e.property) s
      rw [DumbPayload.toBytes_ofBytes] at hinner
      have hone := dispatchesAuthentic_mono pre suf hinner
      rw [← hwhole] at hone
      rw [compositeLoop_succ hentry]
      refine Frame.trans _ hone ?_
      simp only
      split_ifs
      · exact (leaving_keeps (fixes_fail _ _) _).mono dispatchesAuthentic_of_fixes _
      · refine ih _ (hsplice.trans hlen) ?_ _
        rw [hbehind, Nat.add_assoc, ← List.drop_drop, hdrop, List.drop_drop]

theorem payloadCmdComposite_authentic {inner : DumbPayload → Act (ℤ × DumbPayload)}
    (hkeeps : KeepsLength inner)
    (h : ∀ p : DumbPayload, (dispatchesAuthentic D time p.toBytes).Keeps (inner p)) (data : Bytes) :
    (dispatchesAuthentic D time data).Keeps (payloadCmdComposite inner data) := by
  rw [payloadCmdComposite]
  exact Frame.keeps_ite
    (fun _ => (leaving_keeps (fixes_fail _ _) data).mono dispatchesAuthentic_of_fixes)
    (fun _ => compositeLoop_authentic hkeeps h _ _ rfl rfl)

/-- What passed both checks is authentic in its own bytes. -/
theorem authentic_of_checks {p : DumbPayload} {tick : ℕ}
    (hfresh : (dpIsExpiredCompare (D.clock tick) time p).1 = false)
    (hverify : (dpVerify D.ed D.publicKeyHex (p.payload.length + sizeofDumbPayload)
      (dpIsExpiredCompare (D.clock tick) time p).2).1 = .ok ()) :
    AuthenticAt D time p.toBytes p.commandText p.payload p := by
  obtain ⟨hkey, hsize, haccept⟩ := dpVerify_eq_ok_iff.mp hverify
  have hlen : p.payload.length + sizeofDumbPayload = p.toBytes.length := by
    rw [DumbPayload.toBytes_length, Nat.add_comm]
  rw [dpValidateSize_congr (dpIsExpiredCompare_dataSize _ _ _), hlen] at hsize
  obtain ⟨hlimit, hsize⟩ := (dpValidateSize_iff _ _).mp hsize
  refine ⟨⟨[], [], by simp⟩, hkey, hlimit, hsize, rfl, rfl, tick, ?_, ?_⟩
  · have hall := signedBytes_all (dpIsExpiredCompare (D.clock tick) time p).2
      (hlen.symm ▸ (dpIsExpiredCompare_toBytes_length _ _ p).le)
    rw [hall, signatureText, dpIsExpiredCompare_signature, dpIsExpiredCompare_snd,
      dpGetExpireOrSet_verifiedPayload] at haccept
    exact haccept
  · have htime := lt_or_cut_of_not_expired p hfresh
    rwa [dpIsExpiredCompare_snd, dpGetExpireOrSet_verifiedPayload] at htime

theorem handleWith_authentic {composite : Bytes → Act (ℤ × Bytes)} {p : DumbPayload}
    (h : (dispatchesAuthentic D time p.payload).Keeps (composite p.payload)) :
    (dispatchesAuthentic D time p.toBytes).Keeps (handleWith D composite time p) := by
  intro s
  have hauthentic := @authentic_of_checks D time p s.ticks
  have hcmd := dpIsExpiredCompare_command (D.clock s.ticks) time p
  have hdata := dpIsExpiredCompare_payload (D.clock s.ticks) time p
  rw [handleWith_run]
  simp only
  generalize dpIsExpiredCompare (D.clock s.ticks) time p = r at hauthentic hcmd hdata ⊢
  rw [hdata]
  have hframe := dpVerify_frame (E := D.ed) D.publicKeyHex (p.payload.length + sizeofDumbPayload) r.2
  split_ifs with hexp
  · exact dispatchesAuthentic_of_fixes (fixes_send _ _)
  · generalize dpVerify D.ed D.publicKeyHex (p.payload.length + sizeofDumbPayload) r.2 = v
      at hauthentic hframe ⊢
    obtain ⟨_ | _, q⟩ := v
    · exact dispatchesAuthentic_of_fixes (fixes_send _ _)
    · have hq : q.commandText = p.commandText ∧ q.payload = p.payload := by
        simp only at hframe
        rw [DumbPayload.commandText, DumbPayload.commandText, ← hcmd, ← hdata, ← hframe]
        exact ⟨rfl, rfl⟩
      have hrun := (runCommand_authentic h p.commandText).mono
        (@dispatchesAuthentic_mono D time _ (p.toBytes.take sizeofDumbPayload) [])
      rw [List.append_nil, DumbPayload.take_toBytes_append] at hrun
      refine dispatch_keeps D composite (fun msg => (fixes_send msg).mono dispatchesAuthentic_of_fixes)
        (fun t => ⟨[_], rfl, ?_⟩) (by rw [hq.1, hq.2]; exact hrun) { s with ticks := s.ticks + 1 }
      intro x hx
      rw [List.mem_singleton.mp hx, hq.1, hq.2]
      exact ⟨p, hauthentic (by simpa using hexp) rfl⟩

theorem handleAt_authentic (budget : ℕ) (p : DumbPayload) :
    (dispatchesAuthentic D time p.toBytes).Keeps (handleAt D time budget p) := by
  induction budget generalizing p with
  | zero => exact Frame.keeps_pure _
  | succ budget ih =>
    exact handleWith_authentic
      (payloadCmdComposite_authentic (handleAt_keepsLength D time budget) ih p.payload)

/-- Every command that a call of `handle_one_payload` dispatches, at any depth, is authentic in the
buffer that it was called with. -/
theorem handleOnePayload_authentic (D : Device) (time : ℤ) (p : DumbPayload) (s : State) :
    ∃ new, (handleOnePayload D time p s).2.dispatched = s.dispatched ++ new ∧
      ∀ x ∈ new, Authentic D time p.toBytes x :=
  handleAt_authentic (p.payload.length + 1) p s

theorem eq_of_part {p q : DumbPayload} (hp : p.payload = []) {pre suf : Bytes}
    (h : p.toBytes = pre ++ (q.toBytes ++ suf)) : q = p := by
  have hlen := congrArg List.length h
  simp only [List.length_append, DumbPayload.toBytes_length, hp, List.length_nil] at hlen
  obtain rfl : pre = [] := List.eq_nil_of_length_eq_zero (by omega)
  obtain rfl : suf = [] := List.eq_nil_of_length_eq_zero (by omega)
  exact DumbPayload.toBytes_injective (by simpa using h.symm)

end Dumbos.Daemon
