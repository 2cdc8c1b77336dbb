import Dumbos.Daemon.PayloadCmd

/-! # `handle_one_payload`

Expiry, signature, dispatch. A composite hands each of its entries to the same
function, in place, so the recursion runs through the data of a payload. An entry
is shorter than the composite around it: a budget above the length of the data is
never used up, and the equation of the source holds.
-/
namespace Dumbos.Daemon
open Foundation Common Payload

def CODE_CMD_OK : Bytes := ascii "ok"
def CODE_CMD_INSTALLTHIS : Bytes := ascii "install-this"
def CODE_CMD_INSTALL_PATH : Bytes := ascii "install-path"
def CODE_CMD_FILE_EXPORT : Bytes := ascii "export-files"
def CODE_CMD_FILE_IMPORT : Bytes := ascii "import-files"
def CODE_CMD_ADB_ENABLE : Bytes := ascii "adb-enable"
def CODE_CMD_ADB_DISABLE : Bytes := ascii "adb-disable"
def CODE_CMD_WIFI_ENABLE : Bytes := ascii "wifi-enable"
def CODE_CMD_WIFI_DISABLE : Bytes := ascii "wifi-disable"
def CODE_CMD_OEM_UNLOCK : Bytes := ascii "oem-unlock"
def CODE_CMD_OEM_LOCK : Bytes := ascii "oem-lock"
def CODE_CMD_COMPOSITE : Bytes := ascii "composite"
def CODE_CMD_FW_ALLOW : Bytes := ascii "fw-allow"
def CODE_CMD_FW_DENY : Bytes := ascii "fw-deny"
def CODE_CMD_FW_TEMP_ADD : Bytes := ascii "fw-tmp-add"
def CODE_CMD_FW_FLUSH : Bytes := ascii "fw-flush"
def CODE_CMD_SINGBOX_ADD : Bytes := ascii "singboxadd"
def CODE_CMD_SINGBOX_REMOVE : Bytes := ascii "singboxdel"

/-- A handler that leaves its data alone. -/
def leaving (data : Bytes) (m : Act ℤ) : Act (ℤ × Bytes) := do
  let err ← m
  return (err, data)

section Composite

/-- The size and the payload at an offset, if they lie inside the data. -/
def entryAt (offset : ℕ) (data : Bytes) : Option {b : Bytes // sizeofDumbPayload ≤ b.length} :=
  let payloadSize := bigEndian (slice offset 4 data)
  if data.length < offset + 4 then none
  else if data.length < offset + 4 + payloadSize then none
  else if h : (slice (offset + 4) payloadSize data).length < sizeofDumbPayload then none
  else some ⟨slice (offset + 4) payloadSize data, not_lt.mp h⟩

variable (inner : DumbPayload → Act (ℤ × DumbPayload))

/-- The entries from `offset` on, each handled in place. -/
def compositeLoop : ℕ → ℕ → Bytes → Act (ℤ × Bytes)
  | 0, _, data => return (0, data)
  | count + 1, offset, data =>
    match entryAt offset data with
    | none => leaving data (fail "invalid" EINVAL.code)
    | some entry => do
      let (err, p) ← inner (DumbPayload.ofBytes entry.val (header_le_loaded entry))
      let data := splice (offset + 4) p.toBytes data
      if err ≠ 0 then leaving data (fail "something went wrong" err)
      else compositeLoop count (offset + 4 + entry.val.length) data

def payloadCmdComposite (data : Bytes) : Act (ℤ × Bytes) :=
  if data.length < 2 then leaving data (fail "invalid" EINVAL.code)
  else compositeLoop inner (bigEndian (slice 0 2 data)) 2 data

end Composite

variable (D : Device)

def unknownCommand (cmd : Bytes) : Act ℤ := do
  send (ascii "unknown command:")
  send cmd
  return ENOSYS.code

inductive Command where
  | ok
  | installThis
  | installPath
  | fileExport
  | fileImport
  | adbEnable
  | adbDisable
  | wifiEnable
  | wifiDisable
  | oemUnlock
  | oemLock
  | composite
  | fwAllow
  | fwDeny
  | fwTempAdd
  | fwFlush
  | singboxAdd
  | singboxRemove
deriving DecidableEq

/-- The names in the order in which they are compared. -/
def commandTable : List (Bytes × Command) :=
  [(CODE_CMD_OK, .ok),
    (CODE_CMD_INSTALLTHIS, .installThis),
    (CODE_CMD_INSTALL_PATH, .installPath),
    (CODE_CMD_FILE_EXPORT, .fileExport),
    (CODE_CMD_FILE_IMPORT, .fileImport),
    (CODE_CMD_ADB_ENABLE, .adbEnable),
    (CODE_CMD_ADB_DISABLE, .adbDisable),
    (CODE_CMD_WIFI_ENABLE, .wifiEnable),
    (CODE_CMD_WIFI_DISABLE, .wifiDisable),
    (CODE_CMD_OEM_UNLOCK, .oemUnlock),
    (CODE_CMD_OEM_LOCK, .oemLock),
    (CODE_CMD_COMPOSITE, .composite),
    (CODE_CMD_FW_ALLOW, .fwAllow),
    (CODE_CMD_FW_DENY, .fwDeny),
    (CODE_CMD_FW_TEMP_ADD, .fwTempAdd),
    (CODE_CMD_FW_FLUSH, .fwFlush),
    (CODE_CMD_SINGBOX_ADD, .singboxAdd),
    (CODE_CMD_SINGBOX_REMOVE, .singboxRemove)]

def Command.ofName (cmd : Bytes) : Option Command :=
  (commandTable.find? (fun entry => entry.1 == cmd)).map Prod.snd

/-- The handler of a command on the data of its payload. -/
def Command.run (composite : Bytes → Act (ℤ × Bytes)) (data : Bytes) : Command → Act (ℤ × Bytes)
  | .ok => leaving data (fail "ok" 0)
  | .installThis => leaving data (payloadCmdInstallThis D)
  | .installPath => leaving data payloadCmdInstallPath
  | .fileExport => leaving data (payloadCmdFilesExport D)
  | .fileImport => leaving data (payloadCmdFilesImport D)
  | .adbEnable => leaving data (setAdbEnabled D true)
  | .adbDisable => leaving data (setAdbEnabled D false)
  | .wifiEnable => leaving data (setWifiEnabled D true)
  | .wifiDisable => leaving data (setWifiEnabled D false)
  | .oemUnlock => leaving data (setOemLock D false)
  | .oemLock => leaving data (setOemLock D true)
  | .composite => composite data
  | .fwAllow => payloadCmdFirewallAdd D data
  | .fwDeny => payloadCmdFirewallRemove D data
  | .fwTempAdd => payloadCmdFirewallAddTemp D data
  | .fwFlush => leaving data (payloadCmdFirewallFlush D)
  | .singboxAdd => payloadCmdSingboxAdd D data
  | .singboxRemove => payloadCmdSingboxDel D data

def runCommand (composite : Bytes → Act (ℤ × Bytes)) (cmd data : Bytes) : Act (ℤ × Bytes) :=
  match Command.ofName cmd with
  | some command => command.run D composite data
  | none => leaving data (unknownCommand cmd)

/-- `payload->command[COMMAND_SIZE - 1] = '\0'`. -/
def terminateCommand (p : DumbPayload) : DumbPayload :=
  { p with command := ⟨p.command.val.take (COMMAND_SIZE - 1) ++ [0], by simp [p.command.property]⟩ }

/-- Behind both checks. -/
def dispatch (composite : Bytes → Act (ℤ × Bytes)) (p : DumbPayload) : Act (ℤ × DumbPayload) := do
  send (ascii "loading...")
  send (ascii "command is")
  send p.commandText
  modify fun s => { s with dispatched := s.dispatched ++ [(p.commandText, p.payload)] }
  let (err, data) ← runCommand D composite p.commandText p.payload
  return (err, { terminateCommand p with payload := data })

/-- The payload size of the source is the length of the data. -/
def handleWith (composite : Bytes → Act (ℤ × Bytes)) (time : ℤ) (p : DumbPayload) :
    Act (ℤ × DumbPayload) := do
  let now ← Daemon.time D
  let (expired, p) := dpIsExpiredCompare now time p
  if expired then do
    send (ascii "code expired")
    return (EKEYEXPIRED.code, p)
  else match dpVerify D.ed D.publicKeyHex (p.payload.length + sizeofDumbPayload) p with
    | (.error err, p) => do
      send (ascii "invalid signature")
      return (err.code, p)
    | (.ok (), p) => dispatch D composite p

/-- `handle_one_payload` with a budget for composites in composites. -/
def handleAt (time : ℤ) : ℕ → DumbPayload → Act (ℤ × DumbPayload)
  | 0, p => return (0, p)
  | budget + 1, p => handleWith D (payloadCmdComposite (handleAt time budget)) time p

def handleOnePayload (time : ℤ) (p : DumbPayload) : Act (ℤ × DumbPayload) :=
  handleAt D time (p.payload.length + 1) p

section Entries

theorem entryAt_eq_some {offset : ℕ} {data : Bytes} {e : {b : Bytes // sizeofDumbPayload ≤ b.length}}
    (h : entryAt offset data = some e) :
    offset + 4 + e.val.length ≤ data.length ∧ e.val = slice (offset + 4) e.val.length data ∧
      bigEndian (slice offset 4 data) = e.val.length := by
  simp only [entryAt] at h
  split_ifs at h with hsize hentry hshort
  obtain rfl := Option.some.inj h
  have hlen := slice_length (not_lt.mp hentry)
  simp only [hlen]
  exact ⟨not_lt.mp hentry, trivial, trivial⟩

/-- An entry is read from the bytes behind its offset. -/
theorem entryAt_congr {offset : ℕ} {data data' : Bytes} (hlen : data.length = data'.length)
    (h : data.drop offset = data'.drop offset) : entryAt offset data = entryAt offset data' := by
  have hslice : ∀ k, offset ≤ k → ∀ n, slice k n data = slice k n data' :=
    fun k hk n => slice_eq_of_drop_eq h hk n
  simp only [entryAt, hlen, hslice offset le_rfl, hslice (offset + 4) (Nat.le_add_right _ _)]

/-- Its data is shorter than the data of the composite. -/
theorem entryAt_payload_lt {offset : ℕ} {data : Bytes}
    {e : {b : Bytes // sizeofDumbPayload ≤ b.length}} (h : entryAt offset data = some e) :
    (DumbPayload.ofBytes e.val e.property).payload.length < data.length := by
  have hfit := (entryAt_eq_some h).1
  have hbig := e.property
  rw [DumbPayload.ofBytes_payload_length]
  simp only [sizeofDumbPayload] at hbig ⊢
  omega

end Entries

section Length
variable {inner : DumbPayload → Act (ℤ × DumbPayload)}

/-- A payload is handled in place. -/
def KeepsLength (inner : DumbPayload → Act (ℤ × DumbPayload)) : Prop :=
  ∀ p s, (inner p s).1.2.payload.length = p.payload.length

/-- Putting a handled entry back changes neither the length nor anything behind it. -/
theorem splice_entry (hkeeps : KeepsLength inner) {offset : ℕ} {data : Bytes}
    {e : {b : Bytes // sizeofDumbPayload ≤ b.length}} (h : entryAt offset data = some e) (s : State) :
    let p := (inner (DumbPayload.ofBytes e.val e.property) s).1.2
    p.toBytes.length = e.val.length ∧
      (splice (offset + 4) p.toBytes data).length = data.length ∧
      (splice (offset + 4) p.toBytes data).drop (offset + 4 + e.val.length) =
        data.drop (offset + 4 + e.val.length) := by
  intro p
  have hlen : p.toBytes.length = e.val.length := by
    rw [DumbPayload.toBytes_length, hkeeps, DumbPayload.ofBytes_payload_length]
    exact Nat.add_sub_cancel' e.property
  have hfit : offset + 4 + p.toBytes.length ≤ data.length := hlen ▸ (entryAt_eq_some h).1
  exact ⟨hlen, splice_length hfit, hlen ▸ drop_splice hfit⟩

/-- One round of the loop. -/
theorem compositeLoop_succ {offset : ℕ} {data : Bytes}
    {e : {b : Bytes // sizeofDumbPayload ≤ b.length}} (h : entryAt offset data = some e) (count : ℕ)
    (s : State) :
    compositeLoop inner (count + 1) offset data s =
      let r := inner (DumbPayload.ofBytes e.val e.property) s
      let data := splice (offset + 4) r.1.2.toBytes data
      if r.1.1 ≠ 0 then leaving data (fail "something went wrong" r.1.1) r.2
      else compositeLoop inner count (offset + 4 + e.val.length) data r.2 := by
  rw [compositeLoop, h]
  simp only [bind, StateT.bind]
  generalize inner (DumbPayload.ofBytes e.val e.property) s = r
  obtain ⟨⟨err, p⟩, t⟩ := r
  simp only
  split_ifs <;> rfl

theorem compositeLoop_length (hkeeps : KeepsLength inner) (count offset : ℕ) (data : Bytes)
    (s : State) : (compositeLoop inner count offset data s).1.2.length = data.length := by
  induction count generalizing offset data s with
  | zero => rfl
  | succ count ih =>
    cases hentry : entryAt offset data with
    | none =>
      rw [compositeLoop, hentry]
      rfl
    | some e =>
      obtain ⟨-, hlen, -⟩ := splice_entry hkeeps hentry s
      rw [compositeLoop_succ hentry]
      simp only
      split_ifs
      · exact hlen
      · rw [ih, hlen]

theorem payloadCmdComposite_length (hkeeps : KeepsLength inner) (data : Bytes) (s : State) :
    (payloadCmdComposite inner data s).1.2.length = data.length := by
  rw [payloadCmdComposite]
  split_ifs
  · rfl
  · exact compositeLoop_length hkeeps _ _ _ _

end Length

section Run
variable (composite : Bytes → Act (ℤ × Bytes))

theorem runCommand_length (h : ∀ data s, (composite data s).1.2.length = data.length)
    (cmd data : Bytes) (s : State) : (runCommand D composite cmd data s).1.2.length = data.length := by
  rw [runCommand]
  cases Command.ofName cmd with
  | none => rfl
  | some command =>
    cases command with
    | composite => exact h data s
    | fwAllow | fwDeny | fwTempAdd | singboxAdd | singboxRemove =>
      exact scriptHelper_length D _ _ data s
    | _ => rfl

/-- Only the composite command runs the composite handler, and only on its own data. -/
theorem runCommand_congr {composite' : Bytes → Act (ℤ × Bytes)} (cmd : Bytes) {data : Bytes}
    (h : composite data = composite' data) :
    runCommand D composite cmd data = runCommand D composite' cmd data := by
  rw [runCommand, runCommand]
  cases Command.ofName cmd with
  | none => rfl
  | some command =>
    cases command with
    | composite => exact h
    | _ => rfl

/-- What a run of `handle_one_payload` does: it refuses, or dispatches what was verified. -/
theorem handleWith_run (time : ℤ) (p : DumbPayload) (s : State) :
    handleWith D composite time p s =
      let t := { s with ticks := s.ticks + 1 }
      let r := dpIsExpiredCompare (D.clock s.ticks) time p
      if r.1 then ((EKEYEXPIRED.code, r.2), (send (ascii "code expired") t).2)
      else match dpVerify D.ed D.publicKeyHex (r.2.payload.length + sizeofDumbPayload) r.2 with
        | (.error err, q) => ((err.code, q), (send (ascii "invalid signature") t).2)
        | (.ok (), q) => dispatch D composite q t := by
  simp only [handleWith, bind, StateT.bind, Daemon.time]
  split_ifs with hexp
  · rfl
  · generalize dpVerify D.ed D.publicKeyHex _ _ = v
    obtain ⟨_ | _, q⟩ := v <;> rfl

theorem dispatch_run (p : DumbPayload) (s : State) :
    dispatch D composite p s =
      let t := (send p.commandText (send (ascii "command is") (send (ascii "loading...") s).2).2).2
      let r := runCommand D composite p.commandText p.payload
        { t with dispatched := t.dispatched ++ [(p.commandText, p.payload)] }
      ((r.1.1, { terminateCommand p with payload := r.1.2 }), r.2) := rfl

/-- A frame of the messages, of the record and of the handler is one of the dispatch. -/
theorem dispatch_keeps {F : Frame State} {p : DumbPayload} (hsend : ∀ msg, F.Keeps (send msg))
    (hlog : ∀ s : State, F.Allows s
      { s with dispatched := s.dispatched ++ [(p.commandText, p.payload)] })
    (hrun : F.Keeps (runCommand D composite p.commandText p.payload)) :
    F.Keeps (dispatch D composite p) :=
  Frame.keeps_bind (hsend _) fun _ => Frame.keeps_bind (hsend _) fun _ =>
    Frame.keeps_bind (hsend _) fun _ => Frame.keeps_bind (Frame.keeps_modify hlog) fun _ =>
      Frame.keeps_bind hrun fun _ => Frame.keeps_pure _

variable {composite}

theorem handleWith_keepsLength (h : ∀ data s, (composite data s).1.2.length = data.length)
    (time : ℤ) : KeepsLength (handleWith D composite time) := by
  intro p s
  have hexpire := dpIsExpiredCompare_payload (D.clock s.ticks) time p
  rw [handleWith_run]
  simp only
  generalize dpIsExpiredCompare (D.clock s.ticks) time p = r at hexpire
  have hverify := dpVerify_frame (E := D.ed) D.publicKeyHex (r.2.payload.length + sizeofDumbPayload) r.2
  split_ifs
  · exact congrArg List.length hexpire
  · generalize dpVerify D.ed D.publicKeyHex (r.2.payload.length + sizeofDumbPayload) r.2 = v at hverify
    obtain ⟨_ | _, q⟩ := v
    · rw [← hexpire, ← hverify]
    · have hq : q.payload.length = p.payload.length := by rw [← hexpire, ← hverify]
      exact (runCommand_length D composite h _ _ _).trans hq

theorem handleAt_keepsLength (time : ℤ) (budget : ℕ) : KeepsLength (handleAt D time budget) := by
  induction budget with
  | zero => exact fun p s => rfl
  | succ budget ih => exact handleWith_keepsLength D (payloadCmdComposite_length ih) time

theorem handleWith_congr {composite' : Bytes → Act (ℤ × Bytes)} {time : ℤ} {p : DumbPayload}
    (h : ∀ data, data.length = p.payload.length → composite data = composite' data) :
    handleWith D composite time p = handleWith D composite' time p := by
  funext s
  have hexpire := dpIsExpiredCompare_payload (D.clock s.ticks) time p
  rw [handleWith_run, handleWith_run]
  simp only
  generalize dpIsExpiredCompare (D.clock s.ticks) time p = r at hexpire
  have hverify := dpVerify_frame (E := D.ed) D.publicKeyHex (r.2.payload.length + sizeofDumbPayload) r.2
  split_ifs
  · rfl
  · generalize dpVerify D.ed D.publicKeyHex (r.2.payload.length + sizeofDumbPayload) r.2 = v at hverify
    obtain ⟨_ | _, q⟩ := v
    · rfl
    · have hq : q.payload.length = p.payload.length := by rw [← hexpire, ← hverify]
      have hrun := runCommand_congr D composite q.commandText (h q.payload hq)
      simp only [dispatch_run, hrun]

end Run

section Budget

/-- The loop depends on its inner handler through the entries of the data only. -/
theorem compositeLoop_congr {inner inner' : DumbPayload → Act (ℤ × DumbPayload)}
    (hkeeps : KeepsLength inner) (count offset : ℕ) (data : Bytes)
    (h : ∀ p : DumbPayload, p.payload.length < data.length → inner p = inner' p) (s : State) :
    compositeLoop inner count offset data s = compositeLoop inner' count offset data s := by
  induction count generalizing offset data s with
  | zero => rfl
  | succ count ih =>
    cases hentry : entryAt offset data with
    | none => rw [compositeLoop, compositeLoop, hentry]
    | some e =>
      obtain ⟨-, hlen, -⟩ := splice_entry hkeeps hentry s
      have hinner := h _ (entryAt_payload_lt hentry)
      rw [compositeLoop_succ hentry, compositeLoop_succ hentry, ← hinner]
      simp only
      split_ifs
      · rfl
      · exact ih _ _ (fun p hp => h p (hlen ▸ hp)) _

/-- Any two budgets above the length of the data agree. -/
theorem handleAt_budget (time : ℤ) {b b' : ℕ} {p : DumbPayload} (h : p.payload.length < b)
    (h' : p.payload.length < b') : handleAt D time b p = handleAt D time b' p := by
  induction b generalizing b' p with
  | zero => omega
  | succ b ih =>
    obtain ⟨b', rfl⟩ : ∃ k, b' = k + 1 := ⟨b' - 1, by omega⟩
    refine handleWith_congr D fun data hdata => ?_
    funext s
    rw [payloadCmdComposite, payloadCmdComposite]
    split_ifs
    · rfl
    · exact compositeLoop_congr (handleAt_keepsLength D time b) _ _ _
        (fun q hq => ih (by omega) (by omega)) s

/-- The equation of the source: a composite runs `handle_one_payload` on its entries. -/
theorem handleOnePayload_eq (time : ℤ) (p : DumbPayload) :
    handleOnePayload D time p =
      handleWith D (payloadCmdComposite (handleOnePayload D time)) time p := by
  refine handleWith_congr D fun data hdata => ?_
  funext s
  rw [payloadCmdComposite, payloadCmdComposite]
  split_ifs
  · rfl
  · exact compositeLoop_congr (handleAt_keepsLength D time _) _ _ _
      (fun q hq => handleAt_budget D time (by omega) (Nat.lt_succ_self _)) s

end Budget

end Dumbos.Daemon
