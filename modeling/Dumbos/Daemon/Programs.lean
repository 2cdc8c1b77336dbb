import Dumbos.Daemon.Authenticity
import Dumbos.Daemon.Command
import Dumbos.Daemon.Speech

/-! # The programs that the daemon starts

Whatever clients ask for and whatever the network answers, each program is one of a
command: one of the two that a client can have, or one of a payload that was accepted
under the key, in what the client's `code` has downloaded and at the time of the
network that it has got. A handler starts its programs in their order and stops early
at most.
-/
namespace Dumbos.Daemon
open Foundation Common Payload Request

def FIREWALLCTL : String := "/system/bin/dumbos-firewallctl.sh"
def SING_BOX_WRAPPER : String := "/system/bin/sing-box-wrapper.sh"

section Programs

def settingsArgv (key value : String) : List Bytes :=
  [ascii "/system/bin/settings", ascii "put", ascii "global", ascii key, ascii value]

def oemLockArgv (value : String) : List Bytes :=
  [ascii "/system/bin/service", ascii "call", ascii "oem_lock", ascii "4", ascii "i32", ascii value]

/-- A script with the strings of its data, unless there are none. -/
def scriptPrograms (argv0 argv1 : String) (data : Bytes) : List (List Bytes) :=
  if data.length = 0 ∨ data.head? = some 0 ∨ data.length ≤ 1 then []
  else [ascii argv0 :: ascii argv1 :: stringList (terminate data)]

/-- The programs of a command, in their order. -/
def Command.programs (tmpdir data : Bytes) : Command → List (List Bytes)
  | .installThis => [[FIREWALL_RELOAD_SCRIPT],
      [ascii "/system/bin/pm", ascii "install", tmpdir ++ ascii "tmp.apk"]]
  | .adbEnable => [settingsArgv "development_settings_enabled" "1", settingsArgv "adb_enabled" "1"]
  | .adbDisable => [settingsArgv "adb_enabled" "0", settingsArgv "development_settings_enabled" "0"]
  | .wifiEnable => [[ascii "/system/bin/start", ascii "wificond"]]
  | .wifiDisable => [[ascii "/system/bin/stop", ascii "wificond"]]
  | .oemUnlock => [oemLockArgv "1"]
  | .oemLock => [oemLockArgv "0"]
  | .fwAllow => scriptPrograms FIREWALLCTL "allow" data
  | .fwDeny => scriptPrograms FIREWALLCTL "deny" data
  | .fwTempAdd => scriptPrograms FIREWALLCTL "allow-temp" data
  | .fwFlush => [[FIREWALL_RELOAD_SCRIPT]]
  | .singboxAdd => scriptPrograms SING_BOX_WRAPPER "add" data
  | .singboxRemove => scriptPrograms SING_BOX_WRAPPER "del" data
  | .ok | .installPath | .fileExport | .fileImport | .composite => []

/-- The programs of the command with this name. -/
def programsOf (tmpdir cmd data : Bytes) : List (List Bytes) :=
  ((Command.ofName cmd).map (Command.programs tmpdir data)).getD []

/-- The programs of a client's own command. -/
def ClientCommand.programs : ClientCommand → List (List Bytes)
  | .oemLock => [oemLockArgv "0"]
  | .setname => [[ascii "/system/bin/setprop", DUMBOS_USER_DATA_NEW_PROP, DUMBOS_USER_DATA_NEW_PROP_VAL]]
  | .ok | .notok | .code | .getUsername | .version | .uploadData => []

end Programs

section Starts
variable {D : Device} {α β : Type} {full : List (List Bytes)}

/-- No program is started. -/
def quiet : Frame State := Frame.fixes State.ran

/-- The first of some programs are started, in their order. -/
def Starts (full : List (List Bytes)) (m : Act α) : Prop :=
  ∀ s, ∃ ran, ran <+: full ∧ (m s).2.ran = s.ran ++ ran

theorem starts_of_quiet {m : Act α} (h : quiet.Keeps m) : Starts full m := by
  intro s
  refine ⟨[], List.nil_prefix, ?_⟩
  rw [List.append_nil]
  exact h s

theorem starts_bind {m : Act α} {f : α → Act β} (hm : quiet.Keeps m) (hf : ∀ a, Starts full (f a)) :
    Starts full (m >>= f) := by
  intro s
  obtain ⟨ran, hfront, hran⟩ := hf (m s).1 (m s).2
  refine ⟨ran, hfront, ?_⟩
  rw [bind_run, hran, hm s]

theorem starts_execvWrapper (argv : List Bytes) {f : Reply → Act β} (hf : ∀ r, Starts full (f r)) :
    Starts (argv :: full) (execvWrapper D argv >>= f) := by
  intro s
  obtain ⟨ran, hfront, hran⟩ := hf (execvWrapper D argv s).1 (execvWrapper D argv s).2
  refine ⟨argv :: ran, (List.prefix_cons_inj argv).mpr hfront, ?_⟩
  rw [bind_run, hran]
  exact List.append_assoc _ _ _

theorem starts_ite {p : Prop} [Decidable p] {m m' : Act α} (h : p → Starts full m)
    (h' : ¬p → Starts full m') : Starts full (if p then m else m') := by
  split_ifs with hp
  · exact h hp
  · exact h' hp

theorem starts_leaving {m : Act ℤ} (h : Starts full m) (data : Bytes) :
    Starts full (leaving data m) := h

end Starts

section Quiet
variable (D : Device)

theorem quiet_send (msg : Bytes) : quiet.Keeps (send msg) := by
  apply Frame.keeps_modify
  intro s
  split_ifs <;> rfl

theorem quiet_call : quiet.Keeps (call D) := fun _ => rfl

theorem quiet_fetch (url : Bytes) : quiet.Keeps (fetch D url) := fun _ => rfl

theorem quiet_fail (msg : String) (err : ℤ) : quiet.Keeps (fail msg err) :=
  Frame.keeps_bind (quiet_send _) fun _ => Frame.keeps_pure _

theorem quiet_unknownCommand (cmd : Bytes) : quiet.Keeps (unknownCommand cmd) := by
  apply Frame.keeps_bind (quiet_send _)
  intro _
  apply Frame.keeps_bind (quiet_send _)
  intro _
  exact Frame.keeps_pure _

theorem quiet_reportResult (r : Reply) : quiet.Keeps (reportResult r) := by
  apply Frame.keeps_ite (fun _ => quiet_fail _ _)
  intro _
  exact Frame.keeps_ite (fun _ => quiet_fail _ _) fun _ => quiet_fail _ _

theorem quiet_reportProgress (texts : List Bytes) : quiet.Keeps (reportProgress texts) := by
  induction texts with
  | nil => exact Frame.keeps_pure _
  | cons text texts ih => exact Frame.keeps_bind (quiet_send _) fun _ => ih

theorem quiet_mountCopyUnmountNs : quiet.Keeps (mountCopyUnmountNs D) := by
  apply Frame.keeps_bind (quiet_call D)
  intro r
  exact Frame.keeps_bind (quiet_reportProgress r.progress) fun _ => Frame.keeps_pure _

theorem quiet_tryMountCopy : quiet.Keeps (tryMountCopy D) := by
  apply Frame.keeps_bind (quiet_mountCopyUnmountNs D)
  intro first
  apply Frame.keeps_ite (fun _ => Frame.keeps_pure _)
  intro _
  apply Frame.keeps_bind (quiet_mountCopyUnmountNs D)
  intro second
  exact Frame.keeps_ite (fun _ => Frame.keeps_pure _) fun _ => quiet_mountCopyUnmountNs D

theorem quiet_copyFiles (explain : Bool) : quiet.Keeps (copyFiles D explain) := by
  apply Frame.keeps_bind (quiet_call D)
  intro path
  apply Frame.keeps_ite (fun _ => quiet_fail _ _)
  intro _
  apply Frame.keeps_bind (quiet_call D)
  intro devname
  apply Frame.keeps_ite (fun _ => quiet_fail _ _)
  intro _
  apply Frame.keeps_bind (quiet_tryMountCopy D)
  intro copied
  apply Frame.keeps_ite (fun _ => quiet_fail _ _)
  intro _
  apply Frame.keeps_bind (quiet_send _)
  intro _
  apply Frame.keeps_bind (quiet_send _)
  intro _
  apply Frame.keeps_ite
  · intro _
    apply Frame.keeps_bind (quiet_call D)
    intro msg
    exact Frame.keeps_ite (fun _ => quiet_fail _ _) fun _ => quiet_fail _ _
  · intro _
    exact Frame.keeps_pure _

end Quiet

section Handlers
variable {D : Device}

theorem starts_setOemLock (status : Bool) :
    Starts [oemLockArgv (if status then "0" else "1")] (setOemLock D status) := by
  cases status <;> exact starts_execvWrapper _ fun _ => starts_of_quiet (Frame.keeps_pure _)

theorem starts_settings {key value key' value' : String} :
    Starts [settingsArgv key value, settingsArgv key' value'] (do
      let r ← settings D key value
      if r.ret = 0 then do
        let r ← settings D key' value'
        return r.exitCode
      else return r.exitCode) := by
  apply starts_execvWrapper
  intro r
  apply starts_ite
  · intro _
    exact starts_execvWrapper _ fun _ => starts_of_quiet (Frame.keeps_pure _)
  · intro _
    exact starts_of_quiet (Frame.keeps_pure _)

theorem starts_payloadCmdInstallThis (data : Bytes) :
    Starts (Command.installThis.programs D.tmpdir data) (payloadCmdInstallThis D) := by
  apply starts_execvWrapper
  intro reload
  apply starts_ite (fun _ => starts_of_quiet (Frame.keeps_pure _))
  intro _
  apply starts_bind (quiet_call D)
  intro malloc
  apply starts_ite (fun _ => starts_of_quiet (quiet_fail _ _))
  intro _
  apply starts_ite (fun _ => starts_of_quiet (quiet_fail _ _))
  intro _
  apply starts_bind (quiet_call D)
  intro opened
  apply starts_ite (fun _ => starts_of_quiet (quiet_fail _ _))
  intro _
  apply starts_bind (quiet_call D)
  intro written
  apply starts_ite (fun _ => starts_of_quiet (quiet_fail _ _))
  intro _
  exact starts_execvWrapper _ fun pm => starts_of_quiet (quiet_reportResult pm)

theorem starts_payloadCmdFirewallFlush :
    Starts [[FIREWALL_RELOAD_SCRIPT]] (payloadCmdFirewallFlush D) := by
  apply starts_bind (quiet_call D)
  intro unlinked
  apply starts_ite (fun _ => starts_of_quiet (Frame.keeps_pure _))
  intro _
  exact starts_execvWrapper _ fun _ => starts_of_quiet (Frame.keeps_pure _)

theorem starts_scriptHelper (argv0 argv1 : String) (data : Bytes) :
    Starts (scriptPrograms argv0 argv1 data) (scriptHelper D argv0 argv1 data) := by
  apply starts_ite (fun _ => starts_of_quiet (Frame.keeps_pure _))
  intro hempty
  apply starts_ite (fun _ => starts_of_quiet (Frame.keeps_pure _))
  intro hbad
  rw [scriptPrograms, if_neg (not_or.mpr ⟨hempty, hbad⟩)]
  apply starts_bind (quiet_call D)
  intro list
  apply starts_ite (fun _ => starts_of_quiet (Frame.keeps_pure _))
  intro _
  apply starts_execvWrapper
  intro r
  apply starts_of_quiet
  exact Frame.keeps_bind (quiet_reportResult r) fun _ => Frame.keeps_pure _

/-- Every handler but the composite one starts the programs of its command. -/
theorem starts_run (composite : Bytes → Act (ℤ × Bytes)) (data : Bytes) {command : Command}
    (h : command ≠ .composite) :
    Starts (command.programs D.tmpdir data) (command.run D composite data) := by
  cases command with
  | ok => exact starts_leaving (starts_of_quiet (quiet_fail _ _)) data
  | installThis => exact starts_leaving (starts_payloadCmdInstallThis data) data
  | installPath => exact starts_leaving (starts_of_quiet (Frame.keeps_pure _)) data
  | fileExport | fileImport => exact starts_leaving (starts_of_quiet (quiet_copyFiles D _)) data
  | adbEnable | adbDisable => exact starts_leaving starts_settings data
  | wifiEnable | wifiDisable =>
    exact starts_leaving (starts_execvWrapper _ fun _ => starts_of_quiet (Frame.keeps_pure _)) data
  | oemUnlock => exact starts_leaving (starts_setOemLock false) data
  | oemLock => exact starts_leaving (starts_setOemLock true) data
  | composite => exact absurd rfl h
  | fwAllow | fwDeny | fwTempAdd | singboxAdd | singboxRemove => exact starts_scriptHelper _ _ data
  | fwFlush => exact starts_leaving starts_payloadCmdFirewallFlush data

end Handlers

section Payloads

/-- A command that has been dispatched, or none if a client's own command has run, and the programs
that it has started. -/
structure Record where
  origin : Option (Bytes × Bytes)
  programs : List (List Bytes)

def Record.dispatched (r : Record) : List (Bytes × Bytes) := r.origin.toList

/-- The programs of the record are those of its payload. -/
def OfPayload (D : Device) (r : Record) : Prop :=
  ∃ x, r.origin = some x ∧ r.programs <+: programsOf D.tmpdir x.1 x.2

/-- Payload commands are dispatched and start their programs. -/
def payloadLog (D : Device) : Frame State :=
  Frame.records State.dispatched State.ran Record.dispatched Record.programs (OfPayload D)

variable {D : Device}

theorem payloadLog_of_quiet {s t : State} (hquiet : t.ran = s.ran) (h : t.dispatched = s.dispatched) :
    (payloadLog D).Allows s t := by
  refine ⟨[], ?_, ?_, by simp⟩
  · rw [List.flatMap_nil, List.append_nil]
    exact h
  · rw [List.flatMap_nil, List.append_nil]
    exact hquiet

theorem payloadLog_send (msg : Bytes) : (payloadLog D).Keeps (send msg) :=
  fun s => payloadLog_of_quiet (quiet_send msg s) (fixes_send msg s)

theorem payloadLog_fail (msg : String) (err : ℤ) : (payloadLog D).Keeps (fail msg err) :=
  fun s => payloadLog_of_quiet (quiet_fail msg err s) (fixes_fail msg err s)

/-- A frame of the entries and of the messages is one of the loop over the entries. -/
theorem compositeLoop_keeps {F : Frame State} {inner : DumbPayload → Act (ℤ × DumbPayload)}
    (h : ∀ p, F.Keeps (inner p)) (hfail : ∀ msg err, F.Keeps (fail msg err)) (count offset : ℕ)
    (data : Bytes) : F.Keeps (compositeLoop inner count offset data) := by
  induction count generalizing offset data with
  | zero => exact Frame.keeps_pure _
  | succ count ih =>
    rw [compositeLoop]
    cases entryAt offset data with
    | none => exact leaving_keeps (hfail _ _) data
    | some entry =>
      apply Frame.keeps_bind (h _)
      intro r
      exact Frame.keeps_ite (fun _ => leaving_keeps (hfail _ _) _) fun _ => ih _ _

theorem payloadCmdComposite_log {inner : DumbPayload → Act (ℤ × DumbPayload)}
    (h : ∀ p, (payloadLog D).Keeps (inner p)) (data : Bytes) :
    (payloadLog D).Keeps (payloadCmdComposite inner data) :=
  Frame.keeps_ite (fun _ => leaving_keeps (payloadLog_fail _ _) data)
    fun _ => compositeLoop_keeps h payloadLog_fail _ _ data

/-- Behind the record of its dispatch, a command starts its programs, or hands on to the entries of
a composite. -/
theorem runCommand_log {composite : Bytes → Act (ℤ × Bytes)} {cmd data : Bytes}
    (h : (payloadLog D).Keeps (composite data)) (s : State) :
    (payloadLog D).Allows s (runCommand D composite cmd data
      { s with dispatched := s.dispatched ++ [(cmd, data)] }).2 := by
  by_cases hcomposite : Command.ofName cmd = some .composite
  · have hlog : (payloadLog D).Allows s { s with dispatched := s.dispatched ++ [(cmd, data)] } :=
      ⟨[⟨some (cmd, data), []⟩], rfl, by simp, by simp [OfPayload]⟩
    apply Frame.trans _ hlog
    rw [runCommand, hcomposite]
    exact h _
  · have hstarts : Starts (programsOf D.tmpdir cmd data) (runCommand D composite cmd data) := by
      rw [runCommand, programsOf]
      cases hname : Command.ofName cmd with
      | none => exact starts_leaving (starts_of_quiet (quiet_unknownCommand cmd)) data
      | some command => exact starts_run composite data fun hcomp => hcomposite (hname.trans (congrArg some hcomp))
    have hfixes : (Frame.fixes State.dispatched).Keeps (runCommand D composite cmd data) := by
      rw [runCommand]
      cases hname : Command.ofName cmd with
      | none => exact leaving_keeps (fixes_unknownCommand cmd) data
      | some command =>
        have hspeaks := speaks_run (D := D) composite data
          fun hcomp => hcomposite (hname.trans (congrArg some hcomp))
        exact fun s => (hspeaks s).2
    obtain ⟨ran, hfront, hran⟩ := hstarts { s with dispatched := s.dispatched ++ [(cmd, data)] }
    refine ⟨[⟨some (cmd, data), ran⟩], ?_, ?_, ?_⟩
    · exact hfixes _
    · rw [hran]
      simp
    · simp [OfPayload, hfront]

theorem dispatch_log {composite : Bytes → Act (ℤ × Bytes)} {p : DumbPayload}
    (h : (payloadLog D).Keeps (composite p.payload)) :
    (payloadLog D).Keeps (dispatch D composite p) := by
  intro s
  have hsent : (payloadLog D).Allows s
      (send p.commandText (send (ascii "command is") (send (ascii "loading...") s).2).2).2 := by
    apply Frame.trans _ (payloadLog_send _ s)
    exact Frame.trans _ (payloadLog_send _ _) (payloadLog_send _ _)
  rw [dispatch_run]
  exact Frame.trans _ hsent (runCommand_log h _)

theorem handleWith_log {composite : Bytes → Act (ℤ × Bytes)} (h : ∀ data, (payloadLog D).Keeps (composite data))
    (time : ℤ) (p : DumbPayload) : (payloadLog D).Keeps (handleWith D composite time p) := by
  intro s
  have htick : (payloadLog D).Allows s { s with ticks := s.ticks + 1 } := payloadLog_of_quiet rfl rfl
  rw [handleWith_run]
  apply Frame.trans _ htick
  dsimp only
  split_ifs
  · exact payloadLog_send _ _
  · generalize dpVerify D.ed D.publicKeyHex _ _ = v
    obtain ⟨_ | _, q⟩ := v
    · exact payloadLog_send _ _
    · exact dispatch_log (h _) _

/-- Whatever the nesting: the induction is on the budget. -/
theorem handleAt_log (time : ℤ) (budget : ℕ) (p : DumbPayload) :
    (payloadLog D).Keeps (handleAt D time budget p) := by
  induction budget generalizing p with
  | zero => exact Frame.keeps_pure _
  | succ budget ih => exact handleWith_log (payloadCmdComposite_log ih) time p

end Payloads

section Clients
variable {D : Device}

/-- A payload with this command and this data was accepted in a download at a time of the network. -/
def Record.OfDownload (D : Device) (netTime : ℤ) (payload : Bytes) (r : Record) : Prop :=
  ∃ x, r.origin = some x ∧ Authentic D netTime payload x ∧ r.programs <+: programsOf D.tmpdir x.1 x.2

/-- The command `code`, run in this state, gets this time from the network and downloads this from the
address that it signs for that time. -/
def Downloads (D : Device) (s : State) (code : Bytes) (netTime : ℤ) (payload : Bytes) : Prop :=
  (call D s).1.ret = netTime ∧ 0 ≤ netTime ∧ ∃ url t,
    requestURL D (getDumbServerCode D) netTime (some code) (fun _ => 0) (call D s).2 = (.ok url, t) ∧
      let downloaded := (fetch D url (send (ascii "downloading...") t).2).1
      0 ≤ downloaded.ret ∧ downloaded.data = payload

/-- What the command of a client, run in this state, records. -/
inductive CommandLog (D : Device) (s : State) : Bytes × List Bytes → List Record → Prop where
  | nothing (client : Bytes × List Bytes) : CommandLog D s client []
  | own {name : Bytes} {command : ClientCommand} (hname : ClientCommand.ofName name = some command)
    (args : List Bytes) {programs : List (List Bytes)} (h : programs <+: command.programs) :
    CommandLog D s (name, args) [⟨none, programs⟩]
  | code {code : Bytes} {netTime : ℤ} {payload : Bytes} (hdownloads : Downloads D s code netTime payload)
    {log : List Record} (hlog : ∀ r ∈ log, r.OfDownload D netTime payload) :
    CommandLog D s (ascii "code", [code]) log

/-- The state has grown by what is recorded. -/
def Grown (s t : State) (log : List Record) : Prop :=
  t.dispatched = s.dispatched ++ log.flatMap Record.dispatched ∧
    t.ran = s.ran ++ log.flatMap Record.programs

/-- Nothing is dispatched and no program is started. -/
def silent : Frame State := (Frame.fixes State.dispatched).and quiet

theorem Grown.of_silent {s t : State} (h : silent.Allows s t) : Grown s t [] := by
  refine ⟨?_, ?_⟩
  · rw [List.flatMap_nil, List.append_nil]
    exact h.1
  · rw [List.flatMap_nil, List.append_nil]
    exact h.2

theorem Grown.append {s t u : State} {log log' : List Record} (h : Grown s t log)
    (h' : Grown t u log') : Grown s u (log ++ log') := by
  refine ⟨?_, ?_⟩
  · rw [h'.1, h.1, List.flatMap_append, List.append_assoc]
  · rw [h'.2, h.2, List.flatMap_append, List.append_assoc]

theorem silent_of_speaks {α : Type} {m : Act α} (hspeaks : speaks.Keeps m) (hquiet : quiet.Keeps m) :
    silent.Keeps m :=
  fun s => ⟨(hspeaks s).2, hquiet s⟩

theorem silent_send (msg : Bytes) : silent.Keeps (send msg) :=
  fun s => ⟨fixes_send msg s, quiet_send msg s⟩

theorem silent_fail (msg : String) (err : ℤ) : silent.Keeps (fail msg err) :=
  fun s => ⟨fixes_fail msg err s, quiet_fail msg err s⟩

theorem silent_downloadFailed (errno : ℕ) : silent.Keeps (downloadFailed errno) :=
  Frame.keeps_ite (fun _ => silent_fail _ _) fun _ =>
    Frame.keeps_ite (fun _ => silent_fail _ _) fun _ => silent_fail _ _

theorem quiet_allocGetUser : quiet.Keeps (allocGetUser D) := fun _ => rfl

theorem quiet_requestURL (baseURL : Bytes) (netTime : ℤ) (code : Option Bytes) (onUrl : Reply → ℤ) :
    quiet.Keeps (requestURL D baseURL netTime code onUrl) := by
  apply Frame.keeps_bind quiet_allocGetUser
  intro user
  cases user with
  | error errno => exact Frame.keeps_pure _
  | ok user =>
    apply Frame.keeps_bind (quiet_call D)
    intro random
    cases if random.ret < 0 then none else requestIdGenerate D.charSigned random.data with
    | none => exact Frame.keeps_pure _
    | some requestid =>
      apply Frame.keeps_bind (quiet_call D)
      intro malloc
      apply Frame.keeps_ite (fun _ => Frame.keeps_pure _)
      intro _
      cases requestIdSign D.ed user.name requestid netTime user.key with
      | error err => exact Frame.keeps_pure _
      | ok signature =>
        apply Frame.keeps_bind (quiet_call D)
        intro url
        exact Frame.keeps_ite (fun _ => Frame.keeps_pure _) fun _ => Frame.keeps_pure _

theorem quiet_uploadFiles (url : Bytes) (files : List Bytes) :
    quiet.Keeps (uploadFiles D url files) := by
  induction files with
  | nil => exact Frame.keeps_pure _
  | cons file files ih =>
    apply Frame.keeps_bind (quiet_call D)
    intro stat
    apply Frame.keeps_ite (fun _ => Frame.keeps_pure _)
    intro _
    apply Frame.keeps_bind (quiet_call D)
    intro opened
    apply Frame.keeps_ite (fun _ => Frame.keeps_pure _)
    intro _
    apply Frame.keeps_bind (quiet_call D)
    intro malloc
    apply Frame.keeps_ite (fun _ => Frame.keeps_pure _)
    intro _
    apply Frame.keeps_bind (quiet_call D)
    intro read
    apply Frame.keeps_ite (fun _ => Frame.keeps_pure _)
    intro _
    apply Frame.keeps_bind (quiet_fetch D url)
    intro posted
    exact Frame.keeps_ite (fun _ => Frame.keeps_pure _) fun _ => ih

theorem quiet_cmdUploadData (args : List Bytes) : quiet.Keeps (cmdUploadData D args) := by
  apply Frame.keeps_ite (fun _ => quiet_fail _ _)
  intro _
  apply Frame.keeps_bind (quiet_call D)
  intro netTime
  apply Frame.keeps_ite (fun _ => quiet_fail _ _)
  intro _
  apply Frame.keeps_bind (quiet_requestURL _ _ _ _)
  intro url
  cases url with
  | error err => exact Frame.keeps_pure _
  | ok url => exact quiet_uploadFiles url args.reverse

theorem quiet_mallocHexToBuf (hex : Bytes) : quiet.Keeps (mallocHexToBuf D hex) := by
  apply Frame.keeps_ite (fun _ => Frame.keeps_pure _)
  intro _
  apply Frame.keeps_bind (quiet_call D)
  intro malloc
  apply Frame.keeps_ite (fun _ => Frame.keeps_pure _)
  intro _
  cases hexPairs D.charSigned hex <;> exact Frame.keeps_pure _

theorem starts_writeNewUser (data : Bytes) :
    Starts ClientCommand.setname.programs (writeNewUser D data) := by
  apply starts_bind (quiet_call D)
  intro opened
  apply starts_ite (fun _ => starts_of_quiet (Frame.keeps_pure _))
  intro _
  apply starts_bind (quiet_call D)
  intro written
  apply starts_bind (quiet_call D)
  intro flushed
  apply starts_bind
  · exact Frame.keeps_modify fun _ => rfl
  intro _
  apply starts_ite (fun _ => starts_of_quiet (quiet_fail _ _))
  intro _
  apply starts_execvWrapper
  intro setprop
  apply starts_ite (fun _ => starts_of_quiet (quiet_fail _ _))
  intro _
  exact starts_ite (fun _ => starts_of_quiet (quiet_fail _ _)) fun _ => starts_of_quiet (quiet_fail _ _)

theorem starts_cmdSetname (args : List Bytes) :
    Starts ClientCommand.setname.programs (cmdSetname D args) := by
  cases args with
  | nil => exact starts_of_quiet (quiet_fail _ _)
  | cons hex args =>
    apply starts_bind (quiet_mallocHexToBuf hex)
    intro data
    cases data with
    | error errno => exact starts_of_quiet (quiet_fail _ _)
    | ok data =>
      apply starts_bind quiet_allocGetUser
      intro olduserdata
      cases olduserdata with
      | ok user => exact starts_of_quiet (quiet_fail _ _)
      | error errno =>
        exact starts_ite (fun _ => starts_of_quiet (quiet_fail _ _)) fun _ => starts_writeNewUser data

/-- What is dispatched of a download is authentic in it. -/
theorem handleDownload_log (netTime : ℤ) (payload : Bytes) (s : State) : ∃ log : List Record,
    (∀ r ∈ log, r.OfDownload D netTime payload) ∧ Grown s (handleDownload D netTime payload s).2 log := by
  rw [handleDownload]
  split_ifs with hshort
  · exact ⟨[], by simp, .of_silent (silent_fail _ _ s)⟩
  · obtain ⟨log, hdispatched, hran, hlog⟩ := handleAt_log (D := D) netTime _
      (DumbPayload.ofBytes payload (header_le_of_not_lt hshort)) s
    obtain ⟨new, hnew, hauthentic⟩ := handleOnePayload_authentic D netTime
      (DumbPayload.ofBytes payload (header_le_of_not_lt hshort)) s
    rw [DumbPayload.toBytes_ofBytes] at hauthentic
    have hsame : new = log.flatMap Record.dispatched :=
      List.append_cancel_left (hnew.symm.trans hdispatched)
    refine ⟨log, fun r hr => ?_, hdispatched, hran⟩
    obtain ⟨x, horigin, hprograms⟩ := hlog r hr
    refine ⟨x, horigin, hauthentic x ?_, hprograms⟩
    rw [hsame, List.mem_flatMap]
    refine ⟨r, hr, ?_⟩
    rw [Record.dispatched, horigin]
    exact List.mem_singleton_self x

/-- Only what has been downloaded is handled. -/
theorem secretCode_log (args : List Bytes) (s : State) : ∃ log : List Record,
    CommandLog D s (ascii "code", args) log ∧ Grown s (secretCode D args s).2 log := by
  have hnothing : ∀ {t : State}, silent.Allows s t →
      ∃ log : List Record, CommandLog D s (ascii "code", args) log ∧ Grown s t log :=
    fun h => ⟨[], .nothing _, .of_silent h⟩
  match args with
  | [] | _ :: _ :: _ => exact hnothing (silent_fail _ _ s)
  | [code] =>
    rw [secretCode]
    split_ifs
    · exact hnothing (silent_fail _ _ s)
    · have htime : silent.Allows s (call D s).2 := ⟨rfl, rfl⟩
      rw [withNetworkTime, bind_run]
      split_ifs with hfailed
      · exact hnothing (silent.trans htime (silent_fail _ _ _))
      · have hsigned := silent.trans htime (silent_of_speaks (speaks_requestURL D (getDumbServerCode D)
          (call D s).1.ret (some code) (fun _ => 0)) (quiet_requestURL _ _ _ _) (call D s).2)
        rw [bind_run]
        cases hurl : requestURL D (getDumbServerCode D) (call D s).1.ret (some code) (fun _ => 0)
            (call D s).2 with
        | mk url t =>
          rw [hurl] at hsigned
          cases url with
          | error err => exact hnothing hsigned
          | ok url =>
            have hsent := silent.trans hsigned (silent_send (ascii "downloading...") t)
            have hfetched : silent.Allows s (fetch D url (send (ascii "downloading...") t).2).2 :=
              silent.trans hsent ⟨rfl, rfl⟩
            dsimp only
            rw [bind_run, bind_run]
            split_ifs with hmissing
            · exact hnothing (silent.trans hfetched (silent_downloadFailed _ _))
            · obtain ⟨log, hlog, hgrown⟩ := @handleDownload_log D (call D s).1.ret
                (fetch D url (send (ascii "downloading...") t).2).1.data
                (fetch D url (send (ascii "downloading...") t).2).2
              have hdownloads : Downloads D s code (call D s).1.ret
                  (fetch D url (send (ascii "downloading...") t).2).1.data :=
                ⟨rfl, not_lt.mp hfailed, url, t, hurl, not_lt.mp hmissing, rfl⟩
              exact ⟨log, .code hdownloads hlog, (Grown.of_silent hfetched).append hgrown⟩

theorem silent_cmdGetUsername : silent.Keeps (cmdGetUsername D) := by
  have hread : silent.Keeps (allocGetUser D) := fun _ => ⟨rfl, rfl⟩
  apply Frame.keeps_bind hread
  intro user
  cases user with
  | error errno => exact silent_fail _ _
  | ok user =>
    apply Frame.keeps_bind (silent_send _)
    intro _
    apply Frame.keeps_bind (silent_send _)
    intro _
    apply Frame.keeps_bind
    · exact silent_of_speaks (speaks_call D) (quiet_call D)
    intro _
    exact Frame.keeps_pure _

/-- A command that starts programs of its own. -/
theorem ownLog {m : Act ℤ} {name : Bytes} {command : ClientCommand}
    (hname : ClientCommand.ofName name = some command) (args : List Bytes)
    (hspeaks : speaks.Keeps m) (hstarts : Starts command.programs m) (s : State) :
    ∃ log : List Record, CommandLog D s (name, args) log ∧ Grown s (m s).2 log := by
  obtain ⟨ran, hfront, hran⟩ := hstarts s
  refine ⟨[⟨none, ran⟩], .own hname args hfront, ?_, ?_⟩
  · exact (hspeaks s).2.trans (List.append_nil _).symm
  · rw [hran]
    simp

theorem doCommand_log (name : Bytes) (args : List Bytes) (s : State) : ∃ log : List Record,
    CommandLog D s (name, args) log ∧ Grown s (doCommand D name args s).2 log := by
  have hnothing : ∀ {t : State}, silent.Allows s t →
      ∃ log : List Record, CommandLog D s (name, args) log ∧ Grown s t log :=
    fun h => ⟨[], .nothing _, .of_silent h⟩
  rw [doCommand]
  cases hname : ClientCommand.ofName name with
  | none => exact hnothing (silent_fail _ _ s)
  | some command =>
    have hspeaks : ∀ hcode hget, speaks.Keeps (command.run D args) :=
      fun hcode hget => speaks_clientCommand D args hcode hget
    cases command with
    | ok | notok => exact hnothing (silent.refl s)
    | code =>
      have htable := name_of_clientCommand hname
      obtain rfl : name = ascii "code" := by simpa [commandsList] using htable
      exact secretCode_log args s
    | getUsername => exact hnothing (silent_cmdGetUsername s)
    | oemLock =>
      apply ownLog hname args (hspeaks (by decide) (by decide))
      exact starts_bind (quiet_send _) fun _ => starts_setOemLock true
    | version => exact hnothing (silent_send _ s)
    | setname => exact ownLog hname args (hspeaks (by decide) (by decide)) (starts_cmdSetname args) s
    | uploadData =>
      exact hnothing (silent_of_speaks (hspeaks (by decide) (by decide)) (quiet_cmdUploadData args) s)

/-- The commands of the clients, one after the other. -/
def doCommands (D : Device) : List (Bytes × List Bytes) → Act Unit
  | [] => return ()
  | (name, args) :: clients => do
    let _ ← doCommand D name args
    doCommands D clients

/-- What the commands of the clients record, each one run in the state that those before it leave. -/
inductive ClientsLog (D : Device) : State → List (Bytes × List Bytes) → List Record → Prop where
  | nil (s : State) : ClientsLog D s [] []
  | cons {s : State} {name : Bytes} {args : List Bytes} {clients : List (Bytes × List Bytes)}
    {log rest : List Record} (hlog : CommandLog D s (name, args) log)
    (hrest : ClientsLog D (doCommand D name args s).2 clients rest) :
    ClientsLog D s ((name, args) :: clients) (log ++ rest)

theorem doCommands_log (clients : List (Bytes × List Bytes)) (s : State) : ∃ log : List Record,
    ClientsLog D s clients log ∧ Grown s (doCommands D clients s).2 log := by
  induction clients generalizing s with
  | nil => exact ⟨[], .nil s, .of_silent (silent.refl s)⟩
  | cons client clients ih =>
    obtain ⟨name, args⟩ := client
    obtain ⟨log, hlog, hgrown⟩ := @doCommand_log D name args s
    obtain ⟨rest, hrest, hgrown'⟩ := ih (doCommand D name args s).2
    exact ⟨log ++ rest, .cons hlog hrest, hgrown.append hgrown'⟩

/-- A client's `code` has downloaded a payload with this command and this data that was accepted at the
time of the network that it has got. -/
def Permitted (D : Device) (clients : List (Bytes × List Bytes)) (s : State) (x : Bytes × Bytes) : Prop :=
  ∃ before code after, clients = before ++ (ascii "code", [code]) :: after ∧ ∃ netTime payload,
    Downloads D (doCommands D before s).2 code netTime payload ∧ Authentic D netTime payload x

theorem Permitted.cons {s : State} {name : Bytes} {args : List Bytes}
    {clients : List (Bytes × List Bytes)} {x : Bytes × Bytes}
    (h : Permitted D clients (doCommand D name args s).2 x) : Permitted D ((name, args) :: clients) s x := by
  obtain ⟨before, code, after, rfl, hdownloaded⟩ := h
  exact ⟨(name, args) :: before, code, after, rfl, hdownloaded⟩

/-- What is recorded of a payload command was permitted. -/
theorem ClientsLog.permitted {s : State} {clients : List (Bytes × List Bytes)} {log : List Record}
    (h : ClientsLog D s clients log) : ∀ r ∈ log,
      (r.origin = none ∧ ∃ command : ClientCommand, r.programs <+: command.programs) ∨
        ∃ x, r.origin = some x ∧ Permitted D clients s x ∧ r.programs <+: programsOf D.tmpdir x.1 x.2 := by
  induction h with
  | nil s => simp
  | @cons s name args clients log rest hlog hrest ih =>
    intro r hr
    rcases List.mem_append.mp hr with hr | hr
    · cases hlog with
      | nothing client => cases hr
      | @own _ command hname _ programs h =>
        obtain rfl := List.mem_singleton.mp hr
        exact .inl ⟨rfl, command, h⟩
      | @code code netTime payload hdownloads _ hlog =>
        obtain ⟨x, horigin, hauthentic, hprograms⟩ := hlog r hr
        exact .inr ⟨x, horigin, ⟨[], code, clients, rfl, netTime, payload, hdownloads, hauthentic⟩,
          hprograms⟩
    · rcases ih r hr with hown | ⟨x, horigin, hpermitted, hprograms⟩
      · exact .inl hown
      · exact .inr ⟨x, horigin, hpermitted.cons, hprograms⟩

end Clients

end Dumbos.Daemon
