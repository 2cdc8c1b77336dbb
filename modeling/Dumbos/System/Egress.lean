import Dumbos.Daemon.Programs
import Dumbos.Firewall.Enforcement

/-! # What leaves the device

The chains let out what the scripts were asked for, the daemon starts the scripts, and
it starts them for payloads that were accepted under the key. Each bound is kept by a
step of the layer below, so a packet that leaves has a signature behind it.
-/
namespace Dumbos.System
open Foundation Common Firewall

section Asked

/-- What a program of the daemon asks the scripts of the firewall for. In front of the reload of a
flush, the configuration file is removed. -/
inductive AsksFor : List Bytes → Ask → Prop where
  | ctl (args : List Bytes) : AsksFor (ascii Daemon.FIREWALLCTL :: args) (.ctl args)
  | flush : AsksFor [Daemon.FIREWALL_RELOAD_SCRIPT] .flush
  | reload : AsksFor [Daemon.FIREWALL_RELOAD_SCRIPT] .reload

/-- Some process of the daemon asks for it while it serves clients. -/
def AskedFor (D : Daemon.Device) (ask : Ask) : Prop :=
  ∃ (clients : List (Bytes × List Bytes)) (s : Daemon.State), s.ran = [] ∧
    ∃ argv ∈ (Daemon.doCommands D clients s).2.ran, AsksFor argv ask

/-- Some process of the daemon has downloaded a payload with this command for a client, and accepted
it. -/
def Accepted (D : Daemon.Device) (x : Bytes × Bytes) : Prop :=
  ∃ (clients : List (Bytes × List Bytes)) (s : Daemon.State), s.ran = [] ∧ Daemon.Permitted D clients s x

/-- A payload with this command names the package, and was accepted in a download. -/
def Authorized (D : Daemon.Device) (cmd name : Bytes) : Prop :=
  ∃ data, Accepted D (cmd, data) ∧ name ∈ Daemon.stringList (Daemon.terminate data)

/-- What the arguments of the controller are made from. -/
inductive CtlArgs (cmd data : Bytes) : List Bytes → Prop where
  | allow (h : cmd = Daemon.CODE_CMD_FW_ALLOW) :
    CtlArgs cmd data (ascii "allow" :: Daemon.stringList (Daemon.terminate data))
  | deny (h : cmd = Daemon.CODE_CMD_FW_DENY) :
    CtlArgs cmd data (ascii "deny" :: Daemon.stringList (Daemon.terminate data))
  | allowTemp (h : cmd = Daemon.CODE_CMD_FW_TEMP_ADD) :
    CtlArgs cmd data (ascii "allow-temp" :: Daemon.stringList (Daemon.terminate data))

theorem mem_scriptPrograms {argv0 argv1 : String} {data : Bytes} {argv : List Bytes}
    (h : argv ∈ Daemon.scriptPrograms argv0 argv1 data) :
    argv = ascii argv0 :: ascii argv1 :: Daemon.stringList (Daemon.terminate data) := by
  rw [Daemon.scriptPrograms] at h
  split_ifs at h
  · cases h
  · exact List.mem_singleton.mp h

/-- The names are read off the table. -/
theorem name_of_command {cmd : Bytes} {command : Daemon.Command}
    (h : Daemon.Command.ofName cmd = some command) : (cmd, command) ∈ Daemon.commandTable := by
  obtain ⟨entry, hfind, rfl⟩ := Option.map_eq_some_iff.mp h
  have hname : entry.1 = cmd := by simpa using List.find?_some hfind
  rw [← hname]
  exact List.mem_of_find?_eq_some hfind

/-- Three commands start the controller. -/
theorem ctlArgs_of_mem {tmpdir cmd data : Bytes} {args : List Bytes}
    (h : ascii Daemon.FIREWALLCTL :: args ∈ Daemon.programsOf tmpdir cmd data) :
    CtlArgs cmd data args := by
  rw [Daemon.programsOf] at h
  cases hname : Daemon.Command.ofName cmd with
  | none =>
    rw [hname] at h
    cases h
  | some command =>
    rw [hname] at h
    have htable := name_of_command hname
    change _ ∈ command.programs tmpdir data at h
    cases command with
    | fwAllow =>
      obtain ⟨-, rfl⟩ := List.cons.inj (mem_scriptPrograms h)
      exact .allow (by simpa [Daemon.commandTable] using htable)
    | fwDeny =>
      obtain ⟨-, rfl⟩ := List.cons.inj (mem_scriptPrograms h)
      exact .deny (by simpa [Daemon.commandTable] using htable)
    | fwTempAdd =>
      obtain ⟨-, rfl⟩ := List.cons.inj (mem_scriptPrograms h)
      exact .allowTemp (by simpa [Daemon.commandTable] using htable)
    | singboxAdd | singboxRemove =>
      obtain ⟨hscript, -⟩ := List.cons.inj (mem_scriptPrograms h)
      exact absurd hscript (by decide)
    | ok | installPath | fileExport | fileImport | composite => cases h
    | installThis | adbEnable | adbDisable =>
      rcases List.mem_cons.mp h with h | h
      · exact absurd (List.cons.inj h).1 (by decide)
      · exact absurd (List.cons.inj (List.mem_singleton.mp h)).1 (by decide)
    | wifiEnable | wifiDisable | oemUnlock | oemLock | fwFlush =>
      exact absurd (List.cons.inj (List.mem_singleton.mp h)).1 (by decide)

/-- No command of a client starts the controller. -/
theorem not_mem_clientPrograms (command : Daemon.ClientCommand) (args : List Bytes) :
    ascii Daemon.FIREWALLCTL :: args ∉ command.programs := by
  intro h
  cases command with
  | oemLock | setname => exact absurd (List.cons.inj (List.mem_singleton.mp h)).1 (by decide)
  | ok | notok | code | getUsername | version | uploadData => cases h

/-- The controller is started for a payload that was accepted. -/
theorem AskedFor.ctlArgs {D : Daemon.Device} {args : List Bytes} (h : AskedFor D (.ctl args)) :
    ∃ cmd data, Accepted D (cmd, data) ∧ CtlArgs cmd data args := by
  obtain ⟨clients, s, hstart, argv, hargv, hasks⟩ := h
  obtain ⟨log, hlog, -, hran⟩ := @Daemon.doCommands_log D clients s
  rw [hran, hstart, List.nil_append, List.mem_flatMap] at hargv
  obtain ⟨r, hr, hmem⟩ := hargv
  cases hasks
  rcases hlog.permitted r hr with ⟨-, command, hfront⟩ | ⟨x, -, hpermitted, hfront⟩
  · exact absurd (hfront.subset hmem) (not_mem_clientPrograms command args)
  · exact ⟨x.1, x.2, ⟨clients, s, hstart, hpermitted⟩, ctlArgs_of_mem (hfront.subset hmem)⟩

/-- The packages that the controller is asked to let out are authorized. -/
theorem AskedFor.authorized {D : Daemon.Device} {args apps : List Bytes} {policy : Policy}
    (h : AskedFor D (.ctl args)) (hargs : parseArgs args = some (policy, apps)) :
    ∀ name ∈ apps, match policy with
      | .allow => Authorized D Daemon.CODE_CMD_FW_ALLOW name
      | .deny => True
      | .allowTemp => Authorized D Daemon.CODE_CMD_FW_TEMP_ADD name := by
  intro name hname
  obtain ⟨cmd, data, haccepted, hctl⟩ := h.ctlArgs
  cases hctl with
  | allow hcmd =>
    rw [parseArgs_allow] at hargs
    split_ifs at hargs
    cases hargs
    exact ⟨data, hcmd ▸ haccepted, hname⟩
  | deny hcmd =>
    rw [parseArgs_deny] at hargs
    split_ifs at hargs
    cases hargs
    trivial
  | allowTemp hcmd =>
    have htemp : parseArgs (ascii "allow-temp" :: Daemon.stringList (Daemon.terminate data)) =
        if Daemon.stringList (Daemon.terminate data) = [] then none
        else some (.allowTemp, Daemon.stringList (Daemon.terminate data)) := by
      cases Daemon.stringList (Daemon.terminate data) with
      | nil => rfl
      | cons app apps =>
        rw [parseArgs, if_neg (by decide), if_neg (by decide), if_pos rfl]
        rfl
    rw [htemp] at hargs
    split_ifs at hargs
    cases hargs
    exact ⟨data, hcmd ▸ haccepted, hname⟩

end Asked

section Bounds
variable {defaults : List Bytes} {names : Set Bytes} {seen : Set (List Installed)} {temps : Set Bytes}

/-- Some package of this name has been installed for this user. -/
def Owned (seen : Set (List Installed)) (uid : ℕ) (name : Bytes) : Prop :=
  ∃ installed ∈ seen, installedUid installed name = some uid

/-- Nobody is granted anything but for packages of these names. -/
structure Bounded (defaults : List Bytes) (names temps : Set Bytes) (seen : Set (List Installed))
    (intent : Intent) : Prop where
  named : intent.names ⊆ names
  granted : ∀ users, intent.granted = some users → ∀ uid ∈ users,
    ∃ name, (name ∈ defaults ∨ name ∈ names) ∧ Owned seen uid name
  opened : ∀ uid ∈ intent.temps, ∃ name ∈ temps, Owned seen uid name

/-- What a request adds is in the bounds. -/
def InBounds (names temps : Set Bytes) (seen : Set (List Installed))
    (request : Ask × Option (List Installed)) : Prop :=
  (∀ installed, request.2 = some installed → installed ∈ seen) ∧
    ∀ args policy apps, request.1 = .ctl args → parseArgs args = some (policy, apps) →
      ∀ name ∈ apps, match policy with
        | .allow => name ∈ names
        | .deny => True
        | .allowTemp => name ∈ temps

theorem reloaded_bounded {packages : Option (List Installed)}
    (hseen : ∀ installed, packages = some installed → installed ∈ seen) {allowed : Set Bytes}
    (h : allowed ⊆ names) : Bounded defaults names temps seen (.reloaded defaults packages allowed) where
  named := h
  granted := by
    intro users husers uid huid
    obtain ⟨installed, rfl, rfl⟩ := Option.map_eq_some_iff.mp husers
    obtain ⟨name, hname, howner⟩ := huid
    exact ⟨name, hname.imp_right (@h name), installed, hseen installed rfl, howner⟩
  opened uid huid := absurd huid (Set.notMem_empty uid)

/-- Step: a request. -/
theorem Bounded.serve {intent : Intent} (h : Bounded defaults names temps seen intent)
    {request : Ask × Option (List Installed)} (hrequest : InBounds names temps seen request) :
    Bounded defaults names temps seen (intent.serve defaults request) := by
  obtain ⟨ask, packages⟩ := request
  obtain ⟨hseen, happs⟩ := hrequest
  cases ask with
  | flush => exact reloaded_bounded hseen (Set.empty_subset names)
  | reload => exact reloaded_bounded hseen h.named
  | ctl args =>
    cases hargs : parseArgs args with
    | none =>
      simp only [Intent.serve, hargs]
      exact h
    | some parsed =>
      obtain ⟨policy, apps⟩ := parsed
      have hbound := happs args policy apps rfl hargs
      simp only [Intent.serve, hargs]
      cases policy with
      | allow =>
        apply reloaded_bounded hseen
        rintro name (hname | ⟨hname, -⟩)
        · exact h.named hname
        · exact hbound name hname
      | deny =>
        apply reloaded_bounded hseen
        rintro name ⟨hname, -⟩
        exact h.named hname
      | allowTemp =>
        constructor
        · exact h.named
        · exact h.granted
        · rintro uid (huid | ⟨app, happ, -, installed, hinstalled, howner⟩)
          · exact h.opened uid huid
          · exact ⟨app, hbound app happ, installed, hseen installed hinstalled, howner⟩

/-- Run: any number of requests. -/
theorem Bounded.requests {intent : Intent} (h : Bounded defaults names temps seen intent)
    {requests : List (Ask × Option (List Installed))}
    (hrequests : ∀ q ∈ requests, InBounds names temps seen q) :
    Bounded defaults names temps seen (requests.foldl (Intent.serve defaults) intent) := by
  induction requests generalizing intent with
  | nil => exact h
  | cons request requests ih =>
    rw [List.forall_mem_cons] at hrequests
    exact ih (h.serve hrequests.1) hrequests.2

end Bounds

section Results
variable {D : Daemon.Device} {defaults : List Bytes} {conf : Option Bytes} {list : AllowList}

/-- Whoever talks to the daemon and to the network: a packet that is let out comes from root, or goes
through the tunnel for a package that is a default one, was on the list from the start or is
authorized, or is one of a package that is authorized for a time. -/
theorem letOut_authorized (hdefaults : ∀ n ∈ defaults, checkPackageName n) (hconf : Holds conf list)
    {packages : Option (List Installed)} {requests : List (Ask × Option (List Installed))}
    (hasked : ∀ q ∈ requests, q.1 = .reload ∨ AskedFor D q.1) {tables : Tables} {s : State}
    (hrun : State.history defaults conf packages requests tables = some s) {family : Family}
    {packet : Packet} (hout : letOut (s.tables family) packet = true) :
    packet.uid = 0 ∨
      (packet.outInterface = ascii "tun0" ∧ ∃ name,
        (name ∈ defaults ∨ name ∈ list.names ∨ Authorized D Daemon.CODE_CMD_FW_ALLOW name) ∧
          Owned {installed | some installed ∈ packages :: requests.map Prod.snd} packet.uid name) ∨
      ∃ name, Authorized D Daemon.CODE_CMD_FW_TEMP_ADD name ∧
        Owned {installed | some installed ∈ packages :: requests.map Prod.snd} packet.uid name := by
  obtain ⟨booted, hboot, hserved⟩ := Option.bind_eq_some_iff.mp hrun
  have hrefines := (refines_boot hdefaults hconf packages hboot).requests hdefaults requests hserved
  have hinstalled : ∀ q ∈ requests, ∀ installed, q.2 = some installed →
      installed ∈ {installed | some installed ∈ packages :: requests.map Prod.snd} := by
    intro q hq installed hsome
    exact List.mem_cons_of_mem _ (List.mem_map.mpr ⟨q, hq, hsome⟩)
  have hstart : Bounded defaults {name | name ∈ list.names ∨ Authorized D Daemon.CODE_CMD_FW_ALLOW name}
      {name | Authorized D Daemon.CODE_CMD_FW_TEMP_ADD name}
      {installed | some installed ∈ packages :: requests.map Prod.snd}
      (.reloaded defaults packages {name | name ∈ list.names}) := by
    apply reloaded_bounded
    · rintro installed rfl
      exact List.mem_cons_self
    · exact fun name hname => .inl hname
  have hrequests : ∀ q ∈ requests,
      InBounds {name | name ∈ list.names ∨ Authorized D Daemon.CODE_CMD_FW_ALLOW name}
        {name | Authorized D Daemon.CODE_CMD_FW_TEMP_ADD name}
        {installed | some installed ∈ packages :: requests.map Prod.snd} q := by
    intro q hq
    refine ⟨hinstalled q hq, fun args policy apps hctl hargs name hname => ?_⟩
    have hauthorized : AskedFor D (.ctl args) := by
      rcases hasked q hq with hreload | h
      · cases hctl.symm.trans hreload
      · exact hctl ▸ h
    have hpolicy := hauthorized.authorized hargs name hname
    cases policy with
    | allow => exact .inr hpolicy
    | deny => trivial
    | allowTemp => exact hpolicy
  have hbounded := hstart.requests hrequests
  rcases (hrefines.letOut_iff family packet).mp hout with htemp | ⟨users, husers, hroot | ⟨htun, huser⟩⟩
  · exact .inr (.inr (hbounded.opened packet.uid htemp))
  · exact .inl hroot
  · exact .inr (.inl ⟨htun, hbounded.granted users husers packet.uid huser⟩)

/-- Allows one app, and was signed. -/
def fennecPayload : Payload.DumbPayload :=
  Payload.setSignature
    (Payload.DumbPayload.unsigned [] (ascii "fw-allow") (ascii "org.mozilla.fennec" ++ [0]))
    Payload.singleSignature

/-- The sixth call is the download. -/
def fennecDevice : Daemon.Device :=
  { Daemon.Device.plain Payload.Ed25519.always 5 with
    userFile := fun _ => .ok (Request.DumbosUserData.ofNameAndKey (ascii "u") (List.replicate 64 98)).toBytes
    reply := fun t =>
      if t = 0 then ⟨5, 0, [], []⟩
      else if t = 2 then ⟨0, 0, List.replicate 64 0, []⟩
      else if t = 5 then ⟨0, 0, fennecPayload.toBytes, []⟩
      else ⟨0, 0, [], []⟩ }

def fennecArgs : List Bytes := [ascii "allow", ascii "org.mozilla.fennec"]

theorem askedFor_fennec : AskedFor fennecDevice (.ctl fennecArgs) := by
  refine ⟨[(ascii "code", [ascii "1"])], Daemon.State.start, rfl, _, ?_, .ctl fennecArgs⟩
  decide +kernel

theorem letOut_authorized_fennec : ∃ s, State.history [] none (some twoInstalled)
      [(.ctl fennecArgs, some twoInstalled)] freshTables = some s ∧
    letOut (s.tables .ip) ⟨10020, ascii "tun0"⟩ = true ∧
    (10020 = 0 ∨
      (ascii "tun0" = ascii "tun0" ∧ ∃ name, (name ∈ [] ∨ name ∈ AllowList.empty.names ∨
        Authorized fennecDevice Daemon.CODE_CMD_FW_ALLOW name) ∧
          Owned {installed | some installed ∈ [some twoInstalled, some twoInstalled]} 10020 name) ∨
      ∃ name, Authorized fennecDevice Daemon.CODE_CMD_FW_TEMP_ADD name ∧
        Owned {installed | some installed ∈ [some twoInstalled, some twoInstalled]} 10020 name) := by
  have hhistory : (State.history [] none (some twoInstalled) [(.ctl fennecArgs, some twoInstalled)]
      freshTables).any (fun s => letOut (s.tables .ip) ⟨10020, ascii "tun0"⟩) = true := by
    decide +kernel
  cases hs : State.history [] none (some twoInstalled) [(.ctl fennecArgs, some twoInstalled)]
      freshTables with
  | none =>
    rw [hs] at hhistory
    cases hhistory
  | some s =>
    rw [hs] at hhistory
    refine ⟨s, rfl, hhistory, ?_⟩
    apply letOut_authorized (by simp) (.inr ⟨rfl, rfl⟩ : Holds none .empty) _ hs hhistory
    intro q hq
    rw [List.mem_singleton.mp hq]
    exact .inr askedFor_fennec

end Results

end Dumbos.System
