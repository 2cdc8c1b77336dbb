import Dumbos.Firewall.AllowList
import Dumbos.Firewall.Guard
import Dumbos.Firewall.PackageList

/-! # What the firewall is for

Above the files, the texts and the chains stand three sets: the packages that are
allowed, the users whose packets the last reload lets through the tunnel, and those
that were let out for a time. The start of the system and every request do to the
scripts' state what they do to the sets, so the chains let out what the sets say.
-/
namespace Dumbos.Firewall
open Foundation

/-- A request to the scripts; `reload` is the one before a package is installed. -/
inductive Ask where
  | ctl (args : List Bytes)
  | flush
  | reload

section Scripts

/-- The configuration file and the chains. -/
structure State where
  conf : Option Bytes
  tables : Tables

/-- `PACKAGES` and the package list that they are looked up in. -/
def readPackages (defaults : Bytes) (conf list : Option Bytes) : Option Packages :=
  list.map fun text => ⟨words (defaults ++ conf.getD []), uidIn text⟩

/-- No package is found when the list cannot be printed. -/
def uidInList (list : Option Bytes) (package : Bytes) : Option ℕ :=
  list.bind fun text => uidIn text package

def addPackageTempStatus (list : Option Bytes) (app : Bytes) : ℕ :=
  if (uidInList list app).isSome then 0 else 1

def Ask.conf (list conf : Option Bytes) : Ask → Option Bytes
  | .ctl args => (runCtl args (addPackageTempStatus list) conf).2
  | .flush => none
  | .reload => conf

/-- The calls of `iptables`, behind the change of the file. -/
def Ask.operation (defaults : Bytes) (list conf : Option Bytes) : Ask → Operation
  | .ctl args => .ctl args (uidInList list) (readPackages defaults conf list)
  | .flush => .reload (readPackages defaults conf list)
  | .reload => .reload (readPackages defaults conf list)

/-- A request in which every call of `iptables` succeeds; `list` is what the package manager prints. -/
def State.serve (defaults : Bytes) (s : State) (request : Ask × Option Bytes) : Option State :=
  let conf := request.1.conf request.2 s.conf
  (runCalls (request.1.operation defaults request.2 conf).calls s.tables).map fun tables => ⟨conf, tables⟩

/-- The start of the system finds the file of an earlier one. -/
def State.boot (defaults : Bytes) (conf list : Option Bytes) (tables : Tables) : Option State :=
  (runCalls (init (readPackages defaults conf list)) tables).map fun tables => ⟨conf, tables⟩

end Scripts

section Intent

/-- Who may send. A reload that cannot read the packages grants nothing, not even to root. -/
structure Intent where
  names : Set Bytes
  granted : Option (Set ℕ)
  temps : Set ℕ

def Intent.LetsOut (intent : Intent) (packet : Packet) : Prop :=
  packet.uid ∈ intent.temps ∨ ∃ users, intent.granted = some users ∧
    (packet.uid = 0 ∨ packet.outInterface = ascii "tun0" ∧ packet.uid ∈ users)

/-- A reload grants the users of the allowed packages that are installed. -/
def Intent.reloaded (defaults : List Bytes) (packages : Option (List Installed)) (names : Set Bytes) :
    Intent where
  names := names
  granted := packages.map fun installed =>
    {uid | ∃ name, (name ∈ defaults ∨ name ∈ names) ∧ installedUid installed name = some uid}
  temps := ∅

def Intent.serve (defaults : List Bytes) (intent : Intent) (request : Ask × Option (List Installed)) :
    Intent :=
  match request.1 with
  | .flush => .reloaded defaults request.2 ∅
  | .reload => .reloaded defaults request.2 intent.names
  | .ctl args =>
    match parseArgs args with
    | none => intent
    | some (.allow, apps) => .reloaded defaults request.2
        {name | name ∈ intent.names ∨ name ∈ apps ∧ checkPackageName name}
    | some (.deny, apps) => .reloaded defaults request.2
        {name | name ∈ intent.names ∧ ¬(name ∈ apps ∧ checkPackageName name)}
    | some (.allowTemp, apps) => { intent with
        temps := intent.temps ∪ {uid | ∃ app ∈ apps, checkPackageName app ∧
          ∃ installed, request.2 = some installed ∧ installedUid installed app = some uid} }

end Intent

section Verdict
variable {table : Table} {uids : List ℕ} {read : Option Packages}

theorem comesBack_oemSbox_eq {rules : List IptRule} (h : Chains rules table) (packet : Packet) :
    comesBack Condition.holds (fun chain => (table chain).getD []) packet 1 .oemSbox =
      (packet.uid == 0 || packet.outInterface == ascii "tun0") := by
  rw [comesBack, h.oemSbox, Option.getD_some, sboxRules]
  by_cases hroot : packet.uid = 0
  · simp [passes, Condition.holds, hroot]
  · by_cases htun : packet.outInterface = ascii "tun0" <;>
      simp [passes, Condition.holds, hroot, htun]

/-- What a reload and the rules before it let out. -/
theorem Chains.letOut_eq (h : Chains (uids.map returnUid ++ reloadedRules read) table)
    (packet : Packet) : letOut table packet = (uids.contains packet.uid ||
      read.any fun packages => packet.uid == 0 ||
        (packet.outInterface == ascii "tun0" && packages.uids.contains packet.uid)) := by
  rw [letOut, comesBack, h.oemOut, Option.getD_some, passes_returnUids]
  congr 1
  cases read with
  | none => rfl
  | some packages =>
    have hrules : reloadedRules (some packages) = [0].map returnUid ++
        ⟨.any, .jump .oemSbox⟩ :: (packages.uids.reverse.map returnUid ++ [rejectRule]) := rfl
    have hreject : passes Condition.holds (comesBack Condition.holds
        (fun chain => (table chain).getD []) packet 1) packet [rejectRule] = false := rfl
    rw [hrules, passes_returnUids, passes_call rfl, comesBack_oemSbox_eq h packet,
      passes_returnUids, hreject, Option.any_some]
    by_cases hroot : packet.uid = 0
    · simp [hroot]
    · have hfalse : (packet.uid == 0) = false := by simpa using hroot
      simp [hroot, hfalse]

end Verdict

section Refinement
variable {defaults : List Bytes} {conf : Option Bytes} {list : AllowList} {intent : Intent}

/-- A reload granted these users. -/
def Grants (read : Option Packages) (granted : Option (Set ℕ)) : Prop :=
  granted = read.map fun packages => {uid | uid ∈ packages.uids}

/-- The scripts' state stands for the sets. -/
structure Refines (s : State) (intent : Intent) : Prop where
  file : ∃ list, Holds s.conf list ∧ ∀ name, name ∈ list.names ↔ name ∈ intent.names
  chains : ∀ family, ∃ (uids : List ℕ) (read : Option Packages),
    Chains (uids.map returnUid ++ reloadedRules read) (s.tables family) ∧
    (∀ uid, uid ∈ uids ↔ uid ∈ intent.temps) ∧ Grants read intent.granted

/-- The chains let out what the sets say. -/
theorem Refines.letOut_iff {s : State} (h : Refines s intent) (family : Family) (packet : Packet) :
    letOut (s.tables family) packet = true ↔ intent.LetsOut packet := by
  obtain ⟨uids, read, hchains, htemps, hgrants⟩ := h.chains family
  rw [hchains.letOut_eq, Bool.or_eq_true, Intent.LetsOut, hgrants]
  apply or_congr
  · rw [List.contains_iff_mem, htemps]
  · cases read with
    | none => simp
    | some packages => simp

theorem uidInList_printed (packages : Option (List Installed)) {name : Bytes}
    (hname : checkPackageName name) (uid : ℕ) :
    uidInList (packages.map printPackages) name = some uid ↔
      ∃ installed, packages = some installed ∧ installedUid installed name = some uid := by
  cases packages with
  | none => simp [uidInList]
  | some installed => simp [uidInList, uidIn_printPackages installed hname]

/-- What a reload reads grants the users of the allowed packages. -/
theorem grants_readPackages (hdefaults : ∀ n ∈ defaults, checkPackageName n) (h : Holds conf list)
    (packages : Option (List Installed)) {names : Set Bytes}
    (hnames : ∀ name, name ∈ list.names ↔ name ∈ names) :
    Grants (readPackages (ended newline defaults) conf (packages.map printPackages))
      (Intent.reloaded defaults packages names).granted := by
  have hconf : conf.getD [] = ended newline list.names := by
    rcases h with rfl | ⟨rfl, hnil⟩
    · rfl
    · rw [hnil]
      rfl
  have hwords : words (ended newline defaults ++ conf.getD []) = defaults ++ list.names := by
    rw [words_ended_append hdefaults, hconf, ← List.append_nil (ended newline list.names),
      words_ended_append list.valid, words_nil, List.append_nil]
  cases packages with
  | none => rfl
  | some installed =>
    refine congrArg some (Set.ext fun uid => ?_)
    rw [Set.mem_ofPred_eq, Set.mem_ofPred_eq, Packages.uids, List.mem_filterMap]
    apply exists_congr
    intro name
    rw [hwords, List.mem_append, hnames]
    apply and_congr_right
    intro hname
    have hvalid : checkPackageName name := by
      rcases hname with hdefault | hlist
      · exact hdefaults name hdefault
      · exact list.valid name ((hnames name).mpr hlist)
    rw [← uidIn_printPackages installed hvalid]

/-- Step: a reload. -/
theorem refines_reload (hdefaults : ∀ n ∈ defaults, checkPackageName n) (h : Holds conf list)
    (packages : Option (List Installed)) {names : Set Bytes}
    (hnames : ∀ name, name ∈ list.names ↔ name ∈ names) {tables tables' : Tables}
    (hchains : ∀ family, ∃ rules, Chains rules (tables family))
    (hrun : runCalls (reload (readPackages (ended newline defaults) conf
      (packages.map printPackages))) tables = some tables') :
    Refines ⟨conf, tables'⟩ (.reloaded defaults packages names) := by
  refine ⟨⟨list, h, hnames⟩, fun family => ?_⟩
  obtain ⟨rules, hbefore⟩ := hchains family
  exact ⟨[], _, hbefore.reload (runCalls_family hrun family), fun _ => by simp [Intent.reloaded],
    grants_readPackages hdefaults h packages hnames⟩

/-- Step: the apps that are let out for a time. -/
theorem refines_addPackagesTemp {s : State} (h : Refines s intent) (apps : List Bytes)
    (packages : Option (List Installed)) {tables : Tables}
    (hrun : runCalls ((apps.filter checkPackageName).flatMap
      (addPackageTemp (uidInList (packages.map printPackages)))) s.tables = some tables) :
    Refines ⟨s.conf, tables⟩ { intent with
      temps := intent.temps ∪ {uid | ∃ app ∈ apps, checkPackageName app ∧
        ∃ installed, packages = some installed ∧ installedUid installed app = some uid} } := by
  refine ⟨h.file, fun family => ?_⟩
  obtain ⟨uids, read, hchains, htemps, hgrants⟩ := h.chains family
  have hfamily := runCalls_family hrun family
  rw [addPackageTemp_flatMap, commandsOf_firewallAllow] at hfamily
  have hafter := hchains.inserts hfamily
  rw [← List.append_assoc, ← List.map_append] at hafter
  refine ⟨_, read, hafter, fun uid => ?_, hgrants⟩
  rw [List.mem_append, List.mem_reverse, htemps, Set.mem_union, or_comm]
  apply or_congr_right
  rw [tempUids, List.mem_filterMap, Set.mem_ofPred_eq]
  apply exists_congr
  intro app
  rw [List.mem_filter, and_assoc]
  apply and_congr_right
  intro _
  apply and_congr_right
  intro hvalid
  exact uidInList_printed packages hvalid uid

/-- What a run of the controller makes of the file, as a set. -/
theorem runCtl_names {args apps : List Bytes} {policy : Policy} (hargs : parseArgs args = some (policy, apps))
    (h : Holds conf list) (temp : Bytes → ℕ) : ∃ list', Holds (runCtl args temp conf).2 list' ∧
      ∀ name, name ∈ list'.names ↔ Wanted policy apps list.names name := by
  obtain ⟨list', hholds, hrun⟩ := runCtl_holds h args temp
  rw [hargs] at hrun
  exact ⟨list', hholds, hrun.2⟩

theorem Refines.exists_chains {s : State} (h : Refines s intent) (family : Family) :
    ∃ rules, Chains rules (s.tables family) := by
  obtain ⟨uids, read, hchains, -, -⟩ := h.chains family
  exact ⟨_, hchains⟩

/-- Step: a request. -/
theorem Refines.serve (hdefaults : ∀ n ∈ defaults, checkPackageName n) {s s' : State}
    (h : Refines s intent) (ask : Ask) (packages : Option (List Installed))
    (hrun : s.serve (ended newline defaults) (ask, packages.map printPackages) = some s') :
    Refines s' (intent.serve defaults (ask, packages)) := by
  obtain ⟨list, hholds, hnames⟩ := h.file
  obtain ⟨tables, hcalls, rfl⟩ := Option.map_eq_some_iff.mp hrun
  cases ask with
  | flush =>
    have hempty : Holds none .empty := .inr ⟨rfl, rfl⟩
    exact refines_reload hdefaults hempty packages (by simp [AllowList.empty]) h.exists_chains hcalls
  | reload => exact refines_reload hdefaults hholds packages hnames h.exists_chains hcalls
  | ctl args =>
    rw [Ask.operation, Operation.calls, firewallctl] at hcalls
    rcases hargs : parseArgs args with _ | ⟨policy, apps⟩
    · rw [hargs] at hcalls
      obtain rfl : s.tables = tables := Option.some.inj hcalls
      have hconf : Ask.conf (packages.map printPackages) s.conf (.ctl args) = s.conf := by
        rw [Ask.conf, runCtl, hargs]
      simp only [hconf, Intent.serve, hargs]
      exact h
    · obtain ⟨list', hholds', hnames'⟩ := runCtl_names hargs hholds
        (addPackageTempStatus (packages.map printPackages))
      simp only [hargs] at hcalls
      simp only [Intent.serve, hargs]
      cases policy with
      | allow =>
        refine refines_reload hdefaults hholds' packages (fun name => ?_) h.exists_chains hcalls
        rw [hnames', Wanted, hnames]
        exact Iff.rfl
      | deny =>
        refine refines_reload hdefaults hholds' packages (fun name => ?_) h.exists_chains hcalls
        rw [hnames', Wanted, hnames]
        exact Iff.rfl
      | allowTemp =>
        have htemps := refines_addPackagesTemp h apps packages hcalls
        exact ⟨⟨list', hholds', fun name => (hnames' name).trans (hnames name)⟩, htemps.chains⟩

/-- The start of the system. -/
theorem refines_boot (hdefaults : ∀ n ∈ defaults, checkPackageName n) (h : Holds conf list)
    (packages : Option (List Installed)) {tables : Tables} {s : State}
    (hrun : State.boot (ended newline defaults) conf (packages.map printPackages) tables = some s) :
    Refines s (.reloaded defaults packages {name | name ∈ list.names}) := by
  obtain ⟨tables', hcalls, rfl⟩ := Option.map_eq_some_iff.mp hrun
  refine ⟨⟨list, h, fun name => Iff.rfl⟩, fun family => ?_⟩
  exact ⟨[], _, chains_init (runCalls_family hcalls family), fun _ => by simp [Intent.reloaded],
    grants_readPackages hdefaults h packages fun name => Iff.rfl⟩

/-- Run: any number of requests. -/
theorem Refines.requests (hdefaults : ∀ n ∈ defaults, checkPackageName n)
    (requests : List (Ask × Option (List Installed))) {s s' : State} (h : Refines s intent)
    (hrun : (requests.map (Prod.map id (Option.map printPackages))).foldlM
      (State.serve (ended newline defaults)) s = some s') :
    Refines s' (requests.foldl (Intent.serve defaults) intent) := by
  induction requests generalizing s intent with
  | nil =>
    obtain rfl : s = s' := Option.some.inj hrun
    exact h
  | cons request requests ih =>
    obtain ⟨middle, hfirst, hrest⟩ := Option.bind_eq_some_iff.mp hrun
    exact ih (h.serve hdefaults request.1 request.2 hfirst) hrest

end Refinement

section Results

/-- The start of the system and the requests behind it, each with the packages that are installed
while it is served. -/
def State.history (defaults : List Bytes) (conf : Option Bytes) (packages : Option (List Installed))
    (requests : List (Ask × Option (List Installed))) (tables : Tables) : Option State :=
  (State.boot (ended newline defaults) conf (packages.map printPackages) tables).bind
    ((requests.map (Prod.map id (Option.map printPackages))).foldlM (State.serve (ended newline defaults)))

def Intent.history (defaults : List Bytes) (list : AllowList) (packages : Option (List Installed))
    (requests : List (Ask × Option (List Installed))) : Intent :=
  requests.foldl (Intent.serve defaults) (.reloaded defaults packages {name | name ∈ list.names})

/-- After the start of the system and any requests, with all calls of `iptables` made, the file is
the set of allowed packages, and a packet is let out exactly if it is one of a user that was let
out for a time, or comes from root, or goes through the tunnel for a user of an allowed package that
was installed at the last reload. -/
theorem firewall_enforces {defaults : List Bytes} (hdefaults : ∀ n ∈ defaults, checkPackageName n)
    {conf : Option Bytes} {list : AllowList} (hconf : Holds conf list)
    (packages : Option (List Installed)) (requests : List (Ask × Option (List Installed)))
    {tables : Tables} {s : State}
    (hrun : State.history defaults conf packages requests tables = some s) :
    (∀ name, name ∈ confLines s.conf ↔
      name ∈ (Intent.history defaults list packages requests).names) ∧
    ∀ family packet, letOut (s.tables family) packet = true ↔
      (Intent.history defaults list packages requests).LetsOut packet := by
  obtain ⟨booted, hboot, hserved⟩ := Option.bind_eq_some_iff.mp hrun
  have h := (refines_boot hdefaults hconf packages hboot).requests hdefaults requests hserved
  obtain ⟨list', hholds, hnames⟩ := h.file
  refine ⟨fun name => ?_, h.letOut_iff⟩
  rw [hholds.confLines_eq]
  exact hnames name

/-- The client of the updates, which the system allows, and an app. -/
def twoInstalled : List Installed :=
  [⟨ascii "app.seamlessupdate.client", 10010, rfl⟩, ⟨ascii "org.mozilla.fennec", 10020, rfl⟩]

theorem firewall_enforces_allow : ∃ s, State.history [ascii "app.seamlessupdate.client"] none
    (some twoInstalled) [(.ctl [ascii "allow", ascii "org.mozilla.fennec"], some twoInstalled)]
    freshTables = some s ∧ letOut (s.tables .ip) ⟨10020, ascii "tun0"⟩ = true := by
  have hrun : (State.history [ascii "app.seamlessupdate.client"] none (some twoInstalled)
      [(.ctl [ascii "allow", ascii "org.mozilla.fennec"], some twoInstalled)] freshTables).isSome = true := by
    decide +kernel
  obtain ⟨s, hs⟩ := Option.isSome_iff_exists.mp hrun
  have hdefaults : ∀ n ∈ [ascii "app.seamlessupdate.client"], checkPackageName n := by decide
  refine ⟨s, hs, ((firewall_enforces hdefaults (.inr ⟨rfl, rfl⟩ : Holds none .empty) _ _ hs).2 _ _).mpr ?_⟩
  refine .inr ⟨_, rfl, .inr ⟨rfl, ascii "org.mozilla.fennec", .inr (.inr ⟨?_, ?_⟩), ?_⟩⟩ <;> decide +kernel

end Results

end Dumbos.Firewall
