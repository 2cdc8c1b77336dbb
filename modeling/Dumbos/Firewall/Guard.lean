import Dumbos.Firewall.Scripts

/-! # What the chains let out

Every completed run leaves `oem_sbox` as the start of the system made it, and
`oem_out` as the last reload made it behind the rules of the packages that were let
out since. Those rules stand before the jump, so their packets never see `oem_sbox`.
-/
namespace Dumbos.Firewall
open Foundation

/-- No packet of a user other than root leaves through an interface other than `tun0`. -/
def Guarded (tables : Tables) : Prop :=
  ∀ family packet, packet.uid ≠ 0 → packet.outInterface ≠ ascii "tun0" →
    letOut (tables family) packet = false

section Temporary

/-- The UIDs of the packages that are named correctly and are installed. -/
def tempUids (apps : List Bytes) (uidOf : Bytes → Option ℕ) : List ℕ :=
  (apps.filter checkPackageName).filterMap uidOf

/-- The UIDs let out since the last reload, the latest one first. -/
def Operation.temps (before : List ℕ) : Operation → List ℕ
  | .reload _ => []
  | .ctl args uidOf _ =>
    match parseArgs args with
    | none => before
    | some (.allowTemp, apps) => (tempUids apps uidOf).reverse ++ before
    | some (.allow, _) => []
    | some (.deny, _) => []

def temps (operations : List Operation) : List ℕ := operations.foldl Operation.temps []

theorem addPackageTemp_flatMap (apps : List Bytes) (uidOf : Bytes → Option ℕ) :
    (apps.filter checkPackageName).flatMap (addPackageTemp uidOf) =
      (tempUids apps uidOf).flatMap firewallAllow := by
  rw [tempUids]
  induction apps.filter checkPackageName with
  | nil => rfl
  | cons app apps ih =>
    rw [List.flatMap_cons, ih, addPackageTemp]
    cases huid : uidOf app with
    | none => rw [List.filterMap_cons_none huid, List.nil_append]
    | some uid =>
      rw [List.filterMap_cons_some huid, List.flatMap_cons]
      rfl

end Temporary

section Chains
variable {rules : List IptRule} {table table' : Table}

def rejectRule : IptRule := ⟨.any, .REJECT⟩

def sboxRules : List IptRule :=
  [⟨.uidOwner 0, .RETURN⟩, ⟨.outInterface (ascii "tun0"), .RETURN⟩, ⟨.any, .DROP⟩]

/-- The rules of `oem_out` that a reload leaves. -/
def reloadedRules : Option Packages → List IptRule
  | none => [rejectRule]
  | some packages =>
    returnUid 0 :: ⟨.any, .jump .oemSbox⟩ :: (packages.uids.reverse.map returnUid ++ [rejectRule])

/-- The two chains between runs. -/
structure Chains (rules : List IptRule) (table : Table) : Prop where
  oemOut : table .oemOut = some rules
  oemSbox : table .oemSbox = some sboxRules

theorem ChainName.oemOut_ne_oemSbox : ChainName.oemOut ≠ .oemSbox := by decide

theorem Command.run_eq_some {c : Command} (h : c.run table = some table') :
    ∃ rules, c.action.run (table c.chain) = some rules ∧
      table' = Function.update table c.chain (some rules) := by
  rw [Command.run] at h
  split_ifs at h
  obtain ⟨rules, hrun, htable⟩ := Option.map_eq_some_iff.mp h
  exact ⟨rules, hrun, htable.symm⟩

theorem Command.run_flush {chain : ChainName}
    (h : Command.run table ⟨chain, .flush⟩ = some table') :
    table' = Function.update table chain (some []) := by
  obtain ⟨rules, hrules, rfl⟩ := Command.run_eq_some h
  cases hchain : table chain with
  | none => simp [hchain, Action.run] at hrules
  | some old => simp_all [Action.run]

theorem Command.run_append {chain : ChainName} {rule : IptRule}
    (h : Command.run table ⟨chain, .append rule⟩ = some table') (hchain : table chain = some rules) :
    table' = Function.update table chain (some (rules ++ [rule])) := by
  obtain ⟨rules', hrules, rfl⟩ := Command.run_eq_some h
  rw [hchain] at hrules
  rw [← Option.some.inj hrules]

theorem runCommands_cons {c : Command} {commands : List Command}
    (h : runCommands (c :: commands) table = some table') :
    ∃ middle, c.run table = some middle ∧ runCommands commands middle = some table' :=
  Option.bind_eq_some_iff.mp h

theorem runCommands_append {a b : List Command} (h : runCommands (a ++ b) table = some table') :
    ∃ middle, runCommands a table = some middle ∧ runCommands b middle = some table' := by
  rw [runCommands, List.foldlM_append] at h
  exact Option.bind_eq_some_iff.mp h

/-- A command on `oem_out` leaves `oem_sbox` alone. -/
theorem Chains.run {action : Action} (h : Chains rules table)
    (hrun : Command.run table ⟨.oemOut, action⟩ = some table') :
    ∃ rules', action.run (some rules) = some rules' ∧ Chains rules' table' := by
  obtain ⟨rules', hrules, rfl⟩ := Command.run_eq_some hrun
  rw [h.oemOut] at hrules
  refine ⟨rules', hrules, ?_, ?_⟩
  · exact Function.update_self _ _ _
  · rw [Function.update_of_ne ChainName.oemOut_ne_oemSbox.symm, h.oemSbox]

/-- Each UID is put before all that stands in the chain. -/
theorem Chains.inserts {uids : List ℕ} (h : Chains rules table)
    (hrun : runCommands (uids.map fun uid => ⟨.oemOut, .insert 1 (returnUid uid)⟩) table =
      some table') :
    Chains (uids.reverse.map returnUid ++ rules) table' := by
  induction uids generalizing rules table with
  | nil =>
    obtain rfl : table = table' := Option.some.inj hrun
    exact h
  | cons uid uids ih =>
    obtain ⟨middle, hfirst, hrest⟩ := runCommands_cons hrun
    obtain ⟨rules', hinsert, hmiddle⟩ := h.run hfirst
    obtain rfl : returnUid uid :: rules = rules' := by simpa [Action.run] using hinsert
    have hchains := ih hmiddle hrest
    rw [List.reverse_cons, List.map_append, List.append_assoc]
    exact hchains

theorem Chains.rejectAll {family : Family} (h : Chains rules table)
    (hrun : runCommands (commandsOf family rejectAll) table = some table') :
    Chains [rejectRule] table' := by
  rw [Firewall.rejectAll, commandsOf_forFamilies] at hrun
  obtain ⟨flushed, hflush, hrest⟩ := runCommands_cons hrun
  obtain ⟨appended, happend, hnil⟩ := runCommands_cons hrest
  obtain rfl : appended = table' := Option.some.inj hnil
  obtain ⟨empty, hempty, hflushed⟩ := h.run hflush
  obtain rfl : [] = empty := Option.some.inj hempty
  obtain ⟨rules', hrules, happended⟩ := hflushed.run happend
  obtain rfl : [rejectRule] = rules' := Option.some.inj hrules
  exact happended

/-- The jump ends up behind root's rule and before the rules of all packages. -/
theorem Chains.reload {family : Family} {read : Option Packages} (h : Chains rules table)
    (hrun : runCommands (commandsOf family (reload read)) table = some table') :
    Chains (reloadedRules read) table' := by
  cases read with
  | none => exact h.rejectAll hrun
  | some packages =>
    rw [Firewall.reload, commandsOf_append, commandsOf_append] at hrun
    obtain ⟨inserted, hallows, hlast⟩ := runCommands_append hrun
    obtain ⟨rejected, hreject, hinserts⟩ := runCommands_append hallows
    rw [commandsOf_firewallAllow] at hinserts
    rw [commandsOf_forFamilies] at hlast
    have hchains := (h.rejectAll hreject).inserts hinserts
    obtain ⟨jumped, hjump, hnil⟩ := runCommands_cons hlast
    obtain rfl : jumped = table' := Option.some.inj hnil
    obtain ⟨rules', hrules, hjumped⟩ := hchains.run hjump
    obtain rfl : reloadedRules (some packages) = rules' := by
      simpa [Action.run, ALLOWED_UIDS, reloadedRules] using hrules
    exact hjumped

end Chains

section Runs
variable {table table' : Table} {family : Family}

/-- What was let out for a time stands before the rules of the last reload. -/
def Opened (uids : List ℕ) (table : Table) : Prop :=
  ∃ read, Chains (uids.map returnUid ++ reloadedRules read) table

/-- `oem_sbox` is built behind the back of `oem_out`. -/
theorem chains_oemSbox {rules : List IptRule} (hout : table .oemOut = some rules)
    (hrun : runCommands [⟨.oemSbox, .create⟩, ⟨.oemSbox, .flush⟩,
      ⟨.oemSbox, .append ⟨.uidOwner 0, .RETURN⟩⟩,
      ⟨.oemSbox, .append ⟨.outInterface (ascii "tun0"), .RETURN⟩⟩,
      ⟨.oemSbox, .append ⟨.any, .DROP⟩⟩] table = some table') : Chains rules table' := by
  obtain ⟨created, hcreate, hrun⟩ := runCommands_cons hrun
  obtain ⟨flushed, hflush, hrun⟩ := runCommands_cons hrun
  obtain ⟨first, hfirst, hrun⟩ := runCommands_cons hrun
  obtain ⟨second, hsecond, hrun⟩ := runCommands_cons hrun
  obtain ⟨third, hthird, hrun⟩ := runCommands_cons hrun
  obtain rfl : third = table' := Option.some.inj hrun
  obtain ⟨old, -, rfl⟩ := Command.run_eq_some hcreate
  obtain rfl := Command.run_flush hflush
  obtain rfl := Command.run_append hfirst (Function.update_self _ _ _)
  obtain rfl := Command.run_append hsecond (Function.update_self _ _ _)
  obtain rfl := Command.run_append hthird (Function.update_self _ _ _)
  simp only [Function.update_idem]
  constructor
  · rw [Function.update_of_ne ChainName.oemOut_ne_oemSbox, hout]
  · rw [Function.update_self]
    rfl

/-- The start of the system builds both chains, whatever it finds in `oem_out`. -/
theorem chains_init {read : Option Packages}
    (hrun : runCommands (commandsOf family (init read)) table = some table') :
    Chains (reloadedRules read) table' := by
  rw [init, commandsOf_append, commandsOf_append, rejectAll, commandsOf_forFamilies,
    commandsOf_forFamilies] at hrun
  obtain ⟨built, hbuild, hreload⟩ := runCommands_append hrun
  obtain ⟨rejected, hreject, hsbox⟩ := runCommands_append hbuild
  obtain ⟨flushed, hflush, hrest⟩ := runCommands_cons hreject
  obtain ⟨appended, happend, hnil⟩ := runCommands_cons hrest
  obtain rfl : appended = rejected := Option.some.inj hnil
  obtain rfl := Command.run_flush hflush
  obtain rfl := Command.run_append happend (Function.update_self _ _ _)
  have hchains := chains_oemSbox (Function.update_self _ _ _) hsbox
  exact hchains.reload hreload

theorem opened_init {read : Option Packages}
    (hrun : runCommands (commandsOf family (init read)) table = some table') : Opened [] table' :=
  ⟨read, chains_init hrun⟩

/-- Step: one operation. -/
theorem Opened.operation {uids : List ℕ} {operation : Operation} (h : Opened uids table)
    (hrun : runCommands (commandsOf family operation.calls) table = some table') :
    Opened (operation.temps uids) table' := by
  obtain ⟨read, hchains⟩ := h
  cases operation with
  | reload read' => exact ⟨read', hchains.reload hrun⟩
  | ctl args uidOf read' =>
    rw [Operation.calls, firewallctl] at hrun
    rw [Operation.temps]
    rcases hparse : parseArgs args with _ | ⟨_ | _ | _, apps⟩
    · rw [hparse] at hrun
      obtain rfl : table = table' := Option.some.inj hrun
      exact ⟨read, hchains⟩
    · rw [hparse] at hrun
      exact ⟨read', hchains.reload hrun⟩
    · rw [hparse] at hrun
      exact ⟨read', hchains.reload hrun⟩
    · rw [hparse] at hrun
      simp only at hrun
      rw [addPackageTemp_flatMap, commandsOf_firewallAllow] at hrun
      refine ⟨read, ?_⟩
      rw [List.map_append, List.append_assoc]
      exact hchains.inserts hrun

/-- Run: any number of operations. -/
theorem Opened.operations {uids : List ℕ} {operations : List Operation} (h : Opened uids table)
    (hrun : runCommands (commandsOf family (operations.flatMap Operation.calls)) table =
      some table') :
    Opened (operations.foldl Operation.temps uids) table' := by
  induction operations generalizing uids table with
  | nil =>
    obtain rfl : table = table' := Option.some.inj hrun
    exact h
  | cons operation operations ih =>
    rw [List.flatMap_cons, commandsOf_append] at hrun
    obtain ⟨middle, hfirst, hrest⟩ := runCommands_append hrun
    exact ih (h.operation hfirst) hrest

end Runs

section Packets
variable {table : Table} {packet : Packet}

theorem holds_returnUid (uid : ℕ) (packet : Packet) :
    (returnUid uid).condition.holds packet = (packet.uid == uid) := rfl

/-- `oem_sbox` lets nothing back but root and what goes through `tun0`. -/
theorem comesBack_oemSbox {rules : List IptRule} (h : Chains rules table) (hroot : packet.uid ≠ 0)
    (htun : packet.outInterface ≠ ascii "tun0") :
    comesBack Condition.holds (fun chain => (table chain).getD []) packet 1 .oemSbox = false := by
  rw [comesBack, h.oemSbox, Option.getD_some, sboxRules,
    passes_cons_of_not (by simpa [Condition.holds] using hroot),
    passes_cons_of_not (by simpa [Condition.holds] using htun)]
  rfl

/-- The rules of a reload send every other packet into `oem_sbox` first. -/
theorem passes_reloadedRules {call : ChainName → Bool} (hcall : call .oemSbox = false)
    (hroot : packet.uid ≠ 0) (read : Option Packages) :
    passes Condition.holds call packet (reloadedRules read) = false := by
  cases read with
  | none => rfl
  | some packages =>
    rw [reloadedRules, passes_cons_of_not (by simpa [holds_returnUid] using hroot)]
    exact passes_jump rfl hcall _

/-- Rules that let users out, before the others. -/
theorem passes_returnUids (call : ChainName → Bool) (packet : Packet) (uids : List ℕ)
    (rules : List IptRule) :
    passes Condition.holds call packet (uids.map returnUid ++ rules) =
      (uids.contains packet.uid || passes Condition.holds call packet rules) := by
  have hreturns : ∀ rule ∈ uids.map returnUid, rule.target = .RETURN := by
    intro rule hrule
    obtain ⟨uid, -, rfl⟩ := List.mem_map.mp hrule
    rfl
  rw [passes_returns hreturns, List.any_map]
  simp [List.any_eq, holds_returnUid]

/-- Such a packet is let out exactly if its user was let out for a time. -/
theorem Opened.letOut_eq {uids : List ℕ} (h : Opened uids table) (hroot : packet.uid ≠ 0)
    (htun : packet.outInterface ≠ ascii "tun0") : letOut table packet = uids.contains packet.uid := by
  obtain ⟨read, hchains⟩ := h
  rw [letOut, comesBack, hchains.oemOut, Option.getD_some, passes_returnUids,
    passes_reloadedRules (comesBack_oemSbox hchains hroot htun) hroot, Bool.or_false]

end Packets

/-- Both families. -/
theorem opened_history {read : Option Packages} {operations : List Operation} {tables tables' : Tables}
    (h : runCalls (history read operations) tables = some tables') (family : Family) :
    Opened (temps operations) (tables' family) := by
  have hrun := runCalls_family h family
  rw [history, commandsOf_append] at hrun
  obtain ⟨middle, hinit, hoperations⟩ := runCommands_append hrun
  exact (opened_init hinit).operations hoperations

/-- Nothing bypasses `oem_sbox` exactly if only root was let out for a time since the last reload. -/
theorem guarded_history_iff {read : Option Packages} {operations : List Operation}
    {tables tables' : Tables} (h : runCalls (history read operations) tables = some tables') :
    Guarded tables' ↔ ∀ uid ∈ temps operations, uid = 0 := by
  constructor
  · intro hguarded uid huid
    by_contra hroot
    have hwlan : ascii "wlan0" ≠ ascii "tun0" := by decide
    have hout : letOut (tables' .ip) ⟨uid, ascii "wlan0"⟩ = (temps operations).contains uid :=
      (opened_history h .ip).letOut_eq hroot hwlan
    rw [hguarded .ip ⟨uid, ascii "wlan0"⟩ hroot hwlan] at hout
    simp [huid] at hout
  · intro htemps family packet hroot htun
    rw [(opened_history h family).letOut_eq hroot htun]
    simpa using fun hmem => hroot (htemps packet.uid hmem)

section Example

/-- An empty `oem_out` and no `oem_sbox`. -/
def freshTables : Tables := fun _ chain => if chain = .oemOut then some [] else none

def appPackages : Packages where
  names := [ascii "org.mozilla.fennec"]
  uidOf := fun _ => some 10001

def allowTempApp : Operation :=
  .ctl [ascii "allow-temp", ascii "org.mozilla.fennec"] (fun _ => some 10001) none

theorem guarded_history_iff_reload : ∃ tables,
    runCalls (history (some appPackages) [allowTempApp, .reload (some appPackages)]) freshTables =
      some tables ∧ Guarded tables := by
  have hrun : (runCalls (history (some appPackages) [allowTempApp, .reload (some appPackages)])
      freshTables).isSome = true := by decide
  obtain ⟨tables, htables⟩ := Option.isSome_iff_exists.mp hrun
  exact ⟨tables, htables, (guarded_history_iff htables).mpr (by decide)⟩

/-- A packet of the app leaves through the interface that `oem_sbox` would have blocked. -/
theorem not_guarded_allowTemp : ∃ tables,
    runCalls (history (some appPackages) [allowTempApp]) freshTables = some tables ∧
      letOut (tables .ip) ⟨10001, ascii "wlan0"⟩ = true ∧ ¬ Guarded tables := by
  have hrun : (runCalls (history (some appPackages) [allowTempApp]) freshTables).any
      (fun tables => letOut (tables .ip) ⟨10001, ascii "wlan0"⟩) = true := by decide
  obtain ⟨tables, htables, hout⟩ := (Option.any_eq_true _ _).mp hrun
  refine ⟨tables, htables, hout, fun hguarded => ?_⟩
  rw [hguarded .ip ⟨10001, ascii "wlan0"⟩ (by decide) (by decide)] at hout
  exact Bool.false_ne_true hout

end Example

end Dumbos.Firewall
