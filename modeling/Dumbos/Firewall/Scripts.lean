import Dumbos.Foundation.Bytes
import Dumbos.Foundation.RuleChain

/-! # The firewall scripts

Three scripts write the rules of two chains, `oem_out` and `oem_sbox`, each for both
families of addresses. A script is the list of its calls of `iptables`; a run in
which every call succeeds is the run of that list.
-/
namespace Dumbos.Firewall
open Foundation

inductive Family where
  | ip
  | ip6
deriving DecidableEq

inductive ChainName where
  | oemOut
  | oemSbox
deriving DecidableEq

inductive Condition where
  | any
  /-- `-m owner --uid-owner`. -/
  | uidOwner (uid : ℕ)
  /-- `-o`. -/
  | outInterface (name : Bytes)
deriving DecidableEq

structure Packet where
  uid : ℕ
  outInterface : Bytes

def Condition.holds : Condition → Packet → Bool
  | .any, _ => true
  | .uidOwner uid, packet => packet.uid == uid
  | .outInterface name, packet => packet.outInterface == name

abbrev IptRule := Rule Condition ChainName

/-- The chains of one family; a chain that has not been made is missing. -/
abbrev Table := ChainName → Option (List IptRule)

inductive Action where
  | create
  | flush
  | append (rule : IptRule)
  | insert (position : ℕ) (rule : IptRule)

/-- What becomes of a chain, or `none` if the call fails. -/
def Action.run : Action → Option (List IptRule) → Option (List IptRule)
  | .create, none => some []
  | .flush, some _ => some []
  | .append rule, some rules => some (rules ++ [rule])
  | .insert position rule, some rules =>
    if position = 0 ∨ rules.length + 1 < position then none
    else some (rules.insertIdx (position - 1) rule)
  | _, _ => none

/-- A jump needs the chain it goes to. -/
def Action.allowed (table : Table) : Action → Bool
  | .append ⟨_, .jump chain⟩ => (table chain).isSome
  | .insert _ ⟨_, .jump chain⟩ => (table chain).isSome
  | _ => true

structure Command where
  chain : ChainName
  action : Action

def Command.run (table : Table) (c : Command) : Option Table :=
  if !c.action.allowed table then none
  else (c.action.run (table c.chain)).map fun rules => Function.update table c.chain (some rules)

/-- A list of commands that all succeed. -/
def runCommands (commands : List Command) (table : Table) : Option Table :=
  commands.foldlM Command.run table

abbrev Tables := Family → Table

/-- A call of the `iptables` of a family. -/
abbrev Call := Family × Command

def runCall (tables : Tables) (call : Call) : Option Tables :=
  (call.2.run (tables call.1)).map fun table => Function.update tables call.1 table

def runCalls (calls : List Call) (tables : Tables) : Option Tables := calls.foldlM runCall tables

/-- Chains are not nested deeper than there are chains. -/
def letOut (table : Table) (packet : Packet) : Bool :=
  comesBack Condition.holds (fun chain => (table chain).getD []) packet 2 .oemOut

section Scripts

/-- `for ip in $IPTABLES`. -/
def forFamilies (commands : List Command) : List Call :=
  [Family.ip, Family.ip6].flatMap fun family => commands.map (Prod.mk family)

def ALLOWED_UIDS : List ℕ := [0]

def returnUid (uid : ℕ) : IptRule := ⟨.uidOwner uid, .RETURN⟩

def firewallAllow (uid : ℕ) : List Call :=
  forFamilies [⟨.oemOut, .insert 1 (returnUid uid)⟩]

def rejectAll : List Call :=
  forFamilies [⟨.oemOut, .flush⟩, ⟨.oemOut, .append ⟨.any, .REJECT⟩⟩]

/-- The packages of the configuration files, and the UIDs that the package manager knows. -/
structure Packages where
  names : List Bytes
  uidOf : Bytes → Option ℕ

def Packages.uids (packages : Packages) : List ℕ := packages.names.filterMap packages.uidOf

/-- `dumbos-firewall.sh`; `none` when it gives up before it has read the packages. -/
def reload (read : Option Packages) : List Call :=
  match read with
  | none => rejectAll
  | some packages =>
    rejectAll ++ (packages.uids ++ ALLOWED_UIDS).flatMap firewallAllow ++
      forFamilies [⟨.oemOut, .insert 2 ⟨.any, .jump .oemSbox⟩⟩]

/-- `dumbos-firewall-init.sh`. -/
def init (read : Option Packages) : List Call :=
  rejectAll ++
    forFamilies [⟨.oemSbox, .create⟩, ⟨.oemSbox, .flush⟩,
      ⟨.oemSbox, .append ⟨.uidOwner 0, .RETURN⟩⟩,
      ⟨.oemSbox, .append ⟨.outInterface (ascii "tun0"), .RETURN⟩⟩,
      ⟨.oemSbox, .append ⟨.any, .DROP⟩⟩] ++
    reload read

inductive Policy where
  | allow
  | deny
  | allowTemp
deriving DecidableEq

/-- A policy and at least one package, or the help is shown. -/
def parseArgs : List Bytes → Option (Policy × List Bytes)
  | policy :: app :: apps =>
    if policy = ascii "allow" then some (.allow, app :: apps)
    else if policy = ascii "deny" then some (.deny, app :: apps)
    else if policy = ascii "allow-temp" then some (.allowTemp, app :: apps)
    else none
  | _ => none

def isPackageChar (c : UInt8) : Bool :=
  (97 ≤ c && c ≤ 122) || (65 ≤ c && c ≤ 90) || (48 ≤ c && c ≤ 57) || c == 95 || c == 46

def checkPackageName (app : Bytes) : Bool := app ≠ [] && app.all isPackageChar

/-- A package that is not installed is passed over. -/
def addPackageTemp (uidOf : Bytes → Option ℕ) (app : Bytes) : List Call :=
  match uidOf app with
  | none => []
  | some uid => forFamilies [⟨.oemOut, .insert 1 ⟨.uidOwner uid, .RETURN⟩⟩]

/-- `dumbos-firewallctl.sh`; `uidOf` is what the package manager knows while it runs, and `read` what
the reload at its end reads. -/
def firewallctl (args : List Bytes) (uidOf : Bytes → Option ℕ) (read : Option Packages) : List Call :=
  match parseArgs args with
  | none => []
  | some (.allowTemp, apps) => (apps.filter checkPackageName).flatMap (addPackageTemp uidOf)
  | some (.allow, _) => reload read
  | some (.deny, _) => reload read

inductive Operation where
  | reload (read : Option Packages)
  | ctl (args : List Bytes) (uidOf : Bytes → Option ℕ) (read : Option Packages)

def Operation.calls : Operation → List Call
  | .reload read => Firewall.reload read
  | .ctl args uidOf read => firewallctl args uidOf read

/-- All calls since the start of the system. -/
def history (read : Option Packages) (operations : List Operation) : List Call :=
  init read ++ operations.flatMap Operation.calls

end Scripts

section Family

/-- The commands for one family. -/
def commandsOf (family : Family) (calls : List Call) : List Command :=
  calls.filterMap fun call => if call.1 = family then some call.2 else none

theorem commandsOf_append (family : Family) (a b : List Call) :
    commandsOf family (a ++ b) = commandsOf family a ++ commandsOf family b :=
  List.filterMap_append

theorem commandsOf_forFamilies (family : Family) (commands : List Command) :
    commandsOf family (forFamilies commands) = commands := by
  have hmap : ∀ f : Family, commandsOf family (commands.map (Prod.mk f)) =
      if f = family then commands else [] := by
    intro f
    rw [commandsOf, List.filterMap_map]
    split_ifs with hf
    · simp [hf]
    · simp [hf]
  simp only [forFamilies, List.flatMap_cons, List.flatMap_nil, List.append_nil, commandsOf_append, hmap]
  cases family <;> simp

theorem commandsOf_firewallAllow (family : Family) (uids : List ℕ) :
    commandsOf family (uids.flatMap firewallAllow) =
      uids.map fun uid => ⟨.oemOut, .insert 1 (returnUid uid)⟩ := by
  induction uids with
  | nil => rfl
  | cons uid uids ih =>
    rw [List.flatMap_cons, commandsOf_append, ih, firewallAllow, commandsOf_forFamilies]
    rfl

/-- A call for one family leaves the other one alone. -/
theorem runCalls_family {calls : List Call} {tables tables' : Tables}
    (h : runCalls calls tables = some tables') (family : Family) :
    runCommands (commandsOf family calls) (tables family) = some (tables' family) := by
  induction calls generalizing tables with
  | nil =>
    obtain rfl : tables = tables' := Option.some.inj h
    rfl
  | cons call calls ih =>
    obtain ⟨middle, hcall, hrest⟩ := Option.bind_eq_some_iff.mp h
    obtain ⟨table, hrun, rfl⟩ := Option.map_eq_some_iff.mp hcall
    have hih := ih hrest
    by_cases hfamily : call.1 = family
    · subst hfamily
      rw [Function.update_self] at hih
      have hcons : commandsOf call.1 (call :: calls) = call.2 :: commandsOf call.1 calls := by
        simp [commandsOf]
      rw [hcons]
      exact Option.bind_eq_some_iff.mpr ⟨table, hrun, hih⟩
    · rw [Function.update_of_ne (Ne.symm hfamily)] at hih
      have hcons : commandsOf family (call :: calls) = commandsOf family calls := by
        simp [commandsOf, hfamily]
      rw [hcons]
      exact hih

end Family

end Dumbos.Firewall
