import Dumbos.Firewall.Guard

/-! # The chains while a reload runs

A reload empties `oem_out` before it rejects everything, and puts the jump to
`oem_sbox` in after the rules of the packages. Behind its first call nothing is
blocked, and up to the last one a package's rule lets out what the jump will block.
-/
namespace Dumbos.Firewall
open Foundation

/-- What is blocked before and after is blocked in between. -/
def StaysBlocked (before middle after : Table) : Prop :=
  ∀ packet, letOut before packet = false → letOut after packet = false →
    letOut middle packet = false

def flushOut : Command := ⟨.oemOut, .flush⟩

def insertUid (uid : ℕ) : Command := ⟨.oemOut, .insert 1 (returnUid uid)⟩

def insertJump : Command := ⟨.oemOut, .insert 2 ⟨.any, .jump .oemSbox⟩⟩

/-- The calls that a reload has made leave the chain closed: not the flush alone, and without the
jump no UID but root and those that were let out before. -/
def KeepsClosed (temps : List ℕ) (done : List Command) : Prop :=
  done ≠ [flushOut] ∧
    (insertJump ∈ done ∨ ∀ uid, insertUid uid ∈ done → uid = 0 ∨ uid ∈ temps)

section Stages
variable {family : Family} {read : Option Packages} {done : List Command}

/-- The UIDs that a reload lets out, in the order of its calls. -/
def reloadUids : Option Packages → List ℕ
  | none => []
  | some packages => packages.uids ++ ALLOWED_UIDS

theorem commandsOf_rejectAll (family : Family) :
    commandsOf family rejectAll = [flushOut, ⟨.oemOut, .append rejectRule⟩] :=
  commandsOf_forFamilies family _

theorem commandsOf_reload_some (family : Family) (packages : Packages) :
    commandsOf family (reload (some packages)) =
      commandsOf family rejectAll ++
        ((reloadUids (some packages)).map insertUid ++ [insertJump]) := by
  rw [reload, commandsOf_append, commandsOf_append, commandsOf_firewallAllow,
    commandsOf_forFamilies, List.append_assoc]
  rfl

/-- A reload stands before its flush, behind it, behind some of its UIDs, or at its end. -/
theorem reload_stages (h : done <+: commandsOf family (reload read)) :
    done = [] ∨ done = [flushOut] ∨
      (∃ uids, uids <+: reloadUids read ∧
        done = commandsOf family rejectAll ++ uids.map insertUid) ∨
      done = commandsOf family (reload read) ∧ insertJump ∈ done := by
  have hreject : ∀ rest, done <+: commandsOf family rejectAll ++ rest →
      done = [] ∨ done = [flushOut] ∨
        ∃ more, more <+: rest ∧ done = commandsOf family rejectAll ++ more := by
    intro rest hrest
    rw [commandsOf_rejectAll] at hrest ⊢
    rcases List.prefix_cons_iff.mp hrest with hnil | ⟨tail, rfl, htail⟩
    · exact .inl hnil
    · rcases List.prefix_cons_iff.mp htail with rfl | ⟨more, rfl, hmore⟩
      · exact .inr (.inl rfl)
      · exact .inr (.inr ⟨more, hmore, rfl⟩)
  cases read with
  | none =>
    rcases hreject [] (by simpa [reload] using h) with hnil | hflush | ⟨more, hmore, rfl⟩
    · exact .inl hnil
    · exact .inr (.inl hflush)
    · rw [List.prefix_nil.mp hmore]
      exact .inr (.inr (.inl ⟨[], List.nil_prefix, rfl⟩))
  | some packages =>
    rw [commandsOf_reload_some] at h ⊢
    rcases hreject _ h with hnil | hflush | ⟨more, hmore, rfl⟩
    · exact .inl hnil
    · exact .inr (.inl hflush)
    · rcases List.prefix_concat_iff.mp hmore with rfl | hmore
      · exact .inr (.inr (.inr ⟨rfl, by simp⟩))
      · obtain ⟨uids, huids, rfl⟩ := List.prefix_map_iff.mp hmore
        exact .inr (.inr (.inl ⟨uids, huids, rfl⟩))

end Stages

section Verdicts
variable {table before middle after : Table} {family : Family} {read : Option Packages}
  {uids temps : List ℕ}

theorem Chains.letOut_empty (h : Chains [] table) (packet : Packet) : letOut table packet = true := by
  rw [letOut, comesBack, h.oemOut]
  rfl

theorem Chains.letOut_rejected (h : Chains (uids.map returnUid ++ [rejectRule]) table)
    (packet : Packet) : letOut table packet = uids.contains packet.uid := by
  rw [letOut, comesBack, h.oemOut, Option.getD_some, passes_returnUids]
  exact Bool.or_false _

/-- What was let out for a time is let out until the next reload. -/
theorem Opened.letOut_temp (h : Opened temps table) {packet : Packet} (hmem : packet.uid ∈ temps) :
    letOut table packet = true := by
  obtain ⟨read, hchains⟩ := h
  rw [letOut, comesBack, hchains.oemOut, Option.getD_some, passes_returnUids]
  simp [hmem]

theorem Chains.letOut_root {packages : Packages}
    (h : Chains (reloadedRules (some packages)) table) {packet : Packet} (hroot : packet.uid = 0) :
    letOut table packet = true := by
  have hrules : reloadedRules (some packages) =
      [0].map returnUid ++ (reloadedRules (some packages)).tail := rfl
  rw [letOut, comesBack, h.oemOut, Option.getD_some, hrules, passes_returnUids]
  simp [hroot]

/-- A packet that only `oem_sbox` could let back. -/
def plainPacket (uid : ℕ) : Packet := ⟨uid, ascii "wlan0"⟩

theorem Opened.letOut_plainPacket (h : Opened temps table) {uid : ℕ} (hroot : uid ≠ 0) :
    letOut table (plainPacket uid) = temps.contains uid := by
  have hwlan : ascii "wlan0" ≠ ascii "tun0" := by decide
  exact h.letOut_eq hroot hwlan

/-- The empty chain lets out what no state between runs would. -/
theorem not_staysBlocked_flushed (hbefore : Opened temps before) (hmiddle : Chains [] middle)
    (hafter : Opened [] after) : ¬StaysBlocked before middle after := by
  intro hblocked
  obtain ⟨uid, huid⟩ := Infinite.exists_notMem_finset (0 :: temps).toFinset
  rw [List.mem_toFinset, List.mem_cons, not_or] at huid
  have hout := hblocked (plainPacket uid)
    (by rw [hbefore.letOut_plainPacket huid.1]; simpa using huid.2)
    (by rw [hafter.letOut_plainPacket huid.1]; rfl)
  rw [hmiddle.letOut_empty] at hout
  cases hout

/-- Before the jump is in, exactly the UIDs let in so far are let out. -/
theorem staysBlocked_inserting_iff (hbefore : Opened temps before)
    (hmiddle : Chains (uids.map returnUid ++ [rejectRule]) middle)
    (hafter : Chains (reloadedRules read) after) (huids : ∀ uid ∈ uids, uid ∈ reloadUids read) :
    StaysBlocked before middle after ↔ ∀ uid ∈ uids, uid = 0 ∨ uid ∈ temps := by
  have hopened : Opened [] after := ⟨read, hafter⟩
  constructor
  · intro hblocked uid huid
    by_contra hnew
    rw [not_or] at hnew
    have hout := hblocked (plainPacket uid)
      (by rw [hbefore.letOut_plainPacket hnew.1]; simpa using hnew.2)
      (by rw [hopened.letOut_plainPacket hnew.1]; rfl)
    rw [hmiddle.letOut_rejected] at hout
    exact absurd huid (by simpa [plainPacket] using hout)
  · intro hold packet hblocked hblocked'
    rw [hmiddle.letOut_rejected]
    by_contra hout
    have hmem : packet.uid ∈ uids := by simpa using hout
    rcases hold packet.uid hmem with hroot | htemp
    · cases read with
      | none => exact absurd (huids _ hmem) List.not_mem_nil
      | some packages =>
        rw [hafter.letOut_root hroot] at hblocked'
        cases hblocked'
    · rw [hbefore.letOut_temp htemp] at hblocked
      cases hblocked

theorem insertUid_mem_rejectAll {uid : ℕ} :
    insertUid uid ∈ commandsOf family rejectAll ++ uids.map insertUid ↔ uid ∈ uids := by
  rw [commandsOf_rejectAll]
  simp [insertUid, flushOut, returnUid]

/-- One family. -/
theorem staysBlocked_iff {done : List Command} (hbefore : Opened temps before)
    (hdone : done <+: commandsOf family (reload read)) (hmiddle : runCommands done before = some middle)
    (hafter : runCommands (commandsOf family (reload read)) before = some after) :
    StaysBlocked before middle after ↔ KeepsClosed temps done := by
  obtain ⟨read₀, hchains⟩ := hbefore
  have hreloaded := hchains.reload hafter
  rcases reload_stages hdone with rfl | rfl | ⟨uids, huids, rfl⟩ | ⟨rfl, hjump⟩
  · obtain rfl : before = middle := Option.some.inj hmiddle
    refine iff_of_true (fun _ h _ => h) ⟨List.cons_ne_nil _ _ |>.symm, .inr ?_⟩
    exact fun uid h => absurd h List.not_mem_nil
  · obtain ⟨flushed, hflush, hnil⟩ := runCommands_cons hmiddle
    obtain rfl : flushed = middle := Option.some.inj hnil
    obtain ⟨rules, hrules, hflushed⟩ := hchains.run hflush
    obtain rfl : [] = rules := Option.some.inj hrules
    refine iff_of_false (not_staysBlocked_flushed ⟨read₀, hchains⟩ hflushed ⟨read, hreloaded⟩) ?_
    exact fun h => h.1 rfl
  · obtain ⟨rejected, hreject, hinserts⟩ := runCommands_append hmiddle
    have hinserted := (hchains.rejectAll hreject).inserts hinserts
    have hmem : ∀ uid ∈ uids.reverse, uid ∈ reloadUids read :=
      fun uid h => huids.subset (List.mem_reverse.mp h)
    rw [staysBlocked_inserting_iff ⟨read₀, hchains⟩ hinserted hreloaded hmem, KeepsClosed]
    simp only [insertUid_mem_rejectAll, List.mem_reverse]
    have hnojump : insertJump ∉ commandsOf family rejectAll ++ uids.map insertUid := by
      rw [commandsOf_rejectAll]
      simp [insertJump, insertUid, flushOut]
    have hlong : commandsOf family rejectAll ++ uids.map insertUid ≠ [flushOut] := by
      rw [commandsOf_rejectAll]
      simp
    simp only [hnojump, hlong, false_or, ne_eq, not_false_eq_true, true_and]
  · obtain rfl : middle = after := Option.some.inj (hmiddle.symm.trans hafter)
    refine iff_of_true (fun _ _ h => h) ⟨?_, .inl hjump⟩
    intro hflush
    rw [hflush] at hjump
    simp [insertJump, flushOut] at hjump

end Verdicts

theorem commandsOf_take_isPrefix (family : Family) (calls : List Call) (n : ℕ) :
    commandsOf family (calls.take n) <+: commandsOf family calls :=
  (List.take_prefix n calls).filterMap _

/-- Behind each call of a reload nothing is let out for the time of the reload exactly if the calls
made so far keep both chains closed. -/
theorem reload_staysBlocked_iff {read₀ : Option Packages} {operations : List Operation}
    {start before middle after : Tables} (hbefore : runCalls (history read₀ operations) start = some before)
    {read : Option Packages} {n : ℕ} (hmiddle : runCalls ((reload read).take n) before = some middle)
    (hafter : runCalls (reload read) before = some after) :
    (∀ family, StaysBlocked (before family) (middle family) (after family)) ↔
      ∀ family, KeepsClosed (temps operations) (commandsOf family ((reload read).take n)) := by
  apply forall_congr'
  intro family
  exact staysBlocked_iff (opened_history hbefore family) (commandsOf_take_isPrefix family _ n)
    (runCalls_family hmiddle family) (runCalls_family hafter family)

section Example

/-- The states around a reload that has made `n` calls. -/
def aroundReload (operations : List Operation) (n : ℕ) : Option (Tables × Tables × Tables) := do
  let before ← runCalls (history (some appPackages) operations) freshTables
  let middle ← runCalls ((reload (some appPackages)).take n) before
  let after ← runCalls (reload (some appPackages)) before
  return (before, middle, after)

theorem aroundReload_eq_some {operations : List Operation} {n : ℕ} {before middle after : Tables}
    (h : aroundReload operations n = some (before, middle, after)) :
    runCalls (history (some appPackages) operations) freshTables = some before ∧
      runCalls ((reload (some appPackages)).take n) before = some middle ∧
      runCalls (reload (some appPackages)) before = some after := by
  obtain ⟨before', hbefore, h⟩ := Option.bind_eq_some_iff.mp h
  obtain ⟨middle', hmiddle, h⟩ := Option.bind_eq_some_iff.mp h
  obtain ⟨after', hafter, h⟩ := Option.bind_eq_some_iff.mp h
  cases h
  exact ⟨hbefore, hmiddle, hafter⟩

/-- The package was let out before, so its rule opens nothing. -/
theorem reload_staysBlocked_allowTemp : ∃ before middle after,
    aroundReload [allowTempApp] 6 = some (before, middle, after) ∧
      ∀ family, StaysBlocked (before family) (middle family) (after family) := by
  have hrun : (aroundReload [allowTempApp] 6).isSome = true := by decide
  obtain ⟨⟨before, middle, after⟩, htables⟩ := Option.isSome_iff_exists.mp hrun
  obtain ⟨hbefore, hmiddle, hafter⟩ := aroundReload_eq_some htables
  refine ⟨before, middle, after, htables, (reload_staysBlocked_iff hbefore hmiddle hafter).mpr ?_⟩
  have htemps : temps [allowTempApp] = [10001] := by decide
  have hdone : ∀ family, commandsOf family ((reload (some appPackages)).take 6) =
      commandsOf family rejectAll ++ [10001].map insertUid := by
    intro family
    cases family <;> rfl
  intro family
  rw [hdone, htemps, KeepsClosed, commandsOf_rejectAll]
  simp [insertUid, flushOut, returnUid]

/-- A packet that is let out in the middle only. -/
def opensFor (packet : Packet) (tables : Tables × Tables × Tables) : Bool :=
  !letOut (tables.1 .ip) packet && letOut (tables.2.1 .ip) packet && !letOut (tables.2.2 .ip) packet

theorem not_staysBlocked_of_opensFor (packet : Packet) {operations : List Operation} {n : ℕ}
    (h : (aroundReload operations n).any (opensFor packet) = true) :
    ∃ before middle after, aroundReload operations n = some (before, middle, after) ∧
      ¬StaysBlocked (before .ip) (middle .ip) (after .ip) := by
  obtain ⟨⟨before, middle, after⟩, htables, hopens⟩ := (Option.any_eq_true _ _).mp h
  refine ⟨before, middle, after, htables, fun hblocked => ?_⟩
  simp only [opensFor, Bool.and_eq_true, Bool.not_eq_true'] at hopens
  rw [hblocked packet hopens.1.1 hopens.2] at hopens
  exact Bool.false_ne_true hopens.1.2

/-- Behind the flush and behind the rule of the package, a packet of the package leaves through an
interface that is blocked before and after. -/
theorem not_staysBlocked_reload :
    (∃ before middle after, aroundReload [] 1 = some (before, middle, after) ∧
      ¬StaysBlocked (before .ip) (middle .ip) (after .ip)) ∧
    ∃ before middle after, aroundReload [] 5 = some (before, middle, after) ∧
      ¬StaysBlocked (before .ip) (middle .ip) (after .ip) :=
  ⟨not_staysBlocked_of_opensFor (plainPacket 10001) (by decide),
    not_staysBlocked_of_opensFor (plainPacket 10001) (by decide)⟩

end Example

end Dumbos.Firewall
