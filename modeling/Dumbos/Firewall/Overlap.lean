import Dumbos.Firewall.AllowList
import Dumbos.Foundation.Interleaving

/-! # Runs of `dumbos-firewallctl.sh` at the same time

Each client has a process of its own, so runs overlap between the commands of
their loops. A run that filters the configuration file puts back what it read,
so it undoes what another run wrote since. Where that does not happen, the order
of the steps does not matter.
-/
namespace Dumbos.Firewall
open Foundation

/-- What a run does next with its first app. -/
inductive Phase where
  | lookup
  | append
  | filter
  | move
deriving DecidableEq

/-- A run in its loop: the apps that are left, and its temporary file. -/
structure Process where
  policy : Policy
  apps : List Bytes
  phase : Phase
  tmp : Option Bytes
  returnCode : ℕ

def Process.start (policy : Policy) (apps : List Bytes) : Process :=
  ⟨policy, apps, .lookup, some [], 0⟩

/-- The app is done; `status` is what its function returned. -/
def Process.next (p : Process) (status : ℕ) : Process :=
  { p with
    apps := p.apps.tail
    phase := .lookup
    returnCode := if status = 0 then p.returnCode else 1 }

section Steps
variable (temp : Bytes → ℕ)

/-- The test of the name and the search for it in the file. -/
def Process.lookup (p : Process) (app : Bytes) (conf : Option Bytes) : Process :=
  if !checkPackageName app then p.next 1
  else match p.policy, conf with
    | .allow, none => { p with phase := .append }
    | .allow, some content => match grepFqx app content with
      | 0 => p.next 0
      | 1 => { p with phase := .append }
      | _ => p.next 1
    | .deny, none => p.next 0
    | .deny, some content => match grepFqx app content with
      | 0 => { p with phase := .filter }
      | 1 => p.next 0
      | _ => p.next 1
    | .allowTemp, _ => p.next (temp app)

/-- `grep -Fvx > TMPFILE`; there is an empty output where the file is missing. -/
def Process.filter (p : Process) (app : Bytes) (conf : Option Bytes) : Process :=
  match conf with
  | none => { p.next 1 with tmp := some [] }
  | some content =>
    let (status, others) := grepFvx app content
    if 1 < status then { p.next 1 with tmp := some others }
    else { p with phase := .move, tmp := some others }

/-- The next command of a run; one that has no app left does nothing. -/
def Process.act (conf : Option Bytes) (p : Process) : Option Bytes × Process :=
  match p.apps with
  | [] => (conf, p)
  | app :: _ => match p.phase with
    | .lookup => (conf, p.lookup temp app conf)
    | .append => ((appendLine app ⟨conf, p.tmp⟩).conf, p.next 0)
    | .filter => (conf, p.filter app conf)
    | .move =>
      let (status, files) := replaceConf ⟨conf, p.tmp⟩
      (files.conf, { p.next (if status = 0 then 0 else 1) with tmp := files.tmp })

end Steps

/-- The configuration file and the runs. -/
abbrev Overlap (ι : Type*) := Shared (Option Bytes) ι Process

def Overlap.start {ι : Type*} (conf : Option Bytes) (policy : ι → Policy) (apps : ι → List Bytes) :
    Overlap ι :=
  ⟨conf, fun i => .start (policy i) (apps i)⟩

/-- The step of a run that writes the configuration file is not made between the filter and the move
of another one. -/
def Undisturbed {ι : Type*} (s : Overlap ι) (i : ι) : Prop :=
  (s.party i).phase = .append ∨ (s.party i).phase = .move → ∀ j, j ≠ i → (s.party j).phase ≠ .move

instance {ι : Type*} [Fintype ι] [DecidableEq ι] (s : Overlap ι) (i : ι) : Decidable (Undisturbed s i) :=
  inferInstanceAs (Decidable (_ → _))

/-- The configuration file when one run is over before the next one starts. -/
def oneAfterOther {ι : Type*} (temp : Bytes → ℕ) (args : ι → List Bytes) (conf : Option Bytes)
    (order : List ι) : Option Bytes :=
  order.foldl (fun conf i => (runCtl (args i) temp conf).2) conf

section Alone
variable (temp : Bytes → ℕ) (conf : Option Bytes) {p : Process} {app : Bytes} {rest : List Bytes}

/-- An app that nobody disturbs is processed as `process_app` does it. -/
theorem alone_app (happs : p.apps = app :: rest) (hphase : p.phase = .lookup) :
    ∃ n, alone (Process.act temp) n (conf, p) =
      ((processApp p.policy temp app ⟨conf, p.tmp⟩).2.conf,
        { p.next (processApp p.policy temp app ⟨conf, p.tmp⟩).1 with
          tmp := (processApp p.policy temp app ⟨conf, p.tmp⟩).2.tmp }) := by
  obtain ⟨policy, apps, phase, tmp, returnCode⟩ := p
  simp only at happs hphase
  subst happs hphase
  cases hvalid : checkPackageName app with
  | false =>
    refine ⟨1, ?_⟩
    simp [alone, Process.act, Process.lookup, processApp, hvalid, Process.next]
  | true =>
    cases policy with
    | allow =>
      cases conf with
      | none =>
        refine ⟨2, ?_⟩
        simp [alone, Process.act, Process.lookup, processApp, hvalid, Process.next, addPackage,
          appendLine]
      | some content =>
        rcases hgrep : grepFqx app content with _ | _ | status
        · refine ⟨1, ?_⟩
          simp [alone, Process.act, Process.lookup, processApp, hvalid, Process.next, addPackage, hgrep]
        · refine ⟨2, ?_⟩
          simp [alone, Process.act, Process.lookup, processApp, hvalid, Process.next, addPackage, hgrep,
            appendLine]
        · refine ⟨1, ?_⟩
          simp [alone, Process.act, Process.lookup, processApp, hvalid, Process.next, addPackage, hgrep]
    | deny =>
      cases conf with
      | none =>
        refine ⟨1, ?_⟩
        simp [alone, Process.act, Process.lookup, processApp, hvalid, Process.next, removePackage]
      | some content =>
        rcases hgrep : grepFqx app content with _ | _ | status
        · refine ⟨3, ?_⟩
          simp [alone, Process.act, Process.lookup, Process.filter, processApp, hvalid, Process.next,
            removePackage, hgrep, replaceConf, not_lt.mpr (grepFvx_status_le app content)]
        · refine ⟨1, ?_⟩
          simp [alone, Process.act, Process.lookup, processApp, hvalid, Process.next, removePackage, hgrep]
        · refine ⟨1, ?_⟩
          simp [alone, Process.act, Process.lookup, processApp, hvalid, Process.next, removePackage, hgrep]
    | allowTemp =>
      refine ⟨1, ?_⟩
      simp [alone, Process.act, Process.lookup, processApp, hvalid, Process.next]

/-- The loop of a run that nobody disturbs. -/
theorem alone_apps (apps : List Bytes) (conf : Option Bytes) (p : Process) (happs : p.apps = apps)
    (hphase : p.phase = .lookup) :
    ∃ n, (alone (Process.act temp) n (conf, p)).1 =
        (processApps p.policy temp apps p.returnCode ⟨conf, p.tmp⟩).2.conf ∧
      (alone (Process.act temp) n (conf, p)).2.apps = [] ∧
      (alone (Process.act temp) n (conf, p)).2.phase = .lookup := by
  induction apps generalizing conf p with
  | nil => exact ⟨0, rfl, happs, hphase⟩
  | cons app apps ih =>
    obtain ⟨n, hn⟩ := alone_app temp conf happs hphase
    generalize hresult : processApp p.policy temp app ⟨conf, p.tmp⟩ = result at hn
    obtain ⟨m, hconf, hdone⟩ := ih result.2.conf { p.next result.1 with tmp := result.2.tmp }
      (by rw [Process.next, happs]; rfl) rfl
    refine ⟨m + n, ?_⟩
    rw [alone_add, hn]
    refine ⟨?_, hdone⟩
    rw [hconf, processApps, hresult]
    rfl

end Alone

section Moves
variable {conf conf' : Option Bytes} {p p' : Process} {app : Bytes} {rest : List Bytes}

/-- Each line of the file has its newline. -/
def EndedConf (conf : Option Bytes) : Prop := conf.getD [] = ended newline (confLines conf)

theorem newline_not_mem_confLines (conf : Option Bytes) : ∀ l ∈ confLines conf, newline ∉ l :=
  fun _ hl => newline_not_mem_of_mem_linesOf hl

theorem confLines_appendLine (hended : EndedConf conf) (happ : newline ∉ app) (tmp : Option Bytes) :
    confLines (appendLine app ⟨conf, tmp⟩).conf = confLines conf ++ [app] ∧
      EndedConf (appendLine app ⟨conf, tmp⟩).conf := by
  have hlines : ∀ l ∈ confLines conf ++ [app], newline ∉ l :=
    List.forall_mem_append.mpr ⟨newline_not_mem_confLines conf, List.forall_mem_singleton.mpr happ⟩
  have hcontent : (appendLine app ⟨conf, tmp⟩).conf =
      some (ended newline (confLines conf ++ [app])) := by
    rw [appendLine, hended, ended_concat, List.append_assoc]
  have hconf : confLines (appendLine app ⟨conf, tmp⟩).conf = confLines conf ++ [app] := by
    rw [hcontent]
    exact linesOf_ended hlines
  rw [EndedConf, hconf, hcontent]
  exact ⟨rfl, rfl⟩

theorem confLines_filtered (conf : Option Bytes) (app : Bytes) :
    confLines (some (ended newline ((confLines conf).filter (· ≠ app)))) =
        (confLines conf).filter (· ≠ app) ∧
      EndedConf (some (ended newline ((confLines conf).filter (· ≠ app)))) := by
  have hlines : ∀ l ∈ (confLines conf).filter (· ≠ app), newline ∉ l :=
    fun l hl => newline_not_mem_confLines conf l (List.mem_filter.mp hl).1
  have hconf : confLines (some (ended newline ((confLines conf).filter (· ≠ app)))) =
      (confLines conf).filter (· ≠ app) := linesOf_ended hlines
  rw [EndedConf, hconf]
  exact ⟨rfl, rfl⟩

/-- What a run has found out that its next command relies on. -/
def Process.Ready (conf : Option Bytes) (p : Process) : Prop :=
  match p.phase with
  | .lookup => True
  | .append => ∃ app rest, p.apps = app :: rest ∧ p.policy = .allow ∧ app ∉ confLines conf
  | .filter => ∃ app rest, p.apps = app :: rest ∧ p.policy = .deny ∧ conf ≠ none
  | .move => ∃ app rest, p.apps = app :: rest ∧ p.policy = .deny ∧
      p.tmp = some (ended newline ((confLines conf).filter (· ≠ app)))

/-- What a command of a run on a first app does to the file and to the run. -/
inductive Moves (conf : Option Bytes) (p : Process) (app : Bytes) (rest : List Bytes) :
    Option Bytes → Process → Prop
  /-- The file already is as wanted. -/
  | skip {p' : Process} (hpolicy : p'.policy = p.policy) (happs : p'.apps = rest)
    (hphase : p'.phase = .lookup) (hmem : app ∈ confLines conf ↔ p.policy = .allow) :
    Moves conf p app rest conf p'
  /-- The app is the same, and the run is ready for its next command. -/
  | stay {p' : Process} (hpolicy : p'.policy = p.policy) (happs : p'.apps = p.apps)
    (hready : p'.Ready conf) : Moves conf p app rest conf p'
  | append {p' : Process} (hphase₀ : p.phase = .append) (hpolicy : p'.policy = p.policy)
    (happs : p'.apps = rest) (hphase : p'.phase = .lookup) (hallow : p.policy = .allow)
    (hnew : app ∉ confLines conf) : Moves conf p app rest (appendLine app ⟨conf, p.tmp⟩).conf p'
  | move {p' : Process} (hphase₀ : p.phase = .move) (hpolicy : p'.policy = p.policy)
    (happs : p'.apps = rest) (hphase : p'.phase = .lookup) (hdeny : p.policy = .deny) :
    Moves conf p app rest (some (ended newline ((confLines conf).filter (· ≠ app)))) p'

theorem lookup_moves (temp : Bytes → ℕ) (happs : p.apps = app :: rest)
    (hpolicy : p.policy ≠ .allowTemp) (hvalid : checkPackageName app) :
    Moves conf p app rest conf (p.lookup temp app conf) := by
  have hnewline := newline_not_mem_of_valid hvalid
  have hnext : (p.next 0).apps = rest := by
    rw [Process.next, happs, List.tail_cons]
  have hempty : app ∉ confLines none := by simp [confLines, linesOf]
  cases hp : p.policy with
  | allow =>
    cases conf with
    | none =>
      have hlookup : p.lookup temp app none = { p with phase := .append } := by
        simp [Process.lookup, hvalid, hp]
      rw [hlookup]
      exact .stay rfl rfl ⟨app, rest, happs, hp, hempty⟩
    | some content =>
      have hgrep : grepFqx app content = if app ∈ confLines (some content) then 0 else 1 :=
        grepFqx_eq hnewline content
      by_cases hmem : app ∈ confLines (some content)
      · have hlookup : p.lookup temp app (some content) = p.next 0 := by
          simp [Process.lookup, hvalid, hp, hgrep, hmem]
        rw [hlookup]
        exact .skip rfl hnext rfl (iff_of_true hmem hp)
      · have hlookup : p.lookup temp app (some content) = { p with phase := .append } := by
          simp [Process.lookup, hvalid, hp, hgrep, hmem]
        rw [hlookup]
        exact .stay rfl rfl ⟨app, rest, happs, hp, hmem⟩
  | deny =>
    have hne : p.policy ≠ .allow := by
      rw [hp]
      decide
    cases conf with
    | none =>
      have hlookup : p.lookup temp app none = p.next 0 := by
        simp [Process.lookup, hvalid, hp]
      rw [hlookup]
      exact .skip rfl hnext rfl (iff_of_false hempty hne)
    | some content =>
      have hgrep : grepFqx app content = if app ∈ confLines (some content) then 0 else 1 :=
        grepFqx_eq hnewline content
      by_cases hmem : app ∈ confLines (some content)
      · have hlookup : p.lookup temp app (some content) = { p with phase := .filter } := by
          simp [Process.lookup, hvalid, hp, hgrep, hmem]
        rw [hlookup]
        exact .stay rfl rfl ⟨app, rest, happs, hp, Option.some_ne_none content⟩
      · have hlookup : p.lookup temp app (some content) = p.next 0 := by
          simp [Process.lookup, hvalid, hp, hgrep, hmem]
        rw [hlookup]
        exact .skip rfl hnext rfl (iff_of_false hmem hne)
  | allowTemp => exact absurd hp hpolicy

/-- Every command of a run that is ready for it. -/
theorem act_moves (temp : Bytes → ℕ) (hready : p.Ready conf) (happs : p.apps = app :: rest)
    (hpolicy : p.policy ≠ .allowTemp) (hvalid : checkPackageName app) :
    Moves conf p app rest (p.act temp conf).1 (p.act temp conf).2 := by
  have hnext : ∀ status, (p.next status).apps = rest := fun status => by
    rw [Process.next, happs, List.tail_cons]
  rw [Process.act, happs]
  rw [Process.Ready] at hready
  cases hphase : p.phase with
  | lookup => exact lookup_moves temp happs hpolicy hvalid
  | append =>
    rw [hphase] at hready
    obtain ⟨app', rest', happs', hallow, hnew⟩ := hready
    obtain ⟨rfl, rfl⟩ := List.cons.inj (happs.symm.trans happs')
    exact .append hphase rfl (hnext 0) rfl hallow hnew
  | filter =>
    rw [hphase] at hready
    obtain ⟨app', rest', happs', hdeny, hconf⟩ := hready
    obtain ⟨rfl, rfl⟩ := List.cons.inj (happs.symm.trans happs')
    obtain ⟨content, rfl⟩ := Option.ne_none_iff_exists'.mp hconf
    simp only [Process.filter, if_neg (not_lt.mpr (grepFvx_status_le app content))]
    refine .stay rfl rfl ⟨app, rest, happs, hdeny, ?_⟩
    rw [grepFvx_eq (newline_not_mem_of_valid hvalid)]
    rfl
  | move =>
    rw [hphase] at hready
    obtain ⟨app', rest', happs', hdeny, htmp⟩ := hready
    obtain ⟨rfl, rfl⟩ := List.cons.inj (happs.symm.trans happs')
    simp only [replaceConf, htmp]
    exact .move hphase rfl (hnext 0) rfl hdeny

/-- What a run relies on outlasts a write that is about other apps. -/
theorem Process.Ready.write (h : p.Ready conf) (hphase : p.phase ≠ .move) (hconf : conf' ≠ none)
    (hmem : ∀ app rest, p.apps = app :: rest → (app ∈ confLines conf' ↔ app ∈ confLines conf)) :
    p.Ready conf' := by
  rw [Process.Ready] at h ⊢
  cases hp : p.phase with
  | lookup => trivial
  | append =>
    rw [hp] at h
    obtain ⟨app, rest, happs, hallow, hnew⟩ := h
    exact ⟨app, rest, happs, hallow, mt (hmem app rest happs).mp hnew⟩
  | filter =>
    rw [hp] at h
    obtain ⟨app, rest, happs, hdeny, -⟩ := h
    exact ⟨app, rest, happs, hdeny, hconf⟩
  | move => exact absurd hp hphase

end Moves

section Runs
variable {ι : Type*} {conf : Option Bytes} {policy : ι → Policy} {apps done : ι → List Bytes}
  {s : Overlap ι} {i : ι} {app : Bytes} {rest : List Bytes}

/-- Runs that allow or deny, each of them other packages. -/
structure DisjointRuns (policy : ι → Policy) (apps : ι → List Bytes) : Prop where
  policy_ne : ∀ i, policy i ≠ .allowTemp
  valid : ∀ i, ∀ app ∈ apps i, checkPackageName app
  disjoint : ∀ i j app, app ∈ apps i → app ∈ apps j → i = j

/-- No package is appended to a line without a newline: each line of the file has its newline, or all
packages to allow have been there from the start. -/
def AppendsEnded (conf : Option Bytes) (policy : ι → Policy) (apps : ι → List Bytes)
    (conf' : Option Bytes) : Prop :=
  EndedConf conf' ∨ ∀ i, policy i = .allow → ∀ app ∈ apps i, app ∈ confLines conf

/-- The lines when each run is done with some of its apps. -/
def Expected (conf : Option Bytes) (policy : ι → Policy) (done : ι → List Bytes) (l : Bytes) : Prop :=
  (l ∈ confLines conf ∨ ∃ i, policy i = .allow ∧ l ∈ done i) ∧ ¬∃ i, policy i = .deny ∧ l ∈ done i

/-- Each run is done with some of its apps, and ready for the others. -/
structure Progress (conf : Option Bytes) (policy : ι → Policy) (apps done : ι → List Bytes)
    (s : Overlap ι) : Prop where
  split : ∀ i, apps i = done i ++ (s.party i).apps
  policy_eq : ∀ i, (s.party i).policy = policy i
  ready : ∀ i, (s.party i).Ready s.store
  mem : ∀ l, l ∈ confLines s.store ↔ Expected conf policy done l
  count : ∀ l, (confLines s.store).count l ≤ max 1 ((confLines conf).count l)
  ended : AppendsEnded conf policy apps s.store

theorem Progress.done_mem (h : Progress conf policy apps done s) : ∀ j, ∀ l ∈ done j, l ∈ apps j := by
  intro j l hl
  rw [h.split j]
  exact List.mem_append_left _ hl

theorem Progress.mem_apps (h : Progress conf policy apps done s) (hfirst : (s.party i).apps = app :: rest) :
    app ∈ apps i := by
  rw [h.split i, hfirst]
  simp

theorem Progress.start (hstart : AppendsEnded conf policy apps conf) :
    Progress conf policy apps (fun _ => []) (Overlap.start conf policy apps) := by
  refine ⟨fun i => rfl, fun i => rfl, fun i => trivial, fun l => ?_, fun l => le_max_right _ _, hstart⟩
  simp [Expected, Overlap.start]

/-- When all runs are over, the lines are those that are expected. -/
theorem Progress.mem_of_finished (h : Progress conf policy apps done s) (hdone : ∀ i, (s.party i).apps = [])
    (l : Bytes) : l ∈ confLines s.store ↔ Expected conf policy apps l := by
  have happs : apps = done := by
    funext i
    rw [h.split i, hdone i, List.append_nil]
  rw [h.mem l, happs]

/-- A package that is to be appended was not there at the start, so the file ends in a newline. -/
theorem Progress.ended_of_new (h : Progress conf policy apps done s) (hruns : DisjointRuns policy apps)
    (hallow : policy i = .allow) (hin : app ∈ apps i) (hnew : app ∉ confLines s.store) :
    EndedConf s.store := by
  rcases h.ended with hended | hthere
  · exact hended
  · exfalso
    apply hnew
    rw [h.mem]
    refine ⟨.inl (hthere i hallow app hin), ?_⟩
    rintro ⟨j, hdeny, hj⟩
    rw [hruns.disjoint j i app (h.done_mem j app hj) hin, hallow] at hdeny
    cases hdeny

variable [DecidableEq ι]

/-- One more app of a run changes what is expected of this app only. -/
theorem expected_next (h : DisjointRuns policy apps) (hdone : ∀ j, ∀ l ∈ done j, l ∈ apps j)
    (happ : app ∈ apps i) (l : Bytes) :
    Expected conf policy (Function.update done i (done i ++ [app])) l ↔
      if l = app then policy i = .allow else Expected conf policy done l := by
  have hmem : ∀ j, l ∈ Function.update done i (done i ++ [app]) j ↔ l ∈ done j ∨ j = i ∧ l = app := by
    intro j
    by_cases hj : j = i
    · subst hj
      simp
    · rw [Function.update_of_ne hj]
      simp [hj]
  by_cases hl : l = app
  · subst hl
    rw [if_pos rfl, Expected]
    constructor
    · rintro ⟨-, hdenied⟩
      cases hp : policy i with
      | allow => rfl
      | deny => exact absurd ⟨i, hp, (hmem i).mpr (.inr ⟨rfl, rfl⟩)⟩ hdenied
      | allowTemp => exact absurd hp (h.policy_ne i)
    · intro hallow
      refine ⟨.inr ⟨i, hallow, (hmem i).mpr (.inr ⟨rfl, rfl⟩)⟩, ?_⟩
      rintro ⟨j, hdeny, hj⟩
      have hji : j = i := by
        rcases (hmem j).mp hj with hj | ⟨rfl, -⟩
        · exact h.disjoint j i l (hdone j l hj) happ
        · rfl
      rw [hji, hallow] at hdeny
      cases hdeny
  · rw [if_neg hl]
    simp only [Expected, hmem, hl, and_false, or_false]

namespace Progress

/-- A run goes on with its app. -/
theorem stay (h : Progress conf policy apps done s) {p' : Process}
    (hpolicy : p'.policy = (s.party i).policy) (happs : p'.apps = (s.party i).apps)
    (hready : p'.Ready s.store) : Progress conf policy apps done (s.put i (s.store, p')) := by
  have hparty : ∀ j, ((s.put i (s.store, p')).party j).policy = (s.party j).policy ∧
      ((s.put i (s.store, p')).party j).apps = (s.party j).apps ∧
      ((s.put i (s.store, p')).party j).Ready s.store := by
    intro j
    by_cases hj : j = i
    · subst hj
      rw [Shared.put_party_self]
      exact ⟨hpolicy, happs, hready⟩
    · rw [Shared.put_party_of_ne s hj]
      exact ⟨rfl, rfl, h.ready j⟩
  exact ⟨fun j => (h.split j).trans (by rw [(hparty j).2.1]),
    fun j => (hparty j).1.trans (h.policy_eq j), fun j => (hparty j).2.2, h.mem, h.count, h.ended⟩

/-- A run is done with its app, which is a line of the file if the run allows it. -/
theorem next (h : Progress conf policy apps done s) (hruns : DisjointRuns policy apps)
    (hfirst : (s.party i).apps = app :: rest) {conf' : Option Bytes} {p' : Process}
    (hpolicy : p'.policy = (s.party i).policy) (happs : p'.apps = rest) (hphase : p'.phase = .lookup)
    (hmem : ∀ l, l ∈ confLines conf' ↔ if l = app then policy i = .allow else l ∈ confLines s.store)
    (hcount : ∀ l, (confLines conf').count l ≤ max 1 ((confLines s.store).count l))
    (hended : AppendsEnded conf policy apps conf')
    (hothers : ∀ j, j ≠ i → (s.party j).Ready conf') :
    Progress conf policy apps (Function.update done i (done i ++ [app])) (s.put i (conf', p')) := by
  constructor
  · intro j
    by_cases hj : j = i
    · subst hj
      rw [Function.update_self, Shared.put_party_self, happs, h.split j, hfirst, List.append_assoc]
      rfl
    · rw [Function.update_of_ne hj, Shared.put_party_of_ne s hj]
      exact h.split j
  · intro j
    by_cases hj : j = i
    · subst hj
      rw [Shared.put_party_self, hpolicy, h.policy_eq]
    · rw [Shared.put_party_of_ne s hj]
      exact h.policy_eq j
  · intro j
    by_cases hj : j = i
    · subst hj
      rw [Shared.put_party_self, Process.Ready, hphase]
      trivial
    · rw [Shared.put_party_of_ne s hj]
      exact hothers j hj
  · intro l
    rw [expected_next hruns h.done_mem (h.mem_apps hfirst), ← h.mem l]
    exact hmem l
  · intro l
    have hnow : (confLines (s.put i (conf', p')).store).count l ≤ _ := hcount l
    have hbefore := h.count l
    omega
  · exact hended

/-- A run that is done with its app has written the file, and no other one is about to move. -/
theorem written (h : Progress conf policy apps done s) (hruns : DisjointRuns policy apps)
    (hfirst : (s.party i).apps = app :: rest) {conf' : Option Bytes} {p' : Process}
    (hpolicy : p'.policy = (s.party i).policy) (happs : p'.apps = rest) (hphase : p'.phase = .lookup)
    (hmem : ∀ l, l ∈ confLines conf' ↔ if l = app then policy i = .allow else l ∈ confLines s.store)
    (hcount : ∀ l, (confLines conf').count l ≤ max 1 ((confLines s.store).count l))
    (hended : EndedConf conf') (hconf : conf' ≠ none)
    (halone : ∀ j, j ≠ i → (s.party j).phase ≠ .move) :
    Progress conf policy apps (Function.update done i (done i ++ [app])) (s.put i (conf', p')) := by
  apply h.next hruns hfirst hpolicy happs hphase hmem hcount (.inl hended)
  intro j hj
  apply (h.ready j).write (halone j hj) hconf
  intro app' rest' hsplit
  have hne : app' ≠ app := by
    rintro rfl
    exact hj (hruns.disjoint j i app' (h.mem_apps hsplit) (h.mem_apps hfirst))
  rw [hmem app', if_neg hne]

/-- Step: whichever run is next. -/
theorem step (h : Progress conf policy apps done s) (hruns : DisjointRuns policy apps)
    (temp : Bytes → ℕ) (hwrite : Undisturbed s i) :
    ∃ done', Progress conf policy apps done' (turn (Process.act temp) s i).2 := by
  cases hfirst : (s.party i).apps with
  | nil =>
    have hidle : (turn (Process.act temp) s i).2 = s := by
      rw [turn, Process.act, hfirst, Shared.put_eq_self]
    rw [hidle]
    exact ⟨done, h⟩
  | cons app rest =>
    have hin := h.mem_apps hfirst
    have hmoves := act_moves temp (h.ready i) hfirst (h.policy_eq i ▸ hruns.policy_ne i)
      (hruns.valid i app hin)
    rw [turn]
    generalize hact : (s.party i).act temp s.store = r at hmoves
    obtain ⟨conf', p'⟩ := r
    simp only at hmoves ⊢
    have hallow : (s.party i).policy = .allow ↔ policy i = .allow := by rw [h.policy_eq i]
    cases hmoves with
    | skip hpolicy happs hphase hmem =>
      refine ⟨_, h.next hruns hfirst hpolicy happs hphase ?_ (fun l => le_max_right _ _) h.ended
        fun j _ => h.ready j⟩
      intro l
      split_ifs with hl
      · rw [hl]
        exact hmem.trans hallow
      · rfl
    | stay hpolicy happs hready => exact ⟨done, h.stay hpolicy happs hready⟩
    | append hphase₀ hpolicy happs hphase hallowed hnew =>
      have hended := h.ended_of_new hruns (hallow.mp hallowed) hin hnew
      obtain ⟨hlines, hended'⟩ := confLines_appendLine hended
        (newline_not_mem_of_valid (hruns.valid i app hin)) (s.party i).tmp
      refine ⟨_, h.written hruns hfirst hpolicy happs hphase ?_ ?_ hended' (Option.some_ne_none _)
        (hwrite (.inl hphase₀))⟩
      · intro l
        rw [hlines, List.mem_append, List.mem_singleton]
        split_ifs with hl
        · exact iff_of_true (.inr hl) (hallow.mp hallowed)
        · exact or_iff_left hl
      · intro l
        rw [hlines, List.count_append, List.count_singleton]
        by_cases hl : app = l
        · subst hl
          rw [List.count_eq_zero_of_not_mem hnew]
          simp
        · simp [hl]
    | move hphase₀ hpolicy happs hphase hdeny =>
      obtain ⟨hlines, hended'⟩ := confLines_filtered s.store app
      have hnot : policy i ≠ .allow := by
        rw [← h.policy_eq i, hdeny]
        decide
      refine ⟨_, h.written hruns hfirst hpolicy happs hphase ?_ ?_ hended' (Option.some_ne_none _)
        (hwrite (.inr hphase₀))⟩
      · intro l
        rw [hlines, List.mem_filter, decide_eq_true_eq]
        split_ifs with hl
        · exact iff_of_false (fun hboth => hboth.2 hl) hnot
        · exact and_iff_left hl
      · intro l
        rw [hlines]
        exact (List.filter_sublist.count_le l).trans (le_max_right _ _)

/-- Run: any schedule in which no write is undone. -/
theorem run (h : Progress conf policy apps done s) (hruns : DisjointRuns policy apps)
    (temp : Bytes → ℕ) (schedule : List ι)
    (hwrites : ∀ e ∈ trace (turn (Process.act temp)) s schedule, Undisturbed e.before e.input) :
    ∃ done', Progress conf policy apps done' (finalState (turn (Process.act temp)) s schedule) := by
  refine (trace_invariant (turn (Process.act temp)) (fun s => ∃ done', Progress conf policy apps done' s)
    s schedule ⟨done, h⟩ ?_).2
  rintro e he ⟨done', hprogress⟩
  rw [eq_callOf_of_mem_trace _ he]
  exact hprogress.step hruns temp (hwrites e he)

end Progress

/-- One run after the other is a schedule too, and nothing is undone in it. -/
theorem exists_schedule_oneAfterOther {args : ι → List Bytes} (temp : Bytes → ℕ)
    (hargs : ∀ i, parseArgs (args i) = some (policy i, apps i)) (order : List ι)
    (hnodup : order.Nodup) (s : Overlap ι) (hphase : ∀ i, (s.party i).phase = .lookup)
    (hstart : ∀ i ∈ order, s.party i = .start (policy i) (apps i)) :
    ∃ schedule,
      (∀ e ∈ trace (turn (Process.act temp)) s schedule, Undisturbed e.before e.input) ∧
      (finalState (turn (Process.act temp)) s schedule).store = oneAfterOther temp args s.store order ∧
      (∀ i ∈ order, ((finalState (turn (Process.act temp)) s schedule).party i).apps = []) ∧
      ∀ i, i ∉ order → (finalState (turn (Process.act temp)) s schedule).party i = s.party i := by
  induction order generalizing s with
  | nil => exact ⟨[], by simp, rfl, by simp, fun _ _ => rfl⟩
  | cons i order ih =>
    obtain ⟨hi, hnodup⟩ := List.nodup_cons.mp hnodup
    have hfirst := hstart i List.mem_cons_self
    obtain ⟨n, hconf, hdone, hlookup⟩ :=
      alone_apps temp (apps i) s.store (s.party i) (by rw [hfirst]; rfl) (hphase i)
    have hrun := finalState_replicate (Process.act temp) s n i
    have hphase' : ∀ j, ((s.put i (alone (Process.act temp) n (s.store, s.party i))).party j).phase =
        .lookup := by
      intro j
      by_cases hj : j = i
      · rw [hj, Shared.put_party_self, hlookup]
      · rw [Shared.put_party_of_ne s hj, hphase]
    have hstart' : ∀ j ∈ order, (s.put i (alone (Process.act temp) n (s.store, s.party i))).party j =
        .start (policy j) (apps j) := by
      intro j hj
      have hne : j ≠ i := by
        rintro rfl
        exact hi hj
      rw [Shared.put_party_of_ne s hne]
      exact hstart j (List.mem_cons_of_mem i hj)
    obtain ⟨schedule, hwrites, hstore, hover, hothers⟩ := ih hnodup
      (s.put i (alone (Process.act temp) n (s.store, s.party i))) hphase' hstart'
    refine ⟨List.replicate n i ++ schedule, ?_, ?_, ?_, ?_⟩
    · intro e he
      rw [trace_append, List.mem_append, hrun] at he
      rcases he with he | he
      · obtain ⟨hinput, hsame⟩ := party_of_mem_trace_replicate _ he
        intro _ j hj
        rw [hsame j (hinput ▸ hj), hphase j]
        decide
      · exact hwrites e he
    · rw [finalState_append, hrun, hstore, Shared.put_store, hconf, oneAfterOther, oneAfterOther,
        List.foldl_cons, runCtl, hargs, hfirst]
      rfl
    · intro j hj
      rw [finalState_append, hrun]
      rcases List.mem_cons.mp hj with rfl | hj
      · rw [hothers j hi, Shared.put_party_self, hdone]
      · exact hover j hj
    · intro j hj
      rw [List.mem_cons, not_or] at hj
      rw [finalState_append, hrun, hothers j hj.2, Shared.put_party_of_ne s hj.1]

/-- Runs that do not undo each other's writes leave the lines that they leave one after the other,
and no line is there twice that was not before. -/
theorem overlapping_runs (args : ι → List Bytes)
    (hargs : ∀ i, parseArgs (args i) = some (policy i, apps i)) (hruns : DisjointRuns policy apps)
    (hstart : AppendsEnded conf policy apps conf) (temp : Bytes → ℕ) (schedule : List ι)
    (hwrites : ∀ e ∈ trace (turn (Process.act temp)) (Overlap.start conf policy apps) schedule,
      Undisturbed e.before e.input)
    (hdone : ∀ i, ((finalState (turn (Process.act temp)) (Overlap.start conf policy apps)
      schedule).party i).apps = []) :
    (∀ order : List ι, order.Nodup → (∀ i, i ∈ order) →
      ∀ l, l ∈ confLines (finalState (turn (Process.act temp)) (Overlap.start conf policy apps)
        schedule).store ↔ l ∈ confLines (oneAfterOther temp args conf order)) ∧
    ∀ l, (confLines (finalState (turn (Process.act temp)) (Overlap.start conf policy apps)
      schedule).store).count l ≤ max 1 ((confLines conf).count l) := by
  obtain ⟨done, hprogress⟩ := (Progress.start hstart).run hruns temp schedule hwrites
  refine ⟨fun order hnodup hall l => ?_, hprogress.count⟩
  obtain ⟨serial, hserial, hstore, hover, -⟩ := exists_schedule_oneAfterOther temp hargs order hnodup
    (Overlap.start conf policy apps) (fun i => rfl) (fun i _ => rfl)
  obtain ⟨done', hprogress'⟩ := (Progress.start hstart).run hruns temp serial hserial
  have hstore' : oneAfterOther temp args conf order =
      (finalState (turn (Process.act temp)) (Overlap.start conf policy apps) serial).store :=
    hstore.symm
  rw [hprogress.mem_of_finished hdone, hstore', hprogress'.mem_of_finished fun i => hover i (hall i)]

end Runs

section Example

/-- One run allows a package, the other one denies another. -/
def allowAndDeny : Bool → Policy := fun i => if i then .deny else .allow

def twoPackages : Bool → List Bytes := fun i => if i then [ascii "c.d"] else [ascii "a.b"]

def twoArgs : Bool → List Bytes := fun i =>
  if i then [ascii "deny", ascii "c.d"] else [ascii "allow", ascii "a.b"]

def oldConf : Option Bytes := some (ascii "c.d\n")

theorem endedConf_oldConf : EndedConf oldConf := by
  unfold EndedConf
  decide

/-- The file and the apps that are left after a schedule of the two runs. -/
def afterSchedule (schedule : List Bool) : Overlap Bool :=
  finalState (turn (Process.act fun _ => 0)) (Overlap.start oldConf allowAndDeny twoPackages) schedule

theorem disjointRuns_twoPackages : DisjointRuns allowAndDeny twoPackages := by
  refine ⟨by decide, by decide, ?_⟩
  rintro (_ | _) (_ | _) app hi hj
  · rfl
  · rw [List.mem_singleton.mp hi] at hj
    exact absurd hj (by decide)
  · rw [List.mem_singleton.mp hi] at hj
    exact absurd hj (by decide)
  · rfl

/-- The package is appended before the other run filters. -/
theorem overlapping_runs_twoPackages :
    (∀ l, l ∈ confLines (afterSchedule [true, false, false, true, true]).store ↔
      l ∈ confLines (oneAfterOther (fun _ => 0) twoArgs oldConf [false, true])) ∧
    ∀ l, (confLines (afterSchedule [true, false, false, true, true]).store).count l ≤
      max 1 ((confLines oldConf).count l) := by
  have hruns := overlapping_runs twoArgs (by decide) disjointRuns_twoPackages
    (.inl endedConf_oldConf) (fun _ => 0) [true, false, false, true, true] (by decide) (by decide)
  exact ⟨hruns.1 [false, true] (by decide) (by decide), hruns.2⟩

/-- It is appended between the filter and the move of the other run, and is lost. -/
theorem overlapping_runs_lost :
    (∀ i, ((afterSchedule [true, true, false, false, true]).party i).apps = []) ∧
      confLines (afterSchedule [true, true, false, false, true]).store = [] ∧
      confLines (oneAfterOther (fun _ => 0) twoArgs oldConf [false, true]) = [ascii "a.b"] ∧
      confLines (oneAfterOther (fun _ => 0) twoArgs oldConf [true, false]) = [ascii "a.b"] := by
  decide

end Example

end Dumbos.Firewall
