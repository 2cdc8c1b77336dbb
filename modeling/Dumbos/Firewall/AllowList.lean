import Dumbos.Firewall.Ctl
import Dumbos.Foundation.Run

/-! # The list of allowed packages

Whatever is asked of `dumbos-firewallctl.sh`, one run after the other, its file
stays a list of distinct names, and as a set it does what is asked.
-/
namespace Dumbos.Firewall
open Foundation

/-- A list of distinct package names. -/
@[ext] structure AllowList where
  names : List Bytes
  distinct : names.Nodup
  valid : ∀ name ∈ names, checkPackageName name

namespace AllowList

def empty : AllowList := ⟨[], List.nodup_nil, by simp⟩

def insert (list : AllowList) (name : Bytes) (h : checkPackageName name) : AllowList :=
  if hin : name ∈ list.names then list
  else ⟨list.names ++ [name], by
      rw [List.nodup_append]
      refine ⟨list.distinct, List.nodup_singleton name, ?_⟩
      intro a ha b hb heq
      rw [List.mem_singleton] at hb
      exact hin (hb ▸ heq ▸ ha), by
      intro n hn
      rcases List.mem_append.mp hn with hn | hn
      · exact list.valid n hn
      · rwa [List.mem_singleton.mp hn]⟩

def erase (list : AllowList) (name : Bytes) : AllowList :=
  ⟨list.names.filter (· ≠ name), list.distinct.filter _,
    fun n hn => list.valid n (List.mem_filter.mp hn).1⟩

theorem mem_insert {list : AllowList} {name : Bytes} (h : checkPackageName name) {n : Bytes} :
    n ∈ (list.insert name h).names ↔ n ∈ list.names ∨ n = name := by
  rw [insert]
  split_ifs with hin
  · constructor
    · exact .inl
    · rintro (hn | rfl)
      · exact hn
      · exact hin
  · simp

theorem mem_erase {list : AllowList} {name n : Bytes} :
    n ∈ (list.erase name).names ↔ n ∈ list.names ∧ n ≠ name := by
  simp [erase]

theorem erase_of_not_mem {list : AllowList} {name : Bytes} (h : name ∉ list.names) :
    list.erase name = list := by
  ext1
  rw [erase, List.filter_eq_self]
  intro n hn
  rw [decide_eq_true_eq]
  exact fun heq => h (heq ▸ hn)

end AllowList

/-- The file holds the list; an empty list need not have a file. -/
def Holds (conf : Option Bytes) (list : AllowList) : Prop :=
  conf = some (ended newline list.names) ∨ conf = none ∧ list.names = []

theorem newline_not_mem_of_valid {name : Bytes} (h : checkPackageName name) : newline ∉ name := by
  rw [checkPackageName, Bool.and_eq_true, List.all_eq_true] at h
  intro hmem
  exact absurd (h.2 newline hmem) (by decide)

theorem AllowList.newline_not_mem (list : AllowList) : ∀ n ∈ list.names, newline ∉ n :=
  fun n hn => newline_not_mem_of_valid (list.valid n hn)

theorem Holds.confLines_eq {conf : Option Bytes} {list : AllowList} (h : Holds conf list) :
    confLines conf = list.names := by
  rcases h with rfl | ⟨rfl, hnil⟩
  · exact linesOf_ended list.newline_not_mem
  · rw [hnil]
    rfl

theorem holds_appendLine {files : ConfFiles} {list : AllowList} (h : Holds files.conf list) {app : Bytes}
    (hvalid : checkPackageName app) (hnew : app ∉ list.names) :
    Holds (appendLine app files).conf (list.insert app hvalid) := by
  have hgetD : files.conf.getD [] = ended newline list.names := by
    rcases h with hconf | ⟨hconf, hnil⟩
    · rw [hconf, Option.getD_some]
    · rw [hconf, hnil]
      rfl
  left
  rw [appendLine, hgetD, AllowList.insert, dif_neg hnew, ended_append]
  simp [ended]

/-- The look-up in a file that holds a list. -/
theorem Holds.grepFqx_eq {content : Bytes} {list : AllowList} (h : Holds (some content) list)
    {app : Bytes} (hvalid : checkPackageName app) :
    grepFqx app content = if app ∈ list.names then 0 else 1 := by
  rw [Firewall.grepFqx_eq (newline_not_mem_of_valid hvalid), ← h.confLines_eq]
  rfl

theorem Holds.names_eq_nil {list : AllowList} (h : Holds none list) : list.names = [] := by
  rw [← h.confLines_eq]
  simp [confLines, linesOf]

/-- Step: a package is looked up, and appended if it is not there. -/
theorem addPackage_holds {files : ConfFiles} {list : AllowList} (h : Holds files.conf list) {app : Bytes}
    (hvalid : checkPackageName app) :
    (addPackage app files).1 = 0 ∧ Holds (addPackage app files).2.conf (list.insert app hvalid) := by
  rw [addPackage]
  cases hconf : files.conf with
  | none =>
    have hnew : app ∉ list.names := by
      rw [(hconf ▸ h : Holds none list).names_eq_nil]
      exact List.not_mem_nil
    exact ⟨rfl, holds_appendLine h hvalid hnew⟩
  | some content =>
    have hgrep := Holds.grepFqx_eq (hconf ▸ h) hvalid
    by_cases hin : app ∈ list.names
    · rw [if_pos hin] at hgrep
      simp only [hgrep]
      rw [AllowList.insert, dif_pos hin]
      exact ⟨trivial, h⟩
    · rw [if_neg hin] at hgrep
      simp only [hgrep]
      exact ⟨trivial, holds_appendLine h hvalid hin⟩

/-- Step: a package that is there is filtered out. -/
theorem removePackage_holds {files : ConfFiles} {list : AllowList} (h : Holds files.conf list)
    {app : Bytes} (hvalid : checkPackageName app) :
    (removePackage app files).1 = 0 ∧ Holds (removePackage app files).2.conf (list.erase app) := by
  rw [removePackage]
  cases hconf : files.conf with
  | none =>
    have hnot : app ∉ list.names := by
      rw [(hconf ▸ h : Holds none list).names_eq_nil]
      exact List.not_mem_nil
    rw [AllowList.erase_of_not_mem hnot]
    exact ⟨rfl, h⟩
  | some content =>
    have hgrep := Holds.grepFqx_eq (hconf ▸ h) hvalid
    by_cases hin : app ∈ list.names
    · rw [if_pos hin] at hgrep
      have hlines : linesOf content = list.names := (hconf ▸ h : Holds (some content) list).confLines_eq
      have hothers : (grepFvx app content).2 = ended newline (list.erase app).names := by
        rw [grepFvx_eq (newline_not_mem_of_valid hvalid), hlines]
        rfl
      simp only [hgrep, if_neg (not_lt.mpr (grepFvx_status_le app content)), replaceConf]
      exact ⟨if_pos trivial, .inl (congrArg some hothers)⟩
    · rw [if_neg hin] at hgrep
      simp only [hgrep]
      rw [AllowList.erase_of_not_mem hin]
      exact ⟨trivial, h⟩

/-- What a run with a policy makes of the names. -/
def Wanted (policy : Policy) (apps names : List Bytes) (n : Bytes) : Prop :=
  match policy with
  | .allow => n ∈ names ∨ n ∈ apps ∧ checkPackageName n
  | .deny => n ∈ names ∧ ¬(n ∈ apps ∧ checkPackageName n)
  | .allowTemp => n ∈ names

theorem processApp_eq (policy : Policy) (temp : Bytes → ℕ) (app : Bytes) (files : ConfFiles) :
    processApp policy temp app files =
      if checkPackageName app then match policy with
        | .allow => addPackage app files
        | .deny => removePackage app files
        | .allowTemp => (temp app, files)
      else (1, files) := by
  unfold processApp
  cases checkPackageName app <;> rfl

/-- Step: an app changes the list as the policy says, and fails if it is invalid. -/
theorem processApp_holds {files : ConfFiles} {list : AllowList} (h : Holds files.conf list)
    (policy : Policy) (temp : Bytes → ℕ) (app : Bytes) :
    ∃ status files' list', processApp policy temp app files = (status, files') ∧
      (policy ≠ .allowTemp → (status = 0 ↔ checkPackageName app)) ∧ Holds files'.conf list' ∧
      ∀ n, n ∈ list'.names ↔ Wanted policy [app] list.names n := by
  rw [processApp_eq]
  by_cases hvalid : checkPackageName app
  · rw [if_pos hvalid]
    cases policy with
    | allow =>
      obtain ⟨hstatus, hholds⟩ := addPackage_holds h hvalid
      refine ⟨_, _, _, rfl, fun _ => iff_of_true hstatus hvalid, hholds, fun n => ?_⟩
      rw [AllowList.mem_insert, Wanted, List.mem_singleton]
      constructor
      · exact Or.imp_right fun heq => ⟨heq, heq ▸ hvalid⟩
      · exact Or.imp_right And.left
    | deny =>
      obtain ⟨hstatus, hholds⟩ := removePackage_holds h hvalid
      refine ⟨_, _, _, rfl, fun _ => iff_of_true hstatus hvalid, hholds, fun n => ?_⟩
      rw [AllowList.mem_erase, Wanted, List.mem_singleton]
      constructor
      · exact And.imp_right fun hne hboth => hne hboth.1
      · exact And.imp_right fun hnot heq => hnot ⟨heq, heq ▸ hvalid⟩
    | allowTemp => exact ⟨_, _, list, rfl, fun hne => absurd rfl hne, h, fun n => Iff.rfl⟩
  · rw [if_neg hvalid]
    refine ⟨1, files, list, rfl, fun _ => iff_of_false one_ne_zero hvalid, h, fun n => ?_⟩
    have hnot : ¬(n ∈ [app] ∧ checkPackageName n) := by
      rintro ⟨hn, hn'⟩
      exact hvalid (List.mem_singleton.mp hn ▸ hn')
    cases policy <;> simp only [Wanted, hnot, or_false, not_false_eq_true, and_true]

theorem wanted_cons (policy : Policy) (app : Bytes) (apps names : List Bytes) (names' : List Bytes)
    (h : ∀ n, n ∈ names' ↔ Wanted policy [app] names n) (n : Bytes) :
    Wanted policy apps names' n ↔ Wanted policy (app :: apps) names n := by
  cases policy <;> simp only [Wanted, h, List.mem_cons, List.not_mem_nil, or_false, or_and_right, not_or]
  · exact or_assoc
  · exact and_assoc

/-- Run: the loop does to the list what the policy says, and reports an invalid app. -/
theorem processApps_holds {files : ConfFiles} {list : AllowList} (h : Holds files.conf list)
    (policy : Policy) (temp : Bytes → ℕ) (apps : List Bytes) (returnCode : ℕ) :
    ∃ code files' list', processApps policy temp apps returnCode files = (code, files') ∧
      (policy ≠ .allowTemp →
        code = if ∀ app ∈ apps, checkPackageName app then returnCode else 1) ∧
      Holds files'.conf list' ∧ ∀ n, n ∈ list'.names ↔ Wanted policy apps list.names n := by
  induction apps generalizing files list returnCode with
  | nil =>
    refine ⟨returnCode, files, list, rfl, fun _ => by simp, h, fun n => ?_⟩
    cases policy <;> simp [Wanted]
  | cons app apps ih =>
    obtain ⟨status, files₁, list₁, happ, hstatus, h₁, hnames₁⟩ := processApp_holds h policy temp app
    obtain ⟨code, files₂, list₂, happs, hcode, h₂, hnames₂⟩ :=
      ih h₁ (if status = 0 then returnCode else 1)
    refine ⟨code, files₂, list₂, ?_, ?_, h₂, ?_⟩
    · rw [processApps, happ]
      exact happs
    · intro hpolicy
      rw [hcode hpolicy]
      simp only [hstatus hpolicy, List.forall_mem_cons]
      split_ifs <;> simp_all
    · intro n
      rw [hnames₂, wanted_cons policy app apps list.names list₁.names hnames₁]

/-- A call on the configuration file: the file holds distinct names, the set of its lines is what the
operation asks for, and the code reports a misuse. -/
structure KeepsAllowList (e : Foundation.Call (Option Bytes) ConfOperation ℕ) : Prop where
  distinct : (confLines e.after).Nodup
  named : ∀ l ∈ confLines e.after, checkPackageName l
  ended : ∀ content, e.after = some content → content = Foundation.ended newline (confLines e.after)
  allow : ∀ apps temp, e.input = .ctl (ascii "allow" :: apps) temp →
    (∀ l, l ∈ confLines e.after ↔ l ∈ confLines e.before ∨ l ∈ apps ∧ checkPackageName l) ∧
      e.output = if apps = [] ∨ ∃ app ∈ apps, ¬checkPackageName app then 1 else 0
  deny : ∀ apps temp, e.input = .ctl (ascii "deny" :: apps) temp →
    (∀ l, l ∈ confLines e.after ↔ l ∈ confLines e.before ∧ ¬(l ∈ apps ∧ checkPackageName l)) ∧
      e.output = if apps = [] ∨ ∃ app ∈ apps, ¬checkPackageName app then 1 else 0
  other : ∀ args temp, e.input = .ctl args temp → args.head? ≠ some (ascii "allow") →
    args.head? ≠ some (ascii "deny") → ∀ l, l ∈ confLines e.after ↔ l ∈ confLines e.before
  flush : ∀ reload, e.input = .flush reload → confLines e.after = []

/-- What a run of the script does, by its arguments. -/
theorem runCtl_holds {conf : Option Bytes} {list : AllowList} (h : Holds conf list) (args : List Bytes)
    (temp : Bytes → ℕ) :
    ∃ list', Holds (runCtl args temp conf).2 list' ∧
      match parseArgs args with
      | none => (runCtl args temp conf).1 = 1 ∧ list' = list
      | some (policy, apps) => (policy ≠ .allowTemp → (runCtl args temp conf).1 =
          if ∀ app ∈ apps, checkPackageName app then 0 else 1) ∧
        ∀ n, n ∈ list'.names ↔ Wanted policy apps list.names n := by
  rw [runCtl]
  cases hargs : parseArgs args with
  | none => exact ⟨list, h, rfl, rfl⟩
  | some parsed =>
    obtain ⟨policy, apps⟩ := parsed
    obtain ⟨code, files', list', hrun, hcode, hholds, hnames⟩ :=
      @processApps_holds ⟨conf, some []⟩ list h policy temp apps 0
    simp only [hrun]
    exact ⟨list', hholds, hcode, hnames⟩

theorem parseArgs_allow (apps : List Bytes) :
    parseArgs (ascii "allow" :: apps) = if apps = [] then none else some (.allow, apps) := by
  cases apps <;> rfl

theorem parseArgs_deny (apps : List Bytes) :
    parseArgs (ascii "deny" :: apps) = if apps = [] then none else some (.deny, apps) := by
  cases apps with
  | nil => rfl
  | cons app apps =>
    rw [parseArgs, if_neg (by decide), if_pos rfl]
    rfl

/-- Any other policy leaves the names alone. -/
theorem parseArgs_other {args : List Bytes} (hallow : args.head? ≠ some (ascii "allow"))
    (hdeny : args.head? ≠ some (ascii "deny")) :
    parseArgs args = none ∨ ∃ apps, parseArgs args = some (.allowTemp, apps) := by
  match args with
  | [] => exact .inl rfl
  | [policy] => exact .inl rfl
  | policy :: app :: apps =>
    rw [parseArgs, if_neg fun h => hallow (congrArg some h), if_neg fun h => hdeny (congrArg some h)]
    split_ifs
    · exact .inr ⟨_, rfl⟩
    · exact .inl rfl

/-- The code of a run that has checked its apps. -/
theorem returnCode_eq (apps : List Bytes) :
    (if apps = [] then 1 else if ∀ app ∈ apps, checkPackageName app then 0 else 1) =
      if apps = [] ∨ ∃ app ∈ apps, ¬checkPackageName app then 1 else 0 := by
  by_cases hnil : apps = []
  · rw [if_pos hnil, if_pos (.inl hnil)]
  · by_cases hall : ∀ app ∈ apps, checkPackageName app
    · rw [if_neg hnil, if_pos hall, if_neg]
      rintro (h | ⟨app, happ, hnot⟩)
      · exact hnil h
      · exact hnot (hall app happ)
    · rw [if_neg hnil, if_neg hall, if_pos]
      push Not at hall
      obtain ⟨app, happ, hnot⟩ := hall
      exact .inr ⟨app, happ, hnot⟩

/-- What a run with the policies `allow` and `deny` does, by the apps behind the policy. -/
theorem runCtl_apps {conf : Option Bytes} {list : AllowList} (h : Holds conf list) {policy : Policy}
    (hpolicy : policy ≠ .allowTemp) {args apps : List Bytes}
    (hargs : parseArgs args = if apps = [] then none else some (policy, apps)) (temp : Bytes → ℕ) :
    (∀ l, l ∈ confLines (runCtl args temp conf).2 ↔ Wanted policy apps (confLines conf) l) ∧
      (runCtl args temp conf).1 = if apps = [] ∨ ∃ app ∈ apps, ¬checkPackageName app then 1 else 0 := by
  obtain ⟨list', hholds, hrun⟩ := runCtl_holds h args temp
  rw [hholds.confLines_eq, h.confLines_eq, ← returnCode_eq]
  by_cases hnil : apps = []
  · rw [hargs, if_pos hnil] at hrun
    obtain ⟨hcode, rfl⟩ := hrun
    rw [hcode, if_pos hnil, hnil]
    refine ⟨fun l => ?_, rfl⟩
    cases policy <;> simp [Wanted]
  · rw [hargs, if_neg hnil] at hrun
    rw [if_neg hnil]
    exact ⟨hrun.2, hrun.1 hpolicy⟩

/-- Step: a list is held again after an operation. -/
theorem ConfOperation.run_holds {conf : Option Bytes} {list : AllowList} (h : Holds conf list)
    (op : ConfOperation) : ∃ list', Holds (op.run conf).2 list' := by
  cases op with
  | ctl args temp =>
    obtain ⟨list', hholds, -⟩ := runCtl_holds h args temp
    exact ⟨list', hholds⟩
  | flush reload => exact ⟨.empty, .inr ⟨rfl, rfl⟩⟩

/-- Step: an operation does to the set of lines what it is asked for. -/
theorem ConfOperation.run_keeps {conf : Option Bytes} {list : AllowList} (h : Holds conf list)
    (op : ConfOperation) : KeepsAllowList (callOf ConfOperation.run conf op) := by
  obtain ⟨list', hholds⟩ := op.run_holds h
  have hafter : confLines (callOf ConfOperation.run conf op).after = list'.names := hholds.confLines_eq
  constructor
  · rw [hafter]
    exact list'.distinct
  · rw [hafter]
    exact list'.valid
  · intro content hcontent
    rw [hafter]
    rcases hholds with hsome | ⟨hnone, -⟩
    · exact Option.some.inj (hcontent.symm.trans hsome)
    · exact absurd (hcontent.symm.trans hnone) (Option.some_ne_none content)
  · rintro apps temp rfl
    exact runCtl_apps h (by decide) (parseArgs_allow apps) temp
  · rintro apps temp rfl
    exact runCtl_apps h (by decide) (parseArgs_deny apps) temp
  · rintro args temp rfl hallow hdeny l
    obtain ⟨list₁, hholds₁, hrun⟩ := runCtl_holds h args temp
    change l ∈ confLines (runCtl args temp conf).2 ↔ l ∈ confLines conf
    rw [hholds₁.confLines_eq, h.confLines_eq]
    rcases parseArgs_other hallow hdeny with hargs | ⟨apps, hargs⟩
    · rw [hargs] at hrun
      rw [hrun.2]
    · rw [hargs] at hrun
      exact hrun.2 l
  · rintro reload rfl
    simp [callOf, run, confLines, linesOf]

/-- Run: from an absent file on, whatever is asked for. -/
theorem keepsAllowList_trace (operations : List ConfOperation) :
    ∀ e ∈ trace ConfOperation.run none operations, KeepsAllowList e := by
  have hstart : ∃ list, Holds none list := ⟨.empty, .inr ⟨rfl, rfl⟩⟩
  obtain ⟨hholds, -⟩ := trace_invariant ConfOperation.run (fun conf => ∃ list, Holds conf list) none
    operations hstart fun e he hbefore => by
      rw [eq_callOf_of_mem_trace ConfOperation.run he]
      obtain ⟨list, hlist⟩ := hbefore
      exact ConfOperation.run_holds hlist e.input
  intro e he
  obtain ⟨list, hlist⟩ := (hholds e he).1
  rw [eq_callOf_of_mem_trace ConfOperation.run he]
  exact ConfOperation.run_keeps hlist e.input

section Example

def allowOne : ConfOperation := .ctl [ascii "allow", ascii "a.b", ascii "a b", ascii "a.b"] fun _ => 0

def denyOne : ConfOperation := .ctl [ascii "deny", ascii "a.b"] fun _ => 0

theorem keepsAllowList_trace_allowDeny : confLines (allowOne.run none).2 = [ascii "a.b"] ∧
    KeepsAllowList (callOf ConfOperation.run (allowOne.run none).2 denyOne) :=
  ⟨by decide, keepsAllowList_trace [allowOne, denyOne] _ (by simp)⟩

end Example

end Dumbos.Firewall
