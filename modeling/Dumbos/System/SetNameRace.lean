import Dumbos.Foundation.Interleaving
import Dumbos.System.NewUser

/-! # Commands `set_name` at the same time

Each client has a process of its own. It looks for a user, writes the file for
init and sets the property, and init copies the file later. A command that looks
between the check of another one and the end of the copies finds no user, a command
does not look whether its file has been flushed, and returns without waiting for the
copies.
-/
namespace Dumbos.System
open Foundation Common Daemon

/-- Where init copies `/dev/dumbos-userdata-new` to. -/
inductive CopyTo where
  | persist
  | dev
deriving DecidableEq

structure UserFiles where
  /-- `/dev/dumbos-userdata`. -/
  stored : Option Bytes
  /-- `/mnt/vendor/persist/dumbos_user`. -/
  persist : Option Bytes
  /-- `/dev/dumbos-userdata-new`. -/
  newFile : Option Bytes
  /-- The copies that init has still to make. -/
  copies : List CopyTo
deriving DecidableEq

/-- Where the process of a command stands. When it has written, the file has the first bytes of the
blob, and the rest is in the buffer of the stream. -/
inductive SetNamePhase where
  | start
  | checked
  | opened
  | written (handed : ℕ)
  | closed
  | triggered
  | returned (err : ℤ)
deriving DecidableEq

/-- How a call of a process ends. A `fwrite` hands on as much of the blob as it likes; a call that
fails has written a part of it, and may have set the property all the same. -/
inductive Outcome where
  | succeeds (handed : ℕ)
  | fails (errno : {err : ℤ // err ≠ 0}) (part : Bytes) (set : Bool)

/-- A write into a file that may have been cut since; one of nothing is not made. -/
def writeAt (offset : ℕ) (data : Bytes) (file : Option Bytes) : Option Bytes :=
  if data = [] then file else some (splice offset data ((file.getD []).rightpad offset 0))

def newUserCopies : List CopyTo := [.persist, .dev]

/-- The next call of the process of `cmd_setname`. -/
def setNameAct (blob : Bytes) (outcome : Outcome) (files : UserFiles) :
    SetNamePhase → UserFiles × SetNamePhase
  | .start => match files.stored, outcome with
    | none, .succeeds _ => (files, .checked)
    | _, _ => (files, .returned EUSERS.code)
  | .checked => match outcome with
    | .succeeds _ => ({ files with newFile := some [] }, .opened)
    | .fails errno _ _ => (files, .returned errno)
  | .opened => match outcome with
    | .succeeds handed =>
      ({ files with newFile := writeAt 0 (blob.take handed) files.newFile }, .written handed)
    | .fails errno part _ => ({ files with newFile := writeAt 0 part files.newFile }, .returned errno)
  | .written handed => match outcome with
    | .succeeds _ => ({ files with newFile := writeAt handed (blob.drop handed) files.newFile }, .closed)
    -- the result of `fclose` is not looked at
    | .fails _ part _ => ({ files with newFile := writeAt handed part files.newFile }, .closed)
  | .closed => match outcome with
    | .succeeds _ => ({ files with copies := files.copies ++ newUserCopies }, .triggered)
    | .fails errno _ set =>
      ({ files with copies := if set then files.copies ++ newUserCopies else files.copies },
        .returned errno)
  | .triggered => (files, .returned 0)
  | .returned err => (files, .returned err)

/-- The next copy of init. -/
def initAct (files : UserFiles) : UserFiles :=
  match files.copies with
  | [] => files
  | .persist :: copies =>
    { files with persist := initCopy files.persist files.newFile, copies := copies }
  | .dev :: copies => { files with stored := initCopy files.stored files.newFile, copies := copies }

inductive SetNameTurn (ι : Type*) where
  | client (i : ι) (outcome : Outcome)
  | init

abbrev SetNames (ι : Type*) := Shared UserFiles ι SetNamePhase

/-- No command has begun. -/
def SetNames.start {ι : Type*} (files : UserFiles) : SetNames ι := ⟨files, fun _ => .start⟩

namespace SetNamePhase

/-- The command has found no user and has not returned. -/
def Busy : SetNamePhase → Prop
  | .start | .returned _ => False
  | _ => True

/-- It is busy or has returned 0. -/
def Active (phase : SetNamePhase) : Prop := phase.Busy ∨ phase = .returned 0

instance : DecidablePred Busy
  | .start | .returned _ => inferInstanceAs (Decidable False)
  | .checked | .opened | .written _ | .closed | .triggered => inferInstanceAs (Decidable True)

/-- It is not a flush that fails. -/
def Flushes : SetNamePhase → Outcome → Prop
  | .written _, .fails _ _ _ => False
  | _, _ => True

instance : ∀ phase outcome, Decidable (Flushes phase outcome)
  | .written _, .fails _ _ _ => inferInstanceAs (Decidable False)
  | .written _, .succeeds _ => inferInstanceAs (Decidable True)
  | .start, _ | .checked, _ | .opened, _ | .closed, _ | .triggered, _ | .returned _, _ =>
    inferInstanceAs (Decidable True)

end SetNamePhase

section Machine
variable {ι : Type*} [DecidableEq ι] (blob : ι → Bytes)

/-- A process or init goes on. -/
def setNameTurn (s : SetNames ι) : SetNameTurn ι → Unit × SetNames ι
  | .client i outcome => ((), s.put i (setNameAct (blob i) outcome s.store (s.party i)))
  | .init => ((), { s with store := initAct s.store })

/-- A command that finds no user is alone from its check on, no flush fails, and none returns before
init has made its copies. -/
def Orderly {ι : Type*} (s : SetNames ι) : SetNameTurn ι → Prop
  | .client i outcome =>
    (s.party i = .start → s.store.stored = none → s.store.copies = [] ∧ ∀ j, ¬(s.party j).Busy) ∧
      (s.party i).Flushes outcome ∧ (s.party i = .triggered → s.store.copies = [])
  | .init => True

instance {ι : Type*} [Fintype ι] (s : SetNames ι) : DecidablePred (Orderly s)
  | .client _ _ => inferInstanceAs (Decidable (_ ∧ _))
  | .init => isTrue trivial

/-- At most one command has returned 0, and its user is the stored one. -/
def SetOnce {ι : Type*} (blob : ι → Bytes) (s : SetNames ι) : Prop :=
  ∀ i, s.party i = .returned 0 → s.store.stored = some (blob i) ∧ s.store.persist = some (blob i) ∧
    ∀ j, s.party j = .returned 0 → j = i

end Machine

section Phases
variable {blob : Bytes} {files : UserFiles} {phase : SetNamePhase}

/-- Init has made its copies of the blob. -/
def Settled (blob : Bytes) (files : UserFiles) : Prop :=
  files.copies = [] ∧ files.persist = some blob ∧ files.stored = some blob

/-- Init has made some of its copies. -/
def Copying (blob : Bytes) (files : UserFiles) : Prop :=
  files.copies = newUserCopies ∧ files.stored = none ∨
    files.copies = [.dev] ∧ files.persist = some blob ∧ files.stored = none ∨ Settled blob files

/-- What the files are while a command is at work, or has done it. -/
def Underway (blob : Bytes) (files : UserFiles) : SetNamePhase → Prop
  | .start => True
  | .checked => files.copies = [] ∧ files.stored = none
  | .opened => files.copies = [] ∧ files.stored = none ∧ files.newFile = some []
  | .written handed =>
    files.copies = [] ∧ files.stored = none ∧ files.newFile = some (blob.take handed)
  | .closed => files.copies = [] ∧ files.stored = none ∧ files.newFile = some blob
  | .triggered => files.newFile = some blob ∧ Copying blob files
  | .returned err => err = 0 → Settled blob files

theorem underway_of_not_active (h : ¬phase.Active) (blob : Bytes) (files : UserFiles) :
    Underway blob files phase := by
  cases phase with
  | start => trivial
  | returned err => exact fun herr => absurd (.inr (herr ▸ rfl)) h
  | _ => exact absurd (.inl trivial) h

theorem not_active_start : ¬SetNamePhase.start.Active := by
  rintro (hbusy | hzero)
  · exact hbusy
  · cases hzero

theorem not_active_returned {err : ℤ} (h : err ≠ 0) : ¬(SetNamePhase.returned err).Active := by
  rintro (hbusy | hzero)
  · exact hbusy
  · exact h (SetNamePhase.returned.inj hzero)

theorem writeAt_empty (data : Bytes) : writeAt 0 data (some []) = some data := by
  rw [writeAt]
  split_ifs with hnothing
  · rw [hnothing]
  · simp [splice]

/-- The flush writes the rest of the blob. -/
theorem writeAt_drop (handed : ℕ) (blob : Bytes) :
    writeAt handed (blob.drop handed) (some (blob.take handed)) = some blob := by
  rw [writeAt]
  split_ifs with hnothing
  · rw [List.take_of_length_le (List.drop_eq_nil_iff.mp hnothing)]
  · have hlen : (blob.take handed).length = handed := by
      rw [List.length_take, min_eq_left]
      exact (not_le.mp (mt List.drop_eq_nil_iff.mpr hnothing)).le
    rw [Option.getD_some, List.rightpad, hlen, Nat.sub_self, List.replicate_zero, List.append_nil,
      splice, List.take_of_length_le hlen.le, List.take_append_drop, List.drop_of_length_le,
      List.append_nil]
    rw [hlen]
    exact Nat.le_add_right _ _

/-- A command that has failed promises nothing. -/
theorem underway_returned_ne {err : ℤ} (h : err ≠ 0) : Underway blob files (.returned err) :=
  fun herr => absurd herr h

/-- Step: a command that is alone. -/
theorem setNameAct_underway (outcome : Outcome) (h : Underway blob files phase)
    (hbusy : phase.Busy) (hflush : phase.Flushes outcome)
    (hreturn : phase = .triggered → files.copies = []) :
    Underway blob (setNameAct blob outcome files phase).1
      (setNameAct blob outcome files phase).2 := by
  cases phase with
  | start => exact absurd hbusy id
  | returned err => exact absurd hbusy id
  | checked =>
    cases outcome with
    | succeeds handed => exact ⟨h.1, h.2, rfl⟩
    | fails errno part set => exact underway_returned_ne errno.property
  | opened =>
    cases outcome with
    | succeeds handed =>
      obtain ⟨hcopies, hstored, hnew⟩ := h
      refine ⟨hcopies, hstored, ?_⟩
      change writeAt 0 (blob.take handed) files.newFile = _
      rw [hnew, writeAt_empty]
    | fails errno part set => exact underway_returned_ne errno.property
  | written handed =>
    cases outcome with
    | succeeds _ =>
      obtain ⟨hcopies, hstored, hnew⟩ := h
      refine ⟨hcopies, hstored, ?_⟩
      change writeAt handed (blob.drop handed) files.newFile = _
      rw [hnew, writeAt_drop]
    | fails errno part set => exact absurd hflush id
  | closed =>
    cases outcome with
    | succeeds handed =>
      obtain ⟨hcopies, hstored, hnew⟩ := h
      refine ⟨hnew, .inl ⟨?_, hstored⟩⟩
      simp [setNameAct, hcopies]
    | fails errno part set => exact underway_returned_ne errno.property
  | triggered =>
    intro _
    rcases h.2 with ⟨hcopies, -⟩ | ⟨hcopies, -⟩ | hsettled
    · rw [hreturn rfl] at hcopies
      cases hcopies
    · rw [hreturn rfl] at hcopies
      cases hcopies
    · exact hsettled

/-- Step: init makes the next copy. -/
theorem initAct_underway (h : Underway blob files phase) : Underway blob (initAct files) phase := by
  have hidle : files.copies = [] → initAct files = files := by
    intro hcopies
    rw [initAct, hcopies]
  cases phase with
  | start => trivial
  | checked =>
    rw [hidle h.1]
    exact h
  | opened =>
    rw [hidle h.1]
    exact h
  | written handed =>
    rw [hidle h.1]
    exact h
  | closed =>
    rw [hidle h.1]
    exact h
  | triggered =>
    obtain ⟨hnew, ⟨hcopies, hstored⟩ | ⟨hcopies, hpersist, hstored⟩ | hsettled⟩ := h
    · rw [initAct, hcopies]
      refine ⟨hnew, .inr (.inl ⟨rfl, ?_, hstored⟩)⟩
      rw [hnew]
      rfl
    · rw [initAct, hcopies]
      refine ⟨hnew, .inr (.inr ⟨rfl, hpersist, ?_⟩)⟩
      rw [hnew]
      rfl
    · rw [hidle hsettled.1]
      exact ⟨hnew, .inr (.inr hsettled)⟩
  | returned err =>
    intro herr
    rw [hidle (h herr).1]
    exact h herr

end Phases

section Runs
variable {ι : Type*} {blob : ι → Bytes} {s : SetNames ι}

/-- One command is at work or has returned 0, and the files are as it expects them. -/
structure OneAtWork (blob : ι → Bytes) (s : SetNames ι) : Prop where
  underway : ∀ i, Underway (blob i) s.store (s.party i)
  one : ∀ i j, (s.party i).Active → (s.party j).Active → i = j

theorem OneAtWork.setOnce (h : OneAtWork blob s) : SetOnce blob s := by
  intro i hi
  have hunderway := h.underway i
  rw [hi] at hunderway
  obtain ⟨-, hpersist, hstored⟩ := hunderway rfl
  exact ⟨hstored, hpersist, fun j hj => h.one j i (.inr hj) (.inr hi)⟩

variable [DecidableEq ι]

/-- A step of the command at work, or one that leaves its command without work. -/
theorem OneAtWork.put (h : OneAtWork blob s) {i : ι} {x : UserFiles × SetNamePhase}
    (hunderway : Underway (blob i) x.1 x.2)
    (hothers : ∀ j, j ≠ i → Underway (blob j) x.1 (s.party j))
    (hactive : x.2.Active → ∀ j, (s.party j).Active → j = i) : OneAtWork blob (s.put i x) := by
  constructor
  · intro j
    by_cases hj : j = i
    · subst hj
      rw [Shared.put_party_self]
      exact hunderway
    · rw [Shared.put_party_of_ne s hj]
      exact hothers j hj
  · intro j k hj hk
    by_cases hji : j = i
    · subst hji
      by_cases hki : k = j
      · exact hki.symm
      · rw [Shared.put_party_self] at hj
        rw [Shared.put_party_of_ne s hki] at hk
        exact (hactive hj k hk).symm
    · rw [Shared.put_party_of_ne s hji] at hj
      by_cases hki : k = i
      · subst hki
        rw [Shared.put_party_self] at hk
        exact hactive hk j hj
      · rw [Shared.put_party_of_ne s hki] at hk
        exact h.one j k hj hk

/-- Step: the check of a command. -/
theorem OneAtWork.check (h : OneAtWork blob s) {i : ι} (hstart : s.party i = .start)
    (outcome : Outcome)
    (halone : s.store.stored = none → s.store.copies = [] ∧ ∀ j, ¬(s.party j).Busy) :
    OneAtWork blob (s.put i (setNameAct (blob i) outcome s.store (s.party i))) := by
  have hcode : EUSERS.code ≠ 0 := by decide
  have hrefused : OneAtWork blob (s.put i (s.store, .returned EUSERS.code)) := by
    apply h.put (underway_returned_ne hcode) fun j _ => h.underway j
    exact fun hactive => absurd hactive (not_active_returned hcode)
  rw [hstart]
  cases hstored : s.store.stored with
  | some user =>
    have hcheck : setNameAct (blob i) outcome s.store .start = (s.store, .returned EUSERS.code) := by
      simp [setNameAct, hstored]
    rw [hcheck]
    exact hrefused
  | none =>
    cases outcome with
    | fails errno part set =>
      have hcheck : setNameAct (blob i) (.fails errno part set) s.store .start =
          (s.store, .returned EUSERS.code) := by
        simp [setNameAct, hstored]
      rw [hcheck]
      exact hrefused
    | succeeds handed =>
      have hcheck : setNameAct (blob i) (.succeeds handed) s.store .start = (s.store, .checked) := by
        simp [setNameAct, hstored]
      obtain ⟨hcopies, hbusy⟩ := halone hstored
      rw [hcheck]
      have hchecked : Underway (blob i) s.store .checked := ⟨hcopies, hstored⟩
      apply h.put hchecked fun j _ => h.underway j
      rintro - j (hj | hj)
      · exact absurd hj (hbusy j)
      · have hsettled := h.underway j
        rw [hj] at hsettled
        rw [(hsettled rfl).2.2] at hstored
        cases hstored

/-- Step: whoever is next. -/
theorem OneAtWork.turn (h : OneAtWork blob s) (t : SetNameTurn ι) (halone : Orderly s t) :
    OneAtWork blob (setNameTurn blob s t).2 := by
  cases t with
  | init => exact ⟨fun i => initAct_underway (h.underway i), h.one⟩
  | client i outcome =>
    by_cases hstart : s.party i = .start
    · exact h.check hstart outcome (halone.1 hstart)
    by_cases hbusy : (s.party i).Busy
    · refine h.put (setNameAct_underway outcome (h.underway i) hbusy halone.2.1 halone.2.2) ?_ ?_
      · intro j hj
        apply underway_of_not_active
        exact fun hactive => hj (h.one j i hactive (.inl hbusy))
      · exact fun _ j hactive => h.one j i hactive (.inl hbusy)
    · obtain ⟨err, hreturned⟩ : ∃ err, s.party i = .returned err := by
        cases hphase : s.party i with
        | start => exact absurd hphase hstart
        | returned err => exact ⟨err, rfl⟩
        | _ => exact absurd (by rw [hphase]; trivial) hbusy
      have hsame : (setNameTurn blob s (.client i outcome)).2 = s := by
        rw [setNameTurn, hreturned, setNameAct, ← hreturned, Shared.put_eq_self]
      rw [hsame]
      exact h

/-- In every run in which the commands are alone, flush their files and wait for init, the user is set
once, and stays. -/
theorem setNames_setOnce (blob : ι → Bytes) {files : UserFiles} (turns : List (SetNameTurn ι))
    (halone : ∀ e ∈ trace (setNameTurn blob) (SetNames.start files) turns,
      Orderly e.before e.input) :
    ∀ e ∈ trace (setNameTurn blob) (SetNames.start files) turns,
      SetOnce blob e.before ∧ SetOnce blob e.after := by
  have hstart : OneAtWork blob (SetNames.start files) := by
    refine ⟨fun i => trivial, ?_⟩
    exact fun i j hi => absurd hi not_active_start
  obtain ⟨hall, -⟩ := trace_invariant (setNameTurn blob) (OneAtWork blob) (SetNames.start files) turns
    hstart fun e he hbefore => by
      rw [eq_callOf_of_mem_trace _ he]
      exact hbefore.turn e.input (halone e he)
  intro e he
  exact ⟨(hall e he).1.setOnce, (hall e he).2.setOnce⟩

end Runs

section Alone

/-- The flush that keeps this much of a blob. -/
def flushOutcome (blob : Bytes) (kept : ℕ) : Outcome :=
  if blob.length ≤ kept then .succeeds 0 else .fails ⟨ EIO.code, by decide⟩ (blob.take kept) false

/-- A command that nothing but the flush fails for, and the copies of init before it returns. -/
def aloneTurns (flush : Outcome) : List (SetNameTurn Unit) :=
  List.replicate 3 (.client () (.succeeds 0)) ++
    [.client () flush, .client () (.succeeds 0), .init, .init, .client () (.succeeds 0)]

/-- Alone, a command that succeeds does what it does as a whole. -/
theorem setNameTurn_alone {c : SetName} {files : UserFiles} (hcopies : files.copies = [])
    (hzero : (setNameStep files.stored c).1 = 0) :
    ∃ data, (∃ hex ∈ c.args.head?, hexToBuf c.device.charSigned hex = some data) ∧
      (finalState (setNameTurn fun _ => data) (SetNames.start files)
        (aloneTurns (flushOutcome data c.kept))).party () = .returned 0 ∧
      (finalState (setNameTurn fun _ => data) (SetNames.start files)
        (aloneTurns (flushOutcome data c.kept))).store.stored = (setNameStep files.stored c).2 := by
  cases hstored : files.stored with
  | some user =>
    rw [hstored] at hzero
    exact absurd hzero (setNameStep_stored user c).1
  | none =>
    rw [hstored] at hzero
    rcases setNameStep_unset c with ⟨hne, -⟩ | ⟨-, hex, hhex, data, hdata, hafter⟩
    · exact absurd hzero hne
    · refine ⟨data, ⟨hex, hhex, hdata⟩, ?_⟩
      rw [hafter, flushOutcome]
      split_ifs with hkept
      · rw [List.take_of_length_le hkept]
        simp [aloneTurns, List.replicate, finalState, setNameTurn, SetNames.start, Shared.put,
          setNameAct, hstored, hcopies, newUserCopies, initAct, initCopy, writeAt_empty]
      · simp [aloneTurns, List.replicate, finalState, setNameTurn, SetNames.start, Shared.put,
          setNameAct, hstored, hcopies, newUserCopies, initAct, initCopy, writeAt_empty]

end Alone

section Example

/-- Two users with names of one letter. -/
def userBlob (i : Bool) : Bytes :=
  Request.DUMBOS_USER_DATA_MAGIC ++ (if i then 98 else 97) :: List.replicate 257 0

def noUser : UserFiles := ⟨none, none, none, []⟩

def setNamesRun (turns : List (SetNameTurn Bool)) : SetNames Bool :=
  finalState (setNameTurn userBlob) (SetNames.start noUser) turns

/-- The second command comes when the first one has returned. -/
def oneThenOther : List (SetNameTurn Bool) :=
  List.replicate 5 (.client false (.succeeds 0)) ++
    [.init, .init, .client false (.succeeds 0), .client true (.succeeds 0)]

theorem setNames_setOnce_oneThenOther : (setNamesRun oneThenOther).party false = .returned 0 ∧
    ∀ e ∈ trace (setNameTurn userBlob) (SetNames.start noUser) oneThenOther,
      SetOnce userBlob e.before ∧ SetOnce userBlob e.after :=
  ⟨by decide +kernel, setNames_setOnce userBlob oneThenOther (by decide +kernel)⟩

/-- Both commands look for a user before one of them has written its own. -/
def bothCheck : List (SetNameTurn Bool) :=
  [.client false (.succeeds 0), .client true (.succeeds 0)] ++
    List.replicate 5 (.client false (.succeeds 0)) ++ List.replicate 5 (.client true (.succeeds 0)) ++
    List.replicate 4 .init

/-- Both return 0; and a command that is alone returns 0 before its user is stored. -/
theorem not_setNames_setOnce :
    ((setNamesRun bothCheck).party false = .returned 0 ∧
      (setNamesRun bothCheck).party true = .returned 0 ∧ ¬SetOnce userBlob (setNamesRun bothCheck)) ∧
    ¬SetOnce userBlob (setNamesRun (List.replicate 6 (.client false (.succeeds 0)))) := by
  have hfalse : (setNamesRun bothCheck).party false = .returned 0 := by decide +kernel
  have htrue : (setNamesRun bothCheck).party true = .returned 0 := by decide +kernel
  refine ⟨⟨hfalse, htrue, ?_⟩, ?_⟩
  · intro honce
    cases (honce false hfalse).2.2 true htrue
  · intro honce
    have hzero : (setNamesRun (List.replicate 6 (.client false (.succeeds 0)))).party false =
        .returned 0 := by decide +kernel
    have hstored : (setNamesRun (List.replicate 6 (.client false (.succeeds 0)))).store.stored =
        none := by decide +kernel
    rw [(honce false hzero).1] at hstored
    cases hstored

end Example

end Dumbos.System
