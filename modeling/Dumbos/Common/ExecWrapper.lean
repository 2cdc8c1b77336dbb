import Dumbos.Common.Errno
import Dumbos.Foundation.Bytes
import Dumbos.Foundation.Descent

/-! # Running a program and waiting for it

`execv_wrapper` forks. The child calls `execv`, and a pipe that a successful `execv`
closes tells the parent whether it failed. Both processes and the kernel take their
steps in any order: calls of the parent are interrupted or fail, and a signal can
kill the child anywhere.
-/
namespace Dumbos.Common.ExecWrapper
open Foundation

/-- Error numbers of the kernel, which an `int` holds. -/
abbrev SysErrno := {e : Errno // (e : ℕ) < 4096}

structure Signal where
  number : ℕ
  pos : 0 < number
  lt : number < 127
deriving DecidableEq

/-- How a process ended. -/
inductive Fate where
  | exited (status : UInt8)
  | killed (signal : Signal) (core : Bool)
deriving DecidableEq

/-- The status word of `waitpid`. -/
def Fate.status : Fate → ℕ
  | .exited n => 256 * n.toNat
  | .killed s core => s.number + if core then 128 else 0

def WTERMSIG (status : ℕ) : ℕ := status % 128
def WIFEXITED (status : ℕ) : Bool := WTERMSIG status = 0
def WEXITSTATUS (status : ℕ) : ℕ := status / 256 % 256
def WIFSIGNALED (status : ℕ) : Bool := 0 < WTERMSIG status ∧ WTERMSIG status < 127

/-- The number that `sh` would report. -/
def Fate.number : Fate → ℕ
  | .exited n => n.toNat
  | .killed s _ => 128 + s.number

/-- What the child runs: the code behind `fork`, or the program. -/
inductive Image where
  | started
  | failed (e : SysErrno)
  | told (e : SysErrno) (written : Bool)
  | program
deriving DecidableEq

structure Child where
  image : Image
  fate : Option Fate
deriving DecidableEq

/-- Where the parent stands. Behind `read` it keeps the answer of it, and at the end that of
`waitpid` as well. -/
inductive Phase where
  | start
  | piped
  | ready
  | forked
  | reading
  | waiting (read : Except Errno Bytes)
  | failed (e : Errno)
  | returned (read : Except Errno Bytes) (wait : Except Errno ℕ)
deriving DecidableEq

structure State where
  phase : Phase
  child : Option Child
  pipe : Bytes
  readEnd : Bool
  writeEnd : Bool
  cloexec : Bool
  reaped : Bool
deriving DecidableEq

def start : State := ⟨.start, none, [], false, false, false, false⟩

/-- A call of one of the two, an exit of the program, or a signal. `parent (some e)` is a call that
fails. -/
inductive Move where
  | parent (err : Option Errno)
  | exec (err : Option SysErrno)
  | write (ok : Bool)
  | exit (status : UInt8)
  | kill (signal : Signal) (core : Bool)

/-- A process has the write end until it ends, or until `execv` closes it. -/
def Child.writes (cloexec : Bool) (c : Child) : Bool :=
  c.fate.isNone && !(cloexec && c.image = .program)

/-- `autoReap`: the caller ignores `SIGCHLD`, so that no status is kept for `waitpid`. -/
def parentStep (autoReap : Bool) (s : State) (err : Option Errno) : State :=
  match s.phase, err with
  | .start, none => { s with phase := .piped, readEnd := true, writeEnd := true }
  | .start, some e => { s with phase := .failed e }
  | .piped, none => { s with phase := .ready, cloexec := true }
  | .piped, some e => { s with phase := .failed e, readEnd := false, writeEnd := false }
  | .ready, none => { s with phase := .forked, child := some ⟨.started, none⟩ }
  | .ready, some e => { s with phase := .failed e, readEnd := false, writeEnd := false }
  | .forked, _ => { s with phase := .reading, writeEnd := false }
  | .reading, some e =>
    if e = EINTR then s else { s with phase := .waiting (.error e), readEnd := false }
  | .reading, none =>
    -- an empty pipe that can still be written to lets the parent wait
    if s.pipe = [] ∧ (s.writeEnd || s.child.any (Child.writes s.cloexec)) then s
    else { s with phase := .waiting (.ok (s.pipe.take 4)), pipe := s.pipe.drop 4, readEnd := false }
  | .waiting n, some e => if e = EINTR then s else { s with phase := .returned n (.error e) }
  | .waiting n, none =>
    match s.child.bind Child.fate with
    | none => s
    | some fate =>
      if autoReap then { s with phase := .returned n (.error ECHILD) }
      else { s with phase := .returned n (.ok fate.status), reaped := true }
  | .failed _, _ => s
  | .returned _ _, _ => s

/-- `readable`: the parent has not closed the read end. Without it the write fails. -/
def Child.step (readable : Bool) (c : Child) : Move → Child
  | .exec err =>
    match c, err with
    | ⟨.started, none⟩, none => ⟨.program, none⟩
    | ⟨.started, none⟩, some e => ⟨.failed e, none⟩
    | c, _ => c
  | .write ok =>
    match c with
    | ⟨.failed e, none⟩ => ⟨.told e (ok && readable), none⟩
    | c => c
  | .exit status =>
    match c with
    | ⟨.told e written, none⟩ => ⟨.told e written, some (.exited 127)⟩
    | ⟨.program, none⟩ => ⟨.program, some (.exited status)⟩
    | c => c
  | .kill signal core =>
    match c with
    | ⟨image, none⟩ => ⟨image, some (.killed signal core)⟩
    | c => c
  | .parent _ => c

/-- What a step of the child puts into the pipe, which takes four bytes as one. -/
def Child.tells (readable : Bool) (c : Child) : Move → Bytes
  | .write true =>
    match c with
    | ⟨.failed e, none⟩ => if readable then be32 e.val else []
    | _ => []
  | _ => []

def childStep (s : State) (move : Move) : State :=
  match s.child with
  | none => s
  | some c => { s with child := some (c.step s.readEnd move),
                       pipe := s.pipe ++ c.tells s.readEnd move }

def step (autoReap : Bool) (s : State) : Move → Unit × State
  | .parent err => ((), parentStep autoReap s err)
  | move => ((), childStep s move)

/-- -1 with an error number, or the status: what stands behind the calls of `read` and `waitpid`. -/
def answer (read : Except Errno Bytes) (wait : Except Errno ℕ) : Except ℕ ℕ :=
  match read with
  | .error e => .error e
  | .ok n =>
    if n.length ≠ 0 ∧ n.length ≠ 4 then .error EIO
    else match wait with
      | .error e => .error e
      | .ok status =>
        if n.length = 4 then .error (bigEndian n)
        else if WIFEXITED status then .ok (WEXITSTATUS status)
        else if WIFSIGNALED status then .ok (128 + WTERMSIG status)
        else .error ECHILD

section Child

/-- What the child has told its parent. -/
def Child.sent (c : Child) : Bytes :=
  match c.image with
  | .told e true => be32 e.val
  | _ => []

/-- Only `_exit(127)` and signals end a child whose `execv` has not succeeded. -/
def Child.Valid (c : Child) : Prop :=
  c.image = .program ∨ ∀ fate, c.fate = some fate → 127 ≤ fate.number

/-- The child has nothing to tell any more. -/
def Child.Settled (c : Child) : Prop :=
  c.fate.isSome ∨ c.image = .program ∨ c.sent ≠ []

/-- A child that has ended does nothing. -/
theorem Child.step_dead (readable : Bool) {c : Child} {fate : Fate} (h : c.fate = some fate)
    (move : Move) : c.step readable move = c ∧ c.tells readable move = [] := by
  rcases c with ⟨image, _⟩
  subst h
  cases move with
  | parent err => exact ⟨rfl, rfl⟩
  | exec err => cases image <;> exact ⟨rfl, rfl⟩
  | write ok => cases ok <;> cases image <;> exact ⟨rfl, rfl⟩
  | exit status => cases image <;> exact ⟨rfl, rfl⟩
  | kill signal core => exact ⟨rfl, rfl⟩

theorem Child.valid_step {c : Child} (h : c.Valid) (readable : Bool) (move : Move) :
    (c.step readable move).Valid := by
  cases hfate : c.fate with
  | some fate => rwa [(c.step_dead readable hfate move).1]
  | none =>
    rcases c with ⟨image, _⟩
    subst hfate
    cases move with
    | parent err => exact h
    | exec err => cases image <;> cases err <;> simp [Child.step, Child.Valid]
    | write ok => cases image <;> simp [Child.step, Child.Valid]
    | exit status => cases image <;> simp [Child.step, Child.Valid, Fate.number]
    | kill signal core =>
      refine .inr fun fate hfate => ?_
      rw [← Option.some.inj hfate, Fate.number]
      omega

theorem Child.sent_step (readable : Bool) (c : Child) (move : Move) :
    (c.step readable move).sent = c.sent ++ c.tells readable move := by
  cases hfate : c.fate with
  | some fate => rw [(c.step_dead readable hfate move).1, (c.step_dead readable hfate move).2,
      List.append_nil]
  | none =>
    rcases c with ⟨image, _⟩
    subst hfate
    cases move with
    | parent err => simp [Child.step, Child.tells]
    | exec err => cases image <;> cases err <;> simp [Child.step, Child.tells, Child.sent]
    | write ok =>
      cases image <;> cases ok <;> cases readable <;> simp [Child.step, Child.tells, Child.sent]
    | exit status => cases image <;> simp [Child.step, Child.tells, Child.sent]
    | kill signal core => simp [Child.step, Child.tells, Child.sent]

/-- Nobody can be told anything once the read end is closed. -/
theorem Child.tells_unreadable (c : Child) (move : Move) : c.tells false move = [] := by
  rcases c with ⟨image, fate⟩
  cases move with
  | write ok => cases ok <;> cases image <;> cases fate <;> rfl
  | _ => rfl

theorem Child.settled_step {c : Child} (h : c.Settled) (readable : Bool) (move : Move) :
    (c.step readable move).Settled := by
  cases hfate : c.fate with
  | some fate => rwa [(c.step_dead readable hfate move).1]
  | none =>
    rcases h with hdead | himage | hsent
    · rw [hfate] at hdead
      simp at hdead
    · rcases c with ⟨image, _⟩
      subst himage hfate
      cases move <;> simp [Child.step, Child.Settled]
    · refine .inr (.inr ?_)
      rw [Child.sent_step]
      exact List.append_ne_nil_of_left_ne_nil hsent _

end Child

section Invariant

def State.Closed (s : State) : Prop := s.readEnd = false ∧ s.writeEnd = false

/-- What `read` has brought is what the child has told, and all that it will tell. -/
def Heard (read : Except Errno Bytes) (c : Child) : Prop :=
  ∀ bytes, read = .ok bytes → bytes = c.sent ∧ c.Settled

/-- What `waitpid` has brought is how the child ended. -/
def Reaped (s : State) (wait : Except Errno ℕ) (c : Child) : Prop :=
  ∀ status, wait = .ok status → s.reaped = true ∧ ∃ fate, c.fate = some fate ∧ status = fate.status

/-- What holds at each place of the parent. -/
def Inv (s : State) : Prop :=
  match s.phase with
  | .start => s.child = none ∧ s.pipe = [] ∧ s.Closed
  | .piped => s.child = none ∧ s.pipe = []
  | .ready => s.child = none ∧ s.pipe = [] ∧ s.cloexec = true
  | .forked => s.cloexec = true ∧ ∃ c, s.child = some c ∧ c.Valid ∧ s.pipe = c.sent
  | .reading => s.cloexec = true ∧ s.writeEnd = false ∧
      ∃ c, s.child = some c ∧ c.Valid ∧ s.pipe = c.sent
  | .waiting read => s.Closed ∧ ∃ c, s.child = some c ∧ c.Valid ∧ Heard read c
  | .failed _ => s.child = none ∧ s.Closed
  | .returned read wait => s.Closed ∧
      ∃ c, s.child = some c ∧ c.Valid ∧ Heard read c ∧ Reaped s wait c

theorem inv_start : Inv start := ⟨rfl, rfl, rfl, rfl⟩

theorem heard_step {read : Except Errno Bytes} {c : Child} (h : Heard read c) (move : Move) :
    Heard read (c.step false move) := by
  intro bytes hread
  obtain ⟨hbytes, hsettled⟩ := h bytes hread
  rw [Child.sent_step, Child.tells_unreadable, List.append_nil]
  exact ⟨hbytes, Child.settled_step hsettled false move⟩

theorem inv_childStep {s : State} (h : Inv s) (move : Move) : Inv (childStep s move) := by
  rcases s with ⟨phase, child, pipe, readEnd, writeEnd, cloexec, reaped⟩
  cases child with
  | none => exact h
  | some c =>
    cases phase with
    | start => exact absurd h.1 (Option.some_ne_none c)
    | piped => exact absurd h.1 (Option.some_ne_none c)
    | ready => exact absurd h.1 (Option.some_ne_none c)
    | failed e => exact absurd h.1 (Option.some_ne_none c)
    | forked =>
      obtain ⟨hcloexec, c', hc, hvalid, hpipe⟩ := h
      obtain rfl : c = c' := Option.some.inj hc
      refine ⟨hcloexec, _, rfl, Child.valid_step hvalid readEnd move, ?_⟩
      rw [Child.sent_step]
      exact congrArg (· ++ c.tells readEnd move) hpipe
    | reading =>
      obtain ⟨hcloexec, hwrite, c', hc, hvalid, hpipe⟩ := h
      obtain rfl : c = c' := Option.some.inj hc
      refine ⟨hcloexec, hwrite, _, rfl, Child.valid_step hvalid readEnd move, ?_⟩
      rw [Child.sent_step]
      exact congrArg (· ++ c.tells readEnd move) hpipe
    | waiting read =>
      obtain ⟨⟨hread, hwrite⟩, c', hc, hvalid, hheard⟩ := h
      obtain rfl : c = c' := Option.some.inj hc
      obtain rfl : readEnd = false := hread
      exact ⟨⟨rfl, hwrite⟩, _, rfl, Child.valid_step hvalid false move, heard_step hheard move⟩
    | returned read wait =>
      obtain ⟨⟨hread, hwrite⟩, c', hc, hvalid, hheard, hreaped⟩ := h
      obtain rfl : c = c' := Option.some.inj hc
      obtain rfl : readEnd = false := hread
      refine ⟨⟨rfl, hwrite⟩, _, rfl, Child.valid_step hvalid false move, heard_step hheard move, ?_⟩
      intro status hwait
      obtain ⟨hdone, fate, hfate, hstatus⟩ := hreaped status hwait
      refine ⟨hdone, fate, ?_, hstatus⟩
      rw [(c.step_dead false hfate move).1, hfate]

theorem Child.sent_length (c : Child) : c.sent.length = 0 ∨ c.sent.length = 4 := by
  rcases c with ⟨image, fate⟩
  cases image with
  | told e written => cases written <;> simp [Child.sent]
  | _ => exact .inl rfl

/-- A pipe that nobody writes to has all that the child tells. -/
theorem heard_of_not_blocked {c : Child} (h : ¬(c.sent = [] ∧ c.writes true = true)) :
    Heard (.ok (c.sent.take 4)) c := by
  intro bytes hbytes
  constructor
  · rw [← Except.ok.inj hbytes]
    apply List.take_of_length_le
    rcases c.sent_length with hlen | hlen <;> omega
  · by_cases hsent : c.sent = []
    · have hwrites : c.writes true = false := by simpa [hsent] using h
      rw [Child.writes, Bool.true_and, Bool.and_eq_false_iff, Bool.not_eq_false',
        decide_eq_true_eq] at hwrites
      rcases hwrites with hdead | himage
      · exact .inl (by simpa using hdead)
      · exact .inr (.inl himage)
    · exact .inr (.inr hsent)

theorem inv_parentStep (autoReap : Bool) {s : State} (h : Inv s) (err : Option Errno) :
    Inv (parentStep autoReap s err) := by
  rcases s with ⟨phase, child, pipe, readEnd, writeEnd, cloexec, reaped⟩
  cases phase with
  | start => cases err with
    | none => exact ⟨h.1, h.2.1⟩
    | some e => exact ⟨h.1, h.2.2⟩
  | piped => cases err with
    | none => exact ⟨h.1, h.2, rfl⟩
    | some e => exact ⟨h.1, rfl, rfl⟩
  | ready => cases err with
    | none => exact ⟨h.2.2, _, rfl, .inr (by simp), h.2.1⟩
    | some e => exact ⟨h.1, rfl, rfl⟩
  | forked => exact ⟨h.1, rfl, h.2⟩
  | reading =>
    obtain ⟨hcloexec, hwrite, c, hc, hvalid, hpipe⟩ := h
    obtain rfl : child = some c := hc
    obtain rfl : cloexec = true := hcloexec
    obtain rfl : writeEnd = false := hwrite
    obtain rfl : pipe = c.sent := hpipe
    cases err with
    | some e =>
      by_cases he : e = EINTR
      · simp only [parentStep, if_pos he]
        exact ⟨rfl, rfl, c, rfl, hvalid, rfl⟩
      · simp only [parentStep, if_neg he]
        exact ⟨⟨rfl, rfl⟩, c, rfl, hvalid, by rintro _ ⟨⟩⟩
    | none =>
      by_cases hblocked : c.sent = [] ∧ c.writes true = true
      · simp only [parentStep, Option.any_some, Bool.false_or, if_pos hblocked]
        exact ⟨rfl, rfl, c, rfl, hvalid, rfl⟩
      · simp only [parentStep, Option.any_some, Bool.false_or, if_neg hblocked]
        exact ⟨⟨rfl, rfl⟩, c, rfl, hvalid, heard_of_not_blocked hblocked⟩
  | waiting read =>
    obtain ⟨hclosed, c, hc, hvalid, hheard⟩ := h
    obtain rfl : child = some c := hc
    cases err with
    | some e =>
      by_cases he : e = EINTR
      · simp only [parentStep, if_pos he]
        exact ⟨hclosed, c, rfl, hvalid, hheard⟩
      · simp only [parentStep, if_neg he]
        exact ⟨hclosed, c, rfl, hvalid, hheard, by rintro _ ⟨⟩⟩
    | none =>
      cases hfate : c.fate with
      | none =>
        simp only [parentStep, Option.bind_some, hfate]
        exact ⟨hclosed, c, rfl, hvalid, hheard⟩
      | some fate =>
        simp only [parentStep, Option.bind_some, hfate]
        cases autoReap with
        | true => exact ⟨hclosed, c, rfl, hvalid, hheard, by rintro _ ⟨⟩⟩
        | false =>
          refine ⟨hclosed, c, rfl, hvalid, hheard, ?_⟩
          rintro _ ⟨⟩
          exact ⟨rfl, fate, hfate, rfl⟩
  | failed e => exact h
  | returned read wait => exact h

theorem inv_step (autoReap : Bool) (s : State) (move : Move) (h : Inv s) :
    Inv (step autoReap s move).2 := by
  cases move with
  | parent err => exact inv_parentStep autoReap h err
  | _ => exact inv_childStep h _

theorem inv_run (autoReap : Bool) (moves : List Move) :
    Inv (finalState (step autoReap) start moves) :=
  finalState_invariant (step autoReap) Inv inv_start (inv_step autoReap) moves

/-- Which answers of `read` and `waitpid` are errors, and where they come from. -/
def Blamed (autoReap : Bool) (moves : List Move) (s : State) : Prop :=
  match s.phase with
  | .waiting read => ∀ e, read = .error e → e ≠ EINTR ∧ .parent (some e) ∈ moves
  | .returned read wait => (∀ e, read = .error e → e ≠ EINTR ∧ .parent (some e) ∈ moves) ∧
      match wait with
      | .error e => e ≠ EINTR ∧ .parent (some e) ∈ moves ∨ autoReap = true ∧ e = ECHILD
      | .ok _ => autoReap = false
  | _ => True

theorem blamed_mono {autoReap : Bool} {moves : List Move} {s : State}
    (h : Blamed autoReap moves s) (move : Move) : Blamed autoReap (moves ++ [move]) s := by
  rcases s with ⟨phase, child, pipe, readEnd, writeEnd, cloexec, reaped⟩
  cases phase with
  | waiting read =>
    intro e hread
    obtain ⟨hne, hmem⟩ := h e hread
    exact ⟨hne, List.mem_append_left _ hmem⟩
  | returned read wait =>
    refine ⟨fun e hread => ?_, ?_⟩
    · obtain ⟨hne, hmem⟩ := h.1 e hread
      exact ⟨hne, List.mem_append_left _ hmem⟩
    · cases wait with
      | ok status => exact h.2
      | error e => exact h.2.imp_left (And.imp_right (List.mem_append_left _))
  | _ => trivial

theorem blamed_childStep {autoReap : Bool} {moves : List Move} {s : State}
    (h : Blamed autoReap moves s) (move : Move) : Blamed autoReap moves (childStep s move) := by
  rcases s with ⟨phase, child, pipe, readEnd, writeEnd, cloexec, reaped⟩
  cases child with
  | none => exact h
  | some c => exact h

theorem blamed_parentStep {autoReap : Bool} {moves : List Move} {s : State}
    (h : Blamed autoReap moves s) (err : Option Errno) :
    Blamed autoReap (moves ++ [.parent err]) (parentStep autoReap s err) := by
  have hold := blamed_mono h (.parent err)
  rcases s with ⟨phase, child, pipe, readEnd, writeEnd, cloexec, reaped⟩
  cases phase with
  | start => cases err <;> trivial
  | piped => cases err <;> trivial
  | ready => cases err <;> trivial
  | forked => trivial
  | reading =>
    cases err with
    | none =>
      simp only [parentStep]
      split_ifs
      · trivial
      · rintro _ ⟨⟩
    | some e =>
      by_cases he : e = EINTR
      · simp only [parentStep, if_pos he]
        trivial
      · simp only [parentStep, if_neg he]
        rintro _ ⟨⟩
        exact ⟨he, by simp⟩
  | waiting read =>
    cases err with
    | none =>
      cases hfate : child.bind Child.fate with
      | none =>
        simp only [parentStep, hfate]
        exact hold
      | some fate =>
        simp only [parentStep, hfate]
        cases autoReap with
        | true => exact ⟨hold, .inr ⟨rfl, rfl⟩⟩
        | false => exact ⟨hold, rfl⟩
    | some e =>
      by_cases he : e = EINTR
      · simp only [parentStep, if_pos he]
        exact hold
      · simp only [parentStep, if_neg he]
        exact ⟨hold, .inl ⟨he, by simp⟩⟩
  | failed e => trivial
  | returned read wait => exact hold

theorem blamed_run (autoReap : Bool) (moves : List Move) :
    Blamed autoReap moves (finalState (step autoReap) start moves) := by
  apply run_induction (step autoReap) (Blamed autoReap) start trivial
  intro moves move hrun
  cases move with
  | parent err => exact blamed_parentStep hrun err
  | _ => exact blamed_mono (blamed_childStep hrun _) _

end Invariant

section Answer

/-- What a caller should be told about a child. -/
def Child.report (c : Child) (fate : Fate) : Except ℕ ℕ :=
  match c.image with
  | .told e true => .error e.val
  | _ => .ok fate.number

/-- The macros read the number back from the status word. -/
theorem status_number (fate : Fate) :
    (if WIFEXITED fate.status then Except.ok (WEXITSTATUS fate.status)
      else if WIFSIGNALED fate.status then .ok (128 + WTERMSIG fate.status)
      else .error (ECHILD : ℕ)) = .ok fate.number := by
  cases fate with
  | exited n =>
    have hterm : WTERMSIG (Fate.exited n).status = 0 := by
      rw [WTERMSIG, Fate.status]
      omega
    have hexit : WEXITSTATUS (Fate.exited n).status = n.toNat := by
      rw [WEXITSTATUS, Fate.status, Nat.mul_div_cancel_left _ (by norm_num),
        Nat.mod_eq_of_lt n.toNat_lt]
    rw [WIFEXITED, if_pos (by simpa using hterm), hexit, Fate.number]
  | killed signal core =>
    have hpos := signal.pos
    have hlt := signal.lt
    have hterm : WTERMSIG (Fate.killed signal core).status = signal.number := by
      rw [WTERMSIG, Fate.status]
      split <;> omega
    rw [WIFEXITED, WIFSIGNALED, hterm, if_neg (by simpa using hpos.ne'), if_pos (by simpa using ⟨hpos, hlt⟩),
      Fate.number]

/-- With both calls answered the caller is told what has happened. -/
theorem answer_of_heard {c : Child} {fate : Fate} {bytes : Bytes} (h : bytes = c.sent) :
    answer (.ok bytes) (.ok fate.status) = c.report fate := by
  subst h
  rcases c with ⟨image, f⟩
  cases image with
  | told e written => cases written with
    | false => simp [answer, Child.sent, Child.report, status_number]
    | true =>
      have hlt : (e.val : ℕ) < 4294967296 := lt_trans e.property (by norm_num)
      simp [answer, Child.sent, Child.report, bigEndian_be32, Nat.mod_eq_of_lt hlt]
  | _ => simp [answer, Child.sent, Child.report, status_number]

theorem answer_eq_ok {read : Except Errno Bytes} {wait : Except Errno ℕ} {n : ℕ}
    (h : answer read wait = .ok n) : (∃ bytes, read = .ok bytes) ∧ ∃ status, wait = .ok status := by
  cases read with
  | error e => cases h
  | ok bytes =>
    cases wait with
    | ok status => exact ⟨⟨bytes, rfl⟩, status, rfl⟩
    | error e =>
      rw [answer] at h
      split_ifs at h

theorem report_eq_ok {c : Child} (hvalid : c.Valid) {fate : Fate} (hfate : c.fate = some fate)
    {n : UInt8} (hn : n.toNat < 127) (h : c.report fate = .ok n.toNat) :
    c.image = .program ∧ fate = .exited n := by
  have hnumber : fate.number = n.toNat := by
    rw [Child.report] at h
    split at h
    · cases h
    · exact Except.ok.inj h
  constructor
  · rcases hvalid with himage | hlarge
    · exact himage
    · have := hlarge fate hfate
      omega
  · cases fate with
    | exited m => exact congrArg Fate.exited (UInt8.toNat_inj.mp hnumber)
    | killed signal core =>
      rw [Fate.number] at hnumber
      omega

end Answer

section Results

/-- Calls of the parent are interrupted, but do not fail. -/
def OnlyInterrupted (moves : List Move) : Prop := ∀ e, .parent (some e) ∈ moves → e = EINTR

/-- However the steps of the two processes and the kernel are ordered: when `execv_wrapper` returns,
it has closed both ends of its pipe. Where there is no child its calls before `fork` have failed.
Otherwise the child has been reaped unless `waitpid` failed, a status below 127 is the one with which
the program exited, and where `read` and `waitpid` were at most interrupted the caller is told the
error of `execv`, or how the child ended. -/
theorem execv_wrapper_truth (moves : List Move) :
    (∀ e, (finalState (step false) start moves).phase = .failed e →
      (finalState (step false) start moves).Closed ∧
      (finalState (step false) start moves).child = none) ∧
    ∀ read wait, (finalState (step false) start moves).phase = .returned read wait →
      (finalState (step false) start moves).Closed ∧
      ∃ c, (finalState (step false) start moves).child = some c ∧
        ((finalState (step false) start moves).reaped = true ∨ ∃ e, wait = .error e) ∧
        (∀ n : UInt8, n.toNat < 127 → answer read wait = .ok n.toNat →
          c = ⟨.program, some (.exited n)⟩) ∧
        (OnlyInterrupted moves → (finalState (step false) start moves).reaped = true ∧
          ∃ fate, c.fate = some fate ∧ answer read wait = c.report fate) := by
  have hinv := inv_run false moves
  have hblamed := blamed_run false moves
  generalize finalState (step false) start moves = s at *
  rcases s with ⟨phase, child, pipe, readEnd, writeEnd, cloexec, reaped⟩
  constructor
  · rintro e ⟨⟩
    exact ⟨hinv.2, hinv.1⟩
  · rintro read wait ⟨⟩
    obtain ⟨hclosed, c, hc, hvalid, hheard, hreaped⟩ := hinv
    refine ⟨hclosed, c, hc, ?_, ?_, ?_⟩
    · cases wait with
      | ok status => exact .inl (hreaped status rfl).1
      | error e => exact .inr ⟨e, rfl⟩
    · intro n hn hanswer
      obtain ⟨⟨bytes, rfl⟩, status, rfl⟩ := answer_eq_ok hanswer
      obtain ⟨-, fate, hfate, rfl⟩ := hreaped status rfl
      rw [answer_of_heard (hheard bytes rfl).1] at hanswer
      obtain ⟨himage, hexit⟩ := report_eq_ok hvalid hfate hn hanswer
      rcases c with ⟨image, f⟩
      rw [show image = .program from himage, show f = _ from hfate, hexit]
    · intro hcalls
      obtain ⟨hread, hwait⟩ := hblamed
      cases read with
      | error e => exact absurd (hcalls e (hread e rfl).2) (hread e rfl).1
      | ok bytes =>
        cases wait with
        | error e =>
          rcases hwait with ⟨hne, hmem⟩ | ⟨hno, -⟩
          · exact absurd (hcalls e hmem) hne
          · cases hno
        | ok status =>
          obtain ⟨hdone, fate, hfate, rfl⟩ := hreaped status rfl
          exact ⟨hdone, fate, hfate, answer_of_heard (hheard bytes rfl).1⟩

/-- A program that exits with 3 while `waitpid` is interrupted. -/
theorem execv_wrapper_truth_exit_three :
    ∃ fate, finalState (step false) start [.parent none, .parent none, .parent none, .exec none,
        .parent none, .parent none, .parent (some EINTR), .exit 3, .parent none] =
      ⟨.returned (.ok []) (.ok 768), some ⟨.program, some fate⟩, [], false, false, true, true⟩ ∧
      answer (.ok []) (.ok 768) = (Child.mk .program (some fate)).report fate := by
  obtain ⟨-, c, hc, -, hexit, -⟩ := (execv_wrapper_truth [.parent none, .parent none,
    .parent none, .exec none, .parent none, .parent none, .parent (some EINTR), .exit 3,
    .parent none]).2 (.ok []) (.ok 768) rfl
  obtain rfl := hexit 3 (by decide) rfl
  exact ⟨.exited 3, rfl, rfl⟩

/-- A caller that ignores `SIGCHLD` is never told a status, and not why `execv` failed either. -/
theorem execv_wrapper_sigchld_ignored (moves : List Move) {read : Except Errno Bytes}
    {wait : Except Errno ℕ}
    (h : (finalState (step true) start moves).phase = .returned read wait) :
    (∀ n, answer read wait ≠ .ok n) ∧
    (OnlyInterrupted moves → answer read wait = .error (ECHILD : ℕ)) := by
  have hinv := inv_run true moves
  have hblamed := blamed_run true moves
  generalize finalState (step true) start moves = s at *
  rcases s with ⟨phase, child, pipe, readEnd, writeEnd, cloexec, reaped⟩
  obtain rfl : phase = .returned read wait := h
  obtain ⟨-, c, -, -, hheard, -⟩ := hinv
  obtain ⟨hread, hwait⟩ := hblamed
  constructor
  · intro n hanswer
    obtain ⟨-, status, rfl⟩ := answer_eq_ok hanswer
    exact Bool.noConfusion hwait
  · intro hcalls
    cases read with
    | error e => exact absurd (hcalls e (hread e rfl).2) (hread e rfl).1
    | ok bytes =>
      have hlength := c.sent_length
      rw [← (hheard bytes rfl).1] at hlength
      cases wait with
      | ok status => exact Bool.noConfusion hwait
      | error e =>
        rcases hwait with ⟨hne, hmem⟩ | ⟨-, rfl⟩
        · exact absurd (hcalls e hmem) hne
        · rw [answer, if_neg (by omega)]

/-- A failed `execv` behind an ignored `SIGCHLD`. -/
theorem execv_wrapper_sigchld_ignored_no_program :
    answer (.ok [0, 0, 0, 2]) (.error ECHILD) = .error 10 :=
  (execv_wrapper_sigchld_ignored [.parent none, .parent none, .parent none,
    .exec (some ⟨ENOENT, by decide⟩), .parent none, .write true, .parent none, .exit 0,
    .parent none] rfl).2 (by simp [OnlyInterrupted])

end Results

section Progress

def Phase.left : Phase → ℕ
  | .start => 6
  | .piped => 5
  | .ready => 4
  | .forked => 3
  | .reading => 2
  | .waiting _ => 1
  | .failed _ => 0
  | .returned _ _ => 0

def Child.left (c : Child) : ℕ :=
  match c.fate, c.image with
  | some _, _ => 0
  | none, .started => 3
  | none, .failed _ => 2
  | none, .told _ _ => 1
  | none, .program => 1

/-- How many steps of the two processes are left. -/
def State.left (s : State) : ℕ := s.phase.left + s.child.elim 3 Child.left

def State.AtRest (s : State) : Prop := s.phase.left = 0

/-- A step that the two processes take of their own accord, without a failing call or a signal. -/
def Move.Own : Move → Prop
  | .parent err => err = none
  | .exec err => err = none
  | .write ok => ok = true
  | .exit _ => True
  | .kill _ _ => False

theorem Child.left_step (readable : Bool) (c : Child) (move : Move) :
    c.step readable move = c ∧ c.tells readable move = [] ∨
      (c.step readable move).left < c.left := by
  cases hfate : c.fate with
  | some fate => exact .inl (c.step_dead readable hfate move)
  | none =>
    rcases c with ⟨image, _⟩
    subst hfate
    cases move with
    | parent err => exact .inl ⟨rfl, rfl⟩
    | exec err => cases image <;> cases err <;> simp [Child.step, Child.tells, Child.left]
    | write ok => cases image <;> cases ok <;> simp [Child.step, Child.tells, Child.left]
    | exit status => cases image <;> simp [Child.step, Child.tells, Child.left]
    | kill signal core => cases image <;> simp [Child.step, Child.left]

theorem left_childStep {s : State} {move : Move} (h : childStep s move ≠ s) :
    (childStep s move).left < s.left := by
  rcases s with ⟨phase, child, pipe, readEnd, writeEnd, cloexec, reaped⟩
  cases child with
  | none => exact absurd rfl h
  | some c =>
    rcases c.left_step readEnd move with ⟨hstep, htells⟩ | hlower
    · refine absurd ?_ h
      simp only [childStep, hstep, htells, List.append_nil]
    · exact Nat.add_lt_add_left hlower _

theorem left_parentStep {autoReap : Bool} {s : State} (hinv : Inv s) {err : Option Errno}
    (h : parentStep autoReap s err ≠ s) : (parentStep autoReap s err).left < s.left := by
  rcases s with ⟨phase, child, pipe, readEnd, writeEnd, cloexec, reaped⟩
  cases phase with
  | start => cases err <;> simp [parentStep, State.left, Phase.left]
  | piped => cases err <;> simp [parentStep, State.left, Phase.left]
  | ready =>
    obtain rfl : child = none := hinv.1
    cases err <;> simp [parentStep, State.left, Phase.left, Child.left]
  | forked => simp [parentStep, State.left, Phase.left]
  | reading =>
    cases err with
    | none =>
      simp only [parentStep] at h ⊢
      split_ifs at h ⊢
      · exact absurd rfl h
      · simp [State.left, Phase.left]
    | some e =>
      simp only [parentStep] at h ⊢
      split_ifs at h ⊢
      · exact absurd rfl h
      · simp [State.left, Phase.left]
  | waiting read =>
    cases err with
    | none =>
      cases hfate : child.bind Child.fate with
      | none =>
        simp only [parentStep, hfate] at h
        exact absurd rfl h
      | some fate =>
        simp only [parentStep, hfate]
        cases autoReap <;> simp [State.left, Phase.left]
    | some e =>
      simp only [parentStep] at h ⊢
      split_ifs at h ⊢
      · exact absurd rfl h
      · simp [State.left, Phase.left]
  | failed e => exact absurd rfl h
  | returned read wait => exact absurd rfl h

theorem left_step (autoReap : Bool) (s : State) (move : Move) (hinv : Inv s)
    (h : (step autoReap s move).2 ≠ s) : (step autoReap s move).2.left < s.left := by
  cases move with
  | parent err => exact left_parentStep hinv h
  | _ => exact left_childStep h

/-- A child that has not ended goes on by itself. -/
theorem exists_own_of_alive (autoReap : Bool) {s : State} {c : Child} (hc : s.child = some c)
    (halive : c.fate = none) : ∃ move : Move, move.Own ∧ (step autoReap s move).2 ≠ s := by
  rcases s with ⟨phase, child, pipe, readEnd, writeEnd, cloexec, reaped⟩
  obtain rfl : child = some c := hc
  rcases c with ⟨image, _⟩
  subst halive
  cases image with
  | started => exact ⟨.exec none, rfl, by simp [step, childStep, Child.step]⟩
  | failed e => exact ⟨.write true, rfl, by simp [step, childStep, Child.step]⟩
  | told e written => exact ⟨.exit 0, trivial, by simp [step, childStep, Child.step]⟩
  | program => exact ⟨.exit 0, trivial, by simp [step, childStep, Child.step]⟩

/-- The parent waits only for a child that goes on. -/
theorem exists_own (autoReap : Bool) (s : State) (hinv : Inv s) (h : ¬s.AtRest) :
    ∃ move : Move, move.Own ∧ (step autoReap s move).2 ≠ s := by
  rcases s with ⟨phase, child, pipe, readEnd, writeEnd, cloexec, reaped⟩
  cases phase with
  | start => exact ⟨.parent none, rfl, by simp [step, parentStep]⟩
  | piped => exact ⟨.parent none, rfl, by simp [step, parentStep]⟩
  | ready => exact ⟨.parent none, rfl, by simp [step, parentStep]⟩
  | forked => exact ⟨.parent none, rfl, by simp [step, parentStep]⟩
  | reading =>
    obtain ⟨-, hwrite, c, hc, -, -⟩ := hinv
    obtain rfl : child = some c := hc
    cases hfate : c.fate with
    | none => exact exists_own_of_alive autoReap rfl hfate
    | some fate =>
      refine ⟨.parent none, rfl, ?_⟩
      obtain rfl : writeEnd = false := hwrite
      simp [step, parentStep, Child.writes, hfate]
  | waiting read =>
    obtain ⟨-, c, hc, -, -⟩ := hinv
    obtain rfl : child = some c := hc
    cases hfate : c.fate with
    | none => exact exists_own_of_alive autoReap rfl hfate
    | some fate =>
      refine ⟨.parent none, rfl, ?_⟩
      cases autoReap <;> simp [step, parentStep, hfate]
  | failed e => exact absurd rfl h
  | returned read wait => exact absurd rfl h

/-- No run has more than nine steps that are not interrupted or waiting ones, and from wherever it
has come to the two processes finish by themselves: neither waits for ever for the other. -/
theorem execv_wrapper_progress (autoReap : Bool) (moves : List Move) :
    changes (step autoReap) start moves ≤ 9 ∧
    ∃ more : List Move, (∀ move ∈ more, move.Own) ∧
      (finalState (step autoReap) start (moves ++ more)).AtRest := by
  constructor
  · have hpaid := changes_le (inv_step autoReap) (left_step autoReap) inv_start moves
    have hstart : start.left = 9 := rfl
    omega
  · obtain ⟨more, hown, hrest⟩ := exists_rest {move | move.Own} (inv_step autoReap)
      (left_step autoReap) (exists_own autoReap) (inv_run autoReap moves)
    refine ⟨more, hown, ?_⟩
    rw [finalState_append]
    exact hrest

end Progress

end Dumbos.Common.ExecWrapper
