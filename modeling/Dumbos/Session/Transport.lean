import Dumbos.Common.Fd
import Dumbos.Foundation.Conversation
import Dumbos.Session.Handler

/-! # The arguments on their way

The client up to the point where it waits for messages, and the handler up to the
call of `do_command`, as programs over calls that the system cuts into pieces. On a
stream that is there as a whole the handler is the one of a session.
-/
namespace Dumbos.Session.Transport
open Foundation Common Daemon

section Client

def writeStrings : List Bytes → (Except Errno Unit → Io Errno (Except ℤ Unit)) →
    Io Errno (Except ℤ Unit)
  | [], k => k (.ok ())
  | s :: ss, k => Fd.writeString s fun
    | .error err => k (.error err)
    | .ok _ => writeStrings ss k

/-- The version and what the client does behind it; an error ends it. -/
def writeVersion (k : Io Errno (Except ℤ Unit)) : Io Errno (Except ℤ Unit) :=
  Fd.writeString VERSION_STRING fun
    | .error err => .done (.error err.code)
    | .ok _ => Fd.writeUshort VERSION_MAJOR fun
      | .error err => .done (.error err.code)
      | .ok _ => Fd.writeUshort VERSION_MINOR fun
        | .error err => .done (.error err.code)
        | .ok _ => Fd.writeUshort VERSION_PATCH fun
          | .error err => .done (.error err.code)
          | .ok _ => k

/-- `client` until it has sent its arguments; an error is the value that it returns. -/
def client (argv : List Bytes) : Io Errno (Except ℤ Unit) :=
  writeVersion <| Fd.readUshort fun
    | .error err => .done (.error err.code)
    | .ok feedback =>
      if feedback ≠ 0 then .done (.error feedback)
      else Fd.writeUshort argv.length fun
        | .error err => .done (.error err.code)
        | .ok _ => writeStrings argv fun
          | .error err => .done (.error err.code)
          | .ok _ => .done (.ok ())

end Client

section Handler

/-- How far `handler` comes: it has returned, or it calls `do_command`. -/
inductive Stage where
  | returned (ret : ℤ)
  | command (argv : List Bytes)

def readVersion (memory : Bool) (k : Except Errno (ℕ × ℕ × ℕ) → Io Errno Stage) : Io Errno Stage :=
  Fd.mallocReadString memory fun
    | .error err => k (.error err)
    | .ok _ => Fd.readUshort fun
      | .error err => k (.error err)
      | .ok major => Fd.readUshort fun
        | .error err => k (.error err)
        | .ok minor => Fd.readUshort fun
          | .error err => k (.error err)
          | .ok patch => k (.ok (major, minor, patch))

def readArgs : ℕ → (ℕ → Bool) → (Except Errno (List Bytes) → Io Errno Stage) → Io Errno Stage
  | 0, _, k => k (.ok [])
  | argc + 1, memory, k => Fd.mallocReadString (memory 0) fun
    | .error err => k (.error err)
    | .ok arg => readArgs argc (fun i => memory (i + 1)) fun args => k (args.map (arg :: ·))

/-- Behind the arguments; an error is reported here and once more at the end. -/
def command : Except Errno (List Bytes) → Io Errno Stage
  | .error err =>
    Fd.writeString (ascii "internal error") fun _ => Fd.writeString [] fun _ =>
      Fd.writeUshort err.code fun _ => Fd.writeString [] fun _ =>
        Fd.writeUshort err.code fun _ => .done (.returned err.code)
  | .ok argv => .done (.command argv)

/-- Behind the handshake. -/
def serve (memory : ℕ → Bool) (errno : ℕ) : Io Errno Stage :=
  Fd.readUshort fun
    | .error _ => .done (.returned EPROTO.code)
    | .ok argc =>
      if argc = 0 then
        Fd.writeString (ascii "No command") fun _ => Fd.writeString [] fun _ =>
          Fd.writeUshort 0 fun _ => .done (.returned 0)
      else if MAX_ARGS < argc then
        Fd.writeString (ascii "too many arguments") fun _ =>
          Fd.writeUshort E2BIG.code fun _ => .done (.returned E2BIG.code)
      else if !memory 0 then
        Fd.writeString (ascii "internal error") fun _ => Fd.writeString [] fun _ =>
          Fd.writeUshort errno fun _ => .done (.returned errno)
      else readArgs argc (fun i => memory (i + 1)) command

/-- `handler` up to the call of `do_command`. `memory` says which allocations succeed, and `errno` is
what `calloc` leaves if it fails. -/
def handler (memory : ℕ → Bool) (errno : ℕ) : Io Errno Stage :=
  readVersion (memory 0) fun
    | .error err => .done (.returned err.code)
    | .ok version =>
      if version ≠ (VERSION_MAJOR, VERSION_MINOR, VERSION_PATCH) then
        Fd.writeUshort EPROTO.code fun _ => .done (.returned EPROTO.code)
      else Fd.writeUshort 0 fun _ => serve (fun i => memory (i + 1)) errno

end Handler

section Drive
variable {argv : List Bytes}

theorem drive_writeStrings (h : ∀ arg ∈ argv, Sendable arg)
    (k : Except Errno Unit → Io Errno (Except ℤ Unit)) (input : Bytes) :
    (writeStrings argv k).drive input =
      (frames argv ++ ((k (.ok ())).drive input).1, ((k (.ok ())).drive input).2) := by
  induction argv with
  | nil => rfl
  | cons arg argv ih =>
    rw [writeStrings, Fd.drive_writeString (h arg (by simp)),
      ih fun a ha => h a (List.mem_cons_of_mem _ ha), frames_cons, List.append_assoc]

theorem version_sendable : Sendable VERSION_STRING := ⟨by decide +kernel, by decide +kernel⟩

theorem drive_writeVersion (k : Io Errno (Except ℤ Unit)) (input : Bytes) :
    (writeVersion k).drive input = (hello ++ (k.drive input).1, (k.drive input).2) := by
  rw [writeVersion, Fd.drive_writeString version_sendable]
  simp only [Fd.drive_writeUshort, hello, List.append_assoc]

/-- The client waits for an answer to its version. -/
theorem drive_client_start : ((client argv).drive []).1 = hello := by
  rw [client, drive_writeVersion]
  exact List.append_nil _

theorem drive_client (h : ∀ arg ∈ argv, Sendable arg) :
    (client argv).drive (writeUshort 0) = (request argv, .done (.ok ())) := by
  rw [client, drive_writeVersion, ← List.append_nil (writeUshort 0), Fd.drive_readUshort]
  simp only [Int.zero_emod, Int.toNat_zero, ne_eq, not_true_eq_false, if_false, Fd.drive_writeUshort,
    drive_writeStrings h, Io.drive, List.append_nil, request]

theorem drive_readArgs (h : ∀ arg ∈ argv, Sendable arg) {memory : ℕ → Bool}
    (hmemory : ∀ i, memory i = true) (k : Except Errno (List Bytes) → Io Errno Stage) (rest : Bytes) :
    (readArgs argv.length memory k).drive (frames argv ++ rest) = (k (.ok argv)).drive rest := by
  induction argv generalizing memory k with
  | nil => rfl
  | cons arg argv ih =>
    rw [List.length_cons, readArgs, frames_cons, List.append_assoc, hmemory,
      Fd.drive_mallocReadString (h arg (by simp))]
    exact ih (fun a ha => h a (List.mem_cons_of_mem _ ha)) (fun i => hmemory (i + 1)) _

theorem drive_readVersion (k : Except Errno (ℕ × ℕ × ℕ) → Io Errno Stage) (rest : Bytes) :
    (readVersion true k).drive (hello ++ rest) =
      (k (.ok (VERSION_MAJOR, VERSION_MINOR, VERSION_PATCH))).drive rest := by
  rw [readVersion, hello, List.append_assoc, Fd.drive_mallocReadString version_sendable]
  simp only [List.append_assoc, Fd.drive_readUshort]
  rfl

variable {memory : ℕ → Bool} (hmemory : ∀ i, memory i = true) (errno : ℕ)
include hmemory

/-- The handler answers the version of the client. -/
theorem drive_handler_hello (rest : Bytes) :
    (handler memory errno).drive (hello ++ rest) =
      (writeUshort 0 ++ ((serve (fun i => memory (i + 1)) errno).drive rest).1,
        ((serve (fun i => memory (i + 1)) errno).drive rest).2) := by
  rw [handler, hmemory, drive_readVersion]
  rfl

theorem drive_handler (hne : argv ≠ []) (hfew : argv.length ≤ MAX_ARGS)
    (h : ∀ arg ∈ argv, Sendable arg) :
    (handler memory errno).drive (request argv) = (writeUshort 0, .done (.command argv)) := by
  have hcount : ((argv.length : ℤ) % 65536).toNat = argv.length := by
    rw [MAX_ARGS] at hfew
    omega
  have hpos : argv.length ≠ 0 := fun hzero => hne (List.length_eq_zero_iff.mp hzero)
  have hargs := drive_readArgs h (fun i => hmemory (i + 1 + 1)) command []
  rw [List.append_nil] at hargs
  rw [request, drive_handler_hello hmemory, serve, Fd.drive_readUshort, hcount]
  simp only [if_neg hpos, if_neg (not_lt.mpr hfew), hmemory (0 + 1), Bool.not_true, Bool.false_eq_true,
    if_false]
  rw [hargs]
  rfl

theorem drive_handler_start : ((handler memory errno).drive []).1 = [] := by
  rw [handler, hmemory]
  rfl

end Drive

section Eval
variable (D : Device)

/-- Which of the allocations from now on succeed. -/
def memoryOf (s : State) (i : ℕ) : Bool := 0 ≤ (D.reply (s.ticks + i)).ret

theorem memoryOf_succ (s : State) :
    (fun i => memoryOf D s (i + 1)) = memoryOf D { s with ticks := s.ticks + 1 } := by
  funext i
  rw [memoryOf, memoryOf, Nat.add_assoc, Nat.add_comm 1]

theorem eval_readVersion (memory : Bool) {k : Except Errno (ℕ × ℕ × ℕ) → Io Errno Stage}
    (hk : ∀ err, Fd.Deaf (k (.error err))) (input : Bytes) :
    (readVersion memory k).eval EPIPE input = match Session.readVersion memory input with
      | .error err => (k (.error err)).close EPIPE
      | .ok (version, rest) => (k (.ok version)).eval EPIPE rest := by
  rw [readVersion, Fd.eval_mallocReadString memory hk, Session.readVersion]
  cases mallocReadString .closed memory input with
  | error err => rfl
  | ok r =>
    simp only [bind, Except.bind, Fd.eval_readUshort]
    cases Common.readUshort .closed r.2 with
    | error err => rfl
    | ok major =>
      simp only
      cases Common.readUshort .closed major.2 with
      | error err => rfl
      | ok minor =>
        simp only
        cases Common.readUshort .closed minor.2 with
        | error err => rfl
        | ok patch => rfl

theorem eval_readArgs (argc : ℕ) (s : State) {k : Except Errno (List Bytes) → Io Errno Stage}
    (hk : ∀ r, Fd.Deaf (k r)) (input : Bytes) :
    (readArgs argc (memoryOf D s) k).eval EPIPE input =
      (k (Session.readArgs D argc input s).1).close EPIPE := by
  induction argc generalizing s k input with
  | zero => exact hk _ input
  | succ argc ih =>
    rw [readArgs, Fd.eval_mallocReadString _ (fun err => hk _), Session.readArgs]
    simp only [bind, StateT.bind, call]
    have hmalloc : decide (0 ≤ (D.reply s.ticks).ret) = memoryOf D s 0 := rfl
    rw [hmalloc]
    cases mallocReadString .closed (memoryOf D s 0) input with
    | error err => rfl
    | ok r =>
      simp only
      rw [memoryOf_succ, ih _ (fun r => hk _)]
      rfl

theorem deaf_command (r : Except Errno (List Bytes)) : Fd.Deaf (command r) := by
  cases r with
  | ok argv => exact Fd.deaf_done _
  | error err =>
    rw [command]
    apply Fd.deaf_writeString
    intro _
    apply Fd.deaf_writeString
    intro _
    apply Fd.deaf_writeUshort
    apply Fd.deaf_writeString
    intro _
    apply Fd.deaf_writeUshort
    exact Fd.deaf_done _

theorem readArgs_state {argc : ℕ} {input : Bytes} {s : State} {argv : List Bytes}
    (h : (Session.readArgs D argc input s).1 = .ok argv) :
    (Session.readArgs D argc input s).2 = { s with ticks := s.ticks + argv.length } := by
  induction argc generalizing s input argv with
  | zero =>
    obtain rfl : [] = argv := Except.ok.inj h
    rfl
  | succ argc ih =>
    rw [Session.readArgs] at h ⊢
    simp only [bind, StateT.bind, call] at h ⊢
    cases hread : mallocReadString .closed (decide (0 ≤ (D.reply s.ticks).ret)) input with
    | error err =>
      rw [hread] at h
      cases h
    | ok r =>
      rw [hread] at h
      change (Session.readArgs D argc r.2 { s with ticks := s.ticks + 1 }).1.map (r.1 :: ·) =
        .ok argv at h
      cases hargs : (Session.readArgs D argc r.2 { s with ticks := s.ticks + 1 }).1 with
      | error err =>
        rw [hargs] at h
        cases h
      | ok args =>
        rw [hargs] at h
        obtain rfl : r.1 :: args = argv := Except.ok.inj h
        change (Session.readArgs D argc r.2 { s with ticks := s.ticks + 1 }).2 = _
        rw [ih hargs, List.length_cons, Nat.add_assoc, Nat.add_comm 1]

/-- What becomes of a stage: `do_command` runs, and its messages, an empty one and its return value are
written. -/
def finish (t : State) : Bytes × Stage → Bytes × ℤ
  | (output, .returned ret) => (output, ret)
  | (output, .command argv) =>
    let r := doCommand D (argv.headD []) argv.tail { t with ticks := t.ticks + argv.length }
    (output ++ (frames r.2.sent ++ (frame [] ++ writeUshort r.1)), r.1)

theorem text_sendable : Sendable (ascii "internal error") ∧ Sendable (ascii "No command") ∧
    Sendable (ascii "too many arguments") := by
  refine ⟨⟨?_, ?_⟩, ⟨?_, ?_⟩, ⟨?_, ?_⟩⟩ <;> decide +kernel

/-- A text, the end of the messages and a number. -/
theorem eval_report {msg : Bytes} (h : Sendable msg) (n : ℤ) (stage : Stage) (input : Bytes) :
    (Fd.writeString msg fun _ => Fd.writeString [] fun _ => Fd.writeUshort n fun _ =>
      (.done stage : Io Errno Stage)).eval EPIPE input =
        (frame msg ++ (frame [] ++ Common.writeUshort n), stage) := by
  have hdeaf : Fd.Deaf (Fd.writeString msg fun _ => Fd.writeString [] fun _ =>
      Fd.writeUshort n fun _ => (.done stage : Io Errno Stage)) :=
    Fd.deaf_writeString _ fun _ => Fd.deaf_writeString _ fun _ =>
      Fd.deaf_writeUshort _ (Fd.deaf_done _)
  rw [hdeaf, Fd.close_writeString h, Fd.close_writeString sendable_nil, Fd.writeUshort]
  simp only [Io.close, List.append_nil]

theorem close_command_error (err : Errno) :
    (command (.error err)).close EPIPE =
      (frame (ascii "internal error") ++ (frame [] ++ (Common.writeUshort err.code ++
        (frame [] ++ Common.writeUshort err.code))), .returned err.code) := by
  rw [command, Fd.close_writeString text_sendable.1, Fd.close_writeString sendable_nil, Fd.writeUshort,
    Io.close, Fd.close_writeString sendable_nil, Fd.writeUshort]
  simp only [Io.close, List.append_nil]

theorem serve_eval (input : Bytes) (t : State) :
    (Session.serve D input t).1 =
      finish D { t with ticks := t.ticks + 1 }
        ((serve (memoryOf D t) (D.reply t.ticks).errno).eval EPIPE input) := by
  obtain ⟨hinternal, hnone, hmany⟩ := text_sendable
  rw [Session.serve, serve, Fd.eval_readUshort]
  cases Common.readUshort .closed input with
  | error err => rfl
  | ok r =>
    obtain ⟨argc, rest⟩ := r
    simp only
    by_cases hzero : argc = 0
    · rw [if_pos hzero, if_pos hzero, eval_report hnone]
      rfl
    rw [if_neg hzero, if_neg hzero]
    by_cases hfew : MAX_ARGS < argc
    · rw [if_pos hfew, if_pos hfew]
      have hdeaf : Fd.Deaf (Fd.writeString (ascii "too many arguments") fun _ =>
          Fd.writeUshort E2BIG.code fun _ => (.done (.returned E2BIG.code) : Io Errno Stage)) :=
        Fd.deaf_writeString _ fun _ => Fd.deaf_writeUshort _ (Fd.deaf_done _)
      rw [hdeaf, Fd.close_writeString hmany, Fd.writeUshort]
      simp only [Io.close, List.append_nil]
      rfl
    rw [if_neg hfew, if_neg hfew]
    have hcalloc : memoryOf D t 0 = decide (0 ≤ (D.reply t.ticks).ret) := rfl
    simp only [bind, StateT.bind, call, hcalloc]
    by_cases hmemory : (D.reply t.ticks).ret < 0
    · rw [if_pos hmemory, if_pos (by simpa using hmemory), eval_report hinternal]
      rfl
    rw [if_neg hmemory, if_neg (by simpa using hmemory), memoryOf_succ,
      eval_readArgs D argc _ deaf_command]
    simp only [StateT.bind]
    have hstate : ∀ argv, (Session.readArgs D argc rest { t with ticks := t.ticks + 1 }).1 = .ok argv →
        (Session.readArgs D argc rest { t with ticks := t.ticks + 1 }).2 =
          { t with ticks := t.ticks + 1 + argv.length } := fun argv h => readArgs_state D h
    generalize Session.readArgs D argc rest { t with ticks := t.ticks + 1 } = result at hstate ⊢
    obtain ⟨argv, u⟩ := result
    cases argv with
    | error err =>
      rw [close_command_error]
      rfl
    | ok argv =>
      obtain rfl := hstate argv rfl
      rfl

/-- On a stream that is there as a whole, the two models of the handler are one. -/
theorem handler_eval (input : Bytes) (s : State) :
    (Session.handler D input s).1 =
      finish D { s with sent := [], ticks := s.ticks + 2 }
        ((handler (memoryOf D s) (D.reply (s.ticks + 1)).errno).eval EPIPE input) := by
  rw [handler_run, handler, eval_readVersion _ fun err => Fd.deaf_done _]
  have hmalloc : memoryOf D s 0 = decide (0 ≤ (D.reply s.ticks).ret) := rfl
  rw [hmalloc]
  simp only
  cases Session.readVersion (decide (0 ≤ (D.reply s.ticks).ret)) input with
  | error err => rfl
  | ok r =>
    obtain ⟨version, rest⟩ := r
    simp only
    split_ifs with hversion
    · have hdeaf : Fd.Deaf (Fd.writeUshort EPROTO.code fun _ =>
          (.done (.returned EPROTO.code) : Io Errno Stage)) := Fd.deaf_writeUshort _ (Fd.deaf_done _)
      rw [hdeaf, Fd.writeUshort]
      simp only [Io.close, List.append_nil]
      rfl
    · have hmemory : (fun i => memoryOf D s (i + 1)) =
          memoryOf D { s with sent := [], ticks := s.ticks + 1 } := memoryOf_succ D s
      rw [serve_eval, hmemory, Fd.writeUshort, Io.eval_writeAll]
      simp only
      generalize (serve _ _).eval EPIPE rest = result
      obtain ⟨output, ret | argv⟩ := result
      · rfl
      · simp only [finish, List.append_assoc]

end Eval

/-- The handler calls `do_command` with the arguments of the client, however the system cuts the
streams into pieces; and it does call it if neither end is interrupted for ever. -/
theorem handler_receives {argv : List Bytes} (hne : argv ≠ []) (hfew : argv.length ≤ MAX_ARGS)
    (h : ∀ arg ∈ argv, Sendable arg) {memory : ℕ → Bool} (hmemory : ∀ i, memory i = true) (errno : ℕ)
    {turns : ℕ → Turn Errno} (hclean : ∀ n, (turns n).reply.Clean) :
    (∀ n stage, (Pair.run EPIPE (Pair.start (client argv) (handler memory errno)) turns n).right =
      .done stage → stage = .command argv) ∧
    (Fair turns → ∃ n,
      (Pair.run EPIPE (Pair.start (client argv) (handler memory errno)) turns n).left = .done (.ok ()) ∧
      (Pair.run EPIPE (Pair.start (client argv) (handler memory errno)) turns n).right =
        .done (.command argv)) := by
  have hclient := drive_client h
  have hhandler := drive_handler hmemory errno hne hfew h
  have hconv : Conversation (client argv) (handler memory errno) (request argv) (writeUshort 0) := by
    constructor
    · rw [hclient]
    · rw [hhandler]
  have hhello : ((handler memory errno).drive hello).1 = writeUshort 0 := by
    rw [← List.append_nil hello, drive_handler_hello hmemory]
    exact List.append_nil _
  constructor
  · intro n stage hstage
    obtain ⟨talk, htalk⟩ := follows_run EPIPE hconv hclean (follows_start _ _ _ _) n
    have hdone := htalk.right_done hstage
    rw [hhandler] at hdone
    exact (Io.done.inj hdone).symm
  · intro hfair
    have hexchange : exchange (client argv) (handler memory errno) 3 = (request argv, writeUshort 0) := by
      simp only [exchange, drive_client_start, drive_handler_start hmemory, hhello, hclient]
    obtain ⟨n, hleft, hright⟩ := conversation_ends EPIPE hconv hexchange hclean hfair
    rw [hclient] at hleft
    rw [hhandler] at hright
    exact ⟨n, hleft, hright⟩

/-- The two ends take turns, and every call moves a single byte. -/
def bytewise (n : ℕ) : Turn Errno := ⟨if n % 2 = 0 then .left else .right, .moved 1⟩

theorem handler_receives_bytewise : ∃ n,
    (Pair.run EPIPE (Pair.start (client [ascii "version", []]) (handler (fun _ => true) 12))
      bytewise n).right = .done (.command [ascii "version", []]) := by
  have hsend : ∀ arg ∈ [ascii "version", []], Sendable arg := by
    intro arg harg
    rcases List.mem_pair.mp harg with rfl | rfl
    · exact ⟨by decide +kernel, by decide +kernel⟩
    · exact sendable_nil
  have hfair : Fair bytewise := by
    intro n side
    cases side with
    | left => exact ⟨2 * n, by omega, by simp [bytewise], by simp [bytewise]⟩
    | right => exact ⟨2 * n + 1, by omega, by simp [bytewise, Nat.add_mod], by simp [bytewise]⟩
  have hclean : ∀ n, (bytewise n).reply.Clean := fun n => Nat.one_pos
  obtain ⟨n, -, hright⟩ :=
    (handler_receives (by simp) (by decide) hsend (fun _ => rfl) 12 hclean).2 hfair
  exact ⟨n, hright⟩

end Dumbos.Session.Transport
