import Dumbos.Daemon.Command

/-! # The two ends of a connection

The client sends its version, waits for a zero, sends its arguments and then reads
messages up to an empty one and a number. The daemon forks a handler for every
connection. Each end is a function from the stream it reads to the stream it
writes, and a session is a pair of streams that fits both.
-/
namespace Dumbos.Session
open Foundation Common Daemon

def VERSION_MAJOR : ℕ := 4
def VERSION_MINOR : ℕ := 2
def VERSION_PATCH : ℕ := 0

/-- The largest number of arguments that the daemon accepts. -/
def MAX_ARGS : ℕ := 256

section Client

structure Client where
  sent : Bytes
  printed : List Bytes
  ret : ℤ

/-- The version of the client. -/
def hello : Bytes :=
  frame VERSION_STRING ++
    (writeUshort VERSION_MAJOR ++ (writeUshort VERSION_MINOR ++ writeUshort VERSION_PATCH))

/-- What is written of some strings, and the error that stopped it. -/
def writeStrings : List Bytes → Bytes × Option Errno
  | [] => ([], none)
  | s :: ss => match writeString s with
    | .error err => ([], some err)
    | .ok bytes => (bytes ++ (writeStrings ss).1, (writeStrings ss).2)

/-- The messages and the return code of the daemon. -/
def receive (ends : StreamEnd) (input : Bytes) : List Bytes × ℤ :=
  match readMessages ends input.length input with
  | (printed, .error err) => (printed, err.code)
  | (printed, .ok rest) => match readUshort ends rest with
    | .error err => (printed, err.code)
    | .ok (ret, _) => (printed, ret)

/-- `client` behind `connect`. -/
def client (ends : StreamEnd) (argv : List Bytes) (input : Bytes) : Client :=
  match readUshort ends input with
  | .error err => ⟨hello, [], err.code⟩
  | .ok (feedback, input) =>
    if feedback ≠ 0 then ⟨hello, [], feedback⟩
    else match writeStrings argv with
      | (args, some err) => ⟨hello ++ (writeUshort argv.length ++ args), [], err.code⟩
      | (args, none) =>
        ⟨hello ++ (writeUshort argv.length ++ args), (receive ends input).1, (receive ends input).2⟩

end Client

section Handler
variable (D : Device)

def readVersion (memory : Bool) (input : Bytes) : Except Errno ((ℕ × ℕ × ℕ) × Bytes) := do
  let (_, input) ← mallocReadString .closed memory input
  let (major, input) ← readUshort .closed input
  let (minor, input) ← readUshort .closed input
  let (patch, input) ← readUshort .closed input
  return ((major, minor, patch), input)

def readArgs : ℕ → Bytes → Act (Except Errno (List Bytes))
  | 0, _ => return .ok []
  | argc + 1, input => do
    let malloc ← call D
    match mallocReadString .closed (0 ≤ malloc.ret) input with
    | .error err => return .error err
    | .ok (arg, input) => do
      let args ← readArgs argc input
      return args.map (arg :: ·)

/-- Behind the handshake: what is written, and the return value. -/
def serve (input : Bytes) : Act (Bytes × ℤ) :=
  match readUshort .closed input with
  | .error _ => return ([], EPROTO.code)
  | .ok (argc, input) =>
    if argc = 0 then
      return (frame (ascii "No command") ++ (frame [] ++ writeUshort 0), 0)
    else if MAX_ARGS < argc then
      return (frame (ascii "too many arguments") ++ writeUshort E2BIG.code, E2BIG.code)
    else do
      let calloc ← call D
      if calloc.ret < 0 then
        return (frame (ascii "internal error") ++ (frame [] ++ writeUshort calloc.errno), calloc.errno)
      else do
        let argv ← readArgs D argc input
        match argv with
        | .error err =>
          -- the error is reported here and once more at the end
          return (frame (ascii "internal error") ++ (frame [] ++ (writeUshort err.code ++
            (frame [] ++ writeUshort err.code))), err.code)
        | .ok argv => do
          let ret ← doCommand D (argv.headD []) argv.tail
          let s ← get
          return (frames s.sent ++ (frame [] ++ writeUshort ret), ret)

def handler (input : Bytes) : Act (Bytes × ℤ) := do
  modify fun s => { s with sent := [] }
  let malloc ← call D
  match readVersion (0 ≤ malloc.ret) input with
  | .error err => return ([], err.code)
  | .ok (version, input) =>
    if version ≠ (VERSION_MAJOR, VERSION_MINOR, VERSION_PATCH) then
      return (writeUshort EPROTO.code, EPROTO.code)
    else do
      let (output, ret) ← serve D input
      return (writeUshort 0 ++ output, ret)

end Handler

/-- The streams of a connection on which nothing is lost. -/
structure Connection (D : Device) (argv : List Bytes) (s : State) where
  toDaemon : Bytes
  toClient : Bytes
  /-- What the client finds behind all that the daemon writes. -/
  ends : StreamEnd
  client_writes : (client ends argv toClient).sent = toDaemon
  daemon_writes : (handler D toDaemon s).1.1 = toClient

/-- All that a client has to say. -/
def request (argv : List Bytes) : Bytes := hello ++ (writeUshort argv.length ++ frames argv)

section Client

theorem writeStrings_sendable {argv : List Bytes} (h : ∀ arg ∈ argv, Sendable arg) :
    writeStrings argv = (frames argv, none) := by
  induction argv with
  | nil => rfl
  | cons arg argv ih =>
    rw [writeStrings, writeString_sendable (h arg (by simp)),
      ih fun a ha => h a (List.mem_cons_of_mem _ ha), frames_cons]

variable (ends : StreamEnd)

theorem client_welcome {argv : List Bytes} (h : ∀ arg ∈ argv, Sendable arg) (input : Bytes) :
    client ends argv (writeUshort 0 ++ input) =
      ⟨request argv, (receive ends input).1, (receive ends input).2⟩ := by
  rw [client, readUshort_writeUshort, writeStrings_sendable h]
  rfl

/-- Behind the messages the return code is read modulo 2^16. -/
theorem receive_frames {msgs : List Bytes} (h : ∀ msg ∈ msgs, IsMessage msg) (ret : ℤ)
    (rest : Bytes) :
    receive ends (frames msgs ++ (frame [] ++ (writeUshort ret ++ rest))) = (msgs, ret % 65536) := by
  have hnat : (((ret % 65536).toNat : ℕ) : ℤ) = ret % 65536 :=
    Int.toNat_of_nonneg (Int.emod_nonneg _ (by norm_num))
  rw [receive, readMessages_end ends h]
  simp only [readUshort_writeUshort, hnat]

end Client

section Handler
variable (D : Device)

theorem readVersion_hello (rest : Bytes) :
    readVersion true (hello ++ rest) =
      .ok ((VERSION_MAJOR, VERSION_MINOR, VERSION_PATCH), rest) := by
  have hversion : Sendable VERSION_STRING := ⟨by decide +kernel, by decide +kernel⟩
  simp only [readVersion, hello, List.append_assoc, mallocReadString_frame .closed hversion, bind,
    Except.bind, readUshort_writeUshort, pure, Except.pure]
  rfl

/-- The arguments are read as long as there is memory. -/
theorem readArgs_frames {argv : List Bytes} (h : ∀ arg ∈ argv, Sendable arg) (s : State)
    (hmemory : ∀ i < argv.length, 0 ≤ (D.reply (s.ticks + i)).ret) :
    readArgs D argv.length (frames argv) s =
      (.ok argv, { s with ticks := s.ticks + argv.length }) := by
  induction argv generalizing s with
  | nil => rfl
  | cons arg argv ih =>
    have hfirst : decide (0 ≤ (D.reply s.ticks).ret) = true :=
      decide_eq_true (hmemory 0 (by simp))
    have hrest : ∀ i < argv.length, 0 ≤ (D.reply (s.ticks + 1 + i)).ret := by
      intro i hi
      rw [Nat.add_assoc, Nat.add_comm 1]
      exact hmemory (i + 1) (by rw [List.length_cons]; omega)
    have hargs := ih (fun a ha => h a (List.mem_cons_of_mem _ ha)) { s with ticks := s.ticks + 1 } hrest
    rw [List.length_cons, readArgs, frames_cons]
    simp only [bind, StateT.bind, call, hfirst, mallocReadString_frame .closed (h arg (by simp)), hargs]
    change (Except.ok (arg :: argv), { s with ticks := s.ticks + 1 + argv.length }) = _
    rw [Nat.add_assoc, Nat.add_comm 1]

theorem readArgs_noMemory {argv : List Bytes} (h : ∀ arg ∈ argv, Sendable arg) (s : State)
    (hmemory : ¬∀ i < argv.length, 0 ≤ (D.reply (s.ticks + i)).ret) :
    (readArgs D argv.length (frames argv) s).1 = .error ENOMEM := by
  induction argv generalizing s with
  | nil => simp at hmemory
  | cons arg argv ih =>
    rw [List.length_cons, readArgs, frames_cons]
    simp only [bind, StateT.bind, call]
    by_cases hfirst : 0 ≤ (D.reply s.ticks).ret
    · have hrest : ¬∀ i < argv.length, 0 ≤ (D.reply (s.ticks + 1 + i)).ret := by
        intro hall
        apply hmemory
        intro i hi
        cases i with
        | zero => exact hfirst
        | succ i =>
          rw [Nat.add_comm i, ← Nat.add_assoc]
          exact hall i (by rw [List.length_cons] at hi; omega)
      have hargs := ih (fun a ha => h a (List.mem_cons_of_mem _ ha))
        { s with ticks := s.ticks + 1 } hrest
      simp only [decide_eq_true hfirst, mallocReadString_frame .closed (h arg (by simp)), StateT.bind]
      generalize readArgs D argv.length (frames argv) { s with ticks := s.ticks + 1 } = r at hargs ⊢
      obtain ⟨result, t⟩ := r
      obtain rfl : result = .error ENOMEM := hargs
      rfl
    · simp only [decide_eq_false hfirst, mallocReadString_noMemory .closed (h arg (by simp))]
      rfl

theorem handler_run (input : Bytes) (s : State) :
    handler D input s =
      let t := { s with sent := [], ticks := s.ticks + 1 }
      match readVersion (0 ≤ (D.reply s.ticks).ret) input with
      | .error err => (([], err.code), t)
      | .ok (version, input) =>
        if version ≠ (VERSION_MAJOR, VERSION_MINOR, VERSION_PATCH) then
          ((writeUshort EPROTO.code, EPROTO.code), t)
        else
          let r := serve D input t
          ((writeUshort 0 ++ r.1.1, r.1.2), r.2) := by
  change (match readVersion _ input with
    | .error err => return ([], err.code)
    | .ok (version, input) =>
      if version ≠ (VERSION_MAJOR, VERSION_MINOR, VERSION_PATCH) then
        return (writeUshort EPROTO.code, EPROTO.code)
      else do
        let (output, ret) ← serve D input
        return (writeUshort 0 ++ output, ret) : Act (Bytes × ℤ)) _ = _
  simp only
  cases readVersion (decide (0 ≤ (D.reply s.ticks).ret)) input with
  | error err => rfl
  | ok r =>
    simp only
    split_ifs <;> rfl

theorem handler_request {argv : List Bytes} (s : State) (h : 0 ≤ (D.reply s.ticks).ret) :
    handler D (request argv) s =
      let r := serve D (writeUshort argv.length ++ frames argv)
        { s with sent := [], ticks := s.ticks + 1 }
      ((writeUshort 0 ++ r.1.1, r.1.2), r.2) := by
  rw [handler_run, decide_eq_true h, request, readVersion_hello]
  rfl

/-- Without memory for the version of the client, nothing is written. -/
theorem handler_noMemory {argv : List Bytes} (s : State) (h : ¬0 ≤ (D.reply s.ticks).ret) :
    (handler D (request argv) s).1.1 = [] := by
  have hversion : Sendable VERSION_STRING := ⟨by decide +kernel, by decide +kernel⟩
  have hread : readVersion false (request argv) = .error ENOMEM := by
    rw [readVersion, request, hello, List.append_assoc, mallocReadString_noMemory .closed hversion]
    rfl
  rw [handler_run, decide_eq_false h, hread]

/-- With arguments that are not too many, the command runs once they are read. -/
theorem serve_run {argc : ℕ} (hpos : argc ≠ 0) (hfew : ¬MAX_ARGS < argc) (input : Bytes) (t : State) :
    serve D (writeUshort argc ++ input) t =
      let u := { t with ticks := t.ticks + 1 }
      if (D.reply t.ticks).ret < 0 then
        ((frame (ascii "internal error") ++ (frame [] ++ writeUshort (D.reply t.ticks).errno),
          ((D.reply t.ticks).errno : ℤ)), u)
      else match readArgs D argc input u with
        | (.error err, v) =>
          ((frame (ascii "internal error") ++ (frame [] ++ (writeUshort err.code ++
            (frame [] ++ writeUshort err.code))), err.code), v)
        | (.ok argv, v) =>
          let r := doCommand D (argv.headD []) argv.tail v
          ((frames r.2.sent ++ (frame [] ++ writeUshort r.1), r.1), r.2) := by
  have hcount : ((argc : ℤ) % 65536).toNat = argc := by
    rw [MAX_ARGS] at hfew
    omega
  rw [serve, readUshort_writeUshort, hcount]
  simp only [if_neg hpos, if_neg hfew, bind, StateT.bind, call]
  split_ifs
  · rfl
  · simp only [StateT.bind]
    generalize readArgs D argc input { t with ticks := t.ticks + 1 } = r
    obtain ⟨_ | argv, v⟩ := r <;> rfl

end Handler

end Dumbos.Session
