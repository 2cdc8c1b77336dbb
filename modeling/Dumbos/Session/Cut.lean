import Dumbos.Session.Agreement

/-! # Connections that break

The daemon can be killed at any byte that it writes, with any part of the request
unread. A client that comes to the end of what has arrived fails with `EPIPE` or
`ECONNRESET`, one that still writes can be ended by `SIGPIPE` as well, and one that
has done neither has read nothing that it would not have read on a connection that
lasted. So a broken connection is never taken for the success of a command, nor for
one of its own error codes.
-/
namespace Dumbos.Session
open Foundation Common Payload Daemon

section Readers

/-- A reader of a stream that was cut off: it fails at the end, or does what it does on the whole
stream and leaves what is left of it. -/
inductive CutOff {α : Type} (ends : StreamEnd) :
    Except Errno (α × Bytes) → Except Errno (α × Bytes) → Prop
  | ended (whole) : CutOff ends (.error ends.errno) whole
  | failed (err) : CutOff ends (.error err) (.error err)
  | read (a) (rest tail) : CutOff ends (.ok (a, rest)) (.ok (a, rest ++ tail))

variable (ends : StreamEnd)

theorem readUshort_cutOff (input tail : Bytes) :
    CutOff ends (readUshort ends input) (readUshort ends (input ++ tail)) := by
  match input with
  | [] | [_] => exact CutOff.ended _
  | hi :: lo :: rest => exact CutOff.read _ rest tail

theorem mallocReadString_cutOff (memory : Bool) (input tail : Bytes) :
    CutOff ends (mallocReadString ends memory input)
      (mallocReadString ends memory (input ++ tail)) := by
  have hlength := readUshort_cutOff ends input tail
  rw [mallocReadString, mallocReadString]
  generalize readUshort ends input = r at hlength ⊢
  generalize readUshort ends (input ++ tail) = r' at hlength ⊢
  cases hlength with
  | ended => exact CutOff.ended _
  | failed err => exact CutOff.failed err
  | read len rest tail =>
    dsimp only
    by_cases hlong : MAX_STRING ≤ len
    · rw [if_pos hlong, if_pos hlong]
      exact CutOff.failed _
    rw [if_neg hlong, if_neg hlong]
    cases memory with
    | false => exact CutOff.failed _
    | true =>
      by_cases hshort : rest.length < len
      · rw [if_neg (by decide), if_pos hshort]
        exact CutOff.ended _
      · have hlen : len ≤ rest.length := not_lt.mp hshort
        have hwhole : ¬(rest ++ tail).length < len := by
          rw [List.length_append]
          omega
        rw [if_neg (by decide), if_neg hshort, if_neg (by decide), if_neg hwhole,
          List.take_append_of_le_length hlen, List.drop_append_of_le_length hlen]
        exact CutOff.read _ _ tail

/-- Messages up to the end of what has arrived are the messages of the whole stream. -/
theorem readMessages_cutOff {fuel fuel' : ℕ} (h : fuel ≤ fuel') (input tail : Bytes) :
    CutOff ends ((readMessages ends fuel input).2.map ((), ·))
      ((readMessages ends fuel' (input ++ tail)).2.map ((), ·)) := by
  induction fuel generalizing fuel' input tail with
  | zero => exact CutOff.ended _
  | succ fuel ih =>
    cases fuel' with
    | zero => omega
    | succ fuel' =>
      have hfirst := mallocReadString_cutOff ends true input tail
      rw [readMessages, readMessages]
      generalize mallocReadString ends true input = r at hfirst ⊢
      generalize mallocReadString ends true (input ++ tail) = r' at hfirst ⊢
      cases hfirst with
      | ended => exact CutOff.ended _
      | failed err => exact CutOff.failed err
      | read msg rest tail =>
        dsimp only
        by_cases hend : msg = []
        · rw [if_pos hend, if_pos hend]
          exact CutOff.read () rest tail
        · rw [if_neg hend, if_neg hend]
          exact ih (Nat.le_of_succ_le_succ h) rest tail

theorem receive_cutOff (input tail : Bytes) :
    (receive ends input).2 = ends.errno.code ∨
      (receive ends input).2 = (receive ends (input ++ tail)).2 := by
  have hfuel : input.length ≤ (input ++ tail).length := by simp
  have hmessages := readMessages_cutOff ends hfuel input tail
  rw [receive, receive]
  generalize readMessages ends input.length input = r at hmessages ⊢
  generalize readMessages ends (input ++ tail).length (input ++ tail) = r' at hmessages ⊢
  obtain ⟨printed, end_⟩ := r
  obtain ⟨printed', end_'⟩ := r'
  dsimp only at hmessages
  cases end_ with
  | error err =>
    cases end_' with
    | error err' =>
      cases hmessages with
      | ended => exact Or.inl rfl
      | failed => exact Or.inr rfl
    | ok rest' =>
      cases hmessages with
      | ended => exact Or.inl rfl
  | ok rest =>
    cases end_' with
    | error err' => cases hmessages
    | ok rest' =>
      obtain ⟨tail', rfl⟩ : ∃ tail', rest' = rest ++ tail' := by
        cases hmessages with
        | read _ _ tail' => exact ⟨tail', rfl⟩
      have hcode := readUshort_cutOff ends rest tail'
      dsimp only
      generalize readUshort ends rest = c at hcode ⊢
      generalize readUshort ends (rest ++ tail') = c' at hcode ⊢
      cases hcode with
      | ended => exact Or.inl rfl
      | failed => exact Or.inr rfl
      | read => exact Or.inr rfl

/-- The client either fails at the end of what has arrived, or sends and returns what it would on
the whole stream. -/
theorem client_cutOff (argv : List Bytes) (input tail : Bytes) :
    (client ends argv input).ret = ends.errno.code ∨
      (client ends argv input).sent = (client ends argv (input ++ tail)).sent ∧
        (client ends argv input).ret = (client ends argv (input ++ tail)).ret := by
  have hfeedback := readUshort_cutOff ends input tail
  rw [client, client]
  generalize readUshort ends input = r at hfeedback ⊢
  generalize readUshort ends (input ++ tail) = r' at hfeedback ⊢
  cases hfeedback with
  | ended => exact Or.inl rfl
  | failed => exact Or.inr ⟨rfl, rfl⟩
  | read feedback rest tail =>
    dsimp only
    by_cases hrefused : feedback ≠ 0
    · rw [if_pos hrefused, if_pos hrefused]
      exact Or.inr ⟨rfl, rfl⟩
    · rw [if_neg hrefused, if_neg hrefused]
      obtain ⟨args, _ | err⟩ := writeStrings argv
      · exact (receive_cutOff ends rest tail).imp_right fun hret => ⟨rfl, hret⟩
      · exact Or.inr ⟨rfl, rfl⟩

end Readers

/-- The first write of a client that fails: how much has been written by then, and the error, or none
when `SIGPIPE` ends the client. -/
structure WriteFailure where
  written : ℕ
  error : Option StreamEnd

/-- What a client sends and returns when a write of it may fail. A write that it does not come to fails
nothing. -/
def Client.upTo (c : Client) : Option WriteFailure → Bytes × Option ℤ
  | none => (c.sent, some c.ret)
  | some failure =>
    if failure.written < c.sent.length then
      (c.sent.take failure.written, failure.error.map fun ends => ends.errno.code)
    else (c.sent, some c.ret)

/-- The streams of a connection on which the end of what the daemon writes may be missing, and which
the client may find broken while it writes. -/
structure CutConnection (D : Device) (argv : List Bytes) (s : State) where
  toDaemon : Bytes
  toClient : Bytes
  ends : StreamEnd
  failure : Option WriteFailure
  client_writes : ((client ends argv toClient).upTo failure).1 = toDaemon
  daemon_writes : toClient <+: (handler D toDaemon s).1.1

/-- What the client returns, or none when `SIGPIPE` has ended it. -/
def CutConnection.result {D : Device} {argv : List Bytes} {s : State} (C : CutConnection D argv s) :
    Option ℤ :=
  ((client C.ends argv C.toClient).upTo C.failure).2

variable {D : Device} {argv : List Bytes} {s : State}

/-- A client whose writes have failed says so. -/
theorem Client.upTo_cases (c : Client) (failure : Option WriteFailure) :
    (c.upTo failure).2 = none ∨ (∃ ends : StreamEnd, (c.upTo failure).2 = some ends.errno.code) ∨
      c.upTo failure = (c.sent, some c.ret) := by
  rcases failure with _ | ⟨written, error⟩
  · exact Or.inr (Or.inr rfl)
  · rw [Client.upTo]
    split_ifs
    · cases error with
      | none => exact Or.inl rfl
      | some ends => exact Or.inr (Or.inl ⟨ends, rfl⟩)
    · exact Or.inr (Or.inr rfl)

/-- A client that does not fail at the end of what has arrived could as well have had it all. -/
theorem CutConnection.whole (C : CutConnection D argv s)
    (hwrites : (client C.ends argv C.toClient).sent = C.toDaemon)
    (h : (client C.ends argv C.toClient).ret ≠ C.ends.errno.code) :
    ∃ W : Connection D argv s, W.toDaemon = C.toDaemon ∧ W.ends = C.ends ∧
      (client C.ends argv C.toClient).ret = (client W.ends argv W.toClient).ret := by
  obtain ⟨tail, htail⟩ := C.daemon_writes
  rcases client_cutOff C.ends argv C.toClient tail with hcut | ⟨hsent, hret⟩
  · exact absurd hcut h
  · rw [htail] at hsent hret
    exact ⟨⟨C.toDaemon, _, C.ends, hsent.symm.trans hwrites, rfl⟩, rfl, rfl, hret⟩

theorem readVersion_noMemory (rest : Bytes) :
    readVersion false (hello ++ rest) = .error ENOMEM := by
  have hversion : Sendable VERSION_STRING := ⟨by decide +kernel, by decide +kernel⟩
  rw [readVersion, hello, List.append_assoc, mallocReadString_noMemory .closed hversion]
  rfl

/-- To a client of its own version the daemon writes nothing or a zero. -/
theorem handler_hello (D : Device) (s : State) (rest : Bytes) :
    (handler D (hello ++ rest) s).1.1 = [] ∨
      ∃ output, (handler D (hello ++ rest) s).1.1 = writeUshort 0 ++ output := by
  rw [handler_run]
  by_cases hmemory : 0 ≤ (D.reply s.ticks).ret
  · right
    rw [decide_eq_true hmemory, readVersion_hello]
    exact ⟨_, rfl⟩
  · left
    rw [decide_eq_false hmemory, readVersion_noMemory]

/-- A client that is not cut off has sent all its arguments. -/
theorem Connection.full_of_ret (W : Connection D argv s) (h : ∀ arg ∈ argv, Sendable arg)
    (hret : (client W.ends argv W.toClient).ret ≠ W.ends.errno.code) :
    W.toDaemon = request argv := by
  have hwrites := W.client_writes
  have hhello : ∃ rest, W.toDaemon = hello ++ rest := by
    rw [← hwrites, client]
    split
    · exact ⟨[], by simp⟩
    · split_ifs
      · exact ⟨[], by simp⟩
      · split <;> exact ⟨_, rfl⟩
  obtain ⟨rest, hrest⟩ := hhello
  have hreads := W.daemon_writes
  rw [hrest] at hreads
  rcases handler_hello D s rest with hnone | ⟨output, houtput⟩
  · rw [hnone] at hreads
    rw [← hreads] at hret
    exact absurd rfl hret
  · rw [houtput] at hreads
    rw [← hwrites, ← hreads, client_welcome W.ends h]

/-- On a connection that may break at any point, a client is ended by `SIGPIPE`, or it fails with
`EPIPE` or `ECONNRESET`, or it has sent all its arguments and returns what the handler returns. -/
theorem client_cut {argv : List Bytes} {s : State} (h : ∀ arg ∈ argv, Sendable arg)
    (hargc : argv.length < 65536) (C : CutConnection D argv s) (hframed : Framed D argv s) :
    C.result = none ∨ (∃ ends : StreamEnd, C.result = some ends.errno.code) ∨
      C.toDaemon = request argv ∧ C.result = some ((handler D C.toDaemon s).1.2 % 65536) := by
  rw [CutConnection.result]
  rcases Client.upTo_cases (client C.ends argv C.toClient) C.failure with
    hsignaled | hfailed | hwritten
  · exact Or.inl hsignaled
  · exact Or.inr (Or.inl hfailed)
  right
  rw [hwritten]
  by_cases hcut : (client C.ends argv C.toClient).ret = C.ends.errno.code
  · exact Or.inl ⟨C.ends, congrArg some hcut⟩
  · have hwrites := C.client_writes
    rw [hwritten] at hwrites
    obtain ⟨W, hsame, hends, hret⟩ := C.whole hwrites hcut
    have hfull : W.toDaemon = request argv := by
      apply W.full_of_ret h
      rw [← hret, hends]
      exact hcut
    have hagree := (client_eq_handler_iff h hargc W hfull).mpr hframed
    refine Or.inr ⟨hsame.symm.trans hfull, ?_⟩
    rw [hret, hagree, hsame]

/-- With memory for its version a client is let in, and reads what has been written before the daemon
is killed. -/
def CutConnection.killed {argv : List Bytes} (h : ∀ arg ∈ argv, Sendable arg) {s : State}
    (hmemory : 0 ≤ (D.reply s.ticks).ret) (written : ℕ) : CutConnection D argv s where
  toDaemon := request argv
  toClient := (handler D (request argv) s).1.1.take (written + 2)
  ends := .closed
  failure := none
  client_writes := by
    rw [handler_request D s hmemory]
    exact congrArg Client.sent (client_welcome .closed h _)
  daemon_writes := List.take_prefix _ _

theorem versionSendable : ∀ arg ∈ [ascii "version"], Sendable arg := by
  intro arg harg
  rw [List.mem_singleton.mp harg]
  exact ⟨by decide +kernel, by decide +kernel⟩

theorem client_cut_version :
    let D := Device.plain Ed25519.always 1000
    let C := @CutConnection.killed D [ascii "version"] versionSendable State.start le_rfl 7
    C.result = none ∨ (∃ ends : StreamEnd, C.result = some ends.errno.code) ∨
      C.toDaemon = request [ascii "version"] ∧
        C.result = some ((handler D C.toDaemon State.start).1.2 % 65536) :=
  client_cut versionSendable (by decide) _
    ⟨by decide, fun _ _ => ⟨fun hname => absurd hname (by decide),
      fun hname => absurd hname (by decide)⟩⟩

end Dumbos.Session
