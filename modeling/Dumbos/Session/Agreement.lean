import Dumbos.Daemon.Speech
import Dumbos.Session.Handler

/-! # Client and daemon agree on the result

The client takes the number behind the first empty string for the return code. All
ways out of the handler put it there but one, and all messages are non-empty but
two: the stored name of a user, and the name of the command of a payload.
-/
namespace Dumbos.Session
open Foundation Common Payload Request Daemon

variable (D : Device)

/-- Every allocation of the handler before the command succeeds. -/
def Allocates (argc : ℕ) (s : State) : Prop := ∀ i < argc + 2, 0 ≤ (D.reply (s.ticks + i)).ret

/-- The state in which the command of a connection starts. -/
def commandStart (argc : ℕ) (s : State) : State :=
  { s with sent := [], ticks := s.ticks + (argc + 2) }

/-- The names that `get_name` sends from a state: the first is empty only if both are. -/
def NamesFramed (t : State) : Prop :=
  ∀ user, dumbosAllocGetUser (D.userFile t.ticks) = .ok user → user.name = [] →
    dumbosGetFancyName user = []

/-- No payload with an empty command gets past the checks of `handle_one_payload`. -/
def CommandsNamed (args : List Bytes) (t : State) : Prop :=
  ∀ c ∈ (secretCode D args t).2.dispatched.drop t.dispatched.length, c.1 ≠ []

/-- The messages of a command can be told from their end. -/
def CommandFramed (name : Bytes) (args : List Bytes) (t : State) : Prop :=
  (name = ascii "get_name" → NamesFramed D t) ∧ (name = ascii "code" → CommandsNamed D args t)

/-- The daemon takes the arguments, and if the command starts its messages can be told from their
end. -/
def Framed (argv : List Bytes) (s : State) : Prop :=
  argv.length ≤ MAX_ARGS ∧
    (argv ≠ [] → Allocates D argv.length s →
      CommandFramed D (argv.headD []) argv.tail (commandStart argv.length s))

section Command

/-- What the client makes of a command that sent `t.sent` and returned `ret`. -/
def Agrees (ends : StreamEnd) (ret : ℤ) (t : State) : Prop :=
  (receive ends (frames t.sent ++ (frame [] ++ writeUshort ret))).2 = ret % 65536

variable {ends : StreamEnd} {s t : State} {ret : ℤ}

theorem agrees_of_speech (hs : s.sent = []) (h : speech.Allows s t) : Agrees ends ret t := by
  obtain ⟨⟨msgs, hsent, hmsgs⟩, -⟩ := h
  have hframes := receive_frames ends hmsgs ret []
  rw [List.append_nil] at hframes
  rw [Agrees, hsent, hs, List.nil_append, hframes]

/-- The client takes the length of the next message for the return code. -/
theorem receive_empty {msgs rest : List Bytes} {next : Bytes} (h : ∀ msg ∈ msgs, IsMessage msg)
    (hnext : next.length < 65536) (tail : Bytes) :
    (receive ends (frames (msgs ++ [] :: next :: rest) ++ tail)).2 = next.length := by
  have hsplit : frames (msgs ++ [] :: next :: rest) ++ tail =
      frames msgs ++ (frame [] ++ (writeUshort next.length ++ (next ++ (frames rest ++ tail)))) := by
    rw [frames_append, frames_cons, frames_cons]
    simp only [frame, List.append_assoc]
  rw [hsplit, receive_frames ends h]
  exact Int.emod_eq_of_lt (by positivity) (by exact_mod_cast hnext)

theorem not_agrees_of_interrupted (hs : s.sent = []) (h : Interrupted s ret t) :
    ¬Agrees ends ret t := by
  obtain ⟨⟨msgs, rest, hsent, hmsgs⟩, -, hret⟩ := h
  rw [Agrees, hsent, hs, List.nil_append, receive_empty hmsgs (by decide), hret]
  decide

theorem cmdGetUsername_ok {user : DumbosUserData}
    (huser : dumbosAllocGetUser (D.userFile s.ticks) = .ok user) :
    (cmdGetUsername D s).1 = 0 ∧
      (cmdGetUsername D s).2.sent = s.sent ++ [user.name, dumbosGetFancyName user] := by
  have hname : cstr user.name = user.name := cstr_cstr _
  have hfancy : cstr (dumbosGetFancyName user) = dumbosGetFancyName user :=
    cstr_eq_self (dumbosGetFancyName_no_nul user)
  have hshort : (cstr user.name).length < MAX_STRING := by
    rw [hname]
    exact lt_of_le_of_lt (name_length_le user) (by decide)
  have hshort' : (cstr (dumbosGetFancyName user)).length < MAX_STRING := by
    rw [hfancy]
    exact lt_of_le_of_lt (dumbosGetFancyName_length_le user) (by decide)
  have hrun : cmdGetUsername D s = (0, (call D (send (dumbosGetFancyName user)
      (send user.name { s with ticks := s.ticks + 1 }).2).2).2) := by
    simp only [cmdGetUsername, allocGetUser, bind, StateT.bind, huser]
    rfl
  rw [hrun, send_snd hshort, send_snd hshort', hname, hfancy]
  exact ⟨rfl, by simp [call]⟩

theorem agrees_cmdGetUsername_iff (hs : s.sent = []) :
    Agrees ends (cmdGetUsername D s).1 (cmdGetUsername D s).2 ↔ NamesFramed D s := by
  cases huser : dumbosAllocGetUser (D.userFile s.ticks) with
  | error errno =>
    have hfail : cmdGetUsername D s = fail "internal error" errno { s with ticks := s.ticks + 1 } := by
      simp only [cmdGetUsername, allocGetUser, bind, StateT.bind, huser]
    have hspeech : speech.Allows s (cmdGetUsername D s).2 := by
      rw [hfail]
      exact speech_of_speaks (speaks_fail (by decide) _ { s with ticks := s.ticks + 1 })
    apply iff_of_true (agrees_of_speech hs hspeech)
    intro user hok
    rw [huser] at hok
    cases hok
  | ok user =>
    obtain ⟨hret, hsent⟩ := cmdGetUsername_ok D huser
    have hframed : NamesFramed D s ↔ (user.name = [] → dumbosGetFancyName user = []) := by
      constructor
      · exact fun h => h user huser
      · intro h user' hok
        rw [huser, Except.ok.injEq] at hok
        exact hok ▸ h
    have hfancy := dumbosGetFancyName_length_le user
    rw [hframed, Agrees, hret, hsent, hs, List.nil_append]
    by_cases hname : user.name = []
    · rw [hname, ← List.nil_append [[], _], receive_empty (by simp) (by omega)]
      simp
    · apply iff_of_true
      · have hmsgs : ∀ msg ∈ [user.name, dumbosGetFancyName user], IsMessage msg := by
          intro msg hmsg
          simp only [List.mem_cons, List.not_mem_nil, or_false] at hmsg
          rcases hmsg with rfl | rfl
          · exact ⟨⟨lt_of_le_of_lt (name_length_le user) (by decide), cstr_no_nul _⟩, hname⟩
          · exact ⟨⟨lt_of_le_of_lt hfancy (by decide), dumbosGetFancyName_no_nul user⟩,
              dumbosGetFancyName_ne_nil hname⟩
        have hframes := receive_frames ends hmsgs 0 []
        rw [List.append_nil] at hframes
        rw [hframes]
      · exact fun h => absurd h hname

theorem agrees_secretCode_iff (args : List Bytes) (hs : s.sent = []) :
    Agrees ends (secretCode D args s).1 (secretCode D args s).2 ↔ CommandsNamed D args s := by
  rw [CommandsNamed]
  rcases secretCode_spoken D args s with hspeech | hcut
  · apply iff_of_true (agrees_of_speech hs hspeech)
    obtain ⟨-, cmds, hcmds, hnamed⟩ := hspeech
    rw [hcmds, List.drop_left]
    exact hnamed
  · apply iff_of_false (not_agrees_of_interrupted hs hcut)
    obtain ⟨cmds, hcmds, c, hc, hempty⟩ := hcut.dispatched
    rw [hcmds, List.drop_left]
    exact fun h => h c hc hempty

theorem agrees_doCommand_iff (name : Bytes) (args : List Bytes) (hs : s.sent = []) :
    Agrees ends (doCommand D name args s).1 (doCommand D name args s).2 ↔
      CommandFramed D name args s := by
  rw [CommandFramed, doCommand]
  cases hcommand : ClientCommand.ofName name with
  | none =>
    have hget : ClientCommand.ofName (ascii "get_name") ≠ none := by decide
    have hcode : ClientCommand.ofName (ascii "code") ≠ none := by decide
    apply iff_of_true
    · exact agrees_of_speech hs (speech_of_speaks (speaks_fail (by decide) _ s))
    · constructor
      · rintro rfl
        exact absurd hcommand hget
      · rintro rfl
        exact absurd hcommand hcode
  | some command =>
    have hmem := name_of_clientCommand hcommand
    have hget : ∀ e ∈ commandsList, e.1 = ascii "get_name" ↔ e.2 = .getUsername := by decide
    have hcode : ∀ e ∈ commandsList, e.1 = ascii "code" ↔ e.2 = .code := by decide
    have hget := hget _ hmem
    have hcode := hcode _ hmem
    simp only at hget hcode
    rw [hget, hcode]
    by_cases h : command = .getUsername
    · subst h
      simpa [ClientCommand.run] using agrees_cmdGetUsername_iff D hs
    · by_cases h' : command = .code
      · subst h'
        simpa [ClientCommand.run] using agrees_secretCode_iff D args hs
      · apply iff_of_true
        · exact agrees_of_speech hs (speech_of_speaks (speaks_clientCommand D args h' h s))
        · exact ⟨fun hn => absurd hn h, fun hn => absurd hn h'⟩

end Command

section Serve
variable {ends : StreamEnd} {argv : List Bytes} {s : State}

/-- What the client reads behind the handshake is what the handler returns. -/
def ServeAgrees (ends : StreamEnd) (r : Bytes × ℤ) : Prop := (receive ends r.1).2 = r.2 % 65536

/-- Too many arguments: the error code is taken for the length of a message that does not come. -/
theorem not_serveAgrees_tooMany : ¬ServeAgrees ends
    (frame (ascii "too many arguments") ++ writeUshort E2BIG.code, E2BIG.code) := by
  rw [ServeAgrees]
  cases ends <;> decide

/-- One message, an empty string and the code: what follows is not read. -/
theorem serveAgrees_message {msg : Bytes} (h : IsMessage msg) (ret : ℤ) (rest : Bytes) :
    ServeAgrees ends (frame msg ++ (frame [] ++ (writeUshort ret ++ rest)), ret) := by
  have hframes := receive_frames ends (fun m hm => List.mem_singleton.mp hm ▸ h) ret rest
  rw [frames_cons, frames_nil, List.append_nil] at hframes
  rw [ServeAgrees, hframes]

theorem internalError_isMessage : IsMessage (ascii "internal error") :=
  ⟨⟨by decide +kernel, by decide +kernel⟩, by decide +kernel⟩

theorem allocates_iff (hmemory : 0 ≤ (D.reply s.ticks).ret) :
    Allocates D argv.length s ↔ 0 ≤ (D.reply (s.ticks + 1)).ret ∧
      ∀ i < argv.length, 0 ≤ (D.reply (s.ticks + 1 + 1 + i)).ret := by
  constructor
  · intro h
    constructor
    · exact h 1 (by omega)
    · intro i hi
      rw [show s.ticks + 1 + 1 + i = s.ticks + (i + 2) by omega]
      exact h (i + 2) (by omega)
  · rintro ⟨hcalloc, hargs⟩ i hi
    match i with
    | 0 => exact hmemory
    | 1 => exact hcalloc
    | i + 2 =>
      rw [show s.ticks + (i + 2) = s.ticks + 1 + 1 + i by omega]
      exact hargs i (by omega)

/-- All ways out of the handler behind the handshake. -/
theorem serveAgrees_iff (h : ∀ arg ∈ argv, Sendable arg) (hargc : argv.length < 65536)
    (hmemory : 0 ≤ (D.reply s.ticks).ret) :
    ServeAgrees ends (serve D (writeUshort argv.length ++ frames argv)
      { s with sent := [], ticks := s.ticks + 1 }).1 ↔ Framed D argv s := by
  rw [Framed, allocates_iff D hmemory]
  by_cases hempty : argv = []
  · subst hempty
    apply iff_of_true
    · exact serveAgrees_message ⟨⟨by decide +kernel, by decide +kernel⟩, by decide +kernel⟩ 0 []
    · exact ⟨Nat.zero_le _, fun hne => absurd rfl hne⟩
  have hpos : argv.length ≠ 0 := fun hzero => hempty (List.eq_nil_of_length_eq_zero hzero)
  by_cases hmany : MAX_ARGS < argv.length
  · have hcount : ((argv.length : ℤ) % 65536).toNat = argv.length := by omega
    rw [serve, readUshort_writeUshort, hcount]
    simp only [if_neg hpos, if_pos hmany]
    apply iff_of_false
    · exact not_serveAgrees_tooMany
    · exact fun hframed => absurd hframed.1 (not_le.mpr hmany)
  rw [serve_run D hpos hmany]
  simp only
  by_cases hcalloc : 0 ≤ (D.reply (s.ticks + 1)).ret
  · rw [if_neg (not_lt.mpr hcalloc)]
    by_cases hargs : ∀ i < argv.length, 0 ≤ (D.reply (s.ticks + 1 + 1 + i)).ret
    · rw [readArgs_frames D h { s with sent := [], ticks := s.ticks + 1 + 1 } hargs]
      have hticks : s.ticks + 1 + 1 + argv.length = s.ticks + (argv.length + 2) := by omega
      have hagrees : Agrees ends _ _ ↔ _ := agrees_doCommand_iff D (argv.headD []) argv.tail
        (rfl : (commandStart argv.length s).sent = [])
      simp only [hticks]
      constructor
      · exact fun hserve => ⟨not_lt.mp hmany, fun _ _ => hagrees.mp hserve⟩
      · exact fun hframed => hagrees.mpr (hframed.2 hempty ⟨hcalloc, hargs⟩)
    · have herror := readArgs_noMemory D h { s with sent := [], ticks := s.ticks + 1 + 1 } hargs
      generalize readArgs D argv.length (frames argv)
        { s with sent := [], ticks := s.ticks + 1 + 1 } = r at herror ⊢
      obtain ⟨result, t⟩ := r
      obtain rfl : result = .error ENOMEM := herror
      apply iff_of_true
      · exact serveAgrees_message internalError_isMessage _ _
      · exact ⟨not_lt.mp hmany, fun _ hall => absurd hall.2 hargs⟩
  · rw [if_pos (not_le.mp hcalloc)]
    have hmessage := @serveAgrees_message ends _ internalError_isMessage (D.reply (s.ticks + 1)).errno []
    rw [List.append_nil] at hmessage
    apply iff_of_true
    · exact hmessage
    · exact ⟨not_lt.mp hmany, fun _ hall => absurd hall.1 hcalloc⟩

end Serve

variable {D}

/-- A client that could send its arguments has been let in. -/
theorem memory_of_full {argv : List Bytes} {s : State} (C : Connection D argv s)
    (hfull : C.toDaemon = request argv) : 0 ≤ (D.reply s.ticks).ret := by
  by_contra hmemory
  have hout : C.toClient = [] := by
    rw [← C.daemon_writes, hfull, handler_noMemory D s hmemory]
  have hsent : hello = request argv := by
    rw [← hfull, ← C.client_writes, hout]
    rfl
  have hlen := congrArg List.length hsent
  simp only [request, List.length_append, writeUshort, be16_length] at hlen
  omega

/-- On a connection over which a client has sent all its arguments, it returns what the handler
returns, modulo 2^16, exactly when all messages can be told from their end. -/
theorem client_eq_handler_iff {argv : List Bytes} {s : State} (h : ∀ arg ∈ argv, Sendable arg)
    (hargc : argv.length < 65536) (C : Connection D argv s) (hfull : C.toDaemon = request argv) :
    (client C.ends argv C.toClient).ret = (handler D C.toDaemon s).1.2 % 65536 ↔
      Framed D argv s := by
  have hmemory := memory_of_full C hfull
  have hout := C.daemon_writes
  rw [hfull, handler_request D s hmemory] at hout
  rw [hfull, handler_request D s hmemory, ← hout, client_welcome C.ends h,
    ← serveAgrees_iff D h hargc hmemory]
  rfl

/-- With memory for its version a client is let in and sends all its arguments. -/
def Connection.full {argv : List Bytes} (h : ∀ arg ∈ argv, Sendable arg) {s : State}
    (hmemory : 0 ≤ (D.reply s.ticks).ret) (ends : StreamEnd) : Connection D argv s where
  ends := ends
  toDaemon := request argv
  toClient := (handler D (request argv) s).1.1
  client_writes := by rw [handler_request D s hmemory, client_welcome ends h]
  daemon_writes := rfl

def userBlob (name fancyName : Bytes) : Bytes :=
  DUMBOS_USER_DATA_MAGIC ++ (Field.print 63 name).val ++ [0] ++ (Field.print 126 fancyName).val ++
    [0] ++ List.replicate 64 98 ++ [0]

/-- A device with a user, on which the tenth call is the download of a payload. -/
def talkingDevice (name fancyName : Bytes) (payload : DumbPayload) : Device :=
  { Device.plain Ed25519.always 1000 with
    userFile := fun _ => .ok (userBlob name fancyName)
    reply := fun tick => ⟨0, 0, if tick = 9 then payload.toBytes else List.replicate 64 97, []⟩ }

/-- A device with a user who has no display name. -/
def namedDevice : Device := talkingDevice (ascii "u") [] (DumbPayload.unsigned [] [] [])

theorem getNameSendable : ∀ arg ∈ [ascii "get_name"], Sendable arg := by
  intro arg harg
  rw [List.mem_singleton.mp harg]
  exact ⟨by decide +kernel, by decide +kernel⟩

theorem namedDevice_framed (t : State) : NamesFramed namedDevice t := by
  have hnamed : ((dumbosAllocGetUser (.ok (userBlob (ascii "u") []))).toOption.map
      DumbosUserData.name) = some (ascii "u") := by decide +kernel
  intro user huser hempty
  change dumbosAllocGetUser (.ok (userBlob (ascii "u") [])) = .ok user at huser
  rw [huser, Except.toOption, Option.map_some, hempty] at hnamed
  exact absurd (Option.some.inj hnamed) (by decide)

/-- The name is sent twice, and the client reads 0 behind it. -/
theorem client_eq_handler_getName :
    (client .closed [ascii "get_name"]
        (handler namedDevice (request [ascii "get_name"]) State.start).1.1).ret =
      (handler namedDevice (request [ascii "get_name"]) State.start).1.2 % 65536 := by
  have hmemory : 0 ≤ (namedDevice.reply State.start.ticks).ret := le_rfl
  have hframed : Framed namedDevice [ascii "get_name"] State.start :=
    ⟨by decide, fun _ _ => ⟨fun _ => namedDevice_framed _, fun hname => absurd hname (by decide)⟩⟩
  have hagree := client_eq_handler_iff getNameSendable (by decide)
    (Connection.full getNameSendable hmemory .closed) rfl
  simp only [Connection.full] at hagree
  exact hagree.mpr hframed

def namelessPayload : DumbPayload :=
  setSignature (DumbPayload.unsigned (ascii "0") [] []) singleSignature

/-- The client of a connection that it could use in full returns something else. -/
def Disagrees (ends : StreamEnd) (D : Device) (argv : List Bytes) : Prop :=
  let r := (handler D (request argv) State.start).1
  (client ends argv r.1).sent = request argv ∧ (client ends argv r.1).ret ≠ r.2 % 65536

instance (ends : StreamEnd) (D : Device) (argv : List Bytes) : Decidable (Disagrees ends D argv) :=
  inferInstanceAs (Decidable (_ ∧ _))

/-- Too many arguments, which are left unread, a user without a name, and a payload without a
command. -/
theorem client_ne_handler :
    Disagrees .reset (talkingDevice (ascii "u") [] namelessPayload)
        (List.replicate 257 (ascii "ok")) ∧
      Disagrees .closed (talkingDevice [] (ascii "U") namelessPayload) [ascii "get_name"] ∧
      Disagrees .closed (talkingDevice (ascii "u") [] namelessPayload) [ascii "code", ascii "x"] := by
  decide +kernel

end Dumbos.Session
