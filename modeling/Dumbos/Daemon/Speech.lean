import Dumbos.Daemon.Authenticity
import Dumbos.Daemon.Command

/-! # What the client is told

A handler adds messages that are not empty, until a payload with an empty command
is dispatched: its name is sent twice, and the handler returns `ENOSYS` without
dispatching anything else. The induction is on the nesting of composites.
-/
namespace Dumbos.Daemon
open Foundation Common Payload Request

/-- Messages are added and payload commands dispatched, none of them empty. -/
def speech : Frame State :=
  (Frame.appends State.sent IsMessage).and (Frame.appends State.dispatched (·.1 ≠ []))

/-- Speech came to a payload with an empty command, and the handler gave up. -/
structure Interrupted (s : State) (ret : ℤ) (t : State) : Prop where
  sent : ∃ msgs rest, t.sent = s.sent ++ (msgs ++ [] :: ascii "unknown command:" :: rest) ∧
    ∀ msg ∈ msgs, IsMessage msg
  dispatched : ∃ cmds, t.dispatched = s.dispatched ++ cmds ∧ ∃ c ∈ cmds, c.1 = []
  ret : ret = ENOSYS.code

def Spoken (s : State) (ret : ℤ) (t : State) : Prop := speech.Allows s t ∨ Interrupted s ret t

theorem speech_of_speaks {s t : State} (h : speaks.Allows s t) : speech.Allows s t :=
  ⟨h.1, [], by rw [List.append_nil]; exact h.2, by simp⟩

theorem Spoken.of_speaks {m : Act ℤ} (h : speaks.Keeps m) (s : State) :
    Spoken s (m s).1 (m s).2 := Or.inl (speech_of_speaks (h s))

/-- Speech before an interruption belongs to it. -/
theorem Spoken.trans {s t u : State} {ret : ℤ} (h : speech.Allows s t) (h' : Spoken t ret u) :
    Spoken s ret u := by
  rcases h' with h' | ⟨⟨msgs, rest, hsent, hmsgs⟩, ⟨cmds, hcmds, hempty⟩, hret⟩
  · exact Or.inl (speech.trans h h')
  · obtain ⟨⟨msgs', hsent', hmsgs'⟩, cmds', hcmds', -⟩ := h
    right
    constructor
    · refine ⟨msgs' ++ msgs, rest, by rw [hsent, hsent']; simp, fun msg hmsg => ?_⟩
      rcases List.mem_append.mp hmsg with hmsg | hmsg
      · exact hmsgs' msg hmsg
      · exact hmsgs msg hmsg
    · obtain ⟨c, hc, hc'⟩ := hempty
      exact ⟨cmds' ++ cmds, by rw [hcmds, hcmds', List.append_assoc], c, by simp [hc], hc'⟩
    · exact hret

/-- Speech after an interruption keeps it, as long as the error code stays. -/
theorem Interrupted.trans {s t u : State} {ret : ℤ} (h : Interrupted s ret t)
    (h' : speaks.Allows t u) : Interrupted s ret u := by
  obtain ⟨⟨msgs, rest, hsent, hmsgs⟩, ⟨cmds, hcmds, hempty⟩, hret⟩ := h
  obtain ⟨⟨msgs', hsent', -⟩, hsame⟩ := h'
  constructor
  · exact ⟨msgs, rest ++ msgs', by rw [hsent', hsent]; simp, hmsgs⟩
  · exact ⟨cmds, hsame.trans hcmds, hempty⟩
  · exact hret

theorem speaks_send_ascii {msg : String} (h : cstr (ascii msg) ≠ []) :
    speaks.Keeps (send (ascii msg)) := speaks_send h

theorem cstr_commandText (p : DumbPayload) : cstr p.commandText = p.commandText := cstr_cstr _

theorem commandText_short (p : DumbPayload) : p.commandText.length < MAX_STRING := by
  apply lt_of_le_of_lt (cstr_length_le _)
  rw [List.length_take, p.command.property]
  decide

/-- A short message is sent up to its first NUL. -/
theorem send_snd {msg : Bytes} (h : (cstr msg).length < MAX_STRING) (s : State) :
    (send msg s).2 = { s with sent := s.sent ++ [cstr msg] } :=
  if_neg (not_le.mpr h)

theorem send_commandText (p : DumbPayload) (s : State) :
    (send p.commandText s).2 = { s with sent := s.sent ++ [p.commandText] } := by
  rw [send_snd (by rw [cstr_commandText]; exact commandText_short p), cstr_commandText]

variable (D : Device)

section Loop
variable {inner : DumbPayload → Act (ℤ × DumbPayload)}
  (h : ∀ p s, Spoken s (inner p s).1.1 (inner p s).2)
include h

/-- An error ends the loop, so an interruption in an entry is one of the loop. -/
theorem compositeLoop_spoken (count offset : ℕ) (data : Bytes) (s : State) :
    Spoken s (compositeLoop inner count offset data s).1.1
      (compositeLoop inner count offset data s).2 := by
  induction count generalizing offset data s with
  | zero => exact Or.inl (speech.refl s)
  | succ count ih =>
    cases hentry : entryAt offset data with
    | none =>
      rw [compositeLoop, hentry]
      exact Spoken.of_speaks (speaks_fail (by decide) _) s
    | some e =>
      have hinner := h (DumbPayload.ofBytes e.val e.property) s
      rw [compositeLoop_succ hentry]
      generalize inner (DumbPayload.ofBytes e.val e.property) s = r at hinner
      simp only
      have hfail : ∀ err, speaks.Keeps (fail "something went wrong" err) :=
        speaks_fail (by decide)
      rcases hinner with hspeech | hcut
      · split_ifs
        · exact Spoken.trans hspeech (Spoken.of_speaks (hfail r.1.1) r.2)
        · exact Spoken.trans hspeech (ih _ _ _)
      · have hret : r.1.1 ≠ 0 := by
          rw [hcut.ret]
          decide
        rw [if_pos hret]
        exact Or.inr (hcut.trans (hfail r.1.1 r.2))

theorem payloadCmdComposite_spoken (data : Bytes) (s : State) :
    Spoken s (payloadCmdComposite inner data s).1.1 (payloadCmdComposite inner data s).2 := by
  rw [payloadCmdComposite]
  split_ifs
  · exact Spoken.of_speaks (speaks_fail (by decide) _) s
  · exact compositeLoop_spoken h _ _ _ _

end Loop

section Dispatch
variable {composite : Bytes → Act (ℤ × Bytes)}

theorem runCommand_spoken {cmd data : Bytes} (hcmd : cstr cmd ≠ []) {s : State}
    (h : Spoken s (composite data s).1.1 (composite data s).2) :
    Spoken s (runCommand D composite cmd data s).1.1 (runCommand D composite cmd data s).2 := by
  rw [runCommand]
  cases Command.ofName cmd with
  | none =>
    have hspeaks : speaks.Keeps (unknownCommand cmd) :=
      Frame.keeps_bind (speaks_send_ascii (by decide)) fun _ =>
        Frame.keeps_bind (speaks_send hcmd) fun _ => Frame.keeps_pure _
    exact Spoken.of_speaks hspeaks s
  | some command =>
    by_cases hcomp : command = .composite
    · subst hcomp
      exact h
    · exact Or.inl (speech_of_speaks (speaks_run composite data hcomp s))

/-- The name is sent, then the command runs; without a name it is unknown. -/
theorem dispatch_spoken {p : DumbPayload} (s : State)
    (h : ∀ t, Spoken t (composite p.payload t).1.1 (composite p.payload t).2) :
    Spoken s (dispatch D composite p s).1.1 (dispatch D composite p s).2 := by
  have hintro : speaks.Allows s (send (ascii "command is") (send (ascii "loading...") s).2).2 :=
    speaks.trans (speaks_send_ascii (by decide) s) (speaks_send_ascii (by decide) _)
  rw [dispatch_run]
  generalize (send (ascii "command is") (send (ascii "loading...") s).2).2 = t at hintro
  rw [send_commandText]
  apply Spoken.trans (speech_of_speaks hintro)
  by_cases hcmd : p.commandText = []
  · right
    have hname : Command.ofName [] = none := by decide
    have hunknown : ∀ u : State, (unknownCommand [] u).2 =
        { u with sent := u.sent ++ [ascii "unknown command:", []] } := by
      intro u
      have hmsg : cstr (ascii "unknown command:") = ascii "unknown command:" := by decide
      change (send [] (send (ascii "unknown command:") u).2).2 = _
      rw [send_snd (by decide), send_snd (by decide), hmsg, cstr_nil]
      simp
    simp only [runCommand, hcmd, hname]
    constructor
    · refine ⟨[], [[]], ?_, by simp⟩
      change (unknownCommand [] _).2.sent = _
      rw [hunknown]
      simp
    · refine ⟨[([], p.payload)], ?_, _, List.mem_singleton_self _, rfl⟩
      change (unknownCommand [] _).2.dispatched = _
      rw [hunknown]
    · rfl
  · have hlog : speech.Allows t { t with
        sent := t.sent ++ [p.commandText]
        dispatched := t.dispatched ++ [(p.commandText, p.payload)] } := by
      constructor
      · refine ⟨[p.commandText], rfl, fun msg hmsg => ?_⟩
        rw [List.mem_singleton.mp hmsg]
        exact ⟨⟨commandText_short p, cstr_no_nul _⟩, hcmd⟩
      · refine ⟨[(p.commandText, p.payload)], rfl, fun c hc => ?_⟩
        rw [List.mem_singleton.mp hc]
        exact hcmd
    apply Spoken.trans hlog
    exact runCommand_spoken D (by rwa [cstr_commandText]) (h _)

theorem handleWith_spoken (time : ℤ) {p : DumbPayload} (s : State)
    (h : ∀ t, Spoken t (composite p.payload t).1.1 (composite p.payload t).2) :
    Spoken s (handleWith D composite time p s).1.1 (handleWith D composite time p s).2 := by
  have htick : speech.Allows s { s with ticks := s.ticks + 1 } := speech.refl s
  have hdata := dpIsExpiredCompare_payload (D.clock s.ticks) time p
  rw [handleWith_run]
  simp only
  generalize dpIsExpiredCompare (D.clock s.ticks) time p = r at hdata
  have hframe := dpVerify_frame (E := D.ed) D.publicKeyHex (r.2.payload.length + sizeofDumbPayload) r.2
  split_ifs
  · exact Spoken.trans htick
      (Or.inl (speech_of_speaks (speaks_send_ascii (by decide) _)))
  · generalize dpVerify D.ed D.publicKeyHex (r.2.payload.length + sizeofDumbPayload) r.2 = v at hframe
    obtain ⟨_ | _, q⟩ := v
    · exact Spoken.trans htick
        (Or.inl (speech_of_speaks (speaks_send_ascii (by decide) _)))
    · have hq : q.payload = p.payload := by rw [← hdata, ← hframe]
      apply Spoken.trans htick
      exact dispatch_spoken D _ (hq ▸ h)

end Dispatch

theorem handleAt_spoken (time : ℤ) (budget : ℕ) (p : DumbPayload) (s : State) :
    Spoken s (handleAt D time budget p s).1.1 (handleAt D time budget p s).2 := by
  induction budget generalizing p s with
  | zero => exact Or.inl (speech.refl s)
  | succ budget ih => exact handleWith_spoken D time s (payloadCmdComposite_spoken ih p.payload)

section ClientCommands

theorem speaks_allocGetUser : speaks.Keeps (allocGetUser D) :=
  fun _ => ⟨⟨[], by simp [allocGetUser], by simp⟩, rfl⟩

theorem speaks_requestURL (baseURL : Bytes) (netTime : ℤ) (code : Option Bytes)
    (onUrl : Reply → ℤ) : speaks.Keeps (requestURL D baseURL netTime code onUrl) := by
  apply Frame.keeps_bind (speaks_allocGetUser D)
  intro user
  cases user with
  | error errno => exact Frame.keeps_pure _
  | ok user =>
    apply Frame.keeps_bind (speaks_call D)
    intro random
    cases if random.ret < 0 then none else requestIdGenerate D.charSigned random.data with
    | none => exact Frame.keeps_pure _
    | some requestid =>
      apply Frame.keeps_bind (speaks_call D)
      intro malloc
      apply Frame.keeps_ite (fun _ => Frame.keeps_pure _)
      intro _
      cases requestIdSign D.ed user.name requestid netTime user.key with
      | error err => exact Frame.keeps_pure _
      | ok signature =>
        apply Frame.keeps_bind (speaks_call D)
        intro url
        exact Frame.keeps_ite (fun _ => Frame.keeps_pure _) (fun _ => Frame.keeps_pure _)

theorem speaks_downloadFailed (errno : ℕ) : speaks.Keeps (downloadFailed errno) :=
  Frame.keeps_ite (fun _ => speaks_fail (by decide) _) fun _ =>
    Frame.keeps_ite (fun _ => speaks_fail (by decide) _)
      fun _ => speaks_fail (by decide) _

theorem speaks_uploadFiles (url : Bytes) (files : List Bytes) :
    speaks.Keeps (uploadFiles D url files) := by
  induction files with
  | nil => exact Frame.keeps_pure _
  | cons file files ih =>
    apply Frame.keeps_bind (speaks_call D)
    intro stat
    apply Frame.keeps_ite (fun _ => Frame.keeps_pure _)
    intro _
    apply Frame.keeps_bind (speaks_call D)
    intro opened
    apply Frame.keeps_ite (fun _ => Frame.keeps_pure _)
    intro _
    apply Frame.keeps_bind (speaks_call D)
    intro malloc
    apply Frame.keeps_ite (fun _ => Frame.keeps_pure _)
    intro _
    apply Frame.keeps_bind (speaks_call D)
    intro read
    apply Frame.keeps_ite (fun _ => Frame.keeps_pure _)
    intro _
    apply Frame.keeps_bind (speaks_fetch D url)
    intro posted
    exact Frame.keeps_ite (fun _ => Frame.keeps_pure _) (fun _ => ih)

theorem speaks_cmdUploadData (args : List Bytes) : speaks.Keeps (cmdUploadData D args) := by
  apply Frame.keeps_ite (fun _ => speaks_fail (by decide) _)
  intro _
  apply Frame.keeps_bind (speaks_call D)
  intro netTime
  apply Frame.keeps_ite (fun _ => speaks_fail (by decide) _)
  intro _
  apply Frame.keeps_bind (speaks_requestURL D _ _ _ _)
  intro url
  cases url with
  | error err => exact Frame.keeps_pure _
  | ok url => exact speaks_uploadFiles D url args.reverse

theorem speaks_mallocHexToBuf (hex : Bytes) : speaks.Keeps (mallocHexToBuf D hex) := by
  apply Frame.keeps_ite (fun _ => Frame.keeps_pure _)
  intro _
  apply Frame.keeps_bind (speaks_call D)
  intro malloc
  apply Frame.keeps_ite (fun _ => Frame.keeps_pure _)
  intro _
  cases hexPairs D.charSigned hex <;> exact Frame.keeps_pure _

theorem speaks_writeNewUser (data : Bytes) : speaks.Keeps (writeNewUser D data) := by
  apply Frame.keeps_bind (speaks_call D)
  intro opened
  apply Frame.keeps_ite (fun _ => Frame.keeps_pure _)
  intro _
  apply Frame.keeps_bind (speaks_call D)
  intro written
  apply Frame.keeps_bind (speaks_call D)
  intro flushed
  apply Frame.keeps_bind
  · exact Frame.keeps_modify fun s => ⟨⟨[], by simp, by simp⟩, rfl⟩
  intro _
  apply Frame.keeps_ite (fun _ => speaks_fail (by decide) _)
  intro _
  apply Frame.keeps_bind (speaks_execvWrapper D _)
  intro setprop
  exact Frame.keeps_ite (fun _ => speaks_fail (by decide) _) fun _ =>
    Frame.keeps_ite (fun _ => speaks_fail (by decide) _)
      fun _ => speaks_fail (by decide) _

theorem speaks_cmdSetname (args : List Bytes) : speaks.Keeps (cmdSetname D args) := by
  cases args with
  | nil => exact speaks_fail (by decide) _
  | cons hex args =>
    apply Frame.keeps_bind (speaks_mallocHexToBuf D hex)
    intro data
    cases data with
    | error errno =>
      apply speaks_fail
      split_ifs <;> decide
    | ok data =>
      apply Frame.keeps_bind (speaks_allocGetUser D)
      intro olduserdata
      cases olduserdata with
      | ok user => exact speaks_fail (by decide) _
      | error errno =>
        exact Frame.keeps_ite (fun _ => speaks_fail (by decide) _)
          (fun _ => speaks_writeNewUser D data)

theorem handleDownload_run (netTime : ℤ) {payload : Bytes} (h : sizeofDumbPayload ≤ payload.length)
    (s : State) :
    handleDownload D netTime payload s =
      let r := handleOnePayload D netTime (DumbPayload.ofBytes payload h) s
      (r.1.1, r.2) := by
  rw [handleDownload, dif_neg (not_lt.mpr h)]
  rfl

theorem handleDownload_spoken (netTime : ℤ) (payload : Bytes) (s : State) :
    Spoken s (handleDownload D netTime payload s).1 (handleDownload D netTime payload s).2 := by
  rcases lt_or_ge payload.length sizeofDumbPayload with hshort | hsize
  · rw [handleDownload, dif_pos hshort]
    exact Spoken.of_speaks (speaks_fail (by decide) _) s
  · rw [handleDownload_run D netTime hsize]
    exact handleAt_spoken D netTime _ (DumbPayload.ofBytes payload hsize) s

/-- What comes before the download only speaks. -/
theorem secretCode_spoken (args : List Bytes) (s : State) :
    Spoken s (secretCode D args s).1 (secretCode D args s).2 := by
  have hbind : ∀ {α : Type} {m : Act α} {f : α → Act ℤ} (s : State), speaks.Keeps m →
      (∀ a t, Spoken t (f a t).1 (f a t).2) → Spoken s ((m >>= f) s).1 ((m >>= f) s).2 :=
    fun s hm hf => Spoken.trans (speech_of_speaks (hm s)) (hf _ _)
  match args with
  | [] | _ :: _ :: _ => exact Spoken.of_speaks (speaks_fail (by decide) _) s
  | [code] =>
    rw [secretCode]
    split_ifs
    · exact Spoken.of_speaks (speaks_fail (by decide) _) s
    · apply hbind s (speaks_call D)
      intro netTime t
      split_ifs
      · exact Spoken.of_speaks (speaks_fail (by decide) _) t
      · apply hbind t (speaks_requestURL D _ _ _ _)
        intro url t
        cases url with
        | error err => exact Or.inl (speech.refl t)
        | ok url =>
          apply hbind t (speaks_send_ascii (by decide))
          intro _ t
          apply hbind t (speaks_fetch D url)
          intro payload t
          split_ifs
          · exact Spoken.of_speaks (speaks_downloadFailed _) t
          · exact handleDownload_spoken D netTime.ret payload.data t

/-- The other commands only speak, apart from the one that sends stored names. -/
theorem speaks_clientCommand (args : List Bytes) {command : ClientCommand} (hcode : command ≠ .code)
    (hget : command ≠ .getUsername) : speaks.Keeps (command.run D args) := by
  cases command with
  | code => exact absurd rfl hcode
  | getUsername => exact absurd rfl hget
  | ok | notok => exact Frame.keeps_pure _
  | oemLock =>
    exact Frame.keeps_bind (speaks_send_ascii (by decide)) fun _ => speaks_setOemLock D true
  | version =>
    exact Frame.keeps_bind (speaks_send (by decide)) fun _ => Frame.keeps_pure _
  | setname => exact speaks_cmdSetname D args
  | uploadData => exact speaks_cmdUploadData D args

/-- The names are read off the table. -/
theorem name_of_clientCommand {name : Bytes} {command : ClientCommand}
    (h : ClientCommand.ofName name = some command) : (name, command) ∈ commandsList := by
  obtain ⟨entry, hfind, rfl⟩ := Option.map_eq_some_iff.mp h
  have hname : entry.1 = name := by simpa using List.find?_some hfind
  rw [← hname]
  exact List.mem_of_find?_eq_some hfind

end ClientCommands

end Dumbos.Daemon
