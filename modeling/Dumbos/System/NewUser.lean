import Dumbos.Daemon.Command
import Dumbos.Foundation.Run

/-! # Setting the user

`set_name` checks that its argument is hex and leaves the blob for init, which
copies it over the stored user. Reading the user checks the size and the magic of
the blob, and a blob that fails there still counts as a user that has been set.
-/
namespace Dumbos.System
open Foundation Common Payload Request Daemon

/-- A command `set_name` and what it meets; a call that fails leaves an error number. -/
structure SetName where
  device : Device
  state : State
  args : List Bytes
  errno_ne : ∀ t, (device.reply t).errno ≠ 0

/-- How many bytes of its blob reach the file for init when the command closes it. -/
def SetName.kept (c : SetName) : ℕ := (c.device.reply (c.state.ticks + 4)).ret.toNat

/-- `/dev/dumbos-userdata` when it is opened. -/
def userFile (store : Option Bytes) : Except ℕ Bytes := store.elim (.error ENOENT) .ok

/-- The device with this user; opening the file may still fail for a reason of its own. -/
def overStore (D : Device) (store : Option Bytes) : Device :=
  { D with userFile := fun t => match D.userFile t with
    | .error errno => if errno = ENOENT then userFile store else .error errno
    | .ok _ => userFile store }

/-- The `copy` of init on `dumbos.newuser=1`; without a new blob it does nothing. -/
def initCopy (store newUser : Option Bytes) : Option Bytes := newUser.or store

/-- A command and what init does about it before the next one comes. -/
def setNameStep (store : Option Bytes) (c : SetName) : ℤ × Option Bytes :=
  let (err, s) := cmdSetname (overStore c.device store) c.args c.state
  (err, if err = 0 then initCopy store s.newUser else store)

/-- `malloc_hex_to_buf` when there is memory. -/
def hexToBuf (charSigned : Bool) (hex : Bytes) : Option Bytes :=
  if hex.length % 2 ≠ 0 then none else hexPairs charSigned hex

/-- The stored blob can be read as a user. -/
def Readable (store : Option Bytes) : Prop :=
  ∃ user, dumbosAllocGetUser (userFile store) = .ok user

/-- The argument is refused, or it is the hex of a blob of which what is kept has the size and the
magic of a user. -/
def HoldsUser (charSigned : Bool) (kept : ℕ) (args : List Bytes) : Prop :=
  ∀ hex ∈ args.head?, ∀ data, hexToBuf charSigned hex = some data →
    sizeofDumbosUserData ≤ (data.take kept).length ∧
      (data.take kept).take DUMBOS_USER_DATA_MAGIC_SIZE = DUMBOS_USER_DATA_MAGIC

theorem overStore_userFile_eq_enoent {D : Device} {store : Option Bytes} {t : ℕ}
    (h : (overStore D store).userFile t = .error ENOENT) : store = none := by
  cases store with
  | none => rfl
  | some blob =>
    simp only [overStore, userFile, Option.elim_some] at h
    split at h
    · split_ifs at h with herrno
      exact absurd (Except.error.inj h) herrno
    · cases h

section Command
variable {D : Device}

theorem newUser_send (msg : Bytes) (s : State) : (send msg s).2.newUser = s.newUser := by
  change (if _ then s else _).newUser = s.newUser
  split_ifs <;> rfl

/-- A failure promises nothing. -/
theorem triple_fail {P R : State → Prop} (msg : String) {err : ℤ} (h : ∀ s, P s → err ≠ 0) :
    Triple P (fail msg err) (fun r s => r = 0 → R s) :=
  fun s hs hr => absurd hr (h s hs)

theorem triple_errno {P R : State → Prop} {errno : ℕ} (h : ∀ s, P s → errno ≠ 0) :
    Triple P (pure (errno : ℤ)) (fun r s => r = 0 → R s) :=
  triple_pure fun s hs hr => absurd (Int.natCast_eq_zero.mp hr) (h s hs)

variable (herrno : ∀ t, (D.reply t).errno ≠ 0)
include herrno

/-- A write that succeeds leaves for init what the flush has kept of the blob. -/
theorem writeNewUser_triple (tick : ℕ) (data : Bytes) :
    Triple (fun s => s.ticks = tick) (writeNewUser D data) (fun r s => r = 0 →
      s.newUser = some (data.take (D.reply (tick + 2)).ret.toNat)) := by
  rw [writeNewUser]
  refine triple_bind (Q := fun opened s => opened.errno ≠ 0 ∧ s.ticks = tick + 1)
    (fun s hs => ⟨herrno s.ticks, congrArg (· + 1) hs⟩) ?_
  intro opened
  apply triple_ite
  · exact fun _ => triple_errno fun _ h => h.1
  intro _
  refine triple_bind (Q := fun written s => written.errno ≠ 0 ∧ s.ticks = tick + 2)
    (fun s hs => ⟨herrno s.ticks, congrArg (· + 1) hs.2⟩) ?_
  intro written
  refine triple_bind (Q := fun flushed _ => written.errno ≠ 0 ∧ flushed = D.reply (tick + 2))
    (fun s hs => ⟨hs.1, congrArg D.reply hs.2⟩) ?_
  intro flushed
  refine triple_bind (Q := fun _ s => written.errno ≠ 0 ∧ s.newUser =
    some ((data.take written.ret.toNat).take (D.reply (tick + 2)).ret.toNat))
    (fun s hs => ⟨hs.1, by rw [← hs.2]; rfl⟩) ?_
  intro _
  apply triple_ite
  · exact fun _ => triple_fail _ fun _ hs => Int.natCast_ne_zero.mpr hs.1
  intro hwhole
  have htake : data.take written.ret.toNat = data := by
    rw [not_ne_iff.mp hwhole, Int.toNat_natCast, List.take_length]
  rw [htake]
  refine triple_bind (Q := fun setprop s => setprop.errno ≠ 0 ∧
    s.newUser = some (data.take (D.reply (tick + 2)).ret.toNat))
    (fun s hs => ⟨herrno s.ticks, hs.2⟩) ?_
  intro setprop
  apply triple_ite
  · exact fun _ => triple_fail _ fun _ hs => Int.natCast_ne_zero.mpr hs.1
  intro _
  apply triple_ite
  · exact fun hfailed => triple_fail _ fun _ _ => hfailed
  intro _ s hs _
  exact (newUser_send _ s).trans hs.2

theorem mallocHexToBuf_triple (tick : ℕ) (hex : Bytes) :
    Triple (fun s => s.ticks = tick) (mallocHexToBuf D hex) (fun r s => match r with
      | .ok data => hexToBuf D.charSigned hex = some data ∧ s.ticks = tick + 1
      | .error errno => errno ≠ 0) := by
  rw [mallocHexToBuf]
  apply triple_ite
  · intro _ s _
    exact EINVAL.ne_zero
  intro heven
  refine triple_bind (Q := fun malloc s => malloc.errno ≠ 0 ∧ s.ticks = tick + 1)
    (fun s hs => ⟨herrno s.ticks, congrArg (· + 1) hs⟩) ?_
  intro malloc
  apply triple_ite
  · exact fun _ s hs => hs.1
  intro _
  cases hpairs : hexPairs D.charSigned hex with
  | none => exact fun _ _ => EINVAL.ne_zero
  | some data =>
    intro s hs
    refine ⟨?_, hs.2⟩
    rw [hexToBuf, if_neg heven, hpairs]

/-- A command that succeeds met no user and leaves what is kept of the blob of its argument. -/
theorem cmdSetname_triple (tick : ℕ) (store : Option Bytes) (args : List Bytes) :
    Triple (fun s => s.ticks = tick) (cmdSetname (overStore D store) args) (fun r s => r = 0 →
      store = none ∧ ∃ hex ∈ args.head?, ∃ data, hexToBuf D.charSigned hex = some data ∧
        s.newUser = some (data.take (D.reply (tick + 4)).ret.toNat)) := by
  cases args with
  | nil => exact triple_fail _ fun _ _ => by decide
  | cons hex args =>
    rw [cmdSetname]
    refine triple_bind (@mallocHexToBuf_triple (overStore D store) herrno tick hex) ?_
    intro data
    cases data with
    | error errno =>
      exact triple_fail _ fun _ hs => Int.natCast_ne_zero.mpr hs
    | ok data =>
      refine triple_bind (Q := fun olduserdata s => hexToBuf D.charSigned hex = some data ∧
        (olduserdata = .error ENOENT → store = none) ∧ s.ticks = tick + 2) ?_ ?_
      · intro s hs
        exact ⟨hs.1, fun h => overStore_userFile_eq_enoent (dumbosAllocGetUser_eq_enoent h),
          congrArg (· + 1) hs.2⟩
      intro olduserdata
      cases olduserdata with
      | ok user => exact triple_fail _ fun _ _ => by decide
      | error errno =>
        apply triple_ite
        · exact fun _ => triple_fail _ fun _ _ => by decide
        intro henoent s hs hr
        have hnone := hs.2.1 (by rw [not_ne_iff.mp henoent])
        exact ⟨hnone, hex, rfl, data, hs.1,
          @writeNewUser_triple (overStore D store) herrno (tick + 2) data s hs.2.2 hr⟩

end Command

theorem mallocHexToBuf_run {D : Device} {hex data : Bytes} {s : State}
    (h : hexToBuf D.charSigned hex = some data) (hmalloc : 0 ≤ (D.reply s.ticks).ret) :
    mallocHexToBuf D hex s = (.ok data, { s with ticks := s.ticks + 1 }) := by
  have hcall : ¬(call D s).1.ret < 0 := not_lt.mpr hmalloc
  rw [hexToBuf] at h
  split_ifs at h with heven
  rw [mallocHexToBuf, if_neg heven, bind_run, if_neg hcall, h]
  rfl

theorem writeNewUser_run {D : Device} {data : Bytes} {s : State}
    (hopened : 0 ≤ (D.reply s.ticks).ret) (hwritten : (D.reply (s.ticks + 1)).ret = data.length)
    (hsetprop : (D.reply (s.ticks + 3)).ret = 0) : (writeNewUser D data s).1 = 0 := by
  have hopen : ¬(call D s).1.ret < 0 := not_lt.mpr hopened
  have hwrite : ¬(call D (call D s).2).1.ret ≠ data.length := not_not.mpr hwritten
  rw [writeNewUser, bind_run, if_neg hopen, bind_run, bind_run, bind_run, if_neg hwrite, bind_run]
  rw [if_neg, if_neg]
  · rfl
  · exact not_not.mpr hsetprop
  · exact not_lt.mpr hsetprop.ge

/-- A device on which a blob of this size can be set, and which keeps this much of it. -/
def accepting (charSigned : Bool) (size kept : ℕ) : Device :=
  { Device.plain Ed25519.always 0 with
    charSigned := charSigned
    reply := fun t => ⟨if t = 3 then size else if t = 4 then kept else 0, EIO, [], []⟩ }

theorem cmdSetname_accepting {charSigned : Bool} {hex data : Bytes}
    (h : hexToBuf charSigned hex = some data) (kept : ℕ) (args : List Bytes) :
    (cmdSetname (overStore (accepting charSigned data.length kept) none) (hex :: args)
      State.start).1 = 0 := by
  rw [cmdSetname, bind_run, mallocHexToBuf_run h le_rfl]
  exact @writeNewUser_run (overStore (accepting charSigned data.length kept) none) data
    { State.start with ticks := 2 } le_rfl rfl rfl

/-- Once there is a user, no command succeeds. -/
theorem setNameStep_stored (blob : Bytes) (c : SetName) :
    (setNameStep (some blob) c).1 ≠ 0 ∧ (setNameStep (some blob) c).2 = some blob := by
  have hfails : (cmdSetname (overStore c.device (some blob)) c.args c.state).1 ≠ 0 := by
    intro h
    have hnone := (cmdSetname_triple c.errno_ne _ (some blob) c.args c.state rfl h).1
    cases hnone
  exact ⟨hfails, if_neg hfails⟩

/-- A command that succeeds stores what is kept of the blob of its argument. -/
theorem setNameStep_unset (c : SetName) :
    (setNameStep none c).1 ≠ 0 ∧ (setNameStep none c).2 = none ∨
      (setNameStep none c).1 = 0 ∧ ∃ hex ∈ c.args.head?, ∃ data,
        hexToBuf c.device.charSigned hex = some data ∧
          (setNameStep none c).2 = some (data.take c.kept) := by
  by_cases herr : (cmdSetname (overStore c.device none) c.args c.state).1 = 0
  · obtain ⟨-, hex, hhex, data, hdata, hnew⟩ :=
      cmdSetname_triple c.errno_ne _ none c.args c.state rfl herr
    exact Or.inr ⟨herr, hex, hhex, data, hdata,
      (if_pos herr).trans (congrArg (initCopy none) hnew)⟩
  · exact Or.inl ⟨herr, if_neg herr⟩

theorem setNameStep_readable {c : SetName} (h : HoldsUser c.device.charSigned c.kept c.args)
    (hzero : (setNameStep none c).1 = 0) : Readable (setNameStep none c).2 := by
  rcases setNameStep_unset c with ⟨hne, -⟩ | ⟨-, hex, hhex, data, hdata, hstore⟩
  · exact absurd hzero hne
  · rw [hstore]
    exact (dumbosAllocGetUser_ok_iff _).mpr (h hex hhex data hdata)

/-- No user, or one that can be read. -/
def Usable (store : Option Bytes) : Prop := store = none ∨ Readable store

theorem setNameStep_usable {store : Option Bytes} {c : SetName}
    (h : HoldsUser c.device.charSigned c.kept c.args) (hstore : Usable store) :
    Usable (setNameStep store c).2 := by
  cases store with
  | some blob => rwa [(setNameStep_stored blob c).2]
  | none =>
    rcases setNameStep_unset c with ⟨-, hnone⟩ | ⟨hzero, -⟩
    · exact Or.inl hnone
    · exact Or.inr (setNameStep_readable h hzero)

/-- No command sets an unreadable user exactly when the argument is fit for it and enough of it is
kept, and a run of such commands leaves no user or a readable one. -/
theorem cmdSetname_readable_iff (charSigned : Bool) :
    (∀ args kept, (∀ c : SetName, c.device.charSigned = charSigned → c.args = args → c.kept = kept →
      (setNameStep none c).1 = 0 → Readable (setNameStep none c).2) ↔
        HoldsUser charSigned kept args) ∧
    ∀ cs : List SetName, (∀ c ∈ cs, HoldsUser c.device.charSigned c.kept c.args) →
      ∀ e ∈ trace setNameStep none cs, e.after = none ∨ Readable e.after := by
  constructor
  · intro args kept
    constructor
    · intro hall hex hhex data hdata
      obtain ⟨rest, rfl⟩ := List.head?_eq_some_iff.mp hhex
      let c : SetName := ⟨accepting charSigned data.length kept, State.start, hex :: rest, fun _ => by
        simp [accepting, EIO.ne_zero]⟩
      have hzero : (setNameStep none c).1 = 0 := cmdSetname_accepting hdata kept rest
      rcases setNameStep_unset c with ⟨hne, -⟩ | ⟨-, hex', hhex', data', hdata', hstore⟩
      · exact absurd hzero hne
      · have hread := hall c rfl rfl rfl hzero
        cases hhex'
        obtain rfl : data = data' := Option.some.inj (hdata.symm.trans hdata')
        rw [hstore] at hread
        exact (dumbosAllocGetUser_ok_iff (data.take kept)).mp hread
    · rintro h c rfl rfl rfl hzero
      exact setNameStep_readable h hzero
  · intro cs hcs e he
    refine ((trace_invariant setNameStep Usable none cs (Or.inl rfl) ?_).1 e he).2
    intro e he hbefore
    rw [eq_callOf_of_mem_trace _ he]
    exact setNameStep_usable (hcs e.input (input_mem_of_mem_trace _ he)) hbefore

/-- A command on a device that accepts a blob of this size. -/
def setNameCommand (size : ℕ) (hex : Bytes) : SetName :=
  ⟨accepting true size size, State.start, [hex], fun _ => EIO.ne_zero⟩

/-- A user without a name, in hex. -/
def emptyUserHex : Bytes :=
  ascii "6470326a73396368616b716b71653100" ++ List.replicate (2 * 258) 48

theorem cmdSetname_readable_iff_emptyUser :
    ∀ e ∈ trace setNameStep none [setNameCommand 274 emptyUserHex],
      e.after = none ∨ Readable e.after := by
  refine (cmdSetname_readable_iff true).2 _ ?_
  intro c hc hex hhex data hdata
  obtain rfl := List.mem_singleton.mp hc
  cases hhex
  have hvalue : hexToBuf true emptyUserHex =
      some (DUMBOS_USER_DATA_MAGIC ++ List.replicate 258 0) := by decide +kernel
  obtain rfl := Option.some.inj (hdata.symm.trans hvalue)
  decide +kernel

/-- One byte is set as the user, cannot be read, and stays. -/
theorem not_cmdSetname_readable :
    (setNameStep none (setNameCommand 1 (ascii "00"))).1 = 0 ∧
      ¬Readable (setNameStep none (setNameCommand 1 (ascii "00"))).2 ∧
      ∀ c, (setNameStep (setNameStep none (setNameCommand 1 (ascii "00"))).2 c).1 ≠ 0 := by
  have hstore : (setNameStep none (setNameCommand 1 (ascii "00"))).2 = some [0] := by decide
  refine ⟨by decide, ?_, ?_⟩
  · rw [hstore]
    intro hread
    have := ((dumbosAllocGetUser_ok_iff [0]).mp hread).1
    simp at this
  · intro c
    rw [hstore]
    exact (setNameStep_stored [0] c).1

end Dumbos.System
