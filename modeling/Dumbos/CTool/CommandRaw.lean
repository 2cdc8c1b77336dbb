import Dumbos.Payload.Access

/-! # Setting the command without its data

`set-cmd-raw` loads a payload file, copies a string over the command and writes the
file back. The check of the length only logs: a longer string runs on over the size
and the data, and past the end of a file that is too short for it.
-/
namespace Dumbos.CTool
open Foundation Common Payload

/-- `offsetof(struct DUMB_PAYLOAD, command)`. -/
def commandOffset : ℕ := ED25519_SIGNATURE_HEX_SIZE + EXPIRE_SIZE

structure RawCalls where
  load : LoadCalls
  write : WriteCalls

/-- `strcpy` over the command of a loaded file; the block has one byte more than the file, and `none`
is a copy that leaves it. -/
def strcpyCommand (command file : Bytes) : Option Bytes :=
  if commandOffset + (command ++ [0]).length ≤ file.length + 1 then
    some ((splice commandOffset (command ++ [0]) file).take file.length)
  else none

/-- The return value and the files afterwards, of a command that is a C string. -/
def cmdCommandSetRaw (calls : RawCalls) (fs : FileSystem) (path command : Bytes) :
    Option (ℕ × FileSystem) :=
  match dpMallocLoad fs calls.load path with
  | .error e => some (e, fs)
  | .ok file => match strcpyCommand command file.val with
    | none => none
    | some payload => match calls.write.openFile with
      | .error e => some (e, fs)
      | .ok () => match calls.write.writeAll with
        | some (n, e) => some (e, writeOver fs path (payload.take n))
        | none => some (0, writeOver fs path payload)

/-- The string stands in the field, with its NUL. -/
def HoldsText {n : ℕ} (field : Foundation.Field n) (s : Bytes) : Prop :=
  ∃ rest, field.val = s ++ 0 :: rest

/-- A call that fails changes nothing, one that returns 0 changes the command alone. -/
def TouchesCommandOnly (fs : FileSystem) (path command : Bytes) (file : PayloadFile)
    (result : Option (ℕ × FileSystem)) : Prop :=
  ∃ ret after, result = some (ret, Function.update fs path (some after)) ∧
    (ret ≠ 0 ∧ after = file.val ∨ ret = 0 ∧ ∃ field, HoldsText field command ∧
      after = { file.payload with command := field }.toBytes)

/-- The copy stays in the block, and what is written of it stays in the field. A write that fails
must not have changed anything by then. -/
def KeepsToField (calls : WriteCalls) (command : Bytes) (file : PayloadFile) : Prop :=
  commandOffset + command.length ≤ file.val.length ∧
    match calls.openFile, calls.writeAll with
    | .error _, _ => True
    | .ok (), none => command.length < COMMAND_SIZE
    | .ok (), some (n, _) =>
      (command ++ [0]).take (min n file.val.length - commandOffset) <+: file.val.drop commandOffset

/-- A file whose length is negative as an `int` counts as not read, with whatever is in `errno`. -/
def RawCalls.Harmless (calls : RawCalls) (command : Bytes) (file : PayloadFile) : Prop :=
  LoadFails calls.load ∨
    if NegativeInt file.val.length then calls.load.errno ≠ 0 ∨ HoldsText file.payload.command command
    else KeepsToField calls.write command file

theorem dpMallocLoad_cases {fs : FileSystem} {path : Bytes} {file : PayloadFile}
    (hfile : fs path = some file.val) (calls : LoadCalls) :
    (LoadFails calls ∧ ∃ e : Errno, dpMallocLoad fs calls path = .error (e : ℕ)) ∨
      ¬LoadFails calls ∧ dpMallocLoad fs calls path =
        if NegativeInt file.val.length then .error calls.errno else .ok file := by
  rw [dpMallocLoad, hfile]
  dsimp only
  rcases readOpened_cases calls file.property with ⟨hfails, e, he⟩ | ⟨hfails, hread⟩
  · exact .inl ⟨hfails, e, by rw [he]⟩
  · exact .inr ⟨hfails, by rw [hread]⟩

/-- A copy that fits into the field is one into the field. -/
theorem splice_command (p : DumbPayload) {command : Bytes} (h : command.length < COMMAND_SIZE) :
    splice commandOffset (command ++ [0]) p.toBytes =
      { p with command := p.command.snprintf command }.toBytes := by
  have hlen : (p.signature.val ++ p.expire.val).length = commandOffset := by
    rw [List.length_append, p.signature.property, p.expire.property, commandOffset]
  have hbytes : p.toBytes = (p.signature.val ++ p.expire.val) ++ (p.command.val ++ (p.padding.val ++
      (p.dataSize.val ++ p.payload))) := by
    rw [DumbPayload.toBytes, List.append_assoc]
  have hle : (command ++ [0]).length ≤ p.command.val.length := by
    rw [List.length_append, List.length_singleton, p.command.property]
    exact h
  rw [splice, hbytes, List.take_left' hlen, ← List.drop_drop, List.drop_left' hlen,
    List.drop_append_of_le_length hle, DumbPayload.toBytes, Field.snprintf_val _ (Nat.le_of_lt_succ h)]
  simp only [List.append_assoc]

section Outcome
variable {fs : FileSystem} {path command : Bytes} {file : PayloadFile}

theorem strcpyCommand_eq (command : Bytes) (file : PayloadFile) :
    strcpyCommand command file.val =
      if commandOffset + command.length ≤ file.val.length then
        some ((splice commandOffset (command ++ [0]) file.val).take file.val.length)
      else none := by
  rw [strcpyCommand, List.length_append, List.length_singleton, ← Nat.add_assoc]
  exact if_congr Nat.add_le_add_iff_right rfl rfl

theorem writeOver_eq_update (hfile : fs path = some file.val) (new : Bytes) :
    writeOver fs path new = Function.update fs path (some (new ++ file.val.drop new.length)) := by
  funext p
  rw [writeOver, Function.update_apply, hfile]
  rfl

theorem eq_update (hfile : fs path = some file.val) :
    fs = Function.update fs path (some file.val) := by
  rw [← hfile, Function.update_eq_self]

theorem touchesCommandOnly_some_iff {ret : ℕ} {after : Bytes} :
    TouchesCommandOnly fs path command file (some (ret, Function.update fs path (some after))) ↔
      ret ≠ 0 ∧ after = file.val ∨ ret = 0 ∧ ∃ field, HoldsText field command ∧
        after = { file.payload with command := field }.toBytes := by
  constructor
  · rintro ⟨ret', after', hresult, h⟩
    rw [Option.some.injEq, Prod.mk.injEq] at hresult
    obtain ⟨rfl, hfs⟩ := hresult
    have hafter := congrFun hfs path
    rw [Function.update_self, Function.update_self, Option.some.injEq] at hafter
    rwa [hafter]
  · intro h
    exact ⟨ret, after, rfl, h⟩

/-- The file is as it was. -/
theorem touchesCommandOnly_unchanged_iff (hfile : fs path = some file.val) (ret : ℕ) :
    TouchesCommandOnly fs path command file (some (ret, fs)) ↔
      ret ≠ 0 ∨ HoldsText file.payload.command command := by
  have hiff := @touchesCommandOnly_some_iff fs path command file ret file.val
  rw [← eq_update hfile] at hiff
  rw [hiff]
  by_cases hret : ret = 0
  · subst hret
    simp only [ne_eq, not_true_eq_false, false_and, false_or, true_and]
    constructor
    · rintro ⟨field, hholds, hafter⟩
      rw [← file.payload_toBytes] at hafter
      rwa [DumbPayload.toBytes_injective hafter]
    · intro hholds
      exact ⟨file.payload.command, hholds, file.payload_toBytes.symm⟩
  · simp [hret]

theorem HoldsText.length_lt {n : ℕ} {field : Foundation.Field n} {s : Bytes} (h : HoldsText field s) :
    s.length < n := by
  obtain ⟨rest, hval⟩ := h
  have hlen := congrArg List.length hval
  rw [field.property, List.length_append, List.length_cons] at hlen
  omega

theorem holdsText_snprintf {n : ℕ} (old : Foundation.Field (n + 1)) {s : Bytes} (h : s.length ≤ n) :
    HoldsText (old.snprintf s) s := by
  refine ⟨old.val.drop (s ++ [0]).length, ?_⟩
  rw [Field.snprintf_val old h, List.append_assoc, List.singleton_append]

/-- The written file has the whole copy, and the field may have become too small for it. -/
theorem touchesCommandOnly_written_iff (hfile : fs path = some file.val)
    (hblock : commandOffset + command.length ≤ file.val.length) :
    TouchesCommandOnly fs path command file (some (0, writeOver fs path
        ((splice commandOffset (command ++ [0]) file.val).take file.val.length))) ↔
      command.length < COMMAND_SIZE := by
  have hlen : ((splice commandOffset (command ++ [0]) file.val).take file.val.length).length =
      file.val.length := by
    apply List.length_take_of_le
    simp only [splice, List.length_append, List.length_take, List.length_drop]
    omega
  rw [writeOver_eq_update hfile, hlen, List.drop_length, List.append_nil, touchesCommandOnly_some_iff]
  constructor
  · rintro (⟨hne, -⟩ | ⟨-, field, hholds, -⟩)
    · exact absurd rfl hne
    · exact hholds.length_lt
  · intro hfits
    refine .inr ⟨rfl, file.payload.command.snprintf command,
      holdsText_snprintf _ (Nat.le_of_lt_succ hfits), ?_⟩
    rw [← splice_command file.payload hfits, file.payload_toBytes]
    apply List.take_of_length_le
    rw [splice_length]
    rw [List.length_append, List.length_singleton]
    have hsize := file.property
    have hoffset : commandOffset = 145 := rfl
    simp only [sizeofDumbPayload, COMMAND_SIZE] at hsize hfits
    omega

/-- A write that fails must have changed nothing by then. -/
theorem touchesCommandOnly_failed_iff (hfile : fs path = some file.val) (n : ℕ) (e : Errno)
    (hblock : commandOffset + command.length ≤ file.val.length) :
    TouchesCommandOnly fs path command file (some ((e : ℕ), writeOver fs path
        (((splice commandOffset (command ++ [0]) file.val).take file.val.length).take n))) ↔
      (command ++ [0]).take (min n file.val.length - commandOffset) <+:
        file.val.drop commandOffset := by
  rw [writeOver_eq_update hfile, touchesCommandOnly_some_iff, List.take_take,
    ← take_splice_eq_take_iff (by omega)]
  have hlen : ((splice commandOffset (command ++ [0]) file.val).take (min n file.val.length)).length =
      min n file.val.length := by
    apply List.length_take_of_le
    simp only [splice, List.length_append, List.length_take, List.length_drop]
    omega
  rw [hlen]
  constructor
  · rintro (⟨-, hafter⟩ | ⟨hzero, -⟩)
    · conv_rhs at hafter => rw [← List.take_append_drop (min n file.val.length) file.val]
      exact List.append_cancel_right hafter
    · exact absurd hzero e.ne_zero
  · intro h
    refine .inl ⟨e.ne_zero, ?_⟩
    rw [h, List.take_append_drop]

theorem not_touchesCommandOnly_none : ¬TouchesCommandOnly fs path command file none := by
  rintro ⟨_, _, hresult, -⟩
  cases hresult

/-- `set-cmd-raw` keeps to the command field exactly if its calls are harmless. -/
theorem cmdCommandSetRaw_touchesCommandOnly_iff (calls : RawCalls)
    (hfile : fs path = some file.val) :
    TouchesCommandOnly fs path command file (cmdCommandSetRaw calls fs path command) ↔
      calls.Harmless command file := by
  rw [cmdCommandSetRaw, RawCalls.Harmless]
  rcases dpMallocLoad_cases hfile calls.load with ⟨hfails, e, hload⟩ | ⟨hfails, hload⟩
  · rw [hload]
    dsimp only
    rw [touchesCommandOnly_unchanged_iff hfile]
    exact iff_of_true (.inl e.ne_zero) (.inl hfails)
  · rw [hload]
    simp only [hfails, false_or]
    by_cases hint : NegativeInt file.val.length
    · rw [if_pos hint, if_pos hint]
      exact touchesCommandOnly_unchanged_iff hfile calls.load.errno
    · rw [if_neg hint, if_neg hint]
      dsimp only
      rw [strcpyCommand_eq, KeepsToField]
      by_cases hblock : commandOffset + command.length ≤ file.val.length
      · simp only [hblock, if_true, true_and]
        cases calls.write.openFile with
        | error e =>
          dsimp only
          rw [touchesCommandOnly_unchanged_iff hfile]
          exact iff_of_true (.inl e.ne_zero) trivial
        | ok _ =>
          cases calls.write.writeAll with
          | none => exact touchesCommandOnly_written_iff hfile hblock
          | some failure => exact touchesCommandOnly_failed_iff hfile failure.1 failure.2 hblock
      · simp only [hblock, if_false, false_and, iff_false]
        exact not_touchesCommandOnly_none

end Outcome

/-- A system in which every call succeeds. -/
def RawCalls.calm : RawCalls := ⟨⟨ENOENT, .ok (), .ok (), .ok (), 0⟩, ⟨.ok (), none⟩⟩

def okFile : PayloadFile :=
  ⟨(DumbPayload.unsigned (ascii "0") (ascii "ok") []).toBytes, DumbPayload.le_toBytes_length _⟩

def okFiles : FileSystem := fun _ => some okFile.val

/-- Eleven characters leave the rest of the file alone. -/
theorem cmdCommandSetRaw_touchesCommandOnly_wifi :
    TouchesCommandOnly okFiles (ascii "code") (ascii "wifi-enable") okFile
      (cmdCommandSetRaw .calm okFiles (ascii "code") (ascii "wifi-enable")) := by
  have hlen : okFile.val.length = 168 := DumbPayload.toBytes_length _
  have hfits : (ascii "wifi-enable").length < COMMAND_SIZE := by decide
  have hkeeps : KeepsToField RawCalls.calm.write (ascii "wifi-enable") okFile := by
    refine ⟨?_, hfits⟩
    rw [hlen]
    decide
  have hint : ¬NegativeInt okFile.val.length := by
    rw [hlen]
    decide
  have hharmless : RawCalls.calm.Harmless (ascii "wifi-enable") okFile := by
    rw [RawCalls.Harmless, if_neg hint]
    exact .inr hkeeps
  have hfile : okFiles (ascii "code") = some okFile.val := rfl
  exact (cmdCommandSetRaw_touchesCommandOnly_iff .calm hfile).mpr hharmless

/-- Twenty characters, which end in the size field. -/
theorem not_cmdCommandSetRaw_touchesCommandOnly :
    ¬∀ (calls : RawCalls) (fs : FileSystem) (path command : Bytes) (file : PayloadFile),
      0 ∉ command → fs path = some file.val →
        TouchesCommandOnly fs path command file (cmdCommandSetRaw calls fs path command) := by
  intro h
  obtain ⟨ret, after, hresult, hcases⟩ := h .calm okFiles (ascii "code")
    (ascii "firewall-temporarily") okFile (by decide) rfl
  have hret := congrArg (Option.map Prod.fst) hresult
  have hzero : (cmdCommandSetRaw .calm okFiles (ascii "code")
      (ascii "firewall-temporarily")).map Prod.fst = some 0 := by
    decide +kernel
  rw [hzero, Option.map_some, Option.some.injEq] at hret
  rcases hcases with ⟨hne, -⟩ | ⟨-, field, hholds, -⟩
  · exact hne hret.symm
  · exact absurd hholds.length_lt (by decide)

end Dumbos.CTool
