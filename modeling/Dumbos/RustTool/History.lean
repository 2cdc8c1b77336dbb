import Dumbos.RustTool.Representation

/-! # Histories of a payload

Whatever is done to a payload, its recorded size stays the one of its header and
its getters return what was set last. An operation that fails leaves the payload
alone, apart from a signature that `sign` has cleared by then. `Expected` follows
what the getters have to return.
-/
namespace Dumbos.RustTool
open Foundation Common Payload

/-- What can be done to a payload; every allocation succeeds. -/
inductive Op where
  | setCommand (command : String)
  | setExpireRaw (expire : String)
  | setData (data : Bytes)
  | clearData
  | sign (privKey : String)
  | checkExpireAndSet (now later : ℤ)
  | clone

/-- What the getters return. -/
structure Expected where
  command : Except Failure String
  expireRaw : Except Failure String
  data : Except Failure Bytes

def Expected.of (p : DumbPayload) : Expected := ⟨getCommand p, getExpireRaw p, getData (.ok ()) p⟩

variable (E : Ed25519)

def Op.apply : Op → DumbPayload → Except Failure Unit × DumbPayload
  | .setCommand command, p => RustTool.setCommand command p
  | .setExpireRaw expire, p => RustTool.setExpireRaw expire p
  | .setData data, p => RustTool.setData (.ok ()) data p
  | .clearData, p => RustTool.clearData (.ok ()) p
  | .sign privKey, p => RustTool.sign E privKey p
  | .checkExpireAndSet now later, p => (.ok (), (RustTool.checkExpireAndSet now later p).2)
  | .clone, p => match payloadClone (.ok ()) p with
    | .error e => (.error e, p)
    | .ok q => (.ok (), q)

/-- A successful setter sets what its getter returns; the check replaces a text that is no time. -/
def Op.expect (p : DumbPayload) (e : Expected) : Op → Expected
  | .setCommand command =>
    if (RustTool.setCommand command p).1 = .ok () then { e with command := .ok command } else e
  | .setExpireRaw expire =>
    if (RustTool.setExpireRaw expire p).1 = .ok () then { e with expireRaw := .ok expire } else e
  | .setData data =>
    if (RustTool.setData (.ok ()) data p).1 = .ok () then { e with data := .ok data } else e
  | .clearData => { e with data := .ok [] }
  | .sign _ => e
  | .checkExpireAndSet now later =>
    if dpGetExpire p.ptr = -1 then
      { e with expireRaw := getExpireRaw (RustTool.checkExpireAndSet now later p).2 }
    else e
  | .clone => e

/-- The payload and what is expected of it after a list of operations. -/
def run : List Op → DumbPayload × Expected → DumbPayload × Expected
  | [], s => s
  | op :: ops, s => run ops ((op.apply E s.1).2, op.expect s.1 s.2)

/-- Step: no operation lets the sizes fall out of step. -/
theorem Op.apply_consistent {p : DumbPayload} (h : Consistent p) (op : Op) :
    Consistent (op.apply E p).2 := by
  cases op with
  | setCommand command =>
    rcases setCommand_cases command p with ⟨e, heq⟩ | ⟨field, -, heq⟩ <;> rw [apply, heq]
    · exact h
    · exact h.of_eq rfl rfl
  | setExpireRaw expire =>
    rcases setExpireRaw_cases expire p with ⟨e, heq⟩ | ⟨field, -, heq⟩ <;> rw [apply, heq]
    · exact h
    · exact h.of_eq rfl rfl
  | setData data =>
    rcases setData_cases data p with ⟨e, -, heq⟩ | ⟨hle, heq⟩ <;> rw [apply, heq]
    · exact h
    · exact setData_consistent hle p.ptr
  | clearData => exact setData_consistent (Nat.zero_le _) p.ptr
  | sign privKey =>
    rcases sign_cases E h privKey with ⟨e, heq | heq⟩ | ⟨s, heq⟩ <;> rw [apply, heq]
    · exact h
    · exact h.of_eq rfl rfl
    · exact h.of_eq rfl rfl
  | checkExpireAndSet now later =>
    rcases checkExpireAndSet_cases now later p with ⟨-, heq⟩ | ⟨-, heq⟩ <;> rw [apply, heq]
    · exact h
    · exact h.of_eq rfl rfl
  | clone =>
    rw [apply, payloadClone_eq h]
    exact h

/-- Step: the getters return what the operation lets expect. -/
theorem Op.expected_apply {p : DumbPayload} (h : Consistent p) (op : Op) :
    Expected.of (op.apply E p).2 = op.expect p (Expected.of p) := by
  cases op with
  | setCommand command =>
    rcases setCommand_cases command p with ⟨e, heq⟩ | ⟨field, hfield, heq⟩ <;>
      rw [apply, expect, heq]
    · rfl
    · have hget : getCommand { p with ptr := { p.ptr with command := field } } = .ok command := by
        rw [getCommand, dpGetCommand, hfield]
        exact toStr_ascii command
      rw [Expected.of, hget]
      rfl
  | setExpireRaw expire =>
    rcases setExpireRaw_cases expire p with ⟨e, heq⟩ | ⟨field, hfield, heq⟩ <;>
      rw [apply, expect, heq]
    · rfl
    · have hget : getExpireRaw { p with ptr := { p.ptr with expire := field } } = .ok expire := by
        rw [getExpireRaw, dpGetExpireStr, hfield]
        exact toStr_ascii expire
      rw [Expected.of, hget]
      rfl
  | setData data =>
    rcases setData_cases data p with ⟨e, -, heq⟩ | ⟨hle, heq⟩ <;> rw [apply, expect, heq]
    · rfl
    · rw [Expected.of, (setData_consistent hle p.ptr).getData_eq]
      rfl
  | clearData =>
    have hget := (@setData_consistent [] (Nat.zero_le _) p.ptr).getData_eq
    rw [apply, expect, Expected.of]
    exact congrArg (Expected.mk _ _) hget
  | sign privKey =>
    rcases sign_cases E h privKey with ⟨e, heq | heq⟩ | ⟨s, heq⟩ <;> rw [apply, heq] <;> rfl
  | checkExpireAndSet now later =>
    rcases checkExpireAndSet_cases now later p with ⟨hset, heq⟩ | ⟨hset, heq⟩ <;>
      rw [apply, expect, heq]
    · rw [if_neg hset]
    · rw [if_pos hset]
      rfl
  | clone =>
    rw [apply, payloadClone_eq h]
    rfl

/-- An operation that fails changes nothing, but signing may have cleared the signature. -/
theorem Op.apply_error {p : DumbPayload} (h : Consistent p) (op : Op) {e : Failure}
    (herr : (op.apply E p).1 = .error e) :
    (op.apply E p).2 = p ∨
      (∃ privKey, op = .sign privKey) ∧
        (op.apply E p).2 = { p with ptr := zeroSignature p.ptr } := by
  cases op with
  | setCommand command =>
    rcases setCommand_cases command p with ⟨e, heq⟩ | ⟨field, -, heq⟩ <;> rw [apply, heq] at herr ⊢
    · exact .inl rfl
    · cases herr
  | setExpireRaw expire =>
    rcases setExpireRaw_cases expire p with ⟨e, heq⟩ | ⟨field, -, heq⟩ <;> rw [apply, heq] at herr ⊢
    · exact .inl rfl
    · cases herr
  | setData data =>
    rcases setData_cases data p with ⟨e, -, heq⟩ | ⟨-, heq⟩ <;> rw [apply, heq] at herr ⊢
    · exact .inl rfl
    · cases herr
  | clearData => cases herr
  | sign privKey =>
    rcases sign_cases E h privKey with ⟨e, heq | heq⟩ | ⟨s, heq⟩ <;> rw [apply, heq] at herr ⊢
    · exact .inl rfl
    · exact .inr ⟨⟨privKey, rfl⟩, rfl⟩
    · cases herr
  | checkExpireAndSet now later => cases herr
  | clone =>
    rw [apply, payloadClone_eq h] at herr
    cases herr

/-- Run: the sizes stay in step and the getters return what was set last. -/
theorem run_expected (ops : List Op) {p : DumbPayload} (h : Consistent p) {expected : Expected}
    (he : Expected.of p = expected) :
    Consistent (run E ops (p, expected)).1 ∧
      Expected.of (run E ops (p, expected)).1 = (run E ops (p, expected)).2 := by
  induction ops generalizing p expected with
  | nil => exact ⟨h, he⟩
  | cons op ops ih =>
    apply ih (Op.apply_consistent E h op)
    rw [Op.expected_apply E h op, he]

/-- Whatever is done to a payload that was created: the recorded size is the one of the header and
passes the check; the getters return what was set last; an operation that fails changes nothing but
a signature that it was to replace; and both round trips give the payload back. -/
theorem run_created {p : DumbPayload} (h : Created p) (ops : List Op) :
    ∀ q expected, run E ops (p, Expected.of p) = (q, expected) →
      (q.size = sizeofDumbPayload + bigEndian q.ptr.dataSize.val ∧ dpValidateSize q.ptr q.size) ∧
      Expected.of q = expected ∧
      (∀ op e, (Op.apply E op q).1 = .error e → (Op.apply E op q).2 = q ∨
        (∃ privKey, op = .sign privKey) ∧
          (Op.apply E op q).2 = { q with ptr := zeroSignature q.ptr }) ∧
      dumbpayloadToU8 q = .ok q.ptr.toBytes ∧ u8ToDumbpayload (.ok ()) q.ptr.toBytes = .ok q ∧
      ∀ fs calls path fs', writeToFile fs calls path q = (.ok (), fs') → ∀ openErrno errno,
        readFromFile fs' ⟨openErrno, .ok (), .ok (), .ok (), errno⟩ path = .ok q := by
  intro q expected hrun
  obtain ⟨hq, he⟩ := run_expected E ops h.consistent rfl
  rw [hrun] at hq he
  refine ⟨⟨hq.size_eq, hq.valid⟩, he, ?_, dumbpayloadToU8_eq hq, u8ToDumbpayload_toBytes hq, ?_⟩
  · exact fun op e herr => Op.apply_error E hq op herr
  · exact fun fs calls path fs' hwrite openErrno errno =>
      readFromFile_writeToFile hq hwrite openErrno errno

/-- A payload is created, given a command that fits and one that does not, data and a signature. -/
def fiveOps : List Op :=
  [.setCommand "fw-allow", .setCommand "a command too long", .setData [97, 0],
    .checkExpireAndSet 5 6, .sign "key"]

theorem run_created_fiveOps : ∃ p q expected, createNew (.ok ()) = .ok p ∧
    run Ed25519.always fiveOps (p, Expected.of p) = (q, expected) ∧ q.size = 170 ∧
    getCommand q = .ok "fw-allow" ∧ getData (.ok ()) q = .ok [97, 0] := by
  have hnew : createNew (.ok ()) = .ok ⟨DumbPayload.ofBytes (List.replicate 168 0) le_rfl, 168⟩ := rfl
  obtain ⟨⟨hsize, -⟩, he, -⟩ := @run_created Ed25519.always _ (.new hnew) fiveOps _ _ rfl
  refine ⟨_, _, _, hnew, rfl, ?_, (congrArg Expected.command he).trans ?_,
    (congrArg Expected.data he).trans ?_⟩
  · rw [hsize]
    decide +kernel
  · decide +kernel
  · decide +kernel

end Dumbos.RustTool
