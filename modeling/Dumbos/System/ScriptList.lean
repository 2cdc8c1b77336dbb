import Dumbos.CTool.CommandSet
import Dumbos.Daemon.ScriptArgv
import Dumbos.RustTool.Representation

/-! # String lists from the tools to the scripts

Both tools put each string behind the other with its NUL. The daemon starts the
script of the command with these strings and no others, in their order.
-/
namespace Dumbos.System
open Foundation Common Payload Daemon

/-- Data for a list of strings: set by the Rust tools, or written by the C tool. -/
inductive StringData (strings : List Bytes) : Bytes → Prop where
  | setDataStringlist (list : List String) (p : RustTool.DumbPayload) (hlist : list.map ascii = strings) :
    StringData strings (RustTool.setDataStringlist (.ok ()) list p).2.ptr.payload
  | cmdFirewall {target : CTool.Target} {argv0 written : Bytes} {args : List CTool.AppArg}
    (hargs : args.map (·.app) = strings) (h : CTool.cmdFirewall target argv0 args none = (.ok (), some written)) :
    StringData strings (written.drop sizeofDumbPayload)

theorem StringData.eq_ended {strings : List Bytes} (hne : strings ≠ [])
    (hfit : (ended 0 strings).length ≤ DUMB_PAYLOAD_DATA_MAX_SIZE) {data : Bytes}
    (h : StringData strings data) : data = ended 0 strings := by
  cases h with
  | setDataStringlist list p hlist =>
    have hcons : list.length ≠ 0 := by
      rw [← List.length_map ascii, hlist]
      exact fun hzero => hne (List.eq_nil_of_length_eq_zero hzero)
    have hended : list.flatMap (fun s => ascii s ++ [0]) = ended 0 strings := by
      rw [ended, ← hlist, List.flatMap_map]
    rw [RustTool.setDataStringlist, if_neg hcons, hended]
    rcases RustTool.setData_cases (ended 0 strings) p with ⟨e, hlarge, -⟩ | ⟨-, heq⟩
    · exact absurd hfit (not_le.mpr hlarge)
    · rw [heq]
  | cmdFirewall hargs h =>
    rw [CTool.cmdFirewall_data h, hargs]
    rfl

/-- The last byte is a NUL already, and what the daemon reads in front of it are the strings. -/
theorem terminate_ended {strings : List Bytes} (hne : strings ≠ [])
    (hs : ∀ s ∈ strings, s ≠ [] ∧ 0 ∉ s) :
    terminate (ended 0 strings) = ended 0 strings ∧ stringList (ended 0 strings) = strings := by
  obtain rfl | ⟨init, last, rfl⟩ := List.eq_nil_or_concat' strings
  · exact absurd rfl hne
  · obtain ⟨hlast, hnul⟩ := hs last (by simp)
    have hinit : ∀ s ∈ init, 0 ∉ s := fun s hmem => (hs s (List.mem_append_left _ hmem)).2
    rw [ended_concat]
    constructor
    · rw [terminate, List.dropLast_concat]
    · rw [stringList_append, pieces_ended_append hinit, pieces_of_not_mem hnul hlast]

/-- The first byte is one of the first string. -/
theorem ended_head {strings : List Bytes} (hne : strings ≠ []) (hs : ∀ s ∈ strings, s ≠ [] ∧ 0 ∉ s) :
    (ended 0 strings).head? ≠ some 0 ∧ 2 ≤ (ended 0 strings).length := by
  obtain ⟨s, strings, rfl⟩ := List.exists_cons_of_ne_nil hne
  obtain ⟨hs, hnul⟩ := hs s (by simp)
  obtain ⟨c, s, rfl⟩ := List.exists_cons_of_ne_nil hs
  constructor
  · intro hhead
    have hzero : c = 0 := Option.some.inj hhead
    exact hnul (hzero ▸ List.mem_cons_self)
  · simp [ended]
    omega

theorem send_ran (msg : Bytes) (s : State) : (send msg s).2.ran = s.ran := by
  change (if MAX_STRING ≤ (cstr msg).length then s else _).ran = _
  split_ifs <;> rfl

theorem reportResult_ran (r : Reply) (s : State) : (reportResult r s).2.ran = s.ran := by
  rw [reportResult]
  split_ifs <;> exact send_ran _ _

/-- The one program that `script_helper` runs. -/
theorem scriptHelper_ran {data : Bytes} (hhead : data.head? ≠ some 0) (hlen : 2 ≤ data.length)
    (D : Device) (argv0 argv1 : String) (s : State) :
    (scriptHelper D argv0 argv1 data s).2.ran =
      if (D.reply s.ticks).ret < 0 then s.ran
      else s.ran ++ [ascii argv0 :: ascii argv1 :: stringList (terminate data)] := by
  have hshort : ¬(data.head? = some 0 ∨ data.length ≤ 1) := by
    rintro (h | h)
    · exact hhead h
    · omega
  rw [scriptHelper, if_neg (by omega), if_neg hshort]
  simp only [bind, StateT.bind, call]
  split_ifs with halloc
  · rfl
  · exact reportResult_ran _ _

/-- Strings that a tool has put into a payload are the arguments of the script, in their order: the
list holds them after the first two elements, up to the `NULL`, and no write leaves its allocation. -/
theorem scriptHelper_stringData {strings : List Bytes} (hne : strings ≠ [])
    (hs : ∀ s ∈ strings, s ≠ [] ∧ 0 ∉ s)
    (hfit : (ended 0 strings).length ≤ DUMB_PAYLOAD_DATA_MAX_SIZE) {data : Bytes}
    (h : StringData strings data) (argv0 argv1 : String) :
    (∀ alloc, (∃ k e, alloc k = .error e ∧
        strList alloc (ascii argv0) (ascii argv1) data = .error (.errno e)) ∨
      ∃ list, strList alloc (ascii argv0) (ascii argv1) data = .ok list ∧
        list.length = strings.length + 3 ∧
        argvOf (terminate data) list = some (ascii argv0 :: ascii argv1 :: strings)) ∧
    ∀ D s, (scriptHelper D argv0 argv1 data s).2.ran =
      if (D.reply s.ticks).ret < 0 then s.ran
      else s.ran ++ [ascii argv0 :: ascii argv1 :: strings] := by
  obtain rfl := h.eq_ended hne hfit
  obtain ⟨hhead, hlen⟩ := ended_head hne hs
  have hstrings : stringList (terminate (ended 0 strings)) = strings := by
    obtain ⟨hterminate, hlist⟩ := terminate_ended hne hs
    rw [hterminate, hlist]
  constructor
  · intro alloc
    have hcases := strList_cases alloc (ascii argv0) (ascii argv1) hlen
    rwa [hstrings] at hcases
  · intro D s
    rw [scriptHelper_ran hhead hlen, hstrings]

/-- The payload of `new`. -/
def newPayload : RustTool.DumbPayload :=
  ⟨DumbPayload.ofBytes (List.replicate sizeofDumbPayload 0) le_rfl, sizeofDumbPayload⟩

def twoApps : List String := ["a.b", "c"]

theorem scriptHelper_stringData_twoApps :
    (scriptHelper (Device.plain Ed25519.always 0) "/system/bin/dumbos-firewallctl.sh" "allow"
      (RustTool.setDataStringlist (.ok ()) twoApps newPayload).2.ptr.payload State.start).2.ran =
      [[ascii "/system/bin/dumbos-firewallctl.sh", ascii "allow", ascii "a.b", ascii "c"]] :=
  (scriptHelper_stringData (by decide) (by decide) (by decide)
    (.setDataStringlist twoApps newPayload rfl) "/system/bin/dumbos-firewallctl.sh" "allow").2
    (Device.plain Ed25519.always 0) State.start

end Dumbos.System
