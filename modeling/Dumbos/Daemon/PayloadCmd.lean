import Dumbos.Common.Files
import Dumbos.Daemon.World

/-! # Payload commands

The handlers of the commands that a payload can carry, apart from composites.
Each returns its error code; the string-list commands also force the last byte
of their data. None of them sends an empty message.
-/
namespace Dumbos.Daemon
open Foundation Common Payload

def FIREWALL_CONFFILE : Bytes := ascii "/data/local/tmp/dumb/dumbos-firewall.conf"
def FIREWALL_RELOAD_SCRIPT : Bytes := ascii "/system/bin/dumbos-firewall.sh"

variable (D : Device)

/-- Say what went wrong and return the error code. -/
def fail (msg : String) (err : ℤ) : Act ℤ := do
  send (ascii msg)
  return err

/-- The message and the error code for the result of a program. -/
def reportResult (r : Reply) : Act ℤ :=
  if r.ret < 0 then fail "internal error" r.errno
  else if r.ret ≠ 0 then fail "internal error" r.ret
  else fail "done" 0

/-- The temporary file name is two strings, so only its length can be wrong. -/
def payloadCmdInstallThis : Act ℤ := do
  -- a package installed later must not inherit the rules of one that is gone
  let reload ← execvWrapper D [FIREWALL_RELOAD_SCRIPT]
  if reload.ret ≠ 0 then return reload.ret
  else do
    let malloc ← call D
    if malloc.ret < 0 then fail "Out of memory" malloc.errno
    else if PATH_MAX ≤ (D.tmpdir ++ ascii "tmp.apk").length then
      fail "filename too long" ENAMETOOLONG.code
    else do
      let opened ← call D
      if opened.ret < 0 then fail "internal error" opened.errno
      else do
        let written ← call D
        if written.ret < 0 then fail "internal Error" written.errno
        else do
          let pm ← execvWrapper D [ascii "/system/bin/pm", ascii "install", D.tmpdir ++ ascii "tmp.apk"]
          reportResult pm

def payloadCmdInstallPath : Act ℤ := return ENOSYS.code

/-- The texts of `print_progress`. -/
def reportProgress : List Bytes → Act Unit
  | [] => return ()
  | text :: texts => do
    send (ascii "\rCopied " ++ text)
    reportProgress texts

def mountCopyUnmountNs : Act Reply := do
  let r ← call D
  reportProgress r.progress
  return r

/-- The first partition of the drive under either naming scheme, then the whole drive. -/
def tryMountCopy : Act Reply := do
  let first ← mountCopyUnmountNs D
  if first.ret = 0 then return first
  else do
    let second ← mountCopyUnmountNs D
    if second.ret = 0 then return second else mountCopyUnmountNs D

def exportHint : String :=
  "make sure '/sdcard/' exists! that should be the location of all the files to export (or possibly your USB is unplugged or not detected)"

/-- Copying from or to a removable drive; only exporting explains a missing source. -/
def copyFiles (explain : Bool) : Act ℤ := do
  let path ← call D
  if path.ret < 0 then fail "internal error" path.errno
  else do
    let devname ← call D
    if devname.ret < 0 then fail "no removable drive found" devname.errno
    else do
      let copied ← tryMountCopy D
      if copied.ret = 0 then fail "done" 0
      else do
        send (ascii "copying failed")
        send (D.strerror copied.errno).val
        if explain ∧ copied.errno = ENOENT then do
          let msg ← call D
          if msg.ret < 0 then fail "internal error" msg.errno
          else fail exportHint copied.errno
        else return copied.errno

def payloadCmdFilesImport : Act ℤ := copyFiles D false

def payloadCmdFilesExport : Act ℤ := copyFiles D true

/-- Overwrite the last byte with NUL. -/
def terminate (data : Bytes) : Bytes := data.dropLast ++ [0]

/-- The strings that start in front of the last byte of terminated data. -/
def stringList (data : Bytes) : List Bytes :=
  let parts := data.dropLast.splitOn 0
  if parts.getLast? = some [] then parts.dropLast else parts

/-- One reply stands for the allocations of the list. -/
def scriptHelper (argv0 argv1 : String) (data : Bytes) : Act (ℤ × Bytes) :=
  if data.length = 0 then return (0, data)
  else if data.head? = some 0 ∨ data.length ≤ 1 then return (EINVAL.code, data)
  else do
    let list ← call D
    if list.ret < 0 then return (list.errno, terminate data)
    else do
      let r ← execvWrapper D (ascii argv0 :: ascii argv1 :: stringList (terminate data))
      let err ← reportResult r
      return (err, terminate data)

inductive FirewallPolicy where
  | ALLOW
  | DENY
  | ALLOW_TEMP

def firewallHelper (policy : FirewallPolicy) (data : Bytes) : Act (ℤ × Bytes) :=
  scriptHelper D "/system/bin/dumbos-firewallctl.sh"
    (match policy with
      | .ALLOW => "allow"
      | .DENY => "deny"
      | .ALLOW_TEMP => "allow-temp") data

def payloadCmdFirewallAdd (data : Bytes) : Act (ℤ × Bytes) := firewallHelper D .ALLOW data

def payloadCmdFirewallRemove (data : Bytes) : Act (ℤ × Bytes) := firewallHelper D .DENY data

def payloadCmdFirewallAddTemp (data : Bytes) : Act (ℤ × Bytes) := firewallHelper D .ALLOW_TEMP data

def payloadCmdFirewallFlush : Act ℤ := do
  let unlinked ← call D
  if unlinked.ret < 0 ∧ unlinked.errno ≠ ENOENT then return unlinked.errno
  else do
    let r ← execvWrapper D [FIREWALL_RELOAD_SCRIPT]
    return r.exitCode

def payloadCmdSingboxAdd (data : Bytes) : Act (ℤ × Bytes) :=
  scriptHelper D "/system/bin/sing-box-wrapper.sh" "add" data

def payloadCmdSingboxDel (data : Bytes) : Act (ℤ × Bytes) :=
  scriptHelper D "/system/bin/sing-box-wrapper.sh" "del" data

theorem terminate_length {data : Bytes} (h : data ≠ []) : (terminate data).length = data.length := by
  have hpos : 0 < data.length := List.length_pos_iff.mpr h
  simp only [terminate, List.length_append, List.length_dropLast, List.length_singleton]
  omega

theorem scriptHelper_length (argv0 argv1 : String) (data : Bytes) (s : State) :
    (scriptHelper D argv0 argv1 data s).1.2.length = data.length := by
  rw [scriptHelper]
  split_ifs with hempty hbad
  · rfl
  · rfl
  · have hne : data ≠ [] := fun h => hempty (by rw [h]; rfl)
    simp only [bind, StateT.bind, call]
    split_ifs <;> exact terminate_length hne

section Speaks

theorem speaks_fail {msg : String} (h : cstr (ascii msg) ≠ []) (err : ℤ) :
    speaks.Keeps (fail msg err) :=
  Frame.keeps_bind (speaks_send h) (fun _ => Frame.keeps_pure _)

theorem speaks_reportResult (r : Reply) : speaks.Keeps (reportResult r) :=
  Frame.keeps_ite (fun _ => speaks_fail (by decide) _)
    (fun _ => Frame.keeps_ite (fun _ => speaks_fail (by decide) _) (fun _ => speaks_fail (by decide) _))

theorem speaks_payloadCmdInstallThis : speaks.Keeps (payloadCmdInstallThis D) := by
  refine Frame.keeps_bind (speaks_execvWrapper D _) fun reload => Frame.keeps_ite
    (fun _ => Frame.keeps_pure _) fun _ => Frame.keeps_bind (speaks_call D) fun malloc => ?_
  refine Frame.keeps_ite (fun _ => speaks_fail (by decide) _) fun _ => Frame.keeps_ite
    (fun _ => speaks_fail (by decide) _) fun _ => Frame.keeps_bind (speaks_call D) fun opened => ?_
  refine Frame.keeps_ite (fun _ => speaks_fail (by decide) _) fun _ =>
    Frame.keeps_bind (speaks_call D) fun written => ?_
  exact Frame.keeps_ite (fun _ => speaks_fail (by decide) _) fun _ =>
    Frame.keeps_bind (speaks_execvWrapper D _) speaks_reportResult

theorem speaks_reportProgress (texts : List Bytes) : speaks.Keeps (reportProgress texts) := by
  induction texts with
  | nil => exact Frame.keeps_pure _
  | cons text texts ih =>
    have hne : cstr (ascii "\rCopied " ++ text) ≠ [] := by
      rw [cstr, List.takeWhile_append_of_pos (by decide +kernel)]
      exact List.append_ne_nil_of_left_ne_nil (by decide) _
    exact Frame.keeps_bind (speaks_send hne) (fun _ => ih)

theorem speaks_mountCopyUnmountNs : speaks.Keeps (mountCopyUnmountNs D) :=
  Frame.keeps_bind (speaks_call D) fun r =>
    Frame.keeps_bind (speaks_reportProgress r.progress) fun _ => Frame.keeps_pure _

theorem speaks_tryMountCopy : speaks.Keeps (tryMountCopy D) :=
  Frame.keeps_bind (speaks_mountCopyUnmountNs D) fun _ => Frame.keeps_ite (fun _ => Frame.keeps_pure _)
    fun _ => Frame.keeps_bind (speaks_mountCopyUnmountNs D) fun _ =>
      Frame.keeps_ite (fun _ => Frame.keeps_pure _) fun _ => speaks_mountCopyUnmountNs D

theorem speaks_copyFiles (explain : Bool) : speaks.Keeps (copyFiles D explain) := by
  refine Frame.keeps_bind (speaks_call D) fun path => Frame.keeps_ite
    (fun _ => speaks_fail (by decide) _) fun _ => Frame.keeps_bind (speaks_call D) fun devname => ?_
  refine Frame.keeps_ite (fun _ => speaks_fail (by decide) _) fun _ =>
    Frame.keeps_bind (speaks_tryMountCopy D) fun copied => ?_
  refine Frame.keeps_ite (fun _ => speaks_fail (by decide) _) fun _ =>
    Frame.keeps_bind (speaks_send (by decide)) fun _ =>
      Frame.keeps_bind (speaks_send (D.strerror copied.errno).property) fun _ => ?_
  refine Frame.keeps_ite (fun _ => Frame.keeps_bind (speaks_call D) fun msg => ?_)
    (fun _ => Frame.keeps_pure _)
  exact Frame.keeps_ite (fun _ => speaks_fail (by decide) _)
    fun _ => speaks_fail (by decide +kernel) _

theorem speaks_scriptHelper (argv0 argv1 : String) (data : Bytes) :
    speaks.Keeps (scriptHelper D argv0 argv1 data) := by
  refine Frame.keeps_ite (fun _ => Frame.keeps_pure _) fun _ => Frame.keeps_ite
    (fun _ => Frame.keeps_pure _) fun _ => Frame.keeps_bind (speaks_call D) fun list => ?_
  exact Frame.keeps_ite (fun _ => Frame.keeps_pure _) fun _ =>
    Frame.keeps_bind (speaks_execvWrapper D _) fun r =>
      Frame.keeps_bind (speaks_reportResult r) fun _ => Frame.keeps_pure _

theorem speaks_payloadCmdFirewallFlush : speaks.Keeps (payloadCmdFirewallFlush D) :=
  Frame.keeps_bind (speaks_call D) fun _ => Frame.keeps_ite (fun _ => Frame.keeps_pure _)
    fun _ => Frame.keeps_bind (speaks_execvWrapper D _) fun _ => Frame.keeps_pure _

end Speaks

end Dumbos.Daemon
