import Dumbos.Common.Wire
import Dumbos.Foundation.Action
import Dumbos.Payload.Signature

/-! # The daemon and the system under it

The daemon keeps what it has sent to the client, the programs it has run, the
addresses it has asked and the payload commands it has dispatched. Every call into
the system takes the next reply of the device, so a device is any behaviour of the
system.
-/
namespace Dumbos.Daemon
open Foundation Common Payload

/-- What a call into the system returns: a negative value is a failure with its `errno`; a name, a
file or a download comes as data; a child that copies files reports its progress. -/
structure Reply where
  ret : ℤ
  errno : ℕ
  data : Bytes
  progress : List Bytes

structure Device where
  ed : Ed25519
  publicKeyHex : Bytes
  tmpdir : Bytes
  /-- `default_server`. -/
  server : Bytes
  /-- A `char` can be negative. -/
  charSigned : Bool
  strerror : ℕ → {text : Bytes // cstr text ≠ []}
  /-- `/dev/dumbos-userdata`, or the `errno` with which it cannot be opened. -/
  userFile : ℕ → Except ℕ Bytes
  /-- `time(NULL)`. -/
  clock : ℕ → ℤ
  reply : ℕ → Reply

structure State where
  /-- How often the device has been asked. -/
  ticks : ℕ
  sent : List Bytes
  ran : List (List Bytes)
  fetched : List Bytes
  /-- What the daemon has left for init in `/dev/dumbos-userdata-new`. -/
  newUser : Option Bytes
  /-- The commands of payloads with the data they were given. -/
  dispatched : List (Bytes × Bytes)

def State.start : State := ⟨0, [], [], [], none, []⟩

/-- A device on which every call succeeds and the clock stands still. -/
def Device.plain (ed : Ed25519) (now : ℤ) : Device where
  ed := ed
  publicKeyHex := List.replicate 64 99
  tmpdir := ascii "/tmp/"
  server := ascii "https://dumb/"
  charSigned := false
  strerror _ := ⟨ascii "error", by decide⟩
  userFile _ := .error ENOENT
  clock _ := now
  reply _ := ⟨0, 0, [], []⟩

abbrev Act := StateM State

/-- `write_string` of a message; one that is too long is not sent. -/
def send (msg : Bytes) : Act Unit := modify fun s =>
  if MAX_STRING ≤ (cstr msg).length then s else { s with sent := s.sent ++ [cstr msg] }

def call (D : Device) : Act Reply := fun s => (D.reply s.ticks, { s with ticks := s.ticks + 1 })

def time (D : Device) : Act ℤ := fun s => (D.clock s.ticks, { s with ticks := s.ticks + 1 })

def execvWrapper (D : Device) (argv : List Bytes) : Act Reply := fun s =>
  (D.reply s.ticks, { s with ticks := s.ticks + 1, ran := s.ran ++ [argv] })

/-- A transfer from or to the server. -/
def fetch (D : Device) (url : Bytes) : Act Reply := fun s =>
  (D.reply s.ticks, { s with ticks := s.ticks + 1, fetched := s.fetched ++ [url] })

/-- The result of a program that is run for its exit code. -/
def Reply.exitCode (r : Reply) : ℤ := if r.ret < 0 then r.errno else r.ret

section Settings
variable (D : Device)

def settings (key value : String) : Act Reply :=
  execvWrapper D [ascii "/system/bin/settings", ascii "put", ascii "global", ascii key, ascii value]

def setOemLock (status : Bool) : Act ℤ := do
  let r ← execvWrapper D [ascii "/system/bin/service", ascii "call", ascii "oem_lock", ascii "4",
    ascii "i32", if status then ascii "0" else ascii "1"]
  return r.exitCode

def setWifiEnabled (status : Bool) : Act ℤ := do
  let r ← execvWrapper D
    (if status then [ascii "/system/bin/start", ascii "wificond"]
    else [ascii "/system/bin/stop", ascii "wificond"])
  return r.exitCode

def setAdbEnabled (status : Bool) : Act ℤ :=
  if status then do
    let r ← settings D "development_settings_enabled" "1"
    if r.ret = 0 then do
      let r ← settings D "adb_enabled" "1"
      return r.exitCode
    else return r.exitCode
  else do
    let r ← settings D "adb_enabled" "0"
    if r.ret = 0 then do
      let r ← settings D "development_settings_enabled" "0"
      return r.exitCode
    else return r.exitCode

end Settings

/-- A string that can be sent and does not end the messages. -/
def IsMessage (msg : Bytes) : Prop := Sendable msg ∧ msg ≠ []

/-- Messages are added, none of them empty, and no payload command is dispatched. -/
def speaks : Frame State :=
  (Frame.appends State.sent IsMessage).and (Frame.fixes State.dispatched)

section Speaks
variable (D : Device)

theorem speaks_send {msg : Bytes} (h : cstr msg ≠ []) : speaks.Keeps (send msg) := by
  apply Frame.keeps_modify
  intro s
  split_ifs with hlong
  · exact speaks.refl s
  · refine ⟨⟨[cstr msg], rfl, ?_⟩, rfl⟩
    intro m hm
    rw [List.mem_singleton.mp hm]
    exact ⟨⟨not_le.mp hlong, cstr_no_nul msg⟩, h⟩

theorem speaks_call : speaks.Keeps (call D) := fun _ => ⟨⟨[], by simp [call], by simp⟩, rfl⟩

theorem speaks_execvWrapper (argv : List Bytes) : speaks.Keeps (execvWrapper D argv) :=
  fun _ => ⟨⟨[], by simp [execvWrapper], by simp⟩, rfl⟩

theorem speaks_fetch (url : Bytes) : speaks.Keeps (fetch D url) :=
  fun _ => ⟨⟨[], by simp [fetch], by simp⟩, rfl⟩

theorem speaks_settings (key value : String) : speaks.Keeps (settings D key value) :=
  speaks_execvWrapper D _

theorem speaks_setOemLock (status : Bool) : speaks.Keeps (setOemLock D status) :=
  Frame.keeps_bind (speaks_execvWrapper D _) (fun _ => Frame.keeps_pure _)

theorem speaks_setWifiEnabled (status : Bool) : speaks.Keeps (setWifiEnabled D status) :=
  Frame.keeps_bind (speaks_execvWrapper D _) (fun _ => Frame.keeps_pure _)

theorem speaks_setAdbEnabled (status : Bool) : speaks.Keeps (setAdbEnabled D status) := by
  have htwo : ∀ k v k' v', speaks.Keeps (do
      let r ← settings D k v
      if r.ret = 0 then do
        let r ← settings D k' v'
        return r.exitCode
      else return r.exitCode) := fun k v k' v' =>
    Frame.keeps_bind (speaks_settings D k v) (fun _ => Frame.keeps_ite
      (fun _ => Frame.keeps_bind (speaks_settings D k' v') (fun _ => Frame.keeps_pure _))
      (fun _ => Frame.keeps_pure _))
  rw [setAdbEnabled]
  split_ifs <;> exact htwo _ _ _ _

end Speaks

end Dumbos.Daemon
