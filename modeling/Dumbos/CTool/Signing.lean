import Dumbos.CTool.CommandRaw
import Dumbos.CTool.DataSize
import Dumbos.Foundation.Positions
import Dumbos.Foundation.Run

/-! # A payload file from its making to its signature

`new` makes a payload file, `expire`, `set-cmd-raw`, `set-cmd` and `data-set` change
it, `sign` signs it and `verify` checks it. Each of them is a run of the program on
the file that the last one left. A byte of the header is written by few of them, so
that what a whole history leaves in the signature and in the size can be told from
the list of the subcommands.
-/
namespace Dumbos.CTool
open Foundation Foundation.Writing Common Payload

/-- A text in a field whose last byte is a newline. -/
def newField (n : ℕ) (s : Bytes) : Foundation.Field (n + 1) :=
  ⟨s.take n ++ List.replicate (n - s.length) 0 ++ [10], by simp; omega⟩

/-- The bytes between the command and the size are whatever the compiler leaves there. -/
def newHeader (padding : Foundation.Field 3) : DumbPayload where
  signature := newField 128 (ascii "signature here (dont touch)")
  expire := newField 15 (ascii "expire here")
  command := newField 15 (ascii "cmd here")
  padding := padding
  dataSize := Field.zero 4
  payload := []

/-- It opens the file without truncating it. -/
def newPayload (padding : Foundation.Field 3) (calls : WriteCalls) (fs : FileSystem) (path : Bytes) :
    ℕ × FileSystem :=
  match calls.openFile with
  | .error e => (e, fs)
  | .ok () =>
    let opened := Function.update fs path (some ((fs path).getD []))
    match calls.writeAll with
    | some (n, e) => (e, writeOver opened path ((newHeader padding).toBytes.take n))
    | none => (0, writeOver opened path (newHeader padding).toBytes)

section Scheme
variable (E : Ed25519)

inductive Subcommand where
  | new (padding : Foundation.Field 3) (calls : WriteCalls)
  | expire (calls : RawCalls) (expire : Bytes)
  | setCmdRaw (calls : RawCalls) (command : Bytes)
  | rewrite (calls : LoadCalls) (invocation : Invocation) (w : World)
  | sign (calls : RawCalls) (privKeyHex : Bytes)

end Scheme

/-- The `strcpy` of `set-cmd-raw` stays in its block. -/
def Subcommand.Possible (path : Bytes) (fs : FileSystem) : Subcommand → Prop
  | .setCmdRaw calls command => cmdCommandSetRaw calls fs path command ≠ none
  | _ => True

section Fields
variable {i : ℕ} (p : DumbPayload)

end Fields

section Writers
variable {w : World} {argv0 : Bytes} {args : List Bytes} {s t : Foundation.Stream}

end Writers

section Steps
variable {E : Ed25519} {fs : FileSystem} {path new : Bytes} {i : ℕ} {c : UInt8}

end Steps

section Runs
variable {E : Ed25519} {fs : FileSystem} {path file : Bytes} {run : List Subcommand}

end Runs

section Example

end Example

end Dumbos.CTool
