import Dumbos.Firewall.Tools

/-! # The whitelist of `sing-box-wrapper.sh`

The script copies the whitelist, changes the copy argument by argument and moves
it back. It is run with `set -e`, so the first command that fails ends it. Its
loop is over all of its arguments, the word `add` or `del` itself among them,
and `grep` fails when it leaves no line.
-/
namespace Dumbos.Firewall.SingBox
open Foundation

/-- A domain that is one line and that `echo` prints as it is. -/
structure IsDomain (domain : Bytes) : Prop where
  nonempty : domain ≠ []
  line : newline ∉ domain
  /-- No option of `echo`. -/
  hyphen : domain.head? ≠ some 45
  /-- No escape of `echo`. -/
  backslash : 92 ∉ domain

inductive File where
  | allowlist
  | allowlisttmp
  /-- `"$allowlisttmp.tmp"`. -/
  | filtered
deriving DecidableEq

abbrev Disk := File → Option Bytes

/-- The exit status of a command, and the files after it. -/
abbrev ShellCommand := Disk → ℕ × Disk

/-- `>>`. -/
def append (text : Bytes) (target : File) : ShellCommand := fun disk =>
  (0, Function.update disk target (some ((disk target).getD [] ++ text)))

/-- A command that does not touch the files. -/
def exits (status : ℕ) : ShellCommand := fun disk => (status, disk)

variable (sh : Shell)

inductive Mode where
  | add
  | del
deriving DecidableEq

def Mode.text : Mode → Bytes
  | .add => ascii "add"
  | .del => ascii "del"

structure Invocation where
  mode : Mode
  domains : List Bytes
  stop : ℕ
  start : ℕ

def whitelist (disk : Disk) : List Bytes := linesOf ((disk .allowlist).getD [])

end Dumbos.Firewall.SingBox
