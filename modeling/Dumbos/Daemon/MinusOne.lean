import Dumbos.Daemon.Acceptance
import Dumbos.Payload.Offset

/-! # The text of -1

The expire field is replaced where its text is no number. The reader reports that
in band, as -1, so a text of the number -1 is replaced as well: a time that has
long passed becomes one that starts with the first use.
-/
namespace Dumbos.Daemon
open Foundation Common Payload

section Number
variable {q : DumbPayload} (hnumber : parseLongLong (cstr (q.expire.val ++ [0])) = some (-1))
include hnumber

end Number

section Sound
variable {D : Device} {time : ℤ}

end Sound

end Dumbos.Daemon
