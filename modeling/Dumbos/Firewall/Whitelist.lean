import Dumbos.Firewall.SingBox
import Dumbos.Foundation.Run

/-! # The whitelist as a set

`add` also appends the word `add` and `del` also takes it out; `del` does nothing
where it would leave no line. An invocation does to the set of lines what it
should exactly if none of this shows.
-/
namespace Dumbos.Firewall.SingBox
open Foundation

variable (sh : Shell)

section Commands

variable {sh}

end Commands

section Invocations
variable {sh}

/-- The word `add` is listed or wanted anyway, and ends no line. -/
abbrev HarmlessAdd (content : Bytes) (domains : List Bytes) : Prop :=
  (unended content ++ Mode.add.text ∈ endedLines content ∨ unended content ++ Mode.add.text ∈ domains) ∧
    (unended content ≠ [] → unended content ∈ endedLines content ∨ unended content ∈ domains)

/-- Where no line would be left none was to go; otherwise the word `del` is not listed or not wanted. -/
abbrev HarmlessDel (content : Bytes) (domains : List Bytes) : Prop :=
  if ∀ l ∈ linesOf content, l ∈ Mode.del.text :: domains then ∀ l ∈ linesOf content, l ∉ domains
  else Mode.del.text ∈ linesOf content → Mode.del.text ∈ domains

def Harmless (content : Bytes) (i : Invocation) : Prop :=
  match i.mode with
  | .add => HarmlessAdd content i.domains
  | .del => HarmlessDel content i.domains

/-- What is added goes through `echo`; what is deleted is one line for `grep`. -/
def IsArgument : Mode → Bytes → Prop
  | .add, domain => IsDomain domain
  | .del, domain => newline ∉ domain

/-- The condition on an invocation: there is a whitelist, its arguments can be listed, and the words
that are not meant do no harm. -/
def Meets (disk : Disk) (i : Invocation) : Prop :=
  ∃ content, disk .allowlist = some content ∧ (∀ d ∈ i.domains, IsArgument i.mode d) ∧
    Harmless content i

end Invocations

section Example

end Example

end Dumbos.Firewall.SingBox
