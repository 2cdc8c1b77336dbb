import Dumbos.Foundation.Lines

/-! # Text tools of the scripts

What `grep` does with the lines of a text file: a pattern is a list of fixed
strings, one a line, and selects the lines that are equal to one of them. The
last line need not have its newline; in the output every line has one.
-/
namespace Dumbos.Firewall
open Foundation

def newline : UInt8 := 10

def linesOf (content : Bytes) : List Bytes := pieces newline content

/-- The fixed strings of a pattern. -/
def patterns (pattern : Bytes) : List Bytes := pattern.splitOn newline

/-- The exit status of `grep -F -q -x`. -/
def grepFqx (pattern content : Bytes) : ℕ :=
  if ∃ l ∈ linesOf content, l ∈ patterns pattern then 0 else 1

/-- The exit status and the output of `grep -F -v -x`. -/
def grepFvx (pattern content : Bytes) : ℕ × Bytes :=
  let selected := (linesOf content).filter fun l => l ∉ patterns pattern
  (if selected = [] then 1 else 0, ended newline selected)

theorem newline_not_mem_of_mem_linesOf {content l : Bytes} (h : l ∈ linesOf content) : newline ∉ l :=
  not_mem_of_mem_pieces h

theorem linesOf_ended {ls : List Bytes} (h : ∀ l ∈ ls, newline ∉ l) :
    linesOf (ended newline ls) = ls :=
  pieces_ended h

theorem patterns_eq {pattern : Bytes} (h : newline ∉ pattern) : patterns pattern = [pattern] :=
  List.splitOn_eq_singleton h

/-- For a pattern of one line: whether it is there. -/
theorem grepFqx_eq {pattern : Bytes} (h : newline ∉ pattern) (content : Bytes) :
    grepFqx pattern content = if pattern ∈ linesOf content then 0 else 1 := by
  rw [grepFqx, patterns_eq h]
  simp

/-- For a pattern of one line: all other lines. -/
theorem grepFvx_eq {pattern : Bytes} (h : newline ∉ pattern) (content : Bytes) :
    grepFvx pattern content =
      (if (linesOf content).filter (· ≠ pattern) = [] then 1 else 0,
        ended newline ((linesOf content).filter (· ≠ pattern))) := by
  rw [grepFvx, patterns_eq h]
  simp

/-- It never reports a failure. -/
theorem grepFvx_status_le (pattern content : Bytes) : (grepFvx pattern content).1 ≤ 1 := by
  simp only [grepFvx]
  split_ifs
  · exact le_rfl
  · exact Nat.zero_le 1

/-- What stands behind the last newline. -/
def unended (content : Bytes) : Bytes := ((content.splitOn newline).getLast?).getD []

/-- The lines in front of it. -/
def endedLines (content : Bytes) : List Bytes := (content.splitOn newline).dropLast

end Dumbos.Firewall
