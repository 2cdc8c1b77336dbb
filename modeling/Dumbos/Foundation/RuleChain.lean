import Mathlib.Data.List.Basic
import Mathlib.Tactic

/-! # Chains of rules

The first rule whose condition holds decides over a packet. A chain can call another
one and goes on behind the call if the packet comes back. The lemmas say what rules
in front of a chain do to its verdict.
-/
namespace Dumbos.Foundation
variable {κ ν α : Type*}

inductive Target (ν : Type*) where
  | RETURN
  | REJECT
  | DROP
  | jump (chain : ν)
deriving DecidableEq

structure Rule (κ ν : Type*) where
  condition : κ
  target : Target ν
deriving DecidableEq

/-- Whether the packet comes back from the rules; `call` says from which chains it does. -/
def passes (holds : κ → α → Bool) (call : ν → Bool) (packet : α) : List (Rule κ ν) → Bool
  | [] => true
  | rule :: rules =>
    if holds rule.condition packet then
      match rule.target with
      | .RETURN => true
      | .REJECT => false
      | .DROP => false
      | .jump chain => call chain && passes holds call packet rules
    else passes holds call packet rules

/-- Chains that call each other to a given depth. -/
def comesBack (holds : κ → α → Bool) (chains : ν → List (Rule κ ν)) (packet : α) : ℕ → ν → Bool
  | 0, _ => true
  | depth + 1, chain => passes holds (comesBack holds chains packet depth) packet (chains chain)

section Passes
variable {holds : κ → α → Bool} {call : ν → Bool} {packet : α}

/-- A rule that does not apply is skipped. -/
theorem passes_cons_of_not {rule : Rule κ ν} (h : holds rule.condition packet = false)
    (rules : List (Rule κ ν)) :
    passes holds call packet (rule :: rules) = passes holds call packet rules := by
  simp [passes, h]

/-- Rules that return let out what they apply to, and are nothing to everything else. -/
theorem passes_returns {returns : List (Rule κ ν)} (h : ∀ rule ∈ returns, rule.target = .RETURN)
    (rules : List (Rule κ ν)) :
    passes holds call packet (returns ++ rules) =
      (returns.any (fun rule => holds rule.condition packet) || passes holds call packet rules) := by
  induction returns with
  | nil => simp
  | cons rule returns ih =>
    have hrule := h rule (by simp)
    have hrest := ih fun r hr => h r (List.mem_cons_of_mem _ hr)
    rw [List.cons_append, List.any_cons]
    by_cases hholds : holds rule.condition packet
    · simp [passes, hrule, hholds]
    · rw [Bool.not_eq_true] at hholds
      rw [passes_cons_of_not hholds, hrest, hholds, Bool.false_or]

/-- A call decides together with what stands behind it. -/
theorem passes_call {condition : κ} (h : holds condition packet = true) (chain : ν)
    (rules : List (Rule κ ν)) :
    passes holds call packet (⟨condition, .jump chain⟩ :: rules) =
      (call chain && passes holds call packet rules) := by
  simp [passes, h]

/-- A call that does not come back blocks whatever stands behind it. -/
theorem passes_jump {condition : κ} {chain : ν} (h : holds condition packet = true)
    (hcall : call chain = false) (rules : List (Rule κ ν)) :
    passes holds call packet (⟨condition, .jump chain⟩ :: rules) = false := by
  simp [passes, h, hcall]

end Passes

end Dumbos.Foundation
