import Dumbos.Foundation.Run

/-! # Machines that come to rest

A call that leaves the state as it is was not possible, or is made again. The
others are the moves of a run. Where every move lowers a measure, a run has no more
moves than the measure of its start, and where a move is left in every state that
is not at rest, some run comes to rest.
-/
namespace Dumbos.Foundation
variable {σ ι ο : Type*} (step : σ → ι → ο × σ)

/-- What holds in every state that a run can come to. -/
theorem finalState_invariant (Inv : σ → Prop) {s : σ} (h₀ : Inv s)
    (hstep : ∀ s i, Inv s → Inv (step s i).2) (is : List ι) : Inv (finalState step s is) := by
  apply run_induction step (fun _ => Inv) s h₀
  intro _ i hrun
  exact hstep _ i hrun

section Changes

/-- How often a run changes the state. -/
def changes [DecidableEq σ] : σ → List ι → ℕ
  | _, [] => 0
  | s, i :: is => (if (step s i).2 = s then 0 else 1) + changes (step s i).2 is

@[simp] theorem changes_nil [DecidableEq σ] (s : σ) : changes step s ([] : List ι) = 0 := rfl

@[simp] theorem changes_cons [DecidableEq σ] (s : σ) (i : ι) (is : List ι) :
    changes step s (i :: is) = (if (step s i).2 = s then 0 else 1) + changes step (step s i).2 is := rfl

variable {step} {Inv : σ → Prop} {μ : σ → ℕ}

/-- Moves that lower a measure are paid for by it. -/
theorem changes_le [DecidableEq σ] (hkeep : ∀ s i, Inv s → Inv (step s i).2)
    (hlower : ∀ s i, Inv s → (step s i).2 ≠ s → μ (step s i).2 < μ s) {s : σ} (h : Inv s)
    (is : List ι) : changes step s is + μ (finalState step s is) ≤ μ s := by
  induction is generalizing s with
  | nil => simp
  | cons i is ih =>
    have hrest := ih (hkeep s i h)
    rw [changes_cons, finalState_cons]
    by_cases hmove : (step s i).2 = s
    · rw [hmove] at hrest ⊢
      simpa using hrest
    · have hpaid := hlower s i h hmove
      rw [if_neg hmove]
      omega

/-- Where a move is left until the machine rests, a run brings it to rest. -/
theorem exists_rest {Rest : σ → Prop} (allowed : Set ι) (hkeep : ∀ s i, Inv s → Inv (step s i).2)
    (hlower : ∀ s i, Inv s → (step s i).2 ≠ s → μ (step s i).2 < μ s)
    (hleft : ∀ s, Inv s → ¬Rest s → ∃ i ∈ allowed, (step s i).2 ≠ s) {s : σ} (h : Inv s) :
    ∃ is : List ι, (∀ i ∈ is, i ∈ allowed) ∧ Rest (finalState step s is) := by
  induction hμ : μ s using Nat.strong_induction_on generalizing s with
  | _ n ih =>
    by_cases hrest : Rest s
    · exact ⟨[], by simp, hrest⟩
    · obtain ⟨i, hi, hmove⟩ := hleft s h hrest
      obtain ⟨is, his, hend⟩ := ih _ (hμ ▸ hlower s i h hmove) (hkeep s i h) rfl
      exact ⟨i :: is, by simpa using ⟨hi, his⟩, hend⟩

end Changes

end Dumbos.Foundation
