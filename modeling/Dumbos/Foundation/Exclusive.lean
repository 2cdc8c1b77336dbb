import Dumbos.Foundation.Run

/-! # Keys that are taken once

Parties hold keys. A key that is taken stays taken, and a step gives a key to one
party at most, and only when it was free. Then two parties never hold one key,
whatever the order of the steps.
-/
namespace Dumbos.Foundation
variable {σ ι ο α κ : Type*}

/-- What every step does with the keys. -/
structure TakesOnce (step : σ → ι → ο × σ) (Holds : α → σ → Prop) (Taken : κ → σ → Prop)
    (key : α → κ) : Prop where
  keeps : ∀ s i k, Taken k s → Taken k (step s i).2
  takes : ∀ s i a, Holds a (step s i).2 → Holds a s ∨ ¬Taken (key a) s ∧
    Taken (key a) (step s i).2 ∧ ∀ b, Holds b (step s i).2 → Holds b s ∨ b = a

/-- A key that is held is taken, and is held by one party. -/
structure HeldOnce (Holds : α → σ → Prop) (Taken : κ → σ → Prop) (key : α → κ) (s : σ) : Prop where
  taken : ∀ a, Holds a s → Taken (key a) s
  once : ∀ a b, Holds a s → Holds b s → key a = key b → a = b

variable {step : σ → ι → ο × σ} {Holds : α → σ → Prop} {Taken : κ → σ → Prop} {key : α → κ}

theorem TakesOnce.heldOnce (h : TakesOnce step Holds Taken key) {s : σ}
    (hs : HeldOnce Holds Taken key s) (i : ι) : HeldOnce Holds Taken key (step s i).2 := by
  constructor
  · intro a ha
    rcases h.takes s i a ha with hold | ⟨-, htaken, -⟩
    · exact h.keeps s i _ (hs.taken a hold)
    · exact htaken
  · intro a b ha hb hkey
    rcases h.takes s i a ha with hold | ⟨hfree, -, hother⟩
    · rcases h.takes s i b hb with hold' | ⟨hfree, -, hother⟩
      · exact hs.once a b hold hold' hkey
      · exact absurd (hkey ▸ hs.taken a hold) hfree
    · rcases hother b hb with hold | hba
      · exact absurd (hkey ▸ hs.taken b hold) hfree
      · exact hba.symm

theorem TakesOnce.run (h : TakesOnce step Holds Taken key) {s : σ}
    (hs : HeldOnce Holds Taken key s) (is : List ι) :
    HeldOnce Holds Taken key (finalState step s is) := by
  apply run_induction step (fun _ => HeldOnce Holds Taken key) s hs
  intro _ i hrun
  exact h.heldOnce hrun i

end Dumbos.Foundation
