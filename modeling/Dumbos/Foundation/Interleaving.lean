import Dumbos.Foundation.Run

/-! # Parties that share a store

Each party has a state of its own and acts on the store together with it. A
schedule lets one party act after the other. A party that is scheduled alone does
what it would do without the others, and leaves their states as they are.
-/
namespace Dumbos.Foundation
variable {σ ι π : Type*}

structure Shared (σ ι π : Type*) where
  store : σ
  party : ι → π

section Put
variable [DecidableEq ι]

/-- A party has acted. -/
def Shared.put (s : Shared σ ι π) (i : ι) (x : σ × π) : Shared σ ι π :=
  ⟨x.1, Function.update s.party i x.2⟩

@[simp] theorem Shared.put_store (s : Shared σ ι π) (i : ι) (x : σ × π) : (s.put i x).store = x.1 := rfl

@[simp] theorem Shared.put_party_self (s : Shared σ ι π) (i : ι) (x : σ × π) :
    (s.put i x).party i = x.2 :=
  Function.update_self _ _ _

theorem Shared.put_party_of_ne (s : Shared σ ι π) {i j : ι} (h : j ≠ i) (x : σ × π) :
    (s.put i x).party j = s.party j :=
  Function.update_of_ne h _ _

theorem Shared.put_eq_self (s : Shared σ ι π) (i : ι) : s.put i (s.store, s.party i) = s := by
  rw [Shared.put, Function.update_eq_self]

theorem Shared.put_put (s : Shared σ ι π) (i : ι) (x y : σ × π) : (s.put i x).put i y = s.put i y := by
  rw [Shared.put, Shared.put, Function.update_idem, Shared.put]

end Put

variable [DecidableEq ι] (act : σ → π → σ × π)

/-- One party acts. -/
def turn (s : Shared σ ι π) (i : ι) : Unit × Shared σ ι π := ((), s.put i (act s.store (s.party i)))

/-- The store and the state of a party that acts alone. -/
def alone (n : ℕ) (x : σ × π) : σ × π := (fun x => act x.1 x.2)^[n] x

theorem alone_succ (n : ℕ) (x : σ × π) : alone act (n + 1) x = alone act n (act x.1 x.2) := rfl

theorem alone_add (m n : ℕ) (x : σ × π) : alone act (m + n) x = alone act m (alone act n x) :=
  Function.iterate_add_apply _ m n x

/-- A party that is scheduled alone acts alone. -/
theorem finalState_replicate (s : Shared σ ι π) (n : ℕ) (i : ι) :
    finalState (turn act) s (List.replicate n i) = s.put i (alone act n (s.store, s.party i)) := by
  induction n generalizing s with
  | zero => exact (s.put_eq_self i).symm
  | succ n ih =>
    rw [List.replicate_succ, finalState_cons, ih, turn, Shared.put_store, Shared.put_party_self,
      Shared.put_put, alone_succ]

/-- Meanwhile the others stay as they are. -/
theorem party_of_mem_trace_replicate {s : Shared σ ι π} {n : ℕ} {i : ι}
    {e : Call (Shared σ ι π) ι Unit} (h : e ∈ trace (turn act) s (List.replicate n i)) :
    e.input = i ∧ ∀ j, j ≠ i → e.before.party j = s.party j := by
  induction n generalizing s with
  | zero => simp at h
  | succ n ih =>
    rw [List.replicate_succ, trace_cons] at h
    rcases List.mem_cons.mp h with rfl | h
    · exact ⟨rfl, fun _ _ => rfl⟩
    · obtain ⟨hinput, hothers⟩ := ih h
      refine ⟨hinput, fun j hj => ?_⟩
      rw [hothers j hj, turn, Shared.put_party_of_ne s hj]

end Dumbos.Foundation
