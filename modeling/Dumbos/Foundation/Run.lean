import Mathlib.Data.List.Basic
import Mathlib.Tactic

/-! # Traces of a machine that is called again and again

A machine answers each input and moves to a new state. A trace lists its calls,
each with the states around it, so that a law of a whole run is a statement
about the members of a list. `trace_invariant` is the induction over a run.
-/
namespace Dumbos.Foundation
variable {σ ι ο : Type*}

/-- One call: the input, the answer and the states around it. -/
structure Call (σ ι ο : Type*) where
  before : σ
  input : ι
  output : ο
  after : σ

variable (step : σ → ι → ο × σ)

def callOf (s : σ) (i : ι) : Call σ ι ο := ⟨s, i, (step s i).1, (step s i).2⟩

def trace : σ → List ι → List (Call σ ι ο)
  | _, [] => []
  | s, i :: is => callOf step s i :: trace (step s i).2 is

/-- The state in which a run ends. -/
def finalState (s : σ) (is : List ι) : σ := is.foldl (fun s i => (step s i).2) s

@[simp] theorem trace_nil (s : σ) : trace step s [] = [] := rfl

@[simp] theorem trace_cons (s : σ) (i : ι) (is : List ι) :
    trace step s (i :: is) = callOf step s i :: trace step (step s i).2 is := rfl

@[simp] theorem finalState_nil (s : σ) : finalState step s [] = s := rfl

@[simp] theorem finalState_cons (s : σ) (i : ι) (is : List ι) :
    finalState step s (i :: is) = finalState step (step s i).2 is := rfl

theorem finalState_append (s : σ) (is js : List ι) :
    finalState step s (is ++ js) = finalState step (finalState step s is) js :=
  List.foldl_append

theorem trace_append (s : σ) (is js : List ι) :
    trace step s (is ++ js) = trace step s is ++ trace step (finalState step s is) js := by
  induction is generalizing s with
  | nil => rfl
  | cons i is ih => rw [List.cons_append, trace_cons, ih, trace_cons, finalState_cons, List.cons_append]

theorem trace_map_input (s : σ) (is : List ι) : (trace step s is).map Call.input = is := by
  induction is generalizing s with
  | nil => rfl
  | cons i is ih => rw [trace_cons, List.map_cons, ih, callOf]

/-- Every member of a trace is a call in the state before it. -/
theorem eq_callOf_of_mem_trace {s : σ} {is : List ι} {e : Call σ ι ο} (h : e ∈ trace step s is) :
    e = callOf step e.before e.input := by
  induction is generalizing s with
  | nil => simp at h
  | cons i is ih =>
    rcases List.mem_cons.mp h with rfl | h
    · rfl
    · exact ih h

theorem input_mem_of_mem_trace {s : σ} {is : List ι} {e : Call σ ι ο} (h : e ∈ trace step s is) :
    e.input ∈ is := by
  rw [← trace_map_input step s is]
  exact List.mem_map_of_mem h

/-- What every call of a run preserves holds around each of them and at the end. -/
theorem trace_invariant (Inv : σ → Prop) (s : σ) (is : List ι) (h₀ : Inv s)
    (hstep : ∀ e ∈ trace step s is, Inv e.before → Inv e.after) :
    (∀ e ∈ trace step s is, Inv e.before ∧ Inv e.after) ∧ Inv (finalState step s is) := by
  induction is generalizing s with
  | nil => exact ⟨by simp, h₀⟩
  | cons i is ih =>
    have h₁ : Inv (step s i).2 := hstep (callOf step s i) (by simp) h₀
    obtain ⟨htrace, hfinal⟩ := ih _ h₁ (fun e he => hstep e (List.mem_cons_of_mem _ he))
    refine ⟨fun e he => ?_, hfinal⟩
    rcases List.mem_cons.mp he with rfl | he
    · exact ⟨h₀, h₁⟩
    · exact htrace e he

/-- What holds of a start, and of a run of one more call when it holds of the run, holds of every
run together with the state in which it ends. -/
theorem run_induction (P : List ι → σ → Prop) (s : σ) (h₀ : P [] s)
    (hstep : ∀ is i, P is (finalState step s is) →
      P (is ++ [i]) (step (finalState step s is) i).2) (is : List ι) :
    P is (finalState step s is) := by
  induction is using List.reverseRecOn with
  | nil => exact h₀
  | append_singleton is i ih =>
    rw [finalState_append, finalState_cons, finalState_nil]
    exact hstep is i ih

end Dumbos.Foundation
