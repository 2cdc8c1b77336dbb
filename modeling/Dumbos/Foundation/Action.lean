import Mathlib.Tactic

/-! # What an action may do to the state

A frame is a relation between the states before and after an action that allows
doing nothing and doing one thing after another. An action keeps a frame when
every run of it stays in the relation, so the frame of a program is proved along
its text. What is known of the result of an action is a triple of conditions, with
the same rules.
-/
namespace Dumbos.Foundation
variable {σ α β : Type}

structure Frame (σ : Type) where
  Allows : σ → σ → Prop
  refl : ∀ s, Allows s s
  trans : ∀ {s t u}, Allows s t → Allows t u → Allows s u

/-- Every run of the action stays in the frame. -/
def Frame.Keeps (F : Frame σ) (m : StateM σ α) : Prop := ∀ s, F.Allows s (m s).2

theorem bind_run (m : StateM σ α) (f : α → StateM σ β) (s : σ) :
    (m >>= f) s = f (m s).1 (m s).2 := rfl

variable {F : Frame σ}

theorem Frame.keeps_pure (a : α) : F.Keeps (pure a : StateM σ α) := fun s => F.refl s

theorem Frame.keeps_bind {m : StateM σ α} {f : α → StateM σ β} (hm : F.Keeps m)
    (hf : ∀ a, F.Keeps (f a)) : F.Keeps (m >>= f) :=
  fun s => F.trans (hm s) (hf (m s).1 (m s).2)

theorem Frame.keeps_modify {f : σ → σ} (h : ∀ s, F.Allows s (f s)) :
    F.Keeps (modify f : StateM σ PUnit) := h

theorem Frame.keeps_ite {p : Prop} [Decidable p] {m m' : StateM σ α} (h : p → F.Keeps m)
    (h' : ¬p → F.Keeps m') : F.Keeps (if p then m else m') := by
  split_ifs with hp
  · exact h hp
  · exact h' hp

theorem Frame.Keeps.mono {G : Frame σ} {m : StateM σ α} (hm : F.Keeps m)
    (h : ∀ {s t}, F.Allows s t → G.Allows s t) : G.Keeps m := fun s => h (hm s)

/-- The items that an action adds to a log all have a property. -/
def Frame.appends {τ : Type} (log : σ → List τ) (P : τ → Prop) : Frame σ where
  Allows s t := ∃ new, log t = log s ++ new ∧ ∀ x ∈ new, P x
  refl s := ⟨[], by simp, by simp⟩
  trans := by
    rintro s t u ⟨a, ha, hPa⟩ ⟨b, hb, hPb⟩
    refine ⟨a ++ b, by rw [hb, ha, List.append_assoc], fun x hx => ?_⟩
    rcases List.mem_append.mp hx with hx | hx
    · exact hPa x hx
    · exact hPb x hx

/-- A part of the state stays as it is. -/
def Frame.fixes {τ : Type} (part : σ → τ) : Frame σ where
  Allows s t := part t = part s
  refl _ := rfl
  trans h h' := h'.trans h

/-- Two logs grow in step: what is added to them are the parts of a list of records. -/
def Frame.records {ρ τ υ : Type} (log : σ → List τ) (log' : σ → List υ) (part : ρ → List τ)
    (part' : ρ → List υ) (P : ρ → Prop) : Frame σ where
  Allows s t := ∃ new : List ρ, log t = log s ++ new.flatMap part ∧
    log' t = log' s ++ new.flatMap part' ∧ ∀ r ∈ new, P r
  refl s := ⟨[], by simp, by simp, by simp⟩
  trans := by
    rintro s t u ⟨a, ha, ha', hPa⟩ ⟨b, hb, hb', hPb⟩
    refine ⟨a ++ b, ?_, ?_, fun r hr => ?_⟩
    · rw [hb, ha, List.flatMap_append, List.append_assoc]
    · rw [hb', ha', List.flatMap_append, List.append_assoc]
    · rcases List.mem_append.mp hr with hr | hr
      · exact hPa r hr
      · exact hPb r hr

/-- Both frames at once. -/
def Frame.and (F G : Frame σ) : Frame σ where
  Allows s t := F.Allows s t ∧ G.Allows s t
  refl s := ⟨F.refl s, G.refl s⟩
  trans h h' := ⟨F.trans h.1 h'.1, G.trans h.2 h'.2⟩

section Triple
variable {P : σ → Prop} {Q : α → σ → Prop}

/-- A run from a state with `P` ends with a result and a state with `Q`. -/
def Triple (P : σ → Prop) (m : StateM σ α) (Q : α → σ → Prop) : Prop :=
  ∀ s, P s → Q (m s).1 (m s).2

theorem triple_pure {a : α} (h : ∀ s, P s → Q a s) : Triple P (pure a) Q := h

theorem triple_bind {m : StateM σ α} {f : α → StateM σ β} {R : β → σ → Prop} (hm : Triple P m Q)
    (hf : ∀ a, Triple (Q a) (f a) R) : Triple P (m >>= f) R :=
  fun s hs => hf (m s).1 (m s).2 (hm s hs)

theorem triple_ite {p : Prop} [Decidable p] {m m' : StateM σ α} (h : p → Triple P m Q)
    (h' : ¬p → Triple P m' Q) : Triple P (if p then m else m') Q := by
  split_ifs with hp
  · exact h hp
  · exact h' hp

end Triple

end Dumbos.Foundation
