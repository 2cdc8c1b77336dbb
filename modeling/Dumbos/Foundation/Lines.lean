import Dumbos.Foundation.Bytes

/-! # Lines of a text

A text is a list of lines, each with its separator, and behind them what no
separator ends. An append in lines extends the unended line, if there is one,
with the first of them. What `grep` prints are lines with their separators.
-/
namespace Dumbos.Foundation

section Ended
variable {α : Type} {sep : α}

/-- Every line with its separator. -/
def ended (sep : α) (ls : List (List α)) : List α := ls.flatMap (· ++ [sep])

theorem ended_cons (l : List α) (ls : List (List α)) : ended sep (l :: ls) = l ++ sep :: ended sep ls := by
  simp [ended]

theorem ended_append (a b : List (List α)) : ended sep (a ++ b) = ended sep a ++ ended sep b :=
  List.flatMap_append

/-- The last separator is behind the last line. -/
theorem ended_concat (ls : List (List α)) (l : List α) :
    ended sep (ls ++ [l]) = ended sep ls ++ l ++ [sep] := by
  simp [ended]

end Ended

section Pieces
variable {α : Type} [DecidableEq α] {sep : α}

/-- The lines between separators; behind the last separator there is none. -/
def pieces (sep : α) (text : List α) : List (List α) :=
  let parts := text.splitOn sep
  if parts.getLast? = some [] then parts.dropLast else parts

@[simp] theorem pieces_nil : pieces sep [] = [] := by
  simp [pieces]

/-- The first piece. -/
theorem pieces_append_cons {a : List α} (ha : sep ∉ a) (b : List α) :
    pieces sep (a ++ sep :: b) = a :: pieces sep b := by
  have hne := List.splitOn_ne_nil sep b
  simp only [pieces]
  rw [List.splitOn_append_cons_self_of_not_mem ha, List.getLast?_cons_of_ne_nil hne,
    List.dropLast_cons_of_ne_nil hne]
  split_ifs <;> rfl

theorem pieces_of_not_mem {a : List α} (ha : sep ∉ a) (hne : a ≠ []) : pieces sep a = [a] := by
  simp only [pieces]
  rw [List.splitOn_eq_singleton ha, List.getLast?_singleton, if_neg (by simpa using hne)]

/-- Pieces with their separators are read back. -/
theorem pieces_ended_append {ls : List (List α)} (hls : ∀ l ∈ ls, sep ∉ l) (rest : List α) :
    pieces sep (ended sep ls ++ rest) = ls ++ pieces sep rest := by
  induction ls with
  | nil => rfl
  | cons l ls ih =>
    rw [ended_cons, List.append_assoc, List.cons_append, pieces_append_cons (hls l (by simp)),
      ih fun l' hl' => hls l' (List.mem_cons_of_mem _ hl'), List.cons_append]

theorem pieces_ended {ls : List (List α)} (hls : ∀ l ∈ ls, sep ∉ l) : pieces sep (ended sep ls) = ls := by
  have h := pieces_ended_append hls []
  rwa [List.append_nil, pieces_nil, List.append_nil] at h

/-- Every text is a number of ended lines and a line without an end. -/
theorem exists_ended (sep : α) (text : List α) :
    ∃ ls last, (∀ l ∈ ls, sep ∉ l) ∧ sep ∉ last ∧ text = ended sep ls ++ last := by
  induction text with
  | nil => exact ⟨[], [], by simp, by simp, rfl⟩
  | cons c text ih =>
    obtain ⟨ls, last, hls, hlast, rfl⟩ := ih
    by_cases hc : c = sep
    · subst hc
      refine ⟨[] :: ls, last, ?_, hlast, ?_⟩
      · simpa using hls
      · rw [ended_cons]
        rfl
    · cases ls with
      | nil => exact ⟨[], c :: last, by simp, by simp [Ne.symm hc, hlast], rfl⟩
      | cons l ls =>
        refine ⟨(c :: l) :: ls, last, ?_, hlast, ?_⟩
        · intro l' hl'
          rcases List.mem_cons.mp hl' with rfl | hl'
          · simp [Ne.symm hc, hls l (by simp)]
          · exact hls l' (List.mem_cons_of_mem _ hl')
        · simp [ended_cons]

theorem not_mem_of_mem_pieces {text l : List α} (h : l ∈ pieces sep text) : sep ∉ l := by
  obtain ⟨ls, last, hls, hlast, rfl⟩ := exists_ended sep text
  rw [pieces_ended_append hls] at h
  rcases List.mem_append.mp h with h | h
  · exact hls l h
  · by_cases hnil : last = []
    · rw [hnil, pieces_nil] at h
      cases h
    · rw [pieces_of_not_mem hlast hnil, List.mem_singleton] at h
      exact h ▸ hlast

omit [DecidableEq α] in
/-- The first separator stands at one place only. -/
theorem eq_of_first {a b x y : List α} (ha : sep ∉ a) (hb : sep ∉ b)
    (h : a ++ sep :: x = b ++ sep :: y) : a = b ∧ x = y := by
  induction a generalizing b with
  | nil =>
    cases b with
    | nil => exact ⟨rfl, (List.cons.inj h).2⟩
    | cons d b => exact absurd (List.cons.inj h).1 fun heq => hb (heq ▸ List.mem_cons_self)
  | cons c a ih =>
    rw [List.mem_cons, not_or] at ha
    cases b with
    | nil => exact absurd (List.cons.inj h).1.symm ha.1
    | cons d b =>
      rw [List.mem_cons, not_or] at hb
      obtain ⟨hhead, htail⟩ := List.cons.inj h
      obtain ⟨rfl, hrest⟩ := ih ha.2 hb.2 htail
      exact ⟨by rw [hhead], hrest⟩

end Pieces

end Dumbos.Foundation
