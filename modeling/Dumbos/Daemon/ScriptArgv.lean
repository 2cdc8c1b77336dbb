import Dumbos.Daemon.PayloadCmd
import Dumbos.Foundation.Lines

/-! # The argument list of a script

`script_helper` walks over its data string by string and keeps a pointer to each
in an array that grows with them, with room for two strings before them and a
`NULL` behind. At the level of that array every write stays inside of the
allocation, and what a program is started with are the strings of the data.
-/
namespace Dumbos.Daemon
open Foundation Common

/-- An element of `str_list`. -/
inductive Element where
  | unset
  | literal (s : Bytes)
  /-- An offset into the data. -/
  | pointer (offset : ℕ)
  | null
deriving DecidableEq

/-- Why there is no list: no memory, or an access that C does not define. -/
inductive ListFault where
  | errno (e : Errno)
  | outside
  | unterminated
  | endless
deriving DecidableEq

/-- The elements that there were, and new ones that are not set. -/
def reallocarray (list : List Element) (n : ℕ) : List Element :=
  list.take n ++ List.replicate (n - list.length) Element.unset

def store (list : List Element) (i : ℕ) (e : Element) : Except ListFault (List Element) :=
  if i < list.length then .ok (list.set i e) else .error .outside

def strlen (buf : Bytes) (offset : ℕ) : Except ListFault ℕ :=
  if 0 ∈ buf.drop offset then .ok (cstr (buf.drop offset)).length else .error .unterminated

/-- Where `data` points to, and the list so far. -/
structure ListState where
  data : ℕ
  strNum : ℕ
  strList : List Element

section Loop
variable (alloc : ℕ → Except Errno Unit) (buf : Bytes) (dataEnd : ℕ)

/-- The loop; `alloc` says how each `reallocarray` goes. -/
def listLoop : ℕ → ListState → Except ListFault ListState
  | 0, _ => .error .endless
  | fuel + 1, s =>
    if s.data < dataEnd then
      match alloc (s.strNum + 1) with
      | .error e => .error (.errno e)
      | .ok () => do
        let strList ← store (reallocarray s.strList (s.strNum + 1 + 3)) (s.strNum + 1 + 1)
          (.pointer s.data)
        let len ← strlen buf s.data
        listLoop fuel ⟨s.data + (len + 1), s.strNum + 1, strList⟩
    else .ok s

end Loop

/-- The list that `script_helper` starts a program with. -/
def strList (alloc : ℕ → Except Errno Unit) (argv0 argv1 data : Bytes) :
    Except ListFault (List Element) := do
  let s ← listLoop alloc (terminate data) (data.length - 1) data.length ⟨0, 0, []⟩
  let list ← store s.strList 0 (.literal argv0)
  let list ← store list 1 (.literal argv1)
  store list (s.strNum + 2) .null

/-- The strings that a program finds in its `argv`, up to the `NULL`. -/
def argvOf (buf : Bytes) : List Element → Option (List Bytes)
  | [] => none
  | .unset :: _ => none
  | .null :: _ => some []
  | .literal s :: list => (argvOf buf list).map (s :: ·)
  | .pointer offset :: list =>
    if 0 ∈ buf.drop offset then (argvOf buf list).map (cstr (buf.drop offset) :: ·) else none

theorem stringList_append (body : Bytes) : stringList (body ++ [0]) = pieces 0 body := by
  rw [stringList, List.dropLast_concat]
  rfl

/-- The first string, and those of the data behind its NUL. -/
theorem pieces_zero_cons {body : Bytes} (h : body ≠ []) :
    pieces 0 body = cstr body :: pieces 0 (body.drop ((cstr body).length + 1)) := by
  by_cases hnul : 0 ∈ body
  · have hnot : 0 ∉ cstr body := fun hmem => cstr_no_nul body 0 hmem rfl
    conv_lhs => rw [← cstr_append_drop hnul]
    exact pieces_append_cons hnot _
  · have hself : cstr body = body := cstr_eq_self fun c hc hzero => hnul (hzero ▸ hc)
    rw [hself, List.drop_of_length_le (Nat.le_succ _), pieces_of_not_mem hnul h, pieces_nil]

/-- The array behind a number of rounds. -/
def growing (offsets : List ℕ) : List Element :=
  if offsets = [] then [] else [.unset, .unset] ++ offsets.map .pointer ++ [.unset]

/-- A round moves the last free element one place on. -/
theorem store_growing (offsets : List ℕ) (offset : ℕ) :
    store (reallocarray (growing offsets) (offsets.length + 1 + 3)) (offsets.length + 1 + 1)
      (.pointer offset) = .ok (growing (offsets ++ [offset])) := by
  have hgrown : reallocarray (growing offsets) (offsets.length + 1 + 3) =
      ([.unset, .unset] ++ offsets.map .pointer) ++ [.unset, .unset] := by
    rw [growing]
    split_ifs with hnil
    · rw [hnil]
      rfl
    · have hlen : ([.unset, .unset] ++ offsets.map .pointer ++ [.unset] : List Element).length =
          offsets.length + 3 := by simp
      rw [reallocarray, hlen, List.take_of_length_le (by omega),
        show offsets.length + 1 + 3 - (offsets.length + 3) = 1 from by omega, List.append_assoc]
      rfl
  have hlen : ([.unset, .unset] ++ offsets.map .pointer : List Element).length =
      offsets.length + 1 + 1 := by simp
  rw [hgrown, store, if_pos (by rw [List.length_append, hlen]; simp), ← hlen,
    List.set_append_right _ _ le_rfl, Nat.sub_self]
  simp [growing]

/-- A string that starts in front of the last byte has its end. -/
theorem mem_drop_body {body : Bytes} {offset : ℕ} (h : offset ≤ body.length) :
    0 ∈ (body ++ [0]).drop offset := by
  rw [List.drop_append_of_le_length h]
  simp

/-- Step: a round stores a pointer to the next string. -/
theorem listLoop_succ {alloc : ℕ → Except Errno Unit} {body : Bytes} {offset : ℕ}
    (hmore : offset < body.length) {offsets : List ℕ} (halloc : alloc (offsets.length + 1) = .ok ())
    (fuel : ℕ) :
    listLoop alloc (body ++ [0]) body.length (fuel + 1) ⟨offset, offsets.length, growing offsets⟩ =
      listLoop alloc (body ++ [0]) body.length fuel
        ⟨offset + ((cstr (body.drop offset)).length + 1), (offsets ++ [offset]).length,
          growing (offsets ++ [offset])⟩ := by
  have hlen : strlen (body ++ [0]) offset = .ok (cstr (body.drop offset)).length := by
    rw [strlen, if_pos (mem_drop_body hmore.le), List.drop_append_of_le_length hmore.le,
      cstr_append_singleton_zero]
  rw [listLoop, if_pos hmore]
  simp only [halloc, store_growing, hlen, List.length_append, List.length_singleton]
  rfl

/-- Run: the loop ends for lack of memory, or with a pointer to each string that is left. -/
theorem listLoop_cases (alloc : ℕ → Except Errno Unit) (body : Bytes) (fuel offset : ℕ)
    (offsets : List ℕ) (hfuel : body.length - offset < fuel) :
    (∃ k e, alloc k = .error e ∧
      listLoop alloc (body ++ [0]) body.length fuel ⟨offset, offsets.length, growing offsets⟩ =
        .error (.errno e)) ∨
    ∃ new final, listLoop alloc (body ++ [0]) body.length fuel
        ⟨offset, offsets.length, growing offsets⟩ =
          .ok ⟨final, (offsets ++ new).length, growing (offsets ++ new)⟩ ∧
      (∀ o ∈ new, o < body.length) ∧
      new.map (fun o => cstr ((body ++ [0]).drop o)) = pieces 0 (body.drop offset) := by
  induction fuel generalizing offset offsets with
  | zero => exact absurd hfuel (Nat.not_lt_zero _)
  | succ fuel ih =>
    by_cases hmore : offset < body.length
    · cases halloc : alloc (offsets.length + 1) with
      | error e =>
        rw [listLoop, if_pos hmore, halloc]
        exact .inl ⟨_, e, halloc, rfl⟩
      | ok u =>
        rw [listLoop_succ hmore halloc]
        rcases ih (offset + ((cstr (body.drop offset)).length + 1)) (offsets ++ [offset])
          (by omega) with ⟨k, e, hk, heq⟩ | ⟨new, final, heq, hnew, hstrings⟩
        · exact .inl ⟨k, e, hk, heq⟩
        · refine .inr ⟨offset :: new, final, ?_, ?_, ?_⟩
          · rw [heq, List.append_assoc, List.singleton_append]
          · intro o ho
            rcases List.mem_cons.mp ho with rfl | ho
            · exact hmore
            · exact hnew o ho
          · have hne : body.drop offset ≠ [] := by simpa using hmore
            rw [List.map_cons, hstrings, pieces_zero_cons hne, List.drop_drop,
              List.drop_append_of_le_length hmore.le, cstr_append_singleton_zero]
    · rw [listLoop, if_neg hmore]
      refine .inr ⟨[], offset, by rw [List.append_nil], by simp, ?_⟩
      rw [List.drop_of_length_le (not_lt.mp hmore), pieces_nil, List.map_nil]

/-- A program finds the strings behind the pointers, up to the `NULL`. -/
theorem argvOf_pointers {body : Bytes} {offsets : List ℕ} (h : ∀ o ∈ offsets, o < body.length) :
    argvOf (body ++ [0]) (offsets.map .pointer ++ [.null]) =
      some (offsets.map (fun o => cstr ((body ++ [0]).drop o))) := by
  induction offsets with
  | nil => rfl
  | cons o offsets ih =>
    have hin : 0 ∈ (body ++ [0]).drop o := mem_drop_body (h o (by simp)).le
    rw [List.map_cons, List.cons_append, argvOf, if_pos hin,
      ih fun o' ho' => h o' (List.mem_cons_of_mem _ ho')]
    rfl

/-- The three elements that are stored last. -/
theorem store_ends {offsets : List ℕ} (h : offsets ≠ []) (argv0 argv1 : Bytes) :
    (do
      let list ← store (growing offsets) 0 (.literal argv0)
      let list ← store list 1 (.literal argv1)
      store list (offsets.length + 2) .null) =
      .ok (.literal argv0 :: .literal argv1 :: (offsets.map .pointer ++ [.null])) := by
  rw [growing, if_neg h]
  change store (.literal argv0 :: .literal argv1 :: (offsets.map .pointer ++ [.unset]))
    (offsets.length + 2) .null = _
  rw [store, if_pos (by simp)]
  have hlen : (offsets.map Element.pointer).length = offsets.length := List.length_map _
  rw [List.set_cons_succ, List.set_cons_succ, ← hlen, List.set_append_right _ _ le_rfl, Nat.sub_self]
  rfl

/-- The list of `script_helper`, whatever its data: no access is undefined, and a program that is
started with it gets the strings of the data. -/
theorem strList_cases (alloc : ℕ → Except Errno Unit) (argv0 argv1 : Bytes) {data : Bytes}
    (hlen : 2 ≤ data.length) :
    (∃ k e, alloc k = .error e ∧ strList alloc argv0 argv1 data = .error (.errno e)) ∨
      ∃ list, strList alloc argv0 argv1 data = .ok list ∧
        list.length = (stringList (terminate data)).length + 3 ∧
        argvOf (terminate data) list = some (argv0 :: argv1 :: stringList (terminate data)) := by
  have hend : data.length - 1 = data.dropLast.length := List.length_dropLast.symm
  have hfuel : data.dropLast.length - 0 < data.length := by omega
  rw [strList, hend, terminate, stringList_append]
  rcases listLoop_cases alloc data.dropLast data.length 0 [] hfuel with
    ⟨k, e, hk, heq⟩ | ⟨offsets, final, heq, hin, hstrings⟩
  · left
    refine ⟨k, e, hk, ?_⟩
    change listLoop alloc _ _ _ ⟨0, 0, []⟩ = _ at heq
    rw [heq]
    rfl
  · right
    rw [List.drop_zero] at hstrings
    have hne : offsets ≠ [] := by
      rintro rfl
      have hbody : data.dropLast ≠ [] := List.ne_nil_of_length_pos (by omega)
      rw [pieces_zero_cons hbody] at hstrings
      cases hstrings
    refine ⟨.literal argv0 :: .literal argv1 :: (offsets.map .pointer ++ [.null]), ?_, ?_, ?_⟩
    · change listLoop alloc _ _ _ ⟨0, 0, []⟩ = _ at heq
      rw [heq]
      exact store_ends hne argv0 argv1
    · rw [← hstrings]
      simp
    · rw [argvOf, argvOf, argvOf_pointers hin, hstrings]
      rfl

end Dumbos.Daemon
