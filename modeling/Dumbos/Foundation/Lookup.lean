import Dumbos.Foundation.Volume

/-! # Resolution of paths

A path leads from the root or the working directory through its components. A link
on the way is followed, one at the end only when the call asks for it or a slash
stands behind it, and no lookup follows more than `MAXSYMLINKS` of them. The last
component need not be there.
-/
namespace Dumbos.Foundation

def slash : UInt8 := 47

def dot : Bytes := [46]
def dots : Bytes := [46, 46]

/-- Empty components and `.` lead nowhere else. -/
def components (path : Bytes) : List Bytes :=
  (path.splitOn slash).filter fun name => name ≠ [] ∧ name ≠ dot

/-- What stands behind the last slash. -/
def lastComponent (path : Bytes) : Bytes := (path.splitOn slash).getLastD []

/-- A path that ends in a slash or in `.` is one of a directory. -/
def AsksDirectory (path : Bytes) : Prop := lastComponent path = [] ∨ lastComponent path = dot

instance : DecidablePred AsksDirectory := fun path =>
  inferInstanceAs (Decidable (lastComponent path = [] ∨ lastComponent path = dot))

/-- Where the resolution of a path starts, seen from a directory. -/
def startFrom (dir : Place) (path : Bytes) : Place := if path.head? = some slash then [] else dir

def MAXSYMLINKS : ℕ := 40

/-- A component that is the name of an entry. -/
structure Proper (name : Bytes) : Prop where
  ne_nil : name ≠ []
  slash : slash ∉ name
  ne_dot : name ≠ dot
  ne_dots : name ≠ dots

namespace Volume
variable (v : Volume) (follow : Bool)

/-- The way through the components, with the number of links that may still be followed; `again` goes
on at the target of a link. -/
def walk (links : ℕ) (again : Place → List Bytes → Except Refusal (Place × ℕ)) :
    Place → List Bytes → Except Refusal (Place × ℕ)
  | dir, [] => .ok (dir, links)
  | dir, name :: rest =>
    if name = dots then walk links again dir.tail rest
    else match v.node (name :: dir) with
      | some .directory => walk links again (name :: dir) rest
      | some (.link target) =>
        if rest = [] ∧ follow = false then .ok (name :: dir, links)
        else again (startFrom dir target) (components target ++ rest)
      | some (.file _) => if rest = [] then .ok (name :: dir, links) else .error .notDirectory
      | none => if rest = [] then .ok (name :: dir, links) else .error .missing

def locate : ℕ → Place → List Bytes → Except Refusal (Place × ℕ)
  | 0 => walk v follow 0 fun _ _ => .error .loop
  | links + 1 => walk v follow (links + 1) (locate links)

variable {v} {follow}

@[simp] theorem locate_nil (links : ℕ) (dir : Place) :
    v.locate follow links dir [] = .ok (dir, links) := by
  cases links <;> rfl

/-- How many links are left does not matter but at a link. -/
theorem locate_cons (links : ℕ) (dir : Place) (name : Bytes) (rest : List Bytes) :
    v.locate follow links dir (name :: rest) =
      if name = dots then v.locate follow links dir.tail rest
      else match v.node (name :: dir) with
        | some .directory => v.locate follow links (name :: dir) rest
        | some (.link target) =>
          if rest = [] ∧ follow = false then .ok (name :: dir, links)
          else match links with
            | 0 => .error .loop
            | links + 1 => v.locate follow links (startFrom dir target) (components target ++ rest)
        | some (.file _) => if rest = [] then .ok (name :: dir, links) else .error .notDirectory
        | none => if rest = [] then .ok (name :: dir, links) else .error .missing := by
  cases links <;> rfl

theorem startFrom_directory {dir : Place} (h : v.node dir = some .directory) (path : Bytes) :
    v.node (startFrom dir path) = some .directory := by
  rw [startFrom]
  split_ifs
  · exact v.root
  · exact h

/-- What goes on behind a directory that was reached. -/
def goOn (v : Volume) (follow : Bool) (name : Bytes) (rest : List Bytes) :
    Place × ℕ → Except Refusal (Place × ℕ)
  | (dir, links) => match v.node dir with
    | some .directory => v.locate follow links dir (name :: rest)
    | some (.file _) => .error .notDirectory
    | some (.link _) => .error .loop
    | none => .error .missing

/-- The induction over a lookup: the components behind the first one, and whatever a link leaves to
look up with fewer of them to follow. -/
theorem lookup_induction {P : ℕ → Place → List Bytes → Prop} (nil : ∀ links dir, P links dir [])
    (cons : ∀ links dir name rest, (∀ dir, P links dir rest) →
      (∀ fewer, links = fewer + 1 → ∀ dir path, P fewer dir path) → P links dir (name :: rest)) :
    ∀ links dir path, P links dir path := by
  intro links
  induction links with
  | zero =>
    intro dir path
    induction path generalizing dir with
    | nil => exact nil 0 dir
    | cons name rest ih => exact cons 0 dir name rest ih fun fewer h => absurd h (Nat.succ_ne_zero fewer).symm
  | succ fewer ihlinks =>
    intro dir path
    induction path generalizing dir with
    | nil => exact nil (fewer + 1) dir
    | cons name rest ih =>
      refine cons (fewer + 1) dir name rest ih fun links h => ?_
      obtain rfl := Nat.succ.inj h
      exact ihlinks

/-- A lookup goes through its first components and on from the directory they lead to. -/
theorem locate_append (links : ℕ) {dir : Place} (hdir : v.node dir = some .directory)
    (front : List Bytes) (name : Bytes) (rest : List Bytes) :
    v.locate follow links dir (front ++ name :: rest) =
      (v.locate true links dir front).bind (goOn v follow name rest) := by
  have hne : ∀ front : List Bytes, front ++ name :: rest ≠ [] := fun front =>
    List.append_ne_nil_of_right_ne_nil front (List.cons_ne_nil name rest)
  revert hdir
  induction links, dir, front using lookup_induction with
  | nil links dir =>
    intro hdir
    rw [List.nil_append, locate_nil]
    change _ = goOn v follow name rest (dir, links)
    rw [goOn, hdir]
  | cons links dir first front ih ihlinks =>
    intro hdir
    rw [List.cons_append, locate_cons, locate_cons]
    by_cases hdots : first = dots
    · rw [if_pos hdots, if_pos hdots]
      exact ih dir.tail (v.directory_tail hdir)
    rw [if_neg hdots, if_neg hdots]
    cases hnode : v.node (first :: dir) with
    | none =>
      simp only [hne, if_false]
      split_ifs
      · change _ = goOn v follow name rest (first :: dir, links)
        rw [goOn, hnode]
      · rfl
    | some x => cases x with
      | directory => exact ih (first :: dir) hnode
      | file content =>
        simp only [hne, if_false]
        split_ifs
        · change _ = goOn v follow name rest (first :: dir, links)
          rw [goOn, hnode]
        · rfl
      | link target =>
        simp only [hne, false_and, if_false, Bool.true_eq_false, and_false]
        cases links with
        | zero => rfl
        | succ fewer =>
          dsimp only
          rw [← List.append_assoc]
          exact ihlinks fewer rfl _ _ (startFrom_directory hdir target)

/-- A lookup that leads to a directory has not met a link at its end. -/
theorem locate_true_of_directory {links : ℕ} {dir : Place} {path : List Bytes} {p : Place} {left : ℕ}
    (h : v.locate follow links dir path = .ok (p, left)) (hp : v.node p = some .directory) :
    v.locate true links dir path = .ok (p, left) := by
  induction links, dir, path using lookup_induction with
  | nil links dir =>
    rw [locate_nil] at h
    rw [locate_nil, h]
  | cons links dir name rest ih ihlinks =>
    rw [locate_cons] at h ⊢
    by_cases hdots : name = dots
    · rw [if_pos hdots] at h ⊢
      exact ih dir.tail h
    rw [if_neg hdots] at h ⊢
    cases hnode : v.node (name :: dir) with
    | none => simpa [hnode] using h
    | some x => cases x with
      | directory =>
        rw [hnode] at h
        exact ih (name :: dir) h
      | file content => simpa [hnode] using h
      | link target =>
        rw [hnode] at h
        simp only [Bool.true_eq_false, and_false, if_false]
        dsimp only at h
        split_ifs at h
        · cases h
          rw [hnode] at hp
          cases hp
        · cases links with
          | zero => cases h
          | succ fewer => exact ihlinks fewer rfl _ _ h

/-- The last component of a path is not followed. -/
theorem locate_last {links : ℕ} {dir : Place} {name : Bytes} (hname : name ≠ dots) :
    v.locate false links dir [name] = .ok (name :: dir, links) := by
  rw [locate_cons, if_neg hname]
  cases v.node (name :: dir) with
  | none => rfl
  | some x => cases x with
    | directory => exact locate_nil links (name :: dir)
    | file content => rfl
    | link target => rfl

/-- One component more behind a directory. -/
theorem locate_entry {links : ℕ} {dir : Place} (hdir : v.node dir = some .directory)
    {path : List Bytes} {p : Place} {left : ℕ} (h : v.locate follow links dir path = .ok (p, left))
    (hp : v.node p = some .directory) {name : Bytes} (hname : Proper name) :
    v.locate false links dir (path ++ [name]) = .ok (name :: p, left) := by
  rw [locate_append links hdir, locate_true_of_directory h hp]
  change goOn v false name [] (p, left) = _
  rw [goOn, hp]
  exact locate_last hname.ne_dots

end Volume

section Paths
variable (v : Volume) (cwd : Place)

def Volume.asDirectory (p : Place) : Except Refusal Place :=
  match v.node p with
  | some .directory => .ok p
  | some _ => .error .notDirectory
  | none => .error .missing

/-- The place of a path. One of a directory is followed to the end, and has to lead to one. -/
def Volume.lookup (follow : Bool) (path : Bytes) : Except Refusal Place :=
  if path = [] then .error .missing
  else if AsksDirectory path then
    (v.locate true MAXSYMLINKS (startFrom cwd path) (components path)).bind fun r =>
      v.asDirectory r.1
  else (v.locate follow MAXSYMLINKS (startFrom cwd path) (components path)).map Prod.fst

/-- The place for a new directory, where a slash behind the path does not matter. -/
def Volume.lookupNew (path : Bytes) : Except Refusal Place :=
  if path = [] then .error .missing
  else if lastComponent path = dot then v.lookup cwd true path
  else (v.locate false MAXSYMLINKS (startFrom cwd path) (components path)).map Prod.fst

variable {v} {cwd}

theorem Volume.asDirectory_eq_ok {p q : Place} (h : v.asDirectory p = .ok q) :
    q = p ∧ v.node p = some .directory := by
  rw [asDirectory] at h
  cases hnode : v.node p with
  | none =>
    rw [hnode] at h
    cases h
  | some x =>
    rw [hnode] at h
    cases x <;> cases h
    exact ⟨rfl, rfl⟩

/-- A path that leads somewhere leads there through its components. -/
theorem Volume.lookup_eq_ok {follow : Bool} {path : Bytes} {p : Place}
    (h : v.lookup cwd follow path = .ok p) :
    path ≠ [] ∧ ∃ follow' left, v.locate follow' MAXSYMLINKS (startFrom cwd path) (components path) =
      .ok (p, left) := by
  rw [lookup] at h
  split_ifs at h with hempty hasks
  · refine ⟨hempty, true, ?_⟩
    cases hlocate : v.locate true MAXSYMLINKS (startFrom cwd path) (components path) with
    | error e =>
      rw [hlocate] at h
      cases h
    | ok r =>
      rw [hlocate] at h
      obtain ⟨rfl, -⟩ := asDirectory_eq_ok h
      exact ⟨r.2, rfl⟩
  · refine ⟨hempty, follow, ?_⟩
    cases hlocate : v.locate follow MAXSYMLINKS (startFrom cwd path) (components path) with
    | error e =>
      rw [hlocate] at h
      cases h
    | ok r =>
      rw [hlocate] at h
      cases h
      exact ⟨r.2, rfl⟩

theorem components_append_slash (path rest : Bytes) :
    components (path ++ slash :: rest) = components path ++ components rest := by
  rw [components, List.splitOn_append_cons_self, List.filter_append]
  rfl

theorem components_proper {name : Bytes} (h : Proper name) : components name = [name] := by
  rw [components, List.splitOn_eq_singleton h.slash]
  simp [h.ne_nil, h.ne_dot]

theorem lastComponent_append_slash (path : Bytes) {name : Bytes} (h : slash ∉ name) :
    lastComponent (path ++ slash :: name) = name := by
  rw [lastComponent, List.splitOn_append_cons_self, List.splitOn_eq_singleton h, List.getLastD_concat]

theorem not_asksDirectory (path : Bytes) {name : Bytes} (h : Proper name) :
    ¬AsksDirectory (path ++ slash :: name) := by
  rw [AsksDirectory, lastComponent_append_slash path h.slash]
  exact not_or.mpr ⟨h.ne_nil, h.ne_dot⟩

theorem startFrom_append {path : Bytes} (h : path ≠ []) (dir : Place) (rest : Bytes) :
    startFrom dir (path ++ rest) = startFrom dir path := by
  rw [startFrom, startFrom, List.head?_append_of_ne_nil path h]

theorem Volume.lookupNew_eq {path : Bytes} (h : ¬AsksDirectory path) :
    v.lookupNew cwd path = v.lookup cwd false path := by
  rw [lookupNew, if_neg (not_or.mp h).2, lookup, if_neg h]

/-- An entry of the directory that a path leads to. -/
theorem Volume.lookup_entry (hcwd : v.node cwd = some .directory) {follow : Bool} {path : Bytes}
    {p : Place} (h : v.lookup cwd follow path = .ok p) (hp : v.node p = some .directory)
    {name : Bytes} (hname : Proper name) {path' : Bytes} (hpath : path <+: path')
    (hcomponents : components path' = components path ++ [name]) (hlast : ¬AsksDirectory path') :
    v.lookup cwd false path' = .ok (name :: p) := by
  obtain ⟨hne, follow', left, hlocate⟩ := lookup_eq_ok h
  obtain ⟨rest, rfl⟩ := hpath
  have hentry := locate_entry (startFrom_directory hcwd path) hlocate hp hname
  rw [lookup, if_neg (List.append_ne_nil_of_left_ne_nil hne rest), if_neg hlast, hcomponents,
    startFrom_append hne, hentry]
  rfl

end Paths

end Dumbos.Foundation
