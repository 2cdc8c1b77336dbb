import Dumbos.Foundation.Lookup

/-! # Making a directory and those above it

A directory is tried first, and the one above it only when that is missing. So nothing
is made before the first directory that is not there, and every directory behind it
is tried a second time. A call that fails for a reason of its own ends all of it.
-/
namespace Dumbos.Foundation

/-- Why a call fails: it is refused, or something else went wrong. -/
inductive Trouble (ε : Type) where
  | refused (r : Refusal)
  | failed (e : ε)

/-- How a `mkdir` goes, and whether the `stat` behind it fails. -/
structure Attempt (ε : Type) where
  mkdir : Option ε
  stat : Bool

/-- The attempts by the number of components, before the directories above are made and after. -/
structure Attempts (ε : Type) where
  first : ℕ → Attempt ε
  again : ℕ → Attempt ε

namespace Volume
variable (v : Volume) (start : Place)

/-- Where the components lead, of which the last stands first. -/
def leadsTo (up : List Bytes) : Except Refusal (Place × ℕ) :=
  v.locate true MAXSYMLINKS start up.reverse

def isDir (up : List Bytes) : Bool :=
  match v.leadsTo start up with
  | .ok (p, _) => v.node p == some .directory
  | .error _ => false

variable {ε : Type}

def mkdirAt (attempt : Attempt ε) (up : List Bytes) : Except (Trouble ε) Volume :=
  match attempt.mkdir with
  | some e => .error (.failed e)
  | none => (((v.locate false MAXSYMLINKS start up.reverse).map Prod.fst).bind
      (v.make .directory)).mapError .refused

/-- A directory that is there already is as good as one that is made. -/
def orIsDir (attempt : Attempt ε) (up : List Bytes) (e : Trouble ε) :
    Except (Trouble ε) Unit × Volume :=
  if !attempt.stat && v.isDir start up then (.ok (), v) else (.error e, v)

/-- The attempt at a directory when those above it are made, or that has failed. -/
def makeAgain (attempt : Attempt ε) (up : List Bytes) :
    Except (Trouble ε) Unit × Volume → Except (Trouble ε) Unit × Volume
  | (.error e, v) => (.error e, v)
  | (.ok (), v) =>
    match v.mkdirAt start attempt up with
    | .ok v => (.ok (), v)
    | .error e => v.orIsDir start attempt up e

end Volume

/-- `create_dir_all`; a path without components is there. -/
def createDirAll {ε : Type} (attempts : Attempts ε) (start : Place) :
    List Bytes → Volume → Except (Trouble ε) Unit × Volume
  | [], v => (.ok (), v)
  | name :: up, v =>
    match v.mkdirAt start (attempts.first (up.length + 1)) (name :: up) with
    | .ok v => (.ok (), v)
    | .error (.refused .missing) =>
      Volume.makeAgain start (attempts.again (up.length + 1)) (name :: up)
        (createDirAll attempts start up v)
    | .error e => v.orIsDir start (attempts.first (up.length + 1)) (name :: up) e

/-- How many components the first directory has that is not there and can be made. -/
def firstToMake (v : Volume) (start : Place) : List Bytes → Option ℕ
  | [] => none
  | name :: up =>
    match v.leadsTo start up with
    | .error .missing => firstToMake v start up
    | .error _ => none
    | .ok (p, _) => match v.node p with
      | none => firstToMake v start up
      | some .directory => if v.node (name :: p) = none then some (up.length + 1) else none
      | some _ => none

/-- The attempts make the directory with so many components. -/
def Makes {ε : Type} (attempts : Attempts ε) (v : Volume) (start : Place) (up : List Bytes)
    (level : ℕ) : Prop :=
  firstToMake v start up = some level ∧
    ∀ i, level ≤ i → i ≤ up.length → (attempts.first i).mkdir = none

/-- No second attempt fails. -/
def NoneFails {ε : Type} (attempts : Attempts ε) (level length : ℕ) : Prop :=
  ∀ i, level < i → i ≤ length → (attempts.again i).mkdir = none

/-- The path is laid in a volume: its first directory is made with so many components, and each one
behind it is made as well, or leads to a directory anyway. -/
inductive Laid {ε : Type} (attempts : Attempts ε) (v : Volume) (start : Place) (level : ℕ) :
    List Bytes → Volume → Prop where
  | first {name : Bytes} {up : List Bytes} {w : Volume} (hlevel : level = up.length + 1)
    (hmade : v.mkdirAt start (attempts.first level) (name :: up) = .ok w) :
    Laid attempts v start level (name :: up) w
  | made {name : Bytes} {up : List Bytes} {w w' : Volume} (h : Laid attempts v start level up w)
    (hmade : w.mkdirAt start (attempts.again (up.length + 1)) (name :: up) = .ok w') :
    Laid attempts v start level (name :: up) w'
  | there {name : Bytes} {up : List Bytes} {w : Volume} {e : Trouble ε}
    (h : Laid attempts v start level up w)
    (hmkdir : w.mkdirAt start (attempts.again (up.length + 1)) (name :: up) = .error e)
    (hstat : (attempts.again (up.length + 1)).stat = false) (hdir : w.isDir start (name :: up) = true) :
    Laid attempts v start level (name :: up) w

/-- Whatever was there is there unchanged. -/
def Extends (v v' : Volume) : Prop := ∀ p, v.node p ≠ none → v'.node p = v.node p

/-- Something is there that was not. -/
structure Grown (v v' : Volume) : Prop where
  keeps : Extends v v'
  adds : ∃ p, v.node p = none ∧ v'.node p ≠ none

/-- What stands in front of a `..` is there. -/
def Grounded (v : Volume) (start : Place) (up : List Bytes) : Prop :=
  ∃ ups base, up = ups ++ base ∧ v.isDir start base = true ∧ ∀ name ∈ ups, name ≠ dots

/-- The components lead to a directory with nothing in it. -/
def Fresh (v : Volume) (start : Place) (up : List Bytes) : Prop :=
  ∃ p left, v.leadsTo start up = .ok (p, left) ∧ v.node p = some .directory ∧
    ∀ name, v.node (name :: p) = none

section Extension
variable {v v' v'' : Volume}

theorem Extends.refl (v : Volume) : Extends v v := fun _ _ => rfl

theorem Extends.node (h : Extends v v') {p : Place} {x : Node} (hp : v.node p = some x) :
    v'.node p = some x := (h p (v.node_ne_none hp)).trans hp

theorem Extends.trans (h : Extends v v') (h' : Extends v' v'') : Extends v v'' := by
  intro p hp
  rw [h' p (by rwa [h p hp]), h p hp]

theorem Extends.of_update {p : Place} {x : Option Node} (hfree : v.node p = none)
    (h : v'.node = Function.update v.node p x) : Extends v v' := by
  intro q hq
  rw [h, Function.update_of_ne]
  rintro rfl
  exact hq hfree

theorem Grown.of_update {p : Place} {x : Node} (hfree : v.node p = none)
    (h : v'.node = Function.update v.node p (some x)) : Grown v v' where
  keeps := .of_update hfree h
  adds := ⟨p, hfree, by rw [h, Function.update_self]; exact Option.some_ne_none _⟩

theorem Grown.trans (h : Grown v v') (h' : Extends v' v'') : Grown v v'' where
  keeps := h.keeps.trans h'
  adds := by
    obtain ⟨p, hp, hp'⟩ := h.adds
    exact ⟨p, hp, by rwa [h' p hp']⟩

theorem Grown.ne (h : Grown v v') : v' ≠ v := by
  rintro rfl
  obtain ⟨p, hp, hp'⟩ := h.adds
  exact hp' hp

/-- A way that ends at something is the same in an extension. -/
theorem Extends.locate (h : Extends v v') {follow : Bool} {links : ℕ} {dir : Place} {path : List Bytes}
    {p : Place} {left : ℕ} (hlocate : v.locate follow links dir path = .ok (p, left))
    (hp : v.node p ≠ none) : v'.locate follow links dir path = .ok (p, left) := by
  induction links, dir, path using Volume.lookup_induction with
  | nil links dir =>
    rw [Volume.locate_nil] at hlocate ⊢
    exact hlocate
  | cons links dir name rest ih ihlinks =>
    rw [Volume.locate_cons] at hlocate ⊢
    by_cases hdots : name = dots
    · rw [if_pos hdots] at hlocate ⊢
      exact ih dir.tail hlocate
    rw [if_neg hdots] at hlocate ⊢
    cases hnode : v.node (name :: dir) with
    | none =>
      rw [hnode] at hlocate
      dsimp only at hlocate
      split_ifs at hlocate
      cases hlocate
      exact absurd hnode hp
    | some x =>
      rw [h.node hnode]
      rw [hnode] at hlocate
      cases x with
      | directory => exact ih (name :: dir) hlocate
      | file content => exact hlocate
      | link target =>
        dsimp only at hlocate ⊢
        split_ifs at hlocate ⊢
        · exact hlocate
        · cases links with
          | zero => cases hlocate
          | succ fewer => exact ihlinks fewer rfl _ _ hlocate

/-- A path that leads to something leads there in an extension. -/
theorem Extends.lookup (h : Extends v v') {cwd : Place} {follow : Bool} {path : Bytes} {p : Place}
    (hlookup : v.lookup cwd follow path = .ok p) (hp : v.node p ≠ none) :
    v'.lookup cwd follow path = .ok p := by
  rw [Volume.lookup] at hlookup ⊢
  split_ifs at hlookup ⊢
  · cases hlocate : v.locate true MAXSYMLINKS (startFrom cwd path) (components path) with
    | error r =>
      rw [hlocate] at hlookup
      cases hlookup
    | ok reached =>
      rw [hlocate] at hlookup
      obtain ⟨rfl, hdir⟩ := Volume.asDirectory_eq_ok hlookup
      rw [h.locate hlocate hp]
      change v'.asDirectory reached.1 = _
      rw [Volume.asDirectory, h.node hdir]
  · cases hlocate : v.locate follow MAXSYMLINKS (startFrom cwd path) (components path) with
    | error r =>
      rw [hlocate] at hlookup
      cases hlookup
    | ok reached =>
      rw [hlocate] at hlookup
      cases hlookup
      rw [h.locate hlocate hp]
      rfl

end Extension

section Attempts
variable {ε : Type} {v v' : Volume} {start : Place} {name : Bytes} {up : List Bytes}

theorem leadsTo_cons (hstart : v.node start = some .directory) (name : Bytes) (up : List Bytes) :
    v.leadsTo start (name :: up) = (v.leadsTo start up).bind (Volume.goOn v true name []) := by
  rw [Volume.leadsTo, List.reverse_cons, Volume.locate_append MAXSYMLINKS hstart]
  rfl

/-- An entry that is no link, of the directory that the components lead to. -/
theorem leadsTo_entry (hstart : v.node start = some .directory) {p : Place} {left : ℕ}
    (h : v.leadsTo start up = .ok (p, left)) (hp : v.node p = some .directory) (hname : name ≠ dots)
    (hlink : ∀ target, v.node (name :: p) ≠ some (.link target)) :
    v.leadsTo start (name :: up) = .ok (name :: p, left) := by
  rw [leadsTo_cons hstart, h]
  change Volume.goOn v true name [] (p, left) = _
  rw [Volume.goOn, hp]
  dsimp only
  rw [Volume.locate_cons, if_neg hname]
  cases hnode : v.node (name :: p) with
  | none => rfl
  | some x => cases x with
    | directory => exact Volume.locate_nil left (name :: p)
    | file content => rfl
    | link target => exact absurd hnode (hlink target)

theorem isDir_of_leadsTo {p : Place} {left : ℕ} (h : v.leadsTo start up = .ok (p, left)) :
    v.isDir start up = (v.node p == some .directory) := by
  rw [Volume.isDir, h]

theorem isDir_eq_true_iff : v.isDir start up = true ↔
    ∃ p left, v.leadsTo start up = .ok (p, left) ∧ v.node p = some .directory := by
  constructor
  · intro h
    rw [Volume.isDir] at h
    cases hleads : v.leadsTo start up with
    | error r =>
      rw [hleads] at h
      cases h
    | ok reached =>
      rw [hleads] at h
      exact ⟨reached.1, reached.2, rfl, beq_iff_eq.mp h⟩
  · rintro ⟨p, left, hleads, hp⟩
    rw [isDir_of_leadsTo hleads, hp]
    rfl

theorem Extends.isDir (h : Extends v v') (hdir : v.isDir start up = true) : v'.isDir start up = true := by
  obtain ⟨p, left, hleads, hp⟩ := isDir_eq_true_iff.mp hdir
  exact isDir_eq_true_iff.mpr ⟨p, left, h.locate hleads (v.node_ne_none hp), h.node hp⟩

theorem Extends.grounded (h : Extends v v') (hgrounded : Grounded v start up) : Grounded v' start up := by
  obtain ⟨ups, base, hsplit, hbase, hdots⟩ := hgrounded
  exact ⟨ups, base, hsplit, h.isDir hbase, hdots⟩

theorem Grounded.append {more : List Bytes} (h : Grounded v start up)
    (hmore : ∀ name ∈ more, name ≠ dots) : Grounded v start (more ++ up) := by
  obtain ⟨ups, base, rfl, hbase, hdots⟩ := h
  refine ⟨more ++ ups, base, (List.append_assoc more ups base).symm, hbase, ?_⟩
  exact List.forall_mem_append.mpr ⟨hmore, hdots⟩

theorem lookup_of_isDir {cwd : Place} {path : Bytes} (hpath : path ≠ [])
    (h : v.isDir (startFrom cwd path) (components path).reverse = true) :
    ∃ p, v.lookup cwd true path = .ok p := by
  obtain ⟨p, left, hleads, hp⟩ := isDir_eq_true_iff.mp h
  rw [Volume.leadsTo, List.reverse_reverse] at hleads
  refine ⟨p, ?_⟩
  rw [Volume.lookup, if_neg hpath, hleads]
  split_ifs
  · change v.asDirectory p = _
    rw [Volume.asDirectory, hp]
  · rfl

theorem mkdirAt_natural (hstart : v.node start = some .directory) {attempt : Attempt ε}
    (hnone : attempt.mkdir = none) (name : Bytes) (up : List Bytes) :
    v.mkdirAt start attempt (name :: up) =
      ((((v.leadsTo start up).bind (Volume.goOn v false name [])).map Prod.fst).bind
        (v.make .directory)).mapError .refused := by
  rw [Volume.mkdirAt, hnone, List.reverse_cons, Volume.locate_append MAXSYMLINKS hstart]
  rfl

theorem mkdirAt_failed {attempt : Attempt ε} {e : ε} (h : attempt.mkdir = some e) :
    v.mkdirAt start attempt up = .error (.failed e) := by
  rw [Volume.mkdirAt, h]

/-- A new directory in a directory that was there. -/
theorem mkdirAt_free (hstart : v.node start = some .directory) {attempt : Attempt ε}
    (hnone : attempt.mkdir = none) (hname : name ≠ dots) {p : Place} {left : ℕ}
    (hleads : v.leadsTo start up = .ok (p, left)) (hp : v.node p = some .directory)
    (hfree : v.node (name :: p) = none) :
    ∃ v', v.mkdirAt start attempt (name :: up) = .ok v' ∧ Grown v v' ∧ Fresh v' start (name :: up) := by
  obtain ⟨v', hmake, hnode⟩ := Volume.make_free .directory hp hfree
  have hgrown : Grown v v' := .of_update hfree hnode
  have hp' : v'.node p = some .directory := hgrown.keeps.node hp
  have hnew : v'.node (name :: p) = some .directory := by rw [hnode, Function.update_self]
  have hstart' : v'.node start = some .directory := hgrown.keeps.node hstart
  refine ⟨v', ?_, hgrown, name :: p, left, ?_, hnew, ?_⟩
  · rw [mkdirAt_natural hstart hnone, hleads]
    change (((Volume.goOn v false name [] (p, left)).map Prod.fst).bind _).mapError _ = _
    rw [Volume.goOn, hp]
    dsimp only
    rw [Volume.locate_last hname]
    change ((v.make .directory (name :: p)).mapError _) = _
    rw [hmake]
    rfl
  · exact leadsTo_entry hstart' (hgrown.keeps.locate hleads (v.node_ne_none hp)) hp' hname
      (fun target => by simp [hnew])
  · intro name'
    have hne : name' :: name :: p ≠ name :: p := List.cons_ne_self name' (name :: p)
    rw [hnode, Function.update_of_ne hne]
    by_contra hsome
    rw [v.inside name' (name :: p) hsome] at hfree
    cases hfree

/-- A first attempt that nothing disturbs finds the directory above missing, or there, or is refused for
good. -/
theorem mkdirAt_above (hstart : v.node start = some .directory) {attempt : Attempt ε}
    (hnone : attempt.mkdir = none) (name : Bytes) (up : List Bytes) :
    (v.mkdirAt start attempt (name :: up) = .error (.refused .missing) ∧
        firstToMake v start (name :: up) = firstToMake v start up ∧ v.isDir start up = false) ∨
      (∃ p left, v.leadsTo start up = .ok (p, left) ∧ v.node p = some .directory) ∨
      firstToMake v start (name :: up) = none ∧
        ∃ r, r ≠ Refusal.missing ∧ v.mkdirAt start attempt (name :: up) = .error (.refused r) := by
  have hnatural := mkdirAt_natural hstart hnone name up
  rw [firstToMake]
  cases hleads : v.leadsTo start up with
  | error r =>
    rw [hleads] at hnatural
    by_cases hmissing : r = .missing
    · subst hmissing
      refine .inl ⟨hnatural, rfl, ?_⟩
      rw [Volume.isDir, hleads]
    · refine .inr (.inr ⟨?_, r, hmissing, hnatural⟩)
      cases r with
      | missing => exact absurd rfl hmissing
      | _ => rfl
  | ok reached =>
    obtain ⟨p, left⟩ := reached
    have hgoOn : v.mkdirAt start attempt (name :: up) =
        (((Volume.goOn v false name [] (p, left)).map Prod.fst).bind
          (v.make .directory)).mapError .refused := by
      rw [hnatural, hleads]
      rfl
    dsimp only
    cases hp : v.node p with
    | none =>
      refine .inl ⟨?_, rfl, ?_⟩
      · rw [hgoOn, Volume.goOn, hp]
        rfl
      · rw [isDir_of_leadsTo hleads, hp]
        rfl
    | some x => cases x with
      | directory => exact .inr (.inl ⟨p, left, rfl, hp⟩)
      | file content =>
        refine .inr (.inr ⟨rfl, .notDirectory, by decide, ?_⟩)
        rw [hgoOn, Volume.goOn, hp]
        rfl
      | link target =>
        refine .inr (.inr ⟨rfl, .loop, by decide, ?_⟩)
        rw [hgoOn, Volume.goOn, hp]
        rfl

/-- In a directory that is there, a directory is made, or refused. -/
theorem mkdirAt_cases (hstart : v.node start = some .directory) {attempt : Attempt ε}
    (hnone : attempt.mkdir = none) (hname : name ≠ dots) (up : List Bytes) :
    (v.mkdirAt start attempt (name :: up) = .error (.refused .missing) ∧
        firstToMake v start (name :: up) = firstToMake v start up ∧ v.isDir start up = false) ∨
      (firstToMake v start (name :: up) = some (up.length + 1) ∧
        ∃ v', v.mkdirAt start attempt (name :: up) = .ok v' ∧ Grown v v' ∧
          Fresh v' start (name :: up)) ∨
      firstToMake v start (name :: up) = none ∧
        ∃ r, r ≠ Refusal.missing ∧ v.mkdirAt start attempt (name :: up) = .error (.refused r) := by
  rcases mkdirAt_above hstart hnone name up with hmissing | ⟨p, left, hleads, hp⟩ | hrefused
  · exact .inl hmissing
  · right
    have hfirst : firstToMake v start (name :: up) =
        if v.node (name :: p) = none then some (up.length + 1) else none := by
      simp only [firstToMake, hleads, hp]
    rw [hfirst]
    by_cases hfree : v.node (name :: p) = none
    · exact .inl ⟨if_pos hfree, mkdirAt_free hstart hnone hname hleads hp hfree⟩
    · refine .inr ⟨if_neg hfree, .taken, by decide, ?_⟩
      rw [mkdirAt_natural hstart hnone, hleads]
      change (((Volume.goOn v false name [] (p, left)).map Prod.fst).bind _).mapError _ = _
      rw [Volume.goOn, hp]
      dsimp only
      rw [Volume.locate_last hname]
      change ((v.make .directory (name :: p)).mapError _) = _
      rw [Volume.make_taken .directory hfree]
      rfl
  · exact .inr (.inr hrefused)

/-- The directory above a directory is one. -/
theorem isDir_dots (hstart : v.node start = some .directory) {p : Place} {left : ℕ}
    (hleads : v.leadsTo start up = .ok (p, left)) (hp : v.node p = some .directory) :
    v.isDir start (dots :: up) = true := by
  refine isDir_eq_true_iff.mpr ⟨p.tail, left, ?_, v.directory_tail hp⟩
  rw [leadsTo_cons hstart, hleads]
  change Volume.goOn v true dots [] (p, left) = _
  rw [Volume.goOn, hp]
  dsimp only
  rw [Volume.locate_cons, if_pos rfl, Volume.locate_nil]

/-- The attempt at something that is no directory, with a `..` or not. -/
theorem mkdirAt_outcome (hstart : v.node start = some .directory) {attempt : Attempt ε}
    (hnone : attempt.mkdir = none) (hdir : v.isDir start (name :: up) = false) :
    (v.mkdirAt start attempt (name :: up) = .error (.refused .missing) ∧
        firstToMake v start (name :: up) = firstToMake v start up ∧ v.isDir start up = false) ∨
      (firstToMake v start (name :: up) = some (up.length + 1) ∧
        ∃ v', v.mkdirAt start attempt (name :: up) = .ok v' ∧ Grown v v') ∨
      firstToMake v start (name :: up) = none ∧
        ∃ r, r ≠ Refusal.missing ∧ v.mkdirAt start attempt (name :: up) = .error (.refused r) := by
  by_cases hname : name = dots
  · subst hname
    rcases mkdirAt_above hstart hnone dots up with hmissing | ⟨p, left, hleads, hp⟩ | hrefused
    · exact .inl hmissing
    · rw [isDir_dots hstart hleads hp] at hdir
      cases hdir
    · exact .inr (.inr hrefused)
  · rcases mkdirAt_cases hstart hnone hname up with hmissing | ⟨hfirst, v', hmade, hgrown, -⟩ | hrefused
    · exact .inl hmissing
    · exact .inr (.inl ⟨hfirst, v', hmade, hgrown⟩)
    · exact .inr (.inr hrefused)

theorem firstToMake_le {level : ℕ} (h : firstToMake v start up = some level) : level ≤ up.length := by
  induction up with
  | nil => cases h
  | cons name up ih =>
    rw [firstToMake] at h
    rw [List.length_cons]
    split at h
    · exact (ih h).trans (Nat.le_succ _)
    · cases h
    · split at h
      · exact (ih h).trans (Nat.le_succ _)
      · split_ifs at h
        cases h
        exact le_rfl
      · cases h

theorem orIsDir_of_not {attempt : Attempt ε} (h : v.isDir start up = false) (e : Trouble ε) :
    v.orIsDir start attempt up e = (.error e, v) := by
  rw [Volume.orIsDir, h, Bool.and_false, if_neg Bool.false_ne_true]

theorem isDir_fresh_entry (hstart : v.node start = some .directory) (hfresh : Fresh v start up)
    (hname : name ≠ dots) : v.isDir start (name :: up) = false := by
  obtain ⟨p, left, hleads, hp, hempty⟩ := hfresh
  have hentry := leadsTo_entry hstart hleads hp hname (fun target => by simp [hempty])
  rw [isDir_of_leadsTo hentry, hempty]
  rfl

/-- A `..` is the name of no directory that could be made. -/
theorem mkdirAt_dots (hstart : v.node start = some .directory) (attempt : Attempt ε) (up : List Bytes)
    (v' : Volume) : v.mkdirAt start attempt (dots :: up) ≠ .ok v' := by
  intro h
  cases hmkdir : attempt.mkdir with
  | some e =>
    rw [mkdirAt_failed hmkdir] at h
    cases h
  | none =>
    rw [mkdirAt_natural hstart hmkdir] at h
    cases hleads : v.leadsTo start up with
    | error r =>
      rw [hleads] at h
      cases h
    | ok reached =>
      obtain ⟨p, left⟩ := reached
      rw [hleads] at h
      change (((Volume.goOn v false dots [] (p, left)).map Prod.fst).bind _).mapError _ = _ at h
      rw [Volume.goOn] at h
      cases hp : v.node p with
      | none =>
        rw [hp] at h
        cases h
      | some x =>
        rw [hp] at h
        cases x with
        | file content => cases h
        | link target => cases h
        | directory =>
          dsimp only at h
          rw [Volume.locate_cons, if_pos rfl, Volume.locate_nil] at h
          change (v.make .directory p.tail).mapError _ = _ at h
          rw [Volume.make_taken .directory (v.node_ne_none (v.directory_tail hp))] at h
          cases h

/-- A directory that is made is where its components lead. -/
theorem mkdirAt_eq_ok (hstart : v.node start = some .directory) {attempt : Attempt ε}
    (h : v.mkdirAt start attempt (name :: up) = .ok v') :
    Grown v v' ∧ v'.isDir start (name :: up) = true := by
  have hname : name ≠ dots := by
    rintro rfl
    exact mkdirAt_dots hstart attempt up v' h
  cases hmkdir : attempt.mkdir with
  | some e =>
    rw [mkdirAt_failed hmkdir] at h
    cases h
  | none =>
    rcases mkdirAt_cases hstart hmkdir hname up with
      ⟨hmissing, -⟩ | ⟨-, made, hmade, hgrown, p, left, hleads, hp, -⟩ | ⟨-, r, -, hrefused⟩
    · rw [hmissing] at h
      cases h
    · obtain rfl := Except.ok.inj (h.symm.trans hmade)
      exact ⟨hgrown, isDir_eq_true_iff.mpr ⟨p, left, hleads, hp⟩⟩
    · rw [hrefused] at h
      cases h

/-- Nothing is lost on the way, and a path that is made is one of a directory. -/
structure Kept (v : Volume) (start : Place) (up : List Bytes)
    (result : Except (Trouble ε) Unit × Volume) : Prop where
  grown : result.2 = v ∨ Grown v result.2
  isDir : result.1 = .ok () → result.2.isDir start up = true

theorem Kept.orIsDir {attempt : Attempt ε} {e : Trouble ε} (h : v' = v ∨ Grown v v') :
    Kept v start up (v'.orIsDir start attempt up e) := by
  rw [Volume.orIsDir]
  split_ifs with hdir
  · exact ⟨h, fun _ => (Bool.and_eq_true_iff.mp hdir).2⟩
  · exact ⟨h, by rintro ⟨⟩⟩

theorem Grown.makeAgain {attempt : Attempt ε} {above : Except (Trouble ε) Unit × Volume}
    (h : Grown v above.2) (hstart : above.2.node start = some .directory) :
    Grown v (Volume.makeAgain start attempt (name :: up) above).2 := by
  obtain ⟨_ | _, v'⟩ := above
  · exact h
  · rw [Volume.makeAgain]
    cases hmkdir : v'.mkdirAt start attempt (name :: up) with
    | ok v'' => exact h.trans (mkdirAt_eq_ok hstart hmkdir).1.keeps
    | error e =>
      dsimp only
      rw [Volume.orIsDir]
      split_ifs <;> exact h

theorem createDirAll_kept (attempts : Attempts ε) (hstart : v.node start = some .directory)
    (up : List Bytes) : Kept v start up (createDirAll attempts start up v) := by
  induction up with
  | nil =>
    refine ⟨.inl rfl, fun _ => isDir_eq_true_iff.mpr ⟨start, MAXSYMLINKS, ?_, hstart⟩⟩
    exact Volume.locate_nil MAXSYMLINKS start
  | cons name up ih =>
    rw [createDirAll]
    cases hfirst : v.mkdirAt start (attempts.first (up.length + 1)) (name :: up) with
    | ok v' =>
      obtain ⟨hgrown, hdir⟩ := mkdirAt_eq_ok hstart hfirst
      exact ⟨.inr hgrown, fun _ => hdir⟩
    | error e => cases e with
      | failed e => exact .orIsDir (.inl rfl)
      | refused r => cases r with
        | missing =>
          dsimp only
          generalize createDirAll attempts start up v = above at ih
          obtain ⟨result, v'⟩ := above
          cases result with
          | error e => exact ⟨ih.grown, by rintro ⟨⟩⟩
          | ok u =>
            have hgrown : v' = v ∨ Grown v v' := ih.grown
            have hstart' : v'.node start = some .directory := by
              rcases hgrown with rfl | hgrown
              · exact hstart
              · exact hgrown.keeps.node hstart
            rw [Volume.makeAgain]
            cases hagain : v'.mkdirAt start (attempts.again (up.length + 1)) (name :: up) with
            | error e => exact .orIsDir hgrown
            | ok v'' =>
              obtain ⟨hgrown', hdir⟩ := mkdirAt_eq_ok hstart' hagain
              refine ⟨.inr ?_, fun _ => hdir⟩
              rcases hgrown with rfl | hgrown
              · exact hgrown'
              · exact hgrown.trans hgrown'.keeps
        | _ => exact .orIsDir (.inl rfl)

/-- What is made of a path: either nothing, and then there is a failure, or its first missing
directory, and then there is a failure if a second attempt fails. -/
def PathOutcome (attempts : Attempts ε) (v : Volume) (start : Place) (up : List Bytes)
    (result : Except (Trouble ε) Unit × Volume) : Prop :=
  ((∀ level, ¬Makes attempts v start up level) ∧ ∃ e, result = (.error e, v)) ∨
    ∃ level, Makes attempts v start up level ∧ Grown v result.2 ∧
      (NoneFails attempts level up.length ∧ result.1 = .ok () ∧ Fresh result.2 start up ∨
        ¬NoneFails attempts level up.length ∧ ∃ e, result.1 = .error e)

theorem Makes.unique {attempts : Attempts ε} {level level' : ℕ} (h : Makes attempts v start up level)
    (h' : Makes attempts v start up level') : level = level' :=
  Option.some.inj (h.1.symm.trans h'.1)

theorem Makes.of_cons {attempts : Attempts ε} {level : ℕ}
    (hsame : firstToMake v start (name :: up) = firstToMake v start up)
    (h : Makes attempts v start (name :: up) level) : Makes attempts v start up level :=
  ⟨hsame.symm.trans h.1, fun i hi hlen => h.2 i hi (hlen.trans (Nat.le_succ _))⟩

theorem Makes.cons {attempts : Attempts ε} {level : ℕ} (h : Makes attempts v start up level)
    (hsame : firstToMake v start (name :: up) = firstToMake v start up)
    (hfirst : (attempts.first (up.length + 1)).mkdir = none) :
    Makes attempts v start (name :: up) level := by
  refine ⟨hsame.trans h.1, fun i hi hlen => ?_⟩
  rcases Nat.lt_or_ge i (up.length + 1) with hlt | hge
  · exact h.2 i hi (Nat.le_of_lt_succ hlt)
  · rwa [show i = up.length + 1 from le_antisymm hlen hge]

/-- The second attempt at a directory, behind those above it. -/
theorem outcome_again {attempts : Attempts ε} (hstart : v.node start = some .directory)
    (hname : name ≠ dots) (hfirst : (attempts.first (up.length + 1)).mkdir = none)
    (hsame : firstToMake v start (name :: up) = firstToMake v start up)
    {above : Except (Trouble ε) Unit × Volume} (h : PathOutcome attempts v start up above) :
    PathOutcome attempts v start (name :: up)
      (Volume.makeAgain start (attempts.again (up.length + 1)) (name :: up) above) := by
  rcases h with ⟨hnever, e, rfl⟩ | ⟨level, hmakes, hgrown, h⟩
  · exact .inl ⟨fun level hmakes => hnever level (hmakes.of_cons hsame), e, rfl⟩
  · have hlevel := firstToMake_le hmakes.1
    have hmakes' : Makes attempts v start (name :: up) level := hmakes.cons hsame hfirst
    obtain ⟨result, v'⟩ := above
    rcases h with ⟨hnone, hok, hfresh⟩ | ⟨hfails, e, he⟩
    · dsimp only at hok hfresh hgrown
      subst hok
      have hstart' : v'.node start = some .directory := hgrown.keeps.node hstart
      rw [Volume.makeAgain]
      cases hagain : (attempts.again (up.length + 1)).mkdir with
      | some e =>
        rw [mkdirAt_failed hagain]
        dsimp only
        rw [orIsDir_of_not (isDir_fresh_entry hstart' hfresh hname)]
        refine .inr ⟨level, hmakes', hgrown, .inr ⟨?_, _, rfl⟩⟩
        intro hnone'
        rw [hnone' (up.length + 1) (Nat.lt_succ_of_le hlevel) le_rfl] at hagain
        cases hagain
      | none =>
        obtain ⟨p, left, hleads, hp, hempty⟩ := hfresh
        obtain ⟨v'', hmkdir, hgrown', hfresh'⟩ :=
          mkdirAt_free hstart' hagain hname hleads hp (hempty name)
        rw [hmkdir]
        refine .inr ⟨level, hmakes', hgrown.trans hgrown'.keeps, .inl ⟨?_, rfl, hfresh'⟩⟩
        intro i hi hlen
        rcases Nat.lt_or_ge i (up.length + 1) with hlt | hge
        · exact hnone i hi (Nat.le_of_lt_succ hlt)
        · rwa [show i = up.length + 1 from le_antisymm hlen hge]
    · dsimp only at he hgrown
      subst he
      refine .inr ⟨level, hmakes', hgrown, .inr ⟨?_, e, rfl⟩⟩
      exact fun hnone => hfails fun i hi hlen => hnone i hi (hlen.trans (Nat.le_succ _))

/-- The induction over the components in front of a directory that is there. -/
theorem createDirAll_outcome (attempts : Attempts ε) (hstart : v.node start = some .directory)
    {base : List Bytes} (hbase : v.isDir start base = true) {ups : List Bytes}
    (hproper : ∀ name ∈ ups, name ≠ dots) (hmissing : v.isDir start (ups ++ base) = false) :
    PathOutcome attempts v start (ups ++ base) (createDirAll attempts start (ups ++ base) v) := by
  induction ups with
  | nil =>
    rw [List.nil_append, hbase] at hmissing
    cases hmissing
  | cons name ups ih =>
    have hname := hproper name List.mem_cons_self
    rw [List.cons_append] at hmissing ⊢
    rw [createDirAll]
    cases hfirst : (attempts.first ((ups ++ base).length + 1)).mkdir with
    | some e =>
      rw [mkdirAt_failed hfirst]
      dsimp only
      rw [orIsDir_of_not hmissing]
      refine .inl ⟨?_, _, rfl⟩
      intro level hmakes
      have hnone := hmakes.2 ((ups ++ base).length + 1) (firstToMake_le hmakes.1) le_rfl
      rw [hnone] at hfirst
      cases hfirst
    | none =>
      rcases mkdirAt_cases hstart hfirst hname (ups ++ base) with
        ⟨hmkdir, hsame, hup⟩ | ⟨hfirstMade, v', hmkdir, hgrown, hfresh⟩ | ⟨hnever, r, hr, hmkdir⟩
      · rw [hmkdir]
        exact outcome_again hstart hname hfirst hsame
          (ih (fun name hname => hproper name (List.mem_cons_of_mem _ hname)) hup)
      · rw [hmkdir]
        refine .inr ⟨_, ⟨hfirstMade, ?_⟩, hgrown, .inl ⟨?_, rfl, hfresh⟩⟩
        · intro i hi hlen
          rwa [show i = (ups ++ base).length + 1 from le_antisymm hlen hi]
        · intro i hi hlen
          exact absurd hlen (not_le.mpr hi)
      · rw [hmkdir]
        refine .inl ⟨fun level hmakes => ?_, .refused r, ?_⟩
        · rw [hmakes.1] at hnever
          cases hnever
        · cases r with
          | missing => exact absurd rfl hr
          | _ => exact orIsDir_of_not hmissing _

theorem Laid.level_le {attempts : Attempts ε} {level : ℕ} {w : Volume}
    (h : Laid attempts v start level up w) : level ≤ up.length := by
  induction h with
  | first hlevel hmade => exact hlevel.le
  | made h hmade ih => exact ih.trans (Nat.le_succ _)
  | there h hmkdir hstat hdir ih => exact ih.trans (Nat.le_succ _)

/-- What is made of any path, also of one with a `..` in it: either nothing, and then there is a failure,
or its first missing directory, and then there is none exactly if the path is laid. -/
def LaidOutcome (attempts : Attempts ε) (v : Volume) (start : Place) (up : List Bytes)
    (result : Except (Trouble ε) Unit × Volume) : Prop :=
  ((∀ level, ¬Makes attempts v start up level) ∧ ∃ e, result = (.error e, v)) ∨
    ∃ level, Makes attempts v start up level ∧ Grown v result.2 ∧
      ∀ w, result = (.ok (), w) ↔ Laid attempts v start level up w

/-- The second attempt lays one component more. -/
theorem makeAgain_laid {attempts : Attempts ε} {level : ℕ}
    {above : Except (Trouble ε) Unit × Volume} (hlevel : level ≤ up.length)
    (h : ∀ w, above = (.ok (), w) ↔ Laid attempts v start level up w) (w : Volume) :
    Volume.makeAgain start (attempts.again (up.length + 1)) (name :: up) above = (.ok (), w) ↔
      Laid attempts v start level (name :: up) w := by
  constructor
  · intro hagain
    obtain ⟨_ | _, v'⟩ := above
    · cases hagain
    · have hlaid : Laid attempts v start level up v' := (h v').mp rfl
      rw [Volume.makeAgain] at hagain
      cases hmkdir : v'.mkdirAt start (attempts.again (up.length + 1)) (name :: up) with
      | ok v'' =>
        rw [hmkdir] at hagain
        cases hagain
        exact .made hlaid hmkdir
      | error e =>
        rw [hmkdir] at hagain
        dsimp only at hagain
        rw [Volume.orIsDir] at hagain
        split_ifs at hagain with hdir
        · cases hagain
          rw [Bool.and_eq_true, Bool.not_eq_true'] at hdir
          exact .there hlaid hmkdir hdir.1 hdir.2
        · cases hagain
  · intro hlaid
    cases hlaid with
    | first hfirst hmade => omega
    | @made _ _ w' _ hlaid hmade =>
      rw [(h w').mpr hlaid, Volume.makeAgain, hmade]
    | there hlaid hmkdir hstat hdir =>
      rw [(h w).mpr hlaid, Volume.makeAgain, hmkdir]
      dsimp only
      rw [Volume.orIsDir, hstat, hdir]
      rfl

/-- The induction over the components. -/
theorem createDirAll_laid (attempts : Attempts ε) (hstart : v.node start = some .directory)
    (hmissing : v.isDir start up = false) :
    LaidOutcome attempts v start up (createDirAll attempts start up v) := by
  induction up with
  | nil =>
    have hdir : v.isDir start [] = true :=
      isDir_eq_true_iff.mpr ⟨start, MAXSYMLINKS, Volume.locate_nil MAXSYMLINKS start, hstart⟩
    rw [hdir] at hmissing
    cases hmissing
  | cons name up ih =>
    rw [createDirAll]
    cases hfirst : (attempts.first (up.length + 1)).mkdir with
    | some e =>
      rw [mkdirAt_failed hfirst]
      dsimp only
      rw [orIsDir_of_not hmissing]
      refine .inl ⟨fun level hmakes => ?_, _, rfl⟩
      rw [hmakes.2 (up.length + 1) (firstToMake_le hmakes.1) le_rfl] at hfirst
      cases hfirst
    | none =>
      rcases mkdirAt_outcome hstart hfirst hmissing with
        ⟨hmkdir, hsame, hup⟩ | ⟨hfirstMade, v', hmkdir, hgrown⟩ | ⟨hnever, r, hr, hmkdir⟩
      · rw [hmkdir]
        dsimp only
        rcases ih hup with ⟨hnever, e, habove⟩ | ⟨level, hmakes, hgrown, hlaid⟩
        · rw [habove]
          exact .inl ⟨fun level hmakes => hnever level (hmakes.of_cons hsame), e, rfl⟩
        · have hlevel := firstToMake_le hmakes.1
          refine .inr ⟨level, hmakes.cons hsame hfirst, ?_, makeAgain_laid hlevel hlaid⟩
          exact hgrown.makeAgain (hgrown.keeps.node hstart)
      · rw [hmkdir]
        refine .inr ⟨_, ⟨hfirstMade, ?_⟩, hgrown, fun w => ?_⟩
        · intro i hi hlen
          rwa [show i = up.length + 1 from le_antisymm hlen hi]
        · constructor
          · intro hw
            cases hw
            exact .first rfl hmkdir
          · intro hlaid
            cases hlaid with
            | first hlevel hmade =>
              rw [hmkdir] at hmade
              cases hmade
              rfl
            | made h hmade => exact absurd h.level_le (Nat.not_succ_le_self _)
            | there h hmkdir hstat hdir => exact absurd h.level_le (Nat.not_succ_le_self _)
      · rw [hmkdir]
        refine .inl ⟨fun level hmakes => ?_, .refused r, ?_⟩
        · rw [hmakes.1] at hnever
          cases hnever
        · cases r with
          | missing => exact absurd rfl hr
          | _ => exact orIsDir_of_not hmissing _

end Attempts

end Dumbos.Foundation
