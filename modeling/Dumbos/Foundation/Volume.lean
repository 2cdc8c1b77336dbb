import Dumbos.Foundation.Bytes

/-! # A file system with links

A volume says what stands at each place, and what stands anywhere stands in a
directory. Its calls work on places: whatever a link stands for is left to the
resolution of paths. Each call that succeeds changes one place, and no call removes a
directory.
-/
namespace Dumbos.Foundation

inductive Node where
  | directory
  | file (content : Bytes)
  | link (target : Bytes)
deriving DecidableEq

/-- Files get another content. -/
def Node.withContent (f : Bytes → Bytes) : Node → Node
  | .file content => .file (f content)
  | x => x

/-- The names on the way from the root, the innermost first. -/
abbrev Place := List Bytes

/-- Why a call is refused. -/
inductive Refusal where
  | missing
  | taken
  | notDirectory
  | isDirectory
  | loop
deriving DecidableEq

@[ext] structure Volume where
  node : Place → Option Node
  root : node [] = some .directory
  inside : ∀ name dir, node (name :: dir) ≠ none → node dir = some .directory

namespace Volume
variable (v : Volume)

theorem update_inside {name : Bytes} {dir : Place} (x : Option Node)
    (hdir : v.node dir = some .directory) (hleaf : v.node (name :: dir) ≠ some .directory)
    (name' : Bytes) (dir' : Place)
    (h : Function.update v.node (name :: dir) x (name' :: dir') ≠ none) :
    Function.update v.node (name :: dir) x dir' = some .directory := by
  by_cases hsame : name' :: dir' = name :: dir
  · obtain ⟨rfl, rfl⟩ := List.cons.inj hsame
    rwa [Function.update_of_ne (List.cons_ne_self name' dir').symm]
  · rw [Function.update_of_ne hsame] at h
    have hdir' := v.inside name' dir' h
    rwa [Function.update_of_ne]
    rintro rfl
    exact hleaf hdir'

theorem update_root {name : Bytes} {dir : Place} (x : Option Node) :
    Function.update v.node (name :: dir) x [] = some .directory := by
  rw [Function.update_of_ne (List.cons_ne_nil name dir).symm]
  exact v.root

/-- A place in a directory that holds no directory itself gets another node, or none. -/
def set (name : Bytes) (dir : Place) (x : Option Node) (hdir : v.node dir = some .directory)
    (hleaf : v.node (name :: dir) ≠ some .directory) : Volume where
  node := Function.update v.node (name :: dir) x
  root := v.update_root x
  inside := v.update_inside x hdir hleaf

theorem node_ne_none {p : Place} {x : Node} (h : v.node p = some x) : v.node p ≠ none :=
  h.trans_ne (Option.some_ne_none x)

theorem ne_directory_of_none {p : Place} (h : v.node p = none) : v.node p ≠ some .directory :=
  h.trans_ne (Option.some_ne_none _).symm

theorem directory_of_some {name : Bytes} {dir : Place} (h : v.node (name :: dir) ≠ none) :
    v.node dir = some .directory := v.inside name dir h

/-- The way to a directory leads through directories. -/
theorem directory_tail {p : Place} (h : v.node p = some .directory) :
    v.node p.tail = some .directory := by
  cases p with
  | nil => exact h
  | cons name dir => exact v.inside name dir (v.node_ne_none h)

/-- A new node at a free place. -/
def make (x : Node) : Place → Except Refusal Volume
  | [] => .error .taken
  | name :: dir =>
    if hdir : v.node dir = some .directory then
      if hfree : v.node (name :: dir) = none then
        .ok (v.set name dir (some x) hdir (v.ne_directory_of_none hfree))
      else .error .taken
    else .error .missing

theorem withContent_eq_directory {f : Bytes → Bytes} {x : Option Node} :
    x.map (Node.withContent f) = some .directory ↔ x = some .directory := by
  cases x with
  | none => rfl
  | some x => cases x <;> simp [Node.withContent]

theorem modify_root (p : Place) (f : Bytes → Bytes) :
    Function.update v.node p ((v.node p).map (Node.withContent f)) [] = some .directory := by
  rw [Function.update_apply]
  split_ifs with hp
  · subst hp
    rw [withContent_eq_directory]
    exact v.root
  · exact v.root

theorem modify_inside (p : Place) (f : Bytes → Bytes) (name : Bytes) (dir : Place)
    (h : Function.update v.node p ((v.node p).map (Node.withContent f)) (name :: dir) ≠ none) :
    Function.update v.node p ((v.node p).map (Node.withContent f)) dir = some .directory := by
  have hdir : v.node dir = some .directory := by
    apply v.inside name dir
    rintro hnone
    rw [Function.update_apply] at h
    split_ifs at h with hp
    · rw [← hp, hnone] at h
      exact h rfl
    · exact h hnone
  rw [Function.update_apply]
  split_ifs with hp
  · subst hp
    rwa [withContent_eq_directory]
  · exact hdir

/-- Another content for the file at a place. -/
def modify (p : Place) (f : Bytes → Bytes) : Volume where
  node := Function.update v.node p ((v.node p).map (Node.withContent f))
  root := v.modify_root p f
  inside := v.modify_inside p f

/-- `open` for writing with `O_CREAT` and `O_TRUNC`, of a place that is not a link. -/
def create (p : Place) : Except Refusal Volume :=
  match v.node p with
  | none => v.make (.file []) p
  | some (.file _) => .ok (v.modify p fun _ => [])
  | some .directory => .error .isDirectory
  | some (.link _) => .error .loop

/-- What is written behind the content of a file. -/
def append (p : Place) (new : Bytes) : Volume := v.modify p (· ++ new)

def unlink : Place → Except Refusal Volume
  | [] => .error .isDirectory
  | name :: dir =>
    if hleaf : v.node (name :: dir) = some .directory then .error .isDirectory
    else if hsome : v.node (name :: dir) = none then .error .missing
    else .ok (v.set name dir none (v.directory_of_some hsome) hleaf)

section Changes
variable {v} {p : Place} {x : Node}

@[simp] theorem set_node {name : Bytes} {dir : Place} {x : Option Node}
    (hdir : v.node dir = some .directory) (hleaf : v.node (name :: dir) ≠ some .directory) :
    (v.set name dir x hdir hleaf).node = Function.update v.node (name :: dir) x := rfl

@[simp] theorem modify_node (f : Bytes → Bytes) :
    (v.modify p f).node = Function.update v.node p ((v.node p).map (Node.withContent f)) := rfl

theorem append_node {content : Bytes} (h : v.node p = some (.file content)) (new : Bytes) :
    (v.append p new).node = Function.update v.node p (some (.file (content ++ new))) := by
  rw [append, modify_node, h]
  rfl

theorem append_append (v : Volume) (p : Place) (a b : Bytes) :
    (v.append p a).append p b = v.append p (a ++ b) := by
  apply Volume.ext
  simp only [append, modify_node, Function.update_self, Function.update_idem, Option.map_map]
  congr 1
  cases v.node p with
  | none => rfl
  | some x => cases x <;> simp [Node.withContent]

@[simp] theorem append_nil (v : Volume) (p : Place) : v.append p [] = v := by
  apply Volume.ext
  rw [append, modify_node]
  apply Function.update_eq_self_iff.mpr
  cases v.node p with
  | none => rfl
  | some x => cases x <;> simp [Node.withContent]

theorem make_free (x : Node) (hparent : v.node p.tail = some .directory) (hfree : v.node p = none) :
    ∃ v', v.make x p = .ok v' ∧ v'.node = Function.update v.node p (some x) := by
  cases p with
  | nil => exact absurd v.root (v.ne_directory_of_none hfree)
  | cons name dir =>
    rw [List.tail_cons] at hparent
    refine ⟨v.set name dir (some x) hparent (v.ne_directory_of_none hfree), ?_, rfl⟩
    rw [make, dif_pos hparent, dif_pos hfree]

theorem make_taken (x : Node) (h : v.node p ≠ none) : v.make x p = .error .taken := by
  cases p with
  | nil => rfl
  | cons name dir => rw [make, dif_pos (v.inside name dir h), dif_neg h]

theorem make_eq_ok {x : Node} {v' : Volume} (h : v.make x p = .ok v') :
    v.node p.tail = some .directory ∧ v.node p = none ∧
      v'.node = Function.update v.node p (some x) := by
  cases p with
  | nil => cases h
  | cons name dir =>
    rw [make] at h
    split_ifs at h with hdir hfree
    cases h
    exact ⟨hdir, hfree, rfl⟩

theorem create_leaf (hparent : v.node p.tail = some .directory)
    (hleaf : v.node p = none ∨ ∃ content, v.node p = some (.file content)) :
    ∃ v', v.create p = .ok v' ∧ v'.node = Function.update v.node p (some (.file [])) := by
  rw [create]
  rcases hleaf with hfree | ⟨content, hfile⟩
  · rw [hfree]
    exact make_free (.file []) hparent hfree
  · rw [hfile]
    refine ⟨_, rfl, ?_⟩
    rw [modify_node, hfile]
    rfl

/-- What a new file holds is what is written behind its nothing. -/
theorem append_created {v' : Volume} (h : v'.node = Function.update v.node p (some (.file [])))
    (content : Bytes) :
    (v'.append p content).node = Function.update v.node p (some (.file content)) := by
  have hnew : v'.node p = some (.file []) := by rw [h, Function.update_self]
  rw [append_node hnew, h, Function.update_idem, List.nil_append]

theorem unlink_leaf (h : v.node p ≠ none) (hleaf : v.node p ≠ some .directory) :
    ∃ v', v.unlink p = .ok v' ∧ v'.node = Function.update v.node p none := by
  cases p with
  | nil => exact absurd v.root hleaf
  | cons name dir =>
    refine ⟨v.set name dir none (v.directory_of_some h) hleaf, ?_, rfl⟩
    rw [unlink, dif_neg hleaf, dif_neg h]

theorem create_node {v' : Volume} (h : v.create p = .ok v') :
    v.node p ≠ some .directory ∧ v'.node = Function.update v.node p (some (.file [])) := by
  rw [create] at h
  cases hnode : v.node p with
  | none =>
    rw [hnode] at h
    exact ⟨by simp, (make_eq_ok h).2.2⟩
  | some x =>
    rw [hnode] at h
    cases x with
    | directory => cases h
    | link target => cases h
    | file content =>
      cases h
      refine ⟨by simp, ?_⟩
      rw [modify_node, hnode]
      rfl

theorem unlink_node {v' : Volume} (h : v.unlink p = .ok v') :
    v.node p ≠ some .directory ∧ v'.node = Function.update v.node p none := by
  cases p with
  | nil => cases h
  | cons name dir =>
    rw [unlink] at h
    split_ifs at h with hleaf hsome
    cases h
    exact ⟨hleaf, rfl⟩

theorem unlink_missing (h : v.node p = none) : v.unlink p = .error .missing := by
  cases p with
  | nil => exact absurd v.root (v.ne_directory_of_none h)
  | cons name dir => rw [unlink, dif_neg (v.ne_directory_of_none h), dif_pos h]

theorem unlink_directory (h : v.node p = some .directory) : v.unlink p = .error .isDirectory := by
  cases p with
  | nil => rfl
  | cons name dir => rw [unlink, dif_pos h]

end Changes

end Volume

end Dumbos.Foundation
