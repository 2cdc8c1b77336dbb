import Dumbos.Foundation.Directories

/-! # Writing files by their paths

A file is made, or cut to nothing, when it is opened, and filled behind that. Nothing
is removed on the way, and no path comes to lead elsewhere. So of files that are
written one behind the other each stands where its path leads before the first of them,
and all are read back unless two that differ stand in one place.
-/
namespace Dumbos.Foundation

/-- How the writing of a file fails: when it is opened, or behind so many bytes. -/
inductive WriteFault (ε : Type) where
  | opening (e : ε)
  | writing (written : ℕ) (e : ε)

structure FileWrite (ε : Type) where
  path : Bytes
  content : Bytes
  fault : Option (WriteFault ε)

/-- A write cannot fail behind its last byte. -/
def FileWrite.Fails {ε : Type} (w : FileWrite ε) : Prop :=
  match w.fault with
  | none => False
  | some (.opening _) => True
  | some (.writing written _) => written < w.content.length

/-- What a file can be made of. -/
def Leaf (x : Option Node) : Prop := x = none ∨ ∃ content, x = some (.file content)

namespace Volume
variable (v : Volume) (cwd : Place) {ε : Type}

/-- `File::create`. -/
def openNew (path : Bytes) : Except Refusal (Place × Volume) :=
  (v.lookup cwd true path).bind fun p => (v.create p).map (p, ·)

/-- `fs::write`. -/
def write (w : FileWrite ε) : Except (Trouble ε) Unit × Volume :=
  match w.fault, v.openNew cwd w.path with
  | some (.opening e), _ => (.error (.failed e), v)
  | _, .error r => (.error (.refused r), v)
  | some (.writing written e), .ok (p, v) =>
    if written < w.content.length then (.error (.failed e), v.append p (w.content.take written))
    else (.ok (), v.append p w.content)
  | none, .ok (p, v) => (.ok (), v.append p w.content)

/-- One file behind the other, up to the first that fails. -/
def writeAll : List (FileWrite ε) → Volume → Except (Trouble ε) Unit × Volume
  | [], v => (.ok (), v)
  | w :: rest, v => match v.write cwd w with
    | (.error e, v) => (.error e, v)
    | (.ok (), v) => writeAll rest v

/-- `fs::read`. -/
def read (fault : Option ε) (path : Bytes) : Except (Trouble ε) Bytes :=
  match fault with
  | some e => .error (.failed e)
  | none => match v.lookup cwd true path with
    | .error r => .error (.refused r)
    | .ok p => match v.node p with
      | some (.file content) => .ok content
      | some .directory => .error (.refused .isDirectory)
      | some (.link _) => .error (.refused .loop)
      | none => .error (.refused .missing)

/-- A path leads to a file, or to where one can be made. -/
structure Opens (path : Bytes) (p : Place) : Prop where
  lookup : v.lookup cwd true path = .ok p
  parent : v.node p.tail = some .directory
  leaf : Leaf (v.node p)

/-- The file can be written. -/
def Writable (w : FileWrite ε) : Prop := (∃ p, v.Opens cwd w.path p) ∧ ¬w.Fails

/-- No two files that differ stand in one place. -/
def Apart (ws : List (FileWrite ε)) : Prop :=
  ws.Pairwise fun w w' => v.lookup cwd true w.path = v.lookup cwd true w'.path → w.content = w'.content

end Volume

/-- What differs are files that are new or have another content. -/
def Refilled (v v' : Volume) : Prop :=
  ∀ p, v'.node p = v.node p ∨ Leaf (v.node p) ∧ ∃ content, v'.node p = some (.file content)

namespace Refilled
variable {v v' v'' : Volume}

theorem refl (v : Volume) : Refilled v v := fun _ => .inl rfl

theorem trans (h : Refilled v v') (h' : Refilled v' v'') : Refilled v v'' := by
  intro p
  rcases h' p with hsame | ⟨hleaf', content, hfile⟩
  · rw [hsame]
    exact h p
  · rcases h p with hsame | ⟨hleaf, -⟩
    · rw [← hsame]
      exact .inr ⟨hleaf', content, hfile⟩
    · exact .inr ⟨hleaf, content, hfile⟩

theorem of_update {p : Place} {content : Bytes} (hleaf : Leaf (v.node p))
    (h : v'.node = Function.update v.node p (some (.file content))) : Refilled v v' := by
  intro q
  rw [h, Function.update_apply]
  split_ifs with hq
  · rw [hq]
    exact .inr ⟨hleaf, content, rfl⟩
  · exact .inl rfl

theorem ne_none (h : Refilled v v') {p : Place} (hp : v.node p ≠ none) : v'.node p ≠ none := by
  rcases h p with hsame | ⟨-, content, hfile⟩
  · rwa [hsame]
  · exact v'.node_ne_none hfile

theorem directory_iff (h : Refilled v v') {p : Place} :
    v'.node p = some .directory ↔ v.node p = some .directory := by
  rcases h p with hsame | ⟨hleaf, content, hfile⟩
  · rw [hsame]
  · rw [hfile]
    refine iff_of_false (by rintro ⟨⟩) ?_
    rcases hleaf with hnone | ⟨content, hfile⟩
    · exact v.ne_directory_of_none hnone
    · rw [hfile]
      rintro ⟨⟩

theorem leaf_iff (h : Refilled v v') {p : Place} : Leaf (v'.node p) ↔ Leaf (v.node p) := by
  rcases h p with hsame | ⟨hleaf, hfile⟩
  · rw [hsame]
  · exact iff_of_true (.inr hfile) hleaf

/-- A lookup that succeeds goes the same way. -/
theorem locate_iff (h : Refilled v v') {follow : Bool} {links : ℕ} {dir : Place} {path : List Bytes}
    {r : Place × ℕ} :
    v'.locate follow links dir path = .ok r ↔ v.locate follow links dir path = .ok r := by
  induction links, dir, path using Volume.lookup_induction with
  | nil links dir => rw [Volume.locate_nil, Volume.locate_nil]
  | cons links dir name rest ih ihlinks =>
    rw [Volume.locate_cons, Volume.locate_cons]
    by_cases hdots : name = dots
    · rw [if_pos hdots, if_pos hdots]
      exact ih dir.tail
    rw [if_neg hdots, if_neg hdots]
    rcases h (name :: dir) with hsame | ⟨hleaf, content, hfile⟩
    · rw [hsame]
      cases v.node (name :: dir) with
      | none => rfl
      | some x => cases x with
        | directory => exact ih (name :: dir)
        | file content => rfl
        | link target =>
          dsimp only
          split_ifs
          · rfl
          · cases links with
            | zero => rfl
            | succ fewer => exact ihlinks fewer rfl _ _
    · rw [hfile]
      rcases hleaf with hnone | ⟨content, hfile⟩
      · rw [hnone]
        dsimp only
        split_ifs
        · rfl
        · exact iff_of_false (by rintro ⟨⟩) (by rintro ⟨⟩)
      · rw [hfile]

theorem asDirectory_iff (h : Refilled v v') {p q : Place} :
    v'.asDirectory p = .ok q ↔ v.asDirectory p = .ok q := by
  by_cases hp : v.node p = some .directory
  · rw [Volume.asDirectory, Volume.asDirectory, hp, h.directory_iff.mpr hp]
  · refine iff_of_false (fun hq => hp ?_) fun hq => hp (Volume.asDirectory_eq_ok hq).2
    exact h.directory_iff.mp (Volume.asDirectory_eq_ok hq).2

/-- Two results with a step behind them succeed alike when both steps do. -/
theorem bind_iff {α β : Type} {x x' : Except Refusal α} {f f' : α → Except Refusal β}
    (hx : ∀ a, x' = .ok a ↔ x = .ok a) (hf : ∀ a b, f' a = .ok b ↔ f a = .ok b) (b : β) :
    x'.bind f' = .ok b ↔ x.bind f = .ok b := by
  cases x with
  | ok a =>
    rw [(hx a).mpr rfl]
    exact hf a b
  | error e => cases x' with
    | ok a' => cases (hx a').mp rfl
    | error e' => exact iff_of_false (by rintro ⟨⟩) (by rintro ⟨⟩)

theorem lookup_iff (h : Refilled v v') {cwd : Place} {follow : Bool} {path : Bytes} {p : Place} :
    v'.lookup cwd follow path = .ok p ↔ v.lookup cwd follow path = .ok p := by
  rw [Volume.lookup, Volume.lookup]
  split_ifs
  · rfl
  · exact bind_iff (fun r => h.locate_iff) (fun r q => h.asDirectory_iff) p
  · exact bind_iff (fun r => h.locate_iff) (fun r q => Iff.rfl) p

theorem opens_iff (h : Refilled v v') {cwd : Place} {path : Bytes} {p : Place} :
    v'.Opens cwd path p ↔ v.Opens cwd path p := by
  constructor
  · intro hopens
    exact ⟨h.lookup_iff.mp hopens.lookup, h.directory_iff.mp hopens.parent, h.leaf_iff.mp hopens.leaf⟩
  · intro hopens
    exact ⟨h.lookup_iff.mpr hopens.lookup, h.directory_iff.mpr hopens.parent, h.leaf_iff.mpr hopens.leaf⟩

end Refilled

section Writing
variable {v v' : Volume} {cwd : Place} {ε : Type} {w : FileWrite ε} {ws : List (FileWrite ε)} {p : Place}

theorem Volume.openNew_of_opens {path : Bytes} (h : v.Opens cwd path p) :
    ∃ v', v.openNew cwd path = .ok (p, v') ∧
      v'.node = Function.update v.node p (some (.file [])) := by
  obtain ⟨v', hcreate, hnode⟩ := Volume.create_leaf h.parent h.leaf
  refine ⟨v', ?_, hnode⟩
  rw [Volume.openNew, h.lookup]
  change (v.create p).map _ = _
  rw [hcreate]
  rfl

theorem Volume.create_eq_ok (h : v.create p = .ok v') :
    v.node p.tail = some .directory ∧ Leaf (v.node p) := by
  rw [Volume.create] at h
  cases hnode : v.node p with
  | none =>
    rw [hnode] at h
    exact ⟨(Volume.make_eq_ok h).1, .inl rfl⟩
  | some x => cases x with
    | file content =>
      refine ⟨?_, .inr ⟨content, rfl⟩⟩
      cases p with
      | nil => exact absurd (v.root.symm.trans hnode) (by rintro ⟨⟩)
      | cons name dir => exact v.inside name dir (v.node_ne_none hnode)
    | directory =>
      rw [hnode] at h
      cases h
    | link target =>
      rw [hnode] at h
      cases h

theorem Volume.openNew_of_not {path : Bytes} (h : ¬∃ p, v.Opens cwd path p) :
    ∃ r, v.openNew cwd path = .error r := by
  rw [Volume.openNew]
  cases hlookup : v.lookup cwd true path with
  | error r => exact ⟨r, rfl⟩
  | ok p =>
    change ∃ r, (v.create p).map _ = _
    cases hcreate : v.create p with
    | error r => exact ⟨r, rfl⟩
    | ok v' =>
      obtain ⟨hparent, hleaf⟩ := Volume.create_eq_ok hcreate
      exact absurd ⟨p, hlookup, hparent, hleaf⟩ h

theorem Volume.write_of_opens (h : v.Opens cwd w.path p) (hfails : ¬w.Fails) :
    ∃ v', v.write cwd w = (.ok (), v') ∧
      v'.node = Function.update v.node p (some (.file w.content)) := by
  obtain ⟨v', hopen, hnode⟩ := Volume.openNew_of_opens h
  refine ⟨v'.append p w.content, ?_, Volume.append_created hnode _⟩
  rw [FileWrite.Fails] at hfails
  rw [Volume.write, hopen]
  cases hfault : w.fault with
  | none => rfl
  | some fault =>
    rw [hfault] at hfails
    cases fault with
    | opening e => exact absurd trivial hfails
    | writing written e => exact if_neg hfails

/-- A write that fails has made nothing but a file that is cut short. -/
theorem Volume.write_of_not (h : ¬v.Writable cwd w) :
    ∃ e v', v.write cwd w = (.error e, v') ∧ Refilled v v' := by
  rw [Volume.write]
  by_cases hopens : ∃ p, v.Opens cwd w.path p
  · have hfails : w.Fails := by
      by_contra hfails
      exact h ⟨hopens, hfails⟩
    obtain ⟨p, hopens⟩ := hopens
    obtain ⟨v', hopen, hnode⟩ := Volume.openNew_of_opens hopens
    rw [FileWrite.Fails] at hfails
    rw [hopen]
    cases hfault : w.fault with
    | none =>
      rw [hfault] at hfails
      exact hfails.elim
    | some fault =>
      rw [hfault] at hfails
      cases fault with
      | opening e => exact ⟨_, v, rfl, .refl v⟩
      | writing written e =>
        refine ⟨_, _, if_pos hfails, ?_⟩
        exact .of_update hopens.leaf (Volume.append_created hnode _)
  · obtain ⟨r, hopen⟩ := Volume.openNew_of_not hopens
    rw [hopen]
    cases w.fault with
    | none => exact ⟨_, v, rfl, .refl v⟩
    | some fault => cases fault with
      | opening e => exact ⟨_, v, rfl, .refl v⟩
      | writing written e => exact ⟨_, v, rfl, .refl v⟩

/-- A write touches nothing but the place of its file. -/
theorem Volume.write_changes (h : v.Opens cwd w.path p) :
    Refilled v (v.write cwd w).2 ∧ ∀ q, q ≠ p → (v.write cwd w).2.node q = v.node q := by
  obtain ⟨v', hopen, hnode⟩ := Volume.openNew_of_opens h
  have hwritten : ∀ content, Refilled v (v'.append p content) ∧
      ∀ q, q ≠ p → (v'.append p content).node q = v.node q := by
    intro content
    have hcontent := Volume.append_created hnode content
    refine ⟨.of_update h.leaf hcontent, fun q hq => ?_⟩
    rw [hcontent, Function.update_of_ne hq]
  rw [Volume.write, hopen]
  cases w.fault with
  | none => exact hwritten w.content
  | some fault => cases fault with
    | opening e => exact ⟨.refl v, fun _ _ => rfl⟩
    | writing written e =>
      dsimp only
      split_ifs
      · exact hwritten (w.content.take written)
      · exact hwritten w.content

/-- What stands at each place behind the writes. -/
def written (place : FileWrite ε → Place) (ws : List (FileWrite ε)) (node : Place → Option Node) :
    Place → Option Node :=
  ws.foldl (fun node w => Function.update node (place w) (some (.file w.content))) node

theorem Refilled.writable_iff (h : Refilled v v') : v'.Writable cwd w ↔ v.Writable cwd w :=
  and_congr_left' (exists_congr fun _ => h.opens_iff)

/-- Files that can be written all are, each where its path leads at first. -/
theorem writeAll_of_writable {place : FileWrite ε → Place}
    (h : ∀ w ∈ ws, v.Opens cwd w.path (place w) ∧ ¬w.Fails) :
    ∃ v', Volume.writeAll cwd ws v = (.ok (), v') ∧ Refilled v v' ∧
      v'.node = written place ws v.node := by
  induction ws generalizing v with
  | nil => exact ⟨v, rfl, .refl v, rfl⟩
  | cons w ws ih =>
    obtain ⟨hopens, hfails⟩ := h w List.mem_cons_self
    obtain ⟨v', hwrite, hnode⟩ := Volume.write_of_opens hopens hfails
    have hrefilled : Refilled v v' := .of_update hopens.leaf hnode
    have hrest : ∀ w ∈ ws, v'.Opens cwd w.path (place w) ∧ ¬w.Fails := by
      intro w hw
      rw [hrefilled.opens_iff]
      exact h w (List.mem_cons_of_mem _ hw)
    obtain ⟨v'', hwriteAll, hrefilled', hnode'⟩ := ih hrest
    refine ⟨v'', ?_, hrefilled.trans hrefilled', ?_⟩
    · rw [Volume.writeAll, hwrite]
      exact hwriteAll
    · rw [hnode', hnode]
      rfl

theorem writeAll_changes {place : FileWrite ε → Place} (h : ∀ w ∈ ws, v.Opens cwd w.path (place w))
    {q : Place} (hq : ∀ w ∈ ws, q ≠ place w) : (Volume.writeAll cwd ws v).2.node q = v.node q := by
  induction ws generalizing v with
  | nil => rfl
  | cons w ws ih =>
    obtain ⟨hrefilled, hothers⟩ := Volume.write_changes (h w List.mem_cons_self)
    have hsame := hothers q (hq w List.mem_cons_self)
    rw [Volume.writeAll]
    cases hwrite : v.write cwd w with | mk result v' =>
    rw [hwrite] at hrefilled hsame
    cases result with
    | error e => exact hsame
    | ok u =>
      have hrest : ∀ w ∈ ws, v'.Opens cwd w.path (place w) := by
        intro w hw
        exact hrefilled.opens_iff.mpr (h w (List.mem_cons_of_mem _ hw))
      exact (ih hrest fun w hw => hq w (List.mem_cons_of_mem _ hw)).trans hsame

/-- Files at places where nothing is touch nothing that is there, whether their writes fail or not. -/
theorem writeAll_extends (h : ∀ w ∈ ws, ∃ p, v.Opens cwd w.path p ∧ v.node p = none) :
    Extends v (Volume.writeAll cwd ws v).2 := by
  choose! place hplace using h
  intro q hq
  apply writeAll_changes fun w hw => (hplace w hw).1
  rintro w hw rfl
  exact hq (hplace w hw).2

theorem writeAll_of_not (h : ¬∀ w ∈ ws, v.Writable cwd w) :
    ∃ e v', Volume.writeAll cwd ws v = (.error e, v') ∧ Refilled v v' := by
  induction ws generalizing v with
  | nil => exact absurd (fun w hw => absurd hw List.not_mem_nil) h
  | cons w ws ih =>
    rw [Volume.writeAll]
    by_cases hw : v.Writable cwd w
    · obtain ⟨⟨p, hopens⟩, hfails⟩ := hw
      obtain ⟨v', hwrite, hnode⟩ := Volume.write_of_opens hopens hfails
      have hrefilled : Refilled v v' := .of_update hopens.leaf hnode
      have hrest : ¬∀ w ∈ ws, v'.Writable cwd w := by
        simp only [hrefilled.writable_iff]
        exact fun hall => h (List.forall_mem_cons.mpr ⟨⟨⟨p, hopens⟩, hfails⟩, hall⟩)
      obtain ⟨e, v'', hwriteAll, hrefilled'⟩ := ih hrest
      rw [hwrite]
      exact ⟨e, v'', hwriteAll, hrefilled.trans hrefilled'⟩
    · obtain ⟨e, v', hwrite, hrefilled⟩ := Volume.write_of_not hw
      rw [hwrite]
      exact ⟨e, v', rfl, hrefilled⟩

end Writing

section ReadBack
variable {ε : Type} {place : FileWrite ε → Place} {ws : List (FileWrite ε)} {node : Place → Option Node}

theorem written_of_forall_ne {p : Place} (h : ∀ w ∈ ws, place w ≠ p) :
    written place ws node p = node p := by
  induction ws generalizing node with
  | nil => rfl
  | cons w ws ih =>
    change written place ws (Function.update node (place w) _) p = node p
    rw [ih fun w hw => h w (List.mem_cons_of_mem _ hw),
      Function.update_of_ne (h w List.mem_cons_self).symm]

/-- The last file is always read back. -/
theorem written_concat (w : FileWrite ε) :
    written place (ws ++ [w]) node (place w) = some (.file w.content) := by
  rw [written, List.foldl_concat, Function.update_self]

theorem written_mem {w : FileWrite ε} (hw : w ∈ ws) :
    ∃ content, written place ws node (place w) = some (.file content) := by
  induction ws generalizing node w with
  | nil => cases hw
  | cons first ws ih =>
    change ∃ content, written place ws (Function.update node (place first) _) (place w) = _
    by_cases hlater : ∃ w' ∈ ws, place w' = place w
    · obtain ⟨w', hw', hplace⟩ := hlater
      rw [← hplace]
      exact ih hw'
    · obtain rfl | hw := List.mem_cons.mp hw
      · rw [written_of_forall_ne, Function.update_self]
        · exact ⟨_, rfl⟩
        · exact fun w' hw' hplace => hlater ⟨w', hw', hplace⟩
      · exact absurd ⟨w, hw, rfl⟩ hlater

theorem written_readBack_iff :
    (∀ w ∈ ws, written place ws node (place w) = some (.file w.content)) ↔
      ws.Pairwise fun w w' => place w = place w' → w.content = w'.content := by
  induction ws generalizing node with
  | nil => exact iff_of_true (fun w hw => absurd hw List.not_mem_nil) .nil
  | cons w ws ih =>
    have hstep : written place (w :: ws) node =
        written place ws (Function.update node (place w) (some (.file w.content))) := rfl
    rw [hstep, List.forall_mem_cons, List.pairwise_cons, ih]
    refine and_congr_left fun hrest => ?_
    have hback := (@ih (Function.update node (place w) (some (.file w.content)))).mpr hrest
    constructor
    · intro hw w' hw' hplace
      have hw'' := hback w' hw'
      rw [← hplace, hw] at hw''
      exact Node.file.inj (Option.some.inj hw'')
    · intro hagree
      by_cases hsame : ∃ w' ∈ ws, place w = place w'
      · obtain ⟨w', hw', hplace⟩ := hsame
        have hw'' := hback w' hw'
        rw [← hplace] at hw''
        rw [hw'', hagree w' hw' hplace]
      · rw [written_of_forall_ne, Function.update_self]
        exact fun w' hw' hplace => hsame ⟨w', hw', hplace.symm⟩

variable {v v' : Volume} {cwd : Place}

theorem read_eq_ok_iff {path content : Bytes} {p : Place} (h : v.lookup cwd true path = .ok p) :
    v.read cwd (none : Option ε) path = .ok content ↔ v.node p = some (.file content) := by
  rw [Volume.read, h]
  dsimp only
  cases v.node p with
  | none => exact iff_of_false (by rintro ⟨⟩) (by rintro ⟨⟩)
  | some x => cases x <;> simp

/-- Files that can be written can be read, and are read back when they are apart. The last one
always is. -/
theorem writeAll_readBack {last : FileWrite ε} (h : ∀ w ∈ ws ++ [last], v.Writable cwd w) :
    ∃ v', Volume.writeAll cwd (ws ++ [last]) v = (.ok (), v') ∧
      (∀ w ∈ ws, ∃ content, v'.read cwd (none : Option ε) w.path = .ok content) ∧
      ((∀ w ∈ ws, v'.read cwd (none : Option ε) w.path = .ok w.content) ↔
        v.Apart cwd (ws ++ [last])) := by
  choose! place hplace using fun w (hw : w ∈ ws ++ [last]) => (h w hw).1
  obtain ⟨v', hwriteAll, hrefilled, hnode⟩ :=
    writeAll_of_writable fun w hw => ⟨hplace w hw, (h w hw).2⟩
  have hread : ∀ w ∈ ws ++ [last], ∀ content, v'.read cwd (none : Option ε) w.path = .ok content ↔
      written place (ws ++ [last]) v.node (place w) = some (.file content) := by
    intro w hw content
    rw [read_eq_ok_iff (hrefilled.lookup_iff.mpr (hplace w hw).lookup), hnode]
  refine ⟨v', hwriteAll, ?_, ?_⟩
  · intro w hw
    obtain ⟨content, hfile⟩ := written_mem (List.mem_append_left [last] hw)
    exact ⟨content, (hread w (List.mem_append_left _ hw) content).mpr hfile⟩
  have hall : (∀ w ∈ ws, v'.read cwd (none : Option ε) w.path = .ok w.content) ↔
      ∀ w ∈ ws ++ [last], written place (ws ++ [last]) v.node (place w) = some (.file w.content) := by
    rw [List.forall_mem_append, List.forall_mem_singleton, and_iff_left (written_concat last)]
    exact forall₂_congr fun w hw => hread w (List.mem_append_left _ hw) w.content
  rw [hall, written_readBack_iff, Volume.Apart]
  refine List.Pairwise.iff_of_mem fun {w w'} hw hw' => ?_
  rw [(hplace w hw).lookup, (hplace w' hw').lookup, Except.ok.injEq]

theorem Extends.read (h : Extends v v') {path content : Bytes}
    (hread : v.read cwd (none : Option ε) path = .ok content) :
    v'.read cwd (none : Option ε) path = .ok content := by
  cases hlookup : v.lookup cwd true path with
  | error r =>
    rw [Volume.read, hlookup] at hread
    cases hread
  | ok p =>
    have hp := (read_eq_ok_iff hlookup).mp hread
    rw [read_eq_ok_iff (h.lookup hlookup (v.node_ne_none hp))]
    exact h.node hp

/-- The last file is read back wherever the others stand. -/
theorem writeAll_last {last : FileWrite ε} (h : ∀ w ∈ ws ++ [last], v.Writable cwd w)
    {r : Except (Trouble ε) Unit} (hwriteAll : Volume.writeAll cwd (ws ++ [last]) v = (r, v')) :
    v'.read cwd (none : Option ε) last.path = .ok last.content := by
  choose! place hplace using fun w (hw : w ∈ ws ++ [last]) => (h w hw).1
  obtain ⟨v₁, hall, hrefilled, hnode⟩ :=
    writeAll_of_writable fun w hw => ⟨hplace w hw, (h w hw).2⟩
  obtain rfl : v' = v₁ := congrArg Prod.snd (hwriteAll.symm.trans hall)
  have hlast : last ∈ ws ++ [last] := List.mem_append_right ws (List.mem_singleton_self last)
  rw [read_eq_ok_iff (hrefilled.lookup_iff.mpr (hplace last hlast).lookup), hnode]
  exact written_concat last

/-- In a directory with nothing in it each file stands under its own name. -/
theorem Fresh.opens (hcwd : v.node cwd = some .directory) {path : Bytes}
    (h : Fresh v (startFrom cwd (path ++ [slash])) (components (path ++ [slash])).reverse) :
    ∃ p, ∀ name, Proper name →
      v.Opens cwd (path ++ [slash] ++ name) (name :: p) ∧ v.node (name :: p) = none := by
  obtain ⟨p, left, hleads, hp, hempty⟩ := h
  refine ⟨p, fun name hname => ⟨⟨?_, hp, .inl (hempty name)⟩, hempty name⟩⟩
  have hne : path ++ [slash] ≠ [] := List.append_ne_nil_of_right_ne_nil path (List.cons_ne_nil slash [])
  have hsplit : path ++ [slash] ++ name = path ++ slash :: name := by simp
  have hcomponents : components (path ++ [slash] ++ name) = components (path ++ [slash]) ++ [name] := by
    rw [hsplit, components_append_slash, components_append_slash, components_proper hname]
    change _ = components path ++ [] ++ [name]
    rw [List.append_nil]
  have hentry := leadsTo_entry (Volume.startFrom_directory hcwd _) hleads hp hname.ne_dots
    (fun target => by simp [hempty])
  rw [Volume.leadsTo, List.reverse_cons, List.reverse_reverse] at hentry
  rw [Volume.lookup, if_neg (List.append_ne_nil_of_left_ne_nil hne name),
    if_neg (hsplit ▸ not_asksDirectory path hname), hcomponents, startFrom_append hne, hentry]
  rfl

end ReadBack

end Dumbos.Foundation
