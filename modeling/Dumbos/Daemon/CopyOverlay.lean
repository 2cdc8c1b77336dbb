import Dumbos.Daemon.CopyTree

/-! # What a copied tree leaves

The destination holds every entry of the source and whatever the source says nothing
of. Everything happens below the place of the destination: an entry is looked up
behind directories alone, so a link there is replaced and not followed. The copy
fails only where a directory would have to be something else.
-/
namespace Dumbos.Daemon
open Foundation Common

/-- Nothing is changed but at and below a place, and no directory is lost. -/
structure Grows (L : Place) (v v' : Volume) : Prop where
  outside : ∀ p, ¬L <:+ p → v'.node p = v.node p
  directories : ∀ p, v.node p = some .directory → v'.node p = some .directory

namespace Grows
variable {L : Place} {v v' v'' : Volume}

theorem refl (L : Place) (v : Volume) : Grows L v v := ⟨fun _ _ => rfl, fun _ h => h⟩

theorem trans (h : Grows L v v') (h' : Grows L v' v'') : Grows L v v'' where
  outside p hp := (h'.outside p hp).trans (h.outside p hp)
  directories p hp := h'.directories p (h.directories p hp)

theorem entry {name : Bytes} (h : Grows (name :: L) v v') : Grows L v v' where
  outside p hp := h.outside p fun hsuffix => hp ((List.suffix_cons name L).trans hsuffix)
  directories := h.directories

/-- A place that is no directory gets another node. -/
theorem of_update {x : Option Node} (hleaf : v.node L ≠ some .directory)
    (h : v'.node = Function.update v.node L x) : Grows L v v' where
  outside p hp := by
    rw [h, Function.update_of_ne]
    rintro rfl
    exact hp List.suffix_rfl
  directories p hp := by
    rw [h, Function.update_of_ne]
    · exact hp
    · rintro rfl
      exact hleaf hp

end Grows

/-- A path leads to a place, whatever happens there. -/
def Settled (cwd : Place) (dst : Bytes) (L : Place) (v : Volume) : Prop :=
  ∀ v', Grows L v v' → v'.lookup cwd false dst = .ok L ∧ v'.lookupNew cwd dst = .ok L

section Paths
variable {cwd L : Place} {dst : Bytes} {v v' : Volume}

theorem Settled.lookup (h : Settled cwd dst L v) : v.lookup cwd false dst = .ok L :=
  (h v (.refl L v)).1

theorem Settled.lookupNew (h : Settled cwd dst L v) : v.lookupNew cwd dst = .ok L :=
  (h v (.refl L v)).2

theorem Settled.mono (h : Settled cwd dst L v) (hgrows : Grows L v v') : Settled cwd dst L v' :=
  fun v'' hgrows' => h v'' (hgrows.trans hgrows')

/-- There is one slash before the last component. -/
theorem joinPath_eq (dst name : Bytes) : ∃ front, joinPath dst name = front ++ slash :: name ∧
    components front = components dst := by
  rw [joinPath]
  split_ifs with hslash
  · obtain ⟨front, rfl⟩ := List.getLast?_eq_some_iff.mp hslash.2
    refine ⟨front, by simp, ?_⟩
    rw [components_append_slash front []]
    simp [components]
  · exact ⟨dst, by simp, rfl⟩

/-- An entry of a directory is found there, without following a link. -/
theorem Settled.entry (h : Settled cwd dst L v) (hcwd : v.node cwd = some .directory)
    (hL : v.node L = some .directory) {name : Bytes} (hname : Proper name) :
    Settled cwd (joinPath dst name) (name :: L) v := by
  intro v' hgrows
  have hgrows' := hgrows.entry
  obtain ⟨front, hjoin, hfront⟩ := joinPath_eq dst name
  have hcomponents : components (joinPath dst name) = components dst ++ [name] := by
    rw [hjoin, components_append_slash, hfront, components_proper hname]
  have hlast : ¬AsksDirectory (joinPath dst name) := by
    rw [hjoin]
    exact not_asksDirectory front hname
  have hprefix : dst <+: joinPath dst name := by
    rw [joinPath, List.append_assoc]
    exact List.prefix_append dst _
  have hlookup : v'.lookup cwd false (joinPath dst name) = .ok (name :: L) :=
    v'.lookup_entry (hgrows'.directories cwd hcwd) (h v' hgrows').1 (hgrows'.directories L hL) hname
      hprefix hcomponents hlast
  exact ⟨hlookup, (v'.lookupNew_eq hlast).trans hlookup⟩

end Paths

def Tree.node : Tree → Node
  | .file content => .file content
  | .link _ target => .link target.val
  | .directory _ => .directory

def Entries.names : Entries → List FileName
  | .nil => []
  | .cons name _ rest => name :: rest.names

theorem proper_of_not_isDots {name : FileName} (h : ¬IsDots name) : Proper name.val :=
  ⟨name.property.1, name.property.2.1, fun hdot => h (.inl hdot), fun hdots => h (.inr hdots)⟩

mutual

/-- What the source has behind the names, the outermost first. -/
def Tree.nodeAt : Tree → List Bytes → Option Node
  | t, [] => some t.node
  | .directory entries, name :: rel => entries.nodeAt name rel
  | _, _ :: _ => none

def Entries.nodeAt : Entries → Bytes → List Bytes → Option Node
  | .nil, _, _ => none
  | .cons name tree rest, name', rel =>
    if IsDots name then rest.nodeAt name' rel
    else if name.val = name' then tree.nodeAt rel
    else rest.nodeAt name' rel

end

mutual

/-- No directory has two entries of one name. -/
def Tree.Distinct : Tree → Prop
  | .directory entries => entries.Distinct
  | _ => True

def Entries.Distinct : Entries → Prop
  | .nil => True
  | .cons name tree rest => name ∉ rest.names ∧ tree.Distinct ∧ rest.Distinct

end

mutual

/-- The bytes of the files. -/
def Tree.size : Tree → ℕ
  | .file content => content.length
  | .link _ _ => 0
  | .directory entries => entries.size

def Entries.size : Entries → ℕ
  | .nil => 0
  | .cons name tree rest => (if IsDots name then 0 else tree.size) + rest.size

end

/-- The place behind the names below a place. -/
def below (L : Place) (rel : List Bytes) : Place := rel.reverse ++ L

/-- Every source directory meets a directory or nothing, everything else meets no directory. -/
def Tree.Fits (t : Tree) (L : Place) (v : Volume) : Prop :=
  ∀ rel x y, t.nodeAt rel = some x → v.node (below L rel) = some y → (x = .directory ↔ y = .directory)

def Entries.Fits (entries : Entries) (L : Place) (v : Volume) : Prop :=
  ∀ name rel x y, entries.nodeAt name rel = some x → v.node (below (name :: L) rel) = some y →
    (x = .directory ↔ y = .directory)

/-- The source where it has something, and what was there before elsewhere. -/
def Tree.Overlaid (t : Tree) (L : Place) (v v' : Volume) : Prop :=
  ∀ rel, v'.node (below L rel) = (t.nodeAt rel).or (v.node (below L rel))

def Entries.Overlaid (entries : Entries) (L : Place) (v v' : Volume) : Prop :=
  ∀ name rel, v'.node (below (name :: L) rel) =
    (entries.nodeAt name rel).or (v.node (below (name :: L) rel))

theorem below_cons (L : Place) (name : Bytes) (rel : List Bytes) :
    below L (name :: rel) = below (name :: L) rel := by
  rw [below, List.reverse_cons, List.append_assoc, List.singleton_append, below]

theorem suffix_below (L : Place) (rel : List Bytes) : L <:+ below L rel :=
  List.suffix_append rel.reverse L

theorem below_ne (L : Place) (name : Bytes) (rel : List Bytes) : below (name :: L) rel ≠ L := by
  intro h
  have hlen := congrArg List.length h
  rw [below, List.length_append, List.length_cons] at hlen
  omega

/-- What is below one entry is not below another. -/
theorem suffix_below_cons_iff {L : Place} {name name' : Bytes} {rel : List Bytes} :
    name :: L <:+ below (name' :: L) rel ↔ name = name' := by
  constructor
  · intro h
    have hsuffix := List.suffix_of_suffix_length_le h (suffix_below (name' :: L) rel) le_rfl
    exact (List.cons.inj (hsuffix.eq_of_length rfl)).1
  · rintro rfl
    exact suffix_below _ rel

theorem nodeAt_of_not_mem : ∀ (entries : Entries) {name : FileName} {rel : List Bytes},
    name ∉ entries.names → entries.nodeAt name.val rel = none
  | .nil, _, _, _ => rfl
  | .cons first tree rest, name, rel, h => by
    rw [Entries.names, List.mem_cons, not_or] at h
    have hne : first.val ≠ name.val := fun hval => h.1 (Subtype.ext hval).symm
    rw [Entries.nodeAt, if_neg hne, nodeAt_of_not_mem rest h.2, ite_self]

/-- Both outcomes of a copy of something that is no directory. -/
def LeafCopied (L : Place) (x : Node) (bytes : ℕ) (s : CopyState)
    (result : Except Errno Unit × CopyState) : Prop :=
  (s.volume.node L ≠ some .directory ∧ result.1 = .ok () ∧
      result.2.volume.node = Function.update s.volume.node L (some x) ∧
      result.2.done = s.done + UInt64.ofNat bytes) ∨
    s.volume.node L = some .directory ∧ ∃ e, result = (.error e, s)

section Leaves
variable {cwd L : Place} {dst : Bytes} {s : CopyState}

theorem openNoFollow_eq {v : Volume} (hlookup : v.lookup cwd false dst = .ok L) :
    openNoFollow cwd dst v = (v.create L).map fun v' => (L, v') := by
  rw [openNoFollow, hlookup]
  rfl

theorem openNoFollow_leaf {v : Volume} (hlookup : v.lookup cwd false dst = .ok L)
    (hparent : v.node L.tail = some .directory)
    (hleaf : v.node L = none ∨ ∃ content, v.node L = some (.file content)) :
    ∃ v', openNoFollow cwd dst v = .ok (L, v') ∧
      v'.node = Function.update v.node L (some (.file [])) := by
  obtain ⟨v', hcreate, hnode⟩ := Volume.create_leaf hparent hleaf
  refine ⟨v', ?_, hnode⟩
  rw [openNoFollow_eq hlookup, hcreate]
  rfl

theorem unlinkPath_leaf {v : Volume} (hlookup : v.lookup cwd false dst = .ok L)
    (hsome : v.node L ≠ none) (hleaf : v.node L ≠ some .directory) :
    ∃ v', unlinkPath cwd dst v = .ok v' ∧ v'.node = Function.update v.node L none := by
  obtain ⟨v', hunlink, hnode⟩ := Volume.unlink_leaf hsome hleaf
  refine ⟨v', ?_, hnode⟩
  rw [unlinkPath, hlookup]
  exact hunlink

theorem copyLoop_opened {v v' : Volume} (hnode : v'.node = Function.update v.node L (some (.file [])))
    (content : Bytes) (s : CopyState) :
    (copyLoop L content { s with volume := v' }).volume.node =
        Function.update v.node L (some (.file content)) ∧
      (copyLoop L content { s with volume := v' }).done = s.done + UInt64.ofNat content.length := by
  obtain ⟨hvolume, hdone⟩ := copyLoop_spec L content { s with volume := v' }
  refine ⟨?_, hdone⟩
  rw [hvolume]
  exact Volume.append_created hnode content

/-- A link in the place of a file is removed and not followed. -/
theorem copyRegularFile_spec (hdst : Settled cwd dst L s.volume)
    (hparent : s.volume.node L.tail = some .directory) (content : Bytes) :
    LeafCopied L (.file content) content.length s (copyRegularFile cwd dst content s) := by
  have hopens : (s.volume.node L = none ∨ ∃ old, s.volume.node L = some (.file old)) →
      s.volume.node L ≠ some .directory →
      LeafCopied L (.file content) content.length s (copyRegularFile cwd dst content s) := by
    intro hleaf hne
    obtain ⟨v', hopen, hnode⟩ := openNoFollow_leaf hdst.lookup hparent hleaf
    left
    rw [copyRegularFile, hopen]
    exact ⟨hne, rfl, copyLoop_opened hnode content s⟩
  cases hL : s.volume.node L with
  | none => exact hopens (.inl hL) (s.volume.ne_directory_of_none hL)
  | some x => cases x with
    | file old => exact hopens (.inr ⟨old, hL⟩) (by simp [hL])
    | directory =>
      have hopen : openNoFollow cwd dst s.volume = .error .isDirectory := by
        rw [openNoFollow_eq hdst.lookup, Volume.create, hL]
        rfl
      right
      refine ⟨hL, EISDIR, ?_⟩
      rw [copyRegularFile, hopen]
      rfl
    | link target =>
      have hne : s.volume.node L ≠ some .directory := by simp [hL]
      have hopen : openNoFollow cwd dst s.volume = .error .loop := by
        rw [openNoFollow_eq hdst.lookup, Volume.create, hL]
        rfl
      obtain ⟨v, hunlink, hnode⟩ := unlinkPath_leaf hdst.lookup (s.volume.node_ne_none hL) hne
      have hgrows : Grows L s.volume v := .of_update hne hnode
      obtain ⟨v', hreopen, hnode'⟩ := openNoFollow_leaf (hdst.mono hgrows).lookup
        (hgrows.directories _ hparent) (.inl (by rw [hnode, Function.update_self]))
      rw [hnode, Function.update_idem] at hnode'
      left
      rw [copyRegularFile, hopen]
      dsimp only
      rw [hunlink]
      dsimp only
      rw [hreopen]
      exact ⟨hne, rfl, copyLoop_opened hnode' content s⟩

/-- The buffer becomes large enough for any target. -/
theorem readlinkLoop_eq {target : Bytes} (htarget : target.length < 2 ^ 63) (size : ℕ+) :
    readlinkLoop target size = .ok target := by
  induction size using readlinkLoop.induct target with
  | case1 size n hfits =>
    rw [readlinkLoop, dif_pos hfits]
    exact congrArg _ (List.take_of_length_le (by omega))
  | case2 size n hfull hmax =>
    rw [SIZE_MAX] at hmax
    omega
  | case3 size n hfull hmax ih =>
    rw [readlinkLoop, dif_neg hfull, if_neg hmax]
    exact ih

theorem symlinkPath_free {v : Volume} (hlookup : v.lookup cwd false dst = .ok L)
    (hparent : v.node L.tail = some .directory) (hfree : v.node L = none) {target : Bytes}
    (hne : target ≠ []) : ∃ v', symlinkPath cwd dst target v = .ok v' ∧
      v'.node = Function.update v.node L (some (.link target)) := by
  obtain ⟨v', hmake, hnode⟩ := Volume.make_free (.link target) hparent hfree
  refine ⟨v', ?_, hnode⟩
  rw [symlinkPath, if_neg hne, hlookup]
  exact hmake

theorem copySymlink_link {v : Volume} (hlookup : v.lookup cwd false dst = .ok L)
    (hparent : v.node L.tail = some .directory) (hfree : v.node L = none) (target : LinkTarget) :
    ∃ v', copySymlink.link cwd dst s target.val v = (.ok (), { s with volume := v' }) ∧
      v'.node = Function.update v.node L (some (.link target.val)) := by
  have hcstr : cstr target.val = target.val := by
    apply cstr_eq_self
    rintro c hc rfl
    exact target.property.2.1 hc
  obtain ⟨v', hsymlink, hnode⟩ := symlinkPath_free hlookup hparent hfree target.property.1
  refine ⟨v', ?_, hnode⟩
  rw [copySymlink.link, hcstr, hsymlink]

/-- Whatever is no directory is removed for a link. -/
theorem copySymlink_spec (hdst : Settled cwd dst L s.volume)
    (hparent : s.volume.node L.tail = some .directory) (stSize : ℕ) (target : LinkTarget) :
    LeafCopied L (.link target.val) 0 s (copySymlink cwd dst stSize target.val s) := by
  have hread := readlinkLoop_eq target.property.2.2 (firstSize stSize)
  by_cases hnone : s.volume.node L = none
  · have hunlink : unlinkPath cwd dst s.volume = .error .missing := by
      rw [unlinkPath, hdst.lookup]
      exact Volume.unlink_missing hnone
    obtain ⟨v', hlink, hnode⟩ := copySymlink_link (s := s) hdst.lookup hparent hnone target
    left
    rw [copySymlink, hread]
    dsimp only
    rw [hunlink]
    dsimp only
    rw [hlink]
    exact ⟨s.volume.ne_directory_of_none hnone, rfl, hnode, (UInt64.add_zero _).symm⟩
  by_cases hdir : s.volume.node L = some .directory
  · have hunlink : unlinkPath cwd dst s.volume = .error .isDirectory := by
      rw [unlinkPath, hdst.lookup]
      exact Volume.unlink_directory hdir
    right
    refine ⟨hdir, EISDIR, ?_⟩
    rw [copySymlink, hread]
    dsimp only
    rw [hunlink]
    rfl
  · obtain ⟨v, hunlink, hnode⟩ := unlinkPath_leaf hdst.lookup hnone hdir
    have hgrows : Grows L s.volume v := .of_update hdir hnode
    obtain ⟨v', hlink, hnode'⟩ := copySymlink_link (s := s) (hdst.mono hgrows).lookup
      (hgrows.directories _ hparent) (by rw [hnode, Function.update_self]) target
    rw [hnode, Function.update_idem] at hnode'
    left
    rw [copySymlink, hread]
    dsimp only
    rw [hunlink]
    dsimp only
    rw [hlink]
    exact ⟨hdir, rfl, hnode', (UInt64.add_zero _).symm⟩

end Leaves

/-- Both outcomes of a copy: the overlay, with its bytes counted, where the trees fit, and a failure
where they do not. -/
def Tree.Copied (t : Tree) (L : Place) (s : CopyState) (result : Except Errno Unit × CopyState) : Prop :=
  Grows L s.volume result.2.volume ∧
    (t.Fits L s.volume ∧ result.1 = .ok () ∧ t.Overlaid L s.volume result.2.volume ∧
        result.2.done = s.done + UInt64.ofNat t.size ∨
      ¬t.Fits L s.volume ∧ ∃ e, result.1 = .error e)

def Entries.Copied (entries : Entries) (L : Place) (s : CopyState)
    (result : Except Errno Unit × CopyState) : Prop :=
  Grows L s.volume result.2.volume ∧
    (entries.Fits L s.volume ∧ result.1 = .ok () ∧ entries.Overlaid L s.volume result.2.volume ∧
        result.2.done = s.done + UInt64.ofNat entries.size ∨
      ¬entries.Fits L s.volume ∧ ∃ e, result.1 = .error e)

/-- A tree of a single node. -/
structure Tree.Leaf (t : Tree) : Prop where
  node_ne : t.node ≠ .directory
  nodeAt_cons : ∀ name rel, t.nodeAt (name :: rel) = none

section Leaf
variable {t : Tree} {L : Place} {v : Volume} {s : CopyState} {result : Except Errno Unit × CopyState}

theorem nodeAt_nil (t : Tree) : t.nodeAt [] = some t.node := by
  cases t <;> rfl

theorem Tree.Leaf.fits_iff (ht : t.Leaf) : t.Fits L v ↔ v.node L ≠ some .directory := by
  constructor
  · intro hfits hL
    exact ht.node_ne ((hfits [] _ _ (nodeAt_nil t) hL).mpr rfl)
  · intro hL rel x y hx hy
    cases rel with
    | nil =>
      rw [nodeAt_nil, Option.some.injEq] at hx
      subst hx
      refine iff_of_false ht.node_ne ?_
      rintro rfl
      exact hL hy
    | cons name rel =>
      rw [ht.nodeAt_cons] at hx
      cases hx

theorem Tree.Leaf.copied (ht : t.Leaf) (h : LeafCopied L t.node t.size s result) :
    t.Copied L s result := by
  rcases h with ⟨hne, hok, hnode, hdone⟩ | ⟨hdir, e, rfl⟩
  · refine ⟨.of_update hne hnode, .inl ⟨ht.fits_iff.mpr hne, hok, ?_, hdone⟩⟩
    intro rel
    rw [hnode]
    cases rel with
    | nil =>
      rw [nodeAt_nil]
      exact Function.update_self L _ _
    | cons name rel =>
      rw [ht.nodeAt_cons, below_cons, Function.update_of_ne (below_ne L name rel), Option.none_or]
  · exact ⟨.refl L _, .inr ⟨fun hfits => ht.fits_iff.mp hfits hdir, e, rfl⟩⟩

end Leaf

section Steps
variable {L : Place} {v v' v'' : Volume} {name : FileName} {tree : Tree} {rest : Entries}

theorem nodeAt_dots (hdots : IsDots name) (name' : Bytes) (rel : List Bytes) :
    (Entries.cons name tree rest).nodeAt name' rel = rest.nodeAt name' rel := by
  rw [Entries.nodeAt, if_pos hdots]

theorem nodeAt_self (hdots : ¬IsDots name) (rel : List Bytes) :
    (Entries.cons name tree rest).nodeAt name.val rel = tree.nodeAt rel := by
  rw [Entries.nodeAt, if_neg hdots, if_pos rfl]

theorem nodeAt_other {name' : Bytes} (h : name.val ≠ name') (rel : List Bytes) :
    (Entries.cons name tree rest).nodeAt name' rel = rest.nodeAt name' rel := by
  rw [Entries.nodeAt, if_neg h, ite_self]

/-- What is below another entry stays. -/
theorem Grows.other {name' : Bytes} (h : Grows (name.val :: L) v v') (hne : name.val ≠ name')
    (rel : List Bytes) : v'.node (below (name' :: L) rel) = v.node (below (name' :: L) rel) :=
  h.outside _ fun hsuffix => hne (suffix_below_cons_iff.mp hsuffix)

theorem ne_of_nodeAt {name' : Bytes} {rel : List Bytes} {x : Node} (hname : name ∉ rest.names)
    (hx : rest.nodeAt name' rel = some x) : name.val ≠ name' := by
  rintro rfl
  rw [nodeAt_of_not_mem rest hname] at hx
  cases hx

/-- One entry and the others. -/
theorem fits_cons_iff (hdots : ¬IsDots name) (hname : name ∉ rest.names) :
    (Entries.cons name tree rest).Fits L v ↔ tree.Fits (name.val :: L) v ∧ rest.Fits L v := by
  constructor
  · intro h
    constructor
    · intro rel x y hx
      exact h name.val rel x y ((nodeAt_self hdots rel).trans hx)
    · intro name' rel x y hx
      exact h name' rel x y ((nodeAt_other (ne_of_nodeAt hname hx) rel).trans hx)
  · rintro ⟨htree, hrest⟩ name' rel x y hx
    by_cases hsame : name.val = name'
    · subst hsame
      rw [nodeAt_self hdots] at hx
      exact htree rel x y hx
    · rw [nodeAt_other hsame] at hx
      exact hrest name' rel x y hx

/-- The copy of one entry does not matter to the others. -/
theorem fits_of_grows_iff (hname : name ∉ rest.names) (h : Grows (name.val :: L) v v') :
    rest.Fits L v' ↔ rest.Fits L v := by
  constructor
  · intro hfits name' rel x y hx
    rw [← h.other (ne_of_nodeAt hname hx) rel]
    exact hfits name' rel x y hx
  · intro hfits name' rel x y hx
    rw [h.other (ne_of_nodeAt hname hx) rel]
    exact hfits name' rel x y hx

theorem overlaid_cons (hdots : ¬IsDots name) (hname : name ∉ rest.names)
    (hgrows : Grows (name.val :: L) v v') (htree : tree.Overlaid (name.val :: L) v v')
    (hrest : rest.Overlaid L v' v'') : (Entries.cons name tree rest).Overlaid L v v'' := by
  intro name' rel
  rw [hrest name' rel]
  by_cases hsame : name.val = name'
  · subst hsame
    rw [nodeAt_of_not_mem rest hname, Option.none_or, nodeAt_self hdots]
    exact htree rel
  · rw [nodeAt_other hsame, hgrows.other hsame]

variable {s : CopyState} {one many : Except Errno Unit × CopyState}

/-- An entry whose copy succeeds, and the others behind it. -/
theorem copied_cons_ok (hdots : ¬IsDots name) (hname : name ∉ rest.names)
    (hone : tree.Copied (name.val :: L) s one) (hok : one.1 = .ok ()) (hmany : rest.Copied L one.2 many) :
    (Entries.cons name tree rest).Copied L s many := by
  obtain ⟨hgrows, ⟨hfits, -, hoverlaid, hdone⟩ | ⟨-, e, he⟩⟩ := hone
  · obtain ⟨hgrows', h⟩ := hmany
    refine ⟨hgrows.entry.trans hgrows', ?_⟩
    have hiff : (Entries.cons name tree rest).Fits L s.volume ↔ rest.Fits L one.2.volume := by
      rw [fits_cons_iff hdots hname, fits_of_grows_iff hname hgrows]
      exact and_iff_right hfits
    rw [hiff]
    refine h.imp ?_ id
    rintro ⟨hfits', hok', hoverlaid', hdone'⟩
    refine ⟨hfits', hok', overlaid_cons hdots hname hgrows hoverlaid hoverlaid', ?_⟩
    rw [hdone', hdone, Entries.size, if_neg hdots, UInt64.ofNat_add, UInt64.add_assoc]
  · rw [hok] at he
    cases he

/-- An entry whose copy fails ends the loop. -/
theorem copied_cons_error (hdots : ¬IsDots name) (hname : name ∉ rest.names)
    (hone : tree.Copied (name.val :: L) s one) {e : Errno} (he : one.1 = .error e) :
    (Entries.cons name tree rest).Copied L s (.error e, one.2) := by
  obtain ⟨hgrows, ⟨-, hok, -, -⟩ | ⟨hfits, -⟩⟩ := hone
  · rw [hok] at he
    cases he
  · refine ⟨hgrows.entry, .inr ⟨?_, e, rfl⟩⟩
    rw [fits_cons_iff hdots hname]
    exact fun h => hfits h.1

/-- An entry that is skipped. -/
theorem copied_cons_dots (hdots : IsDots name) (hmany : rest.Copied L s many) :
    (Entries.cons name tree rest).Copied L s many := by
  have hsize : (Entries.cons name tree rest).size = rest.size := by
    rw [Entries.size, if_pos hdots, Nat.zero_add]
  have hfits : (Entries.cons name tree rest).Fits L s.volume ↔ rest.Fits L s.volume := by
    simp only [Entries.Fits, nodeAt_dots hdots]
  obtain ⟨hgrows, h⟩ := hmany
  refine ⟨hgrows, ?_⟩
  rw [hfits, hsize]
  refine h.imp ?_ id
  rintro ⟨hfit, hok, hoverlaid, hdone⟩
  refine ⟨hfit, hok, ?_, hdone⟩
  intro name' rel
  rw [nodeAt_dots hdots]
  exact hoverlaid name' rel

end Steps

section Directories
variable {cwd L : Place} {dst : Bytes} {v v' v'' : Volume} {s : CopyState} {entries : Entries}

theorem fits_directory_iff : (Tree.directory entries).Fits L v ↔
    (∀ y, v.node L = some y → y = .directory) ∧ entries.Fits L v := by
  constructor
  · intro h
    refine ⟨fun y hy => (h [] _ y (nodeAt_nil _) hy).mp rfl, ?_⟩
    intro name rel x y hx hy
    rw [← below_cons] at hy
    exact h (name :: rel) x y hx hy
  · rintro ⟨hL, hentries⟩ rel x y hx hy
    cases rel with
    | nil =>
      rw [nodeAt_nil, Option.some.injEq] at hx
      exact iff_of_true hx.symm (hL y hy)
    | cons name rel =>
      rw [below_cons] at hy
      exact hentries name rel x y hx hy

theorem overlaid_directory (h : entries.Overlaid L v v') (hL : v'.node L = some .directory) :
    (Tree.directory entries).Overlaid L v v' := by
  intro rel
  cases rel with
  | nil => exact hL
  | cons name rel =>
    rw [below_cons]
    exact h name rel

/-- What a new directory holds, it held before. -/
theorem update_below {x : Option Node} (h : v'.node = Function.update v.node L x) (name : Bytes)
    (rel : List Bytes) : v'.node (below (name :: L) rel) = v.node (below (name :: L) rel) := by
  rw [h, Function.update_of_ne (below_ne L name rel)]

theorem directory_copied (hcwd : s.volume.node cwd = some .directory)
    (hparent : s.volume.node L.tail = some .directory) (hdst : Settled cwd dst L s.volume)
    (hentries : ∀ s : CopyState, s.volume.node cwd = some .directory →
      s.volume.node L = some .directory → Settled cwd dst L s.volume →
        entries.Copied L s (copyEntries cwd dst entries s)) :
    (Tree.directory entries).Copied L s (copyTree cwd dst (.directory entries) s) := by
  by_cases hnone : s.volume.node L = none
  · obtain ⟨v, hmake, hnode⟩ := Volume.make_free .directory hparent hnone
    have hmkdir : mkdirPath cwd dst s.volume = .ok v := by
      rw [mkdirPath, hdst.lookupNew]
      exact hmake
    have hgrows : Grows L s.volume v := .of_update (s.volume.ne_directory_of_none hnone) hnode
    have hL : v.node L = some .directory := by rw [hnode, Function.update_self]
    obtain ⟨hgrows', h⟩ := hentries { s with volume := v } (hgrows.directories _ hcwd) hL
      (hdst.mono hgrows)
    rw [copyTree, hmkdir]
    dsimp only
    refine ⟨hgrows.trans hgrows', ?_⟩
    have hfits : entries.Fits L v ↔ (Tree.directory entries).Fits L s.volume := by
      rw [fits_directory_iff, hnone, Entries.Fits, Entries.Fits]
      simp only [update_below hnode]
      exact (and_iff_right (by rintro _ ⟨⟩)).symm
    rw [← hfits]
    refine h.imp ?_ id
    rintro ⟨hfit, hok, hoverlaid, hdone⟩
    refine ⟨hfit, hok, overlaid_directory ?_ (hgrows'.directories L hL), hdone⟩
    intro name rel
    rw [← update_below hnode]
    exact hoverlaid name rel
  have hmkdir : mkdirPath cwd dst s.volume = .error .taken := by
    rw [mkdirPath, hdst.lookupNew]
    exact Volume.make_taken .directory hnone
  have hlstat : lstatPath cwd dst s.volume = (s.volume.node L).elim (.error .missing) .ok := by
    rw [lstatPath, hdst.lookup]
    rfl
  rw [copyTree, hmkdir]
  dsimp only
  by_cases hL : s.volume.node L = some .directory
  · rw [hL] at hlstat
    rw [hlstat]
    obtain ⟨hgrows, h⟩ := hentries s hcwd hL hdst
    refine ⟨hgrows, ?_⟩
    have hfits : entries.Fits L s.volume ↔ (Tree.directory entries).Fits L s.volume := by
      rw [fits_directory_iff, hL]
      exact (and_iff_right fun y hy => (Option.some.inj hy).symm).symm
    rw [← hfits]
    refine h.imp ?_ id
    rintro ⟨hfit, hok, hoverlaid, hdone⟩
    exact ⟨hfit, hok, overlaid_directory hoverlaid (hgrows.directories L hL), hdone⟩
  · obtain ⟨x, hx⟩ := Option.ne_none_iff_exists'.mp hnone
    have hne : x ≠ .directory := by
      rintro rfl
      exact hL hx
    have hunfit : ¬(Tree.directory entries).Fits L s.volume := by
      rw [fits_directory_iff]
      exact fun hfits => hne (hfits.1 x hx)
    rw [hx] at hlstat
    rw [hlstat]
    cases x with
    | directory => exact absurd rfl hne
    | file content => exact ⟨.refl L _, .inr ⟨hunfit, _, rfl⟩⟩
    | link target => exact ⟨.refl L _, .inr ⟨hunfit, _, rfl⟩⟩

end Directories

section Run
variable (cwd : Place)

mutual

/-- The induction over the source, which looks up every entry behind the directory it has just
made or found. -/
theorem copyTree_copied : ∀ (t : Tree) {dst : Bytes} {L : Place} {s : CopyState}, t.Distinct →
    s.volume.node cwd = some .directory → s.volume.node L.tail = some .directory →
      Settled cwd dst L s.volume → t.Copied L s (copyTree cwd dst t s)
  | .file content, _, _, _, _, _, hparent, hdst =>
    Tree.Leaf.copied ⟨by rintro ⟨⟩, fun _ _ => rfl⟩ (copyRegularFile_spec hdst hparent content)
  | .link stSize target, _, _, _, _, _, hparent, hdst =>
    Tree.Leaf.copied ⟨by rintro ⟨⟩, fun _ _ => rfl⟩ (copySymlink_spec hdst hparent stSize target)
  | .directory entries, _, _, _, hdistinct, hcwd, hparent, hdst =>
    directory_copied hcwd hparent hdst fun _ hcwd' hL hdst' =>
      copyEntries_copied entries hdistinct hcwd' hL hdst'

theorem copyEntries_copied : ∀ (entries : Entries) {dst : Bytes} {L : Place} {s : CopyState},
    entries.Distinct → s.volume.node cwd = some .directory → s.volume.node L = some .directory →
      Settled cwd dst L s.volume → entries.Copied L s (copyEntries cwd dst entries s)
  | .nil, _, L, s, _, _, _, _ => by
    refine ⟨.refl L _, .inl ⟨?_, rfl, ?_, (UInt64.add_zero _).symm⟩⟩
    · intro name rel x y hx
      cases hx
    · intro name rel
      rfl
  | .cons name tree rest, dst, L, s, ⟨hname, htree, hrest⟩, hcwd, hL, hdst => by
    rw [copyEntries]
    by_cases hdots : IsDots name
    · rw [if_pos hdots]
      exact copied_cons_dots hdots (copyEntries_copied rest hrest hcwd hL hdst)
    · rw [if_neg hdots]
      have hparent : s.volume.node (name.val :: L).tail = some .directory := hL
      have hone := copyTree_copied tree htree hcwd hparent
        (hdst.entry hcwd hL (proper_of_not_isDots hdots))
      have hgrows := hone.1.entry
      cases hcopy : copyTree cwd (joinPath dst name.val) tree s with
      | mk result s' =>
        rw [hcopy] at hone hgrows
        cases result with
        | error e => exact copied_cons_error hdots hname hone rfl
        | ok _ =>
          exact copied_cons_ok hdots hname hone rfl (copyEntries_copied rest hrest
            (hgrows.directories cwd hcwd) (hgrows.directories L hL) (hdst.mono hgrows))

end

end Run

theorem measure_file {total : UInt64} {n : ℕ} (h : total.toNat + n < 2 ^ 64) :
    ¬UINT64_MAX - total < UInt64.ofNat n := by
  have hmax : UINT64_MAX.toNat = 2 ^ 64 - 1 := rfl
  have hle : total ≤ UINT64_MAX := by
    rw [UInt64.le_iff_toNat_le, hmax]
    omega
  rw [UInt64.lt_iff_toNat_lt, UInt64.toNat_sub_of_le _ _ hle, hmax, UInt64.toNat_ofNat_of_lt' (Nat.lt_of_le_of_lt (Nat.le_add_left n _) h)]
  omega

theorem toNat_add_ofNat {total : UInt64} {n : ℕ} (h : total.toNat + n < 2 ^ 64) :
    (total + UInt64.ofNat n).toNat = total.toNat + n := by
  rw [UInt64.toNat_add, UInt64.toNat_ofNat_of_lt' (Nat.lt_of_le_of_lt (Nat.le_add_left n _) h),
    Nat.mod_eq_of_lt h]

mutual

/-- Measuring counts the bytes of the files, as long as they can be counted. -/
theorem measureTree_eq : ∀ (t : Tree) {total : UInt64}, total.toNat + t.size < 2 ^ 64 →
    measureTree t total = .ok (total + UInt64.ofNat t.size)
  | .file content, total, h => by
    rw [Tree.size] at h ⊢
    rw [measureTree, if_neg (measure_file h)]
  | .link _ _, total, _ => by
    rw [measureTree, Tree.size]
    exact congrArg _ (UInt64.add_zero total).symm
  | .directory entries, total, h => by
    rw [measureTree, Tree.size]
    exact measureEntries_eq entries h

theorem measureEntries_eq : ∀ (entries : Entries) {total : UInt64},
    total.toNat + entries.size < 2 ^ 64 →
      measureEntries entries total = .ok (total + UInt64.ofNat entries.size)
  | .nil, total, _ => congrArg _ (UInt64.add_zero total).symm
  | .cons name tree rest, total, h => by
    rw [measureEntries]
    rw [Entries.size] at h ⊢
    by_cases hdots : IsDots name
    · simp only [hdots, if_true, Nat.zero_add] at h ⊢
      exact measureEntries_eq rest h
    · simp only [hdots, if_false] at h ⊢
      have hrest : (total + UInt64.ofNat tree.size).toNat + rest.size < 2 ^ 64 := by
        rw [toNat_add_ofNat (by omega)]
        omega
      rw [measureTree_eq tree (by omega)]
      dsimp only
      rw [measureEntries_eq rest hrest, UInt64.ofNat_add, UInt64.add_assoc]

end

/-- A source directory meets something else, or something else a directory. -/
def Tree.Conflict (t : Tree) (L : Place) (v : Volume) : Prop :=
  ∃ rel x y, t.nodeAt rel = some x ∧ v.node (below L rel) = some y ∧
    (x = .directory ∧ y ≠ .directory ∨ x ≠ .directory ∧ y = .directory)

theorem not_fits_iff_conflict {t : Tree} {L : Place} {v : Volume} : ¬t.Fits L v ↔ t.Conflict L v := by
  constructor
  · intro h
    rw [Tree.Fits] at h
    push Not at h
    obtain ⟨rel, x, y, hx, hy, hxy⟩ := h
    exact ⟨rel, x, y, hx, hy, hxy⟩
  · rintro ⟨rel, x, y, hx, hy, hxy⟩ h
    have hiff := h rel x y hx hy
    rcases hxy with ⟨hdir, hne⟩ | ⟨hne, hdir⟩
    · exact hne (hiff.mp hdir)
    · exact hne (hiff.mpr hdir)

/-- A copy that returns 0 is an overlay with every byte counted, no copy changes anything outside the
destination, and a copy fails exactly at a conflict. -/
theorem copyTree_overlay {cwd L : Place} {dst : Bytes} {t : Tree} {s : CopyState} (hdistinct : t.Distinct)
    (hsize : t.size < 2 ^ 64) (hcwd : s.volume.node cwd = some .directory)
    (hparent : s.volume.node L.tail = some .directory) (hdst : Settled cwd dst L s.volume) :
    ((copyTree cwd dst t s).1 = .ok () →
      t.Overlaid L s.volume (copyTree cwd dst t s).2.volume ∧
        ∃ total, measureTree t 0 = .ok total ∧ (copyTree cwd dst t s).2.done = s.done + total) ∧
    (∀ p, ¬L <:+ p → (copyTree cwd dst t s).2.volume.node p = s.volume.node p) ∧
    ((∃ e, (copyTree cwd dst t s).1 = .error e) ↔ t.Conflict L s.volume) := by
  obtain ⟨hgrows, h⟩ := copyTree_copied cwd t hdistinct hcwd hparent hdst
  have hmeasure : measureTree t 0 = .ok (UInt64.ofNat t.size) := by
    rw [measureTree_eq t (by rwa [UInt64.toNat_zero, Nat.zero_add]), UInt64.zero_add]
  rw [← not_fits_iff_conflict]
  rcases h with ⟨hfits, hok, hoverlaid, hdone⟩ | ⟨hfits, e, he⟩
  · refine ⟨fun _ => ⟨hoverlaid, _, hmeasure, hdone⟩, hgrows.outside, ?_⟩
    refine iff_of_false ?_ (not_not.mpr hfits)
    rintro ⟨e, he⟩
    rw [hok] at he
    cases he
  · refine ⟨?_, hgrows.outside, iff_of_true ⟨e, he⟩ hfits⟩
    intro hok
    rw [hok] at he
    cases he

theorem settled_root_entry {name : Bytes} (hname : Proper name) (cwd : Place) (v : Volume) :
    Settled cwd (slash :: name) [name] v := by
  intro v' _
  have hlast : ¬AsksDirectory (slash :: name) := not_asksDirectory [] hname
  have hcomponents : components (slash :: name) = [name] := by
    rw [← List.nil_append (slash :: name), components_append_slash, components_proper hname]
    rfl
  have hlookup : v'.lookup cwd false (slash :: name) = .ok [name] := by
    rw [Volume.lookup, if_neg (List.cons_ne_nil _ _), if_neg hlast, hcomponents]
    change (v'.locate false MAXSYMLINKS [] [name]).map Prod.fst = _
    rw [Volume.locate_last hname.ne_dots]
    rfl
  exact ⟨hlookup, (v'.lookupNew_eq hlast).trans hlookup⟩

/-- A directory `out` with a link to a file outside of it. -/
def linkedNode (p : Place) : Option Node :=
  if p = [] ∨ p = [ascii "out"] then some .directory
  else if p = [ascii "secret"] then some (.file (ascii "s"))
  else if p = [ascii "a", ascii "out"] then some (.link (ascii "/secret"))
  else none

theorem linkedNode_inside (name : Bytes) (dir : Place) (h : linkedNode (name :: dir) ≠ none) :
    linkedNode dir = some .directory := by
  by_cases hdir : dir = [] ∨ dir = [ascii "out"]
  · rw [linkedNode, if_pos hdir]
  · rw [not_or] at hdir
    simp [linkedNode, hdir] at h

def linkedState : CopyState := ⟨⟨linkedNode, rfl, linkedNode_inside⟩, 0, [some 1, none, some 0]⟩

def oneEntry : Tree := .directory (.cons ⟨ascii "a", by decide⟩ (.file (ascii "new")) .nil)

/-- The file behind the link stays. -/
theorem copyTree_overlay_linked :
    (copyTree [] (ascii "/out") oneEntry linkedState).2.volume.node [ascii "secret"] =
      some (.file (ascii "s")) := by
  have hname : Proper (ascii "out") := ⟨by decide, by decide, by decide, by decide⟩
  have hdistinct : oneEntry.Distinct := ⟨List.not_mem_nil, trivial, trivial⟩
  obtain ⟨-, houtside, -⟩ := @copyTree_overlay [] [ascii "out"] (ascii "/out") oneEntry linkedState
    hdistinct (by decide) rfl rfl (settled_root_entry hname [] _)
  exact houtside [ascii "secret"] (by decide)

end Dumbos.Daemon
