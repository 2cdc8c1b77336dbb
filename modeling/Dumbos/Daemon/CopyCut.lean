import Dumbos.Daemon.CopyOverlay

/-! # A copy that is cut short

A call of the copy can fail, and the process can be killed in any of them. Behind a call
that fails nothing more is changed, so a copy that is cut short leaves one of the volumes
that the whole copy goes through: one behind each call that changes something, and one
behind each byte of a file.
-/
namespace Dumbos.Daemon
open Foundation Common

section Volumes
variable (cwd : Place) (dst : Bytes)

/-- One behind the opening, and one behind each byte. -/
def writtenVolumes (p : Place) (content : Bytes) (v : Volume) : List Volume :=
  (List.range (content.length + 1)).map fun n => v.append p (content.take n)

def openedVolumes (content : Bytes) (v : Volume) : List Volume :=
  match openNoFollow cwd dst v with
  | .ok (p, opened) => writtenVolumes p content opened
  | .error _ => []

/-- Those of `copyRegularFile`. -/
def fileVolumes (content : Bytes) (v : Volume) : List Volume :=
  match openNoFollow cwd dst v with
  | .error .loop => match unlinkPath cwd dst v with
    | .error _ => []
    | .ok unlinked => unlinked :: openedVolumes cwd dst content unlinked
  | _ => openedVolumes cwd dst content v

/-- Those of `copySymlink`. -/
def linkVolumes (stSize : ℕ) (target : Bytes) (v : Volume) : List Volume :=
  match readlinkLoop target (firstSize stSize) with
  | .error _ => []
  | .ok target => match unlinkPath cwd dst v with
    | .ok unlinked => unlinked :: linked target unlinked
    | .error .missing => linked target v
    | .error _ => []
where
  linked (target : Bytes) (v : Volume) : List Volume :=
    match symlinkPath cwd dst (cstr target) v with
    | .ok v => [v]
    | .error _ => []

end Volumes

mutual

/-- The volumes that `copyTree` goes through, the last one is what it leaves. -/
def treeVolumes (cwd : Place) (dst : Bytes) : Tree → CopyState → List Volume
  | .file content, s => fileVolumes cwd dst content s.volume
  | .link stSize target, s => linkVolumes cwd dst stSize target.val s.volume
  | .directory entries, s => match mkdirPath cwd dst s.volume with
    | .ok made => made :: entriesVolumes cwd dst entries { s with volume := made }
    | .error .taken => match lstatPath cwd dst s.volume with
      | .ok .directory => entriesVolumes cwd dst entries s
      | _ => []
    | .error _ => []

def entriesVolumes (cwd : Place) (dst : Bytes) : Entries → CopyState → List Volume
  | .nil, _ => []
  | .cons name tree rest, s =>
    if IsDots name then entriesVolumes cwd dst rest s
    else match copyTree cwd (joinPath dst name.val) tree s with
      | (.error _, _) => treeVolumes cwd (joinPath dst name.val) tree s
      | (.ok (), s') =>
        treeVolumes cwd (joinPath dst name.val) tree s ++ entriesVolumes cwd dst rest s'

end

/-- What a copy leaves that ends behind so many changes. -/
def cutVolume (cwd : Place) (dst : Bytes) (t : Tree) (s : CopyState) (changes : ℕ) : Volume :=
  ((treeVolumes cwd dst t s).take changes).getLastD s.volume

section Last
variable {cwd : Place} {dst : Bytes} {s : CopyState} {entries : Entries}

theorem getLastD_append (l l' : List Volume) (v : Volume) :
    (l ++ l').getLastD v = l'.getLastD (l.getLastD v) := by
  cases l' with
  | nil => rw [List.append_nil, List.getLastD_nil]
  | cons w l' =>
    rw [List.getLastD_eq_getLast?, List.getLastD_eq_getLast?, List.getLast?_append_of_ne_nil l (List.cons_ne_nil w l')]
    rw [List.getLast?_eq_some_getLast (List.cons_ne_nil w l')]
    rfl

theorem writtenVolumes_last (p : Place) (content : Bytes) (v w : Volume) :
    (writtenVolumes p content v).getLastD w = v.append p content := by
  rw [writtenVolumes, List.range_succ, List.map_append, List.map_singleton, List.getLastD_concat,
    List.take_length]

theorem openedVolumes_last {content : Bytes} {v opened : Volume} {p : Place}
    (hopen : openNoFollow cwd dst v = .ok (p, opened)) (w : Volume) :
    (openedVolumes cwd dst content v).getLastD w =
      (copyLoop p content { s with volume := opened }).volume := by
  rw [openedVolumes, hopen]
  rw [(copyLoop_spec p content { s with volume := opened }).1]
  exact writtenVolumes_last p content opened w

theorem fileVolumes_last (content : Bytes) :
    (fileVolumes cwd dst content s.volume).getLastD s.volume =
      (copyRegularFile cwd dst content s).2.volume := by
  rw [fileVolumes, copyRegularFile]
  cases hopen : openNoFollow cwd dst s.volume with
  | ok opened =>
    exact openedVolumes_last hopen s.volume
  | error refusal =>
    cases refusal with
    | loop =>
      dsimp only
      cases unlinkPath cwd dst s.volume with
      | error e => rfl
      | ok unlinked =>
        dsimp only
        rw [List.getLastD_cons]
        cases hreopen : openNoFollow cwd dst unlinked with
        | error e =>
          rw [openedVolumes, hreopen]
          rfl
        | ok opened => exact openedVolumes_last hreopen unlinked
    | _ =>
      dsimp only
      rw [openedVolumes, hopen]
      rfl

theorem linkVolumes_last (stSize : ℕ) (target : Bytes) :
    (linkVolumes cwd dst stSize target s.volume).getLastD s.volume =
      (copySymlink cwd dst stSize target s).2.volume := by
  have hlinked : ∀ target v, (linkVolumes.linked cwd dst target v).getLastD v =
      (copySymlink.link cwd dst s target v).2.volume := by
    intro target v
    rw [linkVolumes.linked, copySymlink.link]
    cases symlinkPath cwd dst (cstr target) v with
    | ok v' => rfl
    | error e => rfl
  rw [linkVolumes, copySymlink]
  cases readlinkLoop target (firstSize stSize) with
  | error e => rfl
  | ok target =>
    dsimp only
    cases unlinkPath cwd dst s.volume with
    | ok unlinked =>
      dsimp only
      rw [List.getLastD_cons]
      exact hlinked target unlinked
    | error refusal =>
      cases refusal with
      | missing => exact hlinked target s.volume
      | _ => rfl

theorem directoryVolumes_last (hentries : ∀ s, (entriesVolumes cwd dst entries s).getLastD s.volume =
      (copyEntries cwd dst entries s).2.volume) :
    (treeVolumes cwd dst (.directory entries) s).getLastD s.volume =
      (copyTree cwd dst (.directory entries) s).2.volume := by
  rw [treeVolumes, copyTree]
  cases mkdirPath cwd dst s.volume with
  | ok made =>
    dsimp only
    rw [List.getLastD_cons]
    exact hentries { s with volume := made }
  | error refusal =>
    cases refusal with
    | taken =>
      dsimp only
      cases lstatPath cwd dst s.volume with
      | error e => rfl
      | ok x =>
        cases x with
        | directory => exact hentries s
        | file content => rfl
        | link target => rfl
    | _ => rfl

mutual

/-- The last of the volumes is what the copy leaves. -/
theorem treeVolumes_last (cwd : Place) : ∀ (t : Tree) (dst : Bytes) (s : CopyState),
    (treeVolumes cwd dst t s).getLastD s.volume = (copyTree cwd dst t s).2.volume
  | .file content, _, _ => fileVolumes_last content
  | .link stSize target, _, _ => linkVolumes_last stSize target.val
  | .directory entries, dst, _ => directoryVolumes_last (entriesVolumes_last cwd entries dst)

theorem entriesVolumes_last (cwd : Place) : ∀ (entries : Entries) (dst : Bytes) (s : CopyState),
    (entriesVolumes cwd dst entries s).getLastD s.volume = (copyEntries cwd dst entries s).2.volume
  | .nil, _, _ => rfl
  | .cons name tree rest, dst, s => by
    rw [entriesVolumes, copyEntries]
    by_cases hdots : IsDots name
    · rw [if_pos hdots, if_pos hdots]
      exact entriesVolumes_last cwd rest dst s
    · rw [if_neg hdots, if_neg hdots]
      have htree := treeVolumes_last cwd tree (joinPath dst name.val) s
      cases hcopy : copyTree cwd (joinPath dst name.val) tree s with
      | mk result s' =>
        rw [hcopy] at htree
        cases result with
        | error e => exact htree
        | ok _ =>
          dsimp only
          rw [getLastD_append, htree]
          exact entriesVolumes_last cwd rest dst s'

end

/-- A cut behind the last change is none. -/
theorem cutVolume_of_length_le {t : Tree} {changes : ℕ}
    (h : (treeVolumes cwd dst t s).length ≤ changes) :
    cutVolume cwd dst t s changes = (copyTree cwd dst t s).2.volume := by
  rw [cutVolume, List.take_of_length_le h]
  exact treeVolumes_last cwd t dst s

end Last

section Below
variable {cwd L : Place} {dst : Bytes} {v w : Volume} {s : CopyState} {entries : Entries}

theorem openedVolumes_grow (hdst : Settled cwd dst L v) {content : Bytes}
    (hw : w ∈ openedVolumes cwd dst content v) : Grows L v w := by
  rw [openedVolumes, openNoFollow_eq hdst.lookup] at hw
  cases hcreate : v.create L with
  | error e =>
    rw [hcreate] at hw
    cases hw
  | ok opened =>
    rw [hcreate] at hw
    obtain ⟨n, -, rfl⟩ := List.mem_map.mp hw
    obtain ⟨hleaf, hnode⟩ := Volume.create_node hcreate
    exact .of_update hleaf (Volume.append_created hnode _)

theorem unlinked_grows {unlinked : Volume} (hdst : Settled cwd dst L v)
    (h : unlinkPath cwd dst v = .ok unlinked) : Grows L v unlinked := by
  rw [unlinkPath, hdst.lookup] at h
  obtain ⟨hleaf, hnode⟩ := Volume.unlink_node h
  exact .of_update hleaf hnode

theorem fileVolumes_grow (hdst : Settled cwd dst L v) {content : Bytes}
    (hw : w ∈ fileVolumes cwd dst content v) : Grows L v w := by
  rw [fileVolumes] at hw
  split at hw
  · cases hunlink : unlinkPath cwd dst v with
    | error e =>
      rw [hunlink] at hw
      cases hw
    | ok unlinked =>
      rw [hunlink] at hw
      have hgrows := unlinked_grows hdst hunlink
      rcases List.mem_cons.mp hw with rfl | hw
      · exact hgrows
      · exact hgrows.trans (openedVolumes_grow (hdst.mono hgrows) hw)
  · exact openedVolumes_grow hdst hw

theorem linkVolumes_linked_grow (hdst : Settled cwd dst L v) {target : Bytes}
    (hw : w ∈ linkVolumes.linked cwd dst target v) : Grows L v w := by
  rw [linkVolumes.linked, symlinkPath, hdst.lookup] at hw
  split_ifs at hw with hempty
  · cases hw
  · cases hmake : v.make (.link (cstr target)) L with
    | error e =>
      rw [Except.bind, hmake] at hw
      cases hw
    | ok made =>
      rw [Except.bind, hmake] at hw
      obtain rfl := List.mem_singleton.mp hw
      obtain ⟨-, hfree, hnode⟩ := Volume.make_eq_ok hmake
      exact .of_update (v.ne_directory_of_none hfree) hnode

theorem linkVolumes_grow (hdst : Settled cwd dst L v) {stSize : ℕ} {target : Bytes}
    (hw : w ∈ linkVolumes cwd dst stSize target v) : Grows L v w := by
  rw [linkVolumes] at hw
  cases hread : readlinkLoop target (firstSize stSize) with
  | error e =>
    rw [hread] at hw
    cases hw
  | ok target =>
    rw [hread] at hw
    dsimp only at hw
    cases hunlink : unlinkPath cwd dst v with
    | ok unlinked =>
      rw [hunlink] at hw
      have hgrows := unlinked_grows hdst hunlink
      rcases List.mem_cons.mp hw with rfl | hw
      · exact hgrows
      · exact hgrows.trans (linkVolumes_linked_grow (hdst.mono hgrows) hw)
    | error refusal =>
      rw [hunlink] at hw
      cases refusal with
      | missing => exact linkVolumes_linked_grow hdst hw
      | _ => cases hw

theorem directoryVolumes_grow (hcwd : s.volume.node cwd = some .directory)
    (hdst : Settled cwd dst L s.volume)
    (hentries : ∀ s : CopyState, s.volume.node cwd = some .directory →
      s.volume.node L = some .directory → Settled cwd dst L s.volume →
        ∀ w ∈ entriesVolumes cwd dst entries s, Grows L s.volume w)
    (hw : w ∈ treeVolumes cwd dst (.directory entries) s) : Grows L s.volume w := by
  rw [treeVolumes, mkdirPath, hdst.lookupNew] at hw
  cases hmake : s.volume.make .directory L with
  | ok made =>
    rw [Except.bind, hmake] at hw
    obtain ⟨-, hfree, hnode⟩ := Volume.make_eq_ok hmake
    have hgrows : Grows L s.volume made := .of_update (s.volume.ne_directory_of_none hfree) hnode
    rcases List.mem_cons.mp hw with rfl | hw
    · exact hgrows
    · have hL : made.node L = some .directory := by rw [hnode, Function.update_self]
      exact hgrows.trans (hentries { s with volume := made } (hgrows.directories cwd hcwd) hL
        (hdst.mono hgrows) w hw)
  | error refusal =>
    rw [Except.bind, hmake] at hw
    cases refusal with
    | taken =>
      dsimp only at hw
      rw [lstatPath, hdst.lookup, Except.bind] at hw
      cases hL : s.volume.node L with
      | none =>
        rw [hL] at hw
        cases hw
      | some x =>
        rw [hL] at hw
        cases x with
        | directory => exact hentries s hcwd hL hdst w hw
        | file content => cases hw
        | link target => cases hw
    | _ => cases hw

mutual

/-- The induction over the source: whatever the copy goes through, it has changed its destination
alone. -/
theorem treeVolumes_grow (cwd : Place) : ∀ (t : Tree) {dst : Bytes} {L : Place} {s : CopyState},
    t.Distinct → s.volume.node cwd = some .directory → s.volume.node L.tail = some .directory →
      Settled cwd dst L s.volume → ∀ w ∈ treeVolumes cwd dst t s, Grows L s.volume w
  | .file _, _, _, _, _, _, _, hdst => fun _ hw => fileVolumes_grow hdst hw
  | .link _ _, _, _, _, _, _, _, hdst => fun _ hw => linkVolumes_grow hdst hw
  | .directory entries, _, _, _, hdistinct, hcwd, _, hdst => fun _ hw =>
    directoryVolumes_grow hcwd hdst (fun _ hcwd' hL hdst' =>
      entriesVolumes_grow cwd entries hdistinct hcwd' hL hdst') hw

theorem entriesVolumes_grow (cwd : Place) : ∀ (entries : Entries) {dst : Bytes} {L : Place}
    {s : CopyState}, entries.Distinct → s.volume.node cwd = some .directory →
      s.volume.node L = some .directory → Settled cwd dst L s.volume →
        ∀ w ∈ entriesVolumes cwd dst entries s, Grows L s.volume w
  | .nil, _, _, _, _, _, _, _ => by
    intro w hw
    cases hw
  | .cons name tree rest, dst, L, s, ⟨_, htree, hrest⟩, hcwd, hL, hdst => by
    intro w hw
    rw [entriesVolumes] at hw
    by_cases hdots : IsDots name
    · rw [if_pos hdots] at hw
      exact entriesVolumes_grow cwd rest hrest hcwd hL hdst w hw
    · rw [if_neg hdots] at hw
      have hparent : s.volume.node (name.val :: L).tail = some .directory := hL
      have hentry := hdst.entry hcwd hL (proper_of_not_isDots hdots)
      have hone := treeVolumes_grow cwd tree htree hcwd hparent hentry
      have hgrows := (copyTree_copied cwd tree htree hcwd hparent hentry).1.entry
      cases hcopy : copyTree cwd (joinPath dst name.val) tree s with
      | mk result s' =>
        rw [hcopy] at hw hgrows
        cases result with
        | error e => exact (hone w hw).entry
        | ok _ =>
          rcases List.mem_append.mp hw with hw | hw
          · exact (hone w hw).entry
          · exact hgrows.trans (entriesVolumes_grow cwd rest hrest (hgrows.directories cwd hcwd)
              (hgrows.directories L hL) (hdst.mono hgrows) w hw)

end

end Below

end Dumbos.Daemon
