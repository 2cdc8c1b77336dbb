import Dumbos.Foundation.Volume

/-! # A volume at a directory of another one

While a volume is mounted, its places stand below the mount point and hide what the
directory has held. Whatever is done meanwhile, each of the two keeps its own places:
the places below the mount point are those of the mounted volume, the others are those
of the one that it is mounted in.
-/
namespace Dumbos.Foundation

/-- The names below a directory. -/
def inner (point p : Place) : Place := p.take (p.length - point.length)

@[simp] theorem inner_append (point rel : Place) : inner point (rel ++ point) = rel := by
  have hlen : (rel ++ point).length - point.length = rel.length := by
    rw [List.length_append, Nat.add_sub_cancel]
  rw [inner, hlen, List.take_left]

@[simp] theorem isSuffixOf_append (point rel : Place) : point.isSuffixOf (rel ++ point) = true := by
  rw [List.isSuffixOf_iff_suffix]
  exact List.suffix_append rel point

namespace Volume
variable (v drive view : Volume) {point p rel : Place}

/-- What a process sees while one volume is mounted in another. -/
def mounted (point p : Place) : Option Node :=
  if point.isSuffixOf p then drive.node (inner point p) else v.node p

theorem mounted_append : v.mounted drive point (rel ++ point) = drive.node rel := by
  rw [mounted, if_pos (isSuffixOf_append point rel), inner_append]

theorem mounted_outside (h : ¬point <:+ p) : v.mounted drive point p = v.node p := by
  rw [mounted, if_neg]
  rwa [List.isSuffixOf_iff_suffix]

theorem mounted_point : v.mounted drive point point = some .directory := by
  have hpoint := @v.mounted_append drive point []
  rw [List.nil_append] at hpoint
  rw [hpoint, drive.root]

theorem mounted_root : v.mounted drive point [] = some .directory := by
  by_cases h : point = []
  · subst h
    exact v.mounted_point drive
  · rw [mounted_outside]
    · exact v.root
    · rwa [List.suffix_nil]

theorem mounted_inside (hpoint : v.node point = some .directory) (name : Bytes) (dir : Place)
    (h : v.mounted drive point (name :: dir) ≠ none) :
    v.mounted drive point dir = some .directory := by
  by_cases hdir : point <:+ dir
  · obtain ⟨rel, rfl⟩ := hdir
    rw [← List.cons_append, mounted_append] at h
    rw [mounted_append]
    exact drive.inside name rel h
  · rw [mounted_outside _ _ hdir]
    by_cases hp : point = name :: dir
    · subst hp
      exact v.directory_tail hpoint
    · apply v.inside name dir
      rwa [mounted_outside] at h
      rw [List.suffix_cons_iff, not_or]
      exact ⟨hp, hdir⟩

def mount (hpoint : v.node point = some .directory) : Volume where
  node := v.mounted drive point
  root := v.mounted_root drive
  inside := v.mounted_inside drive hpoint

theorem inner_inside (name : Bytes) (dir : Place)
    (h : view.node ((name :: dir) ++ point) ≠ none) : view.node (dir ++ point) = some .directory :=
  view.inside name (dir ++ point) h

/-- The volume that is mounted, as it is seen. -/
def takeOff (hpoint : view.node point = some .directory) : Volume where
  node rel := view.node (rel ++ point)
  root := hpoint
  inside := view.inner_inside

/-- What is seen, with what is hidden. -/
def uncovered (point p : Place) : Option Node :=
  if point.isSuffixOf p then v.node p else view.node p

theorem uncovered_outside (h : ¬point <:+ p) : v.uncovered view point p = view.node p := by
  rw [uncovered, if_neg]
  rwa [List.isSuffixOf_iff_suffix]

theorem uncovered_below (h : point <:+ p) : v.uncovered view point p = v.node p := by
  rw [uncovered, if_pos]
  rwa [List.isSuffixOf_iff_suffix]

theorem uncovered_root : v.uncovered view point [] = some .directory := by
  by_cases h : point <:+ []
  · rw [uncovered_below _ _ h]
    exact v.root
  · rw [uncovered_outside _ _ h]
    exact view.root

theorem uncovered_inside (hpoint : view.node point = some .directory) (name : Bytes) (dir : Place)
    (h : v.uncovered view point (name :: dir) ≠ none) :
    v.uncovered view point dir = some .directory := by
  by_cases hdir : point <:+ dir
  · rw [uncovered_below _ _ (hdir.trans (List.suffix_cons name dir))] at h
    rw [uncovered_below _ _ hdir]
    exact v.inside name dir h
  · rw [uncovered_outside _ _ hdir]
    by_cases hp : point = name :: dir
    · subst hp
      exact view.directory_tail hpoint
    · apply view.inside name dir
      rwa [uncovered_outside] at h
      rw [List.suffix_cons_iff, not_or]
      exact ⟨hp, hdir⟩

/-- The volume that the other one is mounted in. -/
def uncover (hpoint : view.node point = some .directory) : Volume where
  node := v.uncovered view point
  root := v.uncovered_root view
  inside := v.uncovered_inside view hpoint

variable {v drive view}

end Volume

end Dumbos.Foundation
