import Dumbos.Daemon.CopyCut
import Dumbos.Daemon.PayloadCmd
import Dumbos.Foundation.Mounts

/-! # Copying from and to a removable drive

`mount_copy_unmount_ns` clones a process into a mount namespace of its own. The child
mounts the drive, copies the tree, unmounts and says through a pipe how it went; the
parent waits for it and reads the pipe. Any call of either can fail and the child can
be killed in any of them. What is told as done has been copied whole, and what fails
leaves a part of the copy at most. What is written waits in the page cache first: a
`syncfs` that fails is only logged, so a copy that is told as done can still get lost
on its way to the drive.
-/
namespace Dumbos.Daemon.Namespaces
open Foundation Common

/-- How a call of the child goes. -/
inductive Fate where
  | done
  | fails (e : Errno)
  | killed

/-- How the copy goes: every call of it is made, or it ends behind so many changes. -/
inductive CopyFate where
  | runs (calls : List (Option ℕ))
  | fails (e : Errno) (changes : ℕ)
  | killed (changes : ℕ)

/-- What becomes of the pages of a drive that have been written. They all get there, or that fails and
something is left of the file system, or nothing. -/
inductive WriteBack where
  | whole
  | fails (left : Option Volume)

/-- What a drive has when it has been taken off. Behind a `syncfs` there is nothing more to write. -/
def WriteBack.stored (w : WriteBack) (synced : Bool) (written : Volume) : Option Volume :=
  match w with
  | .whole => some written
  | .fails left => if synced then some written else left

/-- `noVolume` is why `mount` refuses a device that has no file system to mount. -/
structure ChildCalls where
  makePrivate : Fate
  noVolume : Errno
  mount : Fate
  clock : Fate
  copy : CopyFate
  sync : Fate
  umount : Fate
  tell : Fate
  /-- It is not killed between its last call and its exit. -/
  exits : Bool
  writeBack : WriteBack

structure ParentCalls where
  pipe : Except Errno Unit
  mmap : Except Errno Unit
  clone : Except Errno Unit
  child : ChildCalls
  /-- Behind the interruptions. -/
  waitpid : Except Errno Unit
  readAll : Except Errno Unit

/-- What is copied. `source` is what the calls on the source find in a view of the file systems. -/
structure Copy where
  device : Bytes
  point : Place
  cwd : Place
  source : Volume → Except Errno Tree
  dst : Bytes

/-- `wait_status`: the code of `exit`, and none when a signal has ended the process; and what the pipe
holds then. -/
structure ChildEnd where
  code : Option ℕ
  status : Option (ℤ × ℕ)

/-- The storage of the device, the block devices with a file system, and what is mounted in the
namespaces of the daemon and of the child. -/
structure Kernel where
  phone : Volume
  drive : Bytes → Option Volume
  mounts : List (Bytes × Place)
  childMounts : List (Bytes × Place)
  /-- The two namespaces propagate to each other. -/
  shared : Bool

/-- `CLONE_NEWNS`. -/
def Kernel.clone (k : Kernel) : Kernel := { k with childMounts := k.mounts, shared := true }

def Kernel.makePrivate (k : Kernel) : Kernel := { k with shared := false }

def Kernel.mount (k : Kernel) (m : Bytes × Place) : Kernel :=
  { k with
    childMounts := m :: k.childMounts
    mounts := if k.shared then m :: k.mounts else k.mounts }

def Kernel.umount (k : Kernel) : Kernel :=
  { k with
    childMounts := k.childMounts.tail
    mounts := if k.shared then k.mounts.tail else k.mounts }

/-- What the file systems hold once a view of them has become theirs, the drive what is stored of it. A
directory that something is mounted at stays one. -/
def Kernel.keep (k : Kernel) (device : Bytes) (point : Place) (view : Volume)
    (stored : Volume → Option Volume) : Kernel :=
  if h : view.node point = some .directory then
    { k with
      phone := k.phone.uncover view h
      drive := Function.update k.drive device (stored (view.takeOff h)) }
  else k

def signaled : ChildEnd := ⟨none, none⟩

/-- `rc` and `err`. -/
def childStatus : Except Errno Unit → ℤ × ℕ
  | .ok () => (0, 0)
  | .error e => (-1, e)

def exitCode (calls : ChildCalls) (result : Except Errno Unit) : Option ℕ :=
  if calls.exits then some (match result with
    | .ok () => 0
    | .error _ => 1)
  else none

/-- The end of `child_main`: what is told, and an exit that says the same. -/
def finish (calls : ChildCalls) (result : Except Errno Unit) : ChildEnd :=
  match calls.tell with
  | .killed => signaled
  | .fails _ => ⟨exitCode calls result, none⟩
  | .done => ⟨exitCode calls result, some (childStatus result)⟩

/-- Behind `out` with the drive mounted; a failing `umount` counts only if nothing has failed. -/
def unmountAndFinish (calls : ChildCalls) (result : Except Errno Unit) (k : Kernel) :
    ChildEnd × Kernel :=
  match calls.umount with
  | .killed => (signaled, k)
  | .fails e => (finish calls (result.bind fun _ => .error e), k)
  | .done => (finish calls result, k.umount)

/-- How the copy ends: what has failed, or none when the process is killed, what is seen then, and
whether all of it has been written to the drive. -/
structure CopyEnd where
  result : Option (Except Errno Unit)
  view : Volume
  synced : Bool

/-- From the mounted drive to the end of the copy. -/
def copyInView (q : Copy) (calls : ChildCalls) (view : Volume) : CopyEnd :=
  match calls.clock with
  | .killed => ⟨none, view, false⟩
  | .fails e => ⟨some (.error e), view, false⟩
  | .done => match q.source view with
    | .error e => ⟨some (.error e), view, false⟩
    | .ok source => match measureTree source 0 with
      | .error e => ⟨some (.error e), view, false⟩
      | .ok _ => match calls.copy with
        | .killed changes => ⟨none, cutVolume q.cwd q.dst source ⟨view, 0, []⟩ changes, false⟩
        | .fails e changes =>
          ⟨some (.error e), cutVolume q.cwd q.dst source ⟨view, 0, []⟩ changes, false⟩
        | .runs transfers => match copyTree q.cwd q.dst source ⟨view, 0, transfers⟩ with
          | (.error e, s) => ⟨some (.error e), s.volume, false⟩
          -- what becomes of `syncfs` is only logged
          | (.ok (), s) => match calls.sync with
            | .killed => ⟨none, s.volume, false⟩
            | .fails _ => ⟨some (.ok ()), s.volume, false⟩
            | .done => ⟨some (.ok ()), s.volume, true⟩

def childMain (q : Copy) (calls : ChildCalls) (k : Kernel) : ChildEnd × Kernel :=
  match calls.makePrivate with
  | .killed => (signaled, k)
  | .fails e => (finish calls (.error e), k)
  | .done => match calls.mount, k.drive q.device with
    | .killed, _ => (signaled, k.makePrivate)
    | .fails e, _ => (finish calls (.error e), k.makePrivate)
    | .done, none => (finish calls (.error calls.noVolume), k.makePrivate)
    | .done, some drive =>
      if h : k.phone.node q.point = some .directory then
        let copied := copyInView q calls (k.phone.mount drive h)
        let k' := (k.makePrivate.mount (q.device, q.point)).keep q.device q.point copied.view
          (calls.writeBack.stored copied.synced)
        match copied.result with
        | none => (signaled, k')
        | some result => unmountAndFinish calls result k'
      else
        -- the mount point is no symbolic link
        let e := if k.phone.node q.point = none then ENOENT else ENOTDIR
        (finish calls (.error e), k.makePrivate)

/-- The pipe is read when the child has ended, so an empty one is at its end. -/
def readStatus (calls : ParentCalls) (ended : ChildEnd) : Except Errno (ℤ × ℕ) :=
  match calls.readAll, ended.status with
  | .error e, _ => .error e
  | .ok (), none => .error EIO
  | .ok (), some status => .ok status

/-- What the parent returns of what it has read. -/
def parentResult (calls : ParentCalls) (ended : ChildEnd) : Except Errno Unit :=
  match readStatus calls ended with
  | .error e => .error (if ended.code = none then ECHILD else e)
  | .ok (rc, err) =>
    if ended.code ≠ some 0 ∨ rc ≠ 0 then .error (if h : 0 < err then ⟨err, h⟩ else EIO)
    else .ok ()

/-- No argument is NULL. -/
def mountCopyUnmountNs (q : Copy) (calls : ParentCalls) (k : Kernel) : Except Errno Unit × Kernel :=
  match calls.pipe, calls.mmap, calls.clone with
  | .error e, _, _ => (.error e, k)
  | .ok (), .error e, _ => (.error e, k)
  | .ok (), .ok (), .error e => (.error e, k)
  | .ok (), .ok (), .ok () =>
    let ended := childMain q calls.child k.clone
    match calls.waitpid with
    | .error e => (.error e, ended.2)
    | .ok () => (parentResult calls ended.1, ended.2)

/-- What a copy leaves in the cache gets to the drive. -/
def Kept (calls : ChildCalls) : Prop := calls.writeBack = .whole ∨ calls.sync = .done

section Child
variable {q : Copy} {calls : ChildCalls} {L : Place} {view : Volume} {k : Kernel}

/-- The file systems have become what a view of them has become, and the drive has all of it. -/
def Changed (q : Copy) (k k' : Kernel) (whole : Prop) (P : Volume → Volume → Prop) : Prop :=
  ∃ drive, ∃ hpoint : k.phone.node q.point = some .directory,
    ∃ view, ∃ hview : view.node q.point = some .directory, ∃ stored,
      k.drive q.device = some drive ∧ P (k.phone.mount drive hpoint) view ∧
        k'.phone = k.phone.uncover view hview ∧
          k'.drive = Function.update k.drive q.device stored ∧
            (whole → stored = some (view.takeOff hview))

theorem Changed.mono {k' : Kernel} {whole whole' : Prop} {P Q : Volume → Volume → Prop}
    (h : Changed q k k' whole P) (hwhole : whole' → whole)
    (himp : ∀ view view', P view view' → Q view view') : Changed q k k' whole' Q := by
  obtain ⟨drive, hpoint, view, hview, stored, hdrive, hP, hphone, hdrives, hstored⟩ := h
  exact ⟨drive, hpoint, view, hview, stored, hdrive, himp _ _ hP, hphone, hdrives,
    fun h => hstored (hwhole h)⟩

end Child

/-- The first partition under either naming scheme, and the whole drive. -/
def partition : ℕ → String
  | 0 => "1"
  | 1 => "p1"
  | _ => ""

def blockDevice (devname : Bytes) (i : ℕ) : Bytes :=
  ascii "/dev/block/" ++ devname ++ ascii (partition i)

section Attempts
variable (q : Bytes → Copy) (devname : Bytes) (calls : ℕ → ParentCalls)

/-- The call with one of the names. -/
def attempt (i : ℕ) (k : Kernel) : Except Errno Unit × Kernel :=
  mountCopyUnmountNs (q (blockDevice devname i)) (calls i) k

def tryMountCopy (k : Kernel) : Except Errno Unit × Kernel :=
  match attempt q devname calls 0 k with
  | (.ok (), k) => (.ok (), k)
  | (.error _, k) => match attempt q devname calls 1 k with
    | (.ok (), k) => (.ok (), k)
    | (.error _, k) => attempt q devname calls 2 k

end Attempts

section Export
variable {source : Volume → Except Errno Tree} {now : ℤ} {k : Kernel} {device : Bytes}

/-- A device has a drive before and after, on which nothing has changed but at one place, or none. -/
def DriveGrows (L : Place) (device : Bytes) (k k' : Kernel) : Prop :=
  (k.drive device = none → k'.drive device = none) ∧
    ∀ drive, k.drive device = some drive →
      ∃ drive', k'.drive device = some drive' ∧ Grows L drive drive'

theorem DriveGrows.of_eq {L : Place} {k k' : Kernel} (h : k'.drive device = k.drive device) :
    DriveGrows L device k k' := by
  rw [DriveGrows, h]
  exact ⟨id, fun drive hdrive => ⟨drive, hdrive, .refl L drive⟩⟩

theorem DriveGrows.trans {L : Place} {k k' k'' : Kernel} (h : DriveGrows L device k k')
    (h' : DriveGrows L device k' k'') : DriveGrows L device k k'' := by
  refine ⟨fun hnone => h'.1 (h.1 hnone), fun drive hdrive => ?_⟩
  obtain ⟨drive', hdrive', hgrows⟩ := h.2 drive hdrive
  obtain ⟨drive'', hdrive'', hgrows'⟩ := h'.2 drive' hdrive'
  exact ⟨drive'', hdrive'', hgrows.trans hgrows'⟩

end Export

section Command
variable {D : Device} {q : Bytes → Copy} {devname : Bytes} {calls : ℕ → ParentCalls} {k : Kernel}

/-- The replies of a device to the calls that `try_mount_copy` makes, from a tick on, are those of the
kernel. -/
structure Answers (D : Device) (tick : ℕ) (q : Bytes → Copy) (devname : Bytes)
    (calls : ℕ → ParentCalls) (k : Kernel) : Prop where
  first : (D.reply tick).ret = 0 ↔ (attempt q devname calls 0 k).1 = .ok ()
  second : (attempt q devname calls 0 k).1 ≠ .ok () → ((D.reply (tick + 1)).ret = 0 ↔
    (attempt q devname calls 1 (attempt q devname calls 0 k).2).1 = .ok ())
  third : (attempt q devname calls 0 k).1 ≠ .ok () →
    (attempt q devname calls 1 (attempt q devname calls 0 k).2).1 ≠ .ok () →
      ((D.reply (tick + 2)).ret = 0 ↔ (attempt q devname calls 2
        (attempt q devname calls 1 (attempt q devname calls 0 k).2).2).1 = .ok ())

end Command

section Example

end Example

end Dumbos.Daemon.Namespaces
