import Dumbos.CTool.CommandSet

/-! # The size in the header of a payload file

`set-cmd` and `data-set` write a header and its data anew. None of the writers sets
the size in the header, so it is the one of the data that was there before.
-/
namespace Dumbos.CTool
open Foundation Foundation.Writing Common Payload Daemon

/-- Another file that a command reads, and how much of it can be read. -/
structure DataFile where
  content : Bytes
  readable : ℕ

/-- What a command meets. `room` is what the writes take whose result nobody looks at, `kept` is what
is in the file once it is closed. -/
structure World where
  target : Target
  dataFile : Except Errno DataFile
  malloc : Except Errno Unit
  room : ℕ
  kept : ℕ
  fwriteApp : ℕ → Except Errno Unit
  inputFile : ℕ → Bytes → InputFile

/-- The same world with another outcome of the load. -/
def World.loading (w : World) (load : Except Errno PayloadFile) : World :=
  { w with target := { w.target with load := load } }

def strncpy (n : ℕ) (s : Bytes) : Foundation.Field n :=
  ⟨s.take n ++ List.replicate (n - s.length) 0, by simp; omega⟩

/-- The one write of it is the one after opening the target. -/
def writeToDisk (target : Target) (bytes : Bytes) : Writing Errno Unit := do
  fopen target.fopen
  fwrite target.fwriteHeader bytes

def writeCmdWrapper (target : Target) (argv0 : Bytes) (args : List Bytes) : Writing Errno Unit :=
  if args.length ≠ 0 then throw EINVAL
  else do
    let loaded ← target.load
    writeToDisk target (headerWith loaded.payload (strncpy COMMAND_SIZE argv0))

def cmdOk : Target → Bytes → List Bytes → Writing Errno Unit := writeCmdWrapper
def cmdFileImportExport : Target → Bytes → List Bytes → Writing Errno Unit := writeCmdWrapper
def cmdAdbToggle : Target → Bytes → List Bytes → Writing Errno Unit := writeCmdWrapper
def cmdWifiToggle : Target → Bytes → List Bytes → Writing Errno Unit := writeCmdWrapper
def cmdOemToggle : Target → Bytes → List Bytes → Writing Errno Unit := writeCmdWrapper
def cmdFirewallFlush : Target → Bytes → List Bytes → Writing Errno Unit := writeCmdWrapper

def writeSize : ℕ := 4096

/-- The loop of `cmd_installthis`: a read that fails ends it, a write that comes short does not. -/
def copyChecked (rest : Bytes) (readable room : ℕ) : Writing Errno Unit :=
  let chunk := rest.take writeSize
  if readable < chunk.length then throw Common.EIO
  else if _h : chunk.length < writeSize then fwrite (.ok ()) (chunk.take room)
  else do
    fwrite (.ok ()) (chunk.take room)
    copyChecked (rest.drop writeSize) (readable - writeSize) (room - writeSize)
termination_by rest.length
decreasing_by
  simp only [chunk, List.length_take, writeSize] at _h
  simp only [List.length_drop, writeSize]
  omega

/-- The loop of `cmd_set_data`: it ends with the first round that does not write a full buffer. -/
def copyFull (rest : Bytes) (readable room : ℕ) : Bytes :=
  let chunk := ((rest.take writeSize).take readable).take room
  if _h : chunk.length = writeSize then
    chunk ++ copyFull (rest.drop writeSize) (readable - writeSize) (room - writeSize)
  else chunk
termination_by rest.length
decreasing_by
  simp only [chunk, List.length_take, writeSize] at _h
  simp only [List.length_drop, writeSize]
  omega

def cmdInstallthis (w : World) (args : List Bytes) : Writing Errno Unit :=
  if args.length ≠ 1 then throw EINVAL
  else do
    let loaded ← w.target.load
    let dataFile ← w.dataFile
    fopen w.target.fopen
    fwrite w.target.fwriteHeader
      (headerWith loaded.payload (strncpy COMMAND_SIZE CODE_CMD_INSTALLTHIS))
    w.malloc
    copyChecked dataFile.content dataFile.readable w.room

def cmdInstallpath (w : World) (args : List Bytes) : Writing Errno Unit :=
  match args with
  | [apkPath, sha256] =>
    if sha256.length ≠ 64 then throw EINVAL
    else do
      let loaded ← w.target.load
      w.malloc
      writeToDisk w.target (headerWith loaded.payload (strncpy COMMAND_SIZE CODE_CMD_INSTALL_PATH) ++
        (apkPath ++ [0] ++ (sha256 ++ [0])))
  | _ => throw EINVAL

/-- How much of a listed file there is to read behind so many bytes of the target. -/
def Source.lengthAtTurn (handed : ℕ) : Source → ℕ
  | .file bytes => bytes.length
  | .target flushed => min flushed handed

/-- How much the files of a composite make behind so many bytes of the target. -/
def entriesLength : ℕ → List InputFile → ℕ
  | _, [] => 0
  | before, file :: files =>
    let entry := 4 + file.source.lengthAtTurn before
    entry + entriesLength (before + entry) files

inductive Writer where
  | ok
  | installthis
  | installpath
  | fileImportExport
  | adbToggle
  | wifiToggle
  | oemToggle
  | firewallFlush
  | firewall
  | composite
deriving DecidableEq

namespace Writer

def ofCommand (cmd : Bytes) : Option Writer :=
  if cmd = CODE_CMD_OK then some ok
  else if cmd = CODE_CMD_INSTALLTHIS then some installthis
  else if cmd = CODE_CMD_INSTALL_PATH then some installpath
  else if cmd = CODE_CMD_FILE_IMPORT ∨ cmd = CODE_CMD_FILE_EXPORT then some fileImportExport
  else if cmd = CODE_CMD_ADB_ENABLE ∨ cmd = CODE_CMD_ADB_DISABLE then some adbToggle
  else if cmd = CODE_CMD_WIFI_ENABLE ∨ cmd = CODE_CMD_WIFI_DISABLE then some wifiToggle
  else if cmd = CODE_CMD_OEM_LOCK ∨ cmd = CODE_CMD_OEM_UNLOCK then some oemToggle
  else if cmd = CODE_CMD_FW_FLUSH then some firewallFlush
  else if cmd = CODE_CMD_FW_ALLOW ∨ cmd = CODE_CMD_FW_DENY ∨ cmd = CODE_CMD_FW_TEMP_ADD then
    some firewall
  else if cmd = CODE_CMD_COMPOSITE then some composite
  else none

def run (w : World) (argv0 : Bytes) (args : List Bytes) : Writer → Writing Errno Unit
  | ok => cmdOk w.target argv0 args
  | installthis => cmdInstallthis w args
  | installpath => cmdInstallpath w args
  | fileImportExport => cmdFileImportExport w.target argv0 args
  | adbToggle => cmdAdbToggle w.target argv0 args
  | wifiToggle => cmdWifiToggle w.target argv0 args
  | oemToggle => cmdOemToggle w.target argv0 args
  | firewallFlush => cmdFirewallFlush w.target argv0 args
  | firewall => cmdFirewall w.target argv0 (args.zipIdx.map fun (app, i) => ⟨app, w.fwriteApp i⟩)
  | composite => cmdComposite w.target argv0 (args.zipIdx.map fun (name, i) => w.inputFile i name)

/-- How much data the arguments make. -/
def dataLength (w : World) (args : List Bytes) : Writer → ℕ
  | installthis => match w.dataFile with
    | .ok dataFile => min w.room dataFile.content.length
    | .error _ => 0
  | installpath | firewall => (args.map (·.length + 1)).sum
  | composite => 2 + entriesLength (sizeofDumbPayload + 2)
      (args.zipIdx.map fun (name, i) => w.inputFile i name)
  | _ => 0

end Writer

def cmdCommandSet (w : World) (argv : List Bytes) : Writing Errno Unit :=
  match argv with
  | [] => throw EINVAL
  | cmd :: args => match Writer.ofCommand cmd with
    | some writer => writer.run w cmd args
    | none => throw EINVAL

/-- `cmd_set_data`; no write is looked at. -/
def cmdSetData (w : World) : Writing Errno Unit := do
  let loaded ← w.target.load
  let dataFile ← w.dataFile
  fopen w.target.fopen
  let header := (loaded.val.take sizeofDumbPayload).take w.room
  fwrite (.ok ()) header
  fwrite (.ok ()) (copyFull dataFile.content dataFile.readable (w.room - header.length))

inductive Invocation where
  | setCmd (argv : List Bytes)
  | dataSet

namespace Invocation

/-- How an invocation ends, and what it has handed over by then. -/
def writes (w : World) : Invocation → Except Errno Unit × Foundation.Stream
  | setCmd argv => cmdCommandSet w argv none
  | dataSet => cmdSetData w none

/-- The payload file after an invocation, which found `old` there. -/
def leaves (w : World) (old : Bytes) (invocation : Invocation) : Bytes :=
  (invocation.writes w).2.leaves old w.kept

/-- The payload file after an invocation that returns 0. -/
def run (w : World) (invocation : Invocation) : Except Errno Bytes :=
  (invocation.writes w).1.map fun _ => invocation.leaves w []

/-- How long the arguments, the data file and the disk let the payload file become. -/
def fileSize (w : World) : Invocation → ℕ
  | setCmd argv => match argv with
    | [] => 0
    | cmd :: args => match Writer.ofCommand cmd with
      | some writer => min w.kept (sizeofDumbPayload + writer.dataLength w args)
      | none => 0
  | dataSet => match w.dataFile with
    | .ok dataFile => min (min w.kept w.room)
      (sizeofDumbPayload + min dataFile.readable dataFile.content.length)
    | .error _ => 0

end Invocation

/-- A file that passes the size check. -/
def ValidFile (file : Bytes) : Prop :=
  ∃ h : sizeofDumbPayload ≤ file.length, dpValidateSize (DumbPayload.ofBytes file h) file.length

instance (file : Bytes) : Decidable (ValidFile file) :=
  inferInstanceAs (Decidable (∃ _ : _ ≤ _, _))

theorem validFile_of_length {file old : Bytes} (hle : sizeofDumbPayload ≤ file.length)
    (holdLe : sizeofDumbPayload ≤ old.length)
    (hvalid : dpValidateSize (DumbPayload.ofBytes old holdLe) old.length)
    (hsize : (DumbPayload.ofBytes file hle).dataSize = (DumbPayload.ofBytes old holdLe).dataSize) :
    dpValidateSize (DumbPayload.ofBytes file hle) file.length ↔ file.length = old.length := by
  obtain ⟨hmax, hlen⟩ := (dpValidateSize_iff _ _).mp hvalid
  rw [dpValidateSize_iff, hsize, ← hlen]
  exact and_iff_right hmax

theorem toBytes_take (p : DumbPayload) : p.toBytes.take sizeofDumbPayload = p.signature.val ++
    (p.expire.val ++ (p.command.val ++ (p.padding.val ++ p.dataSize.val))) := by
  have hlen : (p.signature.val ++ (p.expire.val ++ (p.command.val ++ (p.padding.val ++
      p.dataSize.val)))).length = sizeofDumbPayload := by
    simp only [List.length_append, p.signature.property, p.expire.property, p.command.property,
      p.padding.property, p.dataSize.property]
    rfl
  have hbytes : p.toBytes = p.signature.val ++ (p.expire.val ++ (p.command.val ++ (p.padding.val ++
      p.dataSize.val))) ++ p.payload := by
    simp only [DumbPayload.toBytes, List.append_assoc]
  rw [hbytes, List.take_left' hlen]

/-- A header with other data behind it. -/
theorem ofBytes_header_append (p : DumbPayload) (data : Bytes)
    (h : sizeofDumbPayload ≤ (p.toBytes.take sizeofDumbPayload ++ data).length) :
    DumbPayload.ofBytes (p.toBytes.take sizeofDumbPayload ++ data) h = { p with payload := data } := by
  have hheader : p.toBytes.take sizeofDumbPayload =
      ({ p with payload := data } : DumbPayload).toBytes.take sizeofDumbPayload := by
    rw [toBytes_take, toBytes_take]
  have hbytes : p.toBytes.take sizeofDumbPayload ++ data =
      ({ p with payload := data } : DumbPayload).toBytes := by
    rw [hheader]
    exact DumbPayload.take_toBytes_append _
  simp only [hbytes, DumbPayload.ofBytes_toBytes]

/-- A file that starts with the header of a valid one is valid if it is as long. -/
theorem validFile_take_iff {old data : Bytes} {p : DumbPayload} (holdLe : sizeofDumbPayload ≤ old.length)
    (hvalid : dpValidateSize (DumbPayload.ofBytes old holdLe) old.length)
    (hsize : p.dataSize = (DumbPayload.ofBytes old holdLe).dataSize) (k : ℕ) :
    ValidFile ((p.toBytes.take sizeofDumbPayload ++ data).take k) ↔
      min k (sizeofDumbPayload + data.length) = old.length := by
  have hheader : (p.toBytes.take sizeofDumbPayload).length = sizeofDumbPayload :=
    List.length_take_of_le p.le_toBytes_length
  have hlength : ((p.toBytes.take sizeofDumbPayload ++ data).take k).length =
      min k (sizeofDumbPayload + data.length) := by
    rw [List.length_take, List.length_append, hheader]
  have hdata : sizeofDumbPayload ≤ k → (p.toBytes.take sizeofDumbPayload ++ data).take k =
      p.toBytes.take sizeofDumbPayload ++ data.take (k - sizeofDumbPayload) := by
    intro hk
    rw [List.take_append, hheader, List.take_of_length_le (hheader.trans_le hk)]
  have hdataSize : ∀ h, (DumbPayload.ofBytes ((p.toBytes.take sizeofDumbPayload ++ data).take k) h).dataSize =
      (DumbPayload.ofBytes old holdLe).dataSize := by
    intro h
    have hk : sizeofDumbPayload ≤ k := by
      rw [hlength] at h
      omega
    simp only [hdata hk, ofBytes_header_append]
    exact hsize
  rw [← hlength]
  constructor
  · rintro ⟨h, hnew⟩
    exact (validFile_of_length h holdLe hvalid (hdataSize h)).mp hnew
  · intro h
    have hle := holdLe.trans h.ge
    exact ⟨hle, (validFile_of_length hle holdLe hvalid (hdataSize hle)).mpr h⟩

theorem take_take_append {α : Type} (l : List α) (n k : ℕ) :
    (l.take n).take k ++ (l.drop n).take (k - n) = l.take k := by
  conv_rhs => rw [← List.take_append_drop n l, List.take_append]
  by_cases hn : n ≤ l.length
  · rw [List.length_take_of_le hn]
  · rw [List.drop_of_length_le (not_le.mp hn).le, List.take_nil, List.take_nil]

/-- The loop of `cmd_installthis` hands over what the file takes of the data. -/
theorem copyChecked_eq_ok {rest before : Bytes} {readable room : ℕ} {u : Unit} {t : Foundation.Stream}
    (h : copyChecked rest readable room (some before) = (.ok u, t)) :
    t = some (before ++ rest.take room) := by
  rw [copyChecked] at h
  split_ifs at h with hfailed hlast
  · cases h
  · rw [fwrite_eq_ok h, Option.map_some]
    rw [List.length_take] at hlast
    rw [List.take_of_length_le (by omega : rest.length ≤ writeSize)]
  · obtain ⟨_, _, hwrite, hrest⟩ := exists_of_bind h
    rw [fwrite_eq_ok hwrite, Option.map_some] at hrest
    rw [copyChecked_eq_ok hrest, List.append_assoc, take_take_append]
termination_by rest.length
decreasing_by
  simp only [List.length_take, writeSize] at hlast
  simp only [List.length_drop, writeSize]
  omega

/-- The loop of `cmd_set_data` leaves what can be read and is taken. -/
theorem copyFull_eq (rest : Bytes) (readable room : ℕ) :
    copyFull rest readable room = rest.take (min room readable) := by
  rw [copyFull, List.take_take, List.take_take]
  split_ifs with hfull
  · have hmin : min (room - writeSize) (readable - writeSize) = min room readable - writeSize := by
      omega
    rw [copyFull_eq, hmin, ← List.take_take, take_take_append]
  · rw [List.length_take] at hfull
    rw [List.take_eq_take_iff]
    omega
termination_by rest.length
decreasing_by
  simp only [List.length_take, writeSize] at hfull
  simp only [List.length_drop, writeSize]
  omega

/-- What a writer that succeeds has handed over: the loaded header under another command, and so much
data. -/
def Rewrites (w : World) (stream : Foundation.Stream) (n : ℕ) : Prop :=
  ∃ file, w.target.load = .ok file ∧ ∃ command data,
    stream = some (headerWith file.payload command ++ data) ∧ data.length = n

section Writers
variable {w : World} {argv0 : Bytes} {args : List Bytes} {s t : Foundation.Stream} {u : Unit}

theorem writeToDisk_eq_ok {target : Target} {bytes : Bytes}
    (h : writeToDisk target bytes s = (.ok u, t)) : t = some bytes := by
  obtain ⟨_, _, hopen, hwrite⟩ := exists_of_bind h
  rw [fopen_eq_ok hopen] at hwrite
  exact fwrite_eq_ok hwrite

theorem writeCmdWrapper_rewrites (h : writeCmdWrapper w.target argv0 args s = (.ok u, t)) :
    Rewrites w t 0 := by
  rw [writeCmdWrapper] at h
  split_ifs at h
  · cases h
  · obtain ⟨file, _, hlift, hwrite⟩ := exists_of_bind h
    refine ⟨file, (lift_eq_ok hlift).1, strncpy COMMAND_SIZE argv0, [], ?_, rfl⟩
    rw [List.append_nil]
    exact writeToDisk_eq_ok hwrite

theorem cmdInstallthis_rewrites (h : cmdInstallthis w args s = (.ok u, t)) :
    Rewrites w t (Writer.installthis.dataLength w args) := by
  rw [cmdInstallthis] at h
  split_ifs at h
  · cases h
  · obtain ⟨file, _, hload, hrest₁⟩ := exists_of_bind h
    obtain ⟨dataFile, _, hdataFile, hrest₂⟩ := exists_of_bind hrest₁
    obtain ⟨_, _, hopen, hrest₃⟩ := exists_of_bind hrest₂
    obtain ⟨_, _, hheader, hrest₄⟩ := exists_of_bind hrest₃
    obtain ⟨_, _, hmalloc, hcopy⟩ := exists_of_bind hrest₄
    rw [(lift_eq_ok hmalloc).2, fwrite_eq_ok hheader, fopen_eq_ok hopen, Option.map_some,
      List.nil_append] at hcopy
    refine ⟨file, (lift_eq_ok hload).1, _, _, copyChecked_eq_ok hcopy, ?_⟩
    rw [List.length_take, Writer.dataLength, (lift_eq_ok hdataFile).1]

theorem cmdInstallpath_rewrites (h : cmdInstallpath w args s = (.ok u, t)) :
    Rewrites w t (Writer.installpath.dataLength w args) := by
  match args with
  | [apkPath, sha256] =>
    rw [cmdInstallpath] at h
    split_ifs at h
    · cases h
    · obtain ⟨file, _, hload, hrest⟩ := exists_of_bind h
      obtain ⟨_, _, -, hwrite⟩ := exists_of_bind hrest
      refine ⟨file, (lift_eq_ok hload).1, _, _, writeToDisk_eq_ok hwrite, ?_⟩
      simp [Writer.dataLength]
      omega
  | [] => cases h
  | [_] => cases h
  | _ :: _ :: _ :: _ => cases h

theorem cmdFirewall_rewrites (h : Writer.firewall.run w argv0 args s = (.ok u, t)) :
    Rewrites w t (Writer.firewall.dataLength w args) := by
  obtain ⟨file, hload, rfl⟩ := cmdFirewall_eq_ok h
  refine ⟨file, hload, _, _, rfl, ?_⟩
  have hargs : args.zipIdx.map Prod.fst = args := List.zipIdx_map_fst 0 args
  conv_rhs => rw [Writer.dataLength, ← hargs]
  rw [List.length_flatMap, List.map_map, List.map_map, List.map_map]
  congr 1
  apply List.map_congr_left
  intro arg _
  exact List.length_append

theorem entriesRead_flatMap_length (before : Bytes) (files : List InputFile) :
    ((entriesRead before files).flatMap compositeEntry).length =
      entriesLength before.length files := by
  have hturn : ∀ (source : Source) (handed : Bytes),
      (source.atTurn handed).length = source.lengthAtTurn handed.length := by
    intro source handed
    cases source with
    | file bytes => rfl
    | target flushed => exact List.length_take
  induction files generalizing before with
  | nil => rfl
  | cons file files ih =>
    rw [entriesRead, List.flatMap_cons, List.length_append, ih, List.length_append,
      compositeEntry_length, hturn, entriesLength]

theorem cmdComposite_rewrites (h : Writer.composite.run w argv0 args s = (.ok u, t)) :
    Rewrites w t (Writer.composite.dataLength w args) := by
  obtain ⟨file, hload, rfl⟩ := cmdComposite_eq_ok h
  refine ⟨file, hload, _, _, rfl, ?_⟩
  rw [compositeData, List.length_append, be16_length, entriesRead_flatMap_length, List.length_append,
    headerUnder_length, be16_length]
  rfl

theorem Writer.run_rewrites {writer : Writer} (h : writer.run w argv0 args s = (.ok u, t)) :
    Rewrites w t (writer.dataLength w args) := by
  cases writer with
  | ok => exact writeCmdWrapper_rewrites h
  | installthis => exact cmdInstallthis_rewrites h
  | installpath => exact cmdInstallpath_rewrites h
  | fileImportExport => exact writeCmdWrapper_rewrites h
  | adbToggle => exact writeCmdWrapper_rewrites h
  | wifiToggle => exact writeCmdWrapper_rewrites h
  | oemToggle => exact writeCmdWrapper_rewrites h
  | firewallFlush => exact writeCmdWrapper_rewrites h
  | firewall => exact cmdFirewall_rewrites h
  | composite => exact cmdComposite_rewrites h

end Writers

/-- Behind the opening of the target nothing in `cmd_set_data` fails. -/
theorem cmdSetData_cases (w : World) :
    (∃ e, cmdSetData w none = (.error e, none)) ∨ ∃ loaded dataFile, w.target.load = .ok loaded ∧
      w.dataFile = .ok dataFile ∧ cmdSetData w none = (.ok (), some
        ((loaded.val.take sizeofDumbPayload ++ dataFile.content.take dataFile.readable).take w.room)) := by
  rw [cmdSetData]
  cases w.target.load with
  | error e => exact Or.inl ⟨e, rfl⟩
  | ok loaded =>
    cases w.dataFile with
    | error e => exact Or.inl ⟨e, rfl⟩
    | ok dataFile =>
      cases w.target.fopen with
      | error e => exact Or.inl ⟨e, rfl⟩
      | ok _ =>
        refine Or.inr ⟨loaded, dataFile, rfl, rfl, ?_⟩
        have hroom : w.room - ((loaded.val.take sizeofDumbPayload).take w.room).length =
            w.room - (loaded.val.take sizeofDumbPayload).length := by
          rw [List.length_take]
          omega
        change (Except.ok (), some (([] ++ (loaded.val.take sizeofDumbPayload).take w.room) ++ copyFull
          dataFile.content dataFile.readable
          (w.room - ((loaded.val.take sizeofDumbPayload).take w.room).length))) = _
        rw [copyFull_eq, hroom, List.nil_append, List.take_append, ← List.take_take]

theorem Invocation.run_eq_ok {w : World} {invocation : Invocation} {new : Bytes}
    (h : invocation.run w = .ok new) :
    ∃ stream, invocation.writes w = (.ok (), stream) ∧ new = stream.leaves [] w.kept := by
  rw [Invocation.run, Invocation.leaves] at h
  rcases hwrites : invocation.writes w with ⟨result, stream⟩
  rw [hwrites] at h
  cases result with
  | error e => cases h
  | ok _ =>
    cases h
    exact ⟨stream, rfl, rfl⟩

/-- A valid payload file that an invocation has rewritten is valid exactly if it is as long as it
was. -/
theorem invocation_validFile_iff {w : World} {old : Bytes}
    (hload : ∀ loaded, w.target.load = .ok loaded → loaded.val = old) (hvalid : ValidFile old)
    (invocation : Invocation) {new : Bytes} (hret : invocation.run w = .ok new) :
    ValidFile new ↔ invocation.fileSize w = old.length := by
  obtain ⟨holdLe, hvalid⟩ := hvalid
  obtain ⟨stream, hwrites, rfl⟩ := Invocation.run_eq_ok hret
  cases invocation with
  | setCmd argv =>
    rw [Invocation.writes] at hwrites
    cases argv with
    | nil => cases hwrites
    | cons cmd args =>
      rw [cmdCommandSet] at hwrites
      rw [Invocation.fileSize]
      cases hwriter : Writer.ofCommand cmd with
      | none =>
        rw [hwriter] at hwrites
        cases hwrites
      | some writer =>
        rw [hwriter] at hwrites
        obtain ⟨loaded, hloaded, command, data, rfl, hlength⟩ := Writer.run_rewrites hwrites
        obtain rfl := hload loaded hloaded
        dsimp only
        rw [← hlength]
        exact @validFile_take_iff loaded.val data { loaded.payload with command := command } holdLe
          hvalid rfl w.kept
  | dataSet =>
    rw [Invocation.writes] at hwrites
    rcases cmdSetData_cases w with ⟨e, herror⟩ | ⟨loaded, dataFile, hloaded, hdataFile, hset⟩
    · rw [herror] at hwrites
      cases hwrites
    · rw [hset] at hwrites
      cases hwrites
      obtain rfl := hload loaded hloaded
      have hiff := @validFile_take_iff loaded.val (dataFile.content.take dataFile.readable)
        (DumbPayload.ofBytes loaded.val holdLe) holdLe hvalid rfl (min w.kept w.room)
      rw [DumbPayload.toBytes_ofBytes, List.length_take] at hiff
      rw [Invocation.fileSize, hdataFile, Stream.leaves, List.take_take]
      exact hiff

def oneApp : Bytes :=
  (DumbPayload.unsigned (ascii "0") (ascii "fw-allow") (ascii "a" ++ [0])).toBytes

/-- A disk that takes everything. -/
def oneAppWorld : World where
  target := ⟨.ok ⟨oneApp, DumbPayload.le_toBytes_length _⟩, .ok (), .ok (), .ok ()⟩
  dataFile := .ok ⟨[], 0⟩
  malloc := .ok ()
  room := 1000
  kept := 1000
  fwriteApp := fun _ => .ok ()
  inputFile := fun _ _ => calmFile (.file [])

theorem oneApp_valid : ValidFile oneApp := by decide +kernel

/-- An app in the place of another whose name is as long. -/
theorem invocation_validFile_iff_sameLength : ∃ new,
    (Invocation.setCmd [CODE_CMD_FW_DENY, ascii "b"]).run oneAppWorld = .ok new ∧ ValidFile new := by
  have hok : ((Invocation.setCmd [CODE_CMD_FW_DENY, ascii "b"]).run oneAppWorld).isOk := by
    decide +kernel
  cases hret : (Invocation.setCmd [CODE_CMD_FW_DENY, ascii "b"]).run oneAppWorld with
  | error e =>
    rw [hret] at hok
    cases hok
  | ok new =>
    refine ⟨new, rfl, (@invocation_validFile_iff oneAppWorld oneApp ?_ oneApp_valid _ new hret).mpr
      (by decide +kernel)⟩
    rintro loaded ⟨⟩
    rfl

/-- A command without arguments leaves a file that is shorter than its header says. -/
theorem not_invocation_validFile : ValidFile oneApp ∧ ∃ new,
    (Invocation.setCmd [CODE_CMD_OK]).run oneAppWorld = .ok new ∧ ¬ValidFile new := by
  refine ⟨oneApp_valid,
    (headerWith (DumbPayload.unsigned (ascii "0") (ascii "fw-allow") (ascii "a" ++ [0]))
      (strncpy COMMAND_SIZE CODE_CMD_OK)), ?_, ?_⟩
  · decide +kernel
  · decide +kernel

end Dumbos.CTool
