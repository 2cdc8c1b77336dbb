import Dumbos.CTool.CommandRaw
import Dumbos.Daemon.Composite
import Dumbos.Foundation.Stream

/-! # Setting the command of a payload file

The commands of the C tool that put several arguments behind a header: the apps
of a firewall command, each with its NUL, and the files of a composite, each
behind its length. The target is cut to nothing before the arguments are read, and
closing it is not looked at.
-/
namespace Dumbos.CTool
open Foundation Foundation.Writing Common Payload Daemon

def LONG_MAX : ℕ := 9223372036854775807

/-- What the system does with the target: how it loads, opens and takes what precedes the list. -/
structure Target where
  load : Except Errno PayloadFile
  fopen : Except Errno Unit
  fwriteHeader : Except Errno Unit
  fwriteCount : Except Errno Unit

/-- What the name of a listed file leads to: a file with these bytes, or the target itself, of which
so much has left the buffer when its turn comes. -/
inductive Source where
  | file (bytes : Bytes)
  | target (flushed : ℕ)

/-- The bytes before the command, which finds `old` in the target. -/
def Source.content (old : Bytes) : Source → Bytes
  | .file bytes => bytes
  | .target _ => old

/-- The bytes when its turn comes. -/
def Source.atTurn (handed : Bytes) : Source → Bytes
  | .file bytes => bytes
  | .target flushed => handed.take flushed

/-- A file of a composite: how it is read, and how the two writes go. -/
structure InputFile where
  source : Source
  readEntireFile : Except Errno Unit
  fwriteSize : Except Errno Unit
  fwriteData : Except Errno Unit

/-- An argument of a firewall command, and how its write goes. -/
structure AppArg where
  app : Bytes
  fwrite : Except Errno Unit

/-- The header of a payload with another command in it. -/
def headerWith (payload : DumbPayload) (command : Foundation.Field COMMAND_SIZE) : Bytes :=
  { payload with command := command }.toBytes.take sizeofDumbPayload

/-- The header of a loaded file under a new command. -/
def headerUnder (loaded : PayloadFile) (argv0 : Bytes) : Bytes :=
  headerWith loaded.payload (loaded.payload.command.snprintf argv0)

/-- The header under its new command, without the data it had. -/
def writeHeader (target : Target) (argv0 : Bytes) : Writing Errno Unit := do
  let loaded ← target.load
  fopen target.fopen
  fwrite target.fwriteHeader (headerUnder loaded argv0)

/-- One round over the apps; characters that no package name has only give a warning. -/
def writeApp (arg : AppArg) : Writing Errno Unit := fwrite arg.fwrite (arg.app ++ [0])

/-- One round over the files of a composite. -/
def writePayload (file : InputFile) : Writing Errno Unit := do
  file.readEntireFile
  let nextPayload := file.source.atTurn (← handed)
  if LONG_MAX < nextPayload.length then throw EOVERFLOW
  else do
    fwrite file.fwriteSize (be32 nextPayload.length)
    fwrite file.fwriteData nextPayload

/-- The loops of both commands: they end at the first round that fails. -/
def writeEach {α : Type} (round : α → Writing Errno Unit) : List α → Writing Errno Unit
  | [] => pure ()
  | a :: as => do
    round a
    writeEach round as

def cmdFirewall (target : Target) (argv0 : Bytes) (args : List AppArg) : Writing Errno Unit :=
  if args.length < 1 then throw EINVAL
  else do
    writeHeader target argv0
    writeEach writeApp args

def cmdComposite (target : Target) (argv0 : Bytes) (files : List InputFile) : Writing Errno Unit :=
  if files.length < 1 then throw EINVAL
  else do
    writeHeader target argv0
    fwrite target.fwriteCount (be16 files.length)
    writeEach writePayload files

theorem headerWith_length (payload : DumbPayload) (command : Foundation.Field COMMAND_SIZE) :
    (headerWith payload command).length = sizeofDumbPayload := by
  rw [headerWith, List.length_take, Nat.min_eq_left (DumbPayload.le_toBytes_length _)]

theorem headerUnder_length (loaded : PayloadFile) (argv0 : Bytes) :
    (headerUnder loaded argv0).length = sizeofDumbPayload := headerWith_length _ _

section Handed
variable {target : Target} {argv0 : Bytes} {s t : Stream} {u : Unit}

theorem writeHeader_eq_ok (h : writeHeader target argv0 s = (.ok u, t)) :
    ∃ loaded, target.load = .ok loaded ∧ t = some (headerUnder loaded argv0) := by
  obtain ⟨loaded, _, hlift, hrest⟩ := exists_of_bind h
  obtain ⟨hload, rfl⟩ := lift_eq_ok hlift
  obtain ⟨_, _, hopen, hheader⟩ := exists_of_bind hrest
  rw [fopen_eq_ok hopen] at hheader
  exact ⟨loaded, hload, fwrite_eq_ok hheader⟩

theorem writePayload_eq_ok {file : InputFile} {before : Bytes}
    (h : writePayload file (some before) = (.ok u, t)) :
    t = some (before ++ compositeEntry (file.source.atTurn before)) := by
  obtain ⟨_, _, hread, hrest⟩ := exists_of_bind h
  obtain ⟨-, rfl⟩ := lift_eq_ok hread
  obtain ⟨_, _, hhanded, hwrites⟩ := exists_of_bind hrest
  cases hhanded
  simp only [Option.getD_some] at hwrites
  split_ifs at hwrites
  · cases hwrites
  · obtain ⟨_, _, hsize, hdata⟩ := exists_of_bind hwrites
    rw [fwrite_eq_ok hsize] at hdata
    rw [fwrite_eq_ok hdata, compositeEntry]
    simp

/-- What the files of a composite are read as, one after the other. -/
def entriesRead (before : Bytes) : List InputFile → List Bytes
  | [] => []
  | file :: files =>
    let entry := file.source.atTurn before
    entry :: entriesRead (before ++ compositeEntry entry) files

theorem entriesRead_length (before : Bytes) (files : List InputFile) :
    (entriesRead before files).length = files.length := by
  induction files generalizing before with
  | nil => rfl
  | cons file files ih => rw [entriesRead, List.length_cons, List.length_cons, ih]

/-- The loop over the files has handed over each behind its length. -/
theorem writeEach_writePayload {files : List InputFile} {before : Bytes}
    (h : writeEach writePayload files (some before) = (.ok u, t)) :
    t = some (before ++ (entriesRead before files).flatMap compositeEntry) := by
  induction files generalizing before with
  | nil =>
    cases h
    rw [entriesRead, List.flatMap_nil, List.append_nil]
  | cons file files ih =>
    obtain ⟨_, _, hround, hrest⟩ := exists_of_bind h
    rw [writePayload_eq_ok hround] at hrest
    rw [ih hrest, entriesRead, List.flatMap_cons, List.append_assoc]

/-- The loop over the apps has handed over each with its NUL. -/
theorem writeEach_writeApp {args : List AppArg} {before : Bytes}
    (h : writeEach writeApp args (some before) = (.ok u, t)) :
    t = some (before ++ (args.map (·.app)).flatMap (· ++ [0])) := by
  induction args generalizing before with
  | nil =>
    cases h
    rw [List.map_nil, List.flatMap_nil, List.append_nil]
  | cons arg args ih =>
    obtain ⟨_, _, hround, hrest⟩ := exists_of_bind h
    rw [fwrite_eq_ok hround, Option.map_some] at hrest
    rw [ih hrest, List.map_cons, List.flatMap_cons, List.append_assoc]

theorem cmdFirewall_eq_ok {args : List AppArg} (h : cmdFirewall target argv0 args s = (.ok u, t)) :
    ∃ loaded, target.load = .ok loaded ∧
      t = some (headerUnder loaded argv0 ++ (args.map (·.app)).flatMap (· ++ [0])) := by
  rw [cmdFirewall] at h
  split_ifs at h
  · cases h
  · obtain ⟨_, _, hheader, hloop⟩ := exists_of_bind h
    obtain ⟨loaded, hload, rfl⟩ := writeHeader_eq_ok hheader
    exact ⟨loaded, hload, writeEach_writeApp hloop⟩

/-- The data of a firewall command: each argument with its NUL. -/
theorem cmdFirewall_data {args : List AppArg} {written : Bytes}
    (h : cmdFirewall target argv0 args none = (.ok (), some written)) :
    written.drop sizeofDumbPayload = (args.map (·.app)).flatMap (· ++ [0]) := by
  obtain ⟨loaded, -, hwritten⟩ := cmdFirewall_eq_ok h
  rw [Option.some.inj hwritten, List.drop_left' (headerUnder_length loaded argv0)]

/-- What a composite has handed over: the header, the count and the files as they were read. -/
theorem cmdComposite_eq_ok {files : List InputFile}
    (h : cmdComposite target argv0 files s = (.ok u, t)) :
    ∃ loaded, target.load = .ok loaded ∧
      t = some (headerUnder loaded argv0 ++
        compositeData (entriesRead (headerUnder loaded argv0 ++ be16 files.length) files)) := by
  rw [cmdComposite] at h
  split_ifs at h
  · cases h
  · obtain ⟨_, _, hheader, hrest⟩ := exists_of_bind h
    obtain ⟨loaded, hload, rfl⟩ := writeHeader_eq_ok hheader
    obtain ⟨_, _, hcount, hloop⟩ := exists_of_bind hrest
    rw [fwrite_eq_ok hcount, Option.map_some] at hloop
    refine ⟨loaded, hload, ?_⟩
    rw [writeEach_writePayload hloop, compositeData, entriesRead_length, List.append_assoc]

end Handed

section RoundTrip

/-- Every listed file still holds its bytes when its turn comes: it is not the target, or what has
left the buffer by then is what the target held before. `before` is what precedes its entry. -/
def KeepTheirBytes (old : Bytes) : Bytes → List InputFile → Prop
  | _, [] => True
  | before, file :: files =>
    file.source.atTurn before = file.source.content old ∧
      KeepTheirBytes old (before ++ compositeEntry (file.source.content old)) files

theorem entriesRead_eq_iff {old before : Bytes} {files : List InputFile} :
    entriesRead before files = files.map (·.source.content old) ↔ KeepTheirBytes old before files := by
  induction files generalizing before with
  | nil => exact iff_of_true rfl trivial
  | cons file files ih =>
    rw [entriesRead, List.map_cons, List.cons.injEq, KeepTheirBytes]
    apply and_congr_right
    intro hsame
    rw [hsame, ih]

/-- Files that are not the target. -/
theorem keepTheirBytes_of_files {old before : Bytes} {files : List InputFile}
    (h : ∀ file ∈ files, ∃ bytes, file.source = .file bytes) : KeepTheirBytes old before files := by
  induction files generalizing before with
  | nil => trivial
  | cons file files ih =>
    obtain ⟨bytes, hfile⟩ := h file (by simp)
    refine ⟨by rw [hfile]; rfl, ih fun other hother => h other (List.mem_cons_of_mem _ hother)⟩

/-- The listed files and the target, as they were before the command, come to the daemon whole. -/
structure Arrives (loaded : PayloadFile) (argv0 : Bytes)
    (files : List InputFile) (kept : ℕ) : Prop where
  inputs : KeepTheirBytes loaded.val (headerUnder loaded argv0 ++ be16 files.length) files
  flushed : sizeofDumbPayload +
    (compositeData (files.map (·.source.content loaded.val))).length ≤ kept

/-- The sizes of what is read fit in the 32 bits in front of them. -/
def SizesFit (files : List InputFile) : Prop :=
  ∀ file ∈ files, ∀ flushed, file.source = .target flushed → flushed < 2 ^ 32

theorem entriesRead_small {old : Bytes} {files : List InputFile} (hfit : SizesFit files)
    (hcontent : ∀ file ∈ files, (file.source.content old).length < 2 ^ 32) (before : Bytes) :
    ∀ entry ∈ entriesRead before files, entry.length < 2 ^ 32 := by
  induction files generalizing before with
  | nil => simp [entriesRead]
  | cons file files ih =>
    intro entry hentry
    rw [entriesRead] at hentry
    rcases List.mem_cons.mp hentry with rfl | hentry
    · have hown := hcontent file (by simp)
      cases hsource : file.source with
      | file bytes => rwa [hsource] at hown
      | target flushed =>
        have hflushed := hfit file (by simp) flushed hsource
        rw [Source.atTurn, List.length_take]
        omega
    · exact ih (fun other hother => hfit other (List.mem_cons_of_mem _ hother))
        (fun other hother => hcontent other (List.mem_cons_of_mem _ hother)) _ entry hentry

/-- What the tool writes behind the header of a composite is what the daemon parses, a call for each
listed file, in their order, on its bytes, exactly if all of it arrives. -/
theorem payloadCmdComposite_cmdComposite {target : Target} {argv0 : Bytes} {files : List InputFile}
    {loaded : PayloadFile} (hload : target.load = .ok loaded)
    (hcount : 1 ≤ files.length ∧ files.length ≤ 65535)
    (hsize : ∀ file ∈ files, ∃ hle : sizeofDumbPayload ≤ (file.source.content loaded.val).length,
      dpValidateSize (DumbPayload.ofBytes (file.source.content loaded.val) hle)
        (file.source.content loaded.val).length)
    (hret : (cmdComposite target argv0 files none).1 = .ok ()) (kept : ℕ) {data : Bytes}
    (hdata : data =
      ((cmdComposite target argv0 files none).2.leaves loaded.val kept).drop sizeofDumbPayload)
    {inner : DumbPayload → Act (ℤ × DumbPayload)} (hkeeps : KeepsLength inner) (s : State) :
    ∃ calls t, Handles inner data s calls t (payloadCmdComposite inner data s) ∧
      ((∀ c ∈ calls, c.ret inner = 0) →
        (Arrives loaded argv0 files kept →
          calls.map (·.payload.toBytes) = files.map (·.source.content loaded.val) ∧
          (payloadCmdComposite inner data s).1.1 = 0 ∧ (payloadCmdComposite inner data s).2 = t) ∧
        (SizesFit files →
          calls.map (·.payload.toBytes) = files.map (·.source.content loaded.val) →
          (payloadCmdComposite inner data s).1.1 = 0 → Arrives loaded argv0 files kept)) := by
  rcases hrun : cmdComposite target argv0 files none with ⟨result, stream⟩
  rw [hrun] at hret hdata
  obtain rfl : result = .ok () := hret
  obtain ⟨loaded', hload', rfl⟩ := cmdComposite_eq_ok hrun
  obtain rfl : loaded' = loaded := Except.ok.inj (hload'.symm.trans hload)
  set contents := files.map (·.source.content loaded'.val) with hcontents
  set reads := entriesRead (headerUnder loaded' argv0 ++ be16 files.length) files with hreads
  have hcut : data = (compositeData reads).take (kept - sizeofDumbPayload) := by
    rw [hdata, Stream.leaves, List.drop_take, List.drop_left' (headerUnder_length loaded' argv0)]
  have hlengths : ∀ b ∈ contents, sizeofDumbPayload ≤ b.length ∧ b.length < 2 ^ 32 := by
    intro b hb
    obtain ⟨file, hfile, rfl⟩ := List.mem_map.mp hb
    obtain ⟨hle, hvalid⟩ := hsize file hfile
    obtain ⟨hmax, hlen⟩ := (dpValidateSize_iff _ _).mp hvalid
    simp only [DUMB_PAYLOAD_DATA_MAX_SIZE, sizeofDumbPayload] at hmax hlen
    exact ⟨hle, by omega⟩
  obtain ⟨calls, t, h⟩ := payloadCmdComposite_handles hkeeps data s
  refine ⟨calls, t, h, fun hall => ⟨fun harrives => ?_, fun hfit hcalls hzero => ?_⟩⟩
  · apply h.of_isComposite _ hall
    refine ⟨⟨[], ?_⟩, ?_, hlengths⟩
    · have hsame : reads = contents := entriesRead_eq_iff.mpr harrives.inputs
      have hroom : sizeofDumbPayload + (compositeData contents).length ≤ kept := harrives.flushed
      rw [hcut, hsame, List.append_nil, List.take_of_length_le (by omega)]
    · rw [hcontents, List.length_map]
      omega
  · obtain ⟨⟨rest, hrest⟩, -, -⟩ := (h.ret_eq_zero_iff.mp hzero).1
    rw [hcalls, hcut] at hrest
    have hsmall : ∀ file ∈ files, (file.source.content loaded'.val).length < 2 ^ 32 :=
      fun file hfile => (hlengths _ (List.mem_map_of_mem hfile)).2
    obtain ⟨hsame, hroom⟩ := eq_of_take_compositeData
      (by rw [entriesRead_length, hcontents, List.length_map])
      (entriesRead_small hfit hsmall _) (fun b hb => (hlengths b hb).2) hrest
    refine ⟨entriesRead_eq_iff.mp hsame, ?_⟩
    have hpositive : 0 < (compositeData contents).length := by
      rw [compositeData, List.length_append, be16_length]
      omega
    change sizeofDumbPayload + (compositeData contents).length ≤ kept
    omega

/-- A target without data that takes everything. -/
def emptyTarget : Target := ⟨.ok ⟨List.replicate 168 0, le_rfl⟩, .ok (), .ok (), .ok ()⟩

def calmFile (source : Source) : InputFile := ⟨source, .ok (), .ok (), .ok ()⟩

def twoPayloads : List Bytes :=
  [(DumbPayload.unsigned (ascii "0") (ascii "ok") []).toBytes,
    (DumbPayload.unsigned (ascii "0") (ascii "fw-allow") (ascii "app" ++ [0])).toBytes]

def twoFiles : List InputFile := twoPayloads.map (fun b => calmFile (.file b))

/-- The data of the target after a composite of these files. -/
def compositeLeft (files : List InputFile) (kept : ℕ) : Bytes :=
  ((cmdComposite emptyTarget (ascii "composite") files none).2.leaves (List.replicate 168 0)
    kept).drop sizeofDumbPayload

theorem payloadCmdComposite_cmdComposite_twoFiles : ∃ calls t,
    Handles (fun p => return (0, p)) (compositeLeft twoFiles 1000) State.start calls t
      (payloadCmdComposite (fun p => return (0, p)) (compositeLeft twoFiles 1000) State.start) ∧
    calls.map (·.payload.toBytes) = twoPayloads := by
  obtain ⟨calls, t, h, hcalls⟩ := @payloadCmdComposite_cmdComposite emptyTarget (ascii "composite")
    twoFiles _ rfl (by decide) (by decide +kernel) (by decide +kernel) 1000
    (compositeLeft twoFiles 1000) rfl (fun p => return (0, p)) (fun p s => rfl) State.start
  have harrives : Arrives ⟨List.replicate 168 0, le_rfl⟩ (ascii "composite") twoFiles 1000 := by
    constructor
    · apply keepTheirBytes_of_files
      simp [twoFiles, calmFile]
    · decide +kernel
  exact ⟨calls, t, h, ((hcalls fun c _ => rfl).1 harrives).1⟩

/-- The target among its own files is empty by the time it is read. -/
theorem not_payloadCmdComposite_cmdComposite :
    (∃ hle : sizeofDumbPayload ≤ (List.replicate 168 (0 : UInt8)).length,
      dpValidateSize (DumbPayload.ofBytes (List.replicate 168 0) hle) 168) ∧
    (cmdComposite emptyTarget (ascii "composite") [calmFile (.target 0)] none).1 = .ok () ∧
    (payloadCmdComposite (fun p => return (0, p))
      (compositeLeft [calmFile (.target 0)] 1000) State.start).1.1 = EINVAL.code := by
  decide +kernel

end RoundTrip

end Dumbos.CTool
