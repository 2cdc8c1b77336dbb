import Dumbos.RustTool.Representation

/-! # Setting the command of payload files

Nine subcommands load each listed file and set its command and data. Those with
arguments write the payload back. Those without go through one helper that leaves
the file as it was.
-/
namespace Dumbos.RustTool
open Foundation Common Payload

def CMD_OK : String := "ok"
def CMD_INSTALLTHIS : String := "install-this"
def CMD_FILE_EXPORT : String := "export-files"
def CMD_FILE_IMPORT : String := "import-files"
def CMD_FW_ALLOW : String := "fw-allow"
def CMD_FW_DENY : String := "fw-deny"
def CMD_FW_FLUSH : String := "fw-flush"
def CMD_SINGBOX_ADD : String := "singboxadd"
def CMD_SINGBOX_REMOVE : String := "singboxdel"

/-- A command and its data, one after the other. -/
def setCommandAndData (command : String) (setTo : DumbPayload → Except Failure Unit × DumbPayload)
    (p : DumbPayload) : Except Failure Unit × DumbPayload :=
  match setCommand command p with
  | (.error e, p) => (.error e, p)
  | (.ok (), p) => setTo p

section Methods
variable (realloc : Except Errno Unit)

def commandInstallThisApkdata (apkData : Bytes) : DumbPayload → Except Failure Unit × DumbPayload :=
  setCommandAndData CMD_INSTALLTHIS (setData realloc apkData)

def commandFirewallAllow (apps : List String) : DumbPayload → Except Failure Unit × DumbPayload :=
  setCommandAndData CMD_FW_ALLOW (setDataStringlist realloc apps)

def commandFirewallDeny (apps : List String) : DumbPayload → Except Failure Unit × DumbPayload :=
  setCommandAndData CMD_FW_DENY (setDataStringlist realloc apps)

def commandSingboxAllow (domains : List String) : DumbPayload → Except Failure Unit × DumbPayload :=
  setCommandAndData CMD_SINGBOX_ADD (setDataStringlist realloc domains)

def commandSingboxDeny (domains : List String) : DumbPayload → Except Failure Unit × DumbPayload :=
  setCommandAndData CMD_SINGBOX_REMOVE (setDataStringlist realloc domains)

end Methods

/-- How a file that is not a payload is read. -/
structure ReadCalls where
  stdin : Except Errno Bytes
  openErrno : Errno
  read : Except Errno Unit

/-- `util::read_file`. -/
def readFile (calls : ReadCalls) (fs : FileSystem) (path : String) : Except Failure Bytes :=
  if path = "-" then withContext "" calls.stdin
  else if 0 ∈ ascii path then .error (.bail "file name contained an unexpected NUL byte")
  else match fs (ascii path) with
    | none => .error (.os calls.openErrno "")
    | some data => do
      withContext "" calls.read
      return data

/-- A listed file, and how the calls for it end. -/
structure Listed where
  path : String
  load : LoadCalls
  realloc : Except Errno Unit
  write : WriteCalls

namespace Cmdset

/-- The loop over the files; `store` is what becomes of the payload. -/
def forEach (set : Except Errno Unit → DumbPayload → Except Failure Unit × DumbPayload)
    (store : FileSystem → Listed → DumbPayload → Except Failure Unit × FileSystem) :
    FileSystem → List Listed → Except Failure Unit × FileSystem
  | fs, [] => (.ok (), fs)
  | fs, file :: filelist =>
    match readFromFile fs file.load file.path with
    | .error e => (.error e, fs)
    | .ok payload => match set file.realloc payload with
      | (.error e, _) => (.error e, fs)
      | (.ok (), payload) => match store fs file payload with
        | (.error e, fs) => (.error e, fs)
        | (.ok (), fs) => forEach set store fs filelist

def writeBack (fs : FileSystem) (file : Listed) (payload : DumbPayload) :
    Except Failure Unit × FileSystem :=
  writeToFile fs file.write file.path payload

/-- The payload is dropped at the end of the round. -/
def drop (fs : FileSystem) (_ : Listed) (_ : DumbPayload) : Except Failure Unit × FileSystem :=
  (.ok (), fs)

def setCommand (fs : FileSystem) (filelist : List Listed) (command : String) :
    Except Failure Unit × FileSystem :=
  forEach (fun realloc => setCommandAndData command (clearData realloc)) drop fs filelist

def ok (fs : FileSystem) (filelist : List Listed) : Except Failure Unit × FileSystem :=
  setCommand fs filelist CMD_OK

def installThis (calls : ReadCalls) (fs : FileSystem) (filelist : List Listed) (apk : String) :
    Except Failure Unit × FileSystem :=
  match readFile calls fs apk with
  | .error e => (.error e, fs)
  | .ok apkfile => forEach (commandInstallThisApkdata · apkfile) writeBack fs filelist

def fileExport (fs : FileSystem) (filelist : List Listed) : Except Failure Unit × FileSystem :=
  setCommand fs filelist CMD_FILE_EXPORT

def fileImport (fs : FileSystem) (filelist : List Listed) : Except Failure Unit × FileSystem :=
  setCommand fs filelist CMD_FILE_IMPORT

def firewallFlush (fs : FileSystem) (filelist : List Listed) : Except Failure Unit × FileSystem :=
  setCommand fs filelist CMD_FW_FLUSH

/-- The subcommands with a list that must not be empty. -/
def withList (method : Except Errno Unit → List String → DumbPayload → Except Failure Unit × DumbPayload)
    (missing : String) (fs : FileSystem) (filelist : List Listed) (strings : List String) :
    Except Failure Unit × FileSystem :=
  if strings.length = 0 then (.error (.bail missing), fs)
  else forEach (method · strings) writeBack fs filelist

def firewallAllow : FileSystem → List Listed → List String → Except Failure Unit × FileSystem :=
  withList commandFirewallAllow "no apps specified"

def firewallDeny : FileSystem → List Listed → List String → Except Failure Unit × FileSystem :=
  withList commandFirewallDeny "no apps specified"

def singboxAllow : FileSystem → List Listed → List String → Except Failure Unit × FileSystem :=
  withList commandSingboxAllow "no domains specified"

def singboxDeny : FileSystem → List Listed → List String → Except Failure Unit × FileSystem :=
  withList commandSingboxDeny "no domains specified"

inductive PayloadCommand where
  | ok
  | installThis (apk : String)
  | fileExport
  | fileImport
  | firewallAllow (app : List String)
  | firewallDeny (app : List String)
  | firewallFlush
  | singBoxAllow (domain : List String)
  | singBoxDeny (domain : List String)

namespace PayloadCommand

def run (calls : ReadCalls) (fs : FileSystem) (filelist : List Listed) :
    PayloadCommand → Except Failure Unit × FileSystem
  | .ok => Cmdset.ok fs filelist
  | .installThis apk => Cmdset.installThis calls fs filelist apk
  | .fileExport => Cmdset.fileExport fs filelist
  | .fileImport => Cmdset.fileImport fs filelist
  | .firewallAllow app => Cmdset.firewallAllow fs filelist app
  | .firewallDeny app => Cmdset.firewallDeny fs filelist app
  | .firewallFlush => Cmdset.firewallFlush fs filelist
  | .singBoxAllow domain => Cmdset.singboxAllow fs filelist domain
  | .singBoxDeny domain => Cmdset.singboxDeny fs filelist domain

/-- The command that a payload is to have. -/
def command : PayloadCommand → String
  | .ok => CMD_OK
  | .installThis _ => CMD_INSTALLTHIS
  | .fileExport => CMD_FILE_EXPORT
  | .fileImport => CMD_FILE_IMPORT
  | .firewallAllow _ => CMD_FW_ALLOW
  | .firewallDeny _ => CMD_FW_DENY
  | .firewallFlush => CMD_FW_FLUSH
  | .singBoxAllow _ => CMD_SINGBOX_ADD
  | .singBoxDeny _ => CMD_SINGBOX_REMOVE

/-- The data that it is to have: an app as it was read, or each text with its NUL. -/
def data (calls : ReadCalls) (fs : FileSystem) : PayloadCommand → Except Failure Bytes
  | .installThis apk => readFile calls fs apk
  | .firewallAllow texts | .firewallDeny texts | .singBoxAllow texts | .singBoxDeny texts =>
    .ok (texts.flatMap fun text => ascii text ++ [0])
  | .ok | .fileExport | .fileImport | .firewallFlush => .ok []

/-- The subcommands that have something to say besides their name. -/
def HasArguments : PayloadCommand → Prop
  | .ok | .fileExport | .fileImport | .firewallFlush => False
  | _ => True

end PayloadCommand

/-- The file of this path is a payload. -/
def Loads (fs : FileSystem) (path : String) (p : DumbPayload) : Prop :=
  readFromFile fs ⟨ENOENT, .ok (), .ok (), .ok (), 0⟩ path = .ok p

instance (fs : FileSystem) (path : String) (p : DumbPayload) : Decidable (Loads fs path p) :=
  inferInstanceAs (Decidable (readFromFile fs _ path = .ok p))

/-- The payload has this command and this data. -/
structure Asks (command : String) (data : Except Failure Bytes) (p : DumbPayload) : Prop where
  command_eq : getCommand p = .ok command
  data_eq : getData (.ok ()) p = data

theorem setData_eq_ok {realloc : Except Errno Unit} {data : Bytes} {p p' : DumbPayload}
    (h : setData realloc data p = (.ok (), p')) : data.length ≤ DUMB_PAYLOAD_DATA_MAX_SIZE ∧
      p' = ⟨{ p.ptr with dataSize := ⟨be32 data.length, rfl⟩, payload := data },
        sizeofDumbPayload + data.length⟩ := by
  cases realloc with
  | error e =>
    rcases hsize : dpSetDataSize data.length p.ptr with ⟨result, ptr⟩
    rw [setData, dpSetData, hsize] at h
    cases result <;> cases h
  | ok u =>
    rcases setData_cases data p with ⟨e, -, herr⟩ | ⟨hle, hok⟩
    · rw [herr] at h
      cases h
    · rw [hok] at h
      cases h
      exact ⟨hle, rfl⟩

/-- What a setter that succeeds has done. -/
def Sets (command : String) (data : Bytes)
    (set : Except Errno Unit → DumbPayload → Except Failure Unit × DumbPayload) : Prop :=
  ∀ realloc p p', set realloc p = (.ok (), p') →
    Consistent p' ∧ Asks command (.ok data) p' ∧ p'.ptr.expire = p.ptr.expire

theorem setCommandAndData_sets (command : String) (data : Bytes) :
    Sets command data fun realloc => setCommandAndData command (setData realloc data) := by
  intro realloc p p' h
  change setCommandAndData command (setData realloc data) p = _ at h
  rcases setCommand_cases command p with ⟨e, herr⟩ | ⟨field, hfield, hok⟩
  · rw [setCommandAndData, herr] at h
    cases h
  · rw [setCommandAndData, hok] at h
    obtain ⟨hle, rfl⟩ := setData_eq_ok h
    have hconsistent := setData_consistent hle { p.ptr with command := field }
    refine ⟨hconsistent, ⟨?_, hconsistent.getData_eq⟩, rfl⟩
    rw [getCommand, dpGetCommand, hfield]
    exact toStr_ascii command

section Loop
variable {set : Except Errno Unit → DumbPayload → Except Failure Unit × DumbPayload}

/-- A payload that is loaded is what a file of that name holds. -/
theorem readFromFile_eq_ok {fs : FileSystem} {calls : LoadCalls} {path : String} {p : DumbPayload}
    (h : readFromFile fs calls path = .ok p) : 0 ∉ ascii path ∧ ∃ file, ∃ hle,
      fs (ascii path) = some file ∧ dpValidateSize (DumbPayload.ofBytes file hle) file.length ∧
        p = ⟨DumbPayload.ofBytes file hle, file.length⟩ := by
  obtain ⟨name, hname, h⟩ := bind_eq_ok h
  rw [cString] at hname
  split_ifs at hname with hnul
  cases hname
  obtain ⟨loaded, hloaded, h⟩ := bind_eq_ok h
  have hfile : fs (ascii path) = some loaded.val := by
    cases hload : dpMallocLoad fs calls (ascii path) with
    | error e =>
      rw [hload] at hloaded
      cases hloaded
    | ok file =>
      rw [hload] at hloaded
      cases hloaded
      exact (dpMallocLoad_eq_ok_iff.mp hload).1
  simp only at h
  split_ifs at h with hvalid
  cases h
  exact ⟨hnul, loaded.val, loaded.property, hfile, by simpa using hvalid, rfl⟩

theorem loads_iff {fs : FileSystem} {path : String} {p : DumbPayload} : Loads fs path p ↔
    0 ∉ ascii path ∧ ∃ file, ∃ hle, fs (ascii path) = some file ∧
      dpValidateSize (DumbPayload.ofBytes file hle) file.length ∧
        p = ⟨DumbPayload.ofBytes file hle, file.length⟩ := by
  constructor
  · exact readFromFile_eq_ok
  · rintro ⟨hnul, file, hle, hfile, hvalid, rfl⟩
    rw [Loads, readFromFile, cString, if_neg hnul]
    change ((dpMallocLoad fs _ (ascii path)).mapError _).bind _ = _
    rw [dpMallocLoad_eq hfile hle hvalid]
    change (if (!dpValidateSize (DumbPayload.ofBytes file hle) file.length) = true then _ else _) = _
    rw [hvalid]
    rfl

/-- Only the file of that name matters. -/
theorem Loads.congr {fs fs' : FileSystem} {path : String} {p : DumbPayload} (h : Loads fs path p)
    (hfs : fs' (ascii path) = fs (ascii path)) : Loads fs' path p := by
  rw [loads_iff] at h ⊢
  rwa [hfs]

/-- A file of another name is left alone. -/
theorem writeToFile_other {fs fs' : FileSystem} {calls : WriteCalls} {path : String}
    {p : DumbPayload} {r : Except Failure Unit} (h : writeToFile fs calls path p = (r, fs'))
    {name : Bytes} (hname : name ≠ ascii path) : fs' name = fs name := by
  rw [writeToFile, cString] at h
  split_ifs at h with hnul
  · cases h
    rfl
  · obtain ⟨-, rfl⟩ := Prod.mk.inj h
    cases calls.openFile with
    | error e => rfl
    | ok u =>
      dsimp only
      cases dpGetDataSize p.ptr with
      | none => exact Function.update_of_ne hname _ _
      | some size =>
        dsimp only
        cases calls.writeAll with
        | none => exact Function.update_of_ne hname _ _
        | some failed => exact Function.update_of_ne hname _ _

/-- Run: every file that could be loaded still can, its expire field is the same, and what was asked
of a listed file is what it holds. -/
theorem forEach_writeBack {command : String} {data : Bytes} (hset : Sets command data set)
    {filelist : List Listed} {fs fs' : FileSystem}
    (h : forEach set writeBack fs filelist = (.ok (), fs')) {path : String} {p : DumbPayload}
    (hload : Loads fs path p) : ∃ p', Loads fs' path p' ∧ p'.ptr.expire = p.ptr.expire ∧
      (path ∈ filelist.map (·.path) ∨ Asks command (.ok data) p → Asks command (.ok data) p') := by
  induction filelist generalizing fs p with
  | nil =>
    cases h
    exact ⟨p, hload, rfl, fun h => h.resolve_left (by simp)⟩
  | cons file filelist ih =>
    rw [forEach] at h
    cases hread : readFromFile fs file.load file.path with
    | error e =>
      rw [hread] at h
      cases h
    | ok payload =>
      rw [hread] at h
      dsimp only at h
      rcases hchanged : set file.realloc payload with ⟨result, changed⟩
      rw [hchanged] at h
      cases result with
      | error e => cases h
      | ok u =>
        dsimp only at h
        rcases hwrite : writeBack fs file changed with ⟨written, fs₁⟩
        rw [hwrite] at h
        cases written with
        | error e => cases h
        | ok u =>
          dsimp only at h
          obtain ⟨hconsistent, hasks, hexpire⟩ := hset _ _ _ hchanged
          by_cases hpath : path = file.path
          · subst hpath
            obtain rfl := Except.ok.inj (hload.symm.trans (loads_iff.mpr (readFromFile_eq_ok hread)))
            obtain ⟨p', hload', hexpire', hasks'⟩ :=
              ih h (readFromFile_writeToFile hconsistent hwrite ENOENT 0)
            exact ⟨p', hload', hexpire'.trans hexpire, fun _ => hasks' (Or.inr hasks)⟩
          · obtain ⟨p', hload', hexpire', hasks'⟩ :=
              ih h (hload.congr (writeToFile_other hwrite (ascii_injective.ne hpath)))
            refine ⟨p', hload', hexpire', fun hlisted => hasks' ?_⟩
            rw [List.map_cons, List.mem_cons] at hlisted
            exact hlisted.imp_left fun hmem => hmem.resolve_left hpath

/-- The loop that drops the payloads changes no file. -/
theorem forEach_drop (filelist : List Listed) (fs : FileSystem) :
    (forEach set drop fs filelist).2 = fs := by
  induction filelist with
  | nil => rfl
  | cons file filelist ih =>
    rw [forEach]
    cases readFromFile fs file.load file.path with
    | error e => rfl
    | ok payload =>
      dsimp only
      obtain ⟨result, changed⟩ := set file.realloc payload
      cases result with
      | error e => rfl
      | ok u => exact ih

end Loop

/-- Each listed file is a payload with the command and the data that were asked for, and the expire
field that it had. -/
def TakesEffect (command : String) (data : Except Failure Bytes) (filelist : List Listed)
    (fs fs' : FileSystem) : Prop :=
  ∀ file ∈ filelist, ∃ p p', Loads fs file.path p ∧ Loads fs' file.path p' ∧ Asks command data p' ∧
    p'.ptr.expire = p.ptr.expire

/-- A subcommand that writes takes effect on payloads. -/
theorem takesEffect_of_writeBack {set : Except Errno Unit → DumbPayload → Except Failure Unit × DumbPayload}
    {command : String} {data : Bytes} (hset : Sets command data set) {filelist : List Listed}
    {fs fs' : FileSystem} (hvalid : ∀ file ∈ filelist, ∃ p, Loads fs file.path p)
    (h : forEach set writeBack fs filelist = (.ok (), fs')) :
    TakesEffect command (.ok data) filelist fs fs' := by
  intro file hfile
  obtain ⟨p, hload⟩ := hvalid file hfile
  obtain ⟨p', hload', hexpire, hasks⟩ := forEach_writeBack hset h hload
  exact ⟨p, p', hload, hload', hasks (Or.inl (List.mem_map_of_mem hfile)), hexpire⟩

theorem takesEffect_of_withList
    {method : Except Errno Unit → List String → DumbPayload → Except Failure Unit × DumbPayload}
    {command missing : String}
    (hmethod : ∀ realloc strings,
      method realloc strings = setCommandAndData command (setDataStringlist realloc strings))
    {filelist : List Listed} {fs fs' : FileSystem} {strings : List String}
    (hvalid : ∀ file ∈ filelist, ∃ p, Loads fs file.path p)
    (h : withList method missing fs filelist strings = (.ok (), fs')) :
    TakesEffect command (.ok (strings.flatMap fun text => ascii text ++ [0])) filelist fs fs' := by
  rw [withList] at h
  split_ifs at h with hempty
  · cases h
  · apply takesEffect_of_writeBack _ hvalid h
    intro realloc p p' hset
    have hlist : setDataStringlist realloc strings =
        setData realloc (strings.flatMap fun text => ascii text ++ [0]) := by
      funext p
      rw [setDataStringlist, if_neg hempty]
    change method realloc strings p = _ at hset
    rw [hmethod, hlist] at hset
    exact setCommandAndData_sets command _ realloc p p' hset

/-- A subcommand that does not write takes effect where there is nothing to do. -/
theorem takesEffect_of_drop_iff (command : String) {filelist : List Listed} {fs fs' : FileSystem}
    (hvalid : ∀ file ∈ filelist, ∃ p, Loads fs file.path p)
    (h : setCommand fs filelist command = (.ok (), fs')) :
    TakesEffect command (.ok []) filelist fs fs' ↔
      ∀ file ∈ filelist, ∀ p, Loads fs file.path p → Asks command (.ok []) p := by
  have hfs : fs = fs' := (@forEach_drop (fun realloc => setCommandAndData command (clearData realloc))
    filelist fs).symm.trans (congrArg Prod.snd h)
  subst hfs
  constructor
  · intro heffect file hfile p hload
    obtain ⟨-, p', -, hload', hasks, -⟩ := heffect file hfile
    obtain rfl := Except.ok.inj (hload.symm.trans hload')
    exact hasks
  · intro hasks file hfile
    obtain ⟨p, hload⟩ := hvalid file hfile
    exact ⟨p, p, hload, hload, hasks file hfile p hload, rfl⟩

/-- A subcommand that returns without an error has taken effect exactly if it has arguments, or each
file had the command and no data before. -/
theorem payloadCommand_takesEffect_iff (command : PayloadCommand) {calls : ReadCalls}
    {fs fs' : FileSystem} {filelist : List Listed}
    (hvalid : ∀ file ∈ filelist, ∃ p, Loads fs file.path p)
    (hok : command.run calls fs filelist = (.ok (), fs')) :
    TakesEffect command.command (command.data calls fs) filelist fs fs' ↔
      command.HasArguments ∨
        ∀ file ∈ filelist, ∀ p, Loads fs file.path p → Asks command.command (.ok []) p := by
  cases command with
  | ok => exact (takesEffect_of_drop_iff CMD_OK hvalid hok).trans (or_iff_right id).symm
  | fileExport =>
    exact (takesEffect_of_drop_iff CMD_FILE_EXPORT hvalid hok).trans (or_iff_right id).symm
  | fileImport =>
    exact (takesEffect_of_drop_iff CMD_FILE_IMPORT hvalid hok).trans (or_iff_right id).symm
  | firewallFlush =>
    exact (takesEffect_of_drop_iff CMD_FW_FLUSH hvalid hok).trans (or_iff_right id).symm
  | installThis apk =>
    refine iff_of_true ?_ (Or.inl trivial)
    change installThis calls fs filelist apk = _ at hok
    rw [installThis] at hok
    change TakesEffect CMD_INSTALLTHIS (readFile calls fs apk) filelist fs fs'
    cases hread : readFile calls fs apk with
    | error e =>
      rw [hread] at hok
      cases hok
    | ok apkfile =>
      rw [hread] at hok
      exact takesEffect_of_writeBack (setCommandAndData_sets CMD_INSTALLTHIS apkfile) hvalid hok
  | firewallAllow app =>
    exact iff_of_true (takesEffect_of_withList (fun _ _ => rfl) hvalid hok) (Or.inl trivial)
  | firewallDeny app =>
    exact iff_of_true (takesEffect_of_withList (fun _ _ => rfl) hvalid hok) (Or.inl trivial)
  | singBoxAllow domain =>
    exact iff_of_true (takesEffect_of_withList (fun _ _ => rfl) hvalid hok) (Or.inl trivial)
  | singBoxDeny domain =>
    exact iff_of_true (takesEffect_of_withList (fun _ _ => rfl) hvalid hok) (Or.inl trivial)

/-- A listed file for which no call fails. -/
def listed (path : String) : Listed :=
  ⟨path, ⟨ENOENT, .ok (), .ok (), .ok (), 0⟩, .ok (), ⟨.ok (), none⟩⟩

/-- A new payload in a file. -/
def newPayload : DumbPayload :=
  ⟨DumbPayload.ofBytes (List.replicate sizeofDumbPayload 0) header_le_replicate,
    sizeofDumbPayload⟩

def newFile (name : Bytes) : Option Bytes :=
  if name = ascii "f" then some (List.replicate sizeofDumbPayload 0) else none

def noRead : ReadCalls := ⟨.ok [], ENOENT, .ok ()⟩

theorem newFile_loads : ∀ file ∈ [listed "f"], ∃ p, Loads newFile file.path p := by
  intro file hfile
  rw [List.mem_singleton.mp hfile]
  exact ⟨newPayload, by decide +kernel⟩

/-- Allowing an app takes effect on a new payload. -/
theorem payloadCommand_takesEffect_iff_firewallAllow :
    TakesEffect CMD_FW_ALLOW (.ok (["a.b"].flatMap fun text => ascii text ++ [0])) [listed "f"] newFile
      (PayloadCommand.run noRead newFile [listed "f"] (.firewallAllow ["a.b"])).2 := by
  have hok : (PayloadCommand.run noRead newFile [listed "f"] (.firewallAllow ["a.b"])).1 = .ok () := by
    decide +kernel
  have hrun := @Prod.mk.eta _ _ (PayloadCommand.run noRead newFile [listed "f"] (.firewallAllow ["a.b"]))
  rw [hok] at hrun
  exact (payloadCommand_takesEffect_iff (.firewallAllow ["a.b"]) newFile_loads hrun.symm).mpr
    (Or.inl trivial)

/-- The subcommand `ok` returns without an error and leaves a new payload without a command. -/
theorem not_payloadCommand_takesEffect :
    (PayloadCommand.run noRead newFile [listed "f"] .ok).1 = .ok () ∧
      ¬TakesEffect "ok" (.ok []) [listed "f"] newFile
        (PayloadCommand.run noRead newFile [listed "f"] .ok).2 := by
  have hloads : Loads newFile "f" newPayload := by decide +kernel
  refine ⟨by decide +kernel, fun heffect => ?_⟩
  obtain ⟨-, p', -, hload', hasks, -⟩ := heffect (listed "f") (List.mem_singleton_self _)
  rw [show (PayloadCommand.run noRead newFile [listed "f"] .ok).2 = newFile from
    forEach_drop _ _] at hload'
  obtain rfl := Except.ok.inj (hloads.symm.trans hload')
  have hcommand : getCommand newPayload = .ok "" := by decide +kernel
  exact absurd (hcommand.symm.trans hasks.command_eq) (by decide)

end Cmdset
end Dumbos.RustTool
