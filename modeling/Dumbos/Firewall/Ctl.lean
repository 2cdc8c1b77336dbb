import Dumbos.Firewall.Scripts
import Dumbos.Firewall.Tools

/-! # The configuration file of `dumbos-firewallctl.sh`

One package a line. A package is looked up before it is appended; to take one
out, the other lines go into the temporary file of the run, which then replaces
the configuration file and is made anew for the next package.
-/
namespace Dumbos.Firewall
open Foundation

/-- The configuration file, and the temporary file of a run. -/
structure ConfFiles where
  conf : Option Bytes
  tmp : Option Bytes

/-- `printf '%s\n' >> CONFFILE`. -/
def appendLine (package : Bytes) (files : ConfFiles) : ConfFiles :=
  { files with conf := some (files.conf.getD [] ++ (package ++ [newline])) }

/-- `mv TMPFILE CONFFILE`. -/
def replaceConf (files : ConfFiles) : ℕ × ConfFiles :=
  match files.tmp with
  | none => (1, files)
  | some content => (0, ⟨some content, none⟩)

def addPackage (package : Bytes) (files : ConfFiles) : ℕ × ConfFiles :=
  match files.conf with
  | none => (0, appendLine package files)
  | some content =>
    match grepFqx package content with
    | 0 => (0, files)
    | 1 => (0, appendLine package files)
    | _ => (1, files)

def removePackage (package : Bytes) (files : ConfFiles) : ℕ × ConfFiles :=
  match files.conf with
  | none => (0, files)
  | some content =>
    match grepFqx package content with
    | 0 =>
      let (status, others) := grepFvx package content
      let files := { files with tmp := some others }
      -- 1 says that no line remains
      if 1 < status then (1, files)
      else
        let (status, files) := replaceConf files
        (if status = 0 then 0 else 1, files)
    | 1 => (0, files)
    | _ => (1, files)

/-- What becomes of one app; `temp` is the status of `add_package_temp`, which leaves the files alone. -/
def processApp (policy : Policy) (temp : Bytes → ℕ) (app : Bytes) (files : ConfFiles) : ℕ × ConfFiles :=
  if !checkPackageName app then (1, files)
  else match policy with
    | .allow => addPackage app files
    | .deny => removePackage app files
    | .allowTemp => (temp app, files)

/-- The loop; an app that fails sets the code that is returned. -/
def processApps (policy : Policy) (temp : Bytes → ℕ) : List Bytes → ℕ → ConfFiles → ℕ × ConfFiles
  | [], returnCode, files => (returnCode, files)
  | app :: apps, returnCode, files =>
    let (status, files) := processApp policy temp app files
    processApps policy temp apps (if status = 0 then returnCode else 1) files

/-- `dumbos-firewallctl.sh`: what it returns, and the configuration file after it. -/
def runCtl (args : List Bytes) (temp : Bytes → ℕ) (conf : Option Bytes) : ℕ × Option Bytes :=
  match parseArgs args with
  | none => (1, conf)
  | some (policy, apps) =>
    let (returnCode, files) := processApps policy temp apps 0 ⟨conf, some []⟩
    (returnCode, files.conf)

inductive ConfOperation where
  | ctl (args : List Bytes) (temp : Bytes → ℕ)
  /-- `payload_cmd_firewall_flush`; it returns what the reload returns. -/
  | flush (reload : ℕ)

def ConfOperation.run (conf : Option Bytes) : ConfOperation → ℕ × Option Bytes
  | .ctl args temp => runCtl args temp conf
  | .flush reload => (reload, none)

/-- The lines of the configuration file; where there is none there are no lines. -/
def confLines (conf : Option Bytes) : List Bytes := linesOf (conf.getD [])

end Dumbos.Firewall
