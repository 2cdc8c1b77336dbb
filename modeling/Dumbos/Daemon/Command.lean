import Dumbos.Common.Hex
import Dumbos.Daemon.OnePayload
import Dumbos.Request.UserData

/-! # Commands of the client

What `do_command` runs for each name, in a build without debug mode. The command
`code` asks the server for a payload and hands it on; the others answer by
themselves. Only `get_name` sends a text that it has not chosen.
-/
namespace Dumbos.Daemon
open Foundation Common Payload Request

def VERSION_STRING : Bytes := ascii "v4.2.0"

def DUMBOS_USER_DATA_NEW_PROP : Bytes := ascii "dumbos.newuser"
def DUMBOS_USER_DATA_NEW_PROP_VAL : Bytes := ascii "1"

variable (D : Device)

def dumbServerAppend (s : String) : Bytes :=
  D.server ++ (if D.server.getLast? ≠ some 47 then ascii "/" else []) ++ ascii s

def getDumbServerCode : Bytes := dumbServerAppend D "dumb"
def getDumbServerUpload : Bytes := dumbServerAppend D "upload"

def allocGetUser : Act (Except ℕ DumbosUserData) := fun s =>
  (dumbosAllocGetUser (D.userFile s.ticks), { s with ticks := s.ticks + 1 })

/-- The signed address of a request, or the error code when it cannot be made; `code` is missing
for an upload. `onUrl` is the error code when only the text of the address fails. -/
def requestURL (baseURL : Bytes) (netTime : ℤ) (code : Option Bytes) (onUrl : Reply → ℤ) :
    Act (Except ℤ Bytes) := do
  let user ← allocGetUser D
  match user with
  | .error errno => return .error errno
  | .ok user => do
    let random ← call D
    match if random.ret < 0 then none else requestIdGenerate D.charSigned random.data with
    | none => return .error random.errno
    | some requestid => do
      let malloc ← call D
      if malloc.ret < 0 then return .error malloc.errno
      else match requestIdSign D.ed user.name requestid netTime user.key with
        | .error err => return .error err.code
        | .ok signature => do
          let url ← call D
          if url.ret < 0 then return .error (onUrl url)
          else return .ok (allocConstructRequestURL baseURL user.name requestid signature.val
            netTime code)

/-- The time of the network, then the rest. -/
def withNetworkTime (rest : ℤ → Act ℤ) : Act ℤ := do
  let netTime ← call D
  if netTime.ret < 0 then
    fail "failed to get time from network (check your connection?)" netTime.errno
  else rest netTime.ret

/-- What the client is told about a download that failed. -/
def downloadFailed (errno : ℕ) : Act ℤ :=
  if errno = ECONNREFUSED then fail "check your connection" errno
  else if errno = EPROTO then fail "invalid code" errno
  else fail "failed to download, either bad code or bad connection" errno

/-- A downloaded buffer is handled if it can hold a payload. -/
def handleDownload (netTime : ℤ) (payload : Bytes) : Act ℤ :=
  if h : payload.length < sizeofDumbPayload then fail "invalid" EINVAL.code
  else do
    let (err, _) ← handleOnePayload D netTime (DumbPayload.ofBytes payload (header_le_of_not_lt h))
    return err

/-- The subtraction is one of `size_t`. -/
def secretLenMax : ℕ := (2 ^ 64 + PATH_MAX - (D.tmpdir.length + 1)) % 2 ^ 64

def secretCode (args : List Bytes) : Act ℤ :=
  match args with
  | [code] =>
    if secretLenMax D < code.length then fail "secret_code: secret too long" ENAMETOOLONG.code
    else withNetworkTime D fun netTime => do
      -- `err` is still 0 when the address cannot be written
      let url ← requestURL D (getDumbServerCode D) netTime (some code) (fun _ => 0)
      match url with
      | .error err => return err
      | .ok url => do
        send (ascii "downloading...")
        let payload ← fetch D url
        if payload.ret < 0 then downloadFailed payload.errno
        else handleDownload D netTime payload.data
  | _ => fail "secret_code: expected exactly ONE code\n" EINVAL.code

def cmdGetUsername : Act ℤ := do
  let user ← allocGetUser D
  match user with
  | .error errno => fail "internal error" errno
  | .ok user => do
    send user.name
    send (dumbosGetFancyName user)
    -- the text on the lock screen is set as far as it can be
    let _ ← call D
    return 0

/-- A count of written bytes below the size of the data is a failure. -/
def writeNewUser (data : Bytes) : Act ℤ := do
  let opened ← call D
  if opened.ret < 0 then return opened.errno
  else do
    let written ← call D
    -- `fclose` hands on what the stream has buffered, and that a part may be lost goes unseen
    let flushed ← call D
    modify fun s =>
      { s with newUser := some ((data.take written.ret.toNat).take flushed.ret.toNat) }
    if written.ret ≠ data.length then fail "internal error" written.errno
    else do
      let setprop ← execvWrapper D [ascii "/system/bin/setprop", DUMBOS_USER_DATA_NEW_PROP,
        DUMBOS_USER_DATA_NEW_PROP_VAL]
      if setprop.ret < 0 then fail "internal error" setprop.errno
      else if setprop.ret ≠ 0 then fail "internal error" setprop.ret
      else fail "done." 0

def mallocHexToBuf (hex : Bytes) : Act (Except ℕ Bytes) :=
  if hex.length % 2 ≠ 0 then return .error EINVAL
  else do
    let malloc ← call D
    if malloc.ret < 0 then return .error malloc.errno
    else match hexPairs D.charSigned hex with
      | none => return .error EINVAL
      | some data => return .ok data

def cmdSetname (args : List Bytes) : Act ℤ :=
  match args with
  | [] => fail "not enough data provided" EINVAL.code
  | hex :: _ => do
    let data ← mallocHexToBuf D hex
    match data with
    | .error errno => fail (if errno = EINVAL then "bad data" else "internal error") errno
    | .ok data => do
      let olduserdata ← allocGetUser D
      match olduserdata with
      | .ok _ => fail "a user has already been set" EUSERS.code
      | .error errno =>
        if errno ≠ ENOENT then fail "a user has already been set" EUSERS.code
        else writeNewUser D data

def oemLocking (lock : Bool) : Act ℤ := do
  send (ascii (if lock then "disabling OEM unlock" else "enabling OEM unlock"))
  setOemLock D lock

def cmdVersion : Act ℤ := do
  send VERSION_STRING
  return 0

/-- The files in the order in which they are sent. -/
def uploadFiles (url : Bytes) : List Bytes → Act ℤ
  | [] => return 0
  | _ :: files => do
    let stat ← call D
    if stat.ret ≠ 0 then return stat.errno
    else do
      let opened ← call D
      if opened.ret = 0 then return opened.errno
      else do
        let malloc ← call D
        if malloc.ret < 0 then return malloc.errno
        else do
          let read ← call D
          if read.ret < 0 then return read.errno
          else do
            let posted ← fetch D url
            if posted.ret ≠ 0 then return posted.errno else uploadFiles url files

/-- The last file is sent first. -/
def cmdUploadData (args : List Bytes) : Act ℤ :=
  if args = [] then fail "not enough arguments" EINVAL.code
  else withNetworkTime D fun netTime => do
    let url ← requestURL D (getDumbServerUpload D) netTime none (fun url => url.errno)
    match url with
    | .error err => return err
    | .ok url => uploadFiles D url args.reverse

inductive ClientCommand where
  | ok
  | notok
  | code
  | getUsername
  | oemLock
  | version
  | setname
  | uploadData
deriving DecidableEq

def commandsList : List (Bytes × ClientCommand) :=
  [(ascii "ok", .ok), (ascii "notok", .notok), (ascii "code", .code),
    (ascii "get_name", .getUsername), (ascii "oem_lock", .oemLock), (ascii "version", .version),
    (ascii "set_name", .setname), (ascii "upload_data", .uploadData)]

def ClientCommand.ofName (name : Bytes) : Option ClientCommand :=
  (commandsList.find? (fun entry => entry.1 == name)).map Prod.snd

def ClientCommand.run (args : List Bytes) : ClientCommand → Act ℤ
  | .ok => return 0
  | .notok => return 1
  | .code => secretCode D args
  | .getUsername => cmdGetUsername D
  | .oemLock => oemLocking D true
  | .version => cmdVersion
  | .setname => cmdSetname D args
  | .uploadData => cmdUploadData D args

def doCommand (name : Bytes) (args : List Bytes) : Act ℤ :=
  match ClientCommand.ofName name with
  | some command => command.run D args
  | none => fail "Bad command" EINVAL.code

end Dumbos.Daemon
