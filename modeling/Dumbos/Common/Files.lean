import Dumbos.Foundation.Bytes

/-! # Names, alphabets and files

The alphabets of names and codes, the parts that paths are made of, and a file
system as far as the servers use one: the content of each path that can be opened.
-/
namespace Dumbos.Common
open Foundation

def SECRET_CODE_ALLOWED_CHARS : Bytes := ascii "qwertyuiopasdfghjklzxcvbnm0123456789-_"

def DUMBOS_USER_ALLOWED_CHARS : Bytes :=
  ascii "qwertyuiopasdfghjklzxcvbnmQWERTYUIOPASDFGHJKLZXCVBNM-_1234567890"

def REQUESTID_ALLOWED_CHARS : Bytes :=
  ascii "qwertyuiopasdfghjklzxcvbnmQWERTYUIOPASDFGHJKLZXCVBNM1234567890"

def CODE_FILE_PATH : Bytes := ascii "dumb-codes/"
def CODE_FILE_PREFIX : Bytes := ascii "code-"
def USERDATA_PREFIX : Bytes := ascii "user/"

def PATH_MAX : ℕ := 4096

def checkAllowedChars (s whitelist : Bytes) : Bool := s.all (fun c => whitelist.contains c)

theorem checkAllowedChars_iff {s whitelist : Bytes} :
    checkAllowedChars s whitelist ↔ ∀ c ∈ s, c ∈ whitelist := by
  simp [checkAllowedChars]

/-- The content of every file that can be opened. -/
abbrev FileSystem := Bytes → Option Bytes

/-- `write_all` over an opened file from offset 0, which does not truncate. -/
def writeOver (fs : FileSystem) (path new : Bytes) : FileSystem :=
  fun p => if p = path then (fs path).map (fun old => new ++ old.drop new.length) else fs p

@[simp] theorem writeOver_nil (fs : FileSystem) (path : Bytes) : writeOver fs path [] = fs := by
  funext p
  by_cases h : p = path <;> simp [writeOver, h]

theorem writeOver_same {fs : FileSystem} {path old new : Bytes} (h : fs path = some old)
    (hlen : new.length = old.length) : writeOver fs path new path = some new := by
  simp [writeOver, h, List.drop_of_length_le hlen.ge]

@[simp] theorem writeOver_isSome (fs : FileSystem) (path new p : Bytes) :
    (writeOver fs path new p).isSome = (fs p).isSome := by
  by_cases h : p = path <;> simp [writeOver, h]

end Dumbos.Common
