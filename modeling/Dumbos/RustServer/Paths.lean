import Dumbos.RustServer.Dumbcode

/-! # The paths of the Rust server

Global codes, the codes of a user and the data of a user stand in one directory. The
prefixes that tell them apart are text that a name can be made of: the codes of a user
named `user` stand where the data of the users are.
-/
namespace Dumbos.RustServer
open Foundation Common

def SERVER_USER_FANCYNAME_FILE : Bytes := ascii "fancyname"
def SERVER_USER_BLOB_FILE : Bytes := ascii "userdata.blob"

def createUserBlobPath (directory user : Bytes) : Bytes :=
  createUserPath directory user ++ SERVER_USER_BLOB_FILE

def createUserFancynamePath (directory user : Bytes) : Bytes :=
  createUserPath directory user ++ SERVER_USER_FANCYNAME_FILE

/-- The paths of the files of a user. -/
def userFiles (directory user : Bytes) : List Bytes :=
  [createUserPubkeyPath directory user, createUserBlobPath directory user,
    createUserFancynamePath directory user]

/-- A component that leads to an entry of its directory. -/
structure Inner (part : Bytes) : Prop where
  slash : 47 ∉ part
  dot : part ≠ ascii "."
  dots : part ≠ ascii ".."

/-- No component leads out of the directory. -/
def Below (directory path : Bytes) : Prop :=
  ∃ parts : List Bytes, path = withSlash directory ++ List.intercalate [47] parts ∧
    ∀ part ∈ parts, Inner part

/-- The user of a code, where no user stands for a global code, and the code. -/
structure CodeName where
  user : Bytes
  code : Bytes
  user_allowed : ∀ c ∈ user, c ∈ DUMBOS_USER_ALLOWED_CHARS
  code_allowed : ∀ c ∈ code, c ∈ SECRET_CODE_ALLOWED_CHARS

/-- A user with data. -/
structure UserName where
  user : Bytes
  user_ne : user ≠ []
  user_allowed : ∀ c ∈ user, c ∈ DUMBOS_USER_ALLOWED_CHARS

/-- The path of a code stands for it alone, is no path of a user, and stays in the directory. -/
structure Separate (directory : Bytes) (n n' : CodeName) (u : UserName) : Prop where
  injective : createCodeFilename directory n.user n.code = createCodeFilename directory n'.user n'.code →
    n.user = n'.user ∧ n.code = n'.code
  created : ∃ path, createCodeFilename directory n.user n.code = some (.ok path) ∧
    withSlash path ≠ withSlash (createUserPath directory u.user) ∧
    (∀ file ∈ userFiles directory u.user, path ≠ file) ∧ Below directory path
  data : Below directory (createUserPath directory u.user) ∧
    ∀ file ∈ userFiles directory u.user, Below directory file

/-- What follows the directory in the path of a code. -/
def CodeName.rest (n : CodeName) : Bytes :=
  (if n.user = [] then [] else n.user ++ [47]) ++ (CODE_FILE_PREFIX ++ n.code)

section Names
variable {user : Bytes}

theorem slash_not_mem_user (h : ∀ c ∈ user, c ∈ DUMBOS_USER_ALLOWED_CHARS) : 47 ∉ user :=
  fun hmem => absurd (h 47 hmem) (by decide)

theorem withSlash_of_not_mem {s : Bytes} (h : 47 ∉ s) : withSlash s = s ++ [47] :=
  if_neg fun hlast => h (List.mem_of_getLast? hlast)

theorem inner_user (h : ∀ c ∈ user, c ∈ DUMBOS_USER_ALLOWED_CHARS) : Inner user := by
  have hdot : (46 : UInt8) ∉ DUMBOS_USER_ALLOWED_CHARS := by decide
  refine ⟨slash_not_mem_user h, ?_, ?_⟩ <;> rintro rfl <;> exact hdot (h 46 (by decide))

end Names

namespace CodeName
variable (n n' : CodeName)

theorem slash_not_mem_file : 47 ∉ CODE_FILE_PREFIX ++ n.code := by
  intro hmem
  rcases List.mem_append.mp hmem with hmem | hmem
  · exact absurd hmem (by decide)
  · exact absurd (n.code_allowed 47 hmem) (by decide)

theorem createCodeFilename_eq (directory : Bytes) :
    createCodeFilename directory n.user n.code = some (.ok (withSlash directory ++ n.rest)) := by
  rw [createCodeFilename_clean directory n.user_allowed n.code_allowed,
    withSlash_of_not_mem (slash_not_mem_user n.user_allowed), rest, List.append_assoc,
    List.append_assoc]

/-- The slash behind the user, where there is one, cuts the path. -/
theorem rest_inj (h : n.rest = n'.rest) : n.user = n'.user ∧ n.code = n'.code := by
  rw [rest, rest] at h
  by_cases hu : n.user = [] <;> by_cases hu' : n'.user = []
  · rw [if_pos hu, if_pos hu'] at h
    exact ⟨hu.trans hu'.symm, List.append_cancel_left (List.append_cancel_left h)⟩
  · rw [if_pos hu, if_neg hu', List.nil_append] at h
    exact absurd (h ▸ by simp) n.slash_not_mem_file
  · rw [if_neg hu, if_pos hu', List.nil_append] at h
    exact absurd (h ▸ by simp) n'.slash_not_mem_file
  · rw [if_neg hu, if_neg hu'] at h
    obtain ⟨huser, hfile⟩ := userRequestid_inj n.user_allowed n'.user_allowed h
    exact ⟨huser, List.append_cancel_left hfile⟩

/-- Only a user named like the prefix of the data of users has codes there. -/
theorem rest_eq_user_iff {s : Bytes} :
    n.rest = USERDATA_PREFIX ++ s ↔ n.user = ascii "user" ∧ s = CODE_FILE_PREFIX ++ n.code := by
  have hprefix : USERDATA_PREFIX = ascii "user" ++ ascii "/" := by decide
  have hallowed : ∀ c ∈ ascii "user", c ∈ DUMBOS_USER_ALLOWED_CHARS := by decide +kernel
  rw [rest, hprefix]
  by_cases hu : n.user = []
  · rw [if_pos hu, List.nil_append]
    refine iff_of_false (fun h => ?_) fun h => absurd (h.1.symm.trans hu) (by decide)
    refine absurd (?_ : 47 ∈ CODE_FILE_PREFIX ++ n.code) n.slash_not_mem_file
    rw [h]
    exact List.mem_append_left _ (by decide)
  · rw [if_neg hu]
    constructor
    · intro h
      obtain ⟨huser, hfile⟩ := userRequestid_inj n.user_allowed hallowed h
      exact ⟨huser, hfile.symm⟩
    · rintro ⟨huser, rfl⟩
      rw [huser]
      rfl

theorem inner_file : Inner (CODE_FILE_PREFIX ++ n.code) := by
  have hhead : (CODE_FILE_PREFIX ++ n.code).head? = some 99 := rfl
  refine ⟨n.slash_not_mem_file, ?_, ?_⟩ <;> intro h <;> rw [h] at hhead <;>
    exact absurd hhead (by decide)

theorem below (directory : Bytes) : Below directory (withSlash directory ++ n.rest) := by
  by_cases hu : n.user = []
  · refine ⟨[CODE_FILE_PREFIX ++ n.code], ?_, ?_⟩
    · rw [rest, if_pos hu]
      simp
    · intro part hpart
      rw [List.mem_singleton.mp hpart]
      exact n.inner_file
  · refine ⟨[n.user, CODE_FILE_PREFIX ++ n.code], ?_, ?_⟩
    · rw [rest, if_neg hu]
      simp [List.intercalate]
    · rw [List.forall_mem_cons, List.forall_mem_singleton]
      exact ⟨inner_user n.user_allowed, n.inner_file⟩

theorem withSlash_path (directory : Bytes) :
    withSlash (withSlash directory ++ n.rest) = withSlash directory ++ n.rest ++ [47] := by
  have hlast : (withSlash directory ++ n.rest).getLast? = (CODE_FILE_PREFIX ++ n.code).getLast? := by
    have hne : CODE_FILE_PREFIX ++ n.code ≠ [] := by
      have : CODE_FILE_PREFIX ≠ [] := by decide
      simp [this]
    rw [rest, ← List.append_assoc, List.getLast?_append_of_ne_nil _ hne]
  rw [withSlash, if_neg]
  rw [hlast]
  exact fun h => n.slash_not_mem_file (List.mem_of_getLast? h)

end CodeName

namespace UserName
variable (u : UserName) (directory : Bytes)

theorem createUserPath_eq :
    createUserPath directory u.user = withSlash directory ++ (USERDATA_PREFIX ++ (u.user ++ [47])) := by
  rw [createUserPath, if_neg u.user_ne, withSlash_of_not_mem (slash_not_mem_user u.user_allowed),
    List.append_assoc]

theorem withSlash_createUserPath :
    withSlash (createUserPath directory u.user) = createUserPath directory u.user := by
  rw [withSlash, if_pos]
  rw [createUserPath_eq, ← List.append_assoc, ← List.append_assoc, List.getLast?_concat]

theorem below {name : Bytes} (h : Inner name) :
    Below directory (createUserPath directory u.user ++ name) := by
  refine ⟨[ascii "user", u.user, name], ?_, ?_⟩
  · have hprefix : USERDATA_PREFIX = ascii "user" ++ [47] := by decide
    rw [createUserPath_eq, hprefix]
    simp [List.intercalate]
  · rw [List.forall_mem_cons, List.forall_mem_cons, List.forall_mem_singleton]
    exact ⟨⟨by decide, by decide, by decide⟩, inner_user u.user_allowed, h⟩

/-- A file in the directory of a user is one level too deep for a code. -/
theorem path_ne_file (n : CodeName) (name : Bytes) :
    withSlash directory ++ n.rest ≠ createUserPath directory u.user ++ name := by
  rw [createUserPath_eq, List.append_assoc, List.append_assoc]
  intro h
  obtain ⟨-, hfile⟩ := n.rest_eq_user_iff.mp (List.append_cancel_left h)
  refine absurd (?_ : 47 ∈ CODE_FILE_PREFIX ++ n.code) n.slash_not_mem_file
  rw [← hfile]
  simp

end UserName

theorem mem_userFiles {directory user file : Bytes} (h : file ∈ userFiles directory user) :
    ∃ name, Inner name ∧ file = createUserPath directory user ++ name := by
  rw [userFiles, List.mem_cons, List.mem_cons, List.mem_singleton] at h
  rcases h with rfl | rfl | rfl
  · exact ⟨SERVER_USER_PUBKEY_FILE, ⟨by decide, by decide, by decide⟩, rfl⟩
  · exact ⟨SERVER_USER_BLOB_FILE, ⟨by decide, by decide, by decide⟩, rfl⟩
  · exact ⟨SERVER_USER_FANCYNAME_FILE, ⟨by decide, by decide, by decide⟩, rfl⟩

section Collision
variable {directory : Bytes} {n n' : CodeName} {u : UserName}

/-- The one way in which a code stands where the data of a user are. -/
theorem withSlash_path_eq_iff (directory : Bytes) (n : CodeName) (u : UserName) :
    withSlash (withSlash directory ++ n.rest) = withSlash (createUserPath directory u.user) ↔
      n.user = ascii "user" ∧ u.user = CODE_FILE_PREFIX ++ n.code := by
  rw [n.withSlash_path, u.withSlash_createUserPath, u.createUserPath_eq, ← n.rest_eq_user_iff,
    ← List.append_assoc USERDATA_PREFIX, ← List.append_assoc, List.append_left_inj,
    List.append_right_inj]

theorem Separate.not_collides (h : Separate directory n n' u) :
    ¬(n.user = ascii "user" ∧ u.user = CODE_FILE_PREFIX ++ n.code) := by
  obtain ⟨-, ⟨path, hcreate, hne, -⟩, -⟩ := h
  rw [n.createCodeFilename_eq, Option.some.injEq, Except.ok.injEq] at hcreate
  rw [← withSlash_path_eq_iff directory, hcreate]
  exact hne

end Collision

/-- Paths are separate but for the data of a user with the name of a file of a code of `user`. -/
theorem createCodeFilename_separate_iff (directory : Bytes) (n n' : CodeName) (u : UserName) :
    Separate directory n n' u ↔ ¬(n.user = ascii "user" ∧ u.user = CODE_FILE_PREFIX ++ n.code) := by
  constructor
  · exact Separate.not_collides
  · intro hne
    rw [← withSlash_path_eq_iff directory] at hne
    refine ⟨?_, ⟨_, n.createCodeFilename_eq directory, hne, ?_, n.below directory⟩, ?_, ?_⟩
    · intro h
      rw [n.createCodeFilename_eq, n'.createCodeFilename_eq, Option.some.injEq, Except.ok.injEq] at h
      exact n.rest_inj n' (List.append_cancel_left h)
    · intro file hfile
      obtain ⟨name, -, rfl⟩ := mem_userFiles hfile
      exact u.path_ne_file directory n name
    · rw [← List.append_nil (createUserPath directory u.user)]
      exact u.below directory ⟨by simp, by decide, by decide⟩
    · intro file hfile
      obtain ⟨name, hinner, rfl⟩ := mem_userFiles hfile
      exact u.below directory hinner

/-- The code `x` of the user `user`, and the data of the user `code-x`. -/
theorem not_createCodeFilename_separate :
    ¬∀ (directory : Bytes) (n n' : CodeName) (u : UserName), Separate directory n n' u := by
  intro h
  let n : CodeName := ⟨ascii "user", ascii "x", by decide +kernel, by decide +kernel⟩
  have hseparate := h (ascii "d") n n ⟨ascii "code-x", by decide +kernel, by decide +kernel⟩
  exact hseparate.not_collides ⟨rfl, by decide +kernel⟩

end Dumbos.RustServer
