import Dumbos.Foundation.Run
import Dumbos.System.CreateUser

/-! # The users of a server

Users are created in one directory, one call after another. A call may fail in any
step and leave something behind, but it touches nothing that was there before. So a
user that was created is found from then on, and its name is taken.
-/
namespace Dumbos.System
open Foundation Common RustTool RustServer

section Path
variable {user : Bytes}

theorem withSlash_eq_concat (s : Bytes) : ∃ front, withSlash s = front ++ [slash] := by
  rw [withSlash]
  split_ifs with hlast
  · exact ⟨s.dropLast, (List.dropLast_append_getLast? slash hlast).symm⟩
  · exact ⟨s, rfl⟩

theorem proper_user (h : ∀ ch ∈ user, ch ∈ DUMBOS_USER_ALLOWED_CHARS) (hne : user ≠ []) :
    Proper user where
  ne_nil := hne
  slash := slash_not_mem_user h
  ne_dot := (inner_user h).dot
  ne_dots := (inner_user h).dots

/-- What the path of a user has behind the directory of the server. -/
def userComponents (user : Bytes) : List Bytes := ascii "user" :: if user = [] then [] else [user]

theorem dots_not_mem_userComponents (h : ∀ ch ∈ user, ch ∈ DUMBOS_USER_ALLOWED_CHARS) :
    ∀ name ∈ userComponents user, name ≠ dots := by
  rw [userComponents, List.forall_mem_cons]
  refine ⟨by decide, fun name hname => ?_⟩
  split_ifs at hname with huser
  · cases hname
  · rw [List.mem_singleton.mp hname]
    exact (inner_user h).dots

theorem components_createUserPath (directory : Bytes)
    (h : ∀ ch ∈ user, ch ∈ DUMBOS_USER_ALLOWED_CHARS) :
    components (createUserPath directory user) =
      components (withSlash directory) ++ userComponents user := by
  obtain ⟨front, hfront⟩ := withSlash_eq_concat directory
  have hdata : USERDATA_PREFIX = ascii "user" ++ [slash] := by decide
  have hname : components (ascii "user") = [ascii "user"] :=
    components_proper ⟨by decide, by decide, by decide, by decide⟩
  have hnil : components [] = [] := rfl
  rw [createUserPath, hfront, hdata, userComponents]
  split_ifs with huser
  · have hpath : front ++ [slash] ++ (ascii "user" ++ [slash]) ++ [] =
        front ++ slash :: ascii "user" ++ slash :: [] := by simp
    rw [hpath, components_append_slash, components_append_slash, components_append_slash, hname, hnil]
    simp
  · have hpath : front ++ [slash] ++ (ascii "user" ++ [slash]) ++ (user ++ [47]) =
        front ++ slash :: ascii "user" ++ slash :: user ++ slash :: [] := by simp [slash]
    rw [withSlash_of_not_mem (slash_not_mem_user h), hpath, components_append_slash,
      components_append_slash, components_append_slash, components_append_slash, hname, hnil,
      components_proper (proper_user h huser)]
    simp

theorem startFrom_createUserPath (cwd : Place) (directory user : Bytes) :
    startFrom cwd (createUserPath directory user) = startFrom cwd (withSlash directory) := by
  obtain ⟨front, hfront⟩ := withSlash_eq_concat directory
  rw [createUserPath, List.append_assoc, startFrom_append]
  rw [hfront]
  exact List.append_ne_nil_of_right_ne_nil front (List.cons_ne_nil slash [])

end Path

/-- In the path of the directory, what stands in front of a `..` is there. -/
structure ServerDirectory (v : Volume) (cwd : Place) (directory : String) : Prop where
  atCwd : v.node cwd = some .directory
  grounded : Grounded v (startFrom cwd (withSlash (ascii directory)))
    (components (withSlash (ascii directory))).reverse

/-- The user is there. -/
structure Enrolled (v : Volume) (cwd : Place) (c : Creation) (n : NewUser) : Prop where
  isDir : v.isDir (startFrom cwd n.user.datapath) (components n.user.datapath).reverse = true
  pubkey : v.read cwd (none : Option IoFault)
    (createUserPubkeyPath (ascii c.directory) (ascii c.username)) = .ok (ascii n.user.pubkey)
  fancyname : v.read cwd (none : Option IoFault)
    (createUserFancynamePath (ascii c.directory) (ascii c.username)) = .ok (ascii n.user.fancyname)
  blob : v.read cwd (none : Option IoFault)
    (createUserBlobPath (ascii c.directory) (ascii c.username)) = .ok n.blob

section Step
variable {v v' : Volume} {cwd : Place} {directory : String} {c : Creation} {n : NewUser}

theorem ServerDirectory.mono (h : ServerDirectory v cwd directory) (hextends : Extends v v') :
    ServerDirectory v' cwd directory where
  atCwd := hextends.node h.atCwd
  grounded := hextends.grounded h.grounded

theorem ServerDirectory.userPath (h : ServerDirectory v cwd directory) {user : Bytes}
    (hchars : ∀ ch ∈ user, ch ∈ DUMBOS_USER_ALLOWED_CHARS) :
    Grounded v (startFrom cwd (createUserPath (ascii directory) user))
      (components (createUserPath (ascii directory) user)).reverse := by
  rw [startFrom_createUserPath, components_createUserPath _ hchars, List.reverse_append]
  apply h.grounded.append
  intro name hname
  exact dots_not_mem_userComponents hchars name (List.mem_reverse.mp hname)

theorem Enrolled.mono (h : Enrolled v cwd c n) (hextends : Extends v v') : Enrolled v' cwd c n where
  isDir := hextends.isDir h.isDir
  pubkey := hextends.read h.pubkey
  fancyname := hextends.read h.fancyname
  blob := hextends.read h.blob

/-- The three files that were written hold the user. -/
theorem enrolled_of_written {v'' : Volume} (hcwd : v'.node cwd = some .directory)
    (hadmitted : Admitted v cwd c n)
    (hfresh : Fresh v' (startFrom cwd n.user.datapath) (components n.user.datapath).reverse)
    (hextends : Extends v' v'') (h : Volume.writeAll cwd (c.files n) v' = (.ok (), v'')) :
    Enrolled v'' cwd c n := by
  have hwritable : ∀ w ∈ c.files n, v'.Writable cwd w := by
    by_contra hnot
    obtain ⟨e, v₁, hfailed, -⟩ := writeAll_of_not hnot
    rw [h] at hfailed
    cases hfailed
  have hapart := (writable_of_fresh hadmitted hcwd hfresh).2
  obtain ⟨v₁, hwriteAll, -, hreads⟩ :=
    @writeAll_readBack IoFault [c.pubkeyFile n, c.fancynameFile n] v' cwd (c.blobFile n) hwritable
  have hsame : v'' = v₁ := congrArg Prod.snd (h.symm.trans hwriteAll)
  have hfiles := hreads.mpr hapart
  have hblob := @writeAll_last IoFault [c.pubkeyFile n, c.fancynameFile n] v' v'' cwd (c.blobFile n)
    hwritable _ h
  rw [← hsame, List.forall_mem_cons, List.forall_mem_singleton] at hfiles
  obtain ⟨p, left, hleads, hp, -⟩ := hfresh
  exact ⟨hextends.isDir (isDir_eq_true_iff.mpr ⟨p, left, hleads, hp⟩), hfiles.1, hfiles.2, hblob⟩

/-- Whatever fails, a call leaves all that was there. If it creates the user, the user is there and
was not before. -/
theorem new_keeps (h : ServerDirectory v cwd c.directory) :
    Extends v (DumbUser.new v cwd c).2 ∧ ∀ user, (DumbUser.new v cwd c).1 = .ok user →
      ∃ n, n.user = user ∧ checkNew v cwd c = .ok n ∧ Enrolled (DumbUser.new v cwd c).2 cwd c n := by
  cases hcheck : checkNew v cwd c with
  | error e =>
    have hnew : DumbUser.new v cwd c = (.error e, v) := by rw [DumbUser.new, hcheck]
    rw [hnew]
    exact ⟨.refl v, by rintro _ ⟨⟩⟩
  | ok n =>
    have hadmitted := checkNew_eq_ok hcheck
    have hgrounded := h.userPath (ensureChars_eq_ok hadmitted.chars)
    rw [← hadmitted.path] at hgrounded
    have houtcome := makePath_outcome h.atCwd hadmitted hgrounded
    cases hmake : c.makePath v cwd with | mk result v' =>
    rw [hmake] at houtcome
    cases result with
    | error e =>
      have hnew : DumbUser.new v cwd c = (.error (ioFailure e), v') := by
        rw [DumbUser.new, hcheck]
        dsimp only
        rw [hmake]
      rw [hnew]
      refine ⟨?_, by rintro _ ⟨⟩⟩
      rcases houtcome with ⟨-, _, hsame⟩ | ⟨_, -, hgrown, -⟩
      · rw [(Prod.mk.inj hsame).2]
        exact .refl v
      · exact hgrown.keeps
    | ok u =>
      rcases houtcome with ⟨-, _, hsame⟩ | ⟨_, -, hgrown, ⟨-, -, hfresh⟩ | ⟨-, _, hfailed⟩⟩
      · cases (Prod.mk.inj hsame).1
      · have hcwd := hgrown.keeps.node h.atCwd
        have hwritten : Extends v' (Volume.writeAll cwd (c.files n) v').2 :=
          writeAll_extends (files_of_fresh hadmitted hcwd hfresh)
        rw [new_of_makePath hcheck hmake]
        cases hwriteAll : Volume.writeAll cwd (c.files n) v' with | mk result v'' =>
        rw [hwriteAll] at hwritten
        cases result with
        | error e => exact ⟨hgrown.keeps.trans hwritten, by rintro _ ⟨⟩⟩
        | ok u =>
          refine ⟨hgrown.keeps.trans hwritten, fun user huser => ?_⟩
          cases huser
          exact ⟨n, rfl, rfl, enrolled_of_written hcwd hadmitted hfresh hwritten hwriteAll⟩
      · cases hfailed

end Step

section Creations
variable {v : Volume} {cwd : Place} {directory : String} {run : List Creation}

/-- One call of a run. -/
def createStep (cwd : Place) (v : Volume) (c : Creation) : Except Failure DumbUser × Volume :=
  DumbUser.new v cwd c

/-- All that was there is there before each call of a run and at its end. -/
theorem run_extends (h : ServerDirectory v cwd directory) (hrun : ∀ c ∈ run, c.directory = directory) :
    (∀ e ∈ trace (createStep cwd) v run, Extends v e.before) ∧
      Extends v (finalState (createStep cwd) v run) := by
  have hstep : ∀ e ∈ trace (createStep cwd) v run, Extends v e.before → Extends v e.after := by
    intro e he hbefore
    have hdirectory := hrun e.input (input_mem_of_mem_trace _ he)
    rw [eq_callOf_of_mem_trace _ he]
    exact hbefore.trans (new_keeps (hdirectory ▸ h.mono hbefore)).1
  obtain ⟨htrace, hfinal⟩ := trace_invariant (createStep cwd) (Extends v) v run (.refl v) hstep
  exact ⟨fun e he => (htrace e he).1, hfinal⟩

/-- A name that is taken stays taken. -/
theorem Enrolled.refuses {other : DumbUser} {c c' : Creation} {n : NewUser} (h : Enrolled v cwd c n)
    (hpath : n.user.datapath = createUserPath (ascii c.directory) (ascii c.username))
    (hserver : ServerDirectory v cwd c'.directory) (hdirectory : c'.directory = c.directory)
    (hnew : (DumbUser.new v cwd c').1 = .ok other) : c.username ≠ c'.username := by
  intro hname
  obtain ⟨n', -, hcheck, -⟩ := (new_keeps hserver).2 other hnew
  have hadmitted := checkNew_eq_ok hcheck
  have hmissing := hadmitted.isDir
  rw [hadmitted.path, hdirectory, ← hname, ← hpath, h.isDir] at hmissing
  cases hmissing

/-- However users are created one after another in a directory, and whatever calls fail on the way:
a user that was created is found as it was created, and no name is given twice. -/
theorem users_kept (h : ServerDirectory v cwd directory) (hrun : ∀ c ∈ run, c.directory = directory) :
    (∀ e ∈ trace (createStep cwd) v run, ∀ user, e.output = .ok user →
      DumbUser.get (finalState (createStep cwd) v run) cwd none none directory e.input.username =
        .ok user) ∧
    (trace (createStep cwd) v run).Pairwise fun e e' => ∀ user user', e.output = .ok user →
      e'.output = .ok user' → e.input.username ≠ e'.input.username := by
  induction run generalizing v with
  | nil => exact ⟨by simp, .nil⟩
  | cons c run ih =>
    obtain ⟨hhere, hrest⟩ := List.forall_mem_cons.mp hrun
    subst hhere
    obtain ⟨hextends, hcreated⟩ := new_keeps h
    have hserver := h.mono hextends
    obtain ⟨hkept, honce⟩ := ih hserver hrest
    obtain ⟨hbefore, hfinal⟩ := run_extends hserver hrest
    rw [trace_cons, finalState_cons]
    constructor
    · rw [List.forall_mem_cons]
      refine ⟨fun user huser => ?_, hkept⟩
      obtain ⟨n, rfl, hcheck, henrolled⟩ := hcreated user huser
      have hlater := henrolled.mono hfinal
      exact (get_eq_ok_iff (checkNew_eq_ok hcheck) _ hlater.fancyname).mpr ⟨hlater.pubkey, rfl⟩
    · rw [List.pairwise_cons]
      refine ⟨fun e he user user' huser huser' => ?_, honce⟩
      obtain ⟨n, -, hcheck, henrolled⟩ := hcreated user huser
      have hdirectory := hrest e.input (input_mem_of_mem_trace _ he)
      rw [eq_callOf_of_mem_trace _ he] at huser'
      exact (henrolled.mono (hbefore e he)).refuses (checkNew_eq_ok hcheck).path
        (hdirectory ▸ hserver.mono (hbefore e he)) hdirectory huser'

end Creations

/-- A user is created, the key of another one cannot be written, and the first one is asked for once
more. -/
def threeCalls : List Creation :=
  [someone none, { someone (some (.opening ⟨ENOMEM, enomem_ne_enoent⟩)) with username := "w" },
    someone none]

theorem serverDirectory_bare : ServerDirectory bareVolume [] "/" :=
  ⟨rfl, [], [], rfl, by decide +kernel, by decide +kernel⟩

theorem users_kept_threeCalls :
    (trace (createStep []) bareVolume threeCalls).map (·.output.isOk) = [true, false, false] ∧
      ∃ user, DumbUser.get (finalState (createStep []) bareVolume threeCalls) [] none none "/" "u" =
        .ok user := by
  refine ⟨by decide +kernel, ?_⟩
  have hrun : ∀ c ∈ threeCalls, c.directory = "/" := by simp [threeCalls, someone]
  have hkept := users_kept serverDirectory_bare hrun
  have hfirst : (callOf (createStep []) bareVolume (someone none)).output.isOk = true := by
    decide +kernel
  have hmem : callOf (createStep []) bareVolume (someone none) ∈
      trace (createStep []) bareVolume threeCalls := by
    rw [threeCalls, trace_cons]
    exact List.mem_cons_self
  cases hcreated : (callOf (createStep []) bareVolume (someone none)).output with
  | error e =>
    rw [hcreated] at hfirst
    cases hfirst
  | ok user =>
    have hget := hkept.1 _ hmem user hcreated
    exact ⟨user, hget⟩

end Dumbos.System
