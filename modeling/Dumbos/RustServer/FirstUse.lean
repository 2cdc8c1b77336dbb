import Dumbos.Payload.Offset
import Dumbos.RustServer.Dumbcode

/-! # The Rust server forgets the first use

The time of first use is computed on the payload in memory and leaves with the
answer; the next request reads the same file and starts to count again. A payload
therefore expires after its first use only where nothing can tell the difference.
-/
namespace Dumbos.RustServer
open Foundation Common Payload

/-- The response is the payload. -/
def Served (e : Call Server Visit Response) (bytes : Bytes) : Prop := e.output = some (.ok bytes)

def expireField (bytes : Bytes) : Bytes := slice ED25519_SIGNATURE_HEX_SIZE EXPIRE_SIZE bytes

/-- No response comes `d` seconds after the first one or later, and all carry its expire field. -/
def ExpiresAfterFirstUse (d : ℤ) (run : List (Call Server Visit Response)) : Prop :=
  ∀ pre first post b₀, run = pre ++ first :: post → (∀ e ∈ pre, ∀ b, ¬Served e b) →
    Served first b₀ → ∀ e ∈ run, ∀ b, Served e b →
      e.input.env.now < first.input.env.now + d ∧ expireField b = expireField b₀

/-- The file is refused for its size, or all requests come at the same time; with an offset of
zero none comes at the time 0, at which the text `0` would make the payload valid for ever. -/
def Unobserved (d : ℤ) (file : Bytes) (hfile : sizeofDumbPayload ≤ file.length)
    (visits : List Visit) : Prop :=
  dpValidateSize (DumbPayload.ofBytes file hfile) file.length = false ∨
    (d = 0 ∧ ∀ v ∈ visits, v.env.now ≠ 0) ∨
    (0 < d ∧ ∀ v ∈ visits, ∀ w ∈ visits, v.env.now = w.env.now)

/-- Nothing fails on the way, and the clock can be printed. -/
structure Visit.Smooth (v : Visit) : Prop where
  push : v.env.pushError = none
  malloc : v.env.mallocFails = false
  clock : 0 ≤ v.env.now ∧ v.env.now ≤ 10 ^ 12

variable {E : Ed25519} {privateKey directory : Bytes}

theorem serveCode_eq_ok {v : Visit} {userPath globalPath : Bytes} {s : Server} {bytes : Bytes}
    (h : (serveCode E privateKey v userPath globalPath s).1 = some (.ok bytes)) :
    ∃ personal file,
      readCode v.env s.files v.params.user v.params.code userPath globalPath = .ok (personal, file) ∧
      servePayload E privateKey v.env v.params.user v.params.code personal file = .ok bytes := by
  rw [serveCode] at h
  cases hread : readCode v.env s.files v.params.user v.params.code userPath globalPath with
  | error r =>
    simp only [hread] at h
    cases answer_eq_ok h
  | ok r =>
    simp only [hread] at h
    refine ⟨r.1, r.2, rfl, ?_⟩
    cases hserve : servePayload E privateKey v.env v.params.user v.params.code r.1 r.2 with
    | error e =>
      simp only [hserve] at h
      cases answer_eq_ok h
    | ok b =>
      simp only [hserve] at h
      cases answer_eq_ok h
      rfl

/-- A response has passed every check, on the file of its code. -/
theorem dumbcodeMain_eq_ok {s : Server} {v : Visit} {bytes : Bytes}
    (h : (dumbcodeMain E privateKey directory s v).1 = some (.ok bytes)) :
    Authenticated E directory s v ∧ ∃ personal file, Reads directory s.files v personal file ∧
      servePayload E privateKey v.env v.params.user v.params.code personal file = .ok bytes := by
  rw [dumbcodeMain] at h
  split at h
  · cases h
  · cases answer_eq_ok h
  · next globalPath hglobal =>
    split at h
    · cases h
    · cases answer_eq_ok h
    · next userPath huser =>
      split at h
      · cases h
      · cases answer_eq_ok h
      · cases answer_eq_ok h
      · next requestIds hverify =>
        obtain ⟨personal, file, hread, hserve⟩ := serveCode_eq_ok h
        refine ⟨?_, personal, file, ⟨userPath, globalPath, hglobal, huser, hread⟩, hserve⟩
        rw [Authenticated, hverify]
        rfl

theorem Reads.unique {files : Files} {v : Visit} {personal personal' : Bool} {file file' : Bytes}
    (h : Reads directory files v personal file) (h' : Reads directory files v personal' file') :
    personal = personal' ∧ file = file' := by
  obtain ⟨userPath, globalPath, hglobal, huser, hread⟩ := h
  obtain ⟨userPath', globalPath', hglobal', huser', hread'⟩ := h'
  rw [hglobal, Option.some.injEq, Except.ok.injEq] at hglobal'
  rw [huser, Option.some.injEq, Except.ok.injEq] at huser'
  rw [← hglobal', ← huser', hread, Except.ok.injEq, Prod.mk.injEq] at hread'
  exact hread'

/-- No request changes a file. -/
theorem dumbcodeMain_files (s : Server) (v : Visit) :
    (dumbcodeMain E privateKey directory s v).2.files = s.files := by
  rw [dumbcodeMain]
  split
  · rfl
  · exact answer_files
  · split
    · rfl
    · exact answer_files
    · split
      · rfl
      · exact answer_files
      · exact answer_files
      · rw [serveCode]
        split
        · exact answer_files
        · split <;> exact answer_files

section Served
variable {s : Server} {v : Visit} {personal : Bool} {file bytes : Bytes} {d : ℤ}

/-- The expire field of a response is that of the checked payload. -/
theorem expireField_served {env : Env} {user code : Bytes}
    (hfile : sizeofDumbPayload ≤ file.length)
    (h : servePayload E privateKey env user code personal file = .ok bytes) :
    expireField bytes = (dpIsExpired env.now (DumbPayload.ofBytes file hfile)).2.expire.val := by
  obtain ⟨_, -, -, q, hsign, rfl⟩ := servePayload_eq_ok h
  obtain ⟨-, -, signature, -, rfl⟩ := dpSign_eq_ok hsign
  rw [expireField, DumbPayload.slice_expire]
  rfl

/-- A response on a file with an offset: its time of expiry is counted from the request. -/
theorem served_offset (hfile : sizeofDumbPayload ≤ file.length)
    (hoffset : documentedOffset (DumbPayload.ofBytes file hfile) = some d)
    (hreads : Reads directory s.files v personal file)
    (h : (dumbcodeMain E privateKey directory s v).1 = some (.ok bytes)) :
    dpValidateSize (DumbPayload.ofBytes file hfile) file.length ∧ (d = 0 → v.env.now = 0) ∧
      expireField bytes = (dpSetExpire (DumbPayload.ofBytes file hfile)
        (firstUse v.env.now (DumbPayload.ofBytes file hfile))).expire.val := by
  obtain ⟨-, _, _, hreads', hserve⟩ := dumbcodeMain_eq_ok h
  obtain ⟨rfl, rfl⟩ := hreads.unique hreads'
  obtain ⟨hunset, hcode, hd, hzero, -⟩ := useOffset_of_documentedOffset hoffset
  obtain ⟨_, hsize, hfresh, -⟩ := servePayload_eq_ok hserve
  refine ⟨hsize, fun hd0 => ?_, ?_⟩
  · rw [dpIsExpired_eq_compare, dpIsExpiredCompare_eq_false_iff, dpGetExpireOrSet_unset hunset] at hfresh
    have := hzero.mpr hd0
    simp only [firstUse] at hfresh
    omega
  · rw [expireField_served hfile hserve, dpIsExpired_eq_compare, dpIsExpiredCompare_snd,
      dpGetExpireOrSet_unset hunset]

/-- Without a failure a payload of the right size that is not expired is served. -/
theorem servePayload_of_fresh {env : Env} {user code : Bytes} (hs : Signs E privateKey)
    (hmalloc : env.mallocFails = false) (hfile : sizeofDumbPayload ≤ file.length)
    (hsize : dpValidateSize (DumbPayload.ofBytes file hfile) file.length)
    (hfresh : (dpIsExpired env.now (DumbPayload.ofBytes file hfile)).1 = false) :
    ∃ bytes, servePayload E privateKey env user code personal file = .ok bytes := by
  obtain ⟨hmax, hlen⟩ := (dpValidateSize_iff _ _).mp hsize
  have hload : u8ToDumbpayload env file = .ok (DumbPayload.ofBytes file hfile) := by
    simp [u8ToDumbpayload, not_lt.mpr hfile, hmalloc, hsize]
  generalize hchecked : dpIsExpired env.now (DumbPayload.ofBytes file hfile) = r at hfresh
  obtain ⟨expired, p⟩ := r
  have hdata : p.dataSize = (DumbPayload.ofBytes file hfile).dataSize := by
    have hp : p = (dpIsExpiredCompare env.now env.now (DumbPayload.ofBytes file hfile)).2 := by
      rw [← dpIsExpired_eq_compare, hchecked]
    rw [hp, dpIsExpiredCompare_dataSize]
  obtain ⟨signature, hsign⟩ := dpSign_signs hs hfile p
  have hvalid : ∀ q : DumbPayload, q.dataSize = p.dataSize → dpValidateSize q file.length := by
    intro q hq
    rw [dpValidateSize_congr (hq.trans hdata)]
    exact hsize
  have hget : dpGetDataSize p = some (bigEndian (DumbPayload.ofBytes file hfile).dataSize.val) := by
    rw [dpGetDataSize, hdata, if_neg (not_lt.mpr hmax)]
  have hsigned : sign E privateKey p = .ok (setSignature p signature) := by
    simp only [sign, hget, Nat.add_comm _ sizeofDumbPayload, ← hlen, hvalid p rfl, Bool.not_true,
      Bool.false_eq_true, if_false, hsign]
  obtain rfl : expired = false := hfresh
  refine ⟨(setSignature p signature).toBytes.take
    (sizeofDumbPayload + bigEndian (setSignature p signature).dataSize.val), ?_⟩
  simp only [servePayload, hload, hchecked, Bool.false_eq_true, if_false, hsigned, dumbpayloadToU8,
    hvalid (setSignature p signature) rfl, Bool.not_true]

theorem dumbcodeMain_smooth (hs : Signs E privateKey) (hv : v.Smooth) (hlock : s.poisoned = false)
    (hauth : Authenticated E directory s v) (hreads : Reads directory s.files v personal file)
    (hfile : sizeofDumbPayload ≤ file.length)
    (hsize : dpValidateSize (DumbPayload.ofBytes file hfile) file.length)
    (hfresh : (dpIsExpired v.env.now (DumbPayload.ofBytes file hfile)).1 = false) :
    ∃ bytes, (dumbcodeMain E privateKey directory s v).1 = some (.ok bytes) := by
  obtain ⟨userPath, globalPath, hglobal, huser, hread⟩ := hreads
  obtain ⟨bytes, hserve⟩ : ∃ bytes, servePayload E privateKey v.env v.params.user v.params.code
      personal file = .ok bytes :=
    servePayload_of_fresh hs hv.malloc hfile hsize hfresh
  refine ⟨bytes, ?_⟩
  generalize hverify : dumbVerifyRequest E v.env s.files directory v.params s.requestIds = r
  obtain ⟨result, requestIds⟩ := r
  rw [Authenticated, hverify] at hauth
  obtain rfl : result = some (.ok (.ok ())) := hauth
  simp only [dumbcodeMain, hglobal, huser, hverify, serveCode, hread, hserve]
  exact (answer_of_push (s := { s with requestIds := requestIds }) hv.push hlock).1

/-- Smooth visits do not poison the lock of the events. -/
theorem dumbcodeMain_poisoned (hv : v.Smooth) (hlock : s.poisoned = false) :
    (dumbcodeMain E privateKey directory s v).2.poisoned = false := by
  have hanswer : ∀ event result (s : Server), s.poisoned = false →
      (answer v.env event result s).2.poisoned = false :=
    fun event result s h => (answer_of_push hv.push h).2
  rw [dumbcodeMain]
  split
  · exact hlock
  · exact hanswer _ _ _ hlock
  · split
    · exact hlock
    · exact hanswer _ _ _ hlock
    · split
      · exact hlock
      · exact hanswer _ _ _ hlock
      · exact hanswer _ _ _ hlock
      · rw [serveCode]
        split
        · exact hanswer _ _ _ hlock
        · split <;> exact hanswer _ _ _ hlock

end Served

section Run
variable {s : Server} {file : Bytes} {d : ℤ} {visits : List Visit}

/-- Every call of a run is a visit to the files of its start. -/
theorem mem_trace_dumbcodeMain {e : Call Server Visit Response}
    (he : e ∈ trace (dumbcodeMain E privateKey directory) s visits) :
    e.input ∈ visits ∧ e.before.files = s.files ∧
      e.output = (dumbcodeMain E privateKey directory e.before e.input).1 := by
  have hfiles := trace_invariant (dumbcodeMain E privateKey directory)
    (fun s' => s'.files = s.files) s visits rfl (by
      intro e he hbefore
      rw [eq_callOf_of_mem_trace _ he]
      exact (dumbcodeMain_files _ _).trans hbefore)
  refine ⟨input_mem_of_mem_trace _ he, (hfiles.1 e he).1, ?_⟩
  conv_lhs => rw [eq_callOf_of_mem_trace _ he]
  rfl

variable (hfile : sizeofDumbPayload ≤ file.length)
  (hoffset : documentedOffset (DumbPayload.ofBytes file hfile) = some d)
  (hreads : ∀ v ∈ visits, ∃ personal, Reads directory s.files v personal file)

include hoffset hreads

theorem served_of_mem {e : Call Server Visit Response} {bytes : Bytes}
    (he : e ∈ trace (dumbcodeMain E privateKey directory) s visits) (h : Served e bytes) :
    dpValidateSize (DumbPayload.ofBytes file hfile) file.length ∧ (d = 0 → e.input.env.now = 0) ∧
      expireField bytes = (dpSetExpire (DumbPayload.ofBytes file hfile)
        (firstUse e.input.env.now (DumbPayload.ofBytes file hfile))).expire.val := by
  obtain ⟨hin, hfiles, hout⟩ := mem_trace_dumbcodeMain he
  obtain ⟨personal, hread⟩ := hreads _ hin
  exact served_offset hfile hoffset (hfiles ▸ hread) (hout.symm.trans h)

theorem expiresAfterFirstUse_of_unobserved (hcond : Unobserved d file hfile visits) :
    ExpiresAfterFirstUse d (trace (dumbcodeMain E privateKey directory) s visits) := by
  intro pre first post b₀ hrun _ hfirst e he b hb
  have hmem : first ∈ trace (dumbcodeMain E privateKey directory) s visits := by simp [hrun]
  obtain ⟨hsize, hzero, hexpire⟩ := served_of_mem hfile hoffset hreads he hb
  rcases hcond with hinvalid | ⟨hd, hclock⟩ | ⟨hd, hsame⟩
  · rw [hinvalid] at hsize
    cases hsize
  · exact absurd (hzero hd) (hclock _ (mem_trace_dumbcodeMain he).1)
  · have hnow := hsame _ (mem_trace_dumbcodeMain he).1 _ (mem_trace_dumbcodeMain hmem).1
    rw [hexpire, (served_of_mem hfile hoffset hreads hmem hfirst).2.2, hnow]
    exact ⟨by omega, rfl⟩

/-- In a smooth run every request is served whose time of expiry lies ahead. -/
theorem exists_served (hs : Signs E privateKey) (hsmooth : ∀ v ∈ visits, v.Smooth)
    (hlock : s.poisoned = false)
    (hauth : ∀ e ∈ trace (dumbcodeMain E privateKey directory) s visits,
      Authenticated E directory e.before e.input)
    (hsize : dpValidateSize (DumbPayload.ofBytes file hfile) file.length)
    {e : Call Server Visit Response} (he : e ∈ trace (dumbcodeMain E privateKey directory) s visits)
    (htime : d = 0 → e.input.env.now = 0) : ∃ b, Served e b := by
  have hpoison := trace_invariant (dumbcodeMain E privateKey directory)
    (fun s' => s'.poisoned = false) s visits hlock (by
      intro e he hbefore
      rw [eq_callOf_of_mem_trace _ he]
      exact dumbcodeMain_poisoned (hsmooth _ (input_mem_of_mem_trace _ he)) hbefore)
  obtain ⟨hin, hfiles, hout⟩ := mem_trace_dumbcodeMain he
  obtain ⟨personal, hread⟩ := hreads _ hin
  obtain ⟨hunset, hcode, -, hzero, -⟩ := useOffset_of_documentedOffset hoffset
  have hfresh : (dpIsExpired e.input.env.now (DumbPayload.ofBytes file hfile)).1 = false := by
    rw [dpIsExpired_eq_compare, dpIsExpiredCompare_eq_false_iff, dpGetExpireOrSet_unset hunset]
    simp only [firstUse]
    by_cases hd : d = 0
    · have := htime hd
      have := hzero.mpr hd
      omega
    · have := mt hzero.mp hd
      omega
  obtain ⟨b, hb⟩ := dumbcodeMain_smooth hs (hsmooth _ hin) (hpoison.1 e he).1 (hauth e he)
    (hfiles ▸ hread) hfile hsize hfresh
  exact ⟨b, hout.trans hb⟩

omit hoffset hreads in
/-- The first response of a run. -/
theorem exists_first_served {run : List (Call Server Visit Response)}
    (h : ∃ e ∈ run, ∃ b, Served e b) :
    ∃ pre first post b₀, run = pre ++ first :: post ∧ (∀ e ∈ pre, ∀ b, ¬Served e b) ∧
      Served first b₀ := by
  classical
  obtain ⟨e, he, hb⟩ := h
  have hsome : (run.find? fun e => decide (∃ b, Served e b)).isSome := by
    rw [List.find?_isSome]
    exact ⟨e, he, by simpa using hb⟩
  obtain ⟨first, hfirst⟩ := Option.isSome_iff_exists.mp hsome
  obtain ⟨hserved, pre, post, hrun, hpre⟩ := List.find?_eq_some_iff_append.mp hfirst
  obtain ⟨b₀, hb₀⟩ := of_decide_eq_true hserved
  refine ⟨pre, first, post, b₀, hrun, ?_, hb₀⟩
  intro e he b hb
  have hnone : ¬∃ b, Served e b := by simpa using hpre e he
  exact hnone ⟨b, hb⟩

/-- What a run without failures tells when the payload does expire after its first use. -/
theorem unobserved_of_expiresAfterFirstUse (hnul : 0 ∈ (DumbPayload.ofBytes file hfile).expire.val)
    (hs : Signs E privateKey) (hsmooth : ∀ v ∈ visits, v.Smooth) (hlock : s.poisoned = false)
    (hauth : ∀ e ∈ trace (dumbcodeMain E privateKey directory) s visits,
      Authenticated E directory e.before e.input)
    (hexpires : ExpiresAfterFirstUse d (trace (dumbcodeMain E privateKey directory) s visits)) :
    Unobserved d file hfile visits := by
  obtain ⟨-, -, hd, -, hsame⟩ := useOffset_of_documentedOffset hoffset
  by_contra hcond
  simp only [Unobserved, not_or, not_and, Bool.not_eq_false] at hcond
  obtain ⟨hsize, hzero, hpos⟩ := hcond
  have hserved : ∀ e ∈ trace (dumbcodeMain E privateKey directory) s visits,
      (d = 0 → e.input.env.now = 0) → ∃ b, Served e b := fun e he htime =>
    exists_served hfile hoffset hreads hs hsmooth hlock hauth hsize he htime
  have hvisit : ∀ v ∈ visits, ∃ e ∈ trace (dumbcodeMain E privateKey directory) s visits,
      e.input = v := by
    intro v hv
    rw [← trace_map_input (dumbcodeMain E privateKey directory) s visits] at hv
    exact List.mem_map.mp hv
  rcases hd.lt_or_eq' with hlt | rfl
  · have hall : ∀ e ∈ trace (dumbcodeMain E privateKey directory) s visits, ∃ b, Served e b :=
      fun e he => hserved e he (by omega)
    refine hpos hlt fun v hv w hw => ?_
    obtain ⟨e, he, rfl⟩ := hvisit v hv
    obtain ⟨e', he', rfl⟩ := hvisit w hw
    obtain ⟨pre, first, post, b₀, hrun, hpre, hfirst⟩ := exists_first_served ⟨e, he, hall e he⟩
    have hmem : first ∈ trace (dumbcodeMain E privateKey directory) s visits := by simp [hrun]
    -- the text of a time that fits into the field tells the time
    have htime : ∀ e ∈ trace (dumbcodeMain E privateKey directory) s visits,
        e.input.env.now = first.input.env.now := by
      intro e he
      obtain ⟨b, hb⟩ := hall e he
      have hfield := (hexpires pre first post b₀ hrun hpre hfirst e he b hb).2
      rw [(served_of_mem hfile hoffset hreads he hb).2.2,
        (served_of_mem hfile hoffset hreads hmem hfirst).2.2] at hfield
      have hget := dpGetExpire_congr (Subtype.ext hfield)
      have hclock := (hsmooth _ (mem_trace_dumbcodeMain he).1).clock
      have hclock' := (hsmooth _ (mem_trace_dumbcodeMain hmem).1).clock
      have hsmall := documentedOffset_lt hnul hoffset
      rw [firstUse, firstUse, hsame hnul, dpGetExpire_dpSetExpire_eq _ (by omega) (by omega),
        dpGetExpire_dpSetExpire_eq _ (by omega) (by omega)] at hget
      omega
    rw [htime e he, htime e' he']
  · refine hzero rfl fun v hv hv0 => ?_
    obtain ⟨e, he, rfl⟩ := hvisit v hv
    obtain ⟨b, hb⟩ := hserved e he (fun _ => hv0)
    obtain ⟨pre, first, post, b₀, hrun, hpre, hfirst⟩ := exists_first_served ⟨e, he, b, hb⟩
    have hmem : first ∈ trace (dumbcodeMain E privateKey directory) s visits := by simp [hrun]
    have hlt := (hexpires pre first post b₀ hrun hpre hfirst e he b hb).1
    have hfirst0 := (served_of_mem hfile hoffset hreads hmem hfirst).2.1 rfl
    omega

end Run

/-- A payload with an offset expires after its first use in every run that cannot observe it, and
a run without failures, on a field with a NUL, in which it does is such a run. -/
theorem dumbcodeMain_firstUse {s : Server} {file : Bytes} {d : ℤ} {visits : List Visit}
    (hfile : sizeofDumbPayload ≤ file.length)
    (hoffset : documentedOffset (DumbPayload.ofBytes file hfile) = some d)
    (hreads : ∀ v ∈ visits, ∃ personal, Reads directory s.files v personal file) :
    (Unobserved d file hfile visits →
      ExpiresAfterFirstUse d (trace (dumbcodeMain E privateKey directory) s visits)) ∧
    (0 ∈ (DumbPayload.ofBytes file hfile).expire.val → Signs E privateKey →
      (∀ v ∈ visits, v.Smooth) → s.poisoned = false →
      (∀ e ∈ trace (dumbcodeMain E privateKey directory) s visits,
        Authenticated E directory e.before e.input) →
      ExpiresAfterFirstUse d (trace (dumbcodeMain E privateKey directory) s visits) →
        Unobserved d file hfile visits) :=
  ⟨expiresAfterFirstUse_of_unobserved hfile hoffset hreads,
    fun hnul hs hsmooth hlock hauth => unobserved_of_expiresAfterFirstUse hfile hoffset hreads hnul hs
      hsmooth hlock hauth⟩

/-- One user, and one global code that expires 60 seconds after its first use. -/
def defaultServer : Server where
  files path :=
    if path = ascii "d/user/u/pubkey" then .ok (List.replicate 64 99)
    else if path = ascii "d/code-1" then .ok (DumbPayload.unsigned [] (ascii "ok") []).toBytes
    else .error ⟨true, ascii "not found"⟩
  requestIds _ := false
  events := []
  poisoned := false

def visitAt (requestid : Bytes) (now : ℕ) : Visit :=
  ⟨Env.at now, ⟨ascii "u", ascii "1", requestid, singleSignature.val, now⟩⟩

/-- What `defaultServer` answers at a time. -/
def defaultAnswer (now : ℤ) : Bytes :=
  (setSignature (dpSetExpire (DumbPayload.unsigned [] (ascii "ok") []) (now + 60))
    singleSignature).toBytes

theorem defaultServer_reads {requestid : Bytes} {now : ℕ} :
    Reads (ascii "d") defaultServer.files (visitAt requestid now) false
      (DumbPayload.unsigned [] (ascii "ok") []).toBytes := by
  have hglobal : createCodeFilename (ascii "d") [] (ascii "1") = some (.ok (ascii "d/code-1")) := by
    decide +kernel
  have huser : createCodeFilename (ascii "d") (ascii "u") (ascii "1") =
      some (.ok (ascii "d/u/code-1")) := by
    decide +kernel
  exact ⟨_, _, hglobal, huser, rfl⟩

/-- Two requests within one second. -/
def sameSecond : List Visit := [visitAt (ascii "a") 1000, visitAt (ascii "b") 1000]

theorem dumbcodeMain_firstUse_defaultServer :
    ExpiresAfterFirstUse 60 (trace (dumbcodeMain Ed25519.always (List.replicate 64 98) (ascii "d"))
        defaultServer sameSecond) ∧
      Unobserved 60 (DumbPayload.unsigned [] (ascii "ok") []).toBytes
        (DumbPayload.le_toBytes_length _) sameSecond := by
  have hvisits : ∀ v ∈ sameSecond, ∃ requestid, v = visitAt requestid 1000 :=
    List.forall_mem_cons.mpr ⟨⟨_, rfl⟩, List.forall_mem_singleton.mpr ⟨_, rfl⟩⟩
  obtain ⟨hkeeps, htells⟩ := @dumbcodeMain_firstUse Ed25519.always (List.replicate 64 98) (ascii "d")
    defaultServer (DumbPayload.unsigned [] (ascii "ok") []).toBytes 60 sameSecond
    (DumbPayload.le_toBytes_length _) (by decide) (by
      intro v hv
      obtain ⟨requestid, rfl⟩ := hvisits v hv
      exact ⟨false, defaultServer_reads⟩)
  have hsame : ∀ v ∈ sameSecond, ∀ w ∈ sameSecond, v.env.now = w.env.now := by
    intro v hv w hw
    obtain ⟨_, rfl⟩ := hvisits v hv
    obtain ⟨_, rfl⟩ := hvisits w hw
    rfl
  have hexpires := hkeeps (Or.inr (Or.inr ⟨by decide, hsame⟩))
  refine ⟨hexpires, htells (by decide) ⟨by decide, fun _ => ⟨_, rfl⟩⟩ ?_ rfl ?_ hexpires⟩
  · intro v hv
    obtain ⟨requestid, rfl⟩ := hvisits v hv
    have hbound : (1000 : ℤ) ≤ 10 ^ 12 := by decide
    exact ⟨rfl, rfl, Int.natCast_nonneg 1000, hbound⟩
  · intro e he
    simp only [sameSecond, trace_cons, trace_nil, List.mem_cons, List.not_mem_nil, or_false] at he
    rcases he with rfl | rfl
    · rw [Authenticated]
      decide
    · rw [Authenticated]
      decide +kernel

/-- The payload is served 1000 seconds after its first use. -/
theorem dumbcodeMain_defaultServer :
    ¬ExpiresAfterFirstUse 60 (trace (dumbcodeMain Ed25519.always (List.replicate 64 98) (ascii "d"))
      defaultServer [visitAt (ascii "a") 1000, visitAt (ascii "b") 2000]) := by
  intro h
  have hlate := h [] _ _ (defaultAnswer 1000) rfl (by simp) (by
    rw [Served]
    decide +kernel) _ (List.mem_cons_of_mem _ (List.mem_singleton_self _)) (defaultAnswer 2000) (by
    rw [Served]
    decide +kernel)
  revert hlate
  decide

end Dumbos.RustServer
