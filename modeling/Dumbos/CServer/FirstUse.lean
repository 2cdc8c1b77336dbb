import Dumbos.Foundation.Run
import Dumbos.CServer.Load

/-! # The C server remembers the first use

Until a call succeeds the file keeps its bytes. The first success writes the time
at which the payload expires, and that text is read back as the same time by
every later call, which therefore writes the bytes it has read.
-/
namespace Dumbos.CServer
open Foundation Common Payload

/-- A call that opens the path and meets no failure, with a clock that can be printed. -/
structure LoadCall.Opens (c : LoadCall) (fs : FileSystem) (path : Bytes) : Prop where
  opens : openCode fs c.code c.username = some path
  faultless : c.faults = LoadFaults.none
  clock : 0 ≤ c.now ∧ c.now ≤ 10 ^ 12

/-- The same files exist, and the one at `path` has this content. -/
structure HoldsAt (fs₀ : FileSystem) (path file : Bytes) (fs : FileSystem) : Prop where
  exist : ∀ p, (fs p).isSome = (fs₀ p).isSome
  content : fs path = some file

variable {E : Ed25519} {key : Bytes}

section Step
variable {fs₀ fs : FileSystem} {c : LoadCall} {path file : Bytes}

theorem dpMallocCheckLoad_opens (hc : c.Opens fs₀ path) (h : HoldsAt fs₀ path file fs) :
    dpMallocCheckLoad E key fs c =
      ((checkLoad E key c.now LoadFaults.none file).1,
        writeOver fs path (checkLoad E key c.now LoadFaults.none file).2) := by
  have hopen : openCode fs c.code c.username = some path := by
    rw [openCode_congr h.exist, hc.opens]
  simp only [dpMallocCheckLoad, hc.faultless, LoadFaults.none, hopen, h.content, Bool.false_eq_true,
    if_false]

theorem checked_length (now : ℤ) (hfile : sizeofDumbPayload ≤ file.length) :
    (dpIsExpired now (DumbPayload.ofBytes file hfile)).2.toBytes.length = file.length := by
  rw [dpIsExpired_eq_compare, dpIsExpiredCompare_toBytes_length, DumbPayload.toBytes_ofBytes]

/-- The file is refused: its time is over, or its length is negative as an `int`. -/
def Refuses (now : ℤ) (file : Bytes) (hfile : sizeofDumbPayload ≤ file.length) : Prop :=
  (dpIsExpired now (DumbPayload.ofBytes file hfile)).1 = true ∨ NegativeInt file.length

instance (now : ℤ) (file : Bytes) (hfile : sizeofDumbPayload ≤ file.length) :
    Decidable (Refuses now file hfile) := inferInstanceAs (Decidable (_ ∨ _))

theorem checkLoad_refused (hfile : sizeofDumbPayload ≤ file.length)
    (h : Refuses c.now file hfile) : checkLoad E key c.now LoadFaults.none file = (none, []) := by
  rw [checkLoad, dif_neg (not_lt.mpr hfile)]
  rcases h with h | h <;> simp [LoadFaults.none, h]

theorem checkLoad_served (hs : Signs E key) (hfile : sizeofDumbPayload ≤ file.length)
    (h : ¬Refuses c.now file hfile) :
    ∃ s, checkLoad E key c.now LoadFaults.none file =
      (some (setSignature (dpIsExpired c.now (DumbPayload.ofBytes file hfile)).2 s, file.length),
        (dpIsExpired c.now (DumbPayload.ofBytes file hfile)).2.toBytes) := by
  obtain ⟨s, hsign⟩ := dpSign_signs hs hfile (dpIsExpired c.now (DumbPayload.ofBytes file hfile)).2
  refine ⟨s, ?_⟩
  obtain ⟨hfresh, hint⟩ := not_or.mp h
  rw [checkLoad, dif_neg (not_lt.mpr hfile)]
  simp only [LoadFaults.none, Bool.false_eq_true, if_false, hfresh, hint, writeBack, hsign]

/-- A call either refuses and leaves every file alone, or serves what it has written. -/
theorem dpMallocCheckLoad_step (hs : Signs E key) (hc : c.Opens fs₀ path)
    (h : HoldsAt fs₀ path file fs) (hfile : sizeofDumbPayload ≤ file.length) :
    let checked := dpIsExpired c.now (DumbPayload.ofBytes file hfile)
    if Refuses c.now file hfile then dpMallocCheckLoad E key fs c = (none, fs)
    else ∃ s, (dpMallocCheckLoad E key fs c).1 = some (setSignature checked.2 s, file.length) ∧
      HoldsAt fs₀ path checked.2.toBytes (dpMallocCheckLoad E key fs c).2 := by
  rw [dpMallocCheckLoad_opens hc h]
  intro checked
  split_ifs with hexp
  · rw [checkLoad_refused hfile hexp, writeOver_nil]
  · obtain ⟨s, hload⟩ := checkLoad_served hs hfile hexp
    rw [hload]
    refine ⟨s, rfl, fun p => ?_, ?_⟩
    · rw [writeOver_isSome, h.exist]
    · exact writeOver_same h.content (checked_length c.now hfile)

/-- What is returned is what the file then holds, apart from the signature. -/
def ServesFile (path : Bytes) (e : Call FileSystem LoadCall (Option (DumbPayload × ℕ))) : Prop :=
  ∀ q n, e.output = some (q, n) → ∃ file, e.after path = some file ∧ n = file.length ∧
    q.toBytes.length = n ∧
    q.toBytes.drop ED25519_SIGNATURE_HEX_SIZE = file.drop ED25519_SIGNATURE_HEX_SIZE

theorem servesFile_callOf (hs : Signs E key) (hc : c.Opens fs₀ path) (h : HoldsAt fs₀ path file fs)
    (hfile : sizeofDumbPayload ≤ file.length) :
    ServesFile path (callOf (dpMallocCheckLoad E key) fs c) := by
  intro q n hout
  have hstep := dpMallocCheckLoad_step hs hc h hfile
  simp only [callOf] at hout hstep ⊢
  split_ifs at hstep
  · rw [hstep] at hout
    cases hout
  · obtain ⟨s, hserved, hafter⟩ := hstep
    rw [hserved, Option.some.injEq, Prod.mk.injEq] at hout
    obtain ⟨rfl, rfl⟩ := hout
    have hlen := checked_length c.now hfile
    refine ⟨_, hafter.content, hlen.symm, ?_, ?_⟩
    · rw [← hlen, DumbPayload.toBytes_length, DumbPayload.toBytes_length]
      rfl
    · rw [DumbPayload.toBytes_drop_signature, DumbPayload.toBytes_drop_signature]
      rfl

/-- A call that refuses leaves the content, whatever it is. -/
theorem holdsAt_of_refused (hs : Signs E key) (hc : c.Opens fs₀ path) (h : HoldsAt fs₀ path file fs)
    (hfile : sizeofDumbPayload ≤ file.length) (hout : (dpMallocCheckLoad E key fs c).1 = none) :
    HoldsAt fs₀ path file (dpMallocCheckLoad E key fs c).2 := by
  have hstep := dpMallocCheckLoad_step hs hc h hfile
  simp only at hstep
  split_ifs at hstep
  · rwa [hstep]
  · obtain ⟨s, hserved, -⟩ := hstep
    rw [hserved] at hout
    cases hout

theorem refuses_absolute_iff {now : ℤ} {p : DumbPayload} (hp : dpGetExpire p ≠ -1)
    (hint : ¬NegativeInt p.toBytes.length) :
    Refuses now p.toBytes p.le_toBytes_length ↔ dpGetExpire p ≠ 0 ∧ dpGetExpire p ≤ now := by
  rw [Refuses, or_iff_left hint, DumbPayload.ofBytes_toBytes, dpIsExpired_eq_compare,
    dpIsExpiredCompare_absolute hp]
  exact decide_eq_true_iff

/-- A file with a time in it is compared and never changed. -/
theorem holdsAt_frozen (hs : Signs E key) (hc : c.Opens fs₀ path) {p : DumbPayload}
    (hp : dpGetExpire p ≠ -1) (hint : ¬NegativeInt p.toBytes.length)
    (h : HoldsAt fs₀ path p.toBytes fs) :
    HoldsAt fs₀ path p.toBytes (dpMallocCheckLoad E key fs c).2 ∧
      ((dpMallocCheckLoad E key fs c).1.isSome ↔ dpGetExpire p = 0 ∨ c.now < dpGetExpire p) := by
  have hstep := dpMallocCheckLoad_step hs hc h p.le_toBytes_length
  rw [DumbPayload.ofBytes_toBytes, dpIsExpired_eq_compare, dpIsExpiredCompare_absolute hp] at hstep
  simp only at hstep
  split_ifs at hstep with hexp
  · rw [hstep]
    rw [refuses_absolute_iff hp hint] at hexp
    refine ⟨h, ?_⟩
    simp only [Option.isSome_none, Bool.false_eq_true, false_iff]
    omega
  · obtain ⟨s, hserved, hafter⟩ := hstep
    rw [refuses_absolute_iff hp hint] at hexp
    refine ⟨hafter, ?_⟩
    rw [hserved]
    simp only [Option.isSome_some, true_iff]
    omega

end Step

section Run
variable {fs : FileSystem} {path file : Bytes}

/-- Whatever the file has become, a call serves what it then holds. -/
theorem trace_servesFile (hs : Signs E key) (hfile : sizeofDumbPayload ≤ file.length)
    (hread : fs path = some file) {calls : List LoadCall} (hcalls : ∀ c ∈ calls, c.Opens fs path) :
    ∀ e ∈ trace (dpMallocCheckLoad E key) fs calls, ServesFile path e := by
  have hinv := trace_invariant (dpMallocCheckLoad E key)
    (fun fs' => ∃ file, sizeofDumbPayload ≤ file.length ∧ HoldsAt fs path file fs') fs calls
    ⟨file, hfile, fun _ => rfl, hread⟩ (by
      rintro e he ⟨file', hfile', h⟩
      have hcall := eq_callOf_of_mem_trace _ he
      have hstep := dpMallocCheckLoad_step hs (hcalls _ (input_mem_of_mem_trace _ he)) h hfile'
      rw [hcall]
      simp only [callOf] at hstep ⊢
      split_ifs at hstep
      · rw [hstep]
        exact ⟨file', hfile', h⟩
      · obtain ⟨s, -, hafter⟩ := hstep
        exact ⟨_, DumbPayload.le_toBytes_length _, hafter⟩)
  intro e he
  obtain ⟨⟨file', hfile', h⟩, -⟩ := hinv.1 e he
  rw [eq_callOf_of_mem_trace _ he]
  exact servesFile_callOf hs (hcalls _ (input_mem_of_mem_trace _ he)) h hfile'

/-- While every call refuses, the file keeps its bytes. -/
theorem trace_refused (hs : Signs E key) (hfile : sizeofDumbPayload ≤ file.length)
    (hread : fs path = some file) {calls : List LoadCall} (hcalls : ∀ c ∈ calls, c.Opens fs path)
    (hrefused : ∀ e ∈ trace (dpMallocCheckLoad E key) fs calls, e.output = none) :
    (∀ e ∈ trace (dpMallocCheckLoad E key) fs calls,
      HoldsAt fs path file e.before ∧ HoldsAt fs path file e.after) ∧
    HoldsAt fs path file (finalState (dpMallocCheckLoad E key) fs calls) := by
  apply trace_invariant
  · exact ⟨fun _ => rfl, hread⟩
  · intro e he hbefore
    have hcall := eq_callOf_of_mem_trace _ he
    have hout := hrefused e he
    rw [hcall] at hout ⊢
    exact holdsAt_of_refused hs (hcalls _ (input_mem_of_mem_trace _ he)) hbefore hfile hout

/-- From a file with a time in it on, the file is the same and its time decides. -/
theorem trace_frozen (hs : Signs E key) {fs₁ : FileSystem} {p : DumbPayload}
    (hp : dpGetExpire p ≠ -1) (hint : ¬NegativeInt p.toBytes.length) (h : HoldsAt fs path p.toBytes fs₁) {calls : List LoadCall}
    (hcalls : ∀ c ∈ calls, c.Opens fs path) :
    ∀ e ∈ trace (dpMallocCheckLoad E key) fs₁ calls,
      HoldsAt fs path p.toBytes e.before ∧ HoldsAt fs path p.toBytes e.after ∧
        (e.output.isSome ↔ dpGetExpire p = 0 ∨ e.input.now < dpGetExpire p) := by
  have hinv := trace_invariant (dpMallocCheckLoad E key) (HoldsAt fs path p.toBytes) fs₁ calls h (by
    intro e he hbefore
    rw [eq_callOf_of_mem_trace _ he]
    exact (holdsAt_frozen hs (hcalls _ (input_mem_of_mem_trace _ he)) hp hint hbefore).1)
  intro e he
  obtain ⟨hbefore, hafter⟩ := hinv.1 e he
  refine ⟨hbefore, hafter, ?_⟩
  rw [eq_callOf_of_mem_trace _ he]
  exact (holdsAt_frozen hs (hcalls _ (input_mem_of_mem_trace _ he)) hp hint hbefore).2

/-- The first success: the file now holds a time that has not come, and nothing else changed. -/
theorem firstSuccess (hs : Signs E key) (hfile : sizeofDumbPayload ≤ file.length)
    {fs₁ : FileSystem} {c : LoadCall} (hc : c.Opens fs path) (h : HoldsAt fs path file fs₁)
    (hout : (dpMallocCheckLoad E key fs₁ c).1.isSome) :
    ∃ p, DumbPayload.SameButExpire (DumbPayload.ofBytes file hfile) p ∧ dpGetExpire p ≠ -1 ∧
      ¬NegativeInt p.toBytes.length ∧ HoldsAt fs path p.toBytes (dpMallocCheckLoad E key fs₁ c).2 ∧
      (dpGetExpire p = 0 ∨ c.now < dpGetExpire p) := by
  have hstep := dpMallocCheckLoad_step hs hc h hfile
  simp only at hstep
  split_ifs at hstep with hexp
  · rw [hstep] at hout
    cases hout
  · obtain ⟨s, -, hafter⟩ := hstep
    obtain ⟨hfresh, hint⟩ := not_or.mp hexp
    rw [Bool.not_eq_true, dpIsExpired_eq_compare] at hfresh
    have htime := lt_dpGetExpire_of_not_expired _ hfresh
    have hclock := hc.clock
    refine ⟨_, dpGetExpireOrSet_frame c.now _, ?_, ?_, hafter, ?_⟩
    · rw [dpIsExpiredCompare_snd] at htime
      omega
    · rwa [← dpIsExpiredCompare_snd c.now c.now, ← dpIsExpired_eq_compare, checked_length]
    · rw [dpIsExpiredCompare_snd] at htime
      omega

/-- The law of first use, over a run of calls that open one file at times that do not go back. -/
theorem dpMallocCheckLoad_firstUse (hs : Signs E key) (hfile : sizeofDumbPayload ≤ file.length)
    (hread : fs path = some file) (calls : List LoadCall) (hcalls : ∀ c ∈ calls, c.Opens fs path)
    (hsorted : calls.Pairwise (fun c d => c.now ≤ d.now)) :
    (∀ e ∈ trace (dpMallocCheckLoad E key) fs calls, ServesFile path e) ∧
    ((∀ e ∈ trace (dpMallocCheckLoad E key) fs calls, e.output = none) →
      ∀ e ∈ trace (dpMallocCheckLoad E key) fs calls, e.after path = some file) ∧
    ∀ pre first post, calls = pre ++ first :: post →
      (∀ e ∈ trace (dpMallocCheckLoad E key) fs pre, e.output = none) →
      (dpMallocCheckLoad E key (finalState (dpMallocCheckLoad E key) fs pre) first).1.isSome →
      (∀ e ∈ trace (dpMallocCheckLoad E key) fs pre, e.after path = some file) ∧
      ∃ p, DumbPayload.SameButExpire (DumbPayload.ofBytes file hfile) p ∧ dpGetExpire p ≠ -1 ∧
        (∀ e ∈ trace (dpMallocCheckLoad E key)
          (finalState (dpMallocCheckLoad E key) fs pre) (first :: post),
            e.after path = some p.toBytes) ∧
        ∀ e ∈ trace (dpMallocCheckLoad E key) fs calls, first.now ≤ e.input.now →
          (e.output.isSome ↔ dpGetExpire p = 0 ∨ e.input.now < dpGetExpire p) := by
  refine ⟨trace_servesFile hs hfile hread hcalls, fun hnone e he =>
    ((trace_refused hs hfile hread hcalls hnone).1 e he).2.content, ?_⟩
  rintro pre first post rfl hnone hsome
  have hpre : ∀ c ∈ pre, c.Opens fs path := fun c hc => hcalls c (by simp [hc])
  have hfirst : first.Opens fs path := hcalls first (by simp)
  have hpost : ∀ c ∈ post, c.Opens fs path := fun c hc => hcalls c (by simp [hc])
  obtain ⟨hbefore, hstart⟩ := trace_refused hs hfile hread hpre hnone
  obtain ⟨p, hsame, hp, hint, hafter, htime⟩ := firstSuccess hs hfile hfirst hstart hsome
  have hfrozen := trace_frozen hs hp hint hafter hpost
  refine ⟨fun e he => (hbefore e he).2.content, p, hsame, hp, ?_, ?_⟩
  · intro e he
    rcases List.mem_cons.mp he with rfl | he
    · exact hafter.content
    · exact (hfrozen e he).2.1.content
  · intro e he hnow
    rw [trace_append, trace_cons, List.mem_append, List.mem_cons] at he
    rcases he with he | rfl | he
    · -- an earlier call at the same time would have found the same bytes and served them
      exfalso
      have hcall := eq_callOf_of_mem_trace _ he
      have hin := input_mem_of_mem_trace _ he
      have hle : e.input.now ≤ first.now := (List.pairwise_append.mp hsorted).2.2 _ hin _ (by simp)
      have hsame_now : e.input.now = first.now := le_antisymm hle hnow
      have hout := hnone e he
      rw [hcall] at hout
      simp only [callOf] at hout
      rw [dpMallocCheckLoad_opens (hpre _ hin) (hbefore e he).1, hsame_now] at hout
      rw [dpMallocCheckLoad_opens hfirst hstart, hout] at hsome
      cases hsome
    · simp only [callOf, hsome, true_iff]
      exact htime
    · exact (hfrozen e he).2.2

end Run

/-- Valid for 60 seconds from the first use. -/
def defaultPayload : DumbPayload := DumbPayload.unsigned [] (ascii "ok") []

theorem dpMallocCheckLoad_firstUse_defaultPayload :
    ∃ p, DumbPayload.SameButExpire (DumbPayload.ofBytes defaultPayload.toBytes
        defaultPayload.le_toBytes_length) p ∧ dpGetExpire p ≠ -1 ∧
      ∀ e ∈ trace (dpMallocCheckLoad Ed25519.always (List.replicate 64 98))
          (oneCode defaultPayload.toBytes) [callOne 1000, callOne 1030, callOne 1100],
        1000 ≤ e.input.now → (e.output.isSome ↔ dpGetExpire p = 0 ∨ e.input.now < dpGetExpire p) := by
  obtain ⟨-, -, h⟩ := @dpMallocCheckLoad_firstUse Ed25519.always (List.replicate 64 98)
    (oneCode defaultPayload.toBytes) (codePath (ascii "1")) defaultPayload.toBytes
    ⟨by decide, fun _ => ⟨_, rfl⟩⟩ defaultPayload.le_toBytes_length (by decide +kernel)
    [callOne 1000, callOne 1030, callOne 1100]
    (by
      intro c hc
      simp only [List.mem_cons, List.not_mem_nil, or_false] at hc
      rcases hc with rfl | rfl | rfl <;> exact ⟨by decide, rfl, by decide⟩)
    (by decide)
  obtain ⟨-, p, hsame, hp, -, hlaw⟩ := h [] (callOne 1000) [callOne 1030, callOne 1100] rfl (by simp)
    (by decide +kernel)
  exact ⟨p, hsame, hp, hlaw⟩

end Dumbos.CServer
