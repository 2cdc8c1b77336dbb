import Dumbos.Foundation.Run
import Dumbos.RustServer.Request

/-! # Replay protection under concurrency

Any number of calls of `dumb_verify_request` run at the same time; a turn lets one
of them make its next step. The lookup and the insertion of a request id are two
steps, and nothing keeps a second call from looking the id up between them.
-/
namespace Dumbos.RustServer
open Foundation Common Payload Request

inductive Phase where
  | waiting
  | checked (c : Checked)
  | fresh (c : Checked)
  | verified (c : Checked)
  | done (r : Option VerifyResult)
deriving DecidableEq

namespace Phase

def held : Phase → Option Checked
  | checked c | fresh c | verified c => some c
  | _ => none

/-- The id has been looked up, and the call has not ended. -/
def Pending : Phase → Prop
  | fresh _ | verified _ => True
  | _ => False

instance : DecidablePred Pending
  | fresh _ | verified _ => isTrue trivial
  | waiting | checked _ | done _ => isFalse id

/-- The call has returned `Ok(Ok(()))`. -/
def Accepted (p : Phase) : Prop := p = done (some accepted)

instance (p : Phase) : Decidable p.Accepted := inferInstanceAs (Decidable (p = done (some accepted)))

end Phase

structure Concurrent (ι : Type*) where
  table : Bytes → Bool
  phase : ι → Phase

/-- A call makes its next step; the world may change before every step. -/
structure Turn (ι : Type*) where
  call : ι
  env : Env
  files : Files

variable {ι : Type*} [DecidableEq ι]
variable (E : Ed25519) (directory : Bytes) (request : ι → DumbRequestParams)

def Concurrent.goto (s : Concurrent ι) (i : ι) (p : Phase) : Concurrent ι :=
  { s with phase := Function.update s.phase i p }

def Concurrent.initial (table : Bytes → Bool) : Concurrent ι := ⟨table, fun _ => .waiting⟩

def advance (s : Concurrent ι) (t : Turn ι) : Concurrent ι :=
  match s.phase t.call with
  | .waiting => match checkNames t.env t.files directory (request t.call) with
    | none => s.goto t.call (.done none)
    | some (.error r) => s.goto t.call (.done (some r))
    | some (.ok c) => s.goto t.call (.checked c)
  | .checked c => match lookupRequestId t.env s.table (request t.call) c with
    | .error r => s.goto t.call (.done (some r))
    | .ok () => s.goto t.call (.fresh c)
  | .fresh c => match checkSignature E t.env (request t.call) c with
    | none => s.goto t.call (.done none)
    | some (.error r) => s.goto t.call (.done (some r))
    | some (.ok ()) => s.goto t.call (.verified c)
  | .verified c =>
    let (r, table) := insertRequestId t.env s.table c
    { s.goto t.call (.done (some r)) with table := table }
  | .done _ => s

/-- The machine of all calls; a turn has no answer of its own. -/
def turnStep (s : Concurrent ι) (t : Turn ι) : Unit × Concurrent ι :=
  ((), advance E directory request s t)

/-- Alone, a call goes through the phases of `dumb_verify_request`. -/
theorem advance_alone (s : Concurrent ι) (i : ι) (env : Env) (files : Files)
    (h : s.phase i = .waiting) :
    let end_ := finalState (turnStep E directory request) s (List.replicate 4 ⟨i, env, files⟩)
    let alone := dumbVerifyRequest E env files directory (request i) s.table
    end_.phase i = .done alone.1 ∧ end_.table = alone.2 := by
  simp only [List.replicate, finalState_cons, finalState_nil, turnStep]
  rw [dumbVerifyRequest]
  cases hnames : checkNames env files directory (request i) with
  | none => simp [advance, h, hnames, Concurrent.goto]
  | some r =>
    cases r with
    | error r => simp [advance, h, hnames, Concurrent.goto]
    | ok c =>
      cases hlookup : lookupRequestId env s.table (request i) c with
      | error r => simp [advance, h, hnames, hlookup, Concurrent.goto]
      | ok _ =>
        cases hsig : checkSignature E env (request i) c with
        | none => simp [advance, h, hnames, hlookup, hsig, Concurrent.goto]
        | some r =>
          cases r with
          | error r => simp [advance, h, hnames, hlookup, hsig, Concurrent.goto]
          | ok _ => simp [advance, h, hnames, hlookup, hsig, Concurrent.goto]

/-- The key of a request in the table. -/
def requestKey (q : DumbRequestParams) : Bytes := q.user ++ ascii "/" ++ q.requestid

/-- The names of a call are clean, and what it holds is its own key. -/
def Named (q : DumbRequestParams) (p : Phase) : Prop :=
  (∀ c, p.held = some c → (∀ b ∈ q.user, b ∈ DUMBOS_USER_ALLOWED_CHARS) ∧
    c.userRequestid = requestKey q) ∧
  (p.Accepted → ∀ b ∈ q.user, b ∈ DUMBOS_USER_ALLOWED_CHARS)

theorem checkNames_error {env : Env} {files : Files} {q : DumbRequestParams} {r : VerifyResult}
    (h : checkNames env files directory q = some (.error r)) : r ≠ accepted := by
  rintro rfl
  rw [checkNames] at h
  repeat' split at h
  all_goals simp [accepted] at h

theorem lookupRequestId_error {env : Env} {table : Bytes → Bool} {q : DumbRequestParams} {c : Checked}
    {r : VerifyResult} (h : lookupRequestId env table q c = .error r) : r ≠ accepted := by
  rintro rfl
  rw [lookupRequestId] at h
  repeat' split at h
  all_goals simp [accepted] at h

theorem lookupRequestId_ok {env : Env} {table : Bytes → Bool} {q : DumbRequestParams} {c : Checked}
    (h : lookupRequestId env table q c = .ok ()) : table c.userRequestid = false := by
  rw [lookupRequestId] at h
  split at h
  · cases h
  · split_ifs at h with hin
    simpa using hin

theorem checkSignature_error {env : Env} {q : DumbRequestParams} {c : Checked} {r : VerifyResult}
    (h : checkSignature E env q c = some (.error r)) : r ≠ accepted := by
  rintro rfl
  rw [checkSignature] at h
  repeat' split at h
  all_goals simp [accepted] at h

variable {E directory request}

/-- Everything a turn can do. -/
theorem advance_cases (s : Concurrent ι) (t : Turn ι) :
    advance E directory request s t = s ∨
    (∃ p, advance E directory request s t = s.goto t.call p ∧ ¬p.Pending ∧ ¬p.Accepted ∧
      Named (request t.call) p) ∨
    (∃ c, s.phase t.call = .checked c ∧ s.table c.userRequestid = false ∧
      advance E directory request s t = s.goto t.call (.fresh c)) ∨
    (∃ c, s.phase t.call = .fresh c ∧
      advance E directory request s t = s.goto t.call (.verified c)) ∨
    ∃ c, s.phase t.call = .verified c ∧ advance E directory request s t =
      { s.goto t.call (.done (some accepted)) with
        table := Function.update s.table c.userRequestid true } := by
  have hover : ∀ r, r ≠ some accepted → ¬(Phase.done r).Pending ∧ ¬(Phase.done r).Accepted ∧
      Named (request t.call) (.done r) := by
    intro r hr
    have hnot : ¬(Phase.done r).Accepted := fun h => hr (Phase.done.inj h)
    exact ⟨id, hnot, fun c hc => (by cases hc), fun h => absurd h hnot⟩
  cases hphase : s.phase t.call with
  | waiting =>
    right; left
    cases hnames : checkNames t.env t.files directory (request t.call) with
    | none => exact ⟨_, by simp only [advance, hphase, hnames], hover none (by simp)⟩
    | some r =>
      cases r with
      | error r =>
        have hr := checkNames_error directory hnames
        exact ⟨_, by simp only [advance, hphase, hnames], hover (some r) (by simpa using hr)⟩
      | ok c =>
        have hnamed := checkNames_eq_ok hnames
        refine ⟨.checked c, by simp only [advance, hphase, hnames], id, nofun, ?_, nofun⟩
        rintro d hd
        cases hd
        exact hnamed
  | checked c =>
    right
    cases hlookup : lookupRequestId t.env s.table (request t.call) c with
    | error r =>
      have hr := lookupRequestId_error hlookup
      exact Or.inl ⟨_, by simp only [advance, hphase, hlookup], hover (some r) (by simpa using hr)⟩
    | ok _ =>
      exact Or.inr (Or.inl ⟨c, rfl, lookupRequestId_ok hlookup, by
        simp only [advance, hphase, hlookup]⟩)
  | fresh c =>
    right
    cases hsig : checkSignature E t.env (request t.call) c with
    | none => exact Or.inl ⟨_, by simp only [advance, hphase, hsig], hover none (by simp)⟩
    | some r =>
      cases r with
      | error r =>
        have hr := checkSignature_error E hsig
        exact Or.inl ⟨_, by simp only [advance, hphase, hsig], hover (some r) (by simpa using hr)⟩
      | ok _ => exact Or.inr (Or.inr (Or.inl ⟨c, rfl, by simp only [advance, hphase, hsig]⟩))
  | verified c =>
    right
    cases hinsert : t.env.insertError with
    | some e =>
      refine Or.inl ⟨_, ?_, hover (some (.error (ascii "consuming request id failed:" ++ e)))
        (by simp [accepted])⟩
      simp only [advance, hphase, insertRequestId, hinsert]
      rfl
    | none =>
      refine Or.inr (Or.inr (Or.inr ⟨c, rfl, ?_⟩))
      simp only [advance, hphase, insertRequestId, hinsert]
  | done r => exact Or.inl (by simp only [advance, hphase])

/-- No other call on the same pair stands between its lookup and its insertion when a call makes
its lookup. -/
def QuietLookup (request : ι → DumbRequestParams) (s : Concurrent ι) (t : Turn ι) : Prop :=
  ∀ c, s.phase t.call = .checked c → ∀ j, j ≠ t.call → (s.phase j).Pending →
    requestKey (request j) ≠ requestKey (request t.call)

/-- What holds between the turns of a run whose lookups are quiet. -/
structure ReplayInv (request : ι → DumbRequestParams) (table : Bytes → Bool) (s : Concurrent ι) :
    Prop where
  named : ∀ i, Named (request i) (s.phase i)
  kept : ∀ k, table k → s.table k
  unseen : ∀ i, (s.phase i).Pending → s.table (requestKey (request i)) = false
  alone : ∀ i j, (s.phase i).Pending → (s.phase j).Pending →
    requestKey (request i) = requestKey (request j) → i = j
  recorded : ∀ i, (s.phase i).Accepted → s.table (requestKey (request i))
  new : ∀ i, (s.phase i).Accepted → table (requestKey (request i)) = false
  once : ∀ i j, (s.phase i).Accepted → (s.phase j).Accepted →
    requestKey (request i) = requestKey (request j) → i = j

omit [DecidableEq ι] in
theorem replayInv_initial (table : Bytes → Bool) :
    ReplayInv request table (Concurrent.initial table) where
  named _ := ⟨nofun, nofun⟩
  kept _ h := h
  unseen _ h := h.elim
  alone _ _ h := h.elim
  recorded _ h := nomatch h
  new _ h := nomatch h
  once _ _ h := nomatch h

section Step
variable {table : Bytes → Bool} {s : Concurrent ι} {i : ι}

theorem Concurrent.goto_phase (s : Concurrent ι) (i : ι) (p : Phase) (j : ι) :
    (s.goto i p).phase j = if j = i then p else s.phase j :=
  Function.update_apply s.phase i p j

/-- A call that neither looks up nor is accepted disturbs nobody. -/
theorem ReplayInv.goto_idle (h : ReplayInv request table s) {p : Phase} (hpend : ¬p.Pending)
    (hacc : ¬p.Accepted) (hnamed : Named (request i) p) : ReplayInv request table (s.goto i p) := by
  have hP : ∀ j, ((s.goto i p).phase j).Pending → (s.phase j).Pending := by
    intro j hj
    rw [Concurrent.goto_phase] at hj
    split_ifs at hj
    · exact absurd hj hpend
    · exact hj
  have hA : ∀ j, ((s.goto i p).phase j).Accepted → (s.phase j).Accepted := by
    intro j hj
    rw [Concurrent.goto_phase] at hj
    split_ifs at hj
    · exact absurd hj hacc
    · exact hj
  refine ⟨fun j => ?_, h.kept, fun j hj => h.unseen j (hP j hj),
    fun j k hj hk => h.alone j k (hP j hj) (hP k hk), fun j hj => h.recorded j (hA j hj),
    fun j hj => h.new j (hA j hj), fun j k hj hk => h.once j k (hA j hj) (hA k hk)⟩
  rw [Concurrent.goto_phase]
  split_ifs with hji
  · exact hji ▸ hnamed
  · exact h.named j

/-- A quiet lookup that finds nothing makes the call the only one on its pair. -/
theorem ReplayInv.goto_fresh (h : ReplayInv request table s) {c : Checked}
    (hphase : s.phase i = .checked c) (hnew : s.table c.userRequestid = false)
    (hquiet : ∀ j, j ≠ i → (s.phase j).Pending → requestKey (request j) ≠ requestKey (request i)) :
    ReplayInv request table (s.goto i (.fresh c)) := by
  have hheld := (h.named i).1 c (by rw [hphase]; rfl)
  have hA : ∀ j, ((s.goto i (.fresh c)).phase j).Accepted → (s.phase j).Accepted := by
    intro j hj
    rw [Concurrent.goto_phase] at hj
    split_ifs at hj
    · cases hj
    · exact hj
  refine ⟨fun j => ?_, h.kept, fun j hj => ?_, fun j k hj hk hkey => ?_,
    fun j hj => h.recorded j (hA j hj), fun j hj => h.new j (hA j hj),
    fun j k hj hk => h.once j k (hA j hj) (hA k hk)⟩
  · rw [Concurrent.goto_phase]
    split_ifs with hji
    · refine ⟨fun d hd => ?_, nofun⟩
      cases hd
      exact hji ▸ hheld
    · exact h.named j
  · rw [Concurrent.goto_phase] at hj
    split_ifs at hj with hji
    · rw [hji, ← hheld.2]
      exact hnew
    · exact h.unseen j hj
  · rw [Concurrent.goto_phase] at hj hk
    split_ifs at hj hk with hji hki hki
    · rw [hji, hki]
    · exact absurd (hji ▸ hkey.symm) (hquiet k hki hk)
    · exact absurd (hki ▸ hkey) (hquiet j hji hj)
    · exact h.alone j k hj hk hkey

/-- The signature check changes nothing that others see. -/
theorem ReplayInv.goto_verified (h : ReplayInv request table s) {c : Checked}
    (hphase : s.phase i = .fresh c) : ReplayInv request table (s.goto i (.verified c)) := by
  have hP : ∀ j, ((s.goto i (.verified c)).phase j).Pending → (s.phase j).Pending := by
    intro j hj
    rw [Concurrent.goto_phase] at hj
    split_ifs at hj with hji
    · rw [hji, hphase]
      trivial
    · exact hj
  have hA : ∀ j, ((s.goto i (.verified c)).phase j).Accepted → (s.phase j).Accepted := by
    intro j hj
    rw [Concurrent.goto_phase] at hj
    split_ifs at hj
    · cases hj
    · exact hj
  refine ⟨fun j => ?_, h.kept, fun j hj => h.unseen j (hP j hj),
    fun j k hj hk => h.alone j k (hP j hj) (hP k hk), fun j hj => h.recorded j (hA j hj),
    fun j hj => h.new j (hA j hj), fun j k hj hk => h.once j k (hA j hj) (hA k hk)⟩
  rw [Concurrent.goto_phase]
  split_ifs with hji
  · refine ⟨fun d hd => ?_, nofun⟩
    cases hd
    exact hji ▸ (h.named i).1 c (by rw [hphase]; rfl)
  · exact h.named j

/-- An insertion records the pair of the only call that stood on it. -/
theorem ReplayInv.insert (h : ReplayInv request table s) {c : Checked}
    (hphase : s.phase i = .verified c) :
    ReplayInv request table { s.goto i (.done (some accepted)) with
      table := Function.update s.table c.userRequestid true } := by
  obtain ⟨huser, hheld⟩ := (h.named i).1 c (by rw [hphase]; rfl)
  have hpend : (s.phase i).Pending := by
    rw [hphase]
    trivial
  have hunseen := h.unseen i hpend
  have hold : table (requestKey (request i)) = false := by
    by_contra hseen
    rw [Bool.not_eq_false] at hseen
    rw [h.kept _ hseen] at hunseen
    cases hunseen
  have hP : ∀ j, ((s.goto i (.done (some accepted))).phase j).Pending → j ≠ i ∧ (s.phase j).Pending := by
    intro j hj
    rw [Concurrent.goto_phase] at hj
    split_ifs at hj with hji
    · exact hj.elim
    · exact ⟨hji, hj⟩
  have hA : ∀ j, ((s.goto i (.done (some accepted))).phase j).Accepted →
      j = i ∨ (s.phase j).Accepted := by
    intro j hj
    rw [Concurrent.goto_phase] at hj
    split_ifs at hj with hji
    · exact Or.inl hji
    · exact Or.inr hj
  refine ⟨fun j => ?_, fun k hk => ?_, fun j hj => ?_,
    fun j k hj hk => h.alone j k (hP j hj).2 (hP k hk).2, fun j hj => ?_, fun j hj => ?_,
    fun j k hj hk hkey => ?_⟩
  · change Named (request j) ((s.goto i (.done (some accepted))).phase j)
    rw [Concurrent.goto_phase]
    split_ifs with hji
    · exact ⟨nofun, fun _ => hji ▸ huser⟩
    · exact h.named j
  · simp [Function.update_apply, h.kept k hk]
  · obtain ⟨hji, hj⟩ := hP j hj
    have hkey : requestKey (request j) ≠ c.userRequestid := by
      rw [hheld]
      exact fun hkey => hji (h.alone j i hj hpend hkey)
    simp [Function.update_of_ne hkey, h.unseen j hj]
  · rcases hA j hj with rfl | hj
    · simp [hheld]
    · simp [Function.update_apply, h.recorded j hj]
  · rcases hA j hj with rfl | hj
    · exact hold
    · exact h.new j hj
  · have hone : ∀ k, (s.phase k).Accepted → requestKey (request k) ≠ requestKey (request i) := by
      intro k hk hkey
      have := h.recorded k hk
      rw [hkey, hunseen] at this
      cases this
    rcases hA j hj with hji | hj' <;> rcases hA k hk with hki | hk'
    · rw [hji, hki]
    · exact absurd (hji ▸ hkey.symm) (hone k hk')
    · exact absurd (hki ▸ hkey) (hone j hj')
    · exact h.once j k hj' hk' hkey

end Step

theorem ReplayInv.advance {table : Bytes → Bool} {s : Concurrent ι} {t : Turn ι}
    (h : ReplayInv request table s) (hquiet : QuietLookup request s t) :
    ReplayInv request table (advance E directory request s t) := by
  rcases @advance_cases _ _ E directory request s t with
    hs | ⟨p, hs, hpend, hacc, hnamed⟩ | ⟨c, hphase, hnew, hs⟩ | ⟨c, hphase, hs⟩ | ⟨c, hphase, hs⟩
  · rwa [hs]
  · exact hs ▸ h.goto_idle hpend hacc hnamed
  · exact hs ▸ h.goto_fresh hphase hnew (hquiet c hphase)
  · exact hs ▸ h.goto_verified hphase
  · exact hs ▸ h.insert hphase

/-- Whatever the interleaving, as long as the lookups are quiet, a pair is accepted once, and a
pair that was recorded before the run never. -/
theorem dumbVerifyRequest_once (table : Bytes → Bool) (turns : List (Turn ι))
    (hquiet : ∀ e ∈ trace (turnStep E directory request) (Concurrent.initial table) turns,
      QuietLookup request e.before e.input) :
    ∀ e ∈ trace (turnStep E directory request) (Concurrent.initial table) turns,
      (∀ i, (e.after.phase i).Accepted →
        table ((request i).user ++ ascii "/" ++ (request i).requestid) = false) ∧
      ∀ i j, (e.after.phase i).Accepted → (e.after.phase j).Accepted →
        (request i).user = (request j).user → (request i).requestid = (request j).requestid →
          i = j := by
  have hinv := trace_invariant (turnStep E directory request) (ReplayInv request table) _ turns
    (replayInv_initial table) (by
      intro e he hbefore
      rw [eq_callOf_of_mem_trace _ he]
      exact hbefore.advance (hquiet e he))
  intro e he
  have hafter := (hinv.1 e he).2
  refine ⟨hafter.new, fun i j hi hj huser hid => hafter.once i j hi hj ?_⟩
  rw [requestKey, requestKey, huser, hid]

/-- Two requests with the same id and a good signature. -/
def twice (_ : Bool) : DumbRequestParams := ⟨ascii "u", ascii "1", ascii "a", singleSignature.val, 5⟩

def twiceMessage : Bytes := requestMessage (ascii "u") (ascii "a") (ascii "5")

def keyFile : Files := fun _ => .ok (KeyPair.single twiceMessage).publicHex

def turn (call : Bool) : Turn Bool := ⟨call, Env.at 5, keyFile⟩

/-- The second call comes when the first one has recorded the id. -/
def oneAfterTheOther : List (Turn Bool) := List.replicate 4 (turn true) ++ List.replicate 4 (turn false)

theorem dumbVerifyRequest_once_twice :
    ∃ e ∈ trace (turnStep (Ed25519.single twiceMessage) (ascii "d") twice)
        (Concurrent.initial fun _ => false) oneAfterTheOther,
      (e.after.phase true).Accepted ∧ (∃ r, e.after.phase false = .done r) ∧
        ∀ j, (e.after.phase j).Accepted → true = j := by
  have honce := @dumbVerifyRequest_once Bool _ (Ed25519.single twiceMessage) (ascii "d") twice
    (fun _ => false) oneAfterTheOther (by
      intro e he c _ j hj hpend
      simp only [oneAfterTheOther, List.replicate, List.cons_append, List.nil_append, trace_cons,
        trace_nil, List.mem_cons, List.not_mem_nil, or_false] at he
      rcases he with rfl | rfl | rfl | rfl | rfl | rfl | rfl | rfl <;> cases j <;>
        first | exact absurd rfl hj | (revert hpend; decide))
  refine ⟨_, List.mem_of_getLast? rfl, by decide, ⟨_, rfl⟩, fun j hj => ?_⟩
  exact (honce _ (List.mem_of_getLast? rfl)).2 true j (by decide) hj
    (by cases j <;> rfl) (by cases j <;> rfl)

/-- Both calls look the id up before either records it. -/
theorem dumbVerifyRequest_twice :
    (((finalState (turnStep (Ed25519.single twiceMessage) (ascii "d") twice)
        (Concurrent.initial fun _ => false) [turn false, turn false, turn true, turn true, turn false,
          turn false, turn true, turn true]).phase false).Accepted) ∧
      (((finalState (turnStep (Ed25519.single twiceMessage) (ascii "d") twice)
        (Concurrent.initial fun _ => false) [turn false, turn false, turn true, turn true, turn false,
          turn false, turn true, turn true]).phase true).Accepted) := by
  decide

end Dumbos.RustServer
