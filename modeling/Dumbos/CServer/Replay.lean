import Dumbos.CServer.Handler
import Dumbos.Foundation.Exclusive

/-! # Replay protection of the C server

The file of a request is created in one step that fails when it is there, and
nothing deletes it, so of all requests with one user and one id a single one comes
to be answered, in any interleaving. The way there leads through the alphabets,
the stored key and the signature.
-/
namespace Dumbos.CServer
open Foundation Common Payload Request

/-- The file of the request has been created by this request. -/
def Phase.Held : Phase → Prop
  | created _ | loading _ _ | answered _ _ => True
  | _ => False

theorem Phase.Answered.held {phase : Phase} (h : phase.Answered) : phase.Held := by
  cases phase with
  | answered _ _ => trivial
  | _ => exact h.elim

theorem Query.params_eq_some {q : Query} {p : Params} (h : q.params = some p) :
    q.user = some p.user ∧ q.requestid = some p.requestid := by
  obtain ⟨code, user, requestid, requestsig, requesttime⟩ := q
  simp only [Query.params, Option.bind_eq_bind, Option.bind_eq_some_iff, Option.pure_def,
    Option.some.injEq] at h
  obtain ⟨_, -, _, huser, _, hid, _, -, _, -, rfl⟩ := h
  exact ⟨huser, hid⟩

section Step
variable {E : Ed25519} {privateKey : Bytes} {p : Params} {m : Meets} {disk : Disk}

/-- Loading a code creates no file and deletes none. -/
theorem loadStep_entry (l : Loading) :
    (loadStep E privateKey p m disk l).2.entry = disk.entry := by
  cases l with
  | start =>
    rw [loadStep]
    split_ifs
    all_goals try rfl
    split <;> rfl
  | userpathTried =>
    rw [loadStep]
    split <;> rfl
  | opened ino =>
    rw [loadStep]
    split_ifs <;> rfl
  | sized ino size =>
    rw [loadStep]
    split <;> rfl
  | buffered ino size payload =>
    rw [loadStep]
    dsimp only
    split_ifs <;> rfl
  | returned payload size => rfl

/-- While a code is loaded. -/
theorem serveStep_loading (requestFile : ℕ) {l : Loading} (h : ∀ q n, l ≠ .returned q n) :
    serveStep E privateKey p m disk (.loading requestFile l) =
      match loadStep E privateKey p m disk l with
      | (none, disk) => (.notFound, disk)
      | (some l, disk) => (.loading requestFile l, disk) := by
  cases l with
  | returned q n => exact absurd rfl (h q n)
  | _ => rfl

theorem serveStep_loading_entry (requestFile : ℕ) (l : Loading) :
    ((serveStep E privateKey p m disk (.loading requestFile l)).1 = .notFound ∨
      (serveStep E privateKey p m disk (.loading requestFile l)).1.Held) ∧
    (serveStep E privateKey p m disk (.loading requestFile l)).2.entry = disk.entry := by
  have hentry := @loadStep_entry E privateKey p m disk l
  by_cases hl : ∃ q n, l = .returned q n
  · obtain ⟨q, n, rfl⟩ := hl
    refine ⟨Or.inr trivial, ?_⟩
    simp only [serveStep]
    split_ifs <;> rfl
  · rw [serveStep_loading requestFile (fun q n hq => hl ⟨q, n, hq⟩)]
    generalize loadStep E privateKey p m disk l = r at hentry ⊢
    obtain ⟨_ | l', disk'⟩ := r
    · exact ⟨Or.inl rfl, hentry⟩
    · exact ⟨Or.inr trivial, hentry⟩

/-- Everything a step of the handler can do. -/
theorem serveStep_cases (phase : Phase) :
    ((serveStep E privateKey p m disk phase).1 = .notFound ∧
      (serveStep E privateKey p m disk phase).2.entry = disk.entry) ∨
    (phase = .waiting ∧ checkAllowedChars p.user DUMBOS_USER_ALLOWED_CHARS ∧
      checkAllowedChars p.requestid REQUESTID_ALLOWED_CHARS ∧
      ∃ ino, disk.entry (userPubkeyPath p.user) = some ino ∧
        serveStep E privateKey p m disk phase = (.keyOpened ino, disk)) ∨
    (∃ ino buf, phase = .keyOpened ino ∧
      readAll disk ino (ED25519_PUBLIC_KEY_HEX_SIZE - 1) = some buf ∧
      serveStep E privateKey p m disk phase = (.keyRead (cstr buf.val), disk)) ∨
    (∃ key, phase = .keyRead key ∧
      requestIdVerify E m.now p.user p.requestid p.requesttime p.requestsig key = .ok () ∧
      serveStep E privateKey p m disk phase = (.verified, disk)) ∨
    (phase = .verified ∧ disk.entry (requestDataPath p.user p.requestid) = none ∧
      serveStep E privateKey p m disk phase =
        (.created disk.next, disk.create (requestDataPath p.user p.requestid))) ∨
    (phase.Held ∧ (serveStep E privateKey p m disk phase).1.Held ∧
      (serveStep E privateKey p m disk phase).2.entry = disk.entry) := by
  cases phase with
  | waiting =>
    rw [serveStep]
    split_ifs with huser hid hfails
    · exact Or.inl ⟨rfl, rfl⟩
    · exact Or.inl ⟨rfl, rfl⟩
    · exact Or.inl ⟨rfl, rfl⟩
    · cases hentry : disk.entry (userPubkeyPath p.user) with
      | none => exact Or.inl ⟨rfl, rfl⟩
      | some ino =>
        exact Or.inr (Or.inl ⟨rfl, by simpa using huser, by simpa using hid, ino, rfl, rfl⟩)
  | keyOpened ino =>
    simp only [serveStep]
    split_ifs
    · exact Or.inl ⟨rfl, rfl⟩
    · cases hread : readAll disk ino (ED25519_PUBLIC_KEY_HEX_SIZE - 1) with
      | none => exact Or.inl ⟨rfl, rfl⟩
      | some buf => exact Or.inr (Or.inr (Or.inl ⟨ino, buf, rfl, hread, rfl⟩))
  | keyRead key =>
    simp only [serveStep]
    split_ifs
    · exact Or.inl ⟨rfl, rfl⟩
    · cases hverify : requestIdVerify E m.now p.user p.requestid p.requesttime p.requestsig key with
      | error _ => exact Or.inl ⟨rfl, rfl⟩
      | ok _ => exact Or.inr (Or.inr (Or.inr (Or.inl ⟨key, rfl, hverify, rfl⟩)))
  | verified =>
    rw [serveStep]
    split_ifs with htaken
    · exact Or.inl ⟨rfl, rfl⟩
    · rw [Bool.or_eq_true, not_or, Option.not_isSome_iff_eq_none] at htaken
      exact Or.inr (Or.inr (Or.inr (Or.inr (Or.inl ⟨rfl, htaken.2, rfl⟩))))
  | created requestFile =>
    simp only [serveStep]
    split_ifs
    · exact Or.inl ⟨rfl, rfl⟩
    · exact Or.inr (Or.inr (Or.inr (Or.inr (Or.inr ⟨trivial, trivial, rfl⟩))))
  | loading requestFile l =>
    obtain ⟨hphase | hheld, hentry⟩ := @serveStep_loading_entry E privateKey p m disk requestFile l
    · exact Or.inl ⟨hphase, hentry⟩
    · exact Or.inr (Or.inr (Or.inr (Or.inr (Or.inr ⟨trivial, hheld, hentry⟩))))
  | answered response size =>
    exact Or.inr (Or.inr (Or.inr (Or.inr (Or.inr ⟨trivial, trivial, rfl⟩))))
  | notFound => exact Or.inl ⟨rfl, rfl⟩

end Step

variable {ι : Type*} [DecidableEq ι] {E : Ed25519} {privateKey : Bytes} {query : ι → Query}

/-- The user and the id of a request, as far as it names them. -/
def Query.pair (q : Query) : Bytes × Bytes := (q.user.getD [], q.requestid.getD [])

/-- The request has created its file. -/
def HoldsFile (i : ι) (s : Service ι) : Prop := (s.phase i).Held

/-- The pair has a request file. -/
def HasFile (pair : Bytes × Bytes) (s : Service ι) : Prop :=
  (s.disk.entry (requestDataPath pair.1 pair.2)).isSome

theorem advance_serve {s : Service ι} {i : ι} {p : Params} (m : Meets)
    (h : (query i).params = some p) :
    advance E privateKey query s (.serve i m) =
      ⟨(serveStep E privateKey p m s.disk (s.phase i)).2,
        Function.update s.phase i (serveStep E privateKey p m s.disk (s.phase i)).1⟩ := by
  simp only [advance, h]

theorem advance_serve_none {s : Service ι} {i : ι} (m : Meets) (h : (query i).params = none) :
    advance E privateKey query s (.serve i m) =
      ⟨s.disk, Function.update s.phase i .notFound⟩ := by
  simp only [advance, h]

theorem advance_phase_ne {s : Service ι} {i j : ι} (m : Meets) (h : j ≠ i) :
    (advance E privateKey query s (.serve i m)).phase j = s.phase j := by
  cases hparams : (query i).params with
  | none => simp [advance_serve_none m hparams, h]
  | some p => simp [advance_serve m hparams, h]

theorem serveStep_keeps (p : Params) (m : Meets) (disk : Disk) (phase : Phase) {path : Bytes}
    (h : (disk.entry path).isSome) :
    ((serveStep E privateKey p m disk phase).2.entry path).isSome := by
  rcases @serveStep_cases E privateKey p m disk phase with
    ⟨-, hentry⟩ | ⟨-, -, -, _, -, hs⟩ | ⟨_, _, -, -, hs⟩ | ⟨_, -, -, hs⟩ | ⟨-, -, hs⟩ | ⟨-, -, hentry⟩
  · rwa [hentry]
  · rwa [hs]
  · rwa [hs]
  · rwa [hs]
  · rw [hs]
    exact Disk.create_keeps disk _ h
  · rwa [hentry]

/-- A step that comes to hold the file has created it. -/
theorem serveStep_held (p : Params) (m : Meets) (disk : Disk) (phase : Phase)
    (h : (serveStep E privateKey p m disk phase).1.Held) :
    phase.Held ∨ disk.entry (requestDataPath p.user p.requestid) = none ∧
      ((serveStep E privateKey p m disk phase).2.entry
        (requestDataPath p.user p.requestid)).isSome := by
  rcases @serveStep_cases E privateKey p m disk phase with
    ⟨hs, -⟩ | ⟨-, -, -, _, -, hs⟩ | ⟨_, _, -, -, hs⟩ | ⟨_, -, -, hs⟩ | ⟨-, hfree, hs⟩ | ⟨hheld, -, -⟩
  · rw [hs] at h
    exact h.elim
  · rw [hs] at h
    exact h.elim
  · rw [hs] at h
    exact h.elim
  · rw [hs] at h
    exact h.elim
  · refine Or.inr ⟨hfree, ?_⟩
    rw [hs]
    exact Disk.create_entry_isSome disk _
  · exact Or.inl hheld

/-- Request files are created once. -/
theorem takesOnce_turnStep :
    TakesOnce (turnStep E privateKey query) HoldsFile HasFile (fun i => (query i).pair) where
  keeps s t pair h := by
    cases t with
    | outside o => exact o.keepsRequests s.disk _ _ h
    | serve i m =>
      rw [turnStep]
      cases hparams : (query i).params with
      | none =>
        rw [advance_serve_none m hparams]
        exact h
      | some p =>
        rw [advance_serve m hparams]
        exact serveStep_keeps p m s.disk (s.phase i) h
  takes s t a h := by
    cases t with
    | outside o => exact Or.inl h
    | serve i m =>
      rw [turnStep] at h ⊢
      have hother : ∀ b, HoldsFile b (advance E privateKey query s (.serve i m)) →
          HoldsFile b s ∨ b = i := by
        intro b hb
        by_cases hbi : b = i
        · exact Or.inr hbi
        · rw [HoldsFile, advance_phase_ne m hbi] at hb
          exact Or.inl hb
      rcases hother a h with hold | rfl
      · exact Or.inl hold
      · cases hparams : (query a).params with
        | none => simp [HoldsFile, advance_serve_none m hparams, Phase.Held] at h
        | some p =>
          rw [HoldsFile, advance_serve m hparams] at h
          simp only [Function.update_self] at h
          obtain ⟨huser, hid⟩ := Query.params_eq_some hparams
          rcases serveStep_held p m s.disk (s.phase a) h with hold | ⟨hfree, htaken⟩
          · exact Or.inl hold
          · right
            refine ⟨?_, ?_, hother⟩
            · simp [HasFile, Query.pair, huser, hid, hfree]
            · simpa [HasFile, Query.pair, huser, hid, advance_serve m hparams] using htaken

theorem StoredKey.mono {disk : Disk} {turns turns' : List (Turn ι)} {user key : Bytes}
    (h : StoredKey E privateKey query disk turns user key) (hlonger : turns <+: turns') :
    StoredKey E privateKey query disk turns' user key := by
  obtain ⟨opening, reading, ino, buf, hopening, hreading, hentry, hread, hkey⟩ := h
  exact ⟨opening, reading, ino, buf, hopening, hreading.trans hlonger, hentry, hread, hkey⟩

section Evidence
variable (E privateKey query)

/-- The parameters of the request, with both names over their alphabets. -/
def Named (i : ι) (p : Params) : Prop :=
  (query i).params = some p ∧ (∀ c ∈ p.user, c ∈ DUMBOS_USER_ALLOWED_CHARS) ∧
    ∀ c ∈ p.requestid, c ∈ REQUESTID_ALLOWED_CHARS

/-- The signature of the request has been accepted against the stored key of its user. -/
def Vouched (disk : Disk) (turns : List (Turn ι)) (i : ι) : Prop :=
  ∃ p, Named query i p ∧ ∃ key, StoredKey E privateKey query disk turns p.user key ∧
    ∃ m, Turn.serve i m ∈ turns ∧
      requestIdVerify E m.now p.user p.requestid p.requesttime p.requestsig key = .ok ()

/-- What a run has shown about a request that is in this phase. -/
def Evidence (disk : Disk) (turns : List (Turn ι)) (i : ι) : Phase → Prop
  | .waiting | .notFound => True
  | .keyOpened ino => ∃ p, Named query i p ∧ ∃ opening, opening <+: turns ∧
    (serviceAfter E privateKey query disk opening).disk.entry (userPubkeyPath p.user) = some ino
  | .keyRead key => ∃ p, Named query i p ∧ StoredKey E privateKey query disk turns p.user key
  | .verified | .created _ | .loading _ _ | .answered _ _ => Vouched E privateKey query disk turns i

end Evidence

section History
variable {disk : Disk} {turns turns' : List (Turn ι)} {i : ι}

theorem Vouched.mono (h : Vouched E privateKey query disk turns i) (hlonger : turns <+: turns') :
    Vouched E privateKey query disk turns' i := by
  obtain ⟨p, hnamed, key, hkey, m, hm, hverify⟩ := h
  exact ⟨p, hnamed, key, hkey.mono hlonger, m, hlonger.subset hm, hverify⟩

theorem Evidence.mono {phase : Phase} (h : Evidence E privateKey query disk turns i phase)
    (hlonger : turns <+: turns') : Evidence E privateKey query disk turns' i phase := by
  cases phase with
  | waiting => trivial
  | notFound => trivial
  | keyOpened ino =>
    obtain ⟨p, hnamed, opening, hopening, hentry⟩ := h
    exact ⟨p, hnamed, opening, hopening.trans hlonger, hentry⟩
  | keyRead key =>
    obtain ⟨p, hnamed, hkey⟩ := h
    exact ⟨p, hnamed, hkey.mono hlonger⟩
  | verified => exact Vouched.mono h hlonger
  | created _ => exact Vouched.mono h hlonger
  | loading _ _ => exact Vouched.mono h hlonger
  | answered _ _ => exact Vouched.mono h hlonger

theorem evidence_of_held {phase : Phase} (h : phase.Held) :
    Evidence E privateKey query disk turns i phase = Vouched E privateKey query disk turns i := by
  cases phase with
  | created _ => rfl
  | loading _ _ => rfl
  | answered _ _ => rfl
  | _ => exact h.elim

/-- A step of a request adds what it has seen. -/
theorem Evidence.serve {p : Params} (m : Meets) (hparams : (query i).params = some p)
    (h : Evidence E privateKey query disk turns i
      ((serviceAfter E privateKey query disk turns).phase i)) :
    Evidence E privateKey query disk (turns ++ [.serve i m]) i
      (serveStep E privateKey p m (serviceAfter E privateKey query disk turns).disk
        ((serviceAfter E privateKey query disk turns).phase i)).1 := by
  have hlonger : turns <+: turns ++ [.serve i m] := List.prefix_append _ _
  have hsame : ∀ {q}, Named query i q → q = p := fun hq => Option.some.inj (hq.1.symm.trans hparams)
  rcases @serveStep_cases E privateKey p m (serviceAfter E privateKey query disk turns).disk
      ((serviceAfter E privateKey query disk turns).phase i) with
    ⟨hs, -⟩ | ⟨-, huser, hid, ino, hentry, hs⟩ | ⟨ino, buf, hphase, hread, hs⟩ |
    ⟨key, hphase, hverify, hs⟩ | ⟨hphase, -, hs⟩ | ⟨hheld, hs, -⟩
  · rw [hs]
    trivial
  · rw [hs]
    exact ⟨p, ⟨hparams, checkAllowedChars_iff.mp huser, checkAllowedChars_iff.mp hid⟩, turns,
      hlonger, hentry⟩
  · rw [hphase] at h
    rw [hs]
    obtain ⟨q, hnamed, opening, hopening, hentry⟩ := h
    exact ⟨q, hnamed, opening, turns, ino, buf, hopening, hlonger, hentry, hread, rfl⟩
  · rw [hphase] at h
    rw [hs]
    obtain ⟨q, hnamed, hkey⟩ := h
    obtain rfl := hsame hnamed
    exact ⟨q, hnamed, key, hkey.mono hlonger, m, by simp, hverify⟩
  · rw [hphase] at h
    rw [hs]
    exact Vouched.mono h hlonger
  · rw [evidence_of_held hheld] at h
    rw [evidence_of_held hs]
    exact h.mono hlonger

theorem evidence_serviceAfter (disk : Disk) (turns : List (Turn ι)) (i : ι) :
    Evidence E privateKey query disk turns i
      ((serviceAfter E privateKey query disk turns).phase i) := by
  induction turns using List.reverseRecOn with
  | nil => trivial
  | append_singleton turns t ih =>
    have hlonger : turns <+: turns ++ [t] := List.prefix_append _ _
    have hlast : serviceAfter E privateKey query disk (turns ++ [t]) =
        advance E privateKey query (serviceAfter E privateKey query disk turns) t := by
      rw [serviceAfter, finalState_append]
      rfl
    rw [hlast]
    cases t with
    | outside o => exact ih.mono hlonger
    | serve j m =>
      by_cases hij : i = j
      · subst hij
        cases hparams : (query i).params with
        | none =>
          rw [advance_serve_none m hparams]
          simp [Evidence]
        | some p =>
          rw [advance_serve m hparams]
          simp only [Function.update_self]
          exact ih.serve m hparams
      · rw [advance_phase_ne m hij]
        exact ih.mono hlonger

end History

/-- Whatever the interleaving, a pair of user and id is answered once, and only a request with
clean names whose signature was accepted against the stored key of its user is answered. -/
theorem dumbHandler_answered (disk : Disk) (turns : List (Turn ι)) :
    let phase := (serviceAfter E privateKey query disk turns).phase
    (∀ i j, (phase i).Answered → (phase j).Answered → (query i).user = (query j).user →
      (query i).requestid = (query j).requestid → i = j) ∧
    ∀ i, (phase i).Answered → ∃ p, (query i).params = some p ∧
      (∀ c ∈ p.user, c ∈ DUMBOS_USER_ALLOWED_CHARS) ∧
      (∀ c ∈ p.requestid, c ∈ REQUESTID_ALLOWED_CHARS) ∧
      ∃ key, StoredKey E privateKey query disk turns p.user key ∧
        ∃ m, Turn.serve i m ∈ turns ∧
          requestIdVerify E m.now p.user p.requestid p.requesttime p.requestsig key = .ok () := by
  have hstart : HeldOnce HoldsFile HasFile (fun i => (query i).pair)
      (Service.initial disk : Service ι) := ⟨fun _ h => h.elim, fun _ _ h => h.elim⟩
  have hrun := (@takesOnce_turnStep ι _ E privateKey query).run hstart turns
  intro phase
  constructor
  · intro i j hi hj huser hid
    apply hrun.once i j hi.held hj.held
    simp only [Query.pair, huser, hid]
  · intro i hi
    have hevidence := @evidence_serviceAfter ι _ E privateKey query disk turns i
    rw [evidence_of_held hi.held] at hevidence
    obtain ⟨p, ⟨hparams, huser, hid⟩, hkey⟩ := hevidence
    exact ⟨p, hparams, huser, hid, hkey⟩

/-- A disk with the key of one user and one code. -/
def oneUser : Disk where
  entry path :=
    if path = userPubkeyPath (ascii "u") then some 0
    else if path = codePath (ascii "1") then some 1
    else none
  content ino := if ino = 0 then KeyPair.always.publicHex else okPayload.toBytes
  next := 2
  entry_lt := by
    intro path ino h
    split_ifs at h
    · cases h
      norm_num
    · cases h
      norm_num

def oneQuery (_ : Bool) : Query :=
  ⟨some (ascii "1"), some (ascii "u"), some (ascii "a"), some singleSignature.val, some (ascii "5")⟩

/-- Of two equal requests the one that is served first is answered. -/
example :
    let s := serviceAfter Ed25519.always KeyPair.always.privateHex oneQuery oneUser
      (List.replicate 11 (.serve false ⟨5, [], false, LoadFaults.none⟩) ++
        List.replicate 11 (.serve true ⟨5, [], false, LoadFaults.none⟩))
    (s.phase false).Answered ∧ ¬(s.phase true).Answered := by
  decide +kernel

end Dumbos.CServer
