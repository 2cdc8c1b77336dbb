import Dumbos.CServer.Handler

/-! # The body of a POST request

libmicrohttpd calls `handle_request` once to set a request up, once for each chunk of
its body and once at the end. The chunks are collected into one buffer of at most
`MAX_UPLOAD_BYTES` with a NUL behind it. A chunk that does not fit is dropped, and
smaller ones behind it are still taken, so only the flag tells a body with a hole
from a whole one.
-/
namespace Dumbos.CServer
open Foundation Common Payload Request

def MAX_UPLOAD_BYTES : ℕ := 64 * 1024

/-- The state of one request; `body` is the allocated buffer, `none` is NULL. -/
structure RequestState where
  body : Option Bytes
  bodyLen : ℕ
  bodyTooLarge : Bool
  allocationFailed : Bool

/-- What `calloc` returns. -/
def RequestState.zeroed : RequestState := ⟨none, 0, false, false⟩

/-- The bytes of the body, without the NUL behind them. -/
def RequestState.data (state : RequestState) : Bytes := (state.body.getD []).take state.bodyLen

/-- A chunk of a body. It is not empty, and an object in memory has less than 2^63 bytes. -/
abbrev Chunk := {data : Bytes // data ≠ [] ∧ data.length < 2 ^ 63}

/-- `fails` is the answer of `realloc`. The sum is one of `size_t`. -/
def appendUploadData (fails : Bool) (state : RequestState) (uploadData : Bytes) :
    Bool × RequestState :=
  if uploadData.length = 0 then (true, state)
  else if (state.bodyLen + uploadData.length) % 2 ^ 64 > MAX_UPLOAD_BYTES then
    (false, { state with bodyTooLarge := true })
  else if fails then (false, { state with allocationFailed := true })
  else (true, { state with
    body := some (state.data ++ uploadData ++ [0])
    bodyLen := state.bodyLen + uploadData.length })

structure Response where
  status : ℕ
  contentType : Bytes
  body : Bytes
deriving DecidableEq

def queueTextResponse (status : ℕ) (body : String) : Response :=
  ⟨status, ascii "text/plain; charset=utf-8", ascii body⟩

/-- The routes that take a body. -/
inductive Route where
  | logupload
  | echo
deriving DecidableEq

/-- What `handle_post` comes to: an answer of its own, or a route that is given the body. -/
inductive Posted where
  | answered (response : Response)
  | routed (route : Route) (state : RequestState)

def handlePost (url : Bytes) (state : RequestState) : Posted :=
  if state.allocationFailed then .answered (queueTextResponse 500 "500 Failed to allocate memory\n")
  else if state.bodyTooLarge then .answered (queueTextResponse 413 "413 Request body too large\n")
  else if url = ascii "/logupload" then .routed .logupload state
  else if url = ascii "/echo" then .routed .echo state
  else .answered (queueTextResponse 404 "404 POST route not found\n")

/-- What a request meets outside of its body. -/
structure Site where
  E : Ed25519
  fs : FileSystem
  now : ℤ
  query : Query
  handleGet : Bytes → Response

def notFound : Response := queueTextResponse 404 "404 Not Found\n"

/-- The time that is signed is the text `TODO`. -/
def dumbLogUploadHandler (S : Site) (state : RequestState) : Response :=
  match S.query.user, S.query.requestsig, S.query.requestid with
  | some user, some requestsig, some requestid =>
    if !checkAllowedChars user DUMBOS_USER_ALLOWED_CHARS then notFound
    else if state.bodyTooLarge || state.allocationFailed then notFound
    else match S.fs (userPubkeyPath user) with
      | none => notFound
      | some file =>
        if file.length < ED25519_PUBLIC_KEY_HEX_SIZE - 1 then notFound
        else
          match requestIdVerify S.E S.now user requestid (ascii "TODO") requestsig
              (cstr (file.take (ED25519_PUBLIC_KEY_HEX_SIZE - 1))) with
          | .error _ => notFound
          | .ok () => queueTextResponse 200 "ok\n"
  | _, _, _ => notFound

def Posted.respond (S : Site) : Posted → Response
  | .answered response => response
  | .routed .logupload state => dumbLogUploadHandler S state
  | .routed .echo state => ⟨200, ascii "text/plain; charset=utf-8", state.data⟩

def queueMethodNotAllowed : Response := queueTextResponse 405 "405 Method Not Allowed\n"

/-- What a call of `handle_request` returns, with the size it leaves in `upload_data_size`. -/
inductive Handled where
  | no
  | yes (conCls : RequestState) (uploadDataSize : ℕ)
  | queued (response : Response)

/-- `fails` is the answer of the allocation that the call makes. -/
def handleRequest (S : Site) (fails : Bool) (url method uploadData : Bytes) :
    Option RequestState → Handled
  | none => if fails then .no else .yes .zeroed uploadData.length
  | some state =>
    if method = ascii "GET" then .queued (S.handleGet url)
    else if method = ascii "POST" then
      if uploadData.length ≠ 0 then .yes (appendUploadData fails state uploadData).2 0
      else .queued ((handlePost url state).respond S)
    else .queued queueMethodNotAllowed

def Handled.conCls : Handled → Option RequestState
  | .yes state _ => some state
  | _ => none

/-- The state behind the first call of a request and one call for each chunk, while memory lasts. -/
def received (S : Site) (url : Bytes) (chunks : List Chunk) : Option RequestState :=
  chunks.foldl (fun state c => (handleRequest S false url (ascii "POST") c.val state).conCls)
    (handleRequest S false url (ascii "POST") [] none).conCls

/-- The call at the end of a request. -/
def lastCall (S : Site) (url : Bytes) (chunks : List Chunk) : Handled :=
  handleRequest S false url (ascii "POST") [] (received S url chunks)

/-- The body that was sent. -/
def sent (chunks : List Chunk) : Bytes := (chunks.map Subtype.val).flatten

@[simp] theorem sent_nil : sent [] = [] := rfl

@[simp] theorem sent_append (pre post : List Chunk) : sent (pre ++ post) = sent pre ++ sent post := by
  simp [sent]

@[simp] theorem sent_singleton (c : Chunk) : sent [c] = c.val := by
  simp [sent]

/-- What the buffer, its length and the flag say of the chunks so far. -/
structure Tracks (chunks : List Chunk) (state : RequestState) : Prop where
  bounded : state.bodyLen ≤ MAX_UPLOAD_BYTES
  allocated : state.allocationFailed = false
  flag : state.bodyTooLarge = true ↔ MAX_UPLOAD_BYTES < (sent chunks).length
  whole : (sent chunks).length ≤ MAX_UPLOAD_BYTES → state.data = sent chunks ∧
    state.bodyLen = (sent chunks).length
  terminated : chunks ≠ [] → (sent chunks).length ≤ MAX_UPLOAD_BYTES →
    state.body = some (sent chunks ++ [0])

theorem tracks_zeroed : Tracks [] .zeroed where
  bounded := Nat.zero_le _
  allocated := rfl
  flag := by simp [RequestState.zeroed]
  whole _ := ⟨rfl, rfl⟩
  terminated h := absurd rfl h

theorem Chunk.length_ne_zero (c : Chunk) : c.val.length ≠ 0 := by
  simpa using c.property.1

theorem appendUploadData_dropped {state : RequestState} (c : Chunk)
    (hbounded : state.bodyLen ≤ MAX_UPLOAD_BYTES)
    (hlarge : MAX_UPLOAD_BYTES < state.bodyLen + c.val.length) :
    (appendUploadData false state c.val).2 = { state with bodyTooLarge := true } := by
  have hc := c.property.2
  have hmod : (state.bodyLen + c.val.length) % 2 ^ 64 = state.bodyLen + c.val.length := by
    apply Nat.mod_eq_of_lt
    rw [MAX_UPLOAD_BYTES] at hbounded
    omega
  rw [appendUploadData, if_neg c.length_ne_zero, hmod, if_pos hlarge]

theorem appendUploadData_taken {state : RequestState} (c : Chunk)
    (hsmall : state.bodyLen + c.val.length ≤ MAX_UPLOAD_BYTES) :
    (appendUploadData false state c.val).2 =
      { state with
        body := some (state.data ++ c.val ++ [0])
        bodyLen := state.bodyLen + c.val.length } := by
  have hmod : (state.bodyLen + c.val.length) % 2 ^ 64 = state.bodyLen + c.val.length := by
    apply Nat.mod_eq_of_lt
    rw [MAX_UPLOAD_BYTES] at hsmall
    omega
  rw [appendUploadData, if_neg c.length_ne_zero, hmod, if_neg (not_lt.mpr hsmall)]
  rfl

/-- One more chunk. Behind a chunk that was dropped the buffer may still grow, within its bound. -/
theorem Tracks.append {chunks : List Chunk} {state : RequestState} (h : Tracks chunks state)
    (c : Chunk) : Tracks (chunks ++ [c]) (appendUploadData false state c.val).2 := by
  have hlen : (sent (chunks ++ [c])).length = (sent chunks).length + c.val.length := by simp
  by_cases hfits : state.bodyLen + c.val.length ≤ MAX_UPLOAD_BYTES
  · rw [appendUploadData_taken c hfits]
    have hwhole : (sent chunks).length + c.val.length ≤ MAX_UPLOAD_BYTES →
        state.data ++ c.val = sent (chunks ++ [c]) := by
      intro hle
      rw [(h.whole (by omega)).1, sent_append, sent_singleton]
    constructor
    · exact hfits
    · exact h.allocated
    · change state.bodyTooLarge = true ↔ _
      rw [h.flag, hlen]
      refine ⟨fun hlt => by omega, fun hlt => ?_⟩
      by_contra hle
      have hlen' := (h.whole (not_lt.mp hle)).2
      omega
    · intro hle
      rw [hlen] at hle
      have hlen' := (h.whole (by omega)).2
      constructor
      · rw [RequestState.data, Option.getD_some, hwhole hle]
        apply List.take_left'
        rw [hlen, hlen']
      · rw [hlen, hlen']
    · intro _ hle
      rw [hlen] at hle
      rw [hwhole hle]
  · rw [appendUploadData_dropped c h.bounded (not_le.mp hfits)]
    have hover : MAX_UPLOAD_BYTES < (sent (chunks ++ [c])).length := by
      rw [hlen]
      by_contra hle
      have hlen' := (h.whole (by omega)).2
      omega
    exact ⟨h.bounded, h.allocated, iff_of_true rfl hover, fun hle => absurd hover (not_lt.mpr hle),
      fun _ hle => absurd hover (not_lt.mpr hle)⟩

theorem received_append_singleton (S : Site) (url : Bytes) (chunks : List Chunk) (c : Chunk) :
    received S url (chunks ++ [c]) =
      (handleRequest S false url (ascii "POST") c.val (received S url chunks)).conCls := by
  rw [received, List.foldl_append, List.foldl_cons, List.foldl_nil, ← received]

theorem handleRequest_chunk (S : Site) (url : Bytes) (state : RequestState) (c : Chunk) :
    handleRequest S false url (ascii "POST") c.val (some state) =
      .yes (appendUploadData false state c.val).2 0 := by
  rw [handleRequest, if_neg (by decide), if_pos rfl, if_pos c.length_ne_zero]

/-- The induction over the chunks of a request. -/
theorem received_tracks (S : Site) (url : Bytes) (chunks : List Chunk) :
    ∃ state, received S url chunks = some state ∧ Tracks chunks state := by
  induction chunks using List.reverseRecOn with
  | nil => exact ⟨.zeroed, rfl, tracks_zeroed⟩
  | append_singleton chunks c ih =>
    obtain ⟨state, hreceived, htracks⟩ := ih
    refine ⟨(appendUploadData false state c.val).2, ?_, htracks.append c⟩
    rw [received_append_singleton, hreceived, handleRequest_chunk, Handled.conCls]

theorem lastCall_eq (S : Site) (url : Bytes) {chunks : List Chunk} {state : RequestState}
    (h : received S url chunks = some state) :
    lastCall S url chunks = .queued ((handlePost url state).respond S) := by
  rw [lastCall, h, handleRequest, if_neg (by decide), if_pos rfl, if_neg (by simp)]

/-- A body that is too long has a first chunk that does not fit. -/
theorem exists_first_over {chunks : List Chunk} {max : ℕ} (h : max < (sent chunks).length) :
    ∃ pre c, pre ++ [c] <+: chunks ∧ (sent pre).length ≤ max ∧
      max < (sent (pre ++ [c])).length := by
  induction chunks using List.reverseRecOn with
  | nil => simp at h
  | append_singleton chunks c ih =>
    by_cases hshort : (sent chunks).length ≤ max
    · exact ⟨chunks, c, List.prefix_rfl, hshort, h⟩
    · obtain ⟨pre, d, hpre, hle, hlt⟩ := ih (not_le.mp hshort)
      exact ⟨pre, d, hpre.trans (List.prefix_append _ _), hle, hlt⟩

theorem sent_length_mono {few chunks : List Chunk} (h : few <+: chunks) :
    (sent few).length ≤ (sent chunks).length := by
  obtain ⟨more, rfl⟩ := h
  simp

/-- The flag of the state behind some chunks. -/
def TooLarge (S : Site) (url : Bytes) (chunks : List Chunk) : Prop :=
  ∃ state, received S url chunks = some state ∧ state.bodyTooLarge = true

theorem tooLarge_iff (S : Site) (url : Bytes) (chunks : List Chunk) :
    TooLarge S url chunks ↔ MAX_UPLOAD_BYTES < (sent chunks).length := by
  obtain ⟨state, hreceived, htracks⟩ := received_tracks S url chunks
  rw [← htracks.flag, TooLarge, hreceived]
  simp

/-- Of the chunks of one body, those up to the first that does not fit decide the flag. -/
theorem tooLarge_iff_prefix (S : Site) (url : Bytes) {pre few chunks : List Chunk} {c : Chunk}
    (hpre : pre ++ [c] <+: chunks) (hle : (sent pre).length ≤ MAX_UPLOAD_BYTES)
    (hlt : MAX_UPLOAD_BYTES < (sent (pre ++ [c])).length) (hfew : few <+: chunks) :
    TooLarge S url few ↔ pre ++ [c] <+: few := by
  rw [tooLarge_iff]
  constructor
  · intro hover
    rcases List.prefix_or_prefix_of_prefix hpre hfew with h | h
    · exact h
    · rcases List.prefix_concat_iff.mp h with rfl | h
      · exact List.prefix_rfl
      · have := sent_length_mono h
        omega
  · intro h
    exact hlt.trans_le (sent_length_mono h)

/-- The body is refused from its first chunk too many on. -/
def RefusedFromFirst (S : Site) (url : Bytes) (chunks : List Chunk) : Prop :=
  ∃ pre c, pre ++ [c] <+: chunks ∧ (sent pre).length ≤ MAX_UPLOAD_BYTES ∧
    MAX_UPLOAD_BYTES < (sent (pre ++ [c])).length ∧
    ∀ few, few <+: chunks → (TooLarge S url few ↔ pre ++ [c] <+: few)

theorem refusedFromFirst {chunks : List Chunk} (S : Site) (url : Bytes)
    (h : MAX_UPLOAD_BYTES < (sent chunks).length) : RefusedFromFirst S url chunks := by
  obtain ⟨pre, c, hpre, hle, hlt⟩ := exists_first_over h
  exact ⟨pre, c, hpre, hle, hlt, fun few => tooLarge_iff_prefix S url hpre hle hlt⟩

/-- The buffer keeps its bound, a body that fits reaches `handle_post` whole, and one that does not
is refused. -/
theorem handleRequest_upload (S : Site) (url : Bytes) (chunks : List Chunk) :
    ∃ state, received S url chunks = some state ∧ state.bodyLen ≤ MAX_UPLOAD_BYTES ∧
      lastCall S url chunks = .queued ((handlePost url state).respond S) ∧
      (0 < (sent chunks).length → (sent chunks).length ≤ MAX_UPLOAD_BYTES →
        state.body = some (sent chunks ++ [0]) ∧ state.bodyLen = (sent chunks).length ∧
          state.bodyTooLarge = false) ∧
      (MAX_UPLOAD_BYTES < (sent chunks).length → RefusedFromFirst S url chunks ∧
        handlePost url state = .answered (queueTextResponse 413 "413 Request body too large\n")) := by
  obtain ⟨state, hreceived, htracks⟩ := received_tracks S url chunks
  refine ⟨state, hreceived, htracks.bounded, lastCall_eq S url hreceived, ?_, ?_⟩
  · intro hpos hle
    have hne : chunks ≠ [] := by
      rintro rfl
      exact absurd hpos (by simp)
    refine ⟨htracks.terminated hne hle, (htracks.whole hle).2, ?_⟩
    rw [← Bool.not_eq_true, htracks.flag]
    exact not_lt.mpr hle
  · intro hover
    refine ⟨refusedFromFirst S url hover, ?_⟩
    rw [handlePost, htracks.allocated, if_neg Bool.false_ne_true, htracks.flag.mpr hover, if_pos rfl]

theorem oversized_chunk : List.replicate 65537 0 ≠ ([] : Bytes) ∧
    (List.replicate 65537 (0 : UInt8)).length < 2 ^ 63 := by
  rw [List.length_replicate]
  exact ⟨List.cons_ne_nil _ _, by norm_num⟩

/-- One byte more than the buffer may hold, and a chunk that would still fit. -/
def overflowing : List Chunk := [⟨List.replicate 65537 0, oversized_chunk⟩, ⟨[1], by decide⟩]

/-- Such a body is refused, although its last byte is in the buffer. -/
theorem handleRequest_upload_overflowing :
    ∃ state, received ⟨.always, fun _ => none, 0, ⟨none, none, none, none, none⟩, fun _ => notFound⟩
        (ascii "/echo") overflowing = some state ∧
      handlePost (ascii "/echo") state =
        .answered (queueTextResponse 413 "413 Request body too large\n") := by
  obtain ⟨state, hreceived, -, -, -, hover⟩ := handleRequest_upload
    ⟨.always, fun _ => none, 0, ⟨none, none, none, none, none⟩, fun _ => notFound⟩ (ascii "/echo")
    overflowing
  have hlen : (sent overflowing).length = 65538 := by
    simp only [sent, overflowing, List.map_cons, List.map_nil, List.flatten_cons, List.flatten_nil,
      List.length_append, List.length_replicate, List.length_singleton, List.length_nil]
  exact ⟨state, hreceived, (hover (by rw [hlen, MAX_UPLOAD_BYTES]; norm_num)).2⟩

end Dumbos.CServer
