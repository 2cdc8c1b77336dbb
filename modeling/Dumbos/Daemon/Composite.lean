import Dumbos.Daemon.OnePayload

/-! # The grammar of composites

The data of a composite is a count and that many entries, each behind its length.
The loop hands the entries one after the other to the inner handler and stops at
the first that is malformed or fails. What it has handled lies before the offset,
so the entries are those of the data before any of them was handled.
-/
namespace Dumbos.Daemon
open Foundation Common Payload

section Format

/-- An entry behind its length. -/
def compositeEntry (entry : Bytes) : Bytes := be32 entry.length ++ entry

/-- The count and the entries. -/
def compositeData (entries : List Bytes) : Bytes :=
  be16 entries.length ++ entries.flatMap compositeEntry

/-- The format of `CODE_CMD_COMPOSITE`; what follows the entries does not matter. -/
structure IsComposite (data : Bytes) (entries : List Bytes) : Prop where
  encoded : ∃ rest, data = compositeData entries ++ rest
  count : entries.length < 2 ^ 16
  sizes : ∀ e ∈ entries, sizeofDumbPayload ≤ e.length ∧ e.length < 2 ^ 32

theorem compositeEntry_length (entry : Bytes) : (compositeEntry entry).length = 4 + entry.length := by
  rw [compositeEntry, List.length_append]
  rfl

/-- The length in front of an entry says where it ends. -/
theorem compositeEntry_inj {a b x y : Bytes} (ha : a.length < 2 ^ 32) (hb : b.length < 2 ^ 32)
    (h : compositeEntry a ++ x = compositeEntry b ++ y) : a = b ∧ x = y := by
  rw [compositeEntry, compositeEntry, List.append_assoc, List.append_assoc] at h
  obtain ⟨hbe, hrest⟩ := List.append_inj h rfl
  have hlen : a.length = b.length := by
    have hvalue := congrArg bigEndian hbe
    rw [bigEndian_be32, bigEndian_be32] at hvalue
    omega
  exact List.append_inj hrest hlen

/-- As many entries are told apart by their lengths. -/
theorem flatMap_compositeEntry_inj {as bs : List Bytes} {z : Bytes} (hlen : as.length = bs.length)
    (has : ∀ a ∈ as, a.length < 2 ^ 32) (hbs : ∀ b ∈ bs, b.length < 2 ^ 32)
    (h : as.flatMap compositeEntry = bs.flatMap compositeEntry ++ z) : as = bs := by
  induction as generalizing bs with
  | nil => exact (List.eq_nil_of_length_eq_zero hlen.symm).symm
  | cons a as ih =>
    obtain ⟨b, bs, rfl⟩ := List.exists_cons_of_length_eq_add_one hlen.symm
    rw [List.flatMap_cons, List.flatMap_cons, List.append_assoc] at h
    obtain ⟨rfl, hrest⟩ := compositeEntry_inj (has a (by simp)) (hbs b (by simp)) h
    rw [ih (Nat.succ.inj hlen) (fun c hc => has c (List.mem_cons_of_mem _ hc))
      (fun c hc => hbs c (List.mem_cons_of_mem _ hc)) hrest]

/-- Data that is cut can be a composite of as many entries only of the same ones, and whole. -/
theorem eq_of_take_compositeData {as bs : List Bytes} {rest : Bytes} {k : ℕ}
    (hlen : as.length = bs.length) (has : ∀ a ∈ as, a.length < 2 ^ 32)
    (hbs : ∀ b ∈ bs, b.length < 2 ^ 32)
    (h : (compositeData as).take k = compositeData bs ++ rest) :
    as = bs ∧ (compositeData bs).length ≤ k := by
  have hwhole : compositeData as = compositeData bs ++ (rest ++ (compositeData as).drop k) := by
    rw [← List.append_assoc, ← h, List.take_append_drop]
  obtain rfl : as = bs := by
    rw [compositeData, compositeData, hlen, List.append_assoc] at hwhole
    exact flatMap_compositeEntry_inj hlen has hbs (List.append_cancel_left hwhole)
  refine ⟨rfl, ?_⟩
  have hcut := congrArg List.length h
  rw [List.length_take, List.length_append] at hcut
  omega

/-- An entry stands where the loop reads it. -/
theorem entryAt_compositeEntry {entry : Bytes} (hlarge : sizeofDumbPayload ≤ entry.length)
    (hsmall : entry.length < 2 ^ 32) (pre rest : Bytes) :
    entryAt pre.length (pre ++ (compositeEntry entry ++ rest)) = some ⟨entry, hlarge⟩ := by
  have hlen : bigEndian (slice pre.length 4 (pre ++ (compositeEntry entry ++ rest))) =
      entry.length := by
    rw [compositeEntry, List.append_assoc, slice_append rfl (be32_length _), bigEndian_be32]
    omega
  have hentry : slice (pre.length + 4) entry.length (pre ++ (compositeEntry entry ++ rest)) =
      entry := by
    rw [compositeEntry, List.append_assoc, ← List.append_assoc]
    exact slice_append (by rw [List.length_append, be32_length]) rfl _
  have htotal : (pre ++ (compositeEntry entry ++ rest)).length =
      pre.length + 4 + entry.length + rest.length := by
    rw [List.length_append, List.length_append, compositeEntry_length]
    omega
  simp only [entryAt, hlen, hentry, htotal]
  rw [if_neg (by omega), if_neg (by omega), dif_neg (not_lt.mpr hlarge)]

end Format

/-- The sums of the checks fit into a `size_t`. -/
theorem entry_sum_lt {offset : ℕ} {data : Bytes} (hoffset : offset ≤ data.length)
    (hsize : data.length < 2 ^ 32) : offset + 4 + bigEndian (slice offset 4 data) < 2 ^ 64 := by
  have hlt := bigEndian_lt (slice offset 4 data)
  have hlen : (slice offset 4 data).length ≤ 4 := List.length_take_le _ _
  have hpow : 256 ^ (slice offset 4 data).length ≤ 256 ^ 4 := Nat.pow_le_pow_right (by decide) hlen
  omega

/-- A call of the inner handler: the range, what it holds, and the state it starts in. -/
structure EntryCall where
  offset : ℕ
  len : ℕ
  payload : DumbPayload
  before : State

section Calls
variable (inner : DumbPayload → Act (ℤ × DumbPayload))

def EntryCall.ret (c : EntryCall) : ℤ := (inner c.payload c.before).1.1

def EntryCall.after (c : EntryCall) : State := (inner c.payload c.before).2

/-- The calls follow one another from a state to a state. -/
def Threads : State → List EntryCall → State → Prop
  | s, [], t => t = s
  | s, c :: calls, t => c.before = s ∧ Threads (c.after inner) calls t

/-- The range of a call is the entry at an offset of the data, behind its length. -/
structure InRange (data : Bytes) (offset : ℕ) (c : EntryCall) : Prop where
  start : c.offset = offset + 4
  announced : bigEndian (slice offset 4 data) = c.len
  inside : c.offset + c.len ≤ data.length
  large : sizeofDumbPayload ≤ c.len
  bytes : c.payload.toBytes = slice c.offset c.len data
  dataLength : c.payload.payload.length = c.len - sizeofDumbPayload

/-- The ranges of the calls follow one another from an offset. -/
def Ranges (data : Bytes) : ℕ → List EntryCall → Prop
  | _, [] => True
  | offset, c :: calls => InRange data offset c ∧ Ranges data (c.offset + c.len) calls

/-- Where the next entry would start. -/
def nextOffset : ℕ → List EntryCall → ℕ
  | offset, [] => offset
  | _, c :: calls => nextOffset (c.offset + c.len) calls

/-- How a loop over `count` entries ends behind its calls. -/
inductive Ends (data : Bytes) (count offset : ℕ) (calls : List EntryCall) (t : State) :
    (ℤ × Bytes) × State → Prop where
  | finished (data' : Bytes) (hcount : calls.length = count) (hret : ∀ c ∈ calls, c.ret inner = 0) :
    Ends data count offset calls t ((0, data'), t)
  | stopped (data' : Bytes) (init : List EntryCall) (last : EntryCall)
    (hcalls : calls = init ++ [last]) (hcount : calls.length ≤ count)
    (hret : ∀ c ∈ init, c.ret inner = 0) (hlast : last.ret inner ≠ 0) :
    Ends data count offset calls t
      (leaving data' (fail "something went wrong" (last.ret inner)) t)
  | malformed (data' : Bytes) (hcount : calls.length < count) (hret : ∀ c ∈ calls, c.ret inner = 0)
    (hentry : entryAt (nextOffset offset calls) data = none) :
    Ends data count offset calls t (leaving data' (fail "invalid" EINVAL.code) t)

variable {inner}

theorem inRange_of_entryAt {offset : ℕ} {data : Bytes}
    {e : {b : Bytes // sizeofDumbPayload ≤ b.length}} (h : entryAt offset data = some e) (s : State) :
    InRange data offset ⟨offset + 4, e.val.length, DumbPayload.ofBytes e.val e.property, s⟩ := by
  obtain ⟨hfit, hbytes, hlen⟩ := entryAt_eq_some h
  constructor
  · rfl
  · exact hlen
  · exact hfit
  · exact e.property
  · rw [DumbPayload.toBytes_ofBytes]
    exact hbytes
  · exact DumbPayload.ofBytes_payload_length e.val e.property

theorem Ends.cons {data : Bytes} {count offset : ℕ} {c : EntryCall} {calls : List EntryCall}
    {t : State} {r : (ℤ × Bytes) × State} (hc : c.ret inner = 0)
    (h : Ends inner data count (c.offset + c.len) calls t r) :
    Ends inner data (count + 1) offset (c :: calls) t r := by
  have hall : ∀ cs : List EntryCall, (∀ c ∈ cs, c.ret inner = 0) →
      ∀ c' ∈ c :: cs, c'.ret inner = 0 := by
    intro cs hcs c' hc'
    rcases List.mem_cons.mp hc' with rfl | hc'
    · exact hc
    · exact hcs c' hc'
  cases h with
  | finished data' hcount hret =>
    exact .finished data' (congrArg (· + 1) hcount) (hall calls hret)
  | stopped data' init last hcalls hcount hret hlast =>
    exact .stopped data' (c :: init) last (by rw [hcalls]; rfl) (Nat.succ_le_succ hcount)
      (hall init hret) hlast
  | malformed data' hcount hret hentry =>
    exact .malformed data' (Nat.succ_lt_succ hcount) (hall calls hret) hentry

/-- Run: the loop makes its calls on the entries that the data held before it. -/
theorem compositeLoop_ends (hkeeps : KeepsLength inner) {data : Bytes} (count offset : ℕ)
    (now : Bytes) (s : State) (hlen : now.length = data.length)
    (hdrop : now.drop offset = data.drop offset) :
    ∃ calls t, Threads inner s calls t ∧ Ranges data offset calls ∧
      Ends inner data count offset calls t (compositeLoop inner count offset now s) := by
  induction count generalizing offset now s with
  | zero => exact ⟨[], s, rfl, trivial, .finished now rfl (by simp)⟩
  | succ count ih =>
    have hentry := entryAt_congr hlen hdrop
    cases hnow : entryAt offset now with
    | none =>
      rw [compositeLoop, hnow]
      exact ⟨[], s, rfl, trivial, .malformed now (Nat.succ_pos _) (by simp) (hentry ▸ hnow)⟩
    | some e =>
      obtain ⟨-, hsplice, hrest⟩ := splice_entry hkeeps hnow s
      have hrange := inRange_of_entryAt (hentry ▸ hnow) s
      rw [compositeLoop_succ hnow]
      simp only
      generalize hpayload : DumbPayload.ofBytes e.val e.property = p at hsplice hrest hrange ⊢
      by_cases hret : (inner p s).1.1 = 0
      · have hsame : now.drop (offset + 4 + e.val.length) = data.drop (offset + 4 + e.val.length) := by
          rw [Nat.add_assoc, ← List.drop_drop, hdrop, List.drop_drop]
        obtain ⟨calls, t, hthreads, hranges, hends⟩ := ih (offset + 4 + e.val.length)
          (splice (offset + 4) (inner p s).1.2.toBytes now) (inner p s).2
          (hsplice.trans hlen) (hrest.trans hsame)
        refine ⟨⟨offset + 4, e.val.length, p, s⟩ :: calls, t, ⟨rfl, hthreads⟩, ⟨hrange, hranges⟩, ?_⟩
        rw [if_neg (not_not.mpr hret)]
        exact Ends.cons hret hends
      · refine ⟨[⟨offset + 4, e.val.length, p, s⟩], (inner p s).2, ⟨rfl, rfl⟩, ⟨hrange, trivial⟩, ?_⟩
        rw [if_pos hret]
        exact .stopped _ [] ⟨offset + 4, e.val.length, p, s⟩ rfl (Nat.succ_le_succ (Nat.zero_le _)) (by simp) hret

/-- A range is a well-formed entry. -/
theorem InRange.drop {data : Bytes} {offset : ℕ} {c : EntryCall} (h : InRange data offset c) :
    data.drop offset = compositeEntry c.payload.toBytes ++ data.drop (c.offset + c.len) ∧
      c.payload.toBytes.length < 2 ^ 32 := by
  have hlen : c.payload.toBytes.length = c.len := by
    rw [h.bytes, slice_length h.inside]
  have hfit := h.inside
  have hstart := h.start
  have hfront : (slice offset 4 data).length = 4 := slice_length (by omega)
  have hbe := be32_bigEndian hfront
  have hsmall := bigEndian_lt (slice offset 4 data)
  rw [h.announced] at hbe hsmall
  rw [hfront] at hsmall
  constructor
  · rw [← slice_append_drop offset 4, ← h.start, ← slice_append_drop c.offset c.len, ← h.bytes,
      compositeEntry, hlen, hbe, List.append_assoc]
  · exact hlen ▸ hsmall

theorem Ranges.drop {data : Bytes} {offset : ℕ} {calls : List EntryCall} (h : Ranges data offset calls) :
    (∃ rest, data.drop offset = (calls.map (·.payload.toBytes)).flatMap compositeEntry ++ rest) ∧
      ∀ e ∈ calls.map (·.payload.toBytes), sizeofDumbPayload ≤ e.length ∧ e.length < 2 ^ 32 := by
  induction calls generalizing offset with
  | nil => exact ⟨⟨_, rfl⟩, by simp⟩
  | cons c calls ih =>
    obtain ⟨hrange, hranges⟩ := h
    obtain ⟨hdrop, hsmall⟩ := hrange.drop
    obtain ⟨⟨rest, hrest⟩, hsizes⟩ := ih hranges
    constructor
    · refine ⟨rest, ?_⟩
      rw [hdrop, hrest, List.map_cons, List.flatMap_cons, List.append_assoc]
    · intro e he
      rcases List.mem_cons.mp he with rfl | he
      · exact ⟨c.payload.le_toBytes_length, hsmall⟩
      · exact hsizes e he

/-- As many calls as the count says have read a composite. -/
theorem isComposite_of_ranges {data : Bytes} {calls : List EntryCall} (hsize : 2 ≤ data.length)
    (h : Ranges data 2 calls) (hcount : calls.length = bigEndian (slice 0 2 data)) :
    IsComposite data (calls.map (·.payload.toBytes)) := by
  have hhead : (slice 0 2 data).length = 2 := slice_length hsize
  obtain ⟨⟨rest, hrest⟩, hsizes⟩ := h.drop
  constructor
  · refine ⟨rest, ?_⟩
    rw [compositeData, List.length_map, hcount, be16_bigEndian hhead, List.append_assoc, ← hrest]
    exact (slice_append_drop 0 2 data).symm
  · rw [List.length_map, hcount]
    have hlt := bigEndian_lt (slice 0 2 data)
    rwa [hhead] at hlt
  · exact hsizes

/-- Calls on the entries of a composite, with a next entry as long as there are more. -/
theorem Ranges.entries {data : Bytes} {offset : ℕ} {calls : List EntryCall} (h : Ranges data offset calls)
    (hoffset : offset ≤ data.length) {entries : List Bytes} {rest : Bytes}
    (hdrop : data.drop offset = entries.flatMap compositeEntry ++ rest)
    (hsizes : ∀ e ∈ entries, sizeofDumbPayload ≤ e.length ∧ e.length < 2 ^ 32)
    (hcount : calls.length ≤ entries.length) :
    calls.map (·.payload.toBytes) <+: entries ∧
      (calls.length < entries.length → entryAt (nextOffset offset calls) data ≠ none) := by
  induction calls generalizing offset entries with
  | nil =>
    refine ⟨List.nil_prefix, fun hmore => ?_⟩
    obtain ⟨e, entries, rfl⟩ := List.exists_cons_of_length_pos hmore
    obtain ⟨hlarge, hsmall⟩ := hsizes e (by simp)
    have hentry := entryAt_compositeEntry hlarge hsmall (data.take offset)
      (entries.flatMap compositeEntry ++ rest)
    rw [List.length_take, Nat.min_eq_left hoffset, ← List.append_assoc (compositeEntry e),
      ← List.flatMap_cons, ← hdrop, List.take_append_drop] at hentry
    rw [nextOffset, hentry]
    simp
  | cons c calls ih =>
    obtain ⟨hrange, hranges⟩ := h
    obtain ⟨e, entries, rfl⟩ := List.exists_cons_of_length_pos (Nat.zero_lt_of_lt hcount)
    obtain ⟨hcdrop, hcsmall⟩ := hrange.drop
    rw [List.flatMap_cons, List.append_assoc, hcdrop] at hdrop
    obtain ⟨hentry, hrest⟩ := compositeEntry_inj hcsmall (hsizes e (by simp)).2 hdrop
    obtain ⟨hfront, hnext⟩ := ih hranges hrange.inside hrest
      (fun e' he' => hsizes e' (List.mem_cons_of_mem _ he')) (Nat.le_of_succ_le_succ hcount)
    constructor
    · rw [List.map_cons, hentry, List.prefix_cons_inj]
      exact hfront
    · intro hmore
      exact hnext (Nat.lt_of_succ_lt_succ hmore)

variable (inner)

/-- The ranges that the calls of a composite follow, and how it ends. -/
structure Handles (data : Bytes) (s : State) (calls : List EntryCall) (t : State)
    (r : (ℤ × Bytes) × State) : Prop where
  threads : Threads inner s calls t
  ranges : Ranges data 2 calls
  short : data.length < 2 → calls = [] ∧ r.1.1 = EINVAL.code
  ends : 2 ≤ data.length → Ends inner data (bigEndian (slice 0 2 data)) 2 calls t r

variable {inner}

theorem payloadCmdComposite_handles (hkeeps : KeepsLength inner) (data : Bytes) (s : State) :
    ∃ calls t, Handles inner data s calls t (payloadCmdComposite inner data s) := by
  rw [payloadCmdComposite]
  split_ifs with hshort
  · exact ⟨[], s, rfl, trivial, fun _ => ⟨rfl, rfl⟩, fun hsize => absurd hshort (not_lt.mpr hsize)⟩
  · obtain ⟨calls, t, hthreads, hranges, hends⟩ := compositeLoop_ends hkeeps
      (bigEndian (slice 0 2 data)) 2 data s rfl rfl
    exact ⟨calls, t, hthreads, hranges, fun h => absurd h hshort, fun _ => hends⟩

theorem IsComposite.count_eq {data : Bytes} {entries : List Bytes} (h : IsComposite data entries) :
    2 ≤ data.length ∧ bigEndian (slice 0 2 data) = entries.length ∧
      ∃ rest, data.drop 2 = entries.flatMap compositeEntry ++ rest := by
  obtain ⟨⟨rest, rfl⟩, hcount, -⟩ := h
  rw [compositeData, List.append_assoc]
  refine ⟨?_, ?_, rest, rfl⟩
  · rw [List.length_append, be16_length]
    exact Nat.le_add_right _ _
  · have hslice : slice 0 2 (be16 entries.length ++ (entries.flatMap compositeEntry ++ rest)) =
        be16 entries.length := @slice_append _ 0 2 [] _ rfl (be16_length _) _
    rw [hslice, bigEndian_be16]
    omega

/-- The loop over a composite whose handlers succeed. -/
theorem Handles.of_isComposite {data : Bytes} {s t : State} {calls : List EntryCall}
    {r : (ℤ × Bytes) × State} (h : Handles inner data s calls t r) {entries : List Bytes}
    (hcomposite : IsComposite data entries) (hret : ∀ c ∈ calls, c.ret inner = 0) :
    calls.map (·.payload.toBytes) = entries ∧ r.1.1 = 0 ∧ r.2 = t := by
  obtain ⟨hsize, hcount, rest, hdrop⟩ := hcomposite.count_eq
  have hends := h.ends hsize
  have hentries := h.ranges.entries hsize hdrop hcomposite.sizes
  rw [hcount] at hends
  cases hends with
  | finished data' hlen _ =>
    obtain ⟨hfront, -⟩ := hentries hlen.le
    refine ⟨hfront.eq_of_length ?_, rfl, rfl⟩
    rw [List.length_map, hlen]
  | stopped data' init last hcalls _ _ hlast =>
    exact absurd (hret last (by rw [hcalls]; simp)) hlast
  | malformed data' hless _ hentry =>
    exact absurd hentry ((hentries hless.le).2 hless)

/-- A composite succeeds exactly if it is well formed and its handlers succeed. -/
theorem Handles.ret_eq_zero_iff {data : Bytes} {s t : State} {calls : List EntryCall}
    {r : (ℤ × Bytes) × State} (h : Handles inner data s calls t r) :
    r.1.1 = 0 ↔ IsComposite data (calls.map (·.payload.toBytes)) ∧ ∀ c ∈ calls, c.ret inner = 0 := by
  constructor
  · intro hzero
    have hinvalid : EINVAL.code ≠ 0 := by decide
    rcases lt_or_ge data.length 2 with hshort | hsize
    · rw [(h.short hshort).2] at hzero
      exact absurd hzero hinvalid
    · have hends := h.ends hsize
      cases hends with
      | finished data' hcount hret => exact ⟨isComposite_of_ranges hsize h.ranges hcount, hret⟩
      | stopped data' init last hcalls _ _ hlast => exact absurd hzero hlast
      | malformed data' hless _ hentry => exact absurd hzero hinvalid
  · rintro ⟨hcomposite, hret⟩
    exact (h.of_isComposite hcomposite hret).2.1

end Calls

/-- The composite parser: it calls its inner handler on the entries of the data as it came, inside the
data and one after the other, ends as the loop says, and returns 0 exactly if the data is a composite
and all its handlers have returned 0. -/
theorem payloadCmdComposite_grammar {inner : DumbPayload → Act (ℤ × DumbPayload)}
    (hkeeps : KeepsLength inner) (data : Bytes) (s : State) :
    ∃ calls t, Threads inner s calls t ∧ Ranges data 2 calls ∧
      (data.length < 2 → calls = [] ∧ (payloadCmdComposite inner data s).1.1 = EINVAL.code) ∧
      (2 ≤ data.length → Ends inner data (bigEndian (slice 0 2 data)) 2 calls t
        (payloadCmdComposite inner data s)) ∧
      ((payloadCmdComposite inner data s).1.1 = 0 ↔
        ∃ entries, IsComposite data entries ∧ calls.map (·.payload.toBytes) = entries ∧
          ∀ c ∈ calls, c.ret inner = 0) := by
  obtain ⟨calls, t, h⟩ := payloadCmdComposite_handles hkeeps data s
  refine ⟨calls, t, h.threads, h.ranges, h.short, h.ends, ?_⟩
  rw [h.ret_eq_zero_iff]
  constructor
  · rintro ⟨hcomposite, hret⟩
    exact ⟨_, hcomposite, rfl, hret⟩
  · rintro ⟨entries, hcomposite, rfl, hret⟩
    exact ⟨hcomposite, hret⟩

/-- Two empty headers. -/
def twoEntries : List Bytes := List.replicate 2 (List.replicate 168 0)

theorem payloadCmdComposite_grammar_twoEntries : ∃ calls t,
    Threads (fun p => return (0, p)) State.start calls t ∧ Ranges (compositeData twoEntries) 2 calls ∧
      IsComposite (compositeData twoEntries) (calls.map (·.payload.toBytes)) := by
  obtain ⟨calls, t, hthreads, hranges, -, -, hiff⟩ := @payloadCmdComposite_grammar
    (fun p => return (0, p)) (fun p s => rfl) (compositeData twoEntries) State.start
  have hzero : (payloadCmdComposite (fun p => return (0, p)) (compositeData twoEntries)
      State.start).1.1 = 0 := by decide +kernel
  obtain ⟨entries, hcomposite, rfl, -⟩ := hiff.mp hzero
  exact ⟨calls, t, hthreads, hranges, hcomposite⟩

end Dumbos.Daemon
