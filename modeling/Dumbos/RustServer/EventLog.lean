import Dumbos.RustServer.Dumbcode
import Mathlib.Data.List.AList

/-! # The log of events

The table of events keeps the number of its entries next to a keyspace that
outlives it, and takes that number as its next key. The list on the screen grows at
the front and takes its own length as the next index to read.
-/
namespace Dumbos.RustServer
open Foundation

/-- `postcard`, and what the database says when it cannot take one more entry. -/
structure Backend where
  toStdvec : Event → Option Bytes
  fromBytes : Bytes → Option Event
  full : Bytes

/-- Decoding undoes encoding. -/
def Backend.Undoes (B : Backend) : Prop :=
  ∀ e, ∃ value, B.toStdvec e = some value ∧ B.fromBytes value = some e

inductive TableFailure where
  | database (text : Bytes)
  | panic
deriving DecidableEq

/-- A map whose entries can be counted in a `usize`. -/
abbrev Keyspace := { map : AList (fun _ : Bytes => Bytes) // map.entries.length < 2 ^ 64 }

namespace Keyspace
variable (B : Backend)

def empty : Keyspace := ⟨∅, by simp⟩

/-- A call that fails for a reason of its own has a text. -/
def insert (fault : Option Bytes) (key value : Bytes) (k : Keyspace) : Except TableFailure Keyspace :=
  match fault with
  | some text => .error (.database text)
  | none =>
    if h : (k.val.insert key value).entries.length < 2 ^ 64 then .ok ⟨k.val.insert key value, h⟩
    else .error (.database B.full)

def get (fault : Option Bytes) (key : Bytes) (k : Keyspace) : Except TableFailure (Option Bytes) :=
  match fault with
  | some text => .error (.database text)
  | none => .ok (k.val.lookup key)

def len (fault : Option Bytes) (k : Keyspace) : Except TableFailure ℕ :=
  match fault with
  | some text => .error (.database text)
  | none => .ok k.val.entries.length

def clear (fault : Option Bytes) : Except TableFailure Keyspace :=
  match fault with
  | some text => .error (.database text)
  | none => .ok empty

end Keyspace

def toBeBytes (n : UInt64) : Bytes := be32 (n.toNat / 2 ^ 32) ++ be32 n.toNat

theorem toBeBytes_injective : Function.Injective toBeBytes := by
  intro n m h
  obtain ⟨hhigh, hlow⟩ := List.append_inj h (by simp)
  have hhigh := congrArg bigEndian hhigh
  have hlow := congrArg bigEndian hlow
  rw [bigEndian_be32, bigEndian_be32] at hhigh hlow
  have hn := n.toNat_lt
  have hm := m.toNat_lt
  apply UInt64.toNat_inj.mp
  omega

structure EventsTable where
  keyspace : Keyspace
  len : UInt64

namespace EventsTable
variable (B : Backend)

def openOn (fault : Option Bytes) (keyspace : Keyspace) : Except TableFailure EventsTable := do
  let len ← keyspace.len fault
  return ⟨keyspace, UInt64.ofNat len⟩

def push (fault : Option Bytes) (event : Event) (t : EventsTable) :
    Except TableFailure Unit × EventsTable :=
  match B.toStdvec event with
  | none => (.error .panic, t)
  | some value => match t.keyspace.insert B fault (toBeBytes t.len) value with
    | .error e => (.error e, t)
    | .ok keyspace => (.ok (), ⟨keyspace, t.len + 1⟩)

def get (fault : Option Bytes) (index : UInt64) (t : EventsTable) :
    Except TableFailure (Option Event) := do
  let val ← t.keyspace.get fault (toBeBytes index)
  match val with
  | none => return none
  | some val => match B.fromBytes val with
    | some v => return some v
    | none => .error .panic

def clear (fault : Option Bytes) (t : EventsTable) : Except TableFailure Unit × EventsTable :=
  match Keyspace.clear fault with
  | .error e => (.error e, t)
  | .ok keyspace => (.ok (), ⟨keyspace, 0⟩)

end EventsTable

inductive TableOp where
  | reopen
  | push (event : Event)
  | clear

/-- A call, and what goes wrong in the database. -/
structure TableCall where
  op : TableOp
  fault : Option Bytes

section Table
variable (B : Backend)

/-- A table that is opened again finds the keyspace of the one before. -/
def tableStep (t : EventsTable) (c : TableCall) : Except TableFailure Unit × EventsTable :=
  match c.op with
  | .reopen => match EventsTable.openOn c.fault t.keyspace with
    | .error e => (.error e, t)
    | .ok t' => (.ok (), t')
  | .push event => t.push B c.fault event
  | .clear => t.clear c.fault

def databaseError : Except TableFailure Unit → Bool
  | .error (.database _) => true
  | _ => false

def logAfter (log : List Event) (c : TableCall) : List Event :=
  match c.op with
  | .reopen => log
  | .push event => log ++ [event]
  | .clear => []

/-- The events that have been pushed since the last clear. -/
def pushedSinceClear (cs : List TableCall) : List Event := cs.foldl logAfter []

variable {B}

/-- The entries of the keyspace are those of the log, and the table knows how many there are. -/
structure Holds (B : Backend) (t : EventsTable) (log : List Event) : Prop where
  len : t.len.toNat = log.length
  count : t.keyspace.val.entries.length = log.length
  lookup : ∀ i, t.keyspace.val.lookup (toBeBytes i) = log[i.toNat]?.bind B.toStdvec

theorem Holds.get (hB : B.Undoes) {t : EventsTable} {log : List Event} (h : Holds B t log)
    (i : UInt64) : t.get B none i = .ok log[i.toNat]? := by
  have hval : t.keyspace.get none (toBeBytes i) = .ok (log[i.toNat]?.bind B.toStdvec) :=
    congrArg Except.ok (h.lookup i)
  rw [EventsTable.get, hval]
  cases log[i.toNat]? with
  | none => rfl
  | some event =>
    obtain ⟨value, hvalue, hevent⟩ := hB event
    rw [Option.bind_some, hvalue]
    change (match B.fromBytes value with
      | some v => Except.ok (some v)
      | none => .error TableFailure.panic) = _
    rw [hevent]

theorem holds_empty {fault : Option Bytes} {t : EventsTable}
    (h : EventsTable.openOn fault Keyspace.empty = .ok t) : Holds B t [] := by
  cases fault with
  | some text => cases h
  | none =>
    cases h
    exact ⟨rfl, rfl, fun _ => rfl⟩

theorem Holds.openOn {t : EventsTable} {log : List Event} (h : Holds B t log) {fault : Option Bytes}
    {t' : EventsTable} (hopen : EventsTable.openOn fault t.keyspace = .ok t') : Holds B t' log := by
  cases fault with
  | some text => cases hopen
  | none =>
    cases hopen
    refine ⟨?_, h.count, h.lookup⟩
    change (UInt64.ofNat t.keyspace.val.entries.length).toNat = _
    rw [UInt64.toNat_ofNat_of_lt' t.keyspace.property, h.count]

/-- What a push can do: the entry is new, and the length cannot wrap. -/
theorem Holds.push (hB : B.Undoes) {t : EventsTable} {log : List Event} (h : Holds B t log)
    (fault : Option Bytes) (event : Event) :
    (∃ text, t.push B fault event = (.error (.database text), t)) ∨
      ∃ t', t.push B fault event = (.ok (), t') ∧ Holds B t' (log ++ [event]) := by
  obtain ⟨value, hvalue, -⟩ := hB event
  cases fault with
  | some text =>
    refine Or.inl ⟨text, ?_⟩
    rw [EventsTable.push, hvalue]
    rfl
  | none =>
    have hnew : toBeBytes t.len ∉ t.keyspace.val := by
      rw [← AList.lookup_eq_none, h.lookup, h.len, List.getElem?_eq_none le_rfl]
      rfl
    have hentries : (t.keyspace.val.insert (toBeBytes t.len) value).entries.length =
        log.length + 1 := by
      rw [AList.entries_insert_of_notMem hnew, List.length_cons, h.count]
    by_cases hroom : (t.keyspace.val.insert (toBeBytes t.len) value).entries.length < 2 ^ 64
    · refine Or.inr ⟨⟨⟨t.keyspace.val.insert (toBeBytes t.len) value, hroom⟩, t.len + 1⟩, ?_, ?_⟩
      · rw [EventsTable.push, hvalue]
        simp only [Keyspace.insert, dif_pos hroom]
      · constructor
        · rw [hentries] at hroom
          have hlen := h.len
          rw [UInt64.toNat_add, List.length_append, List.length_singleton, hlen]
          exact Nat.mod_eq_of_lt hroom
        · rw [List.length_append, List.length_singleton]
          exact hentries
        · intro i
          by_cases hi : i = t.len
          · rw [hi, AList.lookup_insert, h.len, List.getElem?_concat_length]
            exact hvalue.symm
          · have hne : i.toNat ≠ log.length := by
              rw [← h.len]
              exact fun heq => hi (UInt64.toNat_inj.mp heq)
            rw [AList.lookup_insert_ne (toBeBytes_injective.ne hi), h.lookup]
            rcases lt_or_gt_of_ne hne with hlt | hgt
            · rw [List.getElem?_append_left hlt]
            · rw [List.getElem?_eq_none hgt.le, List.getElem?_eq_none (by simpa using hgt)]
    · refine Or.inl ⟨B.full, ?_⟩
      rw [EventsTable.push, hvalue]
      simp only [Keyspace.insert, dif_neg hroom]

/-- Step: a call without a database error does what it is for. -/
theorem Holds.tableStep (hB : B.Undoes) {t : EventsTable} {log : List Event} (h : Holds B t log)
    (c : TableCall) : databaseError (tableStep B t c).1 = true ∨
      Holds B (tableStep B t c).2 (logAfter log c) := by
  obtain ⟨op, fault⟩ := c
  cases op with
  | reopen =>
    cases fault with
    | some text => exact Or.inl rfl
    | none => exact Or.inr (@Holds.openOn B t log h none _ rfl)
  | push event =>
    rcases h.push hB fault event with ⟨text, hpush⟩ | ⟨t', hpush, hholds⟩
    · left
      change databaseError (t.push B fault event).1 = true
      rw [hpush]
      rfl
    · right
      change Holds B (t.push B fault event).2 _
      rwa [hpush]
  | clear =>
    cases fault with
    | some text => exact Or.inl rfl
    | none => exact Or.inr ⟨rfl, rfl, fun _ => rfl⟩

/-- Run: the table holds what has been pushed since the last clear. -/
theorem holds_finalState (hB : B.Undoes) {t : EventsTable} (h : Holds B t []) (cs : List TableCall)
    (hcs : ∀ e ∈ trace (tableStep B) t cs, databaseError e.output = false) :
    Holds B (finalState (tableStep B) t cs) (pushedSinceClear cs) := by
  revert hcs
  refine run_induction (tableStep B) (fun cs t' =>
    (∀ e ∈ trace (tableStep B) t cs, databaseError e.output = false) →
      Holds B t' (pushedSinceClear cs)) t (fun _ => h) ?_ cs
  intro cs c ih hcs
  rw [trace_append] at hcs
  have hbefore := ih fun e he => hcs e (List.mem_append_left _ he)
  have hlast := hcs (callOf (tableStep B) (finalState (tableStep B) t cs) c)
    (List.mem_append_right _ (List.mem_singleton_self _))
  rw [pushedSinceClear, List.foldl_append]
  rcases hbefore.tableStep hB c with herror | hholds
  · exact Bool.noConfusion (herror.symm.trans hlast)
  · exact hholds

end Table

/-- The table behind its lock, which a panic poisons. -/
structure EventsMutex where
  table : EventsTable
  poisoned : Bool

/-- The table, and the list of a screen. -/
structure Screen where
  mutex : EventsMutex
  list : List Event

section View
variable (B : Backend)

/-- `Event::dispatch`; an error is what it panics with. -/
def EventsMutex.dispatch (fault : Option Bytes) (now : ℤ) (e : Event) (m : EventsMutex) :
    Except TableFailure Unit × EventsMutex :=
  if m.poisoned then (.error .panic, m)
  else match m.table.push B fault { e with time := now } with
    | (.error err, table) => (.error err, ⟨table, true⟩)
    | (.ok (), table) => (.ok (), ⟨table, false⟩)

/-- An event that is read for the list, or one that says why it is not there; `none` is a panic. -/
def fetchEvent (faults : UInt64 → Option Bytes) (t : EventsTable) (i : UInt64) : Option Event :=
  match t.get B (faults i) i with
  | .ok (some event) => some event
  | .ok none =>
    some (Event.error (ascii "retrieving events") (ascii "event " ++ natText i.toNat ++ ascii " missing"))
  | .error (.database text) => some (Event.error (ascii "retrieving events") text)
  | .error .panic => none

def eventsListReload (faults : UInt64 → Option Bytes) (s : Screen) :
    Except TableFailure Unit × Screen :=
  if s.mutex.poisoned then (.error .panic, s)
  else
    let newLen := s.mutex.table.len.toNat
    let oldLen := (UInt64.ofNat s.list.length).toNat
    match (List.range' oldLen (newLen - oldLen)).mapM
        (fun i => fetchEvent B faults s.mutex.table (UInt64.ofNat i)) with
    | none => (.error .panic, { s with mutex := ⟨s.mutex.table, true⟩ })
    | some newEvents => (.ok (), { s with
        list := newEvents.foldl (fun list event => event :: list) s.list })

inductive ViewOp where
  | dispatch (fault : Option Bytes) (now : ℤ) (event : Event)
  | reload (faults : UInt64 → Option Bytes)

def viewStep (s : Screen) (op : ViewOp) : Except TableFailure Unit × Screen :=
  match op with
  | .dispatch fault now event =>
    let (result, mutex) := s.mutex.dispatch B fault now event
    (result, { s with mutex := mutex })
  | .reload faults => eventsListReload B faults s

/-- The events of these steps as they are logged. -/
def dispatched (ops : List ViewOp) : List Event :=
  ops.filterMap fun op => match op with
    | .dispatch _ now event => some { event with time := now }
    | .reload _ => none

/-- What a step reads from the database can be read. -/
def ViewOp.Reads : ViewOp → Prop
  | .dispatch .. => True
  | .reload faults => ∀ i, faults i = none

variable {B}

theorem mapM_range'_eq_drop {α : Type} {f : ℕ → Option α} {l : List α}
    (h : ∀ i (hi : i < l.length), f i = some l[i]) (k : ℕ) :
    (List.range' k (l.length - k)).mapM f = some (l.drop k) := by
  generalize hn : l.length - k = n
  induction n generalizing k with
  | zero =>
    rw [List.drop_eq_nil_of_le (by omega)]
    rfl
  | succ n ih =>
    have hk : k < l.length := by omega
    rw [List.range'_succ, List.mapM_cons, h k hk, ih (k + 1) (by omega), List.drop_eq_getElem_cons hk]
    rfl

/-- The list shows a part of the log from its start on, the other way round. -/
structure Shows (B : Backend) (s : Screen) (log : List Event) : Prop where
  usable : s.mutex.poisoned = false
  holds : Holds B s.mutex.table log
  shown : s.list.reverse <+: log

/-- A reload adds what is missing at the front. -/
theorem Shows.reload (hB : B.Undoes) {s : Screen} {log : List Event} (h : Shows B s log)
    {faults : UInt64 → Option Bytes} (hfaults : ∀ i, faults i = none) :
    eventsListReload B faults s = (.ok (), { s with list := log.reverse }) := by
  have hbound := h.holds.len ▸ s.mutex.table.len.toNat_lt
  have hle : s.list.length ≤ log.length := by
    rw [← List.length_reverse]
    exact h.shown.length_le
  have hold : (UInt64.ofNat s.list.length).toNat = s.list.length :=
    UInt64.toNat_ofNat_of_lt' (hle.trans_lt hbound)
  have hfetch : ∀ i (hi : i < log.length),
      fetchEvent B faults s.mutex.table (UInt64.ofNat i) = some log[i] := by
    intro i hi
    have hindex : (UInt64.ofNat i).toNat = i := UInt64.toNat_ofNat_of_lt' (hi.trans hbound)
    rw [fetchEvent, hfaults, h.holds.get hB, hindex, List.getElem?_eq_getElem hi]
  have hlist : (log.drop s.list.length).foldl (fun list event => event :: list) s.list =
      log.reverse := by
    obtain ⟨rest, rfl⟩ := h.shown
    rw [List.foldl_flip_cons_eq_append', List.drop_left' List.length_reverse, List.reverse_append,
      List.reverse_reverse]
  rw [eventsListReload, if_neg (by simp [h.usable])]
  dsimp only
  rw [hold, h.holds.len, mapM_range'_eq_drop hfetch]
  dsimp only
  rw [hlist]

theorem Shows.dispatch (hB : B.Undoes) {s : Screen} {log : List Event} (h : Shows B s log)
    (fault : Option Bytes) (now : ℤ) (event : Event) :
    databaseError (s.mutex.dispatch B fault now event).1 = true ∨
      Shows B { s with mutex := (s.mutex.dispatch B fault now event).2 }
        (log ++ [{ event with time := now }]) := by
  have hunlocked : ¬s.mutex.poisoned = true := by simp [h.usable]
  rw [EventsMutex.dispatch, if_neg hunlocked]
  rcases h.holds.push hB fault { event with time := now } with ⟨text, hpush⟩ | ⟨t, hpush, hholds⟩
  · left
    rw [hpush]
    rfl
  · right
    rw [hpush]
    exact ⟨rfl, hholds, h.shown.trans (List.prefix_append _ _)⟩

/-- Step: the list keeps showing a part of the log. -/
theorem Shows.viewStep (hB : B.Undoes) {s : Screen} {log : List Event} (h : Shows B s log)
    {op : ViewOp} (hop : op.Reads) : databaseError (viewStep B s op).1 = true ∨
      Shows B (viewStep B s op).2 (log ++ dispatched [op]) := by
  cases op with
  | dispatch fault now event => exact h.dispatch hB fault now event
  | reload faults =>
    right
    change Shows B (eventsListReload B faults s).2 (log ++ [])
    rw [h.reload hB hop, List.append_nil]
    exact ⟨h.usable, h.holds, by rw [List.reverse_reverse]⟩

/-- Run: the log goes on, and the list with it. -/
theorem shows_finalState (hB : B.Undoes) {s : Screen} {log : List Event} (h : Shows B s log)
    (ops : List ViewOp) (hreads : ∀ op ∈ ops, op.Reads)
    (hops : ∀ e ∈ trace (viewStep B) s ops, databaseError e.output = false) :
    Shows B (finalState (viewStep B) s ops) (log ++ dispatched ops) := by
  induction ops generalizing s log with
  | nil => rwa [dispatched, List.filterMap_nil, List.append_nil]
  | cons op ops ih =>
    rcases h.viewStep hB (hreads op (by simp)) with herror | hshows
    · exact Bool.noConfusion (herror.symm.trans (hops (callOf (viewStep B) s op) (by simp)))
    · have hrest := ih hshows (fun o ho => hreads o (List.mem_cons_of_mem _ ho))
        (fun e he => hops e (List.mem_cons_of_mem _ he))
      rwa [List.append_assoc, dispatched, dispatched, ← List.filterMap_append] at hrest

end View

/-- The server's list of events, as the handlers use it, is what the table holds. -/
structure Represents (B : Backend) (s : Server) (m : EventsMutex) : Prop where
  poisoned : m.poisoned = s.poisoned
  holds : Holds B m.table s.events

/-- A dispatch on the table refines one on the list. -/
theorem Represents.dispatch {B : Backend} (hB : B.Undoes) {s : Server} {m : EventsMutex}
    (h : Represents B s m) (env : Env) (e : Event)
    (henv : env.pushError = none → databaseError (m.dispatch B none env.now e).1 = false) :
    ((Event.dispatch env e s).1 = some () ↔ (m.dispatch B env.pushError env.now e).1 = .ok ()) ∧
      Represents B (Event.dispatch env e s).2 (m.dispatch B env.pushError env.now e).2 := by
  rw [Event.dispatch, EventsMutex.dispatch, h.poisoned]
  by_cases hpoisoned : s.poisoned = true
  · rw [if_pos hpoisoned, if_pos hpoisoned]
    exact ⟨by simp, h⟩
  rw [if_neg hpoisoned, if_neg hpoisoned]
  cases hfault : env.pushError with
  | some text =>
    rcases h.holds.push hB (some text) { e with time := env.now } with
      ⟨text', hpush⟩ | ⟨t, hpush, -⟩
    · rw [hpush]
      exact ⟨by simp, rfl, h.holds⟩
    · rw [EventsTable.push] at hpush
      obtain ⟨value, hvalue, -⟩ := hB { e with time := env.now }
      rw [hvalue] at hpush
      cases (Prod.mk.inj hpush).1
  | none =>
    rcases h.holds.push hB none { e with time := env.now } with ⟨text, hpush⟩ | ⟨t, hpush, hholds⟩
    · have hfine := henv hfault
      rw [EventsMutex.dispatch, h.poisoned, if_neg hpoisoned, hpush] at hfine
      cases hfine
    · rw [hpush]
      exact ⟨by simp, by simpa using hpoisoned, hholds⟩

/-- Without database errors the table is the sequence of the events that have been pushed since the
last clear, and a list that is only reloaded shows all of them after each reload, the last one first. -/
theorem eventsTable_log {B : Backend} (hB : B.Undoes) {fault : Option Bytes} {t : EventsTable}
    (hopen : EventsTable.openOn fault Keyspace.empty = .ok t) (cs : List TableCall)
    (hcs : ∀ e ∈ trace (tableStep B) t cs, databaseError e.output = false) :
    (finalState (tableStep B) t cs).len.toNat = (pushedSinceClear cs).length ∧
    (∀ i, (finalState (tableStep B) t cs).get B none i = .ok (pushedSinceClear cs)[i.toNat]?) ∧
    ∀ ops faults, (∀ op ∈ ops ++ [.reload faults], op.Reads) →
      (∀ e ∈ trace (viewStep B) ⟨⟨finalState (tableStep B) t cs, false⟩, []⟩
        (ops ++ [.reload faults]), databaseError e.output = false) →
      (finalState (viewStep B) ⟨⟨finalState (tableStep B) t cs, false⟩, []⟩
        (ops ++ [.reload faults])).list = (pushedSinceClear cs ++ dispatched ops).reverse := by
  have hholds := holds_finalState hB (holds_empty hopen) cs hcs
  refine ⟨hholds.len, hholds.get hB, ?_⟩
  intro ops faults hreads hops
  have hstart : Shows B ⟨⟨finalState (tableStep B) t cs, false⟩, []⟩ (pushedSinceClear cs) :=
    ⟨rfl, hholds, List.nil_prefix⟩
  rw [trace_append] at hops
  have hshows := shows_finalState hB hstart ops (fun op hop => hreads op (by simp [hop]))
    fun e he => hops e (List.mem_append_left _ he)
  rw [finalState_append, finalState_cons, finalState_nil]
  change (eventsListReload B faults _).2.list = _
  rw [hshows.reload hB (hreads (.reload faults) (by simp))]

section Postcard

/-- Seven bits a byte, the low ones first; `k` more bytes may follow the first. -/
def varint : ℕ → ℕ → Bytes
  | 0, n => [UInt8.ofNat n]
  | k + 1, n => if n < 128 then [UInt8.ofNat n] else UInt8.ofNat (128 + n % 128) :: varint k (n / 128)

def readVarint : Bytes → Option (ℕ × Bytes)
  | [] => none
  | c :: b =>
    if c.toNat < 128 then some (c.toNat, b)
    else (readVarint b).map fun (n, rest) => (c.toNat - 128 + 128 * n, rest)

theorem readVarint_varint {k n : ℕ} (h : n ≤ k) (rest : Bytes) :
    readVarint (varint k n ++ rest) = some (n, rest) := by
  have hsmall : ∀ n, n < 128 → readVarint (UInt8.ofNat n :: rest) = some (n, rest) := by
    intro n hn
    have htoNat : (UInt8.ofNat n).toNat = n := by
      rw [UInt8.toNat_ofNat']
      omega
    rw [readVarint, htoNat, if_pos hn]
  induction k generalizing n with
  | zero => exact hsmall n (by omega)
  | succ k ih =>
    rw [varint]
    split_ifs with hn
    · exact hsmall n hn
    · have htoNat : (UInt8.ofNat (128 + n % 128)).toNat = 128 + n % 128 := by
        rw [UInt8.toNat_ofNat']
        omega
      rw [List.cons_append, readVarint, htoNat, if_neg (by omega), ih (by omega)]
      simp only [Option.map_some, Option.some.injEq, Prod.mk.injEq, and_true]
      omega

def writeNat (n : ℕ) : Bytes := varint n n

def writeOption : Option Bytes → Bytes
  | none => writeNat 0
  | some s => writeNat 1 ++ writeNat s.length ++ s

def readOption (b : Bytes) : Option (Option Bytes × Bytes) := do
  let (tag, b) ← readVarint b
  if tag = 0 then some (none, b)
  else do
    let (len, b) ← readVarint b
    if b.length < len then none else some (some (b.take len), b.drop len)

theorem readOption_writeOption (o : Option Bytes) (rest : Bytes) :
    readOption (writeOption o ++ rest) = some (o, rest) := by
  cases o with
  | none =>
    rw [readOption, writeOption, writeNat, readVarint_varint le_rfl]
    rfl
  | some s =>
    rw [readOption, writeOption, writeNat, writeNat, List.append_assoc, List.append_assoc,
      readVarint_varint le_rfl]
    change (readVarint (varint s.length s.length ++ (s ++ rest))).bind _ = _
    rw [readVarint_varint le_rfl]
    change (if (s ++ rest).length < s.length then none else some (some _, _)) = _
    rw [if_neg (by simp), List.take_left, List.drop_left]

def EventType.all : List EventType :=
  [.Code, .Upload, .CodeRejected, .UploadRejected, .GenericReject, .Error, .Info]

def writeEvent (e : Event) : Bytes :=
  writeNat (EventType.all.idxOf e.eventType) ++ (writeOption e.user ++
    (writeNat (Equiv.intEquivNat e.time) ++ (writeOption e.reason ++ writeOption e.extra)))

def readEvent (b : Bytes) : Option Event := do
  let (tag, b) ← readVarint b
  let eventType ← EventType.all[tag]?
  let (user, b) ← readOption b
  let (time, b) ← readVarint b
  let (reason, b) ← readOption b
  let (extra, _) ← readOption b
  return ⟨eventType, user, Equiv.intEquivNat.symm time, reason, extra⟩

theorem readEvent_writeEvent (e : Event) : readEvent (writeEvent e) = some e := by
  have htype : EventType.all[EventType.all.idxOf e.eventType]? = some e.eventType := by
    cases e.eventType <;> rfl
  have hextra := readOption_writeOption e.extra []
  rw [List.append_nil] at hextra
  simp only [readEvent, writeEvent, writeNat, readVarint_varint le_rfl, readOption_writeOption,
    Option.bind_eq_bind, Option.bind_some, htype, hextra, Equiv.symm_apply_apply]
  rfl

/-- `postcard` as it writes and reads an event. -/
def Backend.postcard : Backend where
  toStdvec := fun e => some (writeEvent e)
  fromBytes := readEvent
  full := []

theorem Backend.postcard_undoes : Backend.postcard.Undoes :=
  fun e => ⟨writeEvent e, rfl, readEvent_writeEvent e⟩

end Postcard

/-- One event before a clear, one behind it and one behind a reload. -/
theorem eventsTable_log_info :
    (finalState (viewStep .postcard)
      ⟨⟨finalState (tableStep .postcard) ⟨Keyspace.empty, 0⟩
        [⟨.push (Event.error (ascii "old") []), none⟩, ⟨.clear, none⟩,
          ⟨.push (Event.error (ascii "a") []), none⟩, ⟨.reopen, none⟩], false⟩, []⟩
      ([.reload (fun _ => none), .dispatch none 5 (Event.error (ascii "b") [])] ++
        [.reload (fun _ => none)])).list =
      [⟨.Error, none, 5, some [], some (ascii "b")⟩, Event.error (ascii "a") []] :=
  (@eventsTable_log .postcard Backend.postcard_undoes none ⟨Keyspace.empty, 0⟩ rfl _
    (by decide +kernel)).2.2 _ _ (by simp [ViewOp.Reads]) (by decide +kernel)

end Dumbos.RustServer
