import Dumbos.Foundation.Channel

/-! # Conversations

Two programs are connected by two streams, and the system lets them make calls in
any order. What they say to each other grows towards a fixed pair of texts. In a
run that is fair to both they come to its end, and stop there.
-/
namespace Dumbos.Foundation
variable {ε α β : Type}

namespace Io

/-- The program is done, or stands at a call that has something to move. -/
def Settled : Io ε α → Prop
  | .done _ => True
  | .writeAll buf _ => buf ≠ []
  | .readAll _ len _ => len ≠ 0

theorem settle_settled (io : Io ε α) : io.settle.Settled := by
  induction io with
  | done a => trivial
  | writeAll buf k ih =>
    rw [settle]
    split_ifs with hbuf
    · exact ih _
    · exact hbuf
  | readAll got len k ih =>
    rw [settle]
    split_ifs with hlen
    · exact ih _
    · exact hlen

/-- The next call need not wait. -/
def CanMove (input : Bytes) : Io ε α → Prop
  | .done _ => False
  | .writeAll _ _ => True
  | .readAll _ _ _ => input ≠ []

theorem drive_of_not_canMove {io : Io ε α} {input : Bytes} (hio : io.Settled)
    (h : ¬io.CanMove input) : io.drive input = ([], io) := by
  cases io with
  | done a => rfl
  | writeAll buf k => exact absurd trivial h
  | readAll got len k =>
    obtain rfl : input = [] := not_not.mp h
    have hlen : ¬len ≤ ([] : Bytes).length := fun h => hio (Nat.le_zero.mp h)
    rw [drive, if_neg hlen, List.append_nil]
    rfl

variable (closed : ε)

theorem step_settled {io : Io ε α} (hio : io.Settled) (reply : Reply ε) (input : Bytes) :
    (io.step closed reply input).1.Settled := by
  cases io with
  | done a => exact trivial
  | writeAll buf k =>
    cases reply with
    | interrupted => exact hio
    | failed err => exact settle_settled _
    | moved count =>
      rw [step]
      split_ifs
      · exact settle_settled _
      · exact settle_settled _
  | readAll got len k =>
    cases reply with
    | interrupted => exact hio
    | failed err => exact settle_settled _
    | moved count =>
      rw [step]
      split_ifs
      · exact settle_settled _
      · exact hio
      · exact settle_settled _

/-- A call that moves bytes moves one at least. -/
theorem step_moved {io : Io ε α} (hio : io.Settled) {input : Bytes} (h : io.CanMove input) {count : ℕ}
    (hcount : 0 < count) :
    (io.step closed (.moved count) input).2.1 ≠ [] ∨
      (io.step closed (.moved count) input).2.2.length < input.length := by
  have hne : count ≠ 0 := Nat.pos_iff_ne_zero.mp hcount
  cases io with
  | done a => exact absurd h id
  | writeAll buf k =>
    left
    have hbuf : 0 < buf.length := List.length_pos_iff.mpr hio
    rw [step, if_neg hne]
    apply List.ne_nil_of_length_pos
    rw [List.length_take]
    omega
  | readAll got len k =>
    right
    have hinput : 0 < input.length := List.length_pos_iff.mpr h
    have hlen : 0 < len := Nat.pos_of_ne_zero hio
    rw [step, if_neg hne, if_neg h, List.length_drop]
    omega

/-- Every other clean call leaves everything as it is. -/
theorem step_waits {io : Io ε α} {reply : Reply ε} (hreply : reply.Clean) {input : Bytes}
    (h : reply = .interrupted ∨ ¬io.CanMove input) : io.step closed reply input = (io, [], input) := by
  cases reply with
  | interrupted => cases io <;> rfl
  | failed err => exact absurd hreply id
  | moved count =>
    have hcan : ¬io.CanMove input := by simpa using h
    cases io with
    | done a => rfl
    | writeAll buf k => exact absurd trivial hcan
    | readAll got len k =>
      rw [step, if_neg (Nat.pos_iff_ne_zero.mp hreply), if_pos (not_not.mp hcan)]

end Io

inductive Side where
  | left
  | right
deriving DecidableEq

/-- One program makes a call, and the system replies. -/
structure Turn (ε : Type) where
  side : Side
  reply : Reply ε

/-- Two programs and the bytes on the way between them. -/
structure Pair (ε α β : Type) where
  left : Io ε α
  right : Io ε β
  toRight : Bytes
  toLeft : Bytes

namespace Pair

def swap (s : Pair ε α β) : Pair ε β α := ⟨s.right, s.left, s.toLeft, s.toRight⟩

/-- Before the first call. -/
def start (l : Io ε α) (r : Io ε β) : Pair ε α β := ⟨l.settle, r.settle, [], []⟩

variable (closed : ε)

def turnLeft (s : Pair ε α β) (reply : Reply ε) : Pair ε α β :=
  let r := s.left.step closed reply s.toLeft
  ⟨r.1, s.right, s.toRight ++ r.2.1, r.2.2⟩

def turn (s : Pair ε α β) (t : Turn ε) : Pair ε α β :=
  match t.side with
  | .left => s.turnLeft closed t.reply
  | .right => (s.swap.turnLeft closed t.reply).swap

/-- The states of a run. -/
def run (s : Pair ε α β) (turns : ℕ → Turn ε) : ℕ → Pair ε α β
  | 0 => s
  | n + 1 => (run s turns n).turn closed (turns n)

/-- The program of a side has a call to make that need not wait. -/
def CanMove (s : Pair ε α β) : Side → Prop
  | .left => s.left.CanMove s.toLeft
  | .right => s.right.CanMove s.toRight

end Pair

/-- What the two ends have said and heard so far. -/
structure Talk where
  heardLeft : Bytes
  saidLeft : Bytes
  heardRight : Bytes
  saidRight : Bytes

namespace Talk

def swap (t : Talk) : Talk := ⟨t.heardRight, t.saidRight, t.heardLeft, t.saidLeft⟩

/-- The bytes that are still to be moved, each of them twice. -/
def remaining (L R : Bytes) (t : Talk) : ℕ :=
  (L.length - t.saidLeft.length) + (L.length - t.heardRight.length) +
    ((R.length - t.saidRight.length) + (R.length - t.heardLeft.length))

theorem remaining_swap (L R : Bytes) (t : Talk) : t.swap.remaining R L = t.remaining L R :=
  Nat.add_comm _ _

end Talk

/-- The complete texts: each end says its own if it hears the other one. -/
structure Conversation (l : Io ε α) (r : Io ε β) (L R : Bytes) : Prop where
  left : (l.drive R).1 = L
  right : (r.drive L).1 = R

theorem Conversation.swap {l : Io ε α} {r : Io ε β} {L R : Bytes} (h : Conversation l r L R) :
    Conversation r l R L := ⟨h.right, h.left⟩

/-- The state is the one that the two programs are in after some talk, which is part of the
conversation. -/
structure Follows (l : Io ε α) (r : Io ε β) (L R : Bytes) (t : Talk) (s : Pair ε α β) : Prop where
  left : ∀ rest, l.drive (t.heardLeft ++ rest) =
    (t.saidLeft ++ (s.left.drive rest).1, (s.left.drive rest).2)
  right : ∀ rest, r.drive (t.heardRight ++ rest) =
    (t.saidRight ++ (s.right.drive rest).1, (s.right.drive rest).2)
  toRight : t.saidLeft = t.heardRight ++ s.toRight
  toLeft : t.saidRight = t.heardLeft ++ s.toLeft
  settledLeft : s.left.Settled
  settledRight : s.right.Settled
  partLeft : t.saidLeft <+: L
  partRight : t.saidRight <+: R

variable {l : Io ε α} {r : Io ε β} {L R : Bytes} {t : Talk} {s : Pair ε α β} (closed : ε)

theorem Follows.swap (h : Follows l r L R t s) : Follows r l R L t.swap s.swap :=
  ⟨h.right, h.left, h.toLeft, h.toRight, h.settledRight, h.settledLeft, h.partRight, h.partLeft⟩

theorem follows_start (l : Io ε α) (r : Io ε β) (L R : Bytes) :
    Follows l r L R ⟨[], [], [], []⟩ (Pair.start l r) where
  left rest := by simp [Pair.start]
  right rest := by simp [Pair.start]
  toRight := rfl
  toLeft := rfl
  settledLeft := Io.settle_settled l
  settledRight := Io.settle_settled r
  partLeft := List.nil_prefix
  partRight := List.nil_prefix

/-- Step: a turn of the left end goes on with the talk or waits. -/
theorem Follows.turnLeft (hconv : Conversation l r L R) (h : Follows l r L R t s) {reply : Reply ε}
    (hreply : reply.Clean) :
    ∃ t', Follows l r L R t' (s.turnLeft closed reply) ∧
      (s.turnLeft closed reply = s ∧ (reply = .interrupted ∨ ¬s.left.CanMove s.toLeft) ∨
        t'.remaining L R < t.remaining L R) := by
  obtain ⟨bytes, hinput, hdrive⟩ := s.left.step_drive closed hreply s.toLeft
  by_cases hwait : reply = .interrupted ∨ ¬s.left.CanMove s.toLeft
  · refine ⟨t, ?_, Or.inl ⟨?_, hwait⟩⟩ <;>
      simp only [Pair.turnLeft, Io.step_waits closed hreply hwait, List.append_nil]
    exact h
  · have hmoved : (s.left.step closed reply s.toLeft).2.1 ≠ [] ∨
        (s.left.step closed reply s.toLeft).2.2.length < s.toLeft.length := by
      obtain ⟨hint, hcan⟩ := not_or.mp hwait
      cases reply with
      | interrupted => exact absurd rfl hint
      | failed err => exact absurd hreply id
      | moved count => exact Io.step_moved closed h.settledLeft (not_not.mp hcan) hreply
    have hsettled := Io.step_settled closed h.settledLeft reply s.toLeft
    rw [Pair.turnLeft]
    generalize s.left.step closed reply s.toLeft = step at hinput hdrive hmoved hsettled
    obtain ⟨io, written, input⟩ := step
    simp only at hinput hdrive hmoved hsettled ⊢
    have hleft : ∀ rest, l.drive (t.heardLeft ++ bytes ++ rest) =
        (t.saidLeft ++ written ++ (io.drive rest).1, (io.drive rest).2) := by
      intro rest
      rw [List.append_assoc, h.left, hdrive, List.append_assoc]
    have hright : t.saidRight = t.heardLeft ++ bytes ++ input := by
      rw [h.toLeft, hinput, List.append_assoc]
    have hheard : t.heardLeft ++ bytes <+: R := by
      apply List.IsPrefix.trans _ h.partRight
      rw [hright]
      exact List.prefix_append _ _
    have hsaid : t.saidLeft ++ written <+: L := by
      rw [← hconv.left]
      apply List.IsPrefix.trans _ (l.drive_prefix hheard)
      rw [← List.append_nil (t.heardLeft ++ bytes), hleft]
      exact List.prefix_append _ _
    refine ⟨⟨t.heardLeft ++ bytes, t.saidLeft ++ written, t.heardRight, t.saidRight⟩, ?_, Or.inr ?_⟩
    · constructor
      · exact hleft
      · exact h.right
      · simp only [h.toRight, List.append_assoc]
      · exact hright
      · exact hsettled
      · exact h.settledRight
      · exact hsaid
      · exact h.partRight
    · have hheardLength := hheard.length_le
      have hsaidLength := hsaid.length_le
      rw [← List.length_pos_iff] at hmoved
      rw [hinput] at hmoved
      simp only [Talk.remaining, List.length_append] at *
      omega

/-- Step: a turn of either end goes on with the talk or waits. -/
theorem Follows.turn (hconv : Conversation l r L R) (h : Follows l r L R t s) {u : Turn ε}
    (hreply : u.reply.Clean) :
    ∃ t', Follows l r L R t' (s.turn closed u) ∧
      (s.turn closed u = s ∧ (u.reply = .interrupted ∨ ¬s.CanMove u.side) ∨
        t'.remaining L R < t.remaining L R) := by
  obtain ⟨side, reply⟩ := u
  cases side with
  | left => exact h.turnLeft closed hconv hreply
  | right =>
    obtain ⟨t', hfollows, hmove⟩ := h.swap.turnLeft closed hconv.swap hreply
    refine ⟨t'.swap, hfollows.swap, ?_⟩
    rw [Talk.remaining_swap]
    rcases hmove with ⟨hsame, hwait⟩ | hless
    · left
      exact ⟨congrArg Pair.swap hsame, hwait⟩
    · right
      rwa [Talk.remaining_swap L R t] at hless

/-- Run: every state follows the conversation. -/
theorem follows_run (hconv : Conversation l r L R) {turns : ℕ → Turn ε}
    (hclean : ∀ n, (turns n).reply.Clean) (h : Follows l r L R t s) (n : ℕ) :
    ∃ t', Follows l r L R t' (Pair.run closed s turns n) := by
  induction n with
  | zero => exact ⟨t, h⟩
  | succ n ih =>
    obtain ⟨t', ht'⟩ := ih
    obtain ⟨t'', ht'', -⟩ := ht'.turn closed hconv (hclean n)
    exact ⟨t'', ht''⟩

/-- An end that is done has the result of the conversation. -/
theorem Follows.left_done (h : Follows l r L R t s) {a : α} (ha : s.left = .done a) :
    (l.drive R).2 = .done a := by
  have hheard : t.heardLeft <+: R := by
    apply List.IsPrefix.trans _ h.partRight
    rw [h.toLeft]
    exact List.prefix_append _ _
  apply Io.drive_done _ hheard
  rw [← List.append_nil t.heardLeft, h.left, ha]
  rfl

theorem Follows.right_done (h : Follows l r L R t s) {b : β} (hb : s.right = .done b) :
    (r.drive L).2 = .done b :=
  h.swap.left_done hb

section Ends

/-- What is said if each end waits for all that the other one has said. -/
def exchange (l : Io ε α) (r : Io ε β) : ℕ → Bytes × Bytes
  | 0 => ([], [])
  | n + 1 => ((l.drive (exchange l r n).2).1, (r.drive (exchange l r n).1).1)

/-- When nothing can move, both ends have heard all. -/
theorem Follows.left_of_not_canMove (h : Follows l r L R t s) (hstuck : ¬s.CanMove .left) :
    l.drive t.saidRight = (t.saidLeft, s.left) := by
  rw [h.toLeft, h.left, Io.drive_of_not_canMove h.settledLeft hstuck, List.append_nil]

theorem Follows.exchange_prefix (h : Follows l r L R t s) (hstuck : ∀ side, ¬s.CanMove side) (n : ℕ) :
    (exchange l r n).1 <+: t.saidLeft ∧ (exchange l r n).2 <+: t.saidRight := by
  have hleft := h.left_of_not_canMove (hstuck .left)
  have hright : r.drive t.saidLeft = (t.saidRight, s.right) :=
    h.swap.left_of_not_canMove (hstuck .right)
  induction n with
  | zero => exact ⟨List.nil_prefix, List.nil_prefix⟩
  | succ n ih =>
    constructor
    · have hprefix := l.drive_prefix ih.2
      rwa [hleft] at hprefix
    · have hprefix := r.drive_prefix ih.1
      rwa [hright] at hprefix

/-- A conversation that has been exchanged comes to its end before nothing can move. -/
theorem Follows.ends (h : Follows l r L R t s) (hstuck : ∀ side, ¬s.CanMove side) {n : ℕ}
    (hn : exchange l r n = (L, R)) : s.left = (l.drive R).2 ∧ s.right = (r.drive L).2 := by
  obtain ⟨hleft, hright⟩ := h.exchange_prefix hstuck n
  rw [hn] at hleft hright
  have hsaidLeft : t.saidLeft = L := h.partLeft.eq_of_length_le hleft.length_le
  have hsaidRight : t.saidRight = R := h.partRight.eq_of_length_le hright.length_le
  constructor
  · rw [← hsaidRight, h.left_of_not_canMove (hstuck .left)]
  · have hswap : r.drive t.saidLeft = (t.saidRight, s.right) :=
      h.swap.left_of_not_canMove (hstuck .right)
    rw [← hsaidLeft, hswap]

/-- Both ends get calls that are not interrupted, again and again. -/
def Fair (turns : ℕ → Turn ε) : Prop :=
  ∀ n side, ∃ m, n ≤ m ∧ (turns m).side = side ∧ (turns m).reply ≠ .interrupted

/-- An end that can move does so later, unless the other one moves before. -/
theorem exists_move (hconv : Conversation l r L R) {turns : ℕ → Turn ε}
    (hclean : ∀ n, (turns n).reply.Clean) {side : Side} (wait n : ℕ)
    (h : Follows l r L R t (Pair.run closed s turns n))
    (hcan : (Pair.run closed s turns n).CanMove side) (hside : (turns (n + wait)).side = side)
    (hreply : (turns (n + wait)).reply ≠ .interrupted) :
    ∃ m t', Follows l r L R t' (Pair.run closed s turns m) ∧ t'.remaining L R < t.remaining L R := by
  induction wait generalizing n with
  | zero =>
    obtain ⟨t', ht', hmove⟩ := h.turn closed hconv (hclean n)
    rcases hmove with ⟨-, hint | hstuck⟩ | hless
    · exact absurd hint hreply
    · exact absurd (hside ▸ hcan) hstuck
    · exact ⟨n + 1, t', ht', hless⟩
  | succ wait ih =>
    obtain ⟨t', ht', hmove⟩ := h.turn closed hconv (hclean n)
    rcases hmove with ⟨hsame, -⟩ | hless
    · have hnext : Pair.run closed s turns (n + 1) = Pair.run closed s turns n := hsame
      have hwait : n + 1 + wait = n + (wait + 1) := by omega
      apply ih (n + 1)
      · rwa [hnext]
      · rwa [hnext]
      · rwa [hwait]
      · rwa [hwait]
    · exact ⟨n + 1, t', ht', hless⟩

/-- In a fair run the conversation comes to its end. -/
theorem conversation_ends (hconv : Conversation l r L R) {n : ℕ} (hn : exchange l r n = (L, R))
    {turns : ℕ → Turn ε} (hclean : ∀ n, (turns n).reply.Clean) (hfair : Fair turns) :
    ∃ m, (Pair.run closed (Pair.start l r) turns m).left = (l.drive R).2 ∧
      (Pair.run closed (Pair.start l r) turns m).right = (r.drive L).2 := by
  have hend : ∀ left : ℕ, ∀ m t, Follows l r L R t (Pair.run closed (Pair.start l r) turns m) →
      t.remaining L R = left → ∃ m, (Pair.run closed (Pair.start l r) turns m).left = (l.drive R).2 ∧
        (Pair.run closed (Pair.start l r) turns m).right = (r.drive L).2 := by
    intro left
    induction left using Nat.strong_induction_on with
    | _ left ih =>
      intro m t h hleft
      by_cases hstuck : ∀ side, ¬(Pair.run closed (Pair.start l r) turns m).CanMove side
      · exact ⟨m, h.ends hstuck hn⟩
      · obtain ⟨side, hcan⟩ := not_forall_not.mp hstuck
        obtain ⟨later, hle, hside, hreply⟩ := hfair m side
        obtain ⟨wait, rfl⟩ := Nat.exists_eq_add_of_le hle
        obtain ⟨m', t', h', hless⟩ := exists_move closed hconv hclean wait m h hcan hside hreply
        exact ih _ (hleft ▸ hless) m' t' h' rfl
  exact hend _ 0 _ (follows_start l r L R) rfl

end Ends

end Dumbos.Foundation
