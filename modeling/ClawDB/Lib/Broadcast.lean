/-
# `Lib.Broadcast` — a bounded broadcast channel, seen by one of its receivers

The channel keeps the last `cap` messages.  A receiver has a cursor into the
sequence of everything that was sent.  When the message at its cursor is no longer
kept, the receiver is told once that it lagged, and its cursor moves to the oldest
message that is.  `closed` is reported only after everything kept was received.

The whole sequence `sent` is part of the state: what a receiver was given, and what
it missed, are statements about it.
-/
import Mathlib.Tactic.Common

namespace Broadcast

/-- What a receiver is told. -/
inductive Recv (E : Type) where
  | ok (e : E)
  | lagged (skipped : Nat)
  | closed
deriving DecidableEq

structure Channel (E : Type) where
  sent : List E
  cursor : Nat
  closed : Bool
  cursor_le : cursor ≤ sent.length

namespace Channel

variable {E : Type}

def new : Channel E := ⟨[], 0, false, Nat.le_refl 0⟩

def send (c : Channel E) (e : E) : Channel E where
  sent := c.sent ++ [e]
  cursor := c.cursor
  closed := c.closed
  cursor_le := by
    rw [List.length_append]
    exact Nat.le_add_right_of_le c.cursor_le

def close (c : Channel E) : Channel E := { c with closed := true }

/-- Where the oldest message still kept stands. -/
def oldest (cap : Nat) (c : Channel E) : Nat := c.sent.length - cap

/-- The message at the cursor is no longer kept. -/
def Overrun (cap : Nat) (c : Channel E) : Prop := c.cursor < c.oldest cap

instance (cap : Nat) (c : Channel E) : Decidable (c.Overrun cap) :=
  inferInstanceAs (Decidable (_ < _))

/-- Receive: `none` while there is nothing to receive and the channel is open. -/
def recv (cap : Nat) (c : Channel E) : Option (Recv E) × Channel E :=
  if c.Overrun cap then
    (some (.lagged (c.oldest cap - c.cursor)), ⟨c.sent, c.oldest cap, c.closed, Nat.sub_le ..⟩)
  else if h : c.cursor < c.sent.length then
    (some (.ok c.sent[c.cursor]), ⟨c.sent, c.cursor + 1, c.closed, h⟩)
  else
    (if c.closed then some .closed else none, c)

variable {cap : Nat} {c : Channel E}

theorem overrun_iff : c.Overrun cap ↔ c.cursor + cap < c.sent.length := Nat.lt_sub_iff_add_lt

theorem recv_overrun (h : c.Overrun cap) : c.recv cap =
    (some (.lagged (c.oldest cap - c.cursor)), ⟨c.sent, c.oldest cap, c.closed, Nat.sub_le ..⟩) :=
  if_pos h

theorem recv_ok (ho : ¬ c.Overrun cap) (h : c.cursor < c.sent.length) : c.recv cap =
    (some (.ok c.sent[c.cursor]), ⟨c.sent, c.cursor + 1, c.closed, h⟩) := by
  unfold recv
  rw [if_neg ho, dif_pos h]

theorem recv_drained (h : c.cursor = c.sent.length) : c.recv cap =
    (if c.closed then some .closed else none, c) := by
  unfold recv
  have ho : ¬ c.Overrun cap := by
    rw [overrun_iff]
    omega
  rw [if_neg ho, dif_neg (h ▸ Nat.lt_irrefl _)]

/-- A receiver that is told it lagged has something left to receive. -/
theorem oldest_lt (hcap : 0 < cap) (h : c.Overrun cap) : c.oldest cap < c.sent.length := by
  have hlt : c.cursor + cap < c.sent.length := overrun_iff.mp h
  show c.sent.length - cap < c.sent.length
  omega

theorem recv_cases (cap : Nat) (c : Channel E) : c.Overrun cap ∨
    (¬ c.Overrun cap ∧ c.cursor < c.sent.length) ∨ c.cursor = c.sent.length := by
  have := c.cursor_le
  by_cases ho : c.Overrun cap
  · exact .inl ho
  · rcases Nat.lt_or_eq_of_le this with h | h
    · exact .inr (.inl ⟨ho, h⟩)
    · exact .inr (.inr h)

end Channel

end Broadcast
