/-
# `Lib.Window` — a rolling window over a list that only grows

A window with room for `cap` entries takes a new one at its end.  When it is full it
gives up its oldest entry first.  What it then holds is the tail of everything it was
ever given: the last `cap` entries, in the order they came in.

The entry that comes in is always kept, so that a window with no room at all still
holds one entry: its `room` is never `0`.
-/
import Mathlib.Data.List.DropRight

namespace Window

variable {α : Type}

/-- Add an entry to a window for `cap` of them. -/
def push (cap : Nat) (l : List α) (a : α) : List α :=
  (if cap ≤ l.length then l.drop 1 else l) ++ [a]

/-- How many entries a window for `cap` of them holds at most. -/
def room (cap : Nat) : Nat := max 1 cap

variable {cap : Nat}

theorem room_pos : 0 < room cap := Nat.le_max_left 1 cap

theorem le_room : cap ≤ room cap := Nat.le_max_right 1 cap

theorem room_eq (h : 1 ≤ cap) : room cap = cap := Nat.max_eq_right h

theorem length_rtake (l : List α) (n : Nat) : (l.rtake n).length = min l.length n := by
  have h : (l.drop (l.length - n)).length = l.length - (l.length - n) := List.length_drop
  show (l.drop (l.length - n)).length = min l.length n
  omega

theorem rtake_eq_self {l : List α} {n : Nat} (h : l.length ≤ n) : l.rtake n = l := by
  show l.drop (l.length - n) = l
  rw [Nat.sub_eq_zero_of_le h]
  exact List.drop_zero

theorem rtake_suffix (l : List α) (n : Nat) : l.rtake n <:+ l := List.drop_suffix ..

/-- Giving up the oldest of `n + 1` entries leaves `n`. -/
theorem drop_one_rtake {l : List α} {n : Nat} (h : n < l.length) :
    (l.rtake (n + 1)).drop 1 = l.rtake n := by
  show (l.drop (l.length - (n + 1))).drop 1 = l.drop (l.length - n)
  rw [List.drop_drop]
  congr 1
  omega

/-- One entry more, in a window that holds the last of `l`. -/
theorem push_rtake (l : List α) (a : α) :
    push cap (l.rtake (room cap)) a = (l ++ [a]).rtake (room cap) := by
  obtain ⟨n, hn⟩ : ∃ n, room cap = n + 1 := ⟨room cap - 1, (Nat.succ_pred_eq_of_pos room_pos).symm⟩
  have hcap : cap ≤ n + 1 := hn ▸ le_room
  rw [hn, List.rtake_concat_succ]
  unfold push
  congr 1
  by_cases hl : n < l.length
  · -- everything the window has room for is there: the oldest goes
    have hlen : (l.rtake (n + 1)).length = n + 1 := by
      rw [length_rtake]
      omega
    rw [if_pos (by omega), drop_one_rtake hl]
  · have hle : l.length ≤ n := Nat.le_of_not_lt hl
    rw [rtake_eq_self (Nat.le_succ_of_le hle), rtake_eq_self hle]
    split
    next hfull =>
        -- full, and yet with fewer entries than it has room for: there is no room, and no entry
        have hroom : max 1 cap = n + 1 := hn
        have hnil : l.length = 0 := by omega
        rw [List.length_eq_zero_iff.mp hnil]
        rfl
    next => rfl

/-- A window that held the last of `l` holds the last of `l ++ l'` once `l'` has come in. -/
theorem foldl_push (l l' : List α) :
    l'.foldl (push cap) (l.rtake (room cap)) = (l ++ l').rtake (room cap) := by
  induction l' generalizing l with
  | nil => rw [List.append_nil]; rfl
  | cons a l' ih =>
      have hassoc : l ++ a :: l' = (l ++ [a]) ++ l' := by simp
      rw [List.foldl_cons, push_rtake, ih, hassoc]

/-- An empty window that `l` comes into holds the last of `l`. -/
theorem foldl_push_nil (l : List α) : l.foldl (push cap) [] = l.rtake (room cap) := by
  have h : l.foldl (push cap) (([] : List α).rtake (room cap)) = ([] ++ l).rtake (room cap) :=
    foldl_push [] l
  rwa [List.rtake_nil, List.nil_append] at h

/-- A window never outgrows its room. -/
theorem length_push {l : List α} (h : l.length ≤ room cap) (a : α) :
    (push cap l a).length ≤ room cap := by
  have hself : l.rtake (room cap) = l := rtake_eq_self h
  rw [← hself, push_rtake, length_rtake]
  exact Nat.min_le_right ..

end Window
