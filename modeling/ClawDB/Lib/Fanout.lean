/-
# `Lib.Fanout` — a bounded broadcast channel with all its receivers

`Lib.Broadcast` is the channel as one receiver sees it; a `Hub` is the channel that all of
them see.  Each receiver has a cursor of its own into what was sent, and receives as the
one of `Lib.Broadcast` does (`recv_some`).  A message that nobody could receive is not kept.

A receiver keeps its name when it is gone: `drawn` are all the names there ever were.

`Reads` accounts for what one receiver is told over time: from its cursor on, every message was
given to it, or was among those it was told it missed, in the order in which they were sent.
-/
import ClawDB.Lib.Broadcast
import Mathlib.Data.List.AList

namespace Broadcast

namespace Channel

variable {E : Type} {cap : Nat} {c : Channel E}

theorem recv_sent : (c.recv cap).2.sent = c.sent := by
  rcases recv_cases cap c with h | ⟨ho, h⟩ | h
  · rw [recv_overrun h]
  · rw [recv_ok ho h]
  · rw [recv_drained h]

/-- A receiver that has seen all but the last message sent receives that one. -/
theorem recv_last {sent : List E} {e : E} (hsent : c.sent = sent ++ [e])
    (hcursor : c.cursor = sent.length) (hcap : 0 < cap) : (c.recv cap).1 = some (.ok e) := by
  have hlen : c.sent.length = sent.length + 1 := by rw [hsent, List.length_append]; rfl
  have ho : ¬c.Overrun cap := by
    rw [overrun_iff]
    omega
  have hlt : c.cursor < c.sent.length := by omega
  rw [recv_ok ho hlt]
  have hlast : c.sent[c.cursor]? = some e := by
    rw [hsent, hcursor, List.getElem?_concat_length]
  rw [List.getElem?_eq_getElem hlt] at hlast
  exact congrArg (fun x => some (Recv.ok x)) (Option.some.inj hlast)

end Channel

structure Hub (E : Type) where
  sent : List E
  cursors : AList fun _ : Nat => Nat
  drawn : List Nat
  cursor_le : ∀ rx n, cursors.lookup rx = some n → n ≤ sent.length
  drawn_of : ∀ rx ∈ cursors, rx ∈ drawn

namespace Hub

variable {E : Type}

def new : Hub E where
  sent := []
  cursors := ∅
  drawn := []
  cursor_le rx n h := by rw [AList.lookup_empty] at h; cases h
  drawn_of rx h := absurd h (AList.notMem_empty rx)

/-- The receivers there are. -/
def receivers (h : Hub E) : List Nat := h.cursors.keys

def receiverCount (h : Hub E) : Nat := h.receivers.length

/-- Sets the cursor of `rx`, a receiver that has a name. -/
def setCursor (h : Hub E) (rx n : Nat) (hn : n ≤ h.sent.length) (hrx : rx ∈ h.drawn) :
    Hub E where
  sent := h.sent
  cursors := h.cursors.insert rx n
  drawn := h.drawn
  cursor_le rx' n' h' := by
    by_cases he : rx' = rx
    · subst he
      rw [AList.lookup_insert] at h'
      exact Option.some.inj h' ▸ hn
    · rw [AList.lookup_insert_ne he] at h'
      exact h.cursor_le rx' n' h'
  drawn_of rx' h' := by
    rcases (AList.mem_insert h.cursors).mp h' with rfl | h'
    · exact hrx
    · exact h.drawn_of rx' h'

/-- A new name. -/
def draw (h : Hub E) (rx : Nat) : Hub E :=
  { h with drawn := rx :: h.drawn, drawn_of := fun rx' h' => .tail _ (h.drawn_of rx' h') }

/-- A receiver of all that is sent from now on. -/
def subscribe (h : Hub E) (rx : Nat) : Hub E :=
  (h.draw rx).setCursor rx h.sent.length (Nat.le_refl _) List.mem_cons_self

/-- The receiver `rx` is dropped. -/
def unsubscribe (h : Hub E) (rx : Nat) : Hub E where
  sent := h.sent
  cursors := h.cursors.erase rx
  drawn := h.drawn
  cursor_le rx' n h' := by
    by_cases he : rx' = rx
    · subst he
      rw [AList.lookup_erase] at h'
      cases h'
    · rw [AList.lookup_erase_ne he] at h'
      exact h.cursor_le rx' n h'
  drawn_of rx' h' := h.drawn_of rx' (AList.mem_erase.mp h').2

/-- The message stands where every receiver comes to it. -/
def push (h : Hub E) (e : E) : Hub E :=
  { h with
    sent := h.sent ++ [e]
    cursor_le := fun rx n h' => by
      rw [List.length_append]
      exact Nat.le_add_right_of_le (h.cursor_le rx n h') }

/-- Send: an error when there is no receiver, and the number of receivers otherwise. -/
def send (h : Hub E) (e : E) : Except Unit Nat × Hub E :=
  if h.receiverCount = 0 then (.error (), h) else (.ok h.receiverCount, h.push e)

/-- The channel as the receiver whose cursor is `n` sees it. -/
def view (h : Hub E) {rx n : Nat} (hrx : h.cursors.lookup rx = some n) : Channel E :=
  ⟨h.sent, n, false, h.cursor_le rx n hrx⟩

/-- Receive: `none` while there is nothing to receive. -/
def recv (cap : Nat) (h : Hub E) (rx : Nat) : Option (Recv E) × Hub E :=
  match hrx : h.cursors.lookup rx with
  | none => (none, h)
  | some _ =>
      (((h.view hrx).recv cap).1,
        h.setCursor rx ((h.view hrx).recv cap).2.cursor
          (Nat.le_trans ((h.view hrx).recv cap).2.cursor_le
            (Nat.le_of_eq (congrArg List.length Channel.recv_sent)))
          (h.drawn_of rx (AList.lookup_isSome.mp (hrx ▸ rfl))))

variable {h : Hub E} {rx : Nat} {cap : Nat}

theorem recv_some {n : Nat} (hrx : h.cursors.lookup rx = some n) :
    (h.recv cap rx).1 = ((h.view hrx).recv cap).1 := by
  unfold recv
  split
  next hnone => rw [hrx] at hnone; cases hnone
  next m hm =>
      obtain rfl : n = m := Option.some.inj (hrx.symm.trans hm)
      rfl

theorem receiverCount_pos (hrx : rx ∈ h.cursors) : h.receiverCount ≠ 0 := by
  intro hzero
  rw [receiverCount, List.length_eq_zero_iff] at hzero
  have hmem : rx ∈ h.receivers := AList.mem_keys.mp hrx
  rw [hzero] at hmem
  cases hmem

/-- Whoever subscribes and then sends is given that message first. -/
theorem recv_subscribe_push (e : E) (hcap : 0 < cap) :
    (((h.subscribe rx).push e).recv cap rx).1 = some (.ok e) := by
  have hrx : ((h.subscribe rx).push e).cursors.lookup rx = some h.sent.length :=
    AList.lookup_insert _
  rw [recv_some hrx]
  exact Channel.recv_last rfl rfl hcap

/-- The receiver's cursor is where the channel it sees has it. -/
theorem recv_lookup {n : Nat} (hrx : h.cursors.lookup rx = some n) :
    (h.recv cap rx).2.cursors.lookup rx = some ((h.view hrx).recv cap).2.cursor := by
  unfold recv
  split
  next hnone => rw [hrx] at hnone; cases hnone
  next m hm =>
      obtain rfl : n = m := Option.some.inj (hrx.symm.trans hm)
      exact AList.lookup_insert _

@[simp] theorem recv_sent : (h.recv cap rx).2.sent = h.sent := by
  unfold recv
  split <;> rfl

/-- What one receiver does leaves the cursors of the others. -/
theorem recv_lookup_ne {rx' : Nat} (hne : rx ≠ rx') :
    (h.recv cap rx').2.cursors.lookup rx = h.cursors.lookup rx := by
  unfold recv
  split
  next => rfl
  next => exact AList.lookup_insert_ne hne

theorem subscribe_lookup_ne {rx' : Nat} (hne : rx ≠ rx') :
    (h.subscribe rx').cursors.lookup rx = h.cursors.lookup rx :=
  AList.lookup_insert_ne hne

theorem subscribe_lookup : (h.subscribe rx).cursors.lookup rx = some h.sent.length :=
  AList.lookup_insert _

theorem unsubscribe_lookup_ne {rx' : Nat} (hne : rx ≠ rx') :
    (h.unsubscribe rx').cursors.lookup rx = h.cursors.lookup rx :=
  AList.lookup_erase_ne hne

/-- Where somebody can receive it, a message is kept. -/
theorem send_push (hrx : rx ∈ h.cursors) (e : E) : (h.send e).2 = h.push e := by
  unfold send
  rw [if_neg (receiverCount_pos hrx)]

end Hub

/-! ## What a receiver is told over time -/

variable {E : Type}

/-- What a receiver was given, of what it was told. -/
def received : List (Recv E) → List E
  | [] => []
  | .ok e :: rest => e :: received rest
  | _ :: rest => received rest

/-- How many messages it was told it missed. -/
def missed : List (Recv E) → Nat
  | [] => 0
  | .lagged k :: rest => k + missed rest
  | _ :: rest => missed rest

@[simp] theorem received_append (told told' : List (Recv E)) :
    received (told ++ told') = received told ++ received told' := by
  induction told with
  | nil => rfl
  | cons r told ih =>
      cases r with
      | ok e => exact congrArg (e :: ·) ih
      | lagged k => exact ih
      | closed => exact ih

/-- A receiver of what is `sent` goes from the cursor `n` to `n'` and is told this on the way:
one message after the other, or that some are gone; `cap` others have been sent after those. -/
inductive Reads (cap : Nat) (sent : List E) : Nat → List (Recv E) → Nat → Prop where
  | nil (n : Nat) : Reads cap sent n [] n
  | ok {n n' : Nat} {e : E} {told : List (Recv E)} :
      sent[n]? = some e → Reads cap sent (n + 1) told n' → Reads cap sent n (.ok e :: told) n'
  | lagged {n k n' : Nat} {told : List (Recv E)} :
      0 < k → n + k + cap ≤ sent.length → Reads cap sent (n + k) told n' →
      Reads cap sent n (.lagged k :: told) n'

namespace Reads

variable {cap n n₁ n' : Nat} {sent : List E} {told told' : List (Recv E)}

theorem append (h : Reads cap sent n told n₁) (h' : Reads cap sent n₁ told' n') :
    Reads cap sent n (told ++ told') n' := by
  induction h with
  | nil n => exact h'
  | ok he _ ih => exact .ok he (ih h')
  | lagged hk hcap _ ih => exact .lagged hk hcap (ih h')

/-- What is sent later changes nothing. -/
theorem later (h : Reads cap sent n told n') (more : List E) :
    Reads cap (sent ++ more) n told n' := by
  induction h with
  | nil n => exact .nil n
  | @ok n n' e told he _ ih =>
      have hn : n < sent.length := (List.getElem?_eq_some_iff.mp he).1
      exact .ok (by rw [List.getElem?_append_left hn]; exact he) ih
  | @lagged n k n' told hk hcap _ ih =>
      exact .lagged hk (by rw [List.length_append]; omega) ih

/-- Every message on the way was given or missed, and none twice. -/
theorem count (h : Reads cap sent n told n') :
    n + (received told).length + missed told = n' := by
  induction h with
  | nil n => rfl
  | ok _ _ ih =>
      simp only [received, List.length_cons, missed]
      omega
  | lagged _ _ _ ih =>
      simp only [received, missed]
      omega

theorem le (h : Reads cap sent n told n') : n ≤ n' := by
  have := h.count
  omega

theorem not_closed (h : Reads cap sent n told n') : .closed ∉ told := by
  induction h with
  | nil n => exact List.not_mem_nil
  | ok _ _ ih => simpa using ih
  | lagged _ _ _ ih => simpa using ih

/-- What was given was sent, in that order. -/
theorem sublist (h : Reads cap sent n told n') : (received told).Sublist (sent.drop n) := by
  induction h with
  | nil n => exact List.nil_sublist _
  | @ok n n' e told he _ ih =>
      obtain ⟨hn, rfl⟩ := List.getElem?_eq_some_iff.mp he
      rw [List.drop_eq_getElem_cons hn]
      exact ih.cons_cons _
  | @lagged n k n' told _ _ _ ih =>
      have hdrop : (sent.drop (n + k)).Sublist (sent.drop n) := by
        rw [← List.drop_drop]
        exact List.drop_sublist k _
      exact ih.trans hdrop

/-- Where the messages from the cursor on never filled the channel, none is missed. -/
theorem all_received (h : Reads cap sent n told n') (hcap : sent.length ≤ n + cap) :
    received told = (sent.drop n).take (n' - n) := by
  induction h with
  | nil n => simp [received]
  | @ok n n' e told he hrest ih =>
      obtain ⟨hn, rfl⟩ := List.getElem?_eq_some_iff.mp he
      have hle : n + 1 ≤ n' := hrest.le
      obtain ⟨k, rfl⟩ := Nat.exists_eq_add_of_le hle
      have hrec : received (.ok sent[n] :: told) = sent[n] :: received told := rfl
      have hrest : received told = (sent.drop (n + 1)).take (n + 1 + k - (n + 1)) := ih (by omega)
      rw [List.drop_eq_getElem_cons hn, hrec, hrest]
      rw [show n + 1 + k - n = k + 1 by omega, show n + 1 + k - (n + 1) = k by omega]
      rfl
  | lagged hk hfull _ _ => omega

/-- A message on the way was given, or it is one of those that are gone: as many others as the
channel keeps were sent after it. -/
theorem given_or_gone (h : Reads cap sent n told n') {i : Nat} {e : E} (hn : n ≤ i) (hi : i < n')
    (he : sent[i]? = some e) : e ∈ received told ∨ i + cap < sent.length := by
  induction h with
  | nil n => omega
  | @ok n n' e' told he' _ ih =>
      by_cases heq : n = i
      · subst heq
        obtain rfl := Option.some.inj (he'.symm.trans he)
        exact .inl List.mem_cons_self
      · rcases ih (by omega) hi with hmem | hgone
        · exact .inl (List.mem_cons_of_mem _ hmem)
        · exact .inr hgone
  | @lagged n k n' told _ hcap _ ih =>
      by_cases hk : n + k ≤ i
      · exact ih hk hi
      · right
        omega

/-- The cursor stands behind what was given last. -/
theorem last_given {e : E} (h : Reads cap sent n (told ++ [.ok e]) n') :
    sent[n' - 1]? = some e ∧ n < n' := by
  induction told generalizing n with
  | nil =>
      cases h with
      | ok he hrest =>
          cases hrest with
          | nil n => exact ⟨he, Nat.lt_succ_self _⟩
  | cons r told ih =>
      cases h with
      | ok _ hrest =>
          obtain ⟨he, hlt⟩ := ih hrest
          exact ⟨he, by omega⟩
      | lagged hk _ hrest =>
          obtain ⟨he, hlt⟩ := ih hrest
          exact ⟨he, by omega⟩

end Reads

namespace Channel

variable {cap : Nat} {c : Channel E} {told : Recv E}

/-- One message, or word of those that are gone. -/
theorem recv_reads (hopen : c.closed = false) (h : (c.recv cap).1 = some told) :
    Reads cap c.sent c.cursor [told] (c.recv cap).2.cursor := by
  rcases recv_cases cap c with ho | ⟨ho, hlt⟩ | hd
  · rw [recv_overrun ho] at h ⊢
    obtain rfl := Option.some.inj h
    have hover : c.cursor + cap < c.sent.length := overrun_iff.mp ho
    have hold : c.cursor + (c.oldest cap - c.cursor) = c.oldest cap := by
      unfold oldest
      omega
    have hend : Reads cap c.sent (c.cursor + (c.oldest cap - c.cursor)) []
        (c.cursor + (c.oldest cap - c.cursor)) := .nil _
    have hreads : Reads cap c.sent c.cursor [.lagged (c.oldest cap - c.cursor)]
        (c.cursor + (c.oldest cap - c.cursor)) := by
      refine .lagged ?_ ?_ hend
      · unfold oldest
        omega
      · unfold oldest
        omega
    rwa [hold] at hreads
  · rw [recv_ok ho hlt] at h ⊢
    obtain rfl := Option.some.inj h
    exact .ok (List.getElem?_eq_getElem hlt) (.nil _)
  · rw [recv_drained hd, hopen] at h
    cases h

end Channel

end Broadcast
