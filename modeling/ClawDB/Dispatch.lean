/-
# `ClawDB.Dispatch` — the plugin dispatch task

The task spawned in `ClawDB::new` receives an event, waits for the manager's lock,
and calls every loaded plugin in turn while it holds it.  Emitters take the same
lock for one synchronous `send`.  A run is an infinite sequence of states; at each
time one act happens, of an emitter or of the task, or nothing does.

`while let Ok(event) = plugin_rx.recv().await` ends the loop on every error, so also
on the one that says the receiver lagged.  `delivers_iff` says what this costs: the
task delivers every event, in order and exactly once, in those runs in which it is
never told so, and in no others.
-/
import ClawDB.Lib.Broadcast
import ClawDB.Types
import Mathlib.Data.Nat.Find

namespace ClawDB.Dispatch

open Broadcast

/-- `broadcast::channel(256)`. -/
def capacity : Nat := 256

/-- Where the task is: in `recv`, in `lock`, in `dispatch` before the plugin `next`,
or out of its loop. -/
inductive Task where
  | receiving
  | waiting (event : ClawEvent)
  | dispatching (event : ClawEvent) (next : Nat)
  | stopped
deriving DecidableEq

/-- The channel, the task, and for each plugin the events its `on_event` was called
with. -/
structure State where
  chan : Channel ClawEvent
  task : Task
  logs : List (List ClawEvent)

def State.new (plugins : Nat) : State := ⟨.new, .receiving, List.replicate plugins []⟩

/-- The manager's lock is held across acts by the dispatching task only. -/
def State.lockFree (s : State) : Bool :=
  match s.task with
  | .dispatching .. => false
  | _ => true

inductive Act where
  | emit (event : ClawEvent)
  | close
  | recv
  | lock
  | onEvent
  | release

def Act.ofTask : Act → Bool
  | .emit _ | .close => false
  | .recv | .lock | .onEvent | .release => true

/-- The loop's head: `Ok` goes on to the lock, every `Err` leaves the loop. -/
def State.received (s : State) : Option State :=
  match s.chan.recv capacity with
  | (none, _) => none
  | (some (.ok event), chan) => some { s with chan := chan, task := .waiting event }
  | (some (.lagged _), chan) => some { s with chan := chan, task := .stopped }
  | (some .closed, chan) => some { s with chan := chan, task := .stopped }

/-- One act, where it is possible. -/
def step (s : State) : Act → Option State
  | .emit event =>
      if s.lockFree && !s.chan.closed then some { s with chan := s.chan.send event } else none
  | .close => if s.chan.closed then none else some { s with chan := s.chan.close }
  | .recv => if s.task = .receiving then s.received else none
  | .lock =>
      match s.task with
      | .waiting event => some { s with task := .dispatching event 0 }
      | _ => none
  | .onEvent =>
      match s.task with
      | .dispatching event next =>
          if next < s.logs.length then
            some { s with task := .dispatching event (next + 1),
                          logs := s.logs.modify next (· ++ [event]) }
          else none
      | _ => none
  | .release =>
      match s.task with
      | .dispatching _ next =>
          if next = s.logs.length then some { s with task := .receiving } else none
      | _ => none

/-! ## What an act can do -/

variable {s s' : State}

theorem step_emit {event : ClawEvent} (h : step s (.emit event) = some s') :
    s.chan.closed = false ∧ s' = { s with chan := s.chan.send event } := by
  simp only [step] at h
  split at h
  next hc =>
      simp only [Bool.and_eq_true, Bool.not_eq_true'] at hc
      exact ⟨hc.2, (Option.some.inj h).symm⟩
  next => cases h

theorem step_close (h : step s .close = some s') :
    s.chan.closed = false ∧ s' = { s with chan := s.chan.close } := by
  simp only [step] at h
  split at h
  next => cases h
  next hc => exact ⟨Bool.eq_false_iff.mpr hc, (Option.some.inj h).symm⟩

/-- Receiving: overrun, the loop ends; with an event there, it is taken; drained and
closed, the loop ends. -/
theorem step_recv (h : step s .recv = some s') : s.task = .receiving ∧
    ((s.chan.Overrun capacity ∧ s'.task = .stopped ∧ s'.logs = s.logs ∧
        s'.chan.sent = s.chan.sent ∧ s'.chan.cursor = s.chan.oldest capacity) ∨
      (∃ hlt : s.chan.cursor < s.chan.sent.length, ¬ s.chan.Overrun capacity ∧
        s' = { s with chan := ⟨s.chan.sent, s.chan.cursor + 1, s.chan.closed, hlt⟩,
                      task := .waiting s.chan.sent[s.chan.cursor] }) ∨
      (s.chan.cursor = s.chan.sent.length ∧ s.chan.closed = true ∧
        s' = { s with task := .stopped })) := by
  simp only [step] at h
  split at h
  next ht =>
      refine ⟨ht, ?_⟩
      unfold State.received at h
      obtain ho | ⟨ho, hlt⟩ | hd := s.chan.recv_cases capacity
      · rw [Channel.recv_overrun ho] at h
        obtain rfl := Option.some.inj h
        exact .inl ⟨ho, rfl, rfl, rfl, rfl⟩
      · rw [Channel.recv_ok ho hlt] at h
        exact .inr (.inl ⟨hlt, ho, (Option.some.inj h).symm⟩)
      · rw [Channel.recv_drained hd] at h
        cases hc : s.chan.closed with
        | true =>
            rw [hc] at h
            exact .inr (.inr ⟨hd, rfl, (Option.some.inj h).symm⟩)
        | false => rw [hc] at h; cases h
  next => cases h

theorem step_lock (h : step s .lock = some s') :
    ∃ event, s.task = .waiting event ∧ s' = { s with task := .dispatching event 0 } := by
  simp only [step] at h
  split at h
  next event ht => exact ⟨event, ht, (Option.some.inj h).symm⟩
  next => cases h

theorem step_onEvent (h : step s .onEvent = some s') :
    ∃ event next, s.task = .dispatching event next ∧ next < s.logs.length ∧
      s' = { s with task := .dispatching event (next + 1),
                    logs := s.logs.modify next (· ++ [event]) } := by
  simp only [step] at h
  split at h
  next event next ht =>
      split at h
      next hlt => exact ⟨event, next, ht, hlt, (Option.some.inj h).symm⟩
      next => cases h
  next => cases h

theorem step_release (h : step s .release = some s') :
    ∃ event, s.task = .dispatching event s.logs.length ∧ s' = { s with task := .receiving } := by
  simp only [step] at h
  split at h
  next event next ht =>
      split at h
      next he => exact ⟨event, he ▸ ht, (Option.some.inj h).symm⟩
      next => cases h
  next => cases h

/-! ## What every plugin has been given

Up to the first overrun the plugins' logs are initial segments of what was sent, and
differ by the event in hand only. -/

/-- How many events plugin `i` has been given. -/
def handed (s : State) (i : Nat) : Nat :=
  match s.task with
  | .receiving | .stopped => s.chan.cursor
  | .waiting _ => s.chan.cursor - 1
  | .dispatching _ next => if i < next then s.chan.cursor else s.chan.cursor - 1

/-- The event in the task's hand is the last one it received. -/
def InHand (s : State) : Task → Prop
  | .receiving => True
  | .waiting event => 0 < s.chan.cursor ∧ s.chan.sent[s.chan.cursor - 1]? = some event
  | .dispatching event next => 0 < s.chan.cursor ∧
      s.chan.sent[s.chan.cursor - 1]? = some event ∧ next ≤ s.logs.length
  | .stopped => s.chan.closed = true ∧ s.chan.cursor = s.chan.sent.length

structure Inv (s : State) : Prop where
  logs : ∀ i log, s.logs[i]? = some log → log = s.chan.sent.take (handed s i)
  inHand : InHand s s.task

theorem handed_le (s : State) (i : Nat) : handed s i ≤ s.chan.sent.length := by
  have := s.chan.cursor_le
  unfold handed
  split
  · exact this
  · exact this
  · omega
  · split <;> omega

theorem inv_new (plugins : Nat) : Inv (State.new plugins) where
  logs i log h := by
    obtain ⟨-, rfl⟩ := List.getElem?_eq_some_iff.mp h
    simp [State.new, Channel.new]
  inHand := trivial

theorem getElem?_send {c : Channel ClawEvent} {i : Nat} {event event' : ClawEvent}
    (h : c.sent[i]? = some event) : (c.send event').sent[i]? = some event := by
  have hlt := (List.getElem?_eq_some_iff.mp h).1
  simpa [Channel.send, List.getElem?_append_left hlt] using h

theorem InHand.send {task : Task} {event : ClawEvent} (h : InHand s task)
    (hopen : s.chan.closed = false) : InHand { s with chan := s.chan.send event } task := by
  cases task with
  | receiving => trivial
  | waiting _ => exact ⟨h.1, getElem?_send h.2⟩
  | dispatching _ _ => exact ⟨h.1, getElem?_send h.2.1, h.2.2⟩
  | stopped => cases hopen.symm.trans h.1

theorem InHand.close {task : Task} (h : InHand s task) :
    InHand { s with chan := s.chan.close } task := by
  cases task with
  | stopped => exact ⟨rfl, h.2⟩
  | _ => exact h

/-- What was received is what was received before, and the event in hand. -/
theorem take_cursor {c : Channel ClawEvent} {event : ClawEvent} (hpos : 0 < c.cursor)
    (h : c.sent[c.cursor - 1]? = some event) :
    c.sent.take c.cursor = c.sent.take (c.cursor - 1) ++ [event] := by
  obtain ⟨n, hn⟩ := Nat.exists_eq_add_of_lt hpos
  rw [Nat.zero_add] at hn
  rw [hn, Nat.add_sub_cancel] at h
  rw [hn, Nat.add_sub_cancel, List.take_add_one, h]
  rfl

/-- An act other than an overrun receive keeps the invariant. -/
theorem inv_step {a : Act} (hi : Inv s) (h : step s a = some s')
    (ho : a = .recv → ¬ s.chan.Overrun capacity) : Inv s' := by
  obtain ⟨hlogs, hhand⟩ := hi
  cases a with
  | emit event =>
      obtain ⟨hopen, rfl⟩ := step_emit h
      refine ⟨fun i log hl => ?_, ?_⟩
      · refine (hlogs i log hl).trans ?_
        exact (List.take_append_of_le_length (handed_le s i)).symm
      · exact hhand.send hopen
  | close =>
      obtain ⟨-, rfl⟩ := step_close h
      exact ⟨hlogs, hhand.close⟩
  | recv =>
      obtain ⟨ht, ⟨hover, -⟩ | ⟨hlt, -, rfl⟩ | ⟨hd, hc, rfl⟩⟩ := step_recv h
      · exact absurd hover (ho rfl)
      · refine ⟨fun i log hl => ?_, Nat.succ_pos _, ?_⟩
        · have := hlogs i log hl
          simpa [handed, ht] using this
        · simp
      · refine ⟨fun i log hl => ?_, hc, hd⟩
        have := hlogs i log hl
        simpa [handed, ht] using this
  | lock =>
      obtain ⟨event, ht, rfl⟩ := step_lock h
      rw [ht] at hhand
      refine ⟨fun i log hl => ?_, hhand.1, hhand.2, Nat.zero_le _⟩
      have := hlogs i log hl
      simpa [handed, ht] using this
  | onEvent =>
      obtain ⟨event, next, ht, hlt, rfl⟩ := step_onEvent h
      rw [ht] at hhand
      obtain ⟨hpos, hev, -⟩ := hhand
      refine ⟨fun i log hl => ?_, hpos, hev, by simpa using Nat.succ_le_of_lt hlt⟩
      dsimp only at hl ⊢
      rw [List.getElem?_modify] at hl
      obtain ⟨log', hl', rfl⟩ := Option.map_eq_some_iff.mp hl
      have hlog := hlogs i log' hl'
      by_cases he : next = i
      · -- the plugin just called now has the event in hand as well
        subst he
        simp only [handed, ht, Nat.lt_irrefl, if_false] at hlog
        simp only [handed, Nat.lt_succ_self, if_true]
        rw [take_cursor hpos hev, hlog]
      · have hiff : (i < next + 1) ↔ i < next := by omega
        simp only [handed, ht] at hlog
        simpa only [handed, he, if_false, hiff] using hlog
  | release =>
      obtain ⟨event, ht, rfl⟩ := step_release h
      refine ⟨fun i log hl => ?_, trivial⟩
      have hlt : i < s.logs.length := (List.getElem?_eq_some_iff.mp hl).1
      have := hlogs i log hl
      simpa [handed, ht, hlt] using this

/-! ## How far the task has come

One event costs the task `n + 3` acts, for `n` plugins.  `progress` counts its acts
since the start; nothing but the task moves it. -/

def progress (s : State) : Nat :=
  match s.task with
  | .receiving | .stopped => s.chan.cursor * (s.logs.length + 3)
  | .waiting _ => (s.chan.cursor - 1) * (s.logs.length + 3) + 1
  | .dispatching _ next => (s.chan.cursor - 1) * (s.logs.length + 3) + 2 + next

theorem step_plugins {a : Act} (h : step s a = some s') : s'.logs.length = s.logs.length := by
  cases a with
  | emit event => obtain ⟨-, rfl⟩ := step_emit h; rfl
  | close => obtain ⟨-, rfl⟩ := step_close h; rfl
  | recv =>
      obtain ⟨-, ⟨-, -, hl, -⟩ | ⟨_, -, rfl⟩ | ⟨-, -, rfl⟩⟩ := step_recv h
      · rw [hl]
      · rfl
      · rfl
  | lock => obtain ⟨_, -, rfl⟩ := step_lock h; rfl
  | onEvent => obtain ⟨_, _, -, -, rfl⟩ := step_onEvent h; exact List.length_modify ..
  | release => obtain ⟨_, -, rfl⟩ := step_release h; rfl

theorem step_sent {a : Act} (h : step s a = some s') :
    ∃ new, s'.chan.sent = s.chan.sent ++ new := by
  cases a with
  | emit event => obtain ⟨-, rfl⟩ := step_emit h; exact ⟨[event], rfl⟩
  | close => obtain ⟨-, rfl⟩ := step_close h; exact ⟨[], by simp [Channel.close]⟩
  | recv =>
      obtain ⟨-, ⟨-, -, -, hs, -⟩ | ⟨_, -, rfl⟩ | ⟨-, -, rfl⟩⟩ := step_recv h
      · exact ⟨[], by rw [hs, List.append_nil]⟩
      · exact ⟨[], (List.append_nil _).symm⟩
      · exact ⟨[], (List.append_nil _).symm⟩
  | lock => obtain ⟨_, -, rfl⟩ := step_lock h; exact ⟨[], (List.append_nil _).symm⟩
  | onEvent => obtain ⟨_, _, -, -, rfl⟩ := step_onEvent h; exact ⟨[], (List.append_nil _).symm⟩
  | release => obtain ⟨_, -, rfl⟩ := step_release h; exact ⟨[], (List.append_nil _).symm⟩

/-- Emitters leave the task where it is. -/
theorem progress_other {a : Act} (h : step s a = some s') (ha : a.ofTask = false) :
    progress s' = progress s := by
  cases a with
  | emit event => obtain ⟨-, rfl⟩ := step_emit h; rfl
  | close => obtain ⟨-, rfl⟩ := step_close h; rfl
  | recv => cases ha
  | lock => cases ha
  | onEvent => cases ha
  | release => cases ha

/-- Every act of the task brings it one act further, while it has not drained a
closed channel. -/
theorem progress_task {a : Act} (hi : Inv s) (h : step s a = some s') (ha : a.ofTask = true)
    (ho : a = .recv → ¬ s.chan.Overrun capacity) :
    progress s' = progress s + 1 ∨ s'.chan.cursor = s'.chan.sent.length ∧ s'.task = .stopped := by
  have hhand := hi.inHand
  cases a with
  | emit event => cases ha
  | close => cases ha
  | recv =>
      obtain ⟨ht, ⟨hover, -⟩ | ⟨_, -, rfl⟩ | ⟨hd, -, rfl⟩⟩ := step_recv h
      · exact absurd hover (ho rfl)
      · left; simp [progress, ht]
      · exact .inr ⟨hd, rfl⟩
  | lock =>
      obtain ⟨event, ht, rfl⟩ := step_lock h
      left; simp [progress, ht]
  | onEvent =>
      obtain ⟨event, next, ht, -, rfl⟩ := step_onEvent h
      left; simp only [progress, ht, List.length_modify]; rfl
  | release =>
      obtain ⟨event, ht, rfl⟩ := step_release h
      rw [ht] at hhand
      obtain ⟨c, hc⟩ := Nat.exists_eq_add_of_lt hhand.1
      left
      simp only [progress, ht, hc]
      simp only [Nat.zero_add, Nat.add_sub_cancel, Nat.succ_mul]
      omega

/-- Far enough, every plugin has been given event `k`. -/
theorem handed_of_progress {k : Nat} (h : (k + 1) * (s.logs.length + 3) ≤ progress s)
    (hhand : InHand s s.task) (i : Nat) : k < handed s i := by
  have hlt : ∀ {c r : Nat}, r < s.logs.length + 3 →
      (k + 1) * (s.logs.length + 3) ≤ c * (s.logs.length + 3) + r → k < c := by
    intro c r hr hle
    by_contra hck
    have := Nat.mul_le_mul_right (s.logs.length + 3) (Nat.le_of_not_lt hck)
    rw [Nat.succ_mul] at hle
    omega
  unfold progress at h
  unfold handed
  split at h
  next => exact hlt (r := 0) (by omega) h
  next => exact hlt (r := 0) (by omega) h
  next => exact hlt (r := 1) (by omega) h
  next event next ht =>
    rw [ht] at hhand
    have hle : next ≤ s.logs.length := hhand.2.2
    have hlt' : k < s.chan.cursor - 1 :=
      hlt (r := 2 + next) (by omega) (by rw [← Nat.add_assoc]; exact h)
    split <;> omega

/-- With something left to receive, receiving does not wait. -/
theorem recv_enabled (ht : s.task = .receiving) (hc : s.chan.cursor < s.chan.sent.length) :
    (step s .recv).isSome = true := by
  change (if s.task = .receiving then s.received else none).isSome = true
  rw [if_pos ht]
  unfold State.received
  obtain ho | ⟨ho, hlt⟩ | hd := s.chan.recv_cases capacity
  · rw [Channel.recv_overrun ho]; rfl
  · rw [Channel.recv_ok ho hlt]; rfl
  · exact absurd hd (Nat.ne_of_lt hc)

/-- Short of that, the task can act. -/
theorem task_enabled {k : Nat} (h : progress s < (k + 1) * (s.logs.length + 3))
    (hk : k < s.chan.sent.length) (hhand : InHand s s.task) :
    ∃ a, a.ofTask = true ∧ (step s a).isSome = true := by
  have hlt : ∀ {c : Nat}, c * (s.logs.length + 3) < (k + 1) * (s.logs.length + 3) → c < k + 1 :=
    fun h => Nat.lt_of_mul_lt_mul_right h
  unfold progress at h
  cases ht : s.task with
  | receiving =>
      rw [ht] at h
      have hc : s.chan.cursor < k + 1 := hlt h
      exact ⟨.recv, rfl, recv_enabled ht (Nat.lt_of_le_of_lt (Nat.le_of_lt_succ hc) hk)⟩
  | waiting event => exact ⟨.lock, rfl, by simp only [step, ht, Option.isSome_some]⟩
  | dispatching event next =>
      rw [ht] at hhand
      rcases Nat.lt_or_eq_of_le hhand.2.2 with hn | hn
      · exact ⟨.onEvent, rfl, by simp only [step, ht, if_pos hn, Option.isSome_some]⟩
      · exact ⟨.release, rfl, by simp only [step, ht, if_pos hn, Option.isSome_some]⟩
  | stopped =>
      rw [ht] at h hhand
      have hc : s.chan.cursor < k + 1 := hlt h
      have := hhand.2
      omega

/-! ## Runs -/

/-- What happens at one time: an act, or nothing. -/
def Next (s : State) : Option Act → State → Prop
  | none, s' => s' = s
  | some a, s' => step s a = some s'

structure Run where
  plugins : Nat
  state : Nat → State
  act : Nat → Option Act
  init : state 0 = State.new plugins
  next : ∀ t, Next (state t) (act t) (state (t + 1))

namespace Run

variable (ρ : Run)

/-- Whenever the task receives, at most 256 events wait for it. -/
def NeverOverrun : Prop := ∀ t, ρ.act t = some .recv → ¬ (ρ.state t).chan.Overrun capacity

/-- A task that can act does so sooner or later. -/
def Fair : Prop := ∀ t, (∃ a, a.ofTask = true ∧ (step (ρ.state t) a).isSome = true) →
  ∃ u ≥ t, ∃ a, ρ.act u = some a ∧ a.ofTask = true

/-- Event `k` was no longer kept when the task came to receive it. -/
def Lost (k : Nat) : Prop := ∃ t, ρ.act t = some .recv ∧
  (ρ.state t).chan.cursor ≤ k ∧ k < (ρ.state t).chan.oldest capacity

open Classical in
/-- The first `n` events, without those that were lost. -/
noncomputable def kept (t n : Nat) : List ClawEvent :=
  ((ρ.state t).chan.sent.take n).zipIdx.filterMap
    fun ek => if ρ.Lost ek.2 then none else some ek.1

/-- What the task is for: it stops only when the channel is closed and drained; the
plugins are given the events that were not lost, in order and each once; and, if the
task is scheduled at all, every one of them is given to every plugin. -/
structure Delivers : Prop where
  stops : ∀ t, (ρ.state t).task = .stopped → (ρ.state t).chan.closed = true ∧
    (ρ.state t).chan.cursor = (ρ.state t).chan.sent.length
  inOrder : ∀ (t i : Nat) (log : List ClawEvent), (ρ.state t).logs[i]? = some log →
    ∃ n ≤ (ρ.state t).chan.sent.length, log = ρ.kept t n
  all : ρ.Fair → ∀ t i k : Nat, i < (ρ.state t).logs.length →
    k < (ρ.state t).chan.sent.length → ¬ ρ.Lost k →
    ∃ u ≥ t, ∃ n > k, (ρ.state u).logs[i]? = some (ρ.kept u n)

variable {ρ}

/-- A task that is never overrun loses nothing. -/
theorem not_lost (h : ρ.NeverOverrun) (k : Nat) : ¬ ρ.Lost k := by
  rintro ⟨t, ha, hle, hlt⟩
  exact h t ha (Nat.lt_of_le_of_lt hle hlt)

open Classical in
theorem kept_eq (h : ρ.NeverOverrun) (t n : Nat) :
    ρ.kept t n = (ρ.state t).chan.sent.take n := by
  have hsome : (fun ek : ClawEvent × Nat => if ρ.Lost ek.2 then none else some ek.1) =
      fun ek => some ek.1 := by
    funext ek
    exact if_neg (not_lost h ek.2)
  unfold kept
  rw [hsome, List.filterMap_eq_map', List.zipIdx_map_fst]

theorem inv (h : ρ.NeverOverrun) (t : Nat) : Inv (ρ.state t) := by
  induction t with
  | zero => rw [ρ.init]; exact inv_new _
  | succ t ih =>
      have hn := ρ.next t
      cases ha : ρ.act t with
      | none => rw [ha] at hn; rw [hn]; exact ih
      | some a =>
          rw [ha] at hn
          exact inv_step ih hn fun he => h t (by rw [ha, he])

theorem plugins_eq {t u : Nat} (htu : t ≤ u) :
    (ρ.state u).logs.length = (ρ.state t).logs.length := by
  induction htu with
  | refl => rfl
  | @step u _ ih =>
      have hn := ρ.next u
      cases ha : ρ.act u with
      | none => rw [ha] at hn; rw [hn]; exact ih
      | some a => rw [ha] at hn; exact (step_plugins hn).trans ih

theorem sent_mono {t u : Nat} (htu : t ≤ u) :
    (ρ.state t).chan.sent.length ≤ (ρ.state u).chan.sent.length := by
  induction htu with
  | refl => exact Nat.le_refl _
  | @step u _ ih =>
      have hn := ρ.next u
      cases ha : ρ.act u with
      | none => rw [ha] at hn; rw [hn]; exact ih
      | some a =>
          rw [ha] at hn
          obtain ⟨new, he⟩ := step_sent hn
          rw [he, List.length_append]
          omega

/-- Until its next act the task stays where it is. -/
theorem progress_until {t u : Nat} (htu : t ≤ u)
    (hidle : ∀ v, t ≤ v → v < u → ∀ a, ρ.act v = some a → a.ofTask = false) :
    progress (ρ.state u) = progress (ρ.state t) := by
  induction htu with
  | refl => rfl
  | @step u htu ih =>
      have hn := ρ.next u
      rw [← ih fun v hv hvu => hidle v hv (Nat.lt_succ_of_lt hvu)]
      cases ha : ρ.act u with
      | none => rw [ha] at hn; rw [hn]
      | some a =>
          rw [ha] at hn
          exact progress_other hn (hidle u htu (Nat.lt_succ_self u) a ha)

/-- In a fair run the task comes one act further, or stops with nothing left. -/
theorem advances (h : ρ.NeverOverrun) (hfair : ρ.Fair) {t : Nat}
    (hen : ∃ a, a.ofTask = true ∧ (step (ρ.state t) a).isSome = true) :
    ∃ u ≥ t, progress (ρ.state u) = progress (ρ.state t) + 1 ∨
      (ρ.state u).chan.cursor = (ρ.state u).chan.sent.length ∧ (ρ.state u).task = .stopped := by
  classical
  have hex : ∃ u, t ≤ u ∧ ∃ a, ρ.act u = some a ∧ a.ofTask = true := by
    obtain ⟨u, hu, a, ha⟩ := hfair t hen
    exact ⟨u, hu, a, ha⟩
  -- the first act of the task from `t` on
  obtain ⟨hu, a, ha, hof⟩ := Nat.find_spec hex
  have hidle : ∀ v, t ≤ v → v < Nat.find hex → ∀ a, ρ.act v = some a → a.ofTask = false := by
    intro v hv hlt a ha
    by_contra hne
    exact Nat.find_min hex hlt ⟨hv, a, ha, by simpa using hne⟩
  have hn := ρ.next (Nat.find hex)
  rw [ha] at hn
  refine ⟨Nat.find hex + 1, Nat.le_succ_of_le hu, ?_⟩
  rw [← progress_until hu hidle]
  exact progress_task (ρ.inv h _) hn hof fun he => h _ (by rw [ha, he])

/-- Every event sent by time `t` has been given to plugin `i` some time later. -/
theorem eventually_handed (h : ρ.NeverOverrun) (hfair : ρ.Fair) {k : Nat} (i : Nat) :
    ∀ (d t : Nat), k < (ρ.state t).chan.sent.length →
      (k + 1) * ((ρ.state t).logs.length + 3) ≤ progress (ρ.state t) + d →
      ∃ u ≥ t, k < handed (ρ.state u) i := by
  intro d
  induction d with
  | zero =>
      intro t _ hd
      exact ⟨t, Nat.le_refl t, handed_of_progress hd (ρ.inv h t).inHand i⟩
  | succ d ih =>
      intro t hk hd
      by_cases hfar : (k + 1) * ((ρ.state t).logs.length + 3) ≤ progress (ρ.state t)
      · exact ⟨t, Nat.le_refl t, handed_of_progress hfar (ρ.inv h t).inHand i⟩
      · have hen := task_enabled (Nat.lt_of_not_le hfar) hk (ρ.inv h t).inHand
        obtain ⟨u, hu, hp | ⟨hc, hs⟩⟩ := advances h hfair hen
        · obtain ⟨v, hv, hh⟩ := ih u (Nat.lt_of_lt_of_le hk (sent_mono hu))
            (by rw [plugins_eq hu, hp]; omega)
          exact ⟨v, Nat.le_trans hu hv, hh⟩
        · refine ⟨u, hu, ?_⟩
          have hsent : (ρ.state t).chan.sent.length ≤ (ρ.state u).chan.sent.length :=
            sent_mono hu
          simp only [handed, hs]
          omega

/-- The task does what it is for in exactly those runs in which it is never overrun. -/
theorem delivers_iff (ρ : Run) : ρ.Delivers ↔ ρ.NeverOverrun := by
  constructor
  · rintro hd t ha ho
    have hn := ρ.next t
    rw [ha] at hn
    obtain ⟨-, ⟨-, hs, -, hsent, hcur⟩ | ⟨_, hno, -⟩ | ⟨hd', -, -⟩⟩ := step_recv hn
    · have hdrained := (hd.stops (t + 1) hs).2
      rw [hsent, hcur] at hdrained
      exact absurd hdrained (Nat.ne_of_lt (Channel.oldest_lt (by decide) ho))
    · exact hno ho
    · have hlt := Channel.overrun_iff.mp ho
      omega
  · intro h
    refine ⟨fun t hs => ?_, fun t i log hl => ?_, fun hfair t i k hi hk _ => ?_⟩
    · have := (ρ.inv h t).inHand
      rw [hs] at this
      exact this
    · refine ⟨handed (ρ.state t) i, handed_le _ i, ?_⟩
      rw [kept_eq h]
      exact (ρ.inv h t).logs i log hl
    · obtain ⟨u, hu, hh⟩ := eventually_handed h hfair i _ t hk (Nat.le_add_left ..)
      have hlen : i < (ρ.state u).logs.length := by rw [plugins_eq hu]; exact hi
      refine ⟨u, hu, handed (ρ.state u) i, hh, ?_⟩
      rw [kept_eq h, List.getElem?_eq_getElem hlen]
      exact congrArg some ((ρ.inv h u).logs i _ (List.getElem?_eq_getElem hlen))

end Run

/-! ### The backlog that ends the loop

One plugin, and more events than the channel keeps before the task first receives. -/

def searched : ClawEvent := .searchExecuted "notes" 0

/-- After `n` events, none of them received. -/
def emitted (n : Nat) : State where
  chan := ⟨List.replicate n searched, 0, false, Nat.zero_le _⟩
  task := .receiving
  logs := [[]]

/-- The `n` events, and the task out of its loop. -/
def overran (n : Nat) : State where
  chan := ⟨List.replicate n searched, n - capacity, false,
    by rw [List.length_replicate]; exact Nat.sub_le ..⟩
  task := .stopped
  logs := [[]]

theorem step_emitted (n : Nat) :
    step (emitted n) (.emit searched) = some (emitted (n + 1)) := by
  have hsend : (emitted n).chan.send searched = (emitted (n + 1)).chan := by
    simp only [emitted, Channel.send, List.replicate_succ']
  have hopen : ((emitted n).lockFree && !(emitted n).chan.closed) = true := rfl
  rw [step, if_pos hopen, hsend]
  rfl

theorem step_overran {n : Nat} (h : capacity < n) :
    step (emitted n) .recv = some (overran n) := by
  have hold : (emitted n).chan.oldest capacity = n - capacity := by
    simp only [Channel.oldest, emitted, List.length_replicate]
  have ho : (emitted n).chan.Overrun capacity := by
    rw [Channel.overrun_iff]
    simpa only [emitted, List.length_replicate, Nat.zero_add] using h
  change (if (emitted n).task = .receiving then (emitted n).received else none) = _
  rw [if_pos (show (emitted n).task = .receiving from rfl)]
  unfold State.received
  rw [Channel.recv_overrun ho]
  simp only [hold]
  rfl

def backlogged (n : Nat) (h : capacity < n) : Run where
  plugins := 1
  state t := if t ≤ n then emitted t else overran n
  act t := if t < n then some (.emit searched) else if t = n then some .recv else none
  init := if_pos (Nat.zero_le n)
  next t := by
    rcases Nat.lt_trichotomy t n with hlt | rfl | hgt
    · rw [if_pos (Nat.le_of_lt hlt), if_pos hlt, if_pos (Nat.succ_le_of_lt hlt)]
      exact step_emitted t
    · rw [if_pos (Nat.le_refl t), if_neg (Nat.lt_irrefl t), if_pos rfl,
        if_neg (Nat.not_succ_le_self t)]
      exact step_overran h
    · rw [if_neg (Nat.not_le_of_lt hgt), if_neg (Nat.not_lt_of_lt hgt), if_neg (Nat.ne_of_gt hgt),
        if_neg (Nat.not_le_of_lt (Nat.lt_succ_of_lt hgt))]
      rfl

theorem backlogged_stops {n : Nat} (h : capacity < n) {t : Nat} (ht : n < t) :
    (backlogged n h).state t = overran n :=
  if_neg (Nat.not_le_of_lt ht)

/-- After 257 events the task is out of its loop on an open channel, and the plugin is
never given any of them. -/
theorem stops_on_open_channel :
    ((backlogged 257 (by decide)).state 258).task = .stopped ∧
      ((backlogged 257 (by decide)).state 258).chan.closed = false ∧
      ∀ t > 257, ((backlogged 257 (by decide)).state t).logs = [[]] := by
  refine ⟨?_, ?_, fun t ht => ?_⟩
  · rw [backlogged_stops _ (Nat.lt_succ_self 257)]; rfl
  · rw [backlogged_stops _ (Nat.lt_succ_self 257)]; rfl
  · rw [backlogged_stops _ ht]; rfl

end ClawDB.Dispatch
