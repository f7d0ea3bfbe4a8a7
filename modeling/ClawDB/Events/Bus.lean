/-
# `Events.Bus` — the event bus, and the emission that waits for a confirmation

`events/bus.rs`.  The bus is a broadcast channel of `Arc`s; one operation is one access to the
channel, and between two of them any other user of the bus may emit, subscribe, receive, or
drop its receiver.

`emit_and_wait` is to return `Ok` once a receiver has the event.  What it waits for is a
receiver of its own, made in front of the emission, to be given anything at all; and where it
sees no receiver it returns `Ok` at once.  Nothing in it looks at the receivers that were there
before, and `Ok` says nothing about them (`emitAndWait_unconfirmed`).

Events are not inspected here: `E` stands for `ClawEvent`.  What an `Arc` points to is `event`;
two `Arc`s are the same if they are clones of one.
-/
import ClawDB.Lib.Among
import ClawDB.Lib.Fanout
import Mathlib.Data.Fintype.EquivFin

namespace ClawDB.Events

open Effect Broadcast
open Effect.Prog (Turn Course Among ExecTrace)

structure Arc (E : Type) where
  ptr : Nat
  event : E

/-- The only error of the bus. -/
inductive BusError where
  | eventBusError (message : String)
deriving DecidableEq

/-- An `EventBus` in use; `arcs` are the allocations made so far. -/
structure EventBus (E : Type) where
  capacity : Nat
  channel : Hub (Arc E)
  arcs : List Nat

namespace EventBus

variable {E : Type}

/-- `EventBus::new`; `broadcast::channel` panics unless `capacity` is positive. -/
def new (capacity : Nat) : EventBus E := ⟨capacity, .new, []⟩

/-- How many messages the channel keeps: `capacity`, rounded up to a power of two. -/
def slots (w : EventBus E) : Nat := w.capacity.nextPowerOfTwo

theorem slots_pos (w : EventBus E) : 0 < w.slots :=
  Nat.pos_of_isPowerOfTwo (Nat.isPowerOfTwo_nextPowerOfTwo _)

end EventBus

/-! ## Operations -/

inductive Op (E : Type) where
  | receiverCount
  | subscribe
  /-- `Arc::new` -/
  | alloc (event : E)
  | send (arc : Arc E)
  | recv (rx : Nat)
  /-- A receiver is dropped. -/
  | unsubscribe (rx : Nat)

/-- `recv` may stop waiting without a reply, at its caller's deadline. -/
@[reducible] def Op.Ret {E : Type} : Op E → Type
  | .receiverCount => Nat
  | .subscribe => Nat
  | .alloc _ => Arc E
  | .send _ => Except Unit Nat
  | .recv _ => Option (Recv (Arc E))
  | .unsubscribe _ => Unit

abbrev Shared (E : Type) : Effect.Sig := ⟨Op E, Op.Ret⟩

variable {E : Type}

def sem : Prog.Rel (Shared E) (EventBus E)
  | .receiverCount, w => fun n w' => n = w.channel.receiverCount ∧ w' = w
  | .subscribe, w => fun rx w' =>
      rx ∉ w.channel.drawn ∧ w' = { w with channel := w.channel.subscribe rx }
  | .alloc event, w => fun arc w' =>
      (arc.ptr ∉ w.arcs ∧ arc.event = event) ∧ w' = { w with arcs := arc.ptr :: w.arcs }
  | .send arc, w => fun r w' =>
      r = (w.channel.send arc).1 ∧ w' = { w with channel := (w.channel.send arc).2 }
  | .recv rx, w => fun r w' => match r with
      | some told => (w.channel.recv w.slots rx).1 = some told ∧
          w' = { w with channel := (w.channel.recv w.slots rx).2 }
      | none => w' = w
  | .unsubscribe rx, w => fun _ w' => w' = { w with channel := w.channel.unsubscribe rx }

abbrev perform (o : Op E) : Prog (Shared E) (Op.Ret o) := Prog.perform (F := Shared E) o

/-- What other users of the bus can do: a receiver is used by whoever subscribed it, and an
`Arc` is sent by whoever allocated it. -/
def Users (past : List (Exchange (Shared E))) : Exchange (Shared E) → Prop
  | ⟨.recv rx, _⟩ => ⟨.subscribe, rx⟩ ∉ past
  | ⟨.unsubscribe rx, _⟩ => ⟨.subscribe, rx⟩ ∉ past
  | ⟨.send arc, _⟩ => ∀ event, ⟨.alloc event, arc⟩ ∉ past
  | _ => True

/-! ## The calls -/

/-- Fire and forget. -/
def emit (event : E) : Prog (Shared E) Unit := do
  let arc ← perform (.alloc event)
  let _ ← perform (.send arc)
  .pure ()

/-- `emit`, returning the receiver count. -/
def publish (event : E) : Prog (Shared E) Nat := do
  let arc ← perform (.alloc event)
  let sent ← perform (.send arc)
  .pure (match sent with
    | .ok n => n
    | .error _ => 0)

def timedOut (deadline : Nat) : BusError :=
  .eventBusError ("emit_and_wait timed out after " ++ Nat.repr (deadline / 1000000) ++ "ms")

/-- The loop of `emit_and_wait`, for `rounds` rounds at most: `none` when it is still waiting
after them, `some false` when the deadline is over. -/
def pull : Nat → Nat → Prog (Shared E) (Option Bool)
  | 0, _ => .pure none
  | rounds + 1, rx => do
      match ← perform (.recv rx) with
      | some (.ok _) => .pure (some true)
      | some (.lagged _) => pull rounds rx
      | some .closed => .pure (some true)
      | none => .pure (some false)

/-- The part of `emit_and_wait` that waits. -/
def confirm (rounds : Nat) (event : E) (deadline : Nat) :
    Prog (Shared E) (Option (Except BusError Unit)) := do
  -- subscribed before the emission, to observe it
  let rx ← perform .subscribe
  let arc ← perform (.alloc event)
  let _ ← perform (.send arc)
  match ← pull rounds rx with
  | none => .pure none
  | some taken =>
      let _ ← perform (.unsubscribe rx)
      .pure (some (if taken then .ok () else .error (timedOut deadline)))

/-- `EventBus::emit_and_wait`; the deadline is in nanoseconds, and `none` is a call that has
not returned. -/
def emitAndWait (rounds : Nat) (event : E) (deadline : Nat) :
    Prog (Shared E) (Option (Except BusError Unit)) := do
  let count ← perform .receiverCount
  if count = 0 then
    -- no one is listening: emitted anyway
    emit event
    .pure (some (.ok ()))
  else
    confirm rounds event deadline

/-! ## What `Ok` is worth -/

/-- A receiver that was there at the start was given the event, in the call's own `Arc`. -/
def Received (w : EventBus E) (turns : List (Turn (Shared E))) : Prop :=
  ∃ event arc, ⟨.alloc event, arc⟩ ∈ turns.map Turn.own ∧
    ∃ rx ∈ w.channel.receivers, ∃ t ∈ turns, ⟨.recv rx, some (.ok arc)⟩ ∈ t.others

/-- `Ok` means that a receiver that was there has the event, and there is no `Ok` when there
was none. -/
def Confirms (w : EventBus E) (turns : List (Turn (Shared E))) (r : Except BusError Unit) : Prop :=
  (r = .ok () → Received w turns) ∧ (w.channel.receivers = [] → ∃ e, r = .error e)

/-- The deadline was over before the call's own receiver was given anything. -/
def Expired (turns : List (Turn (Shared E))) : Prop :=
  ∃ rx, ⟨.recv rx, none⟩ ∈ turns.map Turn.own

theorem Received.receivers {w : EventBus E} {turns : List (Turn (Shared E))}
    (h : Received w turns) : w.channel.receivers ≠ [] := by
  obtain ⟨event, arc, -, rx, hrx, -⟩ := h
  exact List.ne_nil_of_mem hrx

/-- Nobody receives in a run without others. -/
theorem not_received_alone (w : EventBus E) (evs : List (Exchange (Shared E))) :
    ¬Received w (evs.map (Turn.mk [])) := by
  rintro ⟨event, arc, -, rx, -, t, ht, hev⟩
  obtain ⟨ev, -, rfl⟩ := List.mem_map.mp ht
  cases hev

section Runs

variable {other : List (Exchange (Shared E)) → Exchange (Shared E) → Prop}
  {past : List (Exchange (Shared E))} {w w' : EventBus E} {turns : List (Turn (Shared E))}
  {event : E} {deadline rounds rx : Nat}

theorem expired_nil : ¬Expired ([] : List (Turn (Shared E))) := by
  rintro ⟨rx, h⟩
  cases h

/-- An operation that does not receive does not wait either. -/
theorem expired_cons {evs : List (Exchange (Shared E))} {ev : Exchange (Shared E)}
    (hev : ∀ rx, ev ≠ ⟨.recv rx, none⟩) : Expired (⟨evs, ev⟩ :: turns) ↔ Expired turns := by
  constructor
  · rintro ⟨rx, h⟩
    rcases List.mem_cons.mp h with h | h
    · exact absurd h.symm (hev rx)
    · exact ⟨rx, h⟩
  · rintro ⟨rx, h⟩
    exact ⟨rx, List.mem_cons_of_mem _ h⟩

/-- The loop ends without a message when the deadline is over, and only then. -/
theorem pull_expired {out : Option Bool}
    (h : Among sem other past (pull rounds rx) w turns out w') :
    out = some false ↔ Expired turns := by
  induction rounds generalizing past w turns with
  | zero =>
      obtain ⟨rfl, rfl, -⟩ := Prog.among_pure.mp h
      exact ⟨fun h => (nomatch h), fun h => absurd h expired_nil⟩
  | succ rounds ih =>
      obtain ⟨evs, told, rest, s₁, s₂, rfl, -, -, -, h⟩ := Prog.among_op.mp h
      cases told with
      | none =>
          obtain ⟨rfl, rfl, -⟩ := Prog.among_pure.mp h
          exact ⟨fun _ => ⟨rx, List.mem_cons_self⟩, fun _ => rfl⟩
      | some told =>
          rw [expired_cons (by rintro rx' h'; cases h')]
          cases told with
          | lagged skipped => exact ih h
          | ok arc =>
              obtain ⟨rfl, rfl, -⟩ := Prog.among_pure.mp h
              exact ⟨fun h => (nomatch h), fun h => absurd h expired_nil⟩
          | closed =>
              obtain ⟨rfl, rfl, -⟩ := Prog.among_pure.mp h
              exact ⟨fun h => (nomatch h), fun h => absurd h expired_nil⟩

theorem expired_append {turns' : List (Turn (Shared E))} :
    Expired (turns ++ turns') ↔ Expired turns ∨ Expired turns' := by
  unfold Expired
  simp only [List.map_append, List.mem_append]
  exact exists_or

theorem emit_expired {u : Unit} (h : Among sem other past (emit event) w turns u w') :
    ¬Expired turns := by
  obtain ⟨evs₁, arc, rest₁, s₁, s₁', rfl, -, -, -, h⟩ := Prog.among_op.mp h
  obtain ⟨evs₂, sent, rest₂, s₂, s₂', rfl, -, -, -, h⟩ := Prog.among_op.mp h
  obtain ⟨rfl, -, -⟩ := Prog.among_pure.mp h
  rw [expired_cons (by rintro rx h'; cases h'), expired_cons (by rintro rx h'; cases h')]
  exact expired_nil

theorem confirm_returns {r : Except BusError Unit}
    (h : Among sem other past (confirm rounds event deadline) w turns (some r) w') :
    (Expired turns ∧ r = .error (timedOut deadline)) ∨ (¬Expired turns ∧ r = .ok ()) := by
  obtain ⟨evs₁, rx, rest₁, s₁, s₁', rfl, -, -, -, h⟩ := Prog.among_op.mp h
  obtain ⟨evs₂, arc, rest₂, s₂, s₂', rfl, -, -, -, h⟩ := Prog.among_op.mp h
  obtain ⟨evs₃, sent, rest₃, s₃, s₃', rfl, -, -, -, h⟩ := Prog.among_op.mp h
  obtain ⟨first, rest₄, taken, s₄, rfl, hpull, h⟩ := (Prog.among_bind (p := pull rounds rx)).mp h
  have hexpired : taken = some false ↔ Expired first := pull_expired hpull
  rw [expired_cons (by rintro rx h'; cases h'), expired_cons (by rintro rx h'; cases h'),
    expired_cons (by rintro rx h'; cases h'), expired_append]
  cases taken with
  | none =>
      obtain ⟨-, hr, -⟩ := Prog.among_pure.mp h
      cases hr
  | some taken =>
      obtain ⟨evs₅, u, rest₅, s₅, s₅', rfl, -, -, -, h⟩ := Prog.among_op.mp h
      obtain ⟨rfl, hr, -⟩ := Prog.among_pure.mp h
      rw [expired_cons (by rintro rx h'; cases h'), ← hexpired]
      cases taken with
      | false => exact .inl ⟨.inl rfl, Option.some.inj hr⟩
      | true =>
          refine .inr ⟨?_, Option.some.inj hr⟩
          rintro (h | h)
          · cases h
          · exact expired_nil h

/-- What a call that has returned returns: an error when the deadline was over first, and `Ok`
otherwise. -/
theorem emitAndWait_returns {r : Except BusError Unit}
    (h : Among sem other past (emitAndWait rounds event deadline) w turns (some r) w') :
    (Expired turns ∧ r = .error (timedOut deadline)) ∨ (¬Expired turns ∧ r = .ok ()) := by
  obtain ⟨evs, count, rest, s, s', rfl, -, -, -, h⟩ := Prog.among_op.mp h
  rw [expired_cons (by rintro rx h'; cases h')]
  change Among sem other _ (if count = 0 then _ else _) _ _ _ _ at h
  by_cases hcount : count = 0
  · rw [if_pos hcount] at h
    obtain ⟨first, rest', u, s₁, rfl, hemit, h⟩ := Prog.among_bind.mp h
    obtain ⟨rfl, hr, -⟩ := Prog.among_pure.mp h
    rw [List.append_nil]
    exact .inr ⟨emit_expired hemit, Option.some.inj hr⟩
  · rw [if_neg hcount] at h
    exact confirm_returns h

/-- A call that has returned confirms what it should just when it returns an error, the
deadline being over, or some receiver took the event in time of its own accord. -/
theorem confirms_iff {r : Except BusError Unit}
    (h : Among sem other past (emitAndWait rounds event deadline) w turns (some r) w') :
    Confirms w turns r ↔ Expired turns ∨ Received w turns := by
  rcases emitAndWait_returns h with ⟨hexpired, rfl⟩ | ⟨hexpired, rfl⟩
  · exact ⟨fun _ => .inl hexpired, fun _ => ⟨fun h => (nomatch h), fun _ => ⟨_, rfl⟩⟩⟩
  · constructor
    · exact fun hconfirms => .inr (hconfirms.1 rfl)
    · rintro (h | h)
      · exact absurd h hexpired
      · exact ⟨fun _ => h, fun hnone => absurd hnone h.receivers⟩

end Runs

/-! ## A bus that is left alone -/

theorem exists_fresh (l : List Nat) : ∃ n, n ∉ l := by
  obtain ⟨n, hn⟩ := Infinite.exists_notMem_finset l.toFinset
  exact ⟨n, fun h => hn (List.mem_toFinset.mpr h)⟩

theorem confirm_alone (w : EventBus E) (event : E) (deadline : Nat) :
    ∃ evs w', ExecTrace sem (confirm 1 event deadline) w evs (some (.ok ())) w' := by
  obtain ⟨rx, hrx⟩ := exists_fresh w.channel.drawn
  obtain ⟨ptr, hptr⟩ := exists_fresh w.arcs
  let arc : Arc E := ⟨ptr, event⟩
  let heard : EventBus E := ⟨w.capacity, w.channel.subscribe rx, arc.ptr :: w.arcs⟩
  let sent : EventBus E := { heard with channel := (heard.channel.send arc).2 }
  let taken : EventBus E := { sent with channel := (sent.channel.recv sent.slots rx).2 }
  have hsent : sent.channel = heard.channel.push arc := by
    have hrx : rx ∈ heard.channel.cursors := (AList.mem_insert w.channel.cursors).mpr (.inl rfl)
    show (heard.channel.send arc).2 = _
    unfold Hub.send
    rw [if_neg (Hub.receiverCount_pos hrx)]
  have hrecv : (sent.channel.recv sent.slots rx).1 = some (.ok arc) := by
    rw [hsent]
    exact Hub.recv_subscribe_push arc sent.slots_pos
  have hpull : ExecTrace sem (pull 1 rx) sent [⟨.recv rx, some (.ok arc)⟩] (some true) taken :=
    .op ⟨hrecv, rfl⟩ (.pure ..)
  have hend : ExecTrace sem (perform (.unsubscribe rx) >>= fun _ => .pure (some (.ok ()))) taken
      [⟨.unsubscribe rx, ()⟩] (some (.ok () : Except BusError Unit))
      { taken with channel := taken.channel.unsubscribe rx } :=
    .op rfl (.pure ..)
  have harc : arc.ptr ∉ w.arcs ∧ arc.event = event := ⟨hptr, rfl⟩
  exact ⟨_, _, .op ⟨hrx, rfl⟩ (.op (r := arc) ⟨harc, rfl⟩ (.op ⟨rfl, rfl⟩
    ((Prog.traced_bind (p := pull 1 rx)).mpr ⟨_, _, some true, taken, rfl, hpull, hend⟩)))⟩

/-- Left alone, the call returns `Ok`: at once if there are no receivers, and else after its
own receiver was given the call's own event. -/
theorem emitAndWait_alone (w : EventBus E) (event : E) (deadline : Nat) :
    ∃ evs w', ExecTrace sem (emitAndWait 1 event deadline) w evs (some (.ok ())) w' := by
  suffices ∃ evs w', ExecTrace sem (if w.channel.receiverCount = 0
      then emit event >>= fun _ => .pure (some (.ok ()))
      else confirm 1 event deadline) w evs (some (.ok ())) w' by
    obtain ⟨evs, w', h⟩ := this
    exact ⟨⟨.receiverCount, w.channel.receiverCount⟩ :: evs, w', .op ⟨rfl, rfl⟩ h⟩
  split
  next =>
      obtain ⟨ptr, hptr⟩ := exists_fresh w.arcs
      have harc : (⟨ptr, event⟩ : Arc E).ptr ∉ w.arcs ∧ (⟨ptr, event⟩ : Arc E).event = event :=
        ⟨hptr, rfl⟩
      exact ⟨_, _, .op ⟨harc, rfl⟩ (.op ⟨rfl, rfl⟩ (.pure ..))⟩
  next => exact confirm_alone w event deadline

/-- Whatever receivers there are, the call may return `Ok` with none of them having received
the event; and a run confirms what it should just when the deadline was over first, or some
receiver took the event of its own accord before the call returned. -/
theorem emitAndWait_unconfirmed (w : EventBus E) (event : E) (deadline : Nat) :
    (¬∀ rounds turns r w', Among sem Users [] (emitAndWait rounds event deadline) w turns (some r)
      w' → Confirms w turns r) ∧
    ∀ rounds turns r w', Among sem Users [] (emitAndWait rounds event deadline) w turns (some r)
      w' → (Confirms w turns r ↔ Expired turns ∨ Received w turns) := by
  refine ⟨fun hclaim => ?_, fun rounds turns r w' h => confirms_iff h⟩
  obtain ⟨evs, w', h⟩ := emitAndWait_alone w event deadline
  have hconfirms := hclaim 1 _ (.ok ()) w' (h.among Users [])
  exact not_received_alone w evs (hconfirms.1 rfl)

/-- A bus with one receiver, which is idle. -/
def idleBus : EventBus String :=
  { (EventBus.new 1024 : EventBus String) with channel := Hub.new.subscribe 0 }

/-- The receiver has not received the shutdown that the call confirms. -/
theorem shutdown_unconfirmed : idleBus.channel.receivers = [0] ∧
    ¬∀ (w : EventBus String) event deadline rounds turns r w',
      Among sem Users [] (emitAndWait rounds event deadline) w turns (some r) w' →
        Confirms w turns r := by
  refine ⟨rfl, fun hclaim => ?_⟩
  obtain ⟨evs, w', h⟩ := emitAndWait_alone idleBus "ShutdownInitiated" 0
  have hconfirms := hclaim idleBus _ _ 1 _ (.ok ()) w' (h.among Users [])
  exact not_received_alone idleBus evs (hconfirms.1 rfl)

end ClawDB.Events
