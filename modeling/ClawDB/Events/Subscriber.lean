/-
# `Events.Subscriber` — what a subscriber is given, in the middle of others

`events/subscriber.rs`, over the bus of `Events.Bus`.  A subscriber has a receiver to itself;
`recv` hides from its caller that messages were missed, `recv_matching` throws away what does
not match, and the stream does what `recv` does.

None of the three looks at anything but the receiver (`Reading`), so that one account covers
every sequence of calls: what the receiver was told goes from the subscription on through all
that was sent, as `Broadcast.Reads` has it, and `Served` says which part of it a call used.
-/
import ClawDB.Events.Bus

namespace ClawDB.Events

open Effect Broadcast
open Effect.Prog (Turn Course Among)

variable {E : Type}

/-! ## The calls -/

/-- How a wait for an event ends; `pending` is a call that has not returned, `elapsed` one that
was given up. -/
inductive Wait (E : Type) where
  | event (arc : Arc E)
  | failed (e : BusError)
  | elapsed
  | pending

/-- The result of `recv_matching`: `none` is a call that has not returned. -/
def Wait.matched : Wait E → Option (Except BusError (Option (Arc E)))
  | .event arc => some (.ok (some arc))
  | .failed e => some (.error e)
  | .elapsed => some (.ok none)
  | .pending => none

/-- What a wait ended with. -/
def Wait.arcs : Wait E → List (Arc E)
  | .event arc => [arc]
  | _ => []

def channelClosed : BusError := .eventBusError "event bus channel closed"

namespace EventSubscriber

/-- `EventSubscriber::recv`, for `rounds` rounds at most. -/
def recv : Nat → Nat → Prog (Shared E) (Wait E)
  | 0, _ => .pure .pending
  | rounds + 1, rx => do
      match ← perform (.recv rx) with
      | some (.ok arc) => .pure (.event arc)
      | some (.lagged _) => recv rounds rx
      | some .closed => .pure (.failed channelClosed)
      | none => .pure .elapsed

/-- The loop of `recv_matching`, for `tries` events at most. -/
def matching (predicate : E → Bool) (rounds : Nat) : Nat → Nat → Prog (Shared E) (Wait E)
  | 0, _ => .pure .pending
  | tries + 1, rx => do
      match ← recv rounds rx with
      | .event arc =>
          if predicate arc.event then .pure (.event arc) else matching predicate rounds tries rx
      | .failed e => .pure (.failed e)
      | .elapsed => .pure .elapsed
      | .pending => .pure .pending

def recvMatching (predicate : E → Bool) (rounds tries rx : Nat) :
    Prog (Shared E) (Option (Except BusError (Option (Arc E)))) :=
  Wait.matched <$> matching predicate rounds tries rx

/-- The next item of `into_stream`: `filter_map` passes over `Err(Lagged)`, and the stream ends
when the channel is closed. -/
def streamNext : Nat → Nat → Prog (Shared E) (Option (Option (Arc E)))
  | 0, _ => .pure none
  | rounds + 1, rx => do
      match ← perform (.recv rx) with
      | some (.ok arc) => .pure (some (some arc))
      | some (.lagged _) => streamNext rounds rx
      | some .closed => .pure (some none)
      | none => .pure none

/-- One use of a subscriber. -/
inductive Call (E : Type) where
  | recv (rounds : Nat)
  | recvMatching (predicate : E → Bool) (rounds tries : Nat)
  | streamNext (rounds : Nat)

/-- The event a call returned, if it returned one. -/
def Call.run (rx : Nat) : Call E → Prog (Shared E) (Option (Arc E))
  | .recv rounds => do
      match ← EventSubscriber.recv rounds rx with
      | .event arc => .pure (some arc)
      | _ => .pure none
  | .recvMatching predicate rounds tries => do
      match ← EventSubscriber.recvMatching predicate rounds tries rx with
      | some (.ok r) => .pure r
      | _ => .pure none
  | .streamNext rounds => do
      match ← EventSubscriber.streamNext rounds rx with
      | some r => .pure r
      | none => .pure none

def runCalls (rx : Nat) : List (Call E) → Prog (Shared E) (List (Option (Arc E)))
  | [] => .pure []
  | c :: cs => do
      let out ← c.run rx
      let outs ← runCalls rx cs
      .pure (out :: outs)

end EventSubscriber

/-! ## One receiver among others -/

/-- All that happened in a run, in order. -/
def happened (turns : List (Turn (Shared E))) : List (Exchange (Shared E)) :=
  turns.flatMap fun t => t.others ++ [t.own]

/-- What was sent, in order. -/
def sends (evs : List (Exchange (Shared E))) : List (Arc E) :=
  evs.filterMap fun
    | ⟨.send arc, _⟩ => some arc
    | _ => none

/-- What a program's own receiver was told. -/
def told (turns : List (Turn (Shared E))) : List (Recv (Arc E)) :=
  turns.filterMap fun t => match t.own with
    | ⟨.recv _, r⟩ => r
    | _ => none

@[simp] theorem happened_append (turns turns' : List (Turn (Shared E))) :
    happened (turns ++ turns') = happened turns ++ happened turns' :=
  List.flatMap_append

@[simp] theorem sends_append (evs evs' : List (Exchange (Shared E))) :
    sends (evs ++ evs') = sends evs ++ sends evs' :=
  List.filterMap_append

@[simp] theorem told_append (turns turns' : List (Turn (Shared E))) :
    told (turns ++ turns') = told turns ++ told turns' :=
  List.filterMap_append

section Receiver

variable {w w' : EventBus E} {rx n : Nat} {past evs : List (Exchange (Shared E))}
  {turns : List (Turn (Shared E))}

/-- What others do leaves a receiver where it is, and nothing that they send is lost. -/
structure Passes (rx n : Nat) (w : EventBus E) (arcs : List (Arc E)) (w' : EventBus E) :
    Prop where
  cursor : w'.channel.cursors.lookup rx = some n
  sent : w'.channel.sent = w.channel.sent ++ arcs
  capacity : w'.capacity = w.capacity

theorem passes_other (ev : Exchange (Shared E)) (hrx : w.channel.cursors.lookup rx = some n)
    (hown : ⟨.subscribe, rx⟩ ∈ past) (hother : Users past ev) (h : sem ev.1 w ev.2 w') :
    Passes rx n w (sends [ev]) w' := by
  obtain ⟨o, r⟩ := ev
  have hmem : rx ∈ w.channel.cursors := AList.lookup_isSome.mp (hrx ▸ rfl)
  have hstay : Passes rx n w [] w := ⟨hrx, (List.append_nil _).symm, rfl⟩
  cases o with
  | receiverCount =>
      obtain ⟨-, rfl⟩ := h
      exact hstay
  | subscribe =>
      obtain ⟨hnew, rfl⟩ := h
      have hne : rx ≠ r := by
        rintro rfl
        exact hnew (w.channel.drawn_of _ hmem)
      exact ⟨(Hub.subscribe_lookup_ne hne).trans hrx, (List.append_nil _).symm, rfl⟩
  | alloc event =>
      obtain ⟨-, rfl⟩ := h
      exact ⟨hrx, (List.append_nil _).symm, rfl⟩
  | send arc =>
      obtain ⟨-, rfl⟩ := h
      refine ⟨?_, ?_, rfl⟩
      · rw [Hub.send_push hmem]
        exact hrx
      · rw [Hub.send_push hmem]
        rfl
  | recv rx' =>
      have hne : rx ≠ rx' := by
        rintro rfl
        exact hother hown
      cases r with
      | none =>
          obtain rfl : w' = w := h
          exact hstay
      | some r =>
          obtain ⟨-, rfl⟩ := h
          refine ⟨(Hub.recv_lookup_ne hne).trans hrx, ?_, rfl⟩
          exact Hub.recv_sent.trans (List.append_nil _).symm
  | unsubscribe rx' =>
      have hne : rx ≠ rx' := by
        rintro rfl
        exact hother hown
      obtain rfl : w' = { w with channel := w.channel.unsubscribe rx' } := h
      exact ⟨(Hub.unsubscribe_lookup_ne hne).trans hrx, (List.append_nil _).symm, rfl⟩

theorem passes_course (hrx : w.channel.cursors.lookup rx = some n)
    (hown : ⟨.subscribe, rx⟩ ∈ past) (hothers : ∀ ev ∈ evs, Users past ev)
    (h : Course sem w evs w') : Passes rx n w (sends evs) w' := by
  induction h with
  | nil w => exact ⟨hrx, (List.append_nil _).symm, rfl⟩
  | @cons o r w w₁ w' evs hr _ ih =>
      have hfirst : Passes rx n w (sends [⟨o, r⟩]) w₁ :=
        passes_other ⟨o, r⟩ hrx hown (hothers _ List.mem_cons_self) hr
      obtain ⟨hcursor, hsent, hcapacity⟩ :=
        ih hfirst.cursor fun ev hev => hothers ev (List.mem_cons_of_mem _ hev)
      refine ⟨hcursor, ?_, hcapacity.trans hfirst.capacity⟩
      rw [hsent, hfirst.sent, List.append_assoc, ← sends_append]
      rfl

/-- A program that does nothing but receive from `rx`. -/
def Reading {α : Type} (rx : Nat) (p : Prog (Shared E) α) : Prop :=
  p.Within fun o : Op E => o = .recv rx

/-- Spec of such a program, whatever it does with what it is told: its receiver has gone on from
where it stood, through all that was sent before and meanwhile. -/
theorem among_reads {α : Type} {p : Prog (Shared E) α} {a : α} (hp : Reading rx p)
    (h : Among sem Users past p w turns a w') (hown : ⟨.subscribe, rx⟩ ∈ past)
    (hrx : w.channel.cursors.lookup rx = some n) :
    ∃ n', Passes rx n' w (sends (happened turns)) w' ∧
      Reads w.slots w'.channel.sent n (told turns) n' := by
  induction h generalizing n with
  | pure past a w => exact ⟨n, ⟨hrx, (List.append_nil _).symm, rfl⟩, .nil n⟩
  | @op past evs o k w w₁ w₂ w' r turns a hothers hevs hr _ ih =>
      obtain ⟨rfl, hk⟩ := hp
      obtain ⟨hcursor, hsent, hcapacity⟩ := passes_course hrx hown hothers hevs
      have hown' : ⟨.subscribe, rx⟩ ∈ past ++ [⟨.recv rx, r⟩] := List.mem_append_left _ hown
      have hhappened : sends (happened (⟨evs, ⟨.recv rx, r⟩⟩ :: turns)) =
          sends evs ++ sends (happened turns) := by
        rw [show happened (⟨evs, ⟨.recv rx, r⟩⟩ :: turns) =
          evs ++ [⟨.recv rx, r⟩] ++ happened turns from rfl, sends_append, sends_append]
        exact congrArg (· ++ _) (List.append_nil _)
      cases r with
      | none =>
          obtain rfl : w₂ = w₁ := hr
          obtain ⟨n', ⟨hcursor', hsent', hcapacity'⟩, hreads⟩ := ih (hk none) hown' hcursor
          refine ⟨n', ⟨hcursor', ?_, hcapacity'.trans hcapacity⟩, ?_⟩
          · rw [hsent', hsent, hhappened, List.append_assoc]
          · rw [EventBus.slots, ← hcapacity]
            exact hreads
      | some r =>
          obtain ⟨htold, rfl⟩ := hr
          rw [Hub.recv_some hcursor] at htold
          have hone := Channel.recv_reads rfl htold
          obtain ⟨n', ⟨hcursor', hsent', hcapacity'⟩, hreads⟩ :=
            ih (hk (some r)) hown' (Hub.recv_lookup hcursor)
          have hsent'' : w'.channel.sent = w₁.channel.sent ++ sends (happened turns) :=
            hsent'.trans (congrArg (· ++ _) Hub.recv_sent)
          have hslots : w₁.slots = w.slots := by rw [EventBus.slots, hcapacity, EventBus.slots]
          refine ⟨n', ⟨hcursor', ?_, hcapacity'.trans hcapacity⟩, ?_⟩
          · rw [hsent'', hsent, hhappened, List.append_assoc]
          · have hfirst : Reads w₁.slots w'.channel.sent n [r]
                ((w₁.channel.view hcursor).recv w₁.slots).2.cursor := by
              rw [hsent'']
              exact hone.later _
            rw [← hslots]
            exact hfirst.append hreads

end Receiver

/-! ## What the calls make of it -/

/-- What was given, and what was let through: the first that is accepted, and nothing in front
of it. -/
def Sifted (accepts : E → Bool) (given out : List (Arc E)) : Prop :=
  ∃ rejected, given = rejected ++ out ∧ (∀ arc ∈ rejected, accepts arc.event = false) ∧
    ∀ arc ∈ out, accepts arc.event = true

namespace Sifted

variable {accepts : E → Bool} {arc : Arc E} {given out : List (Arc E)}

theorem nil : Sifted accepts [] [] :=
  ⟨[], rfl, fun _ harc => absurd harc List.not_mem_nil, fun _ harc => absurd harc List.not_mem_nil⟩

theorem one (h : accepts arc.event = true) : Sifted accepts [arc] [arc] := by
  refine ⟨[], rfl, fun _ harc => absurd harc List.not_mem_nil, fun arc' harc => ?_⟩
  obtain rfl := List.mem_singleton.mp harc
  exact h

theorem reject (h : Sifted accepts given out) (harc : accepts arc.event = false) :
    Sifted accepts (arc :: given) out := by
  obtain ⟨rejected, rfl, hrejected, hout⟩ := h
  refine ⟨arc :: rejected, rfl, fun arc' harc' => ?_, hout⟩
  rcases List.mem_cons.mp harc' with rfl | harc'
  · exact harc
  · exact hrejected arc' harc'

theorem sublist (h : Sifted accepts given out) : out.Sublist given := by
  obtain ⟨rejected, rfl, -, -⟩ := h
  exact List.sublist_append_right rejected out

/-- Whatever is accepted was let through. -/
theorem mem (h : Sifted accepts given out) (hmem : arc ∈ given) (harc : accepts arc.event = true) :
    arc ∈ out := by
  obtain ⟨rejected, rfl, hrejected, -⟩ := h
  rcases List.mem_append.mp hmem with hmem | hmem
  · rw [hrejected arc hmem] at harc
    cases harc
  · exact hmem

end Sifted

namespace EventSubscriber

section

variable {other : List (Exchange (Shared E)) → Exchange (Shared E) → Prop} {w w' : EventBus E}
  {rx rounds tries : Nat} {past : List (Exchange (Shared E))} {turns : List (Turn (Shared E))}
  {predicate : E → Bool}

theorem reading_recv : Reading rx (recv (E := E) rounds rx) := by
  induction rounds with
  | zero => trivial
  | succ rounds ih =>
      refine ⟨rfl, ?_⟩
      rintro (_ | _ | _ | _)
      · trivial
      · trivial
      · exact ih
      · trivial

theorem reading_matching : Reading rx (matching predicate rounds tries rx) := by
  induction tries with
  | zero => trivial
  | succ tries ih =>
      refine reading_recv.bind ?_
      rintro (arc | _ | _ | _)
      · show Reading rx (if predicate arc.event then _ else _)
        split
        · trivial
        · exact ih
      · trivial
      · trivial
      · trivial

theorem reading_streamNext : Reading rx (streamNext (E := E) rounds rx) := by
  induction rounds with
  | zero => trivial
  | succ rounds ih =>
      refine ⟨rfl, ?_⟩
      rintro (_ | _ | _ | _)
      · trivial
      · trivial
      · exact ih
      · trivial

theorem reading_call (c : Call E) : Reading rx (c.run rx) := by
  cases c with
  | recv rounds =>
      refine reading_recv.bind ?_
      rintro (_ | _ | _ | _) <;> trivial
  | recvMatching predicate rounds tries =>
      refine Prog.Within.bind (Prog.Within.bind reading_matching fun _ => trivial) ?_
      rintro (_ | _ | _) <;> trivial
  | streamNext rounds =>
      refine reading_streamNext.bind ?_
      rintro (_ | _) <;> trivial

theorem reading_runCalls (cs : List (Call E)) : Reading rx (runCalls rx cs) := by
  induction cs with
  | nil => trivial
  | cons c cs ih => exact (reading_call c).bind fun _ => ih.bind fun _ => trivial

theorem told_cons (evs : List (Exchange (Shared E))) (r : Option (Recv (Arc E))) :
    told (⟨evs, ⟨.recv rx, r⟩⟩ :: turns) = r.toList ++ told turns := by
  cases r <;> rfl

/-- What happened last in a wait that ended so. -/
def Ends (turns : List (Turn (Shared E))) : Wait E → Prop
  | .event arc => ∃ front, told turns = front ++ [.ok arc]
  | .failed _ => .closed ∈ told turns
  | .elapsed => Expired turns
  | .pending => True

theorem Ends.prepend {out : Wait E} (h : Ends turns out) (first : List (Turn (Shared E))) :
    Ends (first ++ turns) out := by
  cases out with
  | event arc =>
      obtain ⟨front, hfront⟩ := h
      exact ⟨told first ++ front, by rw [told_append, hfront, List.append_assoc]⟩
  | failed e =>
      show .closed ∈ told (first ++ turns)
      rw [told_append]
      exact List.mem_append_right _ h
  | elapsed => exact expired_append.mpr (.inr h)
  | pending => trivial

/-- `recv` returns the one message that its receiver was given. -/
theorem told_recv {out : Wait E} (h : Among sem other past (recv rounds rx) w turns out w') :
    received (told turns) = out.arcs ∧ Ends turns out := by
  induction rounds generalizing past w turns with
  | zero =>
      obtain ⟨rfl, rfl, -⟩ := Prog.among_pure.mp h
      exact ⟨rfl, trivial⟩
  | succ rounds ih =>
      obtain ⟨evs, r, rest, w₁, w₂, rfl, -, -, -, h⟩ := Prog.among_op.mp h
      cases r with
      | none =>
          obtain ⟨rfl, rfl, -⟩ := Prog.among_pure.mp h
          exact ⟨rfl, rx, List.mem_cons_self⟩
      | some r =>
          cases r with
          | ok arc =>
              obtain ⟨rfl, rfl, -⟩ := Prog.among_pure.mp h
              exact ⟨rfl, [], rfl⟩
          | lagged skipped =>
              obtain ⟨hreceived, hends⟩ := ih h
              exact ⟨hreceived, hends.prepend [_]⟩
          | closed =>
              obtain ⟨rfl, rfl, -⟩ := Prog.among_pure.mp h
              exact ⟨rfl, List.mem_cons_self⟩

/-- `recv_matching` goes by what does not match. -/
theorem told_matching {out : Wait E}
    (h : Among sem other past (matching predicate rounds tries rx) w turns out w') :
    Sifted predicate (received (told turns)) out.arcs ∧ Ends turns out := by
  induction tries generalizing past w turns with
  | zero =>
      obtain ⟨rfl, rfl, -⟩ := Prog.among_pure.mp h
      exact ⟨.nil, trivial⟩
  | succ tries ih =>
      obtain ⟨first, rest, got, w₁, rfl, hrecv, h⟩ := Prog.among_bind.mp h
      obtain ⟨hreceived, hends⟩ := told_recv hrecv
      rw [told_append, received_append, hreceived]
      cases got with
      | event arc =>
          change Among sem other _ (if predicate arc.event then _ else _) _ _ _ _ at h
          by_cases hmatch : predicate arc.event = true
          · rw [if_pos hmatch] at h
            obtain ⟨rfl, rfl, -⟩ := Prog.among_pure.mp h
            rw [List.append_nil]
            exact ⟨.one hmatch, hends⟩
          · rw [if_neg hmatch] at h
            obtain ⟨hsifted, hends'⟩ := ih h
            exact ⟨hsifted.reject (Bool.eq_false_iff.mpr hmatch), hends'.prepend first⟩
      | failed e =>
          obtain ⟨rfl, rfl, -⟩ := Prog.among_pure.mp h
          rw [List.append_nil]
          exact ⟨.nil, hends⟩
      | elapsed =>
          obtain ⟨rfl, rfl, -⟩ := Prog.among_pure.mp h
          rw [List.append_nil]
          exact ⟨.nil, hends⟩
      | pending =>
          obtain ⟨rfl, rfl, -⟩ := Prog.among_pure.mp h
          exact ⟨.nil, trivial⟩

theorem told_streamNext {out : Option (Option (Arc E))}
    (h : Among sem other past (streamNext rounds rx) w turns out w') :
    received (told turns) = out.join.toList := by
  induction rounds generalizing past w turns with
  | zero =>
      obtain ⟨rfl, rfl, -⟩ := Prog.among_pure.mp h
      rfl
  | succ rounds ih =>
      obtain ⟨evs, r, rest, w₁, w₂, rfl, -, -, -, h⟩ := Prog.among_op.mp h
      rw [told_cons]
      cases r with
      | none =>
          obtain ⟨rfl, rfl, -⟩ := Prog.among_pure.mp h
          rfl
      | some r =>
          cases r with
          | lagged skipped => exact ih h
          | ok arc =>
              obtain ⟨rfl, rfl, -⟩ := Prog.among_pure.mp h
              rfl
          | closed =>
              obtain ⟨rfl, rfl, -⟩ := Prog.among_pure.mp h
              rfl

end

/-- The events that a call lets through. -/
def Call.accepts : Call E → E → Bool
  | .recvMatching predicate _ _ => predicate
  | _ => fun _ => true

/-- How a call used what its receiver was given. -/
def Served (c : Call E) (given : List (Arc E)) (out : Option (Arc E)) : Prop :=
  Sifted c.accepts given out.toList

/-- Calls one after the other use what was given, in order. -/
inductive ServedAll : List (Call E) → List (Arc E) → List (Option (Arc E)) → Prop where
  | nil : ServedAll [] [] []
  | cons {c : Call E} {cs : List (Call E)} {given rest : List (Arc E)} {out : Option (Arc E)}
      {outs : List (Option (Arc E))} :
      Served c given out → ServedAll cs rest outs →
      ServedAll (c :: cs) (given ++ rest) (out :: outs)

theorem ServedAll.sublist {cs : List (Call E)} {given : List (Arc E)}
    {outs : List (Option (Arc E))} (h : ServedAll cs given outs) :
    (outs.flatMap Option.toList).Sublist given := by
  induction h with
  | nil => exact .slnil
  | cons hserved _ ih =>
      rw [List.flatMap_cons]
      exact hserved.sublist.append ih

section

variable {other : List (Exchange (Shared E)) → Exchange (Shared E) → Prop} {w w' : EventBus E}
  {rx : Nat} {past : List (Exchange (Shared E))} {turns : List (Turn (Shared E))}

/-- Spec of a call. -/
theorem served {c : Call E} {out : Option (Arc E)}
    (h : Among sem other past (c.run rx) w turns out w') :
    Served c (received (told turns)) out := by
  cases c with
  | recv rounds =>
      obtain ⟨first, rest, got, w₁, rfl, hrecv, h⟩ := Prog.among_bind.mp h
      obtain ⟨hreceived, -⟩ := told_recv hrecv
      rw [told_append, received_append, hreceived]
      cases got with
      | event arc =>
          obtain ⟨rfl, rfl, -⟩ := Prog.among_pure.mp h
          exact .one rfl
      | failed e =>
          obtain ⟨rfl, rfl, -⟩ := Prog.among_pure.mp h
          exact .nil
      | elapsed =>
          obtain ⟨rfl, rfl, -⟩ := Prog.among_pure.mp h
          exact .nil
      | pending =>
          obtain ⟨rfl, rfl, -⟩ := Prog.among_pure.mp h
          exact .nil
  | recvMatching predicate rounds tries =>
      obtain ⟨first, rest, got, w₁, rfl, hmap, h⟩ := Prog.among_bind.mp h
      obtain ⟨second, last, wait, w₂, rfl, hmatching, hpure⟩ := Prog.among_bind.mp hmap
      obtain ⟨rfl, rfl, -⟩ := Prog.among_pure.mp hpure
      obtain ⟨hsifted, -⟩ := told_matching hmatching
      suffices hend : rest = [] ∧ out.toList = wait.arcs by
        obtain ⟨rfl, hout⟩ := hend
        rw [List.append_nil, List.append_nil]
        unfold Served
        rw [hout]
        exact hsifted
      cases wait with
      | event arc =>
          obtain ⟨rfl, rfl, -⟩ := Prog.among_pure.mp h
          exact ⟨rfl, rfl⟩
      | failed e =>
          obtain ⟨rfl, rfl, -⟩ := Prog.among_pure.mp h
          exact ⟨rfl, rfl⟩
      | elapsed =>
          obtain ⟨rfl, rfl, -⟩ := Prog.among_pure.mp h
          exact ⟨rfl, rfl⟩
      | pending =>
          obtain ⟨rfl, rfl, -⟩ := Prog.among_pure.mp h
          exact ⟨rfl, rfl⟩
  | streamNext rounds =>
      obtain ⟨first, rest, got, w₁, rfl, hnext, h⟩ := Prog.among_bind.mp h
      have hreceived := told_streamNext hnext
      rw [told_append, received_append, hreceived]
      rcases got with _ | _ | arc
      · obtain ⟨rfl, rfl, -⟩ := Prog.among_pure.mp h
        exact .nil
      · obtain ⟨rfl, rfl, -⟩ := Prog.among_pure.mp h
        exact .nil
      · obtain ⟨rfl, rfl, -⟩ := Prog.among_pure.mp h
        exact .one rfl

theorem served_runCalls {cs : List (Call E)} {outs : List (Option (Arc E))}
    (h : Among sem other past (runCalls rx cs) w turns outs w') :
    ServedAll cs (received (told turns)) outs := by
  induction cs generalizing past w turns outs with
  | nil =>
      obtain ⟨rfl, rfl, -⟩ := Prog.among_pure.mp h
      exact .nil
  | cons c cs ih =>
      obtain ⟨first, rest, out, w₁, rfl, hcall, h⟩ := Prog.among_bind.mp h
      obtain ⟨second, last, more, w₂, rfl, hrest, h⟩ := Prog.among_bind.mp h
      obtain ⟨rfl, rfl, rfl⟩ := Prog.among_pure.mp h
      rw [List.append_nil, told_append, received_append]
      exact .cons (served hcall) (ih hrest)

end

/-! ## Results -/

/-- A subscriber from its subscription on: `EventSubscriber::new(bus.subscribe())`, and then any
calls on it. -/
def session (calls : List (Call E)) : Prog (Shared E) (List (Option (Arc E))) := do
  let rx ← perform .subscribe
  runCalls rx calls

/-- Among any other users of the bus, whatever calls are made on a subscriber: each event sent
since it subscribed was given to it once, in order, or was gone by the time it came to it, as
many others as the channel keeps having been sent after that event, or it is still to come.
Each call used a part of what was given, in order, and threw away only what its predicate
rejects.  Nothing is gone while no more were sent than the channel keeps. -/
theorem subscriber_accounts (w w' : EventBus E) (calls : List (Call E))
    (turns : List (Turn (Shared E))) (outs : List (Option (Arc E)))
    (h : Among sem Users [] (session calls) w turns outs w') :
    ∃ (subscribed : Turn (Shared E)) (rest : List (Turn (Shared E))) (before : List (Arc E))
      (n : Nat),
      turns = subscribed :: rest ∧ w'.channel.sent = before ++ sends (happened rest) ∧
      Reads w'.slots w'.channel.sent before.length (told rest) n ∧
      ServedAll calls (received (told rest)) outs ∧
      (outs.flatMap Option.toList).Sublist (sends (happened rest)) ∧
      ((sends (happened rest)).length ≤ w'.slots →
        received (told rest) = (sends (happened rest)).take (n - before.length)) := by
  obtain ⟨evs, rx, rest, w₁, w₂, rfl, -, -, ⟨-, rfl⟩, h⟩ := Prog.among_op.mp h
  obtain ⟨n, ⟨-, hsent, hcapacity⟩, hreads⟩ := among_reads (reading_runCalls calls) h
    (List.mem_append_right _ List.mem_cons_self) Hub.subscribe_lookup
  have hsent : w'.channel.sent = w₁.channel.sent ++ sends (happened rest) := hsent
  have hslots : w'.slots = w₁.slots := by
    rw [EventBus.slots, hcapacity, EventBus.slots]
  have hreads : Reads w'.slots w'.channel.sent w₁.channel.sent.length (told rest) n := by
    rw [hslots]
    exact hreads
  have hdrop : w'.channel.sent.drop w₁.channel.sent.length = sends (happened rest) := by
    rw [hsent, List.drop_left]
  have hserved : ServedAll calls (received (told rest)) outs := served_runCalls h
  refine ⟨_, rest, w₁.channel.sent, n, rfl, hsent, hreads, hserved, ?_, fun hfew => ?_⟩
  · have hgiven := hreads.sublist
    rw [hdrop] at hgiven
    exact hserved.sublist.trans hgiven
  · have hall := hreads.all_received (by rw [hsent, List.length_append]; omega)
    rwa [hdrop] at hall

/-- A bus that nobody used yet, with one subscriber. -/
def fresh : EventBus String :=
  { (EventBus.new 1 : EventBus String) with channel := Hub.new.subscribe 0 }

/-- Somebody else emits `"b"`. -/
def emission : List (Exchange (Shared String)) :=
  [⟨.alloc "b", (⟨0, "b"⟩ : Arc String)⟩, ⟨.send ⟨0, "b"⟩, .ok 1⟩]

/-- The bus after that. -/
def emitted : EventBus String :=
  { fresh with channel := fresh.channel.push ⟨0, "b"⟩, arcs := [0] }

def heard : List (Turn (Shared String)) := [⟨emission, ⟨.recv 0, some (.ok ⟨0, "b"⟩)⟩⟩]

theorem emission_course : Course sem fresh emission emitted := by
  have halloc : sem (.alloc "b") fresh ⟨0, "b"⟩ { fresh with arcs := [0] } :=
    ⟨⟨List.not_mem_nil, rfl⟩, rfl⟩
  exact .cons halloc (.cons ⟨rfl, rfl⟩ (.nil _))

/-- A call that returns when its receiver is given `"b"`. -/
theorem heard_runs {α : Type} {a : α} {past : List (Exchange (Shared String))}
    {k : Option (Recv (Arc String)) → Prog (Shared String) α}
    (hk : k (some (.ok ⟨0, "b"⟩)) = .pure a) (hpast : ∀ event arc, ⟨.alloc event, arc⟩ ∉ past) :
    ∃ w', Among sem Users past (.op (.recv 0) k) fresh heard a w' := by
  have hothers : ∀ ev ∈ emission, Users past ev := by
    intro ev hev
    rcases List.mem_cons.mp hev with rfl | hev
    · trivial
    · obtain rfl := List.mem_singleton.mp hev
      exact fun event => hpast event _
  have hgiven : (emitted.channel.recv emitted.slots 0).1 = some (.ok ⟨0, "b"⟩) :=
    Hub.recv_subscribe_push _ emitted.slots_pos
  refine ⟨{ emitted with channel := (emitted.channel.recv emitted.slots 0).2 }, ?_⟩
  refine .op hothers emission_course ⟨hgiven, rfl⟩ ?_
  rw [hk]
  exact .pure ..

/-- An event that is emitted after the subscription is returned. -/
theorem subscriber_accounts_heard :
    ServedAll [Call.recv 1] [(⟨0, "b"⟩ : Arc String)] [some ⟨0, "b"⟩] := by
  obtain ⟨w', h⟩ : ∃ w', Among sem Users [⟨.subscribe, (0 : Nat)⟩] (runCalls 0 [Call.recv 1])
      fresh heard [some ⟨0, "b"⟩] w' := heard_runs rfl (by simp)
  have hsession : Among sem Users [] (session [Call.recv 1]) (EventBus.new 1)
      (⟨[], ⟨.subscribe, (0 : Nat)⟩⟩ :: heard) [some ⟨0, "b"⟩] w' :=
    .op (fun _ h => nomatch h) (.nil _) ⟨List.not_mem_nil, rfl⟩ h
  obtain ⟨_, rest, _, _, hturns, -, -, hserved, -⟩ := subscriber_accounts _ w' _ _ _ hsession
  obtain ⟨-, rfl⟩ := List.cons.inj hturns
  exact hserved

/-- `recv_matching` on a receiver whose cursor is `n`, among any other users of the bus: the bus
being there, it returns no error.  It returns a matching event, the one in front of its cursor,
or none because the deadline is over; and of all the events that it came by on the way, those
that match were either returned or gone by then, as many others as the channel keeps having been
sent after them. -/
theorem recvMatching_first (w w' : EventBus E) (predicate : E → Bool) (rounds tries rx n : Nat)
    (past : List (Exchange (Shared E))) (turns : List (Turn (Shared E)))
    (r : Except BusError (Option (Arc E))) (hown : ⟨.subscribe, rx⟩ ∈ past)
    (hrx : w.channel.cursors.lookup rx = some n)
    (h : Among sem Users past (recvMatching predicate rounds tries rx) w turns (some r) w') :
    ∃ n' got, r = .ok got ∧ w'.channel.cursors.lookup rx = some n' ∧
      w'.channel.sent = w.channel.sent ++ sends (happened turns) ∧
      (got = none → Expired turns) ∧
      (∀ arc, got = some arc → predicate arc.event = true ∧ n < n' ∧
        w'.channel.sent[n' - 1]? = some arc) ∧
      ∀ i arc, n ≤ i → i < n' → w'.channel.sent[i]? = some arc → predicate arc.event = true →
        got = some arc ∨ i + w'.slots < w'.channel.sent.length := by
  obtain ⟨first, rest, wait, w₁, rfl, hmatching, hpure⟩ := Prog.among_bind.mp h
  obtain ⟨rfl, hr, rfl⟩ := Prog.among_pure.mp hpure
  rw [List.append_nil]
  obtain ⟨n', ⟨hcursor, hsent, hcapacity⟩, hreads⟩ :=
    among_reads reading_matching hmatching hown hrx
  obtain ⟨hsifted, hends⟩ := told_matching hmatching
  have hslots : w'.slots = w.slots := by rw [EventBus.slots, hcapacity, EventBus.slots]
  have hgone : ∀ i arc, n ≤ i → i < n' → w'.channel.sent[i]? = some arc →
      predicate arc.event = true → arc ∈ wait.arcs ∨ i + w'.slots < w'.channel.sent.length := by
    intro i arc hn hi harc hmatch
    rw [hslots]
    rcases hreads.given_or_gone hn hi harc with hgiven | hgone
    · exact .inl (hsifted.mem hgiven hmatch)
    · exact .inr hgone
  cases wait with
  | event arc =>
      obtain rfl := Option.some.inj hr
      obtain ⟨front, hfront⟩ := hends
      rw [hfront] at hreads
      obtain ⟨hlast, hlt⟩ := hreads.last_given
      refine ⟨n', some arc, rfl, hcursor, hsent, fun hnone => (nomatch hnone), ?_, ?_⟩
      · intro arc' heq
        obtain rfl := Option.some.inj heq
        obtain ⟨_, -, -, hout⟩ := hsifted
        exact ⟨hout arc List.mem_cons_self, hlt, hlast⟩
      · intro i arc' hn hi harc hmatch
        rcases hgone i arc' hn hi harc hmatch with hmem | hold
        · exact .inl (congrArg some (List.mem_singleton.mp hmem).symm)
        · exact .inr hold
  | failed e => exact absurd hends hreads.not_closed
  | elapsed =>
      obtain rfl := Option.some.inj hr
      refine ⟨n', none, rfl, hcursor, hsent, fun _ => hends, fun arc heq => (nomatch heq), ?_⟩
      intro i arc hn hi harc hmatch
      rcases hgone i arc hn hi harc hmatch with hmem | hold
      · exact absurd hmem List.not_mem_nil
      · exact .inr hold
  | pending => cases hr

/-- The event matches, and the cursor stands behind it. -/
theorem recvMatching_first_heard : ∃ w' : EventBus String, w'.channel.sent.length = 1 ∧
    ∃ n', w'.channel.cursors.lookup 0 = some n' ∧ w'.channel.sent[n' - 1]? = some ⟨0, "b"⟩ := by
  obtain ⟨w', h⟩ : ∃ w', Among sem Users [⟨.subscribe, (0 : Nat)⟩] (recvMatching (· = "b") 1 1 0)
      fresh heard (some (.ok (some ⟨0, "b"⟩))) w' := heard_runs rfl (by simp)
  obtain ⟨n', got, hgot, hcursor, hsent, -, hlast, -⟩ := recvMatching_first fresh w' (· = "b") 1 1
    0 0 [⟨.subscribe, (0 : Nat)⟩] heard _ List.mem_cons_self Hub.subscribe_lookup h
  obtain rfl := Except.ok.inj hgot
  exact ⟨w', by rw [hsent]; rfl, n', hcursor, (hlast _ rfl).2.2⟩

end EventSubscriber

end ClawDB.Events
