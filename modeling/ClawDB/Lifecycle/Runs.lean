/-
# `Lifecycle.Runs` — the manager is what its log of attempts makes it

A run is any list of `start_all`, `restart_component` and `stop_all` calls, the engines replying
whatever they like.  `Follows` relates a manager to a log of attempts: a component's engine is
the one opened last, its health is how the last attempt ended.  `Advances` says of a part of a
run that it keeps the two in step, and `runCalls_follows` that every run does.

Health and the engines part ways when a restart fails: the old engine stays where it was, and
the component is reported down.  They part ways again when everything is stopped, which the
manager does not remember.
-/
import ClawDB.Lifecycle.Manager

namespace ClawDB.Lifecycle

open Effect Prog
open Planning (Component)

/-! ## Logs -/

@[simp] theorem attempts_append (evs evs' : List (Exchange Engines)) :
    attempts (evs ++ evs') = attempts evs ++ attempts evs' :=
  List.filterMap_append

@[simp] theorem closed_append (evs evs' : List (Exchange Engines)) :
    closed (evs ++ evs') = closed evs ++ closed evs' :=
  List.filterMap_append

@[simp] theorem published_append (evs evs' : List (Exchange Engines)) :
    published (evs ++ evs') = published evs ++ published evs' :=
  List.filterMap_append

@[simp] theorem announced_append (log log' : List Attempt) :
    announced (log ++ log') = announced log ++ announced log' :=
  List.filterMap_append

@[simp] theorem opened_append (c : Component) (log log' : List Attempt) :
    opened c (log ++ log') = (opened c log').or (opened c log) := by
  induction log with
  | nil => simp [opened]
  | cons a log ih => simp only [List.cons_append, opened, ih, Option.or_assoc]

@[simp] theorem lastTry_append (c : Component) (log log' : List Attempt) :
    lastTry c (log ++ log') = (lastTry c log').or (lastTry c log) := by
  induction log with
  | nil => simp [lastTry]
  | cons a log ih => simp only [List.cons_append, lastTry, ih, Option.or_assoc]

/-- What was opened once stays opened. -/
theorem opened_isSome {c : Component} {log log' : List Attempt} (h : (opened c log).isSome) :
    (opened c (log ++ log')).isSome := by
  rw [opened_append]
  cases opened c log' with
  | some _ => rfl
  | none => exact h

/-- A component whose last attempt succeeded has an engine. -/
theorem opened_of_running {c : Component} {log : List Attempt} (h : running c log = true) :
    (opened c log).isSome := by
  induction log with
  | nil => cases h
  | cons a log ih =>
      obtain ⟨c', r⟩ := a
      unfold running lastTry at h
      unfold opened
      cases hlast : lastTry c log with
      | some r' =>
          rw [hlast] at h
          have hrun : running c log = true := by
            unfold running
            rw [hlast]
            exact h
          have hopen : (opened c log).isSome := ih hrun
          cases ho : opened c log with
          | some _ => rfl
          | none => rw [ho] at hopen; cases hopen
      | none =>
          rw [hlast] at h
          by_cases hc : c' = c
          · rw [if_pos hc] at h ⊢
            cases r with
            | ok e => cases opened c log <;> rfl
            | error _ => cases h
          · rw [if_neg hc] at h
            cases h

theorem name_inj {c c' : Component} (h : c.name = c'.name) : c = c' := by
  cases c <;> cases c' <;> first | rfl | exact absurd h (by decide)

/-! ## The manager and its log -/

/-- How a health entry reads for an attempt that ended so. -/
def verdict : Except String Handle → Bool × Option String
  | .ok _ => (true, none)
  | .error e => (false, some e)

/-- The manager is what the attempts made so far make it. -/
structure Follows (m : ComponentLifecycleManager) (log : List Attempt) : Prop where
  engines : ∀ c, m.engines c = opened c log
  health : ∀ c, (m.health.lookup c.name).map (fun entry => (entry.healthy, entry.error)) =
    (lastTry c log).map verdict
  names : ∀ name entry, m.health.lookup name = some entry → entry.name = name

theorem follows_new : Follows .new [] where
  engines _ := rfl
  health _ := rfl
  names name entry h := by
    rw [show ComponentLifecycleManager.new.health = ∅ from rfl, AList.lookup_empty] at h
    cases h

namespace Follows

variable {m m' : ComponentLifecycleManager} {log : List Attempt} {c : Component}

/-- One more attempt: the entry of its component is as it ended, and so is the engine, if one
was opened. -/
theorem attempt {r : Except String Handle} {entry : ComponentHealth} (h : Follows m log)
    (hengines : m'.engines =
      match r with
      | .ok e => Function.update m.engines c (some e)
      | .error _ => m.engines)
    (hhealth : m'.health = m.health.insert c.name entry) (hname : entry.name = c.name)
    (hentry : (entry.healthy, entry.error) = verdict r) : Follows m' (log ++ [(c, r)]) where
  engines c' := by
    rw [opened_append, hengines]
    by_cases hc : c' = c
    · subst hc
      cases r with
      | ok e => simp [opened, Except.toOption]
      | error _ => simp [opened, Except.toOption, h.engines]
    · have hc' : ¬c = c' := fun heq => hc heq.symm
      cases r with
      | ok e => simp [opened, hc, hc', h.engines]
      | error _ => simp [opened, hc', h.engines]
  health c' := by
    rw [lastTry_append, hhealth]
    by_cases hc : c' = c
    · subst hc
      simp [lastTry, hentry]
    · have hc' : ¬c = c' := fun heq => hc heq.symm
      have hne : c'.name ≠ c.name := fun heq => hc (name_inj heq)
      rw [AList.lookup_insert_ne hne]
      simp [lastTry, hc', h.health]
  names name e he := by
    rw [hhealth] at he
    by_cases hn : name = c.name
    · subst hn
      rw [AList.lookup_insert] at he
      exact Option.some.inj he ▸ hname
    · rw [AList.lookup_insert_ne hn] at he
      exact h.names name e he

/-- A component is up in the map when its last attempt succeeded. -/
theorem isUp (h : Follows m log) (c : Component) : m.health.isUp c.name = running c log := by
  have hh := h.health c
  unfold HealthMap.isUp running
  cases hl : m.health.lookup c.name with
  | none =>
      rw [hl] at hh
      cases ht : lastTry c log with
      | none => rfl
      | some r => rw [ht] at hh; cases hh
  | some entry =>
      rw [hl] at hh
      cases ht : lastTry c log with
      | none => rw [ht] at hh; cases hh
      | some r =>
          rw [ht] at hh
          have hv := congrArg Prod.fst (Option.some.inj hh)
          cases r with
          | ok _ => exact hv
          | error _ => exact hv

theorem get (h : Follows m log) (c : Component) :
    m.get c = match opened c log with
      | some e => .ok e
      | none => .error (.componentNotReady c.name) := by
  unfold ComponentLifecycleManager.get
  have hengine := h.engines c
  cases hopened : opened c log with
  | some e => rw [hengine, hopened]
  | none => rw [hengine, hopened]

end Follows

/-! ## Parts of a run -/

/-- A part of a run that brings the log from `m` to `m'`, closing nothing. -/
structure Advances (m : ComponentLifecycleManager) (evs : List (Exchange Engines))
    (m' : ComponentLifecycleManager) : Prop where
  follows : ∀ log, Follows m log → Follows m' (log ++ attempts evs)
  published : published evs = announced (attempts evs)

namespace Advances

variable {m m₁ m' : ComponentLifecycleManager} {evs evs' : List (Exchange Engines)}

/-- Where nothing is tried and nothing announced. -/
theorem idle (hattempts : attempts evs = []) (hpublished : Lifecycle.published evs = []) :
    Advances m evs m where
  follows log h := by rwa [hattempts, List.append_nil]
  published := by rw [hattempts, hpublished]; rfl

theorem trans (h : Advances m evs m₁) (h' : Advances m₁ evs' m') : Advances m (evs ++ evs') m' where
  follows log hlog := by
    rw [attempts_append, ← List.append_assoc]
    exact h'.follows _ (h.follows log hlog)
  published := by simp [h.published, h'.published]

end Advances

variable {σ : Type} {R : Rel Engines σ} {s s' : σ} {evs : List (Exchange Engines)}
  {m m' : ComponentLifecycleManager} {out : Ended} {c : Component}

/-- What starting `c` does: one attempt, which decides the result. -/
structure Started (c : Component) (failed : String → Except ClawDBError Unit)
    (m : ComponentLifecycleManager) (evs : List (Exchange Engines)) (out : Ended) : Prop where
  attempt : ∃ r, attempts evs = [(c, r)] ∧ out.1 = match r with
    | .ok _ => .ok ()
    | .error e => failed e
  advances : Advances m evs out.2
  closed : closed evs = []

/-- Spec of the calls that start an engine. -/
theorem traced_startEngine {failed : String → Except ClawDBError Unit} (hc : c ≠ .reflect)
    (h : ExecTrace R (startEngine c failed m) s evs out s') : Started c failed m evs out := by
  obtain ⟨r, s₁, rest, rfl, -, h⟩ := traced_op.mp h
  cases r with
  | ok e =>
      obtain ⟨now, s₂, rest, rfl, -, h⟩ := traced_op.mp h
      obtain ⟨u, s₃, rest, rfl, -, h⟩ := traced_op.mp h
      obtain ⟨rfl, rfl, -⟩ := traced_pure.mp h
      refine ⟨⟨.ok e, rfl, rfl⟩, ⟨fun log hlog => ?_, ?_⟩, rfl⟩
      · exact hlog.attempt rfl rfl rfl rfl
      · simp [published, announced, attempts, attemptOf, hc]
  | error e =>
      obtain ⟨now, s₂, rest, rfl, -, h⟩ := traced_op.mp h
      obtain ⟨rfl, rfl, -⟩ := traced_pure.mp h
      refine ⟨⟨.error e, rfl, rfl⟩, ⟨fun log hlog => ?_, rfl⟩, rfl⟩
      exact hlog.attempt rfl rfl rfl rfl

/-- Spec of `start_reflect`. -/
theorem traced_startReflect (h : ExecTrace R (startReflect m) s evs m' s') :
    ∃ client, attempts evs = [(.reflect, .ok client)] ∧ Advances m evs m' ∧ closed evs = [] := by
  obtain ⟨client, s₁, rest, rfl, -, h⟩ := traced_op.mp h
  obtain ⟨now, s₂, rest, rfl, -, h⟩ := traced_op.mp h
  obtain ⟨rfl, rfl, -⟩ := traced_pure.mp h
  refine ⟨client, rfl, ⟨fun log hlog => ?_, rfl⟩, rfl⟩
  exact hlog.attempt (c := .reflect) rfl rfl rfl rfl

/-! ## `start_all` -/

/-- `startEngine` with an error that is passed on. -/
def startRequired (c : Component) : ComponentLifecycleManager → Prog Engines Ended :=
  startEngine c fun e => .error (.engine c e)

/-- Components started one after the other, as long as they open. -/
def startEach : List Component → ComponentLifecycleManager → Prog Engines Ended
  | [], m => .pure (.ok (), m)
  | c :: cs, m => andThen (startRequired c m) (startEach cs)

theorem andThen_assoc (p : Prog Engines Ended)
    (q r : ComponentLifecycleManager → Prog Engines Ended) :
    andThen (andThen p q) r = andThen p fun m => andThen (q m) r := by
  unfold andThen
  rw [bind_assoc]
  refine congrArg _ (funext fun out => ?_)
  obtain ⟨r', m⟩ := out
  cases r' <;> rfl

/-- The required components come first, in this order. -/
theorem startAll_eq (m : ComponentLifecycleManager) : startAll m =
    andThen (startEach [.guard, .core, .vector, .branch] m) fun m =>
      andThen (startSync m) fun m => do
        let m ← startReflect m
        return (.ok (), m) := by
  simp only [startEach, andThen_assoc]
  rfl

theorem traced_andThen {p : Prog Engines Ended} {q : ComponentLifecycleManager → Prog Engines Ended}
    (h : ExecTrace R (andThen p q) s evs out s') :
    (∃ e m, ExecTrace R p s evs (.error e, m) s' ∧ out = (.error e, m)) ∨
      ∃ first rest m s₁, evs = first ++ rest ∧ ExecTrace R p s first (.ok (), m) s₁ ∧
        ExecTrace R (q m) s₁ rest out s' := by
  obtain ⟨first, rest, out₁, s₁, rfl, hp, hq⟩ := traced_bind.mp h
  obtain ⟨r, m⟩ := out₁
  cases r with
  | ok u => exact .inr ⟨first, rest, m, s₁, rfl, hp, hq⟩
  | error e =>
      obtain ⟨rfl, rfl, rfl⟩ := traced_pure.mp hq
      rw [List.append_nil]
      exact .inl ⟨e, m, hp, rfl⟩

/-- The components of `pre` were opened, in order. -/
def Opens (pre : List Component) (log : List Attempt) : Prop :=
  ∃ handles : List Handle, handles.length = pre.length ∧
    log = (pre.zip handles).map fun p => (p.1, .ok p.2)

theorem Opens.nil : Opens [] [] := ⟨[], rfl, rfl⟩

theorem Opens.cons {pre : List Component} {log : List Attempt} (h : Opens pre log) (e : Handle) :
    Opens (c :: pre) ((c, .ok e) :: log) := by
  obtain ⟨handles, hlen, rfl⟩ := h
  exact ⟨e :: handles, by simp [hlen], rfl⟩

/-- Either one component does not open, and none after it is tried, or all of them open. -/
theorem traced_startEach {cs : List Component} (hcs : .reflect ∉ cs)
    (h : ExecTrace R (startEach cs m) s evs out s') :
    Advances m evs out.2 ∧ closed evs = [] ∧
      ((out.1 = .ok () ∧ Opens cs (attempts evs)) ∨
        ∃ pre c post e log, cs = pre ++ c :: post ∧ Opens pre log ∧
          attempts evs = log ++ [(c, .error e)] ∧ out.1 = .error (.engine c e)) := by
  induction cs generalizing m s evs with
  | nil =>
      obtain ⟨rfl, rfl, -⟩ := traced_pure.mp h
      exact ⟨.idle rfl rfl, rfl, .inl ⟨rfl, .nil⟩⟩
  | cons c cs ih =>
      have hc : c ≠ .reflect := fun heq => hcs (heq ▸ List.mem_cons_self)
      have hrest : .reflect ∉ cs := fun hmem => hcs (List.mem_cons_of_mem _ hmem)
      rcases traced_andThen h with ⟨e, m', hfirst, rfl⟩ | ⟨first, rest, m', s₁, rfl, hfirst, h⟩
      · obtain ⟨⟨r, hr, hout⟩, hadv, hclosed⟩ := traced_startEngine hc hfirst
        refine ⟨hadv, hclosed, .inr ?_⟩
        cases r with
        | ok e' => cases hout
        | error e' => exact ⟨[], c, cs, e', [], rfl, .nil, hr, hout⟩
      · obtain ⟨⟨r, hr, hout⟩, hadv, hclosed⟩ := traced_startEngine hc hfirst
        obtain ⟨hadv', hclosed', hend⟩ := ih hrest h
        refine ⟨hadv.trans hadv', by rw [closed_append, hclosed, hclosed']; rfl, ?_⟩
        cases r with
        | error e' => cases hout
        | ok e' =>
            rw [attempts_append, hr]
            rcases hend with ⟨hok, hopens⟩ | ⟨pre, c', post, e, log, rfl, hopens, hlog, herr⟩
            · exact .inl ⟨hok, hopens.cons e'⟩
            · rw [hlog]
              exact .inr ⟨c :: pre, c', post, e, _, rfl, hopens.cons e', rfl, herr⟩

/-- How `start_all` ends: all four required components are open, the sync engine was tried and
the client made; or one of the four did not open, and nothing after it was tried. -/
inductive StartedAll : List Attempt → Except ClawDBError Unit → Prop where
  | all {log : List Attempt} {sync : Except String Handle} {client : Handle} :
      Opens [.guard, .core, .vector, .branch] log →
      StartedAll (log ++ [(.sync, sync), (.reflect, .ok client)]) (.ok ())
  | stopped {pre post : List Component} {c : Component} {log : List Attempt} {e : String} :
      [.guard, .core, .vector, .branch] = pre ++ c :: post → Opens pre log →
      StartedAll (log ++ [(c, .error e)]) (.error (.engine c e))

/-- Spec of `start_all`. -/
theorem traced_startAll (h : ExecTrace R (startAll m) s evs out s') :
    Advances m evs out.2 ∧ closed evs = [] ∧ StartedAll (attempts evs) out.1 := by
  rw [startAll_eq] at h
  rcases traced_andThen h with ⟨e, m', hfirst, rfl⟩ | ⟨first, rest, m₁, s₁, rfl, hfirst, h⟩
  · obtain ⟨hadv, hclosed, hend⟩ := traced_startEach (by decide) hfirst
    refine ⟨hadv, hclosed, ?_⟩
    rcases hend with ⟨hok, -⟩ | ⟨pre, c, post, e', log, hpre, hopens, hlog, herr⟩
    · cases hok
    · rw [hlog, herr]
      exact .stopped hpre hopens
  · obtain ⟨hadv, hclosed, hend⟩ := traced_startEach (by decide) hfirst
    rcases hend with ⟨-, hopens⟩ | ⟨pre, c, post, e', log, -, -, -, herr⟩
    · rcases traced_andThen h with ⟨e, m', hsync, rfl⟩ | ⟨second, rest, m₂, s₂, rfl, hsync, h⟩
      · obtain ⟨⟨r, -, hout⟩, -, -⟩ := traced_startEngine (by decide) hsync
        cases r <;> cases hout
      · obtain ⟨⟨r, hr, -⟩, hadv', hclosed'⟩ := traced_startEngine (by decide) hsync
        obtain ⟨third, last, m₃, s₃, rfl, hreflect, h⟩ := traced_bind.mp h
        obtain ⟨client, hclient, hadv'', hclosed''⟩ := traced_startReflect hreflect
        obtain ⟨rfl, rfl, -⟩ := traced_pure.mp h
        refine ⟨hadv.trans (hadv'.trans (hadv''.trans (.idle rfl rfl))), ?_, ?_⟩
        · simp only [closed_append, hclosed, hclosed', hclosed'']
          rfl
        · simp only [attempts_append, hr, hclient]
          exact .all hopens
    · cases herr

/-! ## `stop_all` -/

/-- The engines in the order in which they are stopped. -/
def stopOrder : List Component := [.sync, .branch, .vector, .core, .guard]

/-- The engine of `c`, if there is one. -/
def holding (m : ComponentLifecycleManager) (c : Component) : Option (Component × Handle) :=
  (m.engines c).map fun h => (c, h)

/-- What is asked of the engine of `c` to stop it: the guard writes its audit log first. -/
def stopRequests (m : ComponentLifecycleManager) (c : Component) : List Op :=
  match m.engines c with
  | some h => if c = .guard then [.flushAuditLog h, .close c h] else [.close c h]
  | none => []

/-- A part of a run that stops the components `cs`, and does nothing to the manager. -/
structure Stops (m : ComponentLifecycleManager) (cs : List Component)
    (evs : List (Exchange Engines)) : Prop where
  requests : evs.map Sigma.fst = cs.flatMap (stopRequests m)
  closed : closed evs = cs.filterMap (holding m)
  attempts : attempts evs = []
  published : published evs = []

theorem Stops.nil : Stops m [] [] := ⟨rfl, rfl, rfl, rfl⟩

theorem Stops.append {cs cs' : List Component} {evs evs' : List (Exchange Engines)}
    (h : Stops m cs evs) (h' : Stops m cs' evs') : Stops m (cs ++ cs') (evs ++ evs') where
  requests := by rw [List.map_append, h.requests, h'.requests, List.flatMap_append]
  closed := by rw [closed_append, h.closed, h'.closed, List.filterMap_append]
  attempts := by rw [attempts_append, h.attempts, h'.attempts]; rfl
  published := by rw [published_append, h.published, h'.published]; rfl

theorem Stops.idle {cs : List Component} (h : Stops m cs evs) : Advances m evs m :=
  .idle h.attempts h.published

/-- A component that is not there has nothing to stop. -/
theorem Stops.none (hm : m.engines c = none) : Stops m [c] [] := by
  have hrequests : stopRequests m c = [] := by simp [stopRequests, hm]
  have hholding : holding m c = .none := by simp [holding, hm]
  refine ⟨?_, ?_, rfl, rfl⟩
  · simp [hrequests]
  · simp [hholding, Lifecycle.closed]

theorem traced_closeEngine {u : Unit} (hc : c ≠ .guard)
    (h : ExecTrace R (closeEngine c m) s evs u s') : Stops m [c] evs := by
  unfold closeEngine at h
  cases hm : m.engines c with
  | none =>
      rw [hm] at h
      obtain ⟨rfl, -, -⟩ := traced_pure.mp h
      exact .none hm
  | some e =>
      rw [hm] at h
      obtain ⟨r, s₁, rest, rfl, -, h⟩ := traced_op.mp h
      obtain ⟨rfl, -, -⟩ := traced_pure.mp h
      exact ⟨by simp [stopRequests, hm, hc], by simp [holding, hm, closed], rfl, rfl⟩

theorem traced_closeGuard {u : Unit} (h : ExecTrace R (closeGuard m) s evs u s') :
    Stops m [.guard] evs := by
  unfold closeGuard at h
  cases hm : m.engines .guard with
  | none =>
      rw [hm] at h
      obtain ⟨rfl, -, -⟩ := traced_pure.mp h
      exact .none hm
  | some e =>
      rw [hm] at h
      obtain ⟨r, s₁, rest, rfl, -, h⟩ := traced_op.mp h
      obtain ⟨r', s₂, rest, rfl, -, h⟩ := traced_op.mp h
      obtain ⟨rfl, -, -⟩ := traced_pure.mp h
      exact ⟨by simp [stopRequests, hm], by simp [holding, hm, closed], rfl, rfl⟩

/-- Spec of `stop_all`: every engine there is is told to close, whatever the others reply. -/
theorem traced_stopAll {r : Except ClawDBError Unit} (h : ExecTrace R (stopAll m) s evs r s') :
    r = .ok () ∧ Stops m stopOrder evs := by
  obtain ⟨evs₁, rest, u₁, s₁, rfl, h₁, h⟩ := traced_bind.mp h
  obtain ⟨evs₂, rest, u₂, s₂, rfl, h₂, h⟩ := traced_bind.mp h
  obtain ⟨evs₃, rest, u₃, s₃, rfl, h₃, h⟩ := traced_bind.mp h
  obtain ⟨evs₄, rest, u₄, s₄, rfl, h₄, h⟩ := traced_bind.mp h
  obtain ⟨evs₅, rest, u₅, s₅, rfl, h₅, h⟩ := traced_bind.mp h
  obtain ⟨rfl, rfl, -⟩ := traced_pure.mp h
  have hfour := (traced_closeEngine (by decide) h₁).append
    ((traced_closeEngine (by decide) h₂).append
      ((traced_closeEngine (by decide) h₃).append (traced_closeEngine (by decide) h₄)))
  have hall := hfour.append ((traced_closeGuard h₅).append .nil)
  refine ⟨rfl, ?_⟩
  simpa [stopOrder] using hall

/-! ## Runs -/

/-- Spec of `restart_component`. -/
theorem traced_restartComponent {name : String}
    (h : ExecTrace R (restartComponent name m) s evs out s') :
    Advances m evs out.2 ∧ closed evs = [] := by
  have hstart : ∀ {c failed}, c ≠ .reflect → ExecTrace R (startEngine c failed m) s evs out s' →
      Advances m evs out.2 ∧ closed evs = [] := by
    intro c failed hc h
    have hstarted : Started c failed m evs out := traced_startEngine hc h
    exact ⟨hstarted.advances, hstarted.closed⟩
  unfold restartComponent at h
  split_ifs at h
  · exact hstart (by decide) h
  · exact hstart (by decide) h
  · exact hstart (by decide) h
  · exact hstart (by decide) h
  · exact hstart (by decide) h
  · obtain ⟨first, rest, m', s₁, rfl, hreflect, h⟩ := traced_bind.mp h
    obtain ⟨client, -, hadv, hclosed⟩ := traced_startReflect hreflect
    obtain ⟨rfl, rfl, -⟩ := traced_pure.mp h
    rw [List.append_nil]
    exact ⟨hadv, hclosed⟩
  · obtain ⟨rfl, rfl, -⟩ := traced_pure.mp h
    exact ⟨.idle rfl rfl, rfl⟩

/-- A call advances the log, or it stops what there is. -/
theorem Call.traced {c : Call} (h : ExecTrace R (c.run m) s evs out s') :
    Advances m evs out.2 ∧ (closed evs = [] ∨ (out.2 = m ∧ Stops m stopOrder evs)) := by
  cases c with
  | startAll =>
      obtain ⟨hadv, hclosed, -⟩ := traced_startAll h
      exact ⟨hadv, .inl hclosed⟩
  | restartComponent name =>
      obtain ⟨hadv, hclosed⟩ := traced_restartComponent h
      exact ⟨hadv, .inl hclosed⟩
  | stopAll =>
      obtain ⟨first, rest, r, s₁, rfl, hstop, h⟩ := traced_bind.mp h
      obtain ⟨rfl, rfl, -⟩ := traced_pure.mp h
      rw [List.append_nil]
      obtain ⟨-, hstops⟩ := traced_stopAll hstop
      exact ⟨hstops.idle, .inr ⟨rfl, hstops⟩⟩

variable {calls : List Call} {rs : List (Except ClawDBError Unit)}

/-- Every run keeps the manager in step with its log. -/
theorem traced_runCalls (h : ExecTrace R (runCalls calls m) s evs (rs, m') s') :
    Advances m evs m' := by
  induction calls generalizing m s evs rs with
  | nil =>
      obtain ⟨rfl, heq, -⟩ := traced_pure.mp h
      obtain ⟨-, rfl⟩ := Prod.mk.inj heq
      exact .idle rfl rfl
  | cons c calls ih =>
      obtain ⟨first, rest, out, s₁, rfl, hcall, h⟩ := traced_bind.mp h
      obtain ⟨second, last, ⟨more, m₁⟩, s₂, rfl, hrest, h⟩ := traced_bind.mp h
      obtain ⟨rfl, heq, rfl⟩ := traced_pure.mp h
      obtain ⟨-, rfl⟩ := Prod.mk.inj heq
      rw [List.append_nil]
      exact (Call.traced hcall).1.trans (ih hrest)

theorem follows_runCalls (h : ExecTrace R (runCalls calls .new) s evs (rs, m) s') :
    Follows m (attempts evs) :=
  (traced_runCalls h).follows [] follows_new

end ClawDB.Lifecycle
