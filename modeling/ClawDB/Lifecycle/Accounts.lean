/-
# `Lifecycle.Accounts` — readiness, and what becomes of the engines

Results over every run of the manager.  The report is ready exactly when the last attempt at
each required component succeeded, and it names those for which it did not, in the order of
`required_components`; `start_all` returns `Ok` exactly when the manager is ready after it.

An engine that `start_all` or a restart replaces is forgotten without being closed: `stop_all`
closes the engines that were opened last, and no others (`displaced_open`).  This needs engines
to be told apart, so that here a handle is never given out twice (`sem`).

A query asks the manager for its components; one that was ready once answers all of them from
then on, except for the sync engine (`execute_after_startAll`).
-/
import ClawDB.Lifecycle.Runs

namespace ClawDB.Lifecycle

open Effect Prog
open Planning (Component)

variable {σ : Type} {R : Rel Engines σ} {s s' : σ} {evs evs' : List (Exchange Engines)}
  {m m' : ComponentLifecycleManager} {c : Component} {log : List Attempt}

/-! ## Reports -/

/-- `required_components`, as components. -/
def required : List Component := [.core, .vector, .guard, .branch]

theorem requiredComponents_eq : HealthReport.requiredComponents = required.map Component.name := rfl

/-- The required components are running. -/
def Ready (log : List Attempt) : Prop := ∀ c ∈ required, running c log = true

instance (log : List Attempt) : Decidable (Ready log) :=
  inferInstanceAs (Decidable (∀ c ∈ required, _))

/-- What a report says of a manager with this log. -/
structure Reports (report : HealthReport) (log : List Attempt) : Prop where
  isReady : report.isReady = true ↔ Ready log
  overall : report.overall = if Ready log then .healthy else
    .unhealthy ("components down: " ++
      ", ".intercalate ((required.filter fun c => !running c log).map Component.name))

theorem Follows.allUp (h : Follows m log) :
    HealthReport.requiredComponents.all m.health.isUp = true ↔ Ready log := by
  rw [requiredComponents_eq, List.all_map, List.all_eq_true]
  constructor
  · intro hall c hc
    have hup := hall c hc
    rwa [Function.comp_apply, h.isUp c] at hup
  · intro hready c hc
    rw [Function.comp_apply, h.isUp c]
    exact hready c hc

theorem Follows.failing (h : Follows m log) :
    (HealthReport.requiredComponents.filter fun name => !m.health.isUp name) =
      (required.filter fun c => !running c log).map Component.name := by
  rw [requiredComponents_eq, List.filter_map]
  refine congrArg _ (List.filter_congr fun c _ => ?_)
  rw [Function.comp_apply, h.isUp c]

/-- Spec of `health_report`. -/
theorem traced_healthReport {version : String} {report : HealthReport} (hm : Follows m log)
    (h : ExecTrace R (healthReport version m) s evs report s') : Reports report log := by
  obtain ⟨checkedAt, s₁, rest, rfl, -, h⟩ := traced_op.mp h
  obtain ⟨uptimeSecs, s₂, rest, rfl, -, h⟩ := traced_op.mp h
  obtain ⟨rfl, rfl, -⟩ := traced_pure.mp h
  refine ⟨hm.allUp, ?_⟩
  by_cases hready : Ready log
  · rw [if_pos hready, if_pos (hm.allUp.mpr hready)]
  · have hnot : ¬HealthReport.requiredComponents.all m.health.isUp = true :=
      fun h => hready (hm.allUp.mp h)
    rw [if_neg hready, if_neg hnot, hm.failing]

/-- What the accessor of `c` returns. -/
def accessor (c : Component) (log : List Attempt) : Except ClawDBError Handle :=
  match opened c log with
  | some e => .ok e
  | none => .error (.componentNotReady c.name)

/-- In every run, whatever the engines reply: an accessor returns the engine that was opened
last, a report is about how the last attempts ended, and the bus is told of the successes but the
reflect client's, in order, and of nothing else. -/
theorem manager_of_attempts (version : String) (calls : List Call)
    (rs : List (Except ClawDBError Unit)) (h : ExecTrace R (runCalls calls .new) s evs (rs, m) s') :
    (∀ c, m.get c = accessor c (attempts evs)) ∧
      (∀ c, m.health.isUp c.name = running c (attempts evs)) ∧
      (∀ t evs' report t', ExecTrace R (healthReport version m) t evs' report t' →
        Reports report (attempts evs)) ∧
      published evs = announced (attempts evs) := by
  have hfollows : Follows m (attempts evs) := follows_runCalls h
  refine ⟨hfollows.get, hfollows.isUp, ?_, (traced_runCalls h).published⟩
  intro t evs' report t' hreport
  exact traced_healthReport hfollows hreport

/-- Engines that open, but for the sync engine, and the core from the fifth handle on; they do
not close in time. -/
def deliver : Handler Engines (List Handle)
  | .openEngine c, drawn =>
      if c = .sync then (.error "unreachable", drawn)
      else if c = .core ∧ 4 < drawn.length then (.error "disk full", drawn)
      else (.ok drawn.length, drawn.length :: drawn)
  | .newReflectClient, drawn => (drawn.length, drawn.length :: drawn)
  | .close .., drawn => (.error "timed out", drawn)
  | .flushAuditLog _, drawn => (.ok (), drawn)
  | .publish _, drawn => ((), drawn)
  | .now, drawn | .uptimeSecs, drawn => (0, drawn)

/-- How a run on these engines ends. -/
def delivered (calls : List Call) :
    (List (Except ClawDBError Unit) × ComponentLifecycleManager) × List Handle :=
  (runCalls calls .new).run deliver []

/-- The core is restarted, and does not open: it is down, and the engine it had is still
handed out. -/
theorem manager_of_restart :
    (delivered [.startAll, .restartComponent "core"]).1.2.get .core = .ok 1 ∧
      (delivered [.startAll, .restartComponent "core"]).1.2.health.isUp "core" = false := by
  obtain ⟨hget, hup, -, -⟩ := manager_of_attempts "0.1.0" [.startAll, .restartComponent "core"]
    (delivered [.startAll, .restartComponent "core"]).1.1
    (traced_events deliver (runCalls [.startAll, .restartComponent "core"] .new) [])
  exact ⟨(hget .core).trans rfl, (hup .core).trans rfl⟩

/-! ## `start_all` after any run -/

theorem lastTry_opens {pre : List Component} (h : Opens pre log) :
    (c ∈ pre → ∃ e, lastTry c log = some (.ok e)) ∧ (c ∉ pre → lastTry c log = none) := by
  obtain ⟨handles, hlen, rfl⟩ := h
  induction pre generalizing handles with
  | nil => exact ⟨fun hc => (nomatch hc), fun _ => by simp [lastTry]⟩
  | cons c' pre ih =>
      cases handles with
      | nil => cases hlen
      | cons e handles =>
          have hlen' : handles.length = pre.length := Nat.succ.inj hlen
          obtain ⟨hin, hout⟩ := ih handles hlen'
          rw [List.zip_cons_cons, List.map_cons]
          unfold lastTry
          constructor
          · intro hc
            by_cases hmem : c ∈ pre
            · obtain ⟨e', he'⟩ := hin hmem
              exact ⟨e', by rw [he']; rfl⟩
            · have heq : c = c' := (List.mem_cons.mp hc).resolve_right hmem
              exact ⟨e, by rw [hout hmem, if_pos heq.symm]; rfl⟩
          · intro hc
            have hne : ¬c' = c := fun heq => hc (heq ▸ List.mem_cons_self)
            have hmem : c ∉ pre := fun hmem => hc (List.mem_cons_of_mem _ hmem)
            rw [hout hmem, if_neg hne]
            rfl

theorem running_append_opens {pre : List Component} {before : List Attempt} (h : Opens pre log)
    (hc : c ∈ pre) : running c (before ++ log) = true := by
  obtain ⟨e, he⟩ := (lastTry_opens h).1 hc
  unfold running
  rw [lastTry_append, he]
  rfl

/-- The four that `start_all` insists on are the required ones. -/
theorem mem_required : c ∈ required ↔ c ∈ [Component.guard, .core, .vector, .branch] := by
  cases c <;> decide

/-- `start_all` succeeds when the manager is ready after it. -/
theorem StartedAll.ok_iff {before : List Attempt} {r : Except ClawDBError Unit}
    (h : StartedAll log r) : r = .ok () ↔ Ready (before ++ log) := by
  cases h with
  | @all log sync client hopens =>
      refine ⟨fun _ c hc => ?_, fun _ => rfl⟩
      have hother : lastTry c [(.sync, sync), (.reflect, .ok client)] = none := by
        cases c <;> first | rfl | exact absurd hc (by decide)
      have hrun : running c (before ++ log) = true :=
        running_append_opens hopens (mem_required.mp hc)
      unfold running at hrun ⊢
      rw [← List.append_assoc, lastTry_append, hother]
      exact hrun
  | @stopped pre post c log e hpre hopens =>
      refine ⟨fun hok => (nomatch hok), fun hready => ?_⟩
      have hc : c ∈ required := by
        rw [mem_required, hpre]
        exact List.mem_append_right _ List.mem_cons_self
      have hrun := hready c hc
      unfold running at hrun
      rw [← List.append_assoc, lastTry_append] at hrun
      simp [lastTry, Option.any, Except.toBool] at hrun

/-- Whatever was run before it, `start_all` tries the four required components in dependency
order and stops at the first that does not open, whose error it returns; the sync engine may
fail, and the client is made last.  It returns `Ok` exactly when every report is ready from
then on until the next call.  Nothing that it opened is closed when it fails. -/
theorem startAll_ready (version : String) (calls : List Call)
    (rs : List (Except ClawDBError Unit)) (t : σ) (r : Except ClawDBError Unit)
    (hrun : ExecTrace R (runCalls calls .new) t evs (rs, m) s)
    (h : ExecTrace R (startAll m) s evs' (r, m') s') :
    StartedAll (attempts evs') r ∧ closed evs' = [] ∧
      (∀ c, m'.get c = accessor c (attempts evs ++ attempts evs')) ∧
      ∀ u evs'' report u', ExecTrace R (healthReport version m') u evs'' report u' →
        (r = .ok () ↔ report.isReady = true) := by
  obtain ⟨hadv, hclosed, hstarted⟩ := traced_startAll h
  have hfollows : Follows m' (attempts evs ++ attempts evs') :=
    hadv.follows _ (follows_runCalls hrun)
  refine ⟨hstarted, hclosed, hfollows.get, ?_⟩
  intro u evs'' report u' hreport
  exact hstarted.ok_iff.trans (traced_healthReport hfollows hreport).isReady.symm

/-- A second `start_all`, in which the core does not open any more. -/
theorem startAll_ready_again : StartedAll
    (attempts ((startAll (delivered [.startAll]).1.2).events deliver (delivered [.startAll]).2))
    (.error (.engine .core "disk full")) :=
  (startAll_ready "0.1.0" [.startAll] (delivered [.startAll]).1.1 [] _
    (traced_events deliver (runCalls [.startAll] .new) [])
    (traced_events deliver (startAll (delivered [.startAll]).1.2) (delivered [.startAll]).2)).1

/-! ## What becomes of the engines -/

/-- The handles given out so far are in the state, and none is given out twice. -/
def sem : Prog.Rel Engines (List Handle)
  | .openEngine _, drawn => fun r drawn' => match r with
      | .ok h => h ∉ drawn ∧ drawn' = h :: drawn
      | .error _ => drawn' = drawn
  | .newReflectClient, drawn => fun h drawn' => h ∉ drawn ∧ drawn' = h :: drawn
  | .close .., drawn | .flushAuditLog _, drawn | .publish _, drawn | .now, drawn
  | .uptimeSecs, drawn => fun _ drawn' => drawn' = drawn

/-- The handles that attempts were given. -/
def handles (log : List Attempt) : List Handle := log.filterMap fun a => a.2.toOption

@[simp] theorem handles_append (log log' : List Attempt) :
    handles (log ++ log') = handles log ++ handles log' :=
  List.filterMap_append

theorem sem_drawn {o : Op} {r : o.Ret} {drawn drawn' : List Handle} (h : sem o drawn r drawn') :
    drawn' = (handles (attempts [⟨o, r⟩])).reverse ++ drawn ∧ (drawn.Nodup → drawn'.Nodup) := by
  cases o with
  | openEngine c =>
      cases r with
      | ok e =>
          obtain ⟨hnew, rfl⟩ := h
          exact ⟨rfl, fun hnodup => List.nodup_cons.mpr ⟨hnew, hnodup⟩⟩
      | error _ => exact ⟨h, fun hnodup => h ▸ hnodup⟩
  | newReflectClient =>
      obtain ⟨hnew, rfl⟩ := h
      exact ⟨rfl, fun hnodup => List.nodup_cons.mpr ⟨hnew, hnodup⟩⟩
  | close c e => exact ⟨h, fun hnodup => h ▸ hnodup⟩
  | flushAuditLog e => exact ⟨h, fun hnodup => h ▸ hnodup⟩
  | publish event => exact ⟨h, fun hnodup => h ▸ hnodup⟩
  | now => exact ⟨h, fun hnodup => h ▸ hnodup⟩
  | uptimeSecs => exact ⟨h, fun hnodup => h ▸ hnodup⟩

theorem attempts_cons (ev : Exchange Engines) (evs : List (Exchange Engines)) :
    attempts (ev :: evs) = attempts [ev] ++ attempts evs :=
  attempts_append [ev] evs

theorem traced_drawn {α : Type} {p : Prog Engines α} {a : α} {drawn drawn' : List Handle}
    (h : ExecTrace sem p drawn evs a drawn') :
    drawn' = (handles (attempts evs)).reverse ++ drawn ∧ (drawn.Nodup → drawn'.Nodup) := by
  induction h with
  | pure a s => exact ⟨rfl, id⟩
  | @op o k s s₁ s₂ r a evs hr _ ih =>
      obtain ⟨hfirst, hnodup⟩ := sem_drawn hr
      obtain ⟨hrest, hnodup'⟩ := ih
      refine ⟨?_, fun h => hnodup' (hnodup h)⟩
      rw [hrest, hfirst, attempts_cons ⟨o, r⟩ evs, handles_append, List.reverse_append,
        List.append_assoc]

/-- The engines opened in a run can be told apart. -/
theorem handles_nodup {α : Type} {p : Prog Engines α} {a : α} {drawn' : List Handle}
    (h : ExecTrace sem p [] evs a drawn') : (handles (attempts evs)).Nodup := by
  obtain ⟨hdrawn, hnodup⟩ := traced_drawn h
  rw [List.append_nil] at hdrawn
  rw [← List.nodup_reverse, ← hdrawn]
  exact hnodup List.nodup_nil

theorem mem_handles_of_opened {e : Handle} (h : opened c log = some e) : e ∈ handles log := by
  induction log with
  | nil => cases h
  | cons a log ih =>
      obtain ⟨c', r⟩ := a
      unfold opened at h
      show e ∈ handles ([(c', r)] ++ log)
      rw [handles_append]
      rcases Option.or_eq_some_iff.mp h with hlog | ⟨-, hhead⟩
      · exact List.mem_append_right _ (ih hlog)
      · by_cases hc : c' = c
        · rw [if_pos hc] at hhead
          refine List.mem_append_left _ ?_
          cases r with
          | ok e' => obtain rfl := Option.some.inj hhead; exact List.mem_cons_self
          | error _ => cases hhead
        · rw [if_neg hc] at hhead
          cases hhead

/-- An engine belongs to one component. -/
theorem opened_inj {c c' : Component} {e : Handle} (hnodup : (handles log).Nodup)
    (h : opened c log = some e) (h' : opened c' log = some e) : c = c' := by
  induction log with
  | nil => cases h
  | cons a log ih =>
      obtain ⟨d, r⟩ := a
      rw [show (d, r) :: log = [(d, r)] ++ log from rfl, handles_append] at hnodup
      obtain ⟨-, hrest, -⟩ := List.nodup_append.mp hnodup
      have hfirst : ∀ {b : Component}, opened b log ≠ some e → opened b ((d, r) :: log) = some e →
          d = b ∧ e ∈ handles [(d, r)] := by
        intro b hlog hb
        unfold opened at hb
        rcases Option.or_eq_some_iff.mp hb with hb | ⟨-, hb⟩
        · exact absurd hb hlog
        · by_cases hd : d = b
          · rw [if_pos hd] at hb
            exact ⟨hd, by simp [handles, hb]⟩
          · rw [if_neg hd] at hb
            cases hb
      have hdisjoint := List.disjoint_of_nodup_append hnodup
      by_cases hl : opened c log = some e <;> by_cases hl' : opened c' log = some e
      · exact ih hrest hl hl'
      · exact absurd (mem_handles_of_opened hl) (hdisjoint (hfirst hl' h').2)
      · exact absurd (mem_handles_of_opened hl') (hdisjoint (hfirst hl h).2)
      · exact (hfirst hl h).1.symm.trans (hfirst hl' h').1

/-- An engine that another has replaced is not the last one opened again, of any component. -/
theorem opened_ne_of_displaced {pre post : List Attempt} {c c' : Component} {e e' : Handle}
    (hnodup : (handles (pre ++ (c, .ok e') :: post)).Nodup) (hpre : opened c pre = some e) :
    opened c' (pre ++ (c, .ok e') :: post) ≠ some e := by
  intro heq
  have hmem : e ∈ handles pre := mem_handles_of_opened hpre
  rw [handles_append] at hnodup
  have hnot : e ∉ handles ((c, .ok e') :: post) := List.disjoint_of_nodup_append hnodup hmem
  rw [opened_append] at heq
  rcases Option.or_eq_some_iff.mp heq with hlater | ⟨hnone, hearlier⟩
  · exact hnot (mem_handles_of_opened hlater)
  · -- opened before, and so it is an engine of `c`, which has another one since
    by_cases hc : c = c'
    · subst hc
      unfold opened at hnone
      rw [if_pos rfl, Option.or_eq_none_iff] at hnone
      cases hnone.2
    · obtain ⟨hearly, -⟩ := List.nodup_append.mp hnodup
      exact hc (opened_inj hearly hpre hearlier)

theorem attempts_of_prefix {pre : List (Exchange Engines)} {ev : Exchange Engines}
    {post : List (Exchange Engines)} (h : attempts (pre ++ ev :: post) = []) :
    attempts pre = [] := by
  rw [attempts_append] at h
  exact (List.append_eq_nil_iff.mp h).1

theorem mem_closed {e : Handle} {r : Except String Unit} (h : ⟨.close c e, r⟩ ∈ evs) :
    (c, e) ∈ closed evs :=
  List.mem_filterMap.mpr ⟨_, h, rfl⟩

/-- An engine that `stop_all` closes is the one opened last. -/
theorem opened_of_stops {cs : List Component} {pre post : List (Exchange Engines)} {e : Handle}
    {r : Except String Unit} (h : Stops m cs evs) (hm : Follows m log)
    (hevs : evs = pre ++ ⟨.close c e, r⟩ :: post) : opened c (log ++ attempts pre) = some e := by
  have hmem : (c, e) ∈ closed evs := by
    refine mem_closed (r := r) ?_
    rw [hevs]
    exact List.mem_append_right _ List.mem_cons_self
  rw [h.closed] at hmem
  obtain ⟨c', -, hholding⟩ := List.mem_filterMap.mp hmem
  obtain ⟨e', hengine, heq⟩ := Option.map_eq_some_iff.mp hholding
  obtain ⟨rfl, rfl⟩ := Prod.mk.inj heq
  have hpre : attempts pre = [] := attempts_of_prefix (hevs ▸ h.attempts)
  rw [hpre, List.append_nil, ← hm.engines]
  exact hengine

/-- At any time of a run, an engine that is closed is the one of its component. -/
theorem opened_of_close {calls : List Call} {rs : List (Except ClawDBError Unit)}
    {pre post : List (Exchange Engines)} {e : Handle} {r : Except String Unit}
    (h : ExecTrace R (runCalls calls m) s evs (rs, m') s') (hm : Follows m log)
    (hevs : evs = pre ++ ⟨.close c e, r⟩ :: post) : opened c (log ++ attempts pre) = some e := by
  induction calls generalizing m s evs rs pre log with
  | nil =>
      obtain ⟨rfl, -, -⟩ := traced_pure.mp h
      cases pre <;> cases hevs
  | cons call calls ih =>
      obtain ⟨first, rest, out, s₁, rfl, hcall, h⟩ := traced_bind.mp h
      obtain ⟨second, last, ⟨more, m₁⟩, s₂, rfl, hrest, h⟩ := traced_bind.mp h
      obtain ⟨rfl, heq, rfl⟩ := traced_pure.mp h
      obtain ⟨-, rfl⟩ := Prod.mk.inj heq
      rw [List.append_nil] at hevs
      obtain ⟨hadv, hkind⟩ := Call.traced hcall
      rcases split_append hevs with ⟨mid, hfirst, -⟩ | ⟨mid, hpre, hsecond⟩
      · rcases hkind with hnone | ⟨-, hstops⟩
        · have hmem : (c, e) ∈ closed first := by
            refine mem_closed (r := r) ?_
            rw [hfirst]
            exact List.mem_append_right _ List.mem_cons_self
          rw [hnone] at hmem
          cases hmem
        · exact opened_of_stops hstops hm hfirst
      · rw [hpre, attempts_append, ← List.append_assoc]
        exact ih hrest (hadv.follows _ hm) hsecond

/-- Stopping everything after any run: every engine there is is asked to close, the guard after
it was asked to flush its audit log, in the reverse of the order they depend on each other, and
whatever they reply the call succeeds.  An engine that was replaced in the run is never closed
after that: nobody but whoever got hold of it before can still close it. -/
theorem displaced_open (calls : List Call) (rs : List (Except ClawDBError Unit))
    (drawn drawn' : List Handle) (r : Except ClawDBError Unit)
    (hrun : ExecTrace sem (runCalls calls .new) [] evs (rs, m) drawn)
    (hstop : ExecTrace sem (stopAll m) drawn evs' r drawn') :
    r = .ok () ∧ evs'.map Sigma.fst = stopOrder.flatMap (stopRequests m) ∧
      (∀ c, m.engines c = opened c (attempts evs)) ∧
      ∀ pre c e e' post, evs ++ evs' = pre ++ ⟨.openEngine c, .ok e'⟩ :: post →
        opened c (attempts pre) = some e → ∀ c' r, ⟨.close c' e, r⟩ ∉ post := by
  have hfollows : Follows m (attempts evs) := follows_runCalls hrun
  obtain ⟨hr, hstops⟩ := traced_stopAll hstop
  refine ⟨hr, hstops.requests, hfollows.engines, ?_⟩
  intro pre c e e' post hevs hopened c' r' hmem
  obtain ⟨mid, tail, rfl⟩ := List.append_of_mem hmem
  have hnodup : (handles (attempts (evs ++ evs'))).Nodup := by
    rw [attempts_append, hstops.attempts, List.append_nil]
    exact handles_nodup hrun
  have hat : opened c' (attempts (pre ++ ⟨.openEngine c, .ok e'⟩ :: mid)) = some e := by
    have hclose : evs ++ evs' = (pre ++ ⟨.openEngine c, .ok e'⟩ :: mid) ++
        ⟨.close c' e, r'⟩ :: tail := by rw [hevs, List.append_assoc]; rfl
    rcases split_append hclose with ⟨rest, hfirst, -⟩ | ⟨rest, hpre, hsecond⟩
    · exact opened_of_close hrun follows_new hfirst
    · rw [hpre, attempts_append]
      exact opened_of_stops hstops hfollows hsecond
  have hlog : attempts (pre ++ ⟨.openEngine c, .ok e'⟩ :: mid) =
      attempts pre ++ (c, .ok e') :: attempts mid := by
    rw [attempts_append]
    rfl
  rw [hlog] at hat
  refine opened_ne_of_displaced ?_ hopened hat
  rw [hevs, ← List.cons_append, ← List.append_assoc, attempts_append, hlog,
    handles_append] at hnodup
  exact (List.nodup_append.mp hnodup).1

/-- The handle that comes next has not been given out. -/
def unused (_ : Op) (drawn : List Handle) : Bool := !drawn.contains drawn.length

theorem deliver_sem (o : Op) (drawn : List Handle) (h : unused o drawn = true) :
    sem o drawn (deliver o drawn).1 (deliver o drawn).2 := by
  have hnew : drawn.length ∉ drawn := by simpa [unused] using h
  cases o with
  | openEngine c =>
      by_cases hsync : c = .sync
      · simp [deliver, sem, hsync]
      · by_cases hfull : c = .core ∧ 4 < drawn.length
        · simp [deliver, sem, hfull]
        · simp [deliver, sem, hsync, hfull, hnew]
  | newReflectClient => exact ⟨hnew, rfl⟩
  | close c e => rfl
  | flushAuditLog e => rfl
  | publish event => rfl
  | now => rfl
  | uptimeSecs => rfl

/-- The vector engine is restarted before everything is stopped: the first one stays open. -/
theorem displaced_open_vector :
    (stopAll (delivered [.startAll, .restartComponent "vector"]).1.2).calls deliver
        (delivered [.startAll, .restartComponent "vector"]).2 =
      [.close .branch 3, .close .vector 5, .close .core 1, .flushAuditLog 0, .close .guard 0] := by
  obtain ⟨-, hrequests, -, -⟩ := displaced_open [.startAll, .restartComponent "vector"]
    (delivered [.startAll, .restartComponent "vector"]).1.1
    (delivered [.startAll, .restartComponent "vector"]).2 _ (.ok ())
    (traced_steady deliver_sem (p := runCalls [.startAll, .restartComponent "vector"] .new)
      (s := []) rfl)
    (traced_steady deliver_sem
      (p := stopAll (delivered [.startAll, .restartComponent "vector"]).1.2)
      (s := (delivered [.startAll, .restartComponent "vector"]).2) rfl)
  exact hrequests

/-! ## What a query finds -/

/-- What `start_all` opened when it succeeded. -/
theorem StartedAll.opened_isSome (h : StartedAll log (.ok ())) (hc : c ≠ .sync) :
    (opened c log).isSome := by
  cases h with
  | @all log sync client hopens =>
      by_cases hreflect : c = .reflect
      · subst hreflect
        simp [opened_append, opened, Except.toOption]
      · have hmem : c ∈ [Component.guard, .core, .vector, .branch] := by
          cases c <;> first | decide | exact absurd rfl hc | exact absurd rfl hreflect
        have hrun : running c ([] ++ log) = true := running_append_opens hopens hmem
        exact Lifecycle.opened_isSome (opened_of_running hrun)

section Queries

open Planning (Services Environs QueryError QueryStep QueryPlan QueryResult Outcome Rows leaf
  executeStep executeAll execute)
open Session (SessionContext)

variable {τ : Type} {Q : Rel Services τ} {t t' : τ} {qevs : List (Exchange Services)}

/-- A query's components are those of the manager. -/
def Answers (m : ComponentLifecycleManager) (Q : Rel Services τ) : Prop :=
  ∀ c t r t', Q (.component c) t r t' → r = (m.engines c).isSome

/-- A component is reported as not ready only if there is none. -/
def Absent (m : ComponentLifecycleManager) (e : QueryError) : Prop :=
  ∀ name, e = .componentNotReady name → ∃ c, name = c.name ∧ m.engines c = none

theorem absent_leaf (hQ : Answers m Q) {body : Prog Services (Except String Rows)}
    {accumulated rows : Rows} {e : QueryError}
    (h : ExecTrace Q (leaf c body accumulated) t qevs (.error e, rows) t') :
    Absent m e := by
  obtain ⟨up, t₁, rest, rfl, hup, h⟩ := traced_op.mp h
  have hup : up = (m.engines c).isSome := hQ c t up t₁ hup
  cases up with
  | true =>
      obtain ⟨r, -, hr⟩ := traced_map.mp h
      intro name hname
      cases r with
      | ok rows => cases (Prod.mk.inj hr).1
      | error message =>
          have he := Except.error.inj (Prod.mk.inj hr).1
          rw [hname] at he
          cases he
  | false =>
      obtain ⟨-, hr, -⟩ := traced_pure.mp h
      have he := Except.error.inj (Prod.mk.inj hr).1
      intro name hname
      rw [hname] at he
      refine ⟨c, QueryError.componentNotReady.inj he, ?_⟩
      cases hm : m.engines c with
      | none => rfl
      | some e => rw [hm] at hup; cases hup

/-- Components that do what they are asked, those that the manager has. -/
def answering (m : ComponentLifecycleManager) : Handler Services Unit
  | .component c, u => ((m.engines c).isSome, u)
  | o, u => (Planning.oblige o, u)

variable [Environs] [Crates]

mutual

theorem absent_executeStep (hQ : Answers m Q) {session : SessionContext} {rows : Rows}
    {e : QueryError} : ∀ (step : QueryStep) {accumulated : Rows} {t t' : τ}
      {qevs : List (Exchange Services)},
      ExecTrace Q (executeStep session step accumulated) t qevs (.error e, rows) t' → Absent m e
  | .guardCheck _, _, _, _, _, h => absent_leaf hQ h
  | .coreRead _, _, _, _, _, h => absent_leaf hQ h
  | .coreWrite _, _, _, _, _, h => absent_leaf hQ h
  | .vectorSearch .., _, _, _, _, h => absent_leaf hQ h
  | .vectorUpsert _, _, _, _, _, h => absent_leaf hQ h
  | .syncPush, _, _, _, _, h => absent_leaf hQ h
  | .syncPull, _, _, _, _, h => absent_leaf hQ h
  | .branchOp _, _, _, _, _, h => absent_leaf hQ h
  | .reflectJob _, _, _, _, _, h => absent_leaf hQ h
  | .parallel steps, _, _, _, _, h => absent_executeAll hQ steps h
  | .sequential steps, _, _, _, _, h => absent_executeAll hQ steps h

theorem absent_executeAll (hQ : Answers m Q) {session : SessionContext} {rows : Rows}
    {e : QueryError} : ∀ (steps : List QueryStep) {accumulated : Rows} {t t' : τ}
      {qevs : List (Exchange Services)},
      ExecTrace Q (executeAll session steps accumulated) t qevs (.error e, rows) t' → Absent m e
  | [], _, _, _, _, h => by
      obtain ⟨-, hr, -⟩ := traced_pure.mp h
      cases (Prod.mk.inj hr).1
  | step :: steps, _, _, _, _, h => by
      obtain ⟨first, rest, ⟨r, mid⟩, t₁, rfl, hstep, h⟩ := traced_bind.mp h
      cases r with
      | ok u => exact absent_executeAll hQ steps h
      | error e' =>
          obtain ⟨-, hr, -⟩ := traced_pure.mp h
          obtain rfl := Except.error.inj (Prod.mk.inj hr).1
          exact absent_executeStep hQ step hstep

end

/-- The error of a step is that of its last attempt. -/
theorem absent_tried (hQ : Answers m Q) {session : SessionContext} {step : QueryStep}
    {delays : List Nat} {accumulated rows : Rows} {failed : List (List (Exchange Services))}
    {last : List (Exchange Services)} {e : QueryError} {out : Outcome}
    (h : Tried Q (executeStep session step) (fun ms => Planning.call (.sleep ms))
      Environs.isTransient delays accumulated t qevs failed last out t')
    (hout : out = (.error e, rows)) : Absent m e := by
  induction h with
  | last ht => exact absent_executeStep hQ step (hout ▸ ht)
  | again _ _ _ _ ih => exact ih hout

theorem absent_runSteps (hQ : Answers m Q) {session : SessionContext} {steps : List QueryStep}
    {accumulated : Rows} {e : QueryError}
    (h : ExecTrace Q (Planning.runSteps session steps accumulated) t qevs (.error e) t') :
    Absent m e := by
  induction steps generalizing accumulated t qevs with
  | nil =>
      obtain ⟨-, hr, -⟩ := traced_pure.mp h
      cases hr
  | cons step steps ih =>
      obtain ⟨first, rest, ⟨r, mid⟩, t₁, rfl, hstep, h⟩ := traced_bind.mp h
      cases r with
      | ok u => exact ih h
      | error e' =>
          obtain ⟨_, _, _, _, -, -, h⟩ := traced_bind.mp h
          obtain ⟨-, hr, -⟩ := traced_pure.mp h
          obtain rfl := Except.error.inj hr
          obtain ⟨failed, last, htried⟩ := traced_retryWith hstep
          exact absent_tried hQ htried rfl

/-- Once `start_all` has succeeded, a query never fails for want of a component, whatever is
run on the manager after that and however it fails; unless the component is the sync engine,
and none was ever opened. -/
theorem execute_after_startAll (before after : List Call) (r r' : List (Except ClawDBError Unit))
    {s₁ s₂ s₃ : σ} {m₁ m₂ : ComponentLifecycleManager} {evs₁ evs₂ evs₃ : List (Exchange Engines)}
    (hbefore : ExecTrace R (runCalls before .new) s evs₁ (r, m₁) s₁)
    (hstart : ExecTrace R (startAll m₁) s₁ evs₂ (.ok (), m₂) s₂)
    (hafter : ExecTrace R (runCalls after m₂) s₂ evs₃ (r', m) s₃)
    (hQ : Answers m Q) (plan : QueryPlan) (session : SessionContext) (name : String)
    (h : ExecTrace Q (execute plan session) t qevs (.error (.componentNotReady name)) t') :
    name = "sync" ∧ opened .sync (attempts (evs₁ ++ evs₂ ++ evs₃)) = none := by
  have hfollows : Follows m (attempts (evs₁ ++ evs₂ ++ evs₃)) := by
    rw [attempts_append, attempts_append]
    exact (traced_runCalls hafter).follows _
      ((traced_startAll hstart).1.follows _ (follows_runCalls hbefore))
  have habsent : Absent m (.componentNotReady name) := by
    obtain ⟨run, rest, result, t₁, rfl, hrun, h⟩ := traced_bind.mp h
    cases result with
    | error e =>
        obtain ⟨-, hr, -⟩ := traced_pure.mp h
        obtain rfl := Except.error.inj hr
        exact absent_runSteps hQ hrun
    | ok rows =>
        obtain ⟨_, _, _, _, -, -, h⟩ := traced_bind.mp h
        obtain ⟨-, hr, -⟩ := traced_pure.mp h
        cases hr
  obtain ⟨c, rfl, hnone⟩ := habsent name rfl
  rw [hfollows.engines] at hnone
  by_cases hc : c = .sync
  · subst hc
    exact ⟨rfl, hnone⟩
  · have hsome : (opened c (attempts evs₂)).isSome :=
      (traced_startAll hstart).2.2.opened_isSome hc
    rw [attempts_append, attempts_append, opened_append, opened_append] at hnone
    obtain ⟨-, hnone⟩ := Option.or_eq_none_iff.mp hnone
    obtain ⟨hnone, -⟩ := Option.or_eq_none_iff.mp hnone
    rw [hnone] at hsome
    cases hsome

end Queries

open Planning (MemoryPlanner.plan execute assistant) in
attribute [local instance] Crates.sample Planning.Environs.sample in
/-- The sync engine did not open: a sync is not ready, and nothing else would be refused. -/
theorem execute_after_startAll_sync :
    opened .sync (attempts ((runCalls [] .new).events deliver [] ++
      (startAll .new).events deliver [] ++
      (runCalls [] (delivered [.startAll]).1.2).events deliver (delivered [.startAll]).2)) = none :=
  (execute_after_startAll [] [] [] [] (Q := (answering (delivered [.startAll]).1.2).rel)
    (traced_events deliver (runCalls [] .new) [])
    (traced_events deliver (startAll .new) [])
    (traced_events deliver (runCalls [] (delivered [.startAll]).1.2) (delivered [.startAll]).2)
    (fun _ _ _ _ h => h.1) (MemoryPlanner.plan 7 (.sync 2)) assistant "sync"
    (traced_events (answering (delivered [.startAll]).1.2)
      (execute (MemoryPlanner.plan 7 (.sync 2)) assistant) ())).2

end ClawDB.Lifecycle
