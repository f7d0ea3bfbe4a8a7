/-
# `Server.Shutdown` — how a run of the server begins and ends

`main` is followed stage by stage.  Between two of its operations the tasks move on, so what is
said of a stage fixes everything about the host but the phases, and of the phases only what the
tasks keep: a task that has ended stays ended.

`process_orderly` : no port is bound before every component is up, and no task serves before
every port is bound; the engine is closed only after the tasks were told to stop, and then only
when they are done with, when their time is over, or when one of the first two has panicked.

`process_succeeds` : the process succeeds just when it has written a certificate, or has stopped
cleanly; for servers that shut down gracefully.
-/
import ClawDB.Server.Process

namespace ClawDB.Process

open Effect

section Order

variable [ConfigCrates]

/-- The collection, where it had to be made. -/
def collection (config : ClawDBConfig) (made : Bool) : List Part :=
  if made then [.memoriesCollection config.workspaceId config.vector.defaultDimensions] else []

def allVectorParts (config : ClawDBConfig) (made : Bool) : List Part :=
  if config.vector.enabled then vectorParts config ++ collection config made else []

/-- The parts of a configuration, in the order they come up. -/
def parts (config : ClawDBConfig) (made : Bool) : List Part :=
  coreParts config ++ allVectorParts config made ++ otherParts config

/-- Every part of the configuration has come up. -/
def Whole (env : Env) (args : ServerArgs) (config : ClawDBConfig) (s : Host) : Prop :=
  loaded env args = .ok config ∧ args.generateSelfSignedCert = false ∧
    ∃ made, s.opened = parts config made

def Phase.Panicked (phase : Phase) : Prop := ∃ message, phase = .ended (.panicked message)

/-- The tasks are done with, or one whose end is awaited before another's has panicked. -/
def Settled (phase : Task → Phase) : Prop :=
  (∀ t, ∃ exit, phase t = .ended exit) ∨ ∃ t, t ≠ .metrics ∧ (phase t).Panicked

/-- Some task did not return as it should. -/
def Spoiled (phase : Task → Phase) : Prop :=
  ∃ t exit, exit ≠ .returned (.ok ()) ∧ phase t = .ended exit

/-- The order of things. -/
structure Orderly (env : Env) (args : ServerArgs) (s : Host) : Prop where
  bound : s.bound ≠ [] → ∃ config, Whole env args config s
  served : ∀ t, s.phase t ≠ .idle →
    ∃ config, Whole env args config s ∧ s.bound = ports args config
  closing : s.closing = true → s.cancelled = true ∧ (s.elapsed = true ∨ Settled s.phase)
  branchDown : s.branchDown = true → s.closing = true
  syncDown : s.syncDown = true → s.branchDown = true

/-- The certificate was asked for, and both of its files were written. -/
def Certified (env : Env) (args : ServerArgs) (s : Host) : Prop :=
  args.generateSelfSignedCert = true ∧
    ∃ config, loaded env args = .ok config ∧ s.written = certFiles config

/-- Every task returned in time without an error, and the engine is closed. -/
def Clean (s : Host) : Prop :=
  s.syncDown = true ∧ s.elapsed = false ∧ ∀ t, s.phase t = .ended (.returned (.ok ()))

end Order

/-! ## The phases -/

variable {servers : Servers}

/-- What the tasks keep of their phases, told to stop or not. -/
def Kept (servers : Servers) (c : Bool) (P : (Task → Phase) → Prop) : Prop :=
  ∀ phase t exit, P phase → phase t = .serving → servers t c exit →
    P (Function.update phase t (.ended exit))

/-- A task that has ended stays as it ended. -/
theorem update_ended {phase : Task → Phase} {t t' : Task} {exit exit' : Exit}
    (h : phase t' = .ended exit') (hserving : phase t = .serving) :
    Function.update phase t (.ended exit) t' = .ended exit' := by
  have hne : t' ≠ t := by
    rintro rfl
    cases h.symm.trans hserving
  rw [Function.update_of_ne hne, h]

theorem kept_true {c : Bool} : Kept servers c fun _ => True := fun _ _ _ _ _ _ => trivial

theorem kept_and {c : Bool} {P Q : (Task → Phase) → Prop} (hP : Kept servers c P)
    (hQ : Kept servers c Q) : Kept servers c fun phase => P phase ∧ Q phase :=
  fun phase t exit h hserving hexit =>
    ⟨hP phase t exit h.1 hserving hexit, hQ phase t exit h.2 hserving hexit⟩

theorem kept_panicked {c : Bool} {t : Task} : Kept servers c fun phase => (phase t).Panicked := by
  rintro phase t' exit ⟨message, h⟩ hserving -
  exact ⟨message, update_ended h hserving⟩

theorem kept_ended {c : Bool} {t : Task} {exit : Exit} :
    Kept servers c fun phase => phase t = .ended exit :=
  fun _ _ _ h hserving _ => update_ended h hserving

theorem kept_settled {c : Bool} : Kept servers c Settled := by
  rintro phase t' exit (hall | ⟨t, ht, message, h⟩) hserving -
  · refine .inl fun t => ?_
    obtain ⟨exit', h⟩ := hall t
    exact ⟨exit', update_ended h hserving⟩
  · exact .inr ⟨t, ht, message, update_ended h hserving⟩

theorem kept_spoiled {c : Bool} : Kept servers c Spoiled := by
  rintro phase t' exit ⟨t, exit', hne, h⟩ hserving -
  exact ⟨t, exit', hne, update_ended h hserving⟩

theorem kept_all_returned {c : Bool} :
    Kept servers c fun phase => ∀ t, phase t = .ended (.returned (.ok ())) :=
  fun _ _ _ h hserving _ t' => update_ended (h t') hserving

/-- No task has returned without an error, if the servers shut down gracefully. -/
def Busy (servers : Servers) (phase : Task → Phase) : Prop :=
  servers.Graceful → ∀ t, phase t ≠ .ended (.returned (.ok ()))

theorem kept_busy : Kept servers false (Busy servers) := by
  intro phase t exit h _ hexit hgraceful t' ht'
  by_cases he : t' = t
  · subst he
    rw [Function.update_self] at ht'
    obtain rfl := Phase.ended.inj ht'
    exact hgraceful t' hexit
  · rw [Function.update_of_ne he] at ht'
    exact h hgraceful t' ht'

theorem busy_idle : Busy servers fun _ => .idle := fun _ _ h => nomatch h

theorem Busy.spawn {phase : Task → Phase} (h : Busy servers phase) (t : Task) :
    Busy servers (Function.update phase t .serving) := by
  intro hgraceful t' ht'
  by_cases he : t' = t
  · subst he
    rw [Function.update_self] at ht'
    cases ht'
  · rw [Function.update_of_ne he] at ht'
    exact h hgraceful t' ht'

theorem joined_panicked {phase : Task → Phase} {t : Task} (h : (phase t).Panicked)
    (hsettled : Settled phase) : Settled phase ∧ Spoiled phase := by
  obtain ⟨message, h⟩ := h
  have hne : Exit.panicked message ≠ .returned (.ok ()) := by
    intro he
    cases he
  exact ⟨hsettled, t, _, hne, h⟩

theorem do_ok {a b c : Except Failure Unit} :
    (do a; b; c) = .ok () ↔ a = .ok () ∧ b = .ok () ∧ c = .ok () := by
  rcases a with a | ⟨⟩
  · exact ⟨(fun h => nomatch h), fun h => h.1⟩
  · rcases b with b | ⟨⟩
    · exact ⟨(fun h => nomatch h), fun h => h.2.1⟩
    · exact ⟨fun h => ⟨rfl, rfl, h⟩, fun h => h.2.2⟩

/-- While nobody has told the tasks to stop none of them ends well. -/
theorem taskExit_busy {phase : Task → Phase} (hbusy : Busy servers phase)
    (hgraceful : servers.Graceful) {t : Task} {exit : Exit} (h : phase t = .ended exit) :
    taskExit t exit ≠ .ok () := by
  cases exit with
  | panicked message => exact fun he => nomatch he
  | returned r =>
      cases r with
      | error e => exact fun he => nomatch he
      | ok _ => exact fun _ => hbusy hgraceful t h

/-- What wakes `main` is a signal, or the end of a task that has ended. -/
def Woken (servers : Servers) (wake : Wake) (phase : Task → Phase) : Prop :=
  Busy servers phase ∧ ∀ t exit, wake = .exited t exit → phase t = .ended exit

theorem kept_woken (wake : Wake) : Kept servers false (Woken servers wake) := by
  intro phase t exit h hserving hexit
  refine ⟨kept_busy phase t exit h.1 hserving hexit, fun t' exit' hwake => ?_⟩
  exact update_ended (h.2 t' exit' hwake) hserving

/-! ## The stages -/

/-- The host is `base` up to the phases, of which `P` holds. -/
def At (base : Host) (P : (Task → Phase) → Prop) (s : Host) : Prop :=
  (∃ phase, s = { base with phase := phase }) ∧ P s.phase

variable {base : Host} {P : (Task → Phase) → Prop} {inv : Host → Prop}

theorem at_mk (base : Host) {phase : Task → Phase} (h : P phase) :
    At base P { base with phase := phase } :=
  ⟨⟨phase, rfl⟩, h⟩

theorem rests_at (hP : Kept servers base.cancelled P)
    (hinv : ∀ phase, P phase → inv { base with phase := phase }) :
    Rests (Meanwhile servers) inv (At base P) where
  keeps := by
    rintro s s' ⟨t, exit, hserving, hexit, rfl⟩ ⟨⟨phase, rfl⟩, h⟩
    exact at_mk _ (hP phase t exit h hserving hexit)
  inv := by
    rintro s ⟨⟨phase, rfl⟩, h⟩
    exact hinv phase h

theorem rests_false : Rests (Meanwhile servers) inv fun _ => False :=
  ⟨fun _ _ _ h => h, fun _ h => h.elim⟩

/-- Before the tasks are spawned nothing happens beside `main`. -/
theorem rests_still (h : base.phase = fun _ => .idle) (hinv : inv base) :
    Rests (Meanwhile servers) inv (· = base) where
  keeps := by
    rintro s s' ⟨t, exit, hserving, -, rfl⟩ rfl
    rw [h] at hserving
    cases hserving
  inv := by
    rintro s rfl
    exact hinv

section Stages

variable [ConfigCrates] {env : Env} {args : ServerArgs} {config : ClawDBConfig}

/-! ### Opening -/

/-- As long as no port is bound nothing is asked of the host. -/
theorem orderly_opening (opened : List Part) (written : List Unix.PathBuf) :
    Orderly env args { opened := opened, written := written } where
  bound h := absurd rfl h
  served _ h := absurd rfl h
  closing h := nomatch h
  branchDown h := nomatch h
  syncDown h := nomatch h

/-- An error on the way up: some parts came up, and nothing else was done. -/
def Halfway (s : Host) : Prop := ∃ opened, s = { opened := opened }

theorem rests_opened (opened : List Part) :
    Rests (Meanwhile servers) (Orderly env args) (· = { opened := opened }) :=
  rests_still rfl (orderly_opening opened [])

theorem rests_halfway : Rests (Meanwhile servers) (Orderly env args) Halfway where
  keeps := by
    rintro s s' hstep ⟨opened, h⟩
    have hrests : Rests (Meanwhile servers) (Orderly env args) (· = { opened := opened }) :=
      rests_opened opened
    exact ⟨opened, hrests.keeps s s' hstep h⟩
  inv := by
    rintro s ⟨opened, rfl⟩
    exact orderly_opening opened []

theorem rests_whole : Rests (Meanwhile servers) (Orderly env args)
    fun s => ∃ made, s = { opened := parts config made } where
  keeps := by
    rintro s s' hstep ⟨made, h⟩
    have hrests : Rests (Meanwhile servers) (Orderly env args)
        (· = { opened := parts config made }) := rests_opened _
    exact ⟨made, hrests.keeps s s' hstep h⟩
  inv := by
    rintro s ⟨made, rfl⟩
    exact orderly_opening _ []

theorem upholds_bring (opened : List Part) (part : Part) {s : Host}
    (hs : s = { opened := opened }) :
    (bring part).run.Upholds sem (Meanwhile servers) (Orderly env args)
      (Try.Outcome (fun _ => (· = { opened := opened ++ [part] })) fun _ => Halfway) s := by
  refine Try.upholds_call (rests_opened opened) hs (fun _ => rests_opened _)
    (fun _ => rests_halfway) ?_
  rintro s r s' rfl hr
  cases r with
  | ok _ => exact hr
  | error _ => exact ⟨opened, hr⟩

theorem upholds_brings (is : List Part) (opened : List Part) {s : Host}
    (hs : s = { opened := opened }) :
    (Try.each bring is).run.Upholds sem (Meanwhile servers) (Orderly env args)
      (Try.Outcome (fun _ => (· = { opened := opened ++ is })) fun _ => Halfway) s := by
  have hturn : ∀ (done : List Part) i s, s = { opened := opened ++ done } →
      (bring i).run.Upholds sem (Meanwhile servers) (Orderly env args)
        (Try.Outcome (fun _ => (· = { opened := opened ++ (done ++ [i]) })) fun _ => Halfway)
        s := by
    intro done i s hs
    rw [← List.append_assoc]
    exact upholds_bring (opened ++ done) i hs
  refine Try.upholds_each (I := fun done s => s = { opened := opened ++ done })
    (fun done => rests_opened (opened ++ done)) (fun _ => rests_halfway) hturn is [] ?_
  rw [List.append_nil]
  exact hs

theorem upholds_collection (config : ClawDBConfig) (opened : List Part) {s : Host}
    (hs : s = { opened := opened }) :
    (ensureVectorCollection config).run.Upholds sem (Meanwhile servers) (Orderly env args)
      (Try.Outcome (fun _ s => ∃ made, s = { opened := opened ++ collection config made })
        fun _ => Halfway) s := by
  have hlist : (Try.of (ask (.listCollections config.workspaceId)) ClawDBError.vector).run.Upholds
      sem (Meanwhile servers) (Orderly env args)
      (Try.Outcome (fun _ => (· = { opened := opened })) fun _ => Halfway) s := by
    refine Try.upholds_call (rests_opened opened) hs (fun _ => rests_opened _)
      (fun _ => rests_halfway) ?_
    rintro s r s' rfl rfl
    cases r with
    | ok _ => exact rfl
    | error _ => exact ⟨opened, rfl⟩
  refine Try.upholds_bind hlist (fun _ => rests_halfway) (fun _ _ h => h) fun existing s hs => ?_
  by_cases hex : existing.contains "memories" = true
  · rw [if_pos hex]
    refine Prog.upholds_pure (rests_opened opened) hs fun s hs => ⟨false, ?_⟩
    rw [hs, collection, if_neg Bool.false_ne_true, List.append_nil]
  · rw [if_neg hex]
    refine (upholds_bring opened _ hs).mono fun r s hr => ?_
    cases r with
    | ok _ => exact ⟨true, hr⟩
    | error _ => exact hr

/-- `ClawDB::new` brings up every part, in order, or fails on the way. -/
theorem upholds_new (config : ClawDBConfig) :
    (new config).run.Upholds sem (Meanwhile servers) (Orderly env args)
      (Try.Outcome (fun _ s => ∃ made, s = { opened := parts config made }) fun _ => Halfway)
      {} := by
  refine Try.upholds_bind (upholds_brings (coreParts config) [] rfl) (fun _ => rests_halfway)
    (fun _ _ h => h) fun _ s hcore => ?_
  have hvector : (newVector config).run.Upholds sem (Meanwhile servers) (Orderly env args)
      (Try.Outcome (fun _ s => ∃ made,
        s = { opened := coreParts config ++ allVectorParts config made }) fun _ => Halfway)
      s := by
    unfold newVector allVectorParts
    by_cases hv : config.vector.enabled = true
    · simp only [hv, if_true]
      refine Try.upholds_bind (upholds_brings (vectorParts config) (coreParts config) hcore)
        (fun _ => rests_halfway) (fun _ _ h => h) fun _ s hs => ?_
      refine (upholds_collection config _ hs).mono fun r s hr => ?_
      cases r with
      | ok _ =>
          obtain ⟨made, hs⟩ := hr
          exact ⟨made, by rw [hs, List.append_assoc]⟩
      | error _ => exact hr
    · simp only [hv]
      refine Prog.upholds_pure (rests_opened (coreParts config)) hcore fun s hs => ⟨false, ?_⟩
      rw [hs]
      simp
  refine Try.upholds_bind hvector (fun _ => rests_halfway) (fun _ _ h => h) fun _ s hs => ?_
  obtain ⟨made, hs⟩ := hs
  refine Try.upholds_bind (upholds_brings (otherParts config) _ hs) (fun _ => rests_halfway)
    (fun _ _ h => h) fun _ s hs => ?_
  have hplugins : (Try.lift (ε := ClawDBError)
      (ask (.loadPlugins config.plugins.pluginsDir))).run.Upholds sem (Meanwhile servers)
      (Orderly env args)
      (Try.Outcome (fun _ => (· = { opened := parts config made })) fun _ => Halfway) s := by
    refine Try.upholds_call (rests_opened _) hs (fun _ => rests_opened _)
      (fun _ => rests_halfway) ?_
    rintro s r s' rfl rfl
    exact rfl
  refine Try.upholds_bind hplugins (fun _ => rests_halfway) (fun _ _ h => h) fun _ s hs => ?_
  exact Prog.upholds_pure (rests_opened _) hs fun s hs => ⟨made, hs⟩

/-! ### Binding and spawning -/

section Up

variable {made : Bool} (hloaded : loaded env args = .ok config)
  (hcert : args.generateSelfSignedCert = false)
include hloaded hcert

theorem whole_parts {s : Host} (h : s.opened = parts config made) :
    Whole env args config s :=
  ⟨hloaded, hcert, made, h⟩

/-- With every part up, ports may be bound. -/
theorem orderly_binding (bound : List (Task × Nat)) :
    Orderly env args { opened := parts config made, bound := bound } where
  bound _ := ⟨config, whole_parts hloaded hcert rfl⟩
  served _ h := absurd rfl h
  closing h := nomatch h
  branchDown h := nomatch h
  syncDown h := nomatch h

/-- With every port bound, tasks may serve. -/
theorem orderly_serving (phase : Task → Phase) (cancelled elapsed : Bool) :
    Orderly env args { opened := parts config made, bound := ports args config, phase := phase,
                       cancelled := cancelled, elapsed := elapsed } where
  bound _ := ⟨config, whole_parts hloaded hcert rfl⟩
  served _ _ := ⟨config, whole_parts hloaded hcert rfl, rfl⟩
  closing h := nomatch h
  branchDown h := nomatch h
  syncDown h := nomatch h

/-- An error while the ports are bound: the tasks are not there yet. -/
def Binding (config : ClawDBConfig) (made : Bool) (s : Host) : Prop :=
  ∃ bound, s = { opened := parts config made, bound := bound }

theorem rests_bound (bound : List (Task × Nat)) :
    Rests (Meanwhile servers) (Orderly env args)
      (· = { opened := parts config made, bound := bound }) :=
  rests_still rfl (orderly_binding hloaded hcert bound)

theorem rests_binding : Rests (Meanwhile servers) (Orderly env args) (Binding config made) where
  keeps := by
    rintro s s' hstep ⟨bound, h⟩
    exact ⟨bound, (rests_bound hloaded hcert bound).keeps s s' hstep h⟩
  inv := by
    rintro s ⟨bound, rfl⟩
    exact orderly_binding hloaded hcert bound

/-- The tasks have been spawned, one by one, and serve. -/
abbrev Serving (servers : Servers) (args : ServerArgs) (config : ClawDBConfig) (made : Bool) :
    Host → Prop :=
  At { opened := parts config made, bound := ports args config } (Busy servers)

theorem rests_serving :
    Rests (Meanwhile servers) (Orderly env args) (Serving servers args config made) :=
  rests_at kept_busy fun phase _ => orderly_serving hloaded hcert phase false false

theorem upholds_spawnServers {s : Host} (hs : s = { opened := parts config made }) :
    (spawnServers (ports args config)).run.Upholds sem (Meanwhile servers) (Orderly env args)
      (Try.Outcome (fun _ => Serving servers args config made) fun _ => Binding config made) s := by
  have hbinding : Rests (Meanwhile servers) (Orderly env args) (Binding config made) :=
    rests_binding hloaded hcert
  have hbind : (Try.each bindPort (ports args config)).run.Upholds sem (Meanwhile servers)
      (Orderly env args) (Try.Outcome (fun _ =>
        (· = { opened := parts config made, bound := ports args config }))
        fun _ => Binding config made) s := by
    refine Try.upholds_each (I := fun done s => s = { opened := parts config made, bound := done })
      (fun done => rests_bound hloaded hcert done) (fun _ => hbinding) ?_ _ [] hs
    intro done port s hs
    refine Try.upholds_call (rests_bound hloaded hcert done) hs
      (fun _ => rests_bound hloaded hcert _) (fun _ => hbinding) ?_
    rintro s r s' rfl hr
    cases r with
    | ok _ => exact hr
    | error _ => exact ⟨done, hr⟩
  refine Try.upholds_bind hbind (fun _ => hbinding) (fun _ _ h => h) fun _ s hs => ?_
  have haddress : (Try.each address tasks).run.Upholds sem (Meanwhile servers) (Orderly env args)
      (Try.Outcome (fun _ => (· = { opened := parts config made, bound := ports args config }))
        fun _ => Binding config made) s := by
    refine Try.upholds_each
      (I := fun _ s => s = { opened := parts config made, bound := ports args config })
      (fun _ => rests_bound hloaded hcert _) (fun _ => hbinding) ?_ _ [] hs
    intro done t s hs
    refine Try.upholds_call (rests_bound hloaded hcert _) hs
      (fun _ => rests_bound hloaded hcert _) (fun _ => hbinding) ?_
    rintro s r s' rfl rfl
    cases r with
    | ok _ => exact rfl
    | error _ => exact ⟨_, rfl⟩
  refine Try.upholds_bind haddress (fun _ => hbinding) (fun _ _ h => h) fun _ s hs => ?_
  refine Try.upholds_each (I := fun _ => Serving servers args config made)
    (fun _ => rests_serving hloaded hcert) (fun _ => hbinding) ?_ _ [] ?_
  · intro done t s hs
    refine Try.upholds_call (rests_serving hloaded hcert) hs
      (fun _ => rests_serving hloaded hcert) (fun _ => hbinding) ?_
    rintro s r s' ⟨⟨phase, rfl⟩, hbusy⟩ rfl
    exact at_mk _ (Busy.spawn hbusy t)
  · rw [hs]
    exact at_mk { opened := parts config made, bound := ports args config } busy_idle

/-! ### Stopping -/

/-- The tasks have been told to stop; `elapsed` says whether their time is over. -/
def stopped (args : ServerArgs) (config : ClawDBConfig) (made elapsed : Bool) : Host :=
  { opened := parts config made, bound := ports args config, cancelled := true,
    elapsed := elapsed }

theorem rests_stopped {elapsed : Bool} (hP : Kept servers true P) :
    Rests (Meanwhile servers) (Orderly env args) (At (stopped args config made elapsed) P) :=
  rests_at hP fun phase _ => orderly_serving hloaded hcert phase true elapsed

/-- Why the joining of a task was given up. -/
def CutAt (args : ServerArgs) (config : ClawDBConfig) (made : Bool) (P : (Task → Phase) → Prop)
    (t : Task) : Cut → Host → Prop
  | none => At (stopped args config made true) fun _ => True
  | some _ => At (stopped args config made false) fun phase => P phase ∧ (phase t).Panicked

theorem rests_cutAt (hP : Kept servers true P) (t : Task) (cut : Cut) :
    Rests (Meanwhile servers) (Orderly env args) (CutAt args config made P t cut) := by
  cases cut with
  | none => exact rests_stopped hloaded hcert kept_true
  | some e => exact rests_stopped hloaded hcert (kept_and hP kept_panicked)

theorem upholds_joinTask (hP : Kept servers true P) (grace : Nat) (t : Task)
    {s : Host} (hs : At (stopped args config made false) P s) :
    (joinTask grace t).run.Upholds sem (Meanwhile servers) (Orderly env args)
      (Try.Outcome (fun r => At (stopped args config made false) fun phase =>
        P phase ∧ phase t = .ended (.returned r)) (CutAt args config made P t)) s := by
  refine Try.upholds_call (rests_stopped hloaded hcert hP) hs
    (fun r => rests_stopped hloaded hcert (kept_and hP kept_ended))
    (fun cut => rests_cutAt hloaded hcert hP t cut) ?_
  rintro s r s' ⟨⟨phase, rfl⟩, h⟩ hr
  cases r with
  | none =>
      obtain rfl := hr
      have hat : At (stopped args config made true) (fun _ => True)
          { stopped args config made true with phase := phase } := at_mk _ trivial
      exact hat
  | some exit =>
      obtain ⟨rfl, hended⟩ := hr
      cases exit with
      | returned r =>
          have hat : At (stopped args config made false)
              (fun phase => P phase ∧ phase t = .ended (.returned r))
              { stopped args config made false with phase := phase } := at_mk _ ⟨h, hended⟩
          exact hat
      | panicked message =>
          have hat : At (stopped args config made false)
              (fun phase => P phase ∧ (phase t).Panicked)
              { stopped args config made false with phase := phase } :=
            at_mk _ ⟨h, message, hended⟩
          exact hat

/-- How the joining ended: the tasks all returned without an error; or they did not, and are
done with all the same, unless one panicked; or their time is over. -/
def Joined (args : ServerArgs) (config : ClawDBConfig) (made : Bool) : Except Cut Unit → Host → Prop
  | .ok () => At (stopped args config made false) fun phase =>
      ∀ t, phase t = .ended (.returned (.ok ()))
  | .error none => At (stopped args config made true) fun _ => True
  | .error (some _) => At (stopped args config made false) fun phase =>
      Settled phase ∧ Spoiled phase

theorem rests_joined (r : Except Cut Unit) :
    Rests (Meanwhile servers) (Orderly env args) (Joined args config made r) := by
  cases r with
  | ok _ => exact rests_stopped hloaded hcert kept_all_returned
  | error cut =>
      cases cut with
      | none => exact rests_stopped hloaded hcert kept_true
      | some e => exact rests_stopped hloaded hcert (kept_and kept_settled kept_spoiled)

theorem upholds_joinAll (grace : Nat) {s : Host}
    (hs : At (stopped args config made false) (fun _ => True) s) :
    (joinAll grace).run.Upholds sem (Meanwhile servers) (Orderly env args)
      (Joined args config made) s := by
  refine Try.upholds_bind (upholds_joinTask hloaded hcert kept_true grace .grpc hs)
    (fun cut => rests_cutAt hloaded hcert kept_true .grpc cut) ?_ fun grpc s hs => ?_
  · intro cut s hcut
    cases cut with
    | none => exact hcut
    | some e =>
        obtain ⟨hs, -, hpanicked⟩ := hcut
        exact ⟨hs, joined_panicked hpanicked (.inr ⟨.grpc, (fun h => nomatch h), hpanicked⟩)⟩
  have hkept₁ : Kept servers true fun phase => True ∧ phase .grpc = .ended (.returned grpc) :=
    kept_and kept_true kept_ended
  refine Try.upholds_bind (upholds_joinTask hloaded hcert hkept₁ grace .http hs)
    (fun cut => rests_cutAt hloaded hcert hkept₁ .http cut) ?_ fun http s hs => ?_
  · intro cut s hcut
    cases cut with
    | none => exact hcut
    | some e =>
        obtain ⟨hs, -, hpanicked⟩ := hcut
        exact ⟨hs, joined_panicked hpanicked (.inr ⟨.http, (fun h => nomatch h), hpanicked⟩)⟩
  have hended₂ : Kept servers true fun phase => phase .http = .ended (.returned http) := kept_ended
  have hkept₂ := kept_and hkept₁ hended₂
  refine Try.upholds_bind (upholds_joinTask hloaded hcert hkept₂ grace .metrics hs)
    (fun cut => rests_cutAt hloaded hcert hkept₂ .metrics cut) ?_ fun metrics s hs => ?_
  · intro cut s hcut
    cases cut with
    | none => exact hcut
    | some e =>
        obtain ⟨hs, ⟨⟨-, hgrpc⟩, hhttp⟩, hpanicked⟩ := hcut
        refine ⟨hs, joined_panicked hpanicked (.inl fun t => ?_)⟩
        cases t with
        | grpc => exact ⟨_, hgrpc⟩
        | http => exact ⟨_, hhttp⟩
        | metrics =>
            obtain ⟨message, hmetrics⟩ := hpanicked
            exact ⟨_, hmetrics⟩
  have hended₃ : Kept servers true fun phase => phase .metrics = .ended (.returned metrics) :=
    kept_ended
  have hkept₃ := kept_and hkept₂ hended₃
  refine Prog.upholds_pure (rests_stopped hloaded hcert hkept₃) hs fun s hs => ?_
  obtain ⟨hbase, ⟨⟨-, hgrpc⟩, hhttp⟩, hmetrics⟩ := hs
  cases hreturned : (do grpc; http; metrics : Except Failure Unit) with
  | ok _ =>
      obtain ⟨rfl, rfl, rfl⟩ := do_ok.mp hreturned
      refine ⟨hbase, fun t => ?_⟩
      cases t with
      | grpc => exact hgrpc
      | http => exact hhttp
      | metrics => exact hmetrics
  | error e =>
      have hsettled : Settled s.phase := by
        refine .inl fun t => ?_
        cases t with
        | grpc => exact ⟨_, hgrpc⟩
        | http => exact ⟨_, hhttp⟩
        | metrics => exact ⟨_, hmetrics⟩
      have hspoiled : Spoiled s.phase := by
        have hne : ¬(grpc = .ok () ∧ http = .ok () ∧ metrics = .ok ()) := by
          intro h
          rw [do_ok.mpr h] at hreturned
          cases hreturned
        by_cases hg : grpc = .ok ()
        · by_cases hh : http = .ok ()
          · exact ⟨.metrics, _, fun h => hne ⟨hg, hh, Exit.returned.inj h⟩, hmetrics⟩
          · exact ⟨.http, _, fun h => hh (Exit.returned.inj h), hhttp⟩
        · exact ⟨.grpc, _, fun h => hg (Exit.returned.inj h), hgrpc⟩
      exact ⟨hbase, hsettled, hspoiled⟩

/-! ### Closing -/

/-- The engine is being closed. -/
def closed (args : ServerArgs) (config : ClawDBConfig) (made elapsed branchDown syncDown : Bool) :
    Host :=
  { stopped args config made elapsed with
    closing := true, branchDown := branchDown, syncDown := syncDown }

theorem rests_closed {elapsed branchDown syncDown : Bool}
    (hP : Kept servers true P) (hsettled : elapsed = true ∨ ∀ phase, P phase → Settled phase)
    (hdown : syncDown = true → branchDown = true) :
    Rests (Meanwhile servers) (Orderly env args)
      (At (closed args config made elapsed branchDown syncDown) P) := by
  refine rests_at hP fun phase hphase => ?_
  exact {
    bound := fun _ => ⟨config, whole_parts hloaded hcert rfl⟩
    served := fun _ _ => ⟨config, whole_parts hloaded hcert rfl, rfl⟩
    closing := fun _ => ⟨rfl, hsettled.imp id fun h => h phase hphase⟩
    branchDown := fun _ => rfl
    syncDown := hdown }

theorem rests_open {elapsed : Bool} (hP : Kept servers true P)
    (hsettled : elapsed = true ∨ ∀ phase, P phase → Settled phase) (branchDown : Bool) :
    Rests (Meanwhile servers) (Orderly env args)
      (At (closed args config made elapsed branchDown false) P) :=
  rests_closed hloaded hcert hP hsettled fun h => absurd h Bool.false_ne_true

/-- An error of either engine: the sync engine is not closed. -/
def Unclosed (args : ServerArgs) (config : ClawDBConfig) (made elapsed : Bool)
    (P : (Task → Phase) → Prop) (s : Host) : Prop :=
  ∃ branchDown, At (closed args config made elapsed branchDown false) P s

theorem rests_unclosed {elapsed : Bool} (hP : Kept servers true P)
    (hsettled : elapsed = true ∨ ∀ phase, P phase → Settled phase) :
    Rests (Meanwhile servers) (Orderly env args) (Unclosed args config made elapsed P) where
  keeps := by
    rintro s s' hstep ⟨branchDown, h⟩
    exact ⟨branchDown, (rests_open hloaded hcert hP hsettled branchDown).keeps s s' hstep h⟩
  inv := by
    rintro s ⟨branchDown, h⟩
    exact (rests_open hloaded hcert hP hsettled branchDown).inv s h

theorem upholds_close {elapsed : Bool} (hP : Kept servers true P)
    (hsettled : elapsed = true ∨ ∀ phase, P phase → Settled phase) {s : Host}
    (hs : At (stopped args config made elapsed) P s) :
    close.run.Upholds sem (Meanwhile servers) (Orderly env args)
      (Try.Outcome (fun _ => At (closed args config made elapsed true true) P)
        fun _ => Unclosed args config made elapsed P) s := by
  have hunclosed : Rests (Meanwhile servers) (Orderly env args)
      (Unclosed args config made elapsed P) := rests_unclosed hloaded hcert hP hsettled
  have hbranch : (Try.of (ask .shutdownBranch) ClawDBError.branch).run.Upholds sem
      (Meanwhile servers) (Orderly env args)
      (Try.Outcome (fun _ => At (closed args config made elapsed true false) P)
        fun _ => Unclosed args config made elapsed P) s := by
    refine Try.upholds_call (rests_stopped hloaded hcert hP) hs
      (fun _ => rests_open hloaded hcert hP hsettled true)
      (fun _ => hunclosed) ?_
    rintro s r s' ⟨⟨phase, rfl⟩, h⟩ rfl
    cases r with
    | ok _ => exact at_mk (closed args config made elapsed true false) h
    | error _ => exact ⟨false, at_mk (closed args config made elapsed false false) h⟩
  refine Try.upholds_bind hbranch (fun _ => hunclosed) (fun _ _ h => h) fun _ s hs => ?_
  refine Try.upholds_call (rests_open hloaded hcert hP hsettled true) hs
    (fun _ => rests_closed hloaded hcert hP hsettled fun _ => rfl) (fun _ => hunclosed) ?_
  rintro s r s' ⟨⟨phase, rfl⟩, h⟩ rfl
  cases r with
  | ok _ => exact at_mk (closed args config made elapsed true true) h
  | error _ => exact ⟨true, at_mk (closed args config made elapsed true false) h⟩

theorem upholds_shutdown (grace : Nat) {s : Host}
    (hs : Serving servers args config made s) :
    (shutdown grace).run.Upholds sem (Meanwhile servers) (Orderly env args)
      (fun r s => r = .ok () ↔ Clean s) s := by
  have hcancel : (Try.lift (ε := Failure) (ask .cancel)).run.Upholds sem (Meanwhile servers)
      (Orderly env args)
      (Try.Outcome (fun _ => At (stopped args config made false) fun _ => True) fun _ _ => False)
      s := by
    refine Try.upholds_call (rests_serving hloaded hcert) hs
      (fun _ => rests_stopped hloaded hcert kept_true) (fun _ => rests_false) ?_
    rintro s r s' ⟨⟨phase, rfl⟩, -⟩ rfl
    exact ⟨⟨phase, rfl⟩, trivial⟩
  refine Try.upholds_bind hcancel (fun _ => rests_false) (fun _ _ h => h.elim) fun _ s hs => ?_
  refine Try.upholds_bind (Try.upholds_lift (upholds_joinAll hloaded hcert grace hs)
    fun r => rests_joined hloaded hcert r) (fun _ => rests_false) (fun _ _ h => h.elim)
    fun joined s hs => ?_
  -- the engine is closed in every case; what was joined decides whether that is a success
  have hthen : ∀ {elapsed : Bool} {P : (Task → Phase) → Prop} {r : Except Failure Unit},
      Kept servers true P → (elapsed = true ∨ ∀ phase, P phase → Settled phase) →
      At (stopped args config made elapsed) P s →
      (∀ s, At (closed args config made elapsed true true) P s → (r = .ok () ↔ Clean s)) →
      (Try.of close.run (fun e => Failure.context "failed to close clawdb" (.db e)) >>=
        fun _ => ExceptT.mk (.pure r)).run.Upholds sem (Meanwhile servers) (Orderly env args)
        (fun r s => r = .ok () ↔ Clean s) s := by
    intro elapsed P r hP hsettled hs hr
    have hunclosed : Rests (Meanwhile servers) (Orderly env args)
        (Unclosed args config made elapsed P) := rests_unclosed hloaded hcert hP hsettled
    have hclosed : Rests (Meanwhile servers) (Orderly env args)
        (At (closed args config made elapsed true true) P) :=
      rests_closed hloaded hcert hP hsettled fun _ => rfl
    refine Try.upholds_bind (Try.upholds_of (upholds_close hloaded hcert hP hsettled hs)
      (fun _ => hclosed) hunclosed) (fun _ => hunclosed) ?_ fun _ s hs => ?_
    · rintro e s ⟨branchDown, ⟨phase, rfl⟩, -⟩
      exact ⟨(fun h => nomatch h), fun h => nomatch h.1⟩
    · exact Prog.upholds_pure hclosed hs hr
  cases joined with
  | ok _ =>
      refine hthen kept_all_returned (.inr fun phase h => .inl fun t => ⟨_, h t⟩) hs ?_
      rintro s ⟨⟨phase, rfl⟩, h⟩
      exact ⟨fun _ => ⟨rfl, rfl, h⟩, fun _ => rfl⟩
  | error cut =>
      cases cut with
      | none =>
          refine hthen kept_true (.inl rfl) hs ?_
          rintro s ⟨⟨phase, rfl⟩, -⟩
          exact ⟨(fun h => nomatch h), fun h => nomatch h.2.1⟩
      | some e =>
          refine hthen (kept_and kept_settled kept_spoiled) (.inr fun phase h => h.1) hs ?_
          rintro s ⟨⟨phase, rfl⟩, -, t, exit, hne, h⟩
          refine ⟨(fun h => nomatch h), fun hclean => absurd ?_ hne⟩
          rw [hclean.2.2 t] at h
          exact (Phase.ended.inj h).symm

/-! ### Serving -/

theorem upholds_serve {s : Host} (hs : Serving servers args config made s) :
    serve.run.Upholds sem (Meanwhile servers) (Orderly env args)
      (fun r s => servers.Graceful → (r = .ok () ↔ Clean s)) s := by
  have hrests : ∀ wake, Rests (Meanwhile servers) (Orderly env args)
      (At { opened := parts config made, bound := ports args config } (Woken servers wake)) :=
    fun wake => rests_at (kept_woken wake) fun phase _ =>
      orderly_serving hloaded hcert phase false false
  have hselect : (Try.lift (ε := Failure) (ask .select)).run.Upholds sem (Meanwhile servers)
      (Orderly env args) (Try.Outcome (fun wake =>
        At { opened := parts config made, bound := ports args config } (Woken servers wake))
        fun _ _ => False) s := by
    refine Try.upholds_call (rests_serving hloaded hcert) hs hrests (fun _ => rests_false) ?_
    rintro s wake s' ⟨⟨phase, rfl⟩, hbusy⟩ ⟨rfl, hwake⟩
    exact ⟨⟨phase, rfl⟩, hbusy, hwake⟩
  refine Try.upholds_bind hselect (fun _ => rests_false) (fun _ _ h => h.elim) fun wake s hs => ?_
  cases wake with
  | signal r =>
      obtain ⟨⟨phase, rfl⟩, hbusy, -⟩ := hs
      exact (upholds_shutdown hloaded hcert 30
        (at_mk { opened := parts config made, bound := ports args config } hbusy)).mono
          fun r s h _ => h
  | exited t exit =>
      refine Prog.upholds_pure (hrests (.exited t exit)) hs ?_
      rintro s ⟨⟨phase, rfl⟩, hbusy, hwake⟩ hgraceful
      refine ⟨fun h => ?_, fun h => nomatch h.1⟩
      cases hexit : taskExit t exit with
      | ok _ => exact absurd hexit (taskExit_busy hbusy hgraceful (hwake t exit rfl))
      | error e =>
          rw [hexit] at h
          cases h

end Up

/-! ### The certificate -/

/-- The certificate was not written, or its key was not. -/
def Uncertified (s : Host) : Prop := ∃ written, written.length < 2 ∧ s = { written := written }

theorem rests_written (written : List Unix.PathBuf) :
    Rests (Meanwhile servers) (Orderly env args) (· = { written := written }) :=
  rests_still rfl (orderly_opening [] written)

theorem rests_uncertified : Rests (Meanwhile servers) (Orderly env args) Uncertified where
  keeps := by
    rintro s s' hstep ⟨written, hlt, h⟩
    have hrests : Rests (Meanwhile servers) (Orderly env args) (· = { written := written }) :=
      rests_written written
    exact ⟨written, hlt, hrests.keeps s s' hstep h⟩
  inv := by
    rintro s ⟨written, -, rfl⟩
    exact orderly_opening [] written

theorem upholds_write (written : List Unix.PathBuf) (hlt : written.length < 2)
    (file : Unix.PathBuf) (contents : String) (context : String) {s : Host}
    (hs : s = { written := written }) :
    (Try.of (ask (.write file contents)) fun e => Failure.context context (.os e)).run.Upholds
      sem (Meanwhile servers) (Orderly env args)
      (Try.Outcome (fun _ => (· = { written := written ++ [file] })) fun _ => Uncertified) s := by
  refine Try.upholds_call (rests_written written) hs (fun _ => rests_written _)
    (fun _ => rests_uncertified) ?_
  rintro s r s' rfl hr
  cases r with
  | ok _ => exact hr
  | error _ => exact ⟨written, hlt, hr⟩

theorem upholds_generate (config : ClawDBConfig) :
    (generateSelfSignedCert config).run.Upholds sem (Meanwhile servers) (Orderly env args)
      (Try.Outcome (fun _ => (· = { written := certFiles config })) fun _ => Uncertified) {} := by
  have hdir : (Try.of (ask (.createDirAll (Unix.join config.dataDir (Unix.path "tls")))) fun e =>
      Failure.context "failed to create tls directory" (.os e)).run.Upholds sem (Meanwhile servers)
      (Orderly env args) (Try.Outcome (fun _ => (· = {})) fun _ => Uncertified) {} := by
    refine Try.upholds_call (rests_written []) rfl (fun _ => rests_written [])
      (fun _ => rests_uncertified) ?_
    rintro s r s' rfl rfl
    cases r with
    | ok _ => exact rfl
    | error _ => exact ⟨[], Nat.zero_lt_two, rfl⟩
  refine Try.upholds_bind hdir (fun _ => rests_uncertified) (fun _ _ h => h) fun _ s hs => ?_
  have hcert : (Try.of (ask (.generateSimpleSelfSigned ["localhost"])) fun e =>
      Failure.context "failed to generate self-signed certificate" (.os e)).run.Upholds sem
      (Meanwhile servers) (Orderly env args)
      (Try.Outcome (fun _ => (· = {})) fun _ => Uncertified) s := by
    refine Try.upholds_call (rests_written []) hs (fun _ => rests_written [])
      (fun _ => rests_uncertified) ?_
    rintro s r s' rfl rfl
    cases r with
    | ok _ => exact rfl
    | error _ => exact ⟨[], Nat.zero_lt_two, rfl⟩
  refine Try.upholds_bind hcert (fun _ => rests_uncertified) (fun _ _ h => h) fun cert s hs => ?_
  have hpem : (Try.of (.pure cert.pem) fun e =>
      Failure.context "failed to serialize certificate" (.os e)).run.Upholds sem (Meanwhile servers)
      (Orderly env args) (Try.Outcome (fun _ => (· = {})) fun _ => Uncertified) s := by
    refine Prog.upholds_pure (rests_written []) hs fun s hs => ?_
    cases cert.pem with
    | ok _ => exact hs
    | error _ => exact ⟨[], Nat.zero_lt_two, hs⟩
  refine Try.upholds_bind hpem (fun _ => rests_uncertified) (fun _ _ h => h) fun pem s hs => ?_
  refine Try.upholds_bind (upholds_write [] Nat.zero_lt_two _ pem _ hs)
    (fun _ => rests_uncertified) (fun _ _ h => h) fun _ s hs => ?_
  exact upholds_write [_] Nat.one_lt_two _ cert.privateKeyPem _ hs

/-! ## The whole process -/

theorem upholds_main :
    (main env args).run.Upholds sem (Meanwhile servers) (Orderly env args)
      (fun r s => servers.Graceful → (r = .ok () ↔ Certified env args s ∨ Clean s)) {} := by
  cases hloaded : loaded env args with
  | error e =>
      have hmain : (main env args).run = .pure (.error e) := by
        unfold main
        rw [hloaded]
        rfl
      rw [hmain]
      refine Prog.upholds_pure (rests_opened []) rfl ?_
      rintro s rfl -
      refine ⟨(fun h => nomatch h), ?_⟩
      rintro (⟨-, config, h, -⟩ | ⟨h, -⟩)
      · rw [hloaded] at h
        cases h
      · cases h
  | ok config =>
      have hmain : (main env args).run = (if args.generateSelfSignedCert then
          generateSelfSignedCert config
        else do
          let _ ← buildState config
          spawnServers (ports args config)
          serve).run := by
        unfold main
        rw [hloaded]
        rfl
      rw [hmain]
      cases hcert : args.generateSelfSignedCert with
      | true =>
          refine (upholds_generate config).mono fun r s hr _ => ?_
          cases r with
          | ok _ =>
              obtain rfl := hr
              exact ⟨fun _ => .inl ⟨hcert, config, hloaded, rfl⟩, fun _ => rfl⟩
          | error e =>
              obtain ⟨written, hlt, rfl⟩ := hr
              refine ⟨(fun h => nomatch h), ?_⟩
              rintro (⟨-, config', -, h⟩ | ⟨h, -⟩)
              · have hlength : written.length = 2 := congrArg List.length h
                omega
              · cases h
      | false =>
          have hfinal : ∀ {r : Except Failure Unit} {s : Host}, (r = .ok () ↔ Clean s) →
              (r = .ok () ↔ Certified env args s ∨ Clean s) := by
            intro r s h
            refine h.trans ⟨.inr, ?_⟩
            rintro (⟨hcert', -⟩ | h)
            · rw [hcert] at hcert'
              cases hcert'
            · exact h
          have hbuild : (buildState config).run.Upholds sem (Meanwhile servers) (Orderly env args)
              (Try.Outcome (fun _ s => ∃ made, s = { opened := parts config made })
                fun _ => Halfway) {} :=
            Try.upholds_of (upholds_new config) (fun _ => rests_whole) rests_halfway
          refine Try.upholds_bind hbuild (fun _ => rests_halfway) ?_ fun _ s hs => ?_
          · rintro e s ⟨opened, rfl⟩
            exact fun _ => hfinal ⟨(fun h => nomatch h), fun h => nomatch h.1⟩
          obtain ⟨made, hs⟩ := hs
          refine Try.upholds_bind (upholds_spawnServers hloaded hcert hs)
            (fun _ => rests_binding hloaded hcert) ?_ fun _ s hs => ?_
          · rintro e s ⟨bound, rfl⟩
            exact fun _ => hfinal ⟨(fun h => nomatch h), fun h => nomatch h.1⟩
          exact (upholds_serve hloaded hcert hs).mono fun r s h hgraceful =>
            hfinal (h hgraceful)


/-- A port is bound only when every part of the engine is up, and a task serves only when every
port is bound.  The engine is closed only when the tasks have been told to stop, and then only
when they are done with, when their time is over, or when one whose end is awaited before
another's has panicked; and the sync engine only after the branch engine. -/
theorem process_orderly {q : Prog Sig (Except Failure Unit)} {s : Host}
    (h : Running servers env args q s) : Orderly env args s :=
  (h.upholds fun s hs => by rw [hs]; exact upholds_main).now

/-- With servers that shut down gracefully the process succeeds just when it was to write a
certificate and wrote it, or when every task returned in time without an error and both engines
are closed. -/
theorem process_succeeds (hgraceful : servers.Graceful) {r : Except Failure Unit} {s : Host}
    (h : Running servers env args (.pure r) s) :
    r = .ok () ↔ Certified env args s ∨ Clean s :=
  Prog.Upholds.ended (Q := fun r s => servers.Graceful →
    (r = .ok () ↔ Certified env args s ∨ Clean s))
    (h.upholds fun s hs => by rw [hs]; exact upholds_main) hgraceful

end Stages

section Witnesses

attribute [local instance] ConfigCrates.sample

/-- The secret is set, and nothing else. -/
def servedEnv : Env where
  varOs name := if name = "CLAW_GUARD_JWT_SECRET" then some (Unix.osString "s3cret") else none
  homeDir := some (Unix.path "/home/u")
  pathExists _ := false
  readToString _ := .error "No such file or directory"

def servedArgs : ServerArgs where
  config := none
  dataDir := none
  grpcPort := none
  httpPort := some 80
  metricsPort := none
  generateSelfSignedCert := false

/-- Servers that end as they like, but for a success before they are told to stop. -/
def polite : Servers := fun _ told exit => exit = .returned (.ok ()) → told = true

theorem polite_graceful : polite.Graceful := fun _ h => Bool.noConfusion (h rfl)

/-- Everything works, and the signal comes at once. -/
def willing : Prog.Handler Sig Host
  | .bring part, s => (.ok (), { s with opened := s.opened ++ [part] })
  | .listCollections _, s => (.ok [], s)
  | .loadPlugins _, s => ((), s)
  | .createDirAll _, s => (.ok (), s)
  | .generateSimpleSelfSigned _, s => (.ok ⟨.ok "", ""⟩, s)
  | .write file _, s => (.ok (), { s with written := s.written ++ [file] })
  | .bind t port, s => (.ok (), { s with bound := s.bound ++ [(t, port)] })
  | .localAddr _, s => (.ok (), s)
  | .spawn t, s => ((), { s with phase := Function.update s.phase t .serving })
  | .select, s => (.signal (.ok ()), s)
  | .cancel, s => ((), { s with cancelled := true })
  | .join t _, s =>
      match s.phase t with
      | .ended exit => (some exit, s)
      | _ => (none, { s with elapsed := true })
  | .shutdownBranch, s => (.ok (), { s with closing := true, branchDown := true })
  | .closeSync, s => (.ok (), { s with syncDown := true })

theorem willing_refines : Prog.Handler.Refines willing sem := by
  intro o s
  cases o with
  | join t grace =>
      show Op.sem s (.join t grace) (willing (.join t grace) s).1 (willing (.join t grace) s).2
      simp only [willing]
      cases h : s.phase t with
      | ended exit => exact ⟨rfl, h⟩
      | idle => exact rfl
      | serving => exact rfl
  | select => exact ⟨rfl, fun _ _ h => nomatch h⟩
  | _ => exact rfl

/-- The tasks have been spawned. -/
def spawned : Prog Sig (Except Failure Unit) × Host :=
  (main servedEnv servedArgs).run.advance willing 24 {}

theorem running_spawned : Running polite servedEnv servedArgs spawned.1 spawned.2 := by
  have hstart : Running polite servedEnv servedArgs (main servedEnv servedArgs).run {} := .start rfl
  exact hstart.advance willing_refines 24

/-- The two engines and the ports behind a task that serves. -/
theorem process_orderly_spawned : ∃ config,
    Whole servedEnv servedArgs config spawned.2 ∧ spawned.2.bound = ports servedArgs config := by
  have hserving : spawned.2.phase .grpc = .serving := by rfl
  have hne : spawned.2.phase .grpc ≠ .idle := by
    rw [hserving]
    exact fun h => nomatch h
  exact (process_orderly running_spawned).served .grpc hne

/-- The signal comes, and the tasks are told to stop. -/
def signalled : Prog Sig (Except Failure Unit) × Host := spawned.1.advance willing 2 spawned.2

def finish (s : Host) (t : Task) : Host :=
  { s with phase := Function.update s.phase t (.ended (.returned (.ok ()))) }

theorem meanwhile_finish {s : Host} {t : Task} (hc : s.cancelled = true)
    (ht : s.phase t = .serving) : Meanwhile polite s (finish s t) :=
  ⟨t, _, ht, fun _ => hc, rfl⟩

/-- The tasks finish, the gRPC server last. -/
def finished : Host := finish (finish (finish signalled.2 .metrics) .http) .grpc

theorem process_succeeds_stopped :
    Running polite servedEnv servedArgs (.pure (.ok ()))
        (signalled.1.advance willing 5 finished).2 ∧
      Clean (signalled.1.advance willing 5 finished).2 := by
  have hsignalled : Running polite servedEnv servedArgs signalled.1 signalled.2 :=
    running_spawned.advance willing_refines 2
  have hfinished : Running polite servedEnv servedArgs signalled.1 finished :=
    ((hsignalled.around (meanwhile_finish rfl rfl)).around (meanwhile_finish rfl rfl)).around
      (meanwhile_finish rfl rfl)
  have hpure : (signalled.1.advance willing 5 finished).1 = .pure (.ok ()) := by rfl
  have hrun : Running polite servedEnv servedArgs (.pure (.ok ()))
      (signalled.1.advance willing 5 finished).2 := by
    rw [← hpure]
    exact hfinished.advance willing_refines 5
  refine ⟨hrun, ?_⟩
  rcases (process_succeeds polite_graceful hrun).mp rfl with ⟨h, -⟩ | h
  · cases h
  · exact h

end Witnesses

end ClawDB.Process
