/-
# `Server.Notices` — what the server tells of what it does

The engine moves counters and gives events to the plugins.  Nothing comes of them in a reply, so
that they are right shows nowhere else: a `Deed` is something a component has done for a request
that others are told of, and `Deed.Calls` what is told of it.

`ledger` keeps of a request its deeds and what it has told, and permits it to tell no more than
its deeds call for.  So the books of every request are right at every moment, and they balance
when it is answered (`notices_account`).

Not everything is told: of what is updated, deleted, discarded, archived, pushed, pulled or
reconciled there is no deed, and none of a memory that is stored in a transaction.
-/
import ClawDB.Commits

namespace ClawDB

open Effect Prog

/-! ## Deeds -/

/-- A counter that is moved, or an event that is given to the plugins. -/
inductive Notice where
  | count (m : Metric)
  | event (e : ClawEvent)

inductive Deed where
  | opened (session agent : Uuid)
  | remembered (workspace memory : Uuid)
  | searched (workspace : Uuid) (mode query : String) (found : Nat)
  | forked (workspace : Uuid) (branch : Branch)
  | merged (workspace source target : Uuid) (applied : UInt32)
  | synced (workspace : Uuid) (pushed pulled : UInt32)
  | reflected
  /-- the session may not do what was asked for -/
  | denied (session : ClawDBSession)

section

variable [Crates]

/-- What is told of a deed, in this order.  The hits of a search are those that are left of what
was found; a denial names a scope that the session lacks. -/
def Deed.Calls : Deed → List Notice → Prop
  | opened session agent, ns =>
      ns = [.count .sessionCreated, .event (.sessionCreated session agent)]
  | remembered workspace memory, ns =>
      ns = [.count (.rememberTotal (Crates.uuidToString workspace) "ok"),
        .event (.memoryWritten (Crates.uuidToString memory) workspace)]
  | searched workspace mode query found, ns =>
      ∃ hits ≤ found, ns = [.count (.searchTotal (Crates.uuidToString workspace) mode),
        .count (.searchHits (Crates.uuidToString workspace) hits),
        .event (.searchExecuted query hits)]
  | forked workspace branch, ns =>
      ns = [.count (.branchOps (Crates.uuidToString workspace) "fork"),
        .event (.branchCreated branch.id branch.name)]
  | merged workspace source target applied, ns =>
      ns = [.count (.branchOps (Crates.uuidToString workspace) "merge"),
        .event (.branchMerged source target applied)]
  | synced workspace pushed pulled, ns =>
      ns = [.count (.syncPushed (Crates.uuidToString workspace) pushed),
        .count (.syncPulled (Crates.uuidToString workspace) pulled),
        .event (.syncCompleted pushed pulled)]
  | reflected, ns => ns = [.event (.reflectCycleRun 0)]
  | denied session, ns =>
      ∃ scope, ClawDBEngine.permits session.scopes [scope] = false ∧ ns = [.count .sessionDenied,
        .event (.policyDenied session.agentId scope "required scope missing")]

/-- Of each deed has been told what it calls for, of one after the other. -/
def Notified (deeds : List Deed) (told : List Notice) : Prop :=
  ∃ parts, List.Forall₂ Deed.Calls deeds parts ∧ told = parts.flatten

variable {deeds : List Deed} {deed : Deed} {told ns : List Notice}

theorem notified_nil : Notified [] [] := ⟨[], .nil, rfl⟩

theorem Notified.one (h : deed.Calls ns) : Notified [deed] ns :=
  ⟨[ns], .cons h .nil, (List.append_nil ns).symm⟩

theorem Notified.append (h : Notified deeds told) (hcalls : deed.Calls ns) :
    Notified (deeds ++ [deed]) (told ++ ns) := by
  obtain ⟨parts, hparts, rfl⟩ := h
  refine ⟨parts ++ [ns], List.rel_append hparts (.cons hcalls .nil), ?_⟩
  simp

/-- Every deed calls for something. -/
theorem Deed.exists_calls (deed : Deed) (h : ∀ session, deed = .denied session →
    ∃ scope, ClawDBEngine.permits session.scopes [scope] = false) : ∃ ns, deed.Calls ns := by
  cases deed with
  | searched workspace mode query found => exact ⟨_, found, Nat.le_refl _, rfl⟩
  | denied session =>
      obtain ⟨scope, hscope⟩ := h session rfl
      exact ⟨_, scope, hscope, rfl⟩
  | _ => exact ⟨_, rfl⟩

end

/-! ## The ledger -/

/-- What is remembered of a request: the session it acts for, its deeds, and what it told. -/
structure Ledger where
  session : Option ClawDBSession := none
  deeds : List Deed := []
  told : List Notice := []

namespace Ledger

/-- The ledger of a request that acts for a session, and has done nothing. -/
abbrev of (session : ClawDBSession) : Ledger := { session := some session }

/-- Something was done for the session. -/
def acts (m : Ledger) (deed : ClawDBSession → Deed) : Ledger :=
  { m with deeds := m.deeds ++ (m.session.map deed).toList }

def tells (m : Ledger) (n : Notice) : Ledger := { m with told := m.told ++ [n] }

def guarded (m : Ledger) : (o : GuardOp) → o.Ret → Ledger
  | .validateSession _, .ok g => { m with session := m.session.or (some g.toSession) }
  | .createSession agentId .., .ok g => { m with deeds := m.deeds ++ [.opened g.id agentId] }
  | _, _ => m

def stored (m : Ledger) : (o : CoreOp) → o.Ret → Ledger
  | .insertMemory _, .ok id => m.acts fun s => .remembered s.workspaceId id
  | .ftsSearch query, .ok records =>
      m.acts fun s => .searched s.workspaceId "fts" query records.length
  | _, _ => m

def indexed (m : Ledger) : (o : VectorOp) → o.Ret → Ledger
  | .searchTextInWorkspace _ _ query _, .ok results =>
      m.acts fun s => .searched s.workspaceId "semantic" query results.length
  | _, _ => m

def branched (m : Ledger) : (o : BranchOp) → o.Ret → Ledger
  | .forkTrunk _, .ok branch | .fork .., .ok branch => m.acts fun s => .forked s.workspaceId branch
  | .merge source target _, .ok result =>
      m.acts fun s => .merged s.workspaceId source target result.applied
  | _, _ => m

def synced (m : Ledger) : (o : SyncOp) → o.Ret → Ledger
  | .syncNow, .ok round =>
      m.acts fun s => .synced s.workspaceId round.push.deltasSent round.pull.deltasReceived
  | _, _ => m

def reflected (m : Ledger) : (o : ReflectOp) → o.Ret → Ledger
  | .triggerJob .., .ok _ => m.acts fun _ => .reflected
  | _, _ => m

/-- The counter of denials is what a denial begins with. -/
def hosted (m : Ledger) : (o : HostOp) → Ledger
  | .count .sessionDenied => (m.acts .denied).tells (.count .sessionDenied)
  | .count c => m.tells (.count c)
  | .emit e => m.tells (.event e)
  | _ => m

/-- A request that ends a transaction acts for the session that began it. -/
def transacted (m : Ledger) : (o : TxsOp) → o.Ret → Ledger
  | .remove _, some pending => { m with session := some pending.session }
  | _, _ => m

def next (m : Ledger) : (o : Op) → o.Ret → Ledger
  | .guard o, r => m.guarded o r
  | .core o, r => m.stored o r
  | .vector o, r => m.indexed o r
  | .branch o, r => m.branched o r
  | .sync o, r => m.synced o r
  | .reflect o, r => m.reflected o r
  | .host o, _ => m.hosted o
  | .txs o, r => m.transacted o r

variable [Crates]

/-- There is more to tell, beginning with this. -/
def Owes (m : Ledger) (n : Notice) : Prop := ∃ rest, Notified m.deeds (m.told ++ n :: rest)

/-- What was told is part of what the deeds call for. -/
def Sound (m : Ledger) : Prop := ∃ rest, Notified m.deeds (m.told ++ rest)

/-- Everything was told. -/
def Balanced (m : Ledger) : Prop := Notified m.deeds m.told

def hostAllowed (m : Ledger) : HostOp → Prop
  | .count .sessionDenied => m.Balanced ∧ ∃ session, m.session = some session ∧
      ∃ scope, ClawDBEngine.permits session.scopes [scope] = false
  | .count c => m.Owes (.count c)
  | .emit e => m.Owes (.event e)
  | _ => True

def allowed (m : Ledger) : Op → Prop
  | .host o => m.hostAllowed o
  | _ => True

def Denied (m : Ledger) : Prop := ∃ session, Deed.denied session ∈ m.deeds

end Ledger

namespace Reply

/-- The reply is that a scope is missing. -/
def Forbidden : Reply → Prop
  | http r => ∃ reason requestId, r = .mapError (.permissionDenied reason) requestId
  | grpc r => ∃ message, r.result = .error ⟨.permissionDenied, message⟩

/-- How many hits the reply shows, if it shows hits. -/
def hits : Reply → Option Nat
  | http ⟨_, .hits hits⟩ => some hits.length
  | grpc ⟨_, .ok (.search hits)⟩ => some hits.length
  | _ => none

end Reply

section

variable [Crates]

/-- The books of an answered request: they balance, it was denied if that is the reply, and the
hits that were told are those that are shown. -/
structure Ledger.Answered (m : Ledger) (rep : Reply) : Prop where
  balanced : m.Balanced
  denied : rep.Forbidden ↔ m.Denied
  shown : ∀ n, rep.hits = some n → ∃ query, .event (.searchExecuted query n) ∈ m.told

def ledger : Monitor Sig Request Reply Ledger where
  init _ := {}
  allowed _ := Ledger.allowed
  next := Ledger.next
  post _ := Ledger.Answered

end

/-! ## What tells nothing -/

/-- An operation that is no deed, tells nothing, and gives no session. -/
def Op.quiet : Op → Bool
  | .guard (.validateSession _) | .guard (.createSession ..) => false
  | .core (.insertMemory _) | .core (.ftsSearch _) => false
  | .vector (.searchTextInWorkspace ..) => false
  | .branch (.forkTrunk _) | .branch (.fork ..) | .branch (.merge ..) => false
  | .sync .syncNow | .reflect (.triggerJob ..) => false
  | .host (.count _) | .host (.emit _) => false
  | .txs (.remove _) => false
  | _ => true

section

variable [Crates] {req : Request} {m : Ledger} {α β ε : Type}

theorem skips_of_quiet {o : Op} (h : o.quiet = true) : (ledger.protocol req).Skips m o := by
  cases o with
  | guard o =>
      cases o with
      | validateSession | createSession => cases h
      | _ => exact ⟨trivial, fun r => by cases r <;> rfl⟩
  | core o =>
      cases o with
      | insertMemory | ftsSearch => cases h
      | _ => exact ⟨trivial, fun r => by cases r <;> rfl⟩
  | vector o =>
      cases o with
      | searchTextInWorkspace => cases h
      | _ => exact ⟨trivial, fun r => by cases r <;> rfl⟩
  | branch o =>
      cases o with
      | forkTrunk | fork | merge => cases h
      | _ => exact ⟨trivial, fun r => by cases r <;> rfl⟩
  | sync o =>
      cases o with
      | syncNow => cases h
      | _ => exact ⟨trivial, fun r => rfl⟩
  | reflect o =>
      cases o with
      | triggerJob => cases h
      | _ => exact ⟨trivial, fun r => by cases r <;> rfl⟩
  | host o =>
      cases o with
      | count | emit => cases h
      | _ => exact ⟨trivial, fun r => rfl⟩
  | txs o =>
      cases o with
      | remove => cases h
      | _ => exact ⟨trivial, fun r => rfl⟩

/-- The ledger is as it was, and no permission was denied. -/
def Unmoved (m m' : Ledger) (r : Except ClawDBError α) : Prop :=
  m' = m ∧ ∀ reason, r ≠ .error (.permissionDenied reason)

abbrev Quiet (p : Act α) : Prop := p.Within fun o : Op => o.quiet = true

theorem wp_quiet {p : Act α} (hp : Quiet p) :
    p.wp (ledger.protocol req) (fun m' _ => m' = m) m :=
  wp_of_within (hp.mono fun _ => skips_of_quiet)

theorem unmoved_of {p : Act (Except ε α)} {conv : ε → ClawDBError} (hp : Quiet p)
    (hconv : ∀ e reason, conv e ≠ .permissionDenied reason) :
    (Try.of p conv).run.wp (ledger.protocol req) (Unmoved m) m := by
  refine Try.wp_of.mpr (wp_mono (fun m' r hm => ⟨hm, fun reason => ?_⟩) (wp_quiet hp))
  cases r with
  | ok a => exact fun h => nomatch h
  | error e => exact fun h => hconv e reason (Except.error.inj h)

theorem unmoved_lift {p : Act α} (hp : Quiet p) :
    (Try.lift p : Eng α).run.wp (ledger.protocol req) (Unmoved m) m :=
  Try.wp_lift.mpr (wp_mono (fun _ _ hm => ⟨hm, fun _ h => nomatch h⟩) (wp_quiet hp))

theorem unmoved_pure (a : α) :
    (pure a : Eng α).run.wp (ledger.protocol req) (Unmoved m) m :=
  ⟨rfl, fun _ h => nomatch h⟩

theorem unmoved_bind {x : Eng α} {f : α → Eng β}
    (hx : x.run.wp (ledger.protocol req) (Unmoved m) m)
    (hf : ∀ a, (f a).run.wp (ledger.protocol req) (Unmoved m) m) :
    (x >>= f).run.wp (ledger.protocol req) (Unmoved m) m := by
  refine Try.wp_bind.mpr (wp_mono (fun m' r h => ?_) hx)
  obtain ⟨rfl, hr⟩ := h
  cases r with
  | ok a => exact hf a
  | error e => exact ⟨rfl, fun reason h => hr reason (congrArg _ (Except.error.inj h))⟩

/-! ## Settled accounts -/

/-- The books after a call: they balance, it was denied if that is the error, and the hits that
were told are those of the result. -/
structure Settled (shown : α → Option Nat) (m : Ledger) (r : Except ClawDBError α) : Prop where
  balanced : m.Balanced
  denied : (∃ reason, r = .error (.permissionDenied reason)) ↔ m.Denied
  shown : ∀ a n, r = .ok a → shown a = some n →
    ∃ query, .event (.searchExecuted query n) ∈ m.told

/-- A result that shows no hits. -/
abbrev noHits (_ : α) : Option Nat := none

theorem settled_of_unmoved {session : Option ClawDBSession} {x : Eng α}
    (h : x.run.wp (ledger.protocol req) (Unmoved { session := session }) { session := session }) :
    x.run.wp (ledger.protocol req) (Settled noHits) { session := session } := by
  refine wp_mono (fun m' r hm => ?_) h
  obtain ⟨rfl, hr⟩ := hm
  exact ⟨notified_nil, iff_of_false (fun ⟨reason, he⟩ => hr reason he) (fun ⟨_, hd⟩ => nomatch hd),
    fun _ _ _ hn => nomatch hn⟩

/-- A deed of which all was told. -/
theorem settled_deed {session : Option ClawDBSession} {deed : Deed} {ns : List Notice} {a : α}
    (hcalls : deed.Calls ns) (hdeed : ∀ s, deed ≠ .denied s) :
    Settled noHits ⟨session, [deed], ns⟩ (.ok a) := by
  refine ⟨Notified.one hcalls, iff_of_false (fun ⟨_, he⟩ => nomatch he) ?_,
    fun _ _ _ hn => nomatch hn⟩
  rintro ⟨s, hs⟩
  exact hdeed s (List.mem_singleton.mp hs).symm

theorem settled_error {session : Option ClawDBSession} {shown : α → Option Nat} {e : ClawDBError}
    (he : ∀ reason, e ≠ .permissionDenied reason) :
    Settled shown { session := session } (.error e) := by
  refine ⟨notified_nil, iff_of_false ?_ (fun ⟨_, hd⟩ => nomatch hd), fun _ _ hr => nomatch hr⟩
  rintro ⟨reason, hr⟩
  exact he reason (Except.error.inj hr)

/-- What is left to tell of one deed. -/
theorem owes_one {session : Option ClawDBSession} {deed : Deed} {told rest : List Notice}
    {n : Notice} (hcalls : deed.Calls (told ++ n :: rest)) :
    (⟨session, [deed], told⟩ : Ledger).Owes n := ⟨rest, Notified.one hcalls⟩

omit [Crates] in
theorem permits_head_false {scopes accepted : List String}
    (h : ClawDBEngine.permits scopes accepted = false) {scope : String} (hmem : scope ∈ accepted) :
    ClawDBEngine.permits scopes [scope] = false := by
  refine Bool.eq_false_iff.mpr fun hp => Bool.eq_false_iff.mp h ?_
  obtain ⟨required, hr, granted, hg, hm⟩ := permits_iff.mp hp
  obtain rfl := List.mem_singleton.mp hr
  exact permits_iff.mpr ⟨required, hmem, granted, hg, hm⟩

/-- A denial is told of, with the first scope that would have done. -/
theorem settled_authorize {session : ClawDBSession} {scope : String} {scopes : List String}
    {f : Unit → Eng α} {shown : α → Option Nat}
    (hf : (f ()).run.wp (ledger.protocol req) (Settled shown) (Ledger.of session)) :
    (ClawDBEngine.authorize session (scope :: scopes) >>= f).run.wp (ledger.protocol req)
      (Settled shown) (Ledger.of session) := by
  rw [authorize_bind]
  refine ⟨trivial, fun r => ?_⟩
  cases r with
  | error e => exact settled_error (by cases e <;> exact fun _ h => nomatch h)
  | ok g =>
      dsimp only
      split
      next => exact hf
      next hp =>
          have hlacks : ClawDBEngine.permits session.scopes [scope] = false :=
            permits_head_false (Bool.eq_false_iff.mpr hp) List.mem_cons_self
          have hcalls : (Deed.denied session).Calls [.count .sessionDenied,
              .event (.policyDenied session.agentId scope "required scope missing")] :=
            ⟨scope, hlacks, rfl⟩
          refine ⟨⟨notified_nil, session, rfl, scope, hlacks⟩,
            fun _ => ⟨owes_one hcalls, fun _ => ?_⟩⟩
          exact ⟨Notified.one hcalls, iff_of_true ⟨_, rfl⟩ ⟨session, List.mem_cons_self⟩,
            fun _ _ hr => nomatch hr⟩

/-! ## The calls of the engine -/

theorem wp_count {c : Metric} {f : Unit → Eng α} {Q : Ledger → Except ClawDBError α → Prop}
    (hc : c ≠ .sessionDenied) (howes : m.Owes (.count c))
    (hf : (f ()).run.wp (ledger.protocol req) Q (m.tells (.count c))) :
    (ClawDBEngine.count c >>= f).run.wp (ledger.protocol req) Q m := by
  refine Try.wp_bind.mpr (Try.wp_lift.mpr ?_)
  cases c with
  | sessionDenied => exact absurd rfl hc
  | _ => exact ⟨howes, fun _ => hf⟩

theorem wp_emit {e : ClawEvent} {f : Unit → Eng α} {Q : Ledger → Except ClawDBError α → Prop}
    (howes : m.Owes (.event e))
    (hf : (f ()).run.wp (ledger.protocol req) Q (m.tells (.event e))) :
    (ClawDBEngine.emit e >>= f).run.wp (ledger.protocol req) Q m :=
  Try.wp_bind.mpr (Try.wp_lift.mpr ⟨howes, fun _ => hf⟩)

/-- A counter and an event are told of a deed, and nothing is left to do. -/
theorem settled_two {session : Option ClawDBSession} (deed : Deed) {c : Metric} {e : ClawEvent}
    {a : α} (hcalls : deed.Calls [.count c, .event e]) (hdeed : ∀ s, deed ≠ .denied s)
    (hc : c ≠ .sessionDenied) :
    (ClawDBEngine.count c >>= fun _ => ClawDBEngine.emit e >>= fun _ => (pure a : Eng α)).run.wp
      (ledger.protocol req) (Settled noHits) ⟨session, [deed], []⟩ :=
  wp_count hc (owes_one hcalls) (wp_emit (owes_one hcalls) (settled_deed hcalls hdeed))

omit [Crates] in
theorem quiet_perform {o : Op} (h : o.quiet = true) : Quiet (Prog.perform (F := Sig) o) :=
  ⟨h, fun _ => trivial⟩

theorem unmoved_getMemories (ids : List Uuid) :
    (ClawDBEngine.getMemories ids).run.wp (ledger.protocol req) (Unmoved m) m := by
  induction ids with
  | nil => exact unmoved_pure _
  | cons id ids ih =>
      exact unmoved_bind (unmoved_of (quiet_perform rfl) fun _ _ h => nomatch h) fun record =>
        unmoved_bind ih fun records => unmoved_pure _

section

variable (db : ClawDBEngine) (session : ClawDBSession)

theorem wp_indexing {content : String} {memoryId : Uuid} {record : MemoryRecord}
    {metadata : Json.Value} {Q : Ledger → Except ClawDBError Bool → Prop}
    (hQ : ∀ indexed, Q m (.ok indexed)) :
    (db.indexed session content memoryId record metadata).run.wp (ledger.protocol req) Q m := by
  unfold ClawDBEngine.indexed
  split
  · refine Try.wp_bind.mpr (Try.wp_lift.mpr ⟨trivial, fun r => ?_⟩)
    cases r <;> exact hQ _
  · exact hQ false

theorem settled_rememberTyped (content memoryType : String) (tags : List String)
    (metadata : Json.Value) :
    (db.rememberTyped session content memoryType tags metadata).run.wp (ledger.protocol req)
      (Settled noHits) (Ledger.of session) := by
  refine settled_authorize (Try.wp_bind.mpr (Try.wp_bind.mpr (Try.wp_lift.mpr ⟨trivial,
    fun id => Try.wp_bind.mpr (Try.wp_of.mpr ⟨trivial, fun r => ?_⟩)⟩)))
  cases r with
  | error e => exact settled_error fun _ h => nomatch h
  | ok memoryId =>
      refine Try.wp_bind.mpr (wp_indexing db session fun indexed => ?_)
      exact settled_two (.remembered session.workspaceId memoryId) rfl
        (fun _ h => nomatch h) fun h => nomatch h

/-- A branch is forked, one way or the other. -/
theorem settled_forked {fork : Eng Branch}
    (hfork : ∀ {Q : Ledger → Except ClawDBError Branch → Prop},
      (∀ e, Q (Ledger.of session) (.error (.branch e))) →
      (∀ b, Q ⟨session, [.forked session.workspaceId b], []⟩ (.ok b)) →
        fork.run.wp (ledger.protocol req) Q (Ledger.of session)) :
    (ClawDBEngine.forked session fork).run.wp (ledger.protocol req) (Settled noHits)
      (Ledger.of session) := by
  refine settled_authorize (Try.wp_bind.mpr (hfork (fun e => ?_) fun b => ?_))
  · exact settled_error fun _ h => nomatch h
  · exact settled_two (.forked session.workspaceId b) rfl (fun _ h => nomatch h)
      fun h => nomatch h

theorem settled_merge (source target : Uuid) (strategy : MergeStrategy) :
    (ClawDBEngine.mergeWithStrategy session source target strategy).run.wp (ledger.protocol req)
      (Settled noHits) (Ledger.of session) := by
  refine settled_authorize (Try.wp_bind.mpr (Try.wp_of.mpr ⟨trivial, fun r => ?_⟩))
  cases r with
  | error e => exact settled_error fun _ h => nomatch h
  | ok result =>
      exact settled_two (.merged session.workspaceId source target result.applied) rfl
        (fun _ h => nomatch h) fun h => nomatch h

theorem settled_sync :
    (db.sync session).run.wp (ledger.protocol req) (Settled noHits) (Ledger.of session) := by
  refine settled_authorize ?_
  split
  · exact settled_of_unmoved (unmoved_pure _)
  · refine Try.wp_bind.mpr (Try.wp_of.mpr ⟨trivial, fun r => ?_⟩)
    cases r with
    | error e => exact settled_error fun _ h => nomatch h
    | ok round =>
        let deed : Deed :=
          .synced session.workspaceId round.push.deltasSent round.pull.deltasReceived
        have hcalls : deed.Calls _ := rfl
        refine wp_count (fun h => nomatch h) (owes_one hcalls) ?_
        refine wp_count (fun h => nomatch h) (owes_one hcalls) (wp_emit (owes_one hcalls) ?_)
        exact settled_deed hcalls fun _ h => nomatch h

theorem settled_reflect :
    (db.reflect session).run.wp (ledger.protocol req) (Settled noHits) (Ledger.of session) := by
  refine settled_authorize ?_
  split
  · refine Try.wp_bind.mpr (Try.wp_of.mpr ⟨trivial, fun r => ?_⟩)
    cases r with
    | error e => exact settled_error fun _ h => nomatch h
    | ok job =>
        have hcalls : Deed.reflected.Calls _ := rfl
        exact wp_emit (owes_one hcalls) (settled_deed hcalls fun _ h => nomatch h)
  · exact settled_of_unmoved (unmoved_pure _)

theorem settled_viaReflect {scope : String} {scopes : List String}
    {p : Act (Except String α)} (hp : Quiet p) :
    (db.viaReflect session (scope :: scopes) (Try.of p .reflect)).run.wp (ledger.protocol req)
      (Settled noHits) (Ledger.of session) := by
  refine settled_authorize (settled_of_unmoved ?_)
  split
  · exact unmoved_of hp fun _ _ h => nomatch h
  · exact ⟨rfl, fun _ h => nomatch h⟩

theorem wp_hits {query : String} {topK : Nat} {semantic : Bool} {filter : Option Json.Value}
    {Q : Ledger → Except ClawDBError (List SearchHit) → Prop}
    (herr : ∀ e, (∀ reason, e ≠ .permissionDenied reason) → Q (Ledger.of session) (.error e))
    (hok : ∀ found hits, hits.length ≤ found → Q ⟨session, [.searched session.workspaceId
      (if db.useSemantic semantic then "semantic" else "fts") query found], []⟩ (.ok hits)) :
    (db.hits session query topK semantic filter).run.wp (ledger.protocol req) Q
      (Ledger.of session) := by
  unfold ClawDBEngine.hits
  have hlength : ∀ {β : Type} (l : List β) (p : β → Bool) (f : β → SearchHit),
      (((l.filter p).take topK).map f).length ≤ l.length := by
    intro β l p f
    rw [List.length_map]
    exact Nat.le_trans (List.length_take_le' ..) (List.length_filter_le ..)
  split
  next hsemantic =>
      rw [if_pos hsemantic] at hok
      refine Try.wp_bind.mpr (Try.wp_of.mpr ⟨trivial, fun r => ?_⟩)
      cases r with
      | error e => exact herr _ fun _ h => nomatch h
      | ok results => exact hok _ _ (hlength ..)
  next hsemantic =>
      rw [if_neg hsemantic] at hok
      refine Try.wp_bind.mpr (Try.wp_of.mpr ⟨trivial, fun r => ?_⟩)
      cases r with
      | error e => exact herr _ fun _ h => nomatch h
      | ok records => exact hok _ _ (hlength ..)

theorem settled_search (query : String) (topK : Nat) (semantic : Bool)
    (filter : Option Json.Value) :
    (db.searchWithOptions session query topK semantic filter).run.wp (ledger.protocol req)
      (Settled fun hits => some hits.length) (Ledger.of session) := by
  refine settled_authorize (Try.wp_bind.mpr (wp_hits db session (fun e he => ?_)
    fun found hits hfound => ?_))
  · exact settled_error he
  · let deed : Deed := .searched session.workspaceId
      (if db.useSemantic semantic then "semantic" else "fts") query found
    have hcalls : deed.Calls _ := ⟨hits.length, hfound, rfl⟩
    refine wp_count (fun h => nomatch h) (owes_one hcalls) ?_
    refine wp_count (fun h => nomatch h) (owes_one hcalls) (wp_emit (owes_one hcalls) ?_)
    refine ⟨Notified.one hcalls, iff_of_false (fun ⟨_, he⟩ => nomatch he) ?_, fun a n ha hn => ?_⟩
    · rintro ⟨s, hs⟩
      cases List.mem_singleton.mp hs
    · obtain rfl := Except.ok.inj ha
      obtain rfl := Option.some.inj hn
      exact ⟨query, by simp [Ledger.tells]⟩

/-- The hits a call shows. -/
def SessionCall.shown : (c : SessionCall) → c.Ret → Option Nat
  | .search _, hits => some hits.length
  | .searchWithOptions .., hits => some hits.length
  | _, _ => none

/-- Every method leaves its books settled. -/
theorem settled_perform (c : SessionCall) :
    (c.perform db session).run.wp (ledger.protocol req) (Settled c.shown) (Ledger.of session) := by
  cases c with
  | remember content => exact settled_rememberTyped db session ..
  | rememberTyped content memoryType tags metadata => exact settled_rememberTyped db session ..
  | search query => exact settled_search db session ..
  | searchWithOptions query topK semantic filter => exact settled_search db session ..
  | «recall» memoryIds => exact settled_authorize (settled_of_unmoved (unmoved_getMemories _))
  | branch name | forkBranch parent name =>
      refine settled_forked session fun herr hok => Try.wp_of.mpr ⟨trivial, fun r => ?_⟩
      cases r with
      | error e => exact herr e
      | ok b => exact hok b
  | merge source target => exact settled_merge session ..
  | mergeWithStrategy source target strategy => exact settled_merge session ..
  | sync => exact settled_sync db session
  | syncStatus =>
      exact settled_authorize (settled_of_unmoved (unmoved_lift (quiet_perform rfl)))
  | reflect => exact settled_reflect db session
  | reflectGetFacts | reflectListJobs | reflectGetJob | reflectGetPreferences
  | reflectGetContradictions | reflectResolveContradiction =>
      exact settled_viaReflect db session (quiet_perform rfl)
  | transaction =>
      exact settled_authorize (settled_of_unmoved (unmoved_bind
        (unmoved_of (quiet_perform rfl) fun _ _ h => nomatch h) fun _ => unmoved_pure _))
  | _ =>
      exact settled_authorize (settled_of_unmoved
        (unmoved_of (quiet_perform rfl) fun _ _ h => nomatch h))

end

/-! ## The handlers -/

/-- A reply that neither denies nor shows hits. -/
def Reply.Plain (rep : Reply) : Prop := ¬rep.Forbidden ∧ rep.hits = none

theorem answered_plain {session : Option ClawDBSession} {rep : Reply} (h : rep.Plain) :
    ({ session := session } : Ledger).Answered rep where
  balanced := notified_nil
  denied := iff_of_false h.1 fun ⟨_, hd⟩ => nomatch hd
  shown _ hn := nomatch h.2.symm.trans hn

end

section Ending

variable [Crates] {req : Request} {m : Ledger} {α β : Type}

/-- Nothing that follows a settled call disturbs its books. -/
theorem settled_bind {x : Eng α} {f : α → Eng β}
    (hx : x.run.wp (ledger.protocol req) (Settled noHits) m)
    (hf : ∀ a m, (f a).run.wp (ledger.protocol req) (Unmoved m) m) :
    (x >>= f).run.wp (ledger.protocol req) (Settled noHits) m := by
  refine Try.wp_bind.mpr (wp_mono (fun m' r h => ?_) hx)
  cases r with
  | ok a =>
      have hdenied : ¬m'.Denied := fun hd => nomatch h.denied.mpr hd
      refine wp_mono (fun m'' r hm => ?_) (hf a m')
      obtain ⟨rfl, hr⟩ := hm
      exact ⟨h.balanced, iff_of_false (fun ⟨reason, he⟩ => hr reason he) hdenied,
        fun _ _ _ hn => nomatch hn⟩
  | error e =>
      refine ⟨h.balanced, ?_, fun _ _ _ hn => nomatch hn⟩
      rw [← h.denied]
      simp

theorem unmoved_replay (rest : List StagedMemory) (tx : ClawTransaction) :
    (PendingTransaction.replay tx rest).run.wp (ledger.protocol req) (Unmoved m) m := by
  induction rest generalizing tx with
  | nil => exact unmoved_pure _
  | cons staged rest ih =>
      refine unmoved_bind ?_ fun stored => ih _
      refine unmoved_bind (unmoved_bind (unmoved_lift (quiet_perform rfl)) fun _ =>
        unmoved_pure _) fun record => ?_
      exact unmoved_bind (unmoved_of (quiet_perform rfl) fun _ _ h => nomatch h) fun _ =>
        unmoved_pure _

theorem unmoved_flush (workspaceId : String) (upserts : List (String × Json.Value)) :
    (ClawTransaction.flush workspaceId upserts).run.wp (ledger.protocol req) (Unmoved m) m := by
  induction upserts with
  | nil => exact unmoved_pure _
  | cons upsert rest ih => exact unmoved_bind (unmoved_lift (quiet_perform rfl)) fun _ => ih

variable (db : ClawDBEngine) (pending : PendingTransaction)

theorem settled_commit : (pending.commit db).run.wp (ledger.protocol req) (Settled noHits)
    (Ledger.of pending.session) := by
  refine settled_bind (settled_perform db pending.session .transaction) fun tx m => ?_
  refine unmoved_bind (unmoved_replay pending.stagedMemories tx) fun tx => ?_
  refine unmoved_bind (unmoved_of (quiet_perform rfl) fun _ _ h => nomatch h) fun _ => ?_
  split
  · exact unmoved_flush ..
  · exact unmoved_pure _

theorem settled_rollback : (pending.rollback db).run.wp (ledger.protocol req) (Settled noHits)
    (Ledger.of pending.session) :=
  settled_bind (settled_perform db pending.session .transaction) fun _ _ =>
    unmoved_of (quiet_perform rfl) fun _ _ h => nomatch h

variable {session : Option ClawDBSession}

theorem unmoved_health : db.health.run.wp (ledger.protocol req) (Unmoved m) m := by
  refine unmoved_bind (unmoved_lift (quiet_perform rfl)) fun core => unmoved_bind ?_ fun _ =>
    unmoved_bind ?_ fun syncHealthy => unmoved_pure _
  · unfold ClawDBEngine.probeVector
    split
    · exact unmoved_bind (unmoved_lift (quiet_perform rfl)) fun _ => unmoved_pure _
    · exact unmoved_pure _
  · unfold ClawDBEngine.syncHealthy
    split
    · exact unmoved_pure _
    · exact unmoved_bind (unmoved_lift (quiet_perform rfl)) fun _ => unmoved_pure _

theorem unmoved_activeSessionCount :
    ClawDBEngine.activeSessionCount.run.wp (ledger.protocol req) (Unmoved m) m :=
  unmoved_bind (unmoved_of (quiet_perform rfl) fun _ _ h => nomatch h) fun _ => unmoved_pure _

theorem unmoved_revokeSession (id : Uuid) :
    (ClawDBEngine.revokeSession id).run.wp (ledger.protocol req) (Unmoved m) m :=
  unmoved_of (quiet_perform rfl) fun _ _ h => nomatch h

theorem settled_sessionWithTtl (agentId : Uuid) (role : String) (scopes : List String)
    (ttlSecs : Int) : (db.sessionWithTtl agentId role scopes ttlSecs).run.wp (ledger.protocol req)
      (Settled noHits) { session := session } := by
  rw [sessionWithTtl_run]
  refine ⟨trivial, fun r => ?_⟩
  cases r with
  | error e => exact settled_error fun _ h => nomatch h
  | ok g =>
      have hcalls : (Deed.opened g.id agentId).Calls _ := rfl
      exact ⟨owes_one hcalls, fun _ => ⟨owes_one hcalls, fun _ =>
        settled_deed hcalls fun _ h => nomatch h⟩⟩

end Ending

section Http

variable [Crates] (db : ClawDBEngine) {req : Request} {α : Type}

omit [Crates] in
theorem not_forbidden_of_status {r : Response} (h : r.status ≠ 403) :
    ¬(Reply.http r).Forbidden := by
  rintro ⟨reason, requestId, rfl⟩
  exact h rfl

omit [Crates] in
theorem forbidden_mapError {e : ClawDBError} {requestId : Option String} :
    (Reply.http (.mapError e requestId)).Forbidden ↔ ∃ reason, e = .permissionDenied reason := by
  constructor
  · intro h
    cases e with
    | permissionDenied reason => exact ⟨reason, rfl⟩
    | _ => exact absurd h (not_forbidden_of_status fun hs => nomatch hs)
  · rintro ⟨reason, rfl⟩
    exact ⟨reason, requestId, rfl⟩

omit [Crates] in
theorem hits_mapError (e : ClawDBError) (requestId : Option String) :
    (Reply.http (.mapError e requestId)).hits = none := by
  cases e <;> rfl

omit [Crates] in
theorem plain_json (v : Json.Value) : (Reply.http (.json v)).Plain :=
  ⟨not_forbidden_of_status fun h => (nomatch h), rfl⟩

omit [Crates] in
theorem plain_rejection (r : Http.Rejection) : (Reply.http r.response).Plain := by
  refine ⟨?_, rfl⟩
  rintro ⟨reason, requestId, h⟩
  cases congrArg Response.body h

/-- A reply that is settled as its call was. -/
theorem answered_answer {requestId : Option String} {call : Eng α} {ok : α → Response}
    {shown : α → Option Nat} {m : Ledger}
    (hcall : call.run.wp (ledger.protocol req) (Settled shown) m)
    (hok : ∀ a, (ok a).status ≠ 403 ∧ (Reply.http (ok a)).hits = shown a) :
    (Http.answer requestId call ok).wp (ledger.protocol req)
      (fun m r => m.Answered (.http r)) m := by
  refine Prog.wp_bind.mpr (wp_mono (fun m' r h => ?_) hcall)
  cases r with
  | ok a =>
      obtain ⟨hstatus, hhits⟩ := hok a
      refine ⟨h.balanced, ?_, fun n hn => h.shown a n rfl (hhits.symm.trans hn)⟩
      rw [← h.denied]
      exact iff_of_false (not_forbidden_of_status hstatus) fun ⟨_, he⟩ => nomatch he
  | error e =>
      refine ⟨h.balanced, ?_, fun n hn => nomatch (hits_mapError e requestId).symm.trans hn⟩
      rw [← h.denied, forbidden_mapError]
      simp

theorem answered_extract {x : Http.Extracted α} {handler : α → Act Response}
    {session : Option ClawDBSession}
    (h : ∀ a, (handler a).wp (ledger.protocol req) (fun m r => m.Answered (.http r))
      { session := session }) :
    (Http.extract x handler).wp (ledger.protocol req) (fun m r => m.Answered (.http r))
      { session := session } := by
  cases x with
  | ok a => exact h a
  | error rejection => exact answered_plain (plain_rejection rejection)

variable (requestId : String) (session : ClawDBSession)

/-- A call that replies with an object. -/
theorem answered_call (c : SessionCall) {ok : c.Ret → Response}
    (hok : ∀ a, (ok a).status ≠ 403 ∧ (Reply.http (ok a)).hits = c.shown a) :
    (Http.answer (some requestId) (c.perform db session) ok).wp (ledger.protocol req)
      (fun m r => m.Answered (.http r)) (Ledger.of session) :=
  answered_answer (settled_perform db session c) hok

/-- The handlers of the protected routes, for the session of the token. -/
theorem answered_protected (route : Http.Protected) :
    (route.handle db requestId session).wp (ledger.protocol req)
      (fun m r => m.Answered (.http r)) (Ledger.of session) := by
  have hjson : ∀ v : Json.Value,
      (Response.json v).status ≠ 403 ∧ (Reply.http (.json v)).hits = none :=
    fun v => ⟨fun h => (nomatch h), rfl⟩
  have hnoContent : Response.noContent.status ≠ 403 ∧ (Reply.http .noContent).hits = none :=
    ⟨fun h => (nomatch h), rfl⟩
  have hnotFound : (Reply.http (.transactionNotFound requestId)).Plain :=
    ⟨not_forbidden_of_status fun h => (nomatch h), rfl⟩
  cases route with
  | whoami => exact answered_plain (plain_json _)
  | revokeSession id =>
      exact answered_extract fun id =>
        answered_answer (settled_of_unmoved (unmoved_revokeSession id)) fun _ => hnoContent
  | activeSessionCount =>
      exact answered_answer (settled_of_unmoved unmoved_activeSessionCount) fun _ => hjson _
  | remember body =>
      refine answered_extract fun body => ?_
      obtain ⟨content, type, tags, metadata⟩ := body
      cases type with
      | some type =>
          exact answered_call db requestId session (.rememberTyped content type tags metadata)
            fun _ => hjson _
      | none => exact answered_call db requestId session (.remember content) fun _ => hjson _
  | search query =>
      exact answered_extract fun query => answered_call db requestId session
        (.searchWithOptions query.q query.topK query.semantic none)
        fun hits => ⟨fun h => (nomatch h), rfl⟩
  | recallOne id =>
      refine answered_extract fun id => answered_call db requestId session (.«recall» [id])
        fun memories => ?_
      cases memories.getLast? with
      | some memory => exact ⟨fun h => (nomatch h), rfl⟩
      | none => exact ⟨fun h => (nomatch h), rfl⟩
  | listMemories query =>
      exact answered_extract fun query => answered_call db requestId session
        (.listMemories query.type) fun memories => ⟨fun h => (nomatch h), rfl⟩
  | updateMemory id body =>
      exact answered_extract fun id => answered_extract fun body =>
        answered_call db requestId session (.updateMemory id body.content) fun _ => hjson _
  | deleteMemory id =>
      exact answered_extract fun id =>
        answered_call db requestId session (.deleteMemory id) fun _ => hnoContent
  | createBranch body =>
      refine answered_extract fun body => ?_
      obtain ⟨name, parent⟩ := body
      cases parent with
      | some parent =>
          exact answered_call db requestId session (.forkBranch parent name) fun _ => hjson _
      | none => exact answered_call db requestId session (.branch name) fun _ => hjson _
  | mergeBranch id body =>
      exact answered_extract fun id => answered_extract fun body =>
        answered_call db requestId session (.mergeWithStrategy id body.target _) fun _ => hjson _
  | diffBranch id query =>
      exact answered_extract fun id => answered_extract fun query =>
        answered_call db requestId session (.diff id query.target) fun _ => hjson _
  | archiveBranch id =>
      exact answered_extract fun id =>
        answered_call db requestId session (.archiveBranch id) fun _ => hnoContent
  | getBranch id =>
      exact answered_extract fun id =>
        answered_call db requestId session (.getBranch id) fun _ => hjson _
  | discardBranch id =>
      exact answered_extract fun id =>
        answered_call db requestId session (.discardBranch id) fun _ => hnoContent
  | listBranches => exact answered_call db requestId session .listBranches fun _ => hjson _
  | getTrunkBranch => exact answered_call db requestId session .trunkBranch fun _ => hjson _
  | getBranchByName name =>
      exact answered_call db requestId session (.getBranchByName name) fun _ => hjson _
  | sync => exact answered_call db requestId session .sync fun _ => hjson _
  | pushSync => exact answered_call db requestId session .pushSync fun _ => hjson _
  | pullSync => exact answered_call db requestId session .pullSync fun _ => hjson _
  | reconcileSync => exact answered_call db requestId session .reconcileSync fun _ => hjson _
  | syncStatus => exact answered_call db requestId session .syncStatus fun _ => hjson _
  | reflect => exact answered_call db requestId session .reflect fun _ => hjson _
  | listReflectJobs query =>
      exact answered_extract fun query => answered_call db requestId session
        (.reflectListJobs query.agentId query.status _ _) fun _ => hjson _
  | getReflectJob jobId =>
      exact answered_call db requestId session (.reflectGetJob jobId) fun _ => hjson _
  | getReflectFacts agentId =>
      exact answered_call db requestId session (.reflectGetFacts agentId) fun _ => hjson _
  | getReflectPreferences agentId =>
      exact answered_call db requestId session (.reflectGetPreferences agentId) fun _ => hjson _
  | getReflectContradictions agentId =>
      exact answered_call db requestId session (.reflectGetContradictions agentId) fun _ => hjson _
  | resolveReflectContradiction agentId contradictionId body =>
      exact answered_extract fun body => answered_call db requestId session
        (.reflectResolveContradiction agentId contradictionId body.strategy body.mergedValue)
        fun _ => hjson _
  | beginTransaction => exact ⟨trivial, fun id => ⟨trivial, fun _ => answered_plain (plain_json _)⟩⟩
  | txRemember id body | txRememberTyped id body =>
      refine answered_extract fun id => answered_extract fun body => ⟨trivial, fun found => ?_⟩
      cases found with
      | true => exact answered_plain (plain_json _)
      | false => exact answered_plain hnotFound
  | commitTransaction id =>
      refine answered_extract fun id => ⟨trivial, fun pending => ?_⟩
      cases pending with
      | none => exact answered_plain hnotFound
      | some pending => exact answered_answer (settled_commit db pending) fun _ => hjson _
  | rollbackTransaction id =>
      refine answered_extract fun id => ⟨trivial, fun pending => ?_⟩
      cases pending with
      | none => exact answered_plain hnotFound
      | some pending => exact answered_answer (settled_rollback db pending) fun _ => hjson _

theorem answered_http (r : Http.Request) :
    (Http.serve db r).wp (ledger.protocol req) (fun m rep => m.Answered (.http rep)) {} := by
  have hunauthorized : (Reply.http .unauthorized).Plain :=
    ⟨not_forbidden_of_status fun h => (nomatch h), rfl⟩
  unfold Http.serve
  cases r.route with
  | health =>
      exact answered_answer (settled_of_unmoved (unmoved_health db))
        fun _ => ⟨fun h => (nomatch h), rfl⟩
  | ready =>
      refine answered_answer (settled_of_unmoved (unmoved_health db)) fun report => ?_
      cases report.ok <;> exact ⟨fun h => (nomatch h), rfl⟩
  | createSession body =>
      exact answered_extract fun body => answered_answer (settled_sessionWithTtl db ..)
        fun _ => ⟨fun h => (nomatch h), rfl⟩
  | metrics =>
      refine Prog.wp_bind.mpr (wp_mono (fun m' _ h => ?_) unmoved_activeSessionCount)
      obtain ⟨rfl, -⟩ := h
      exact ⟨trivial, fun _ => answered_plain ⟨not_forbidden_of_status fun h => (nomatch h), rfl⟩⟩
  | «protected» route =>
      dsimp only
      unfold Http.authMiddleware
      split
      next => exact answered_plain hunauthorized
      next token htoken =>
        refine Prog.wp_bind.mpr (Try.wp_bind.mpr (Try.wp_of.mpr ⟨trivial, fun reply => ?_⟩))
        cases reply with
        | error e => exact answered_plain hunauthorized
        | ok g =>
            refine ⟨trivial, fun within => ?_⟩
            cases within with
            | true => exact answered_protected db r.requestId g.toSession route
            | false =>
                exact answered_plain ⟨not_forbidden_of_status fun h => (nomatch h), rfl⟩

end Http

section Grpc

variable [Crates] (db : ClawDBEngine) {req : Request} {m : Ledger} {α : Type}
  {session : Option ClawDBSession} {requestId : String}

/-- What a method of the service leaves. -/
abbrev RpcAnswered (requestId : String) (m : Ledger) (result : Except Status Message) : Prop :=
  m.Answered (.grpc ⟨some requestId, result⟩)

theorem answered_status {status : Status} (h : status.code ≠ .permissionDenied) :
    RpcAnswered requestId { session := session } (.error status) := by
  refine answered_plain ⟨?_, rfl⟩
  rintro ⟨message, he⟩
  exact h (congrArg Status.code (Except.error.inj he))

theorem answered_message {message : Message}
    (h : (Reply.grpc ⟨some requestId, .ok message⟩).hits = none) :
    RpcAnswered requestId { session := session } (.ok message) :=
  answered_plain ⟨fun ⟨_, he⟩ => (nomatch he), h⟩

omit [Crates] in
theorem code_mapError {e : ClawDBError} :
    (Status.mapError requestId e).code = .permissionDenied ↔
      ∃ reason, e = .permissionDenied reason := by
  cases e <;> simp [Status.mapError]

/-- A call, and a message made of its result. -/
theorem answered_reply {call : Eng α} {f : α → Message} {shown : α → Option Nat}
    (hcall : call.run.wp (ledger.protocol req) (Settled shown) m)
    (hf : ∀ a, (Reply.grpc ⟨some requestId, .ok (f a)⟩).hits = shown a) :
    (Grpc.call requestId call >>= fun a => pure (f a)).run.wp (ledger.protocol req)
      (RpcAnswered requestId) m := by
  refine Try.wp_bind.mpr (Try.wp_of.mpr (wp_mono (fun m' r h => ?_) hcall))
  cases r with
  | ok a =>
      refine ⟨h.balanced, ?_, fun n hn => h.shown a n rfl ((hf a).symm.trans hn)⟩
      rw [← h.denied]
      exact iff_of_false (fun ⟨_, he⟩ => nomatch he) fun ⟨_, he⟩ => nomatch he
  | error e =>
      refine ⟨h.balanced, ?_, fun n hn => nomatch hn⟩
      rw [← h.denied]
      constructor
      · rintro ⟨message, he⟩
        obtain ⟨reason, rfl⟩ :=
          code_mapError.mp (congrArg Status.code (Except.error.inj he))
        exact ⟨reason, rfl⟩
      · rintro ⟨reason, he⟩
        obtain rfl := Except.error.inj he
        exact ⟨reason, rfl⟩

theorem answered_session {token : Option String} {k : String × ClawDBSession → Grpc.Rpc Message}
    (h : ∀ token session, (k (token, session)).run.wp (ledger.protocol req)
      (RpcAnswered requestId) (Ledger.of session)) :
    (Grpc.sessionFromRequest token >>= k).run.wp (ledger.protocol req)
      (RpcAnswered requestId) {} := by
  cases token with
  | none => exact answered_status fun h => (nomatch h)
  | some token =>
      refine Try.wp_bind.mpr (Try.wp_bind.mpr (Try.wp_of.mpr (Try.wp_bind.mpr
        (Try.wp_of.mpr ⟨trivial, fun reply => ?_⟩))))
      cases reply with
      | error e => exact answered_status fun h => (nomatch h)
      | ok g => exact h token g.toSession

theorem answered_parseUuid {message text : String} {k : Uuid → Grpc.Rpc Message}
    (h : ∀ id, (k id).run.wp (ledger.protocol req) (RpcAnswered requestId)
      { session := session }) :
    (Grpc.parseUuid message text >>= k).run.wp (ledger.protocol req) (RpcAnswered requestId)
      { session := session } := by
  refine Try.wp_bind.mpr ?_
  unfold Grpc.parseUuid
  split
  · exact h _
  · exact answered_status fun h => (nomatch h)

theorem answered_parseJson {message text : String} {k : Option Json.Value → Grpc.Rpc Message}
    (h : ∀ value, (k value).run.wp (ledger.protocol req) (RpcAnswered requestId)
      { session := session }) :
    (Grpc.parseJson message text >>= k).run.wp (ledger.protocol req) (RpcAnswered requestId)
      { session := session } := by
  refine Try.wp_bind.mpr ?_
  unfold Grpc.parseJson
  split
  · exact h none
  · split
    · exact h (some _)
    · exact answered_status fun h => (nomatch h)

theorem answered_parseIds {ids : List String} {k : List Uuid → Grpc.Rpc Message}
    (h : ∀ ids, (k ids).run.wp (ledger.protocol req) (RpcAnswered requestId)
      { session := session }) :
    (Grpc.parseIds ids >>= k).run.wp (ledger.protocol req) (RpcAnswered requestId)
      { session := session } := by
  induction ids generalizing k with
  | nil => exact h []
  | cons id rest ih =>
      rw [Grpc.parseIds]
      rw [bind_assoc]
      refine answered_parseUuid fun parsed => ?_
      rw [bind_assoc]
      exact ih fun ids => h (parsed :: ids)

-- what a text parses to is decided by the lemmas above, not by unfolding
attribute [local irreducible] Grpc.parseJson Grpc.parseUuid

/-- A method that makes one call for the session of its token. -/
theorem answered_one {token : Option String} (c : SessionCall) {f : c.Ret → Message}
    (hf : ∀ a, (Reply.grpc ⟨some requestId, .ok (f a)⟩).hits = c.shown a) :
    (Grpc.sessionFromRequest token >>= fun ts => Grpc.call requestId (c.perform db ts.2) >>=
      fun a => pure (f a)).run.wp (ledger.protocol req) (RpcAnswered requestId) {} :=
  answered_session fun _ session => answered_reply (settled_perform db session c) hf

theorem answered_staged {id : Uuid} {staged : StagedMemory} :
    (Grpc.stage id staged).run.wp (ledger.protocol req) (RpcAnswered requestId) {} := by
  refine Try.wp_bind.mpr (Try.wp_lift.mpr ⟨trivial, fun stagedId => ?_⟩)
  refine Try.wp_bind.mpr (Try.wp_lift.mpr ⟨trivial, fun found => ?_⟩)
  cases found with
  | true => exact answered_message rfl
  | false => exact answered_status fun h => (nomatch h)

theorem answered_terminate {txId : String} {finish : PendingTransaction → Eng Unit}
    {ok : Message} (hok : (Reply.grpc ⟨some requestId, .ok ok⟩).hits = none)
    (h : ∀ pending, (finish pending).run.wp (ledger.protocol req) (Settled noHits)
      (Ledger.of pending.session)) :
    (Grpc.terminate requestId txId finish ok).run.wp (ledger.protocol req)
      (RpcAnswered requestId) {} := by
  refine answered_parseUuid fun id => Try.wp_bind.mpr (Try.wp_lift.mpr ⟨trivial, fun pending => ?_⟩)
  cases pending with
  | none => exact answered_status fun h => (nomatch h)
  | some pending => exact answered_reply (h pending) fun _ => hok

include db in
theorem answered_branch {token : Option String} {name «from» : String} :
    (Grpc.branch requestId token name «from»).run.wp (ledger.protocol req)
      (RpcAnswered requestId) {} := by
  refine answered_session fun _ session => ?_
  show (Grpc.forked requestId session name «from» >>= fun id =>
    (pure (.branch (Crates.uuidToString id) name) : Grpc.Rpc Message)).run.wp _ _ _
  unfold Grpc.forked
  split
  · exact answered_reply (settled_perform db session (.branch name)) fun _ => rfl
  · rw [bind_assoc]
    exact answered_parseUuid fun parent =>
      answered_reply (settled_perform db session (.forkBranch parent name)) fun _ => rfl

theorem answered_method (method : Grpc.Method) (token : Option String) :
    (method.handle db requestId token).run.wp (ledger.protocol req) (RpcAnswered requestId) {} := by
  cases method with
  | health => exact answered_reply (settled_of_unmoved (unmoved_health db)) fun _ => rfl
  | createSession agentId role scopes ttlSecs =>
      exact answered_session fun _ session => answered_parseUuid fun id =>
        answered_reply (settled_sessionWithTtl db ..) fun _ => rfl
  | validateSession => exact answered_session fun _ _ => answered_message rfl
  | revokeSession sessionId =>
      exact answered_session fun _ session => answered_parseUuid fun id =>
        answered_reply (settled_of_unmoved (unmoved_revokeSession id)) fun _ => rfl
  | remember content => exact answered_one db (.remember content) fun _ => rfl
  | rememberTyped content type tags metadataJson =>
      exact answered_session fun _ session => answered_parseJson fun metadata =>
        answered_reply (settled_perform db session (.rememberTyped content type tags _))
          fun _ => rfl
  | updateMemory memoryId content =>
      exact answered_session fun _ session => answered_parseUuid fun id =>
        answered_reply (settled_perform db session (.updateMemory id content)) fun _ => rfl
  | search query topK semantic filterJson =>
      exact answered_session fun _ session => answered_parseJson fun filter =>
        answered_reply (settled_perform db session
          (.searchWithOptions query (max topK.toNat 1) semantic filter))
          fun hits => congrArg some (List.length_map _)
  | «recall» memoryIds =>
      exact answered_session fun _ session => answered_parseIds fun ids =>
        answered_reply (settled_perform db session (.«recall» ids)) fun _ => rfl
  | listMemories type limit =>
      exact answered_one db (.listMemories (Grpc.nonBlank type)) fun _ => rfl
  | deleteMemory memoryId =>
      exact answered_session fun _ session => answered_parseUuid fun id =>
        answered_reply (settled_perform db session (.deleteMemory id)) fun _ => rfl
  | branch name «from» => exact answered_branch db
  | merge source target strategy =>
      exact answered_session fun _ session => answered_parseUuid fun source =>
        answered_parseUuid fun target => answered_reply (settled_perform db session
          (.mergeWithStrategy source target (Grpc.parseMergeStrategy strategy))) fun _ => rfl
  | getBranch branchId =>
      exact answered_session fun _ session => answered_parseUuid fun id =>
        answered_reply (settled_perform db session (.getBranch id)) fun _ => rfl
  | getBranchByName name => exact answered_one db (.getBranchByName name) fun _ => rfl
  | getTrunkBranch => exact answered_one db .trunkBranch fun _ => rfl
  | listBranches => exact answered_one db .listBranches fun _ => rfl
  | discardBranch branchId =>
      exact answered_session fun _ session => answered_parseUuid fun id =>
        answered_reply (settled_perform db session (.discardBranch id)) fun _ => rfl
  | archiveBranch branchId =>
      exact answered_session fun _ session => answered_parseUuid fun id =>
        answered_reply (settled_perform db session (.archiveBranch id)) fun _ => rfl
  | diff branchId target =>
      exact answered_session fun _ session => answered_parseUuid fun id =>
        answered_parseUuid fun target =>
        answered_reply (settled_perform db session (.diff id target)) fun _ => rfl
  | sync => exact answered_one db .sync fun _ => rfl
  | pushSync => exact answered_one db .pushSync fun _ => rfl
  | pullSync => exact answered_one db .pullSync fun _ => rfl
  | reconcileSync => exact answered_one db .reconcileSync fun _ => rfl
  | syncStatus => exact answered_one db .syncStatus fun _ => rfl
  | reflect => exact answered_one db .reflect fun _ => rfl
  | reflectGetFacts agentId => exact answered_one db (.reflectGetFacts agentId) fun _ => rfl
  | reflectListJobs agentId status limit offset =>
      exact answered_one db (.reflectListJobs (Grpc.nonBlank agentId) (Grpc.nonBlank status)
        (Grpc.nonZero limit) (Grpc.nonZero offset)) fun _ => rfl
  | reflectGetJob jobId => exact answered_one db (.reflectGetJob jobId) fun _ => rfl
  | reflectGetPreferences agentId =>
      exact answered_one db (.reflectGetPreferences agentId) fun _ => rfl
  | reflectGetContradictions agentId =>
      exact answered_one db (.reflectGetContradictions agentId) fun _ => rfl
  | reflectResolveContradiction agentId contradictionId strategy mergedValueJson =>
      exact answered_session fun _ session => answered_parseJson fun mergedValue =>
        answered_reply (settled_perform db session
          (.reflectResolveContradiction agentId contradictionId strategy mergedValue))
          fun _ => rfl
  | activeSessionCount =>
      exact answered_session fun _ _ =>
        answered_reply (settled_of_unmoved unmoved_activeSessionCount) fun _ => rfl
  | beginTx =>
      exact answered_session fun _ session => Try.wp_bind.mpr (Try.wp_lift.mpr
        ⟨trivial, fun id => Try.wp_bind.mpr (Try.wp_lift.mpr
          ⟨trivial, fun _ => answered_message rfl⟩)⟩)
  | txRemember txId content => exact answered_parseUuid fun id => answered_staged
  | txRememberTyped txId content type tags metadataJson =>
      exact answered_parseUuid fun id => answered_parseJson fun metadata => answered_staged
  | commitTx txId => exact answered_terminate rfl (settled_commit db)
  | rollbackTx txId => exact answered_terminate rfl (settled_rollback db)

theorem answered_grpc (r : Grpc.Request) :
    (Grpc.serve db r).wp (ledger.protocol req) (fun m rep => m.Answered (.grpc rep)) {} := by
  refine ⟨trivial, fun within => ?_⟩
  cases within with
  | true =>
      show ((r.method.handle db r.requestId r.token).run >>= fun result =>
        (Prog.pure ⟨some r.requestId, result⟩ : Act GrpcResponse)).wp _ _ _
      exact Prog.wp_bind.mpr (answered_method db r.method r.token)
  | false =>
      refine answered_plain ⟨?_, rfl⟩
      rintro ⟨message, he⟩
      cases congrArg Status.code (Except.error.inj he)

end Grpc

/-! ## The books of every request -/

section Runs

variable [Crates] {m : Ledger}

/-- A deed that is not told of yet. -/
theorem Ledger.Sound.adds {deed : Deed} (h : m.Sound) (hdeed : ∀ session, deed ≠ .denied session) :
    Ledger.Sound ⟨m.session, m.deeds ++ [deed], m.told⟩ := by
  obtain ⟨rest, hrest⟩ := h
  obtain ⟨ns, hns⟩ := deed.exists_calls fun session h => absurd h (hdeed session)
  refine ⟨rest ++ ns, ?_⟩
  rw [← List.append_assoc]
  exact hrest.append hns

theorem Ledger.Sound.acts {f : ClawDBSession → Deed} (h : m.Sound)
    (hf : ∀ s session, f s ≠ .denied session) : (m.acts f).Sound := by
  unfold Ledger.acts
  cases m.session with
  | none =>
      obtain ⟨rest, hrest⟩ := h
      exact ⟨rest, by simpa using hrest⟩
  | some s => exact h.adds (hf s)

theorem Ledger.Owes.tells {n : Notice} (h : m.Owes n) : (m.tells n).Sound := by
  obtain ⟨rest, hrest⟩ := h
  exact ⟨rest, by simpa [Ledger.tells] using hrest⟩

/-- A denial is a deed, and the counter is the first that is told of it. -/
theorem Ledger.Sound.denied (h : m.hostAllowed (.count .sessionDenied)) :
    (m.hosted (.count .sessionDenied)).Sound := by
  obtain ⟨hbalanced, session, hsession, scope, hscope⟩ := h
  refine ⟨[.event (.policyDenied session.agentId scope "required scope missing")], ?_⟩
  have hcalls : (Deed.denied session).Calls _ := ⟨scope, hscope, rfl⟩
  simpa [Ledger.hosted, Ledger.acts, Ledger.tells, hsession] using Notified.append hbalanced hcalls

/-- What is permitted keeps the books right. -/
theorem sound_next (req : Request) {o : Op} (h : m.Sound) (ho : m.allowed o) (r : o.Ret) :
    (m.next o r).Sound := by
  by_cases hquiet : o.quiet = true
  · have hskips : (ledger.protocol req).Skips m o := skips_of_quiet hquiet
    rw [show m.next o r = m from hskips.2 r]
    exact h
  cases o with
  | guard o =>
      cases o with
      | validateSession token => cases r <;> exact h
      | createSession agentId workspaceId role scopes ttlSecs =>
          cases r with
          | ok g => exact Ledger.Sound.adds h fun _ hd => nomatch hd
          | error e => exact h
      | _ => exact absurd rfl hquiet
  | core o =>
      cases o with
      | insertMemory record | ftsSearch query =>
          cases r with
          | ok id => exact Ledger.Sound.acts h fun _ _ hd => nomatch hd
          | error e => exact h
      | _ => exact absurd rfl hquiet
  | vector o =>
      cases o with
      | searchTextInWorkspace workspaceId collection query topK =>
          cases r with
          | ok results => exact Ledger.Sound.acts h fun _ _ hd => nomatch hd
          | error e => exact h
      | _ => exact absurd rfl hquiet
  | branch o =>
      cases o with
      | forkTrunk name | fork parent name | merge source target strategy =>
          cases r with
          | ok a => exact Ledger.Sound.acts h fun _ _ hd => nomatch hd
          | error e => exact h
      | _ => exact absurd rfl hquiet
  | sync o =>
      cases o with
      | syncNow =>
          cases r with
          | ok round => exact Ledger.Sound.acts h fun _ _ hd => nomatch hd
          | error e => exact h
      | _ => exact absurd rfl hquiet
  | reflect o =>
      cases o with
      | triggerJob =>
          cases r with
          | ok job => exact Ledger.Sound.acts h fun _ _ hd => nomatch hd
          | error e => exact h
      | _ => exact absurd rfl hquiet
  | host o =>
      cases o with
      | count c =>
          cases c with
          | sessionDenied => exact Ledger.Sound.denied ho
          | _ => exact Ledger.Owes.tells ho
      | emit e => exact Ledger.Owes.tells ho
      | _ => exact absurd rfl hquiet
  | txs o =>
      cases o with
      | remove id => cases r <;> exact h
      | _ => exact absurd rfl hquiet

variable (db : ClawDBEngine) {accepts : Request → Prop}

theorem ledger_conforms : Conforms (server db accepts) ledger := by
  intro req _
  cases req with
  | http r => exact Prog.wp_bind.mpr (answered_http db r)
  | grpc r => exact Prog.wp_bind.mpr (answered_grpc db r)

/-- At every moment of every run the books of every request are right, also of those that were
dropped; and those of a request that was answered balance, with a denial among its deeds just
when it was answered that a scope is missing, and the hits it shows as the hits it told of. -/
theorem notices_account {init : World → Prop} {c : Pool Sig World Request Reply Ledger}
    (h : Pool.Reachable (server db accepts) ledger init c) :
    (∀ th ∈ c.running, th.mem.Sound) ∧
      ∀ e ∈ c.ended, e.mem.Sound ∧ ∀ rep, e.rep = some rep → e.mem.Answered rep := by
  have hboard := Pool.reachable_board (ledger_conforms db) h
  have hsound : ∀ x ∈ c.board.all, x.2.Sound := by
    refine (hboard.each (J := fun _ => True) (I := fun _ x => x.2.Sound) ?_ ?_ ?_ ?_).2
    · intro w _
      trivial
    · intro w req _
      exact ⟨[], notified_nil⟩
    · intro w w' req m o r ho _ _ hm
      exact ⟨trivial, sound_next req hm ho r⟩
    · intro w w' req m o r x _ _ _ hx
      exact hx
  refine ⟨fun th hth => ?_, fun e he => ⟨?_, fun rep hrep => hboard.replied e he rep hrep⟩⟩
  · have hmem : (th.req, th.mem) ∈ c.board.running :=
      List.mem_map_of_mem (f := fun th => (th.req, th.mem)) hth
    exact hsound _ (List.mem_append_left _ hmem)
  · exact hsound _ (Board.mem_all_of_ended he)

end Runs

section Witnesses

attribute [local instance] Crates.sample

/-- A viewer searches, and tries to have something remembered. -/
def viewedPool : Pool Sig World Request Reply Ledger :=
  Pool.acts (server vectorDb fun _ => True) ledger Op.reference ⟨viewerWorld, [], []⟩
    (Pool.oneByOne 12 [.grpc ⟨"r", some "t", .search "x" 5 false ""⟩,
      .grpc ⟨"r", some "t", .remember "x"⟩])

theorem notices_account_viewed : ∃ e ∈ viewedPool.ended, e.mem.Denied ∧ e.mem.Balanced := by
  have hreach : Pool.Reachable (server vectorDb fun _ => True) ledger (· = viewerWorld)
      viewedPool :=
    Pool.acts_reachable Op.reference_refines _ (fun _ _ => trivial) (.init rfl)
  have hforbidden : ∃ e ∈ viewedPool.ended, e.rep = some (.grpc ⟨some "r",
      .error ⟨.permissionDenied, "required scope missing"⟩⟩) := by
    decide +kernel
  obtain ⟨e, he, hrep⟩ := hforbidden
  have hanswered := ((notices_account vectorDb hreach).2 e he).2 _ hrep
  exact ⟨e, he, hanswered.denied.mp ⟨_, rfl⟩, hanswered.balanced⟩

end Witnesses

end ClawDB
