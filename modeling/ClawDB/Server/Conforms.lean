/-
# `ClawDB.Server.Conforms` — every handler keeps to the monitor

Most requests only do routine work, which the monitor lets pass.  What remains is the
ten handlers of pending transactions and the four that issue and revoke sessions.  Of
these the two commits have a loop: `wp_replay` is the induction over the staged
memories, with the rows inserted so far as its invariant.
-/
import ClawDB.Authorize
import ClawDB.Server.Monitor

namespace ClawDB

open Effect Prog

/-! ## Routine work -/

/-- A program that does routine work only. -/
abbrev Routine {α : Type} (p : Act α) : Prop := p.Within fun o : Op => o.routine = true

/-- Routine work passes the monitor, and finishes nothing. -/
theorem routine_allowed [Crates] {req : Request} {m : Local} {o : Op}
    (hreq : req.intent.transactional = false) (hm : m.finished = false)
    (ho : o.routine = true) :
    allowed req m o ∧ ∀ r, (m.next o r).finished = false := by
  cases o with
  | guard o =>
      cases o with
      | validateSession token => exact ⟨⟨hm, trivial⟩, fun r => by cases r <;> exact hm⟩
      | countSessions => exact ⟨⟨hm, trivial⟩, fun r => hm⟩
      | createSession agentId workspaceId role scopes ttlSecs => cases ho
      | revokeSession id => cases ho
  | core o =>
      cases o with
      | insertMemory record => exact ⟨⟨hm, hreq⟩, fun r => hm⟩
      | updateMemory id content => exact ⟨⟨hm, hreq⟩, fun r => hm⟩
      | deleteMemory id => exact ⟨⟨hm, hreq⟩, fun r => hm⟩
      | beginTransaction =>
          refine ⟨⟨hm, fun h => ?_⟩, fun r => by cases r <;> exact hm⟩
          rw [hreq] at h
          cases h
      | getMemory id => exact ⟨⟨hm, trivial⟩, fun r => hm⟩
      | listMemories t => exact ⟨⟨hm, trivial⟩, fun r => hm⟩
      | ftsSearch query => exact ⟨⟨hm, trivial⟩, fun r => hm⟩
      | stats => exact ⟨⟨hm, trivial⟩, fun r => hm⟩
      | txInsertMemory tx record => cases ho
      | txCommit tx => cases ho
      | txRollback tx => cases ho
  | vector o => exact ⟨hm, fun r => hm⟩
  | branch o => exact ⟨⟨hm, hreq⟩, fun r => hm⟩
  | sync o => exact ⟨⟨hm, hreq⟩, fun r => hm⟩
  | reflect o => exact ⟨hm, fun r => hm⟩
  | host o => cases o <;> exact ⟨hm, fun r => hm⟩
  | txs o => cases ho

theorem wp_routine [Crates] {α : Type} {req : Request} {p : Act α} {Q : Local → α → Prop}
    (hreq : req.intent.transactional = false) (hp : Routine p)
    (hQ : ∀ m a, Q m a) {m : Local} (hm : m.finished = false) :
    p.wp (monitor.protocol req) Q m := by
  induction p generalizing m with
  | pure a => exact hQ m a
  | op o k ih =>
      obtain ⟨ho, hn⟩ := routine_allowed hreq hm hp.1
      exact ⟨ho, fun r => ih r (hp.2 r) (hn r)⟩

/-- Nothing is asked of the reply to a request of these kinds. -/
theorem answered_of_intent [Crates] {req : Request} {m : Local} {rep : Reply}
    (h : req.intent = .other ∨ req.intent = .malformed ∨ req.intent = .begin ∨
      ∃ id, req.intent = .revokeSession id) : answered req m rep := by
  unfold answered
  obtain h | h | h | ⟨id, h⟩ := h <;> rw [h] <;> trivial

theorem health_routine (db : ClawDBEngine) : Routine db.health.run := by
  have hprobe : Routine db.probeVector.run := by
    unfold ClawDBEngine.probeVector
    split
    · exact Try.within_bind (Try.within_lift ⟨rfl, fun _ => trivial⟩) fun _ => trivial
    · trivial
  have hsync : Routine db.syncHealthy.run := by
    unfold ClawDBEngine.syncHealthy
    split
    · trivial
    · exact Try.within_bind (Try.within_lift ⟨rfl, fun _ => trivial⟩) fun _ => trivial
  exact Try.within_bind (Try.within_lift ⟨rfl, fun _ => trivial⟩) fun _ =>
    Try.within_bind hprobe fun _ => Try.within_bind hsync fun _ => trivial

theorem activeSessionCount_routine : Routine ClawDBEngine.activeSessionCount.run :=
  Try.within_bind (Try.within_of ⟨rfl, fun _ => trivial⟩) fun _ => trivial

theorem validateSession_routine (token : String) :
    Routine (ClawDBEngine.validateSession token).run :=
  Try.within_bind (Try.within_of ⟨rfl, fun _ => trivial⟩) fun _ => trivial

theorem answer_routine {α : Type} {requestId : Option String} {call : Eng α}
    {ok : α → Response} (h : Routine call.run) : Routine (Http.answer requestId call ok) :=
  h.bind fun r => by cases r <;> trivial

theorem extract_routine {α : Type} {x : Http.Extracted α} {handler : α → Act Response}
    (h : ∀ a, Routine (handler a)) : Routine (Http.extract x handler) := by
  cases x with
  | ok a => exact h a
  | error rejection => trivial

theorem Http.ifOk_eq_other {α : Type} {x : Http.Extracted α} {f : α → Intent}
    (h : Http.ifOk x f = .other) : ∃ a, x = .ok a ∧ f a = .other := by
  cases x with
  | ok a => exact ⟨a, rfl, h⟩
  | error r => cases h

theorem sessionFromRequest_routine (token : Option String) :
    Routine (Grpc.sessionFromRequest token).run := by
  cases token with
  | none => trivial
  | some token =>
      exact Try.within_bind (Try.within_of (validateSession_routine token)) fun _ => trivial

/-- A method that wants a session. -/
theorem session_routine {α : Type} {token : Option String}
    {k : String × ClawDBSession → Grpc.Rpc α}
    (h : ∀ token session, Routine (k (token, session)).run) :
    Routine (Grpc.sessionFromRequest token >>= k).run :=
  Try.within_bind (sessionFromRequest_routine token) fun (token, session) => h token session

theorem call_routine {α : Type} {requestId : String} {c : Eng α} (h : Routine c.run) :
    Routine (Grpc.call requestId c).run :=
  Try.within_of h

/-- A call, and a reply made of its result. -/
theorem reply_routine {α : Type} {requestId : String} {c : Eng α} {f : α → Message}
    (h : Routine c.run) : Routine (Grpc.call requestId c >>= fun a => pure (f a)).run :=
  Try.within_bind (call_routine h) fun _ => trivial

section Handlers

variable [Crates] (db : ClawDBEngine)

theorem method_routine (session : ClawDBSession) (c : SessionCall) :
    Routine (c.perform db session).run :=
  (c.perform_within db session).mono fun _ ho => ho.1

-- whether a text is blank is of no interest here
attribute [local irreducible] String.isEmpty

theorem parseUuid_routine (message text : String) : Routine (Grpc.parseUuid message text).run := by
  unfold Grpc.parseUuid
  split <;> trivial

theorem parseJson_routine (message text : String) : Routine (Grpc.parseJson message text).run := by
  unfold Grpc.parseJson
  by_cases h : (Text.trim text).isEmpty = true
  · rw [if_pos h]; trivial
  · rw [if_neg h]; cases Crates.fromStr text <;> trivial

theorem parseIds_routine (ids : List String) : Routine (Grpc.parseIds ids).run := by
  induction ids with
  | nil => trivial
  | cons id rest ih =>
      exact Try.within_bind (parseUuid_routine _ id) fun _ => Try.within_bind ih fun _ => trivial

include db in
theorem forked_routine (requestId : String) (session : ClawDBSession) (name «from» : String) :
    Routine (Grpc.forked requestId session name «from»).run := by
  unfold Grpc.forked
  by_cases h : «from».isEmpty = true
  · rw [if_pos h]
    exact call_routine (method_routine db session (.branch name))
  · rw [if_neg h]
    exact Try.within_bind (parseUuid_routine _ «from») fun parent =>
      call_routine (method_routine db session (.forkBranch parent name))

theorem Grpc.ifUuid_eq_other {text : String} {f : Uuid → Intent}
    (h : Grpc.ifUuid text f = .other) : ∃ id, Crates.parseStr text = some id ∧ f id = .other := by
  unfold Grpc.ifUuid at h
  split at h
  next id hid => exact ⟨id, hid, h⟩
  next => cases h

theorem Http.Protected.handle_routine {route : Http.Protected} (h : route.intent = .other)
    (requestId : String) (session : ClawDBSession) :
    Routine (route.handle db requestId session) := by
  cases route with
  | whoami => trivial
  | revokeSession id => obtain ⟨_, -, h⟩ := Http.ifOk_eq_other h; cases h
  | activeSessionCount => exact answer_routine activeSessionCount_routine
  | remember body =>
      refine extract_routine fun body => answer_routine ?_
      cases body.type with
      | some t => exact method_routine db session (.rememberTyped body.content t body.tags _)
      | none => exact method_routine db session (.remember body.content)
  | listMemories query =>
      exact extract_routine fun query => answer_routine
        (method_routine db session (.listMemories query.type))
  | search query =>
      exact extract_routine fun query => answer_routine
        (method_routine db session (.searchWithOptions query.q query.topK query.semantic none))
  | recallOne id =>
      exact extract_routine fun id => answer_routine (method_routine db session (.«recall» [id]))
  | updateMemory id body =>
      exact extract_routine fun id => extract_routine fun body => answer_routine
        (method_routine db session (.updateMemory id body.content))
  | deleteMemory id =>
      exact extract_routine fun id => answer_routine
        (method_routine db session (.deleteMemory id))
  | createBranch body =>
      refine extract_routine fun body => answer_routine ?_
      cases body.«from» with
      | some parent => exact method_routine db session (.forkBranch parent body.name)
      | none => exact method_routine db session (.branch body.name)
  | listBranches => exact answer_routine (method_routine db session .listBranches)
  | getTrunkBranch => exact answer_routine (method_routine db session .trunkBranch)
  | getBranchByName name =>
      exact answer_routine (method_routine db session (.getBranchByName name))
  | mergeBranch id body =>
      exact extract_routine fun id => extract_routine fun body => answer_routine
        (method_routine db session (.mergeWithStrategy id body.target _))
  | diffBranch id query =>
      exact extract_routine fun id => extract_routine fun query => answer_routine
        (method_routine db session (.diff id query.target))
  | archiveBranch id =>
      exact extract_routine fun id => answer_routine
        (method_routine db session (.archiveBranch id))
  | getBranch id =>
      exact extract_routine fun id => answer_routine (method_routine db session (.getBranch id))
  | discardBranch id =>
      exact extract_routine fun id => answer_routine
        (method_routine db session (.discardBranch id))
  | sync => exact answer_routine (method_routine db session .sync)
  | pushSync => exact answer_routine (method_routine db session .pushSync)
  | pullSync => exact answer_routine (method_routine db session .pullSync)
  | reconcileSync => exact answer_routine (method_routine db session .reconcileSync)
  | syncStatus => exact answer_routine (method_routine db session .syncStatus)
  | reflect => exact answer_routine (method_routine db session .reflect)
  | listReflectJobs query =>
      exact extract_routine fun query => answer_routine
        (method_routine db session (.reflectListJobs query.agentId query.status _ _))
  | getReflectJob jobId =>
      exact answer_routine (method_routine db session (.reflectGetJob jobId))
  | getReflectFacts agentId =>
      exact answer_routine (method_routine db session (.reflectGetFacts agentId))
  | getReflectPreferences agentId =>
      exact answer_routine (method_routine db session (.reflectGetPreferences agentId))
  | getReflectContradictions agentId =>
      exact answer_routine (method_routine db session (.reflectGetContradictions agentId))
  | resolveReflectContradiction agentId contradictionId body =>
      exact extract_routine fun body => answer_routine (method_routine db session
        (.reflectResolveContradiction agentId contradictionId body.strategy body.mergedValue))
  | beginTransaction => cases h
  | txRemember id body =>
      obtain ⟨_, -, h⟩ := Http.ifOk_eq_other h
      obtain ⟨_, -, h⟩ := Http.ifOk_eq_other h
      cases h
  | txRememberTyped id body =>
      obtain ⟨_, -, h⟩ := Http.ifOk_eq_other h
      obtain ⟨_, -, h⟩ := Http.ifOk_eq_other h
      cases h
  | commitTransaction id => obtain ⟨_, -, h⟩ := Http.ifOk_eq_other h; cases h
  | rollbackTransaction id => obtain ⟨_, -, h⟩ := Http.ifOk_eq_other h; cases h

theorem Grpc.Method.handle_routine {method : Grpc.Method} (h : method.intent = .other)
    (requestId : String) (token : Option String) :
    Routine (method.handle db requestId token).run := by
  cases method with
  | health => exact reply_routine (health_routine db)
  | createSession agentId role scopes ttlSecs =>
      obtain ⟨_, -, h⟩ := Grpc.ifUuid_eq_other h; cases h
  | validateSession => exact session_routine fun _ _ => trivial
  | revokeSession id => obtain ⟨_, -, h⟩ := Grpc.ifUuid_eq_other h; cases h
  | remember content =>
      exact session_routine fun _ session =>
        reply_routine (method_routine db session (.remember content))
  | rememberTyped content type tags metadataJson =>
      exact session_routine fun _ session =>
        Try.within_bind (parseJson_routine _ metadataJson) fun metadata =>
        reply_routine (method_routine db session
          (.rememberTyped content type tags (metadata.getD .null)))
  | updateMemory memoryId content =>
      exact session_routine fun _ session =>
        Try.within_bind (parseUuid_routine _ memoryId) fun id =>
        reply_routine (method_routine db session (.updateMemory id content))
  | search query topK semantic filterJson =>
      exact session_routine fun _ session =>
        Try.within_bind (parseJson_routine _ filterJson) fun filter =>
        reply_routine (method_routine db session
          (.searchWithOptions query (max topK.toNat 1) semantic filter))
  | «recall» memoryIds =>
      exact session_routine fun _ session =>
        Try.within_bind (parseIds_routine memoryIds) fun ids =>
        reply_routine (method_routine db session (.«recall» ids))
  | listMemories type limit =>
      exact session_routine fun _ session =>
        reply_routine (method_routine db session (.listMemories (Grpc.nonBlank type)))
  | deleteMemory memoryId =>
      exact session_routine fun _ session =>
        Try.within_bind (parseUuid_routine _ memoryId) fun id =>
        reply_routine (method_routine db session (.deleteMemory id))
  | branch name «from» =>
      exact session_routine fun _ session =>
        Try.within_bind (forked_routine db requestId session name «from») fun _ => trivial
  | merge source target strategy =>
      exact session_routine fun _ session =>
        Try.within_bind (parseUuid_routine _ source) fun source =>
        Try.within_bind (parseUuid_routine _ target) fun target =>
        reply_routine (method_routine db session (.mergeWithStrategy source target
          (Grpc.parseMergeStrategy strategy)))
  | getBranch branchId =>
      exact session_routine fun _ session =>
        Try.within_bind (parseUuid_routine _ branchId) fun id =>
        reply_routine (method_routine db session (.getBranch id))
  | getBranchByName name =>
      exact session_routine fun _ session =>
        reply_routine (method_routine db session (.getBranchByName name))
  | getTrunkBranch =>
      exact session_routine fun _ session =>
        reply_routine (method_routine db session .trunkBranch)
  | listBranches =>
      exact session_routine fun _ session =>
        reply_routine (method_routine db session .listBranches)
  | discardBranch branchId =>
      exact session_routine fun _ session =>
        Try.within_bind (parseUuid_routine _ branchId) fun id =>
        reply_routine (method_routine db session (.discardBranch id))
  | archiveBranch branchId =>
      exact session_routine fun _ session =>
        Try.within_bind (parseUuid_routine _ branchId) fun id =>
        reply_routine (method_routine db session (.archiveBranch id))
  | diff branchId target =>
      exact session_routine fun _ session =>
        Try.within_bind (parseUuid_routine _ branchId) fun id =>
        Try.within_bind (parseUuid_routine _ target) fun target =>
        reply_routine (method_routine db session (.diff id target))
  | sync =>
      exact session_routine fun _ session => reply_routine (method_routine db session .sync)
  | pushSync =>
      exact session_routine fun _ session => reply_routine (method_routine db session .pushSync)
  | pullSync =>
      exact session_routine fun _ session => reply_routine (method_routine db session .pullSync)
  | reconcileSync =>
      exact session_routine fun _ session =>
        reply_routine (method_routine db session .reconcileSync)
  | syncStatus =>
      exact session_routine fun _ session =>
        reply_routine (method_routine db session .syncStatus)
  | reflect =>
      exact session_routine fun _ session => reply_routine (method_routine db session .reflect)
  | reflectGetFacts agentId =>
      exact session_routine fun _ session =>
        reply_routine (method_routine db session (.reflectGetFacts agentId))
  | reflectListJobs agentId status limit offset =>
      exact session_routine fun _ session =>
        reply_routine (method_routine db session
          (.reflectListJobs (Grpc.nonBlank agentId) (Grpc.nonBlank status)
            (Grpc.nonZero limit) (Grpc.nonZero offset)))
  | reflectGetJob jobId =>
      exact session_routine fun _ session =>
        reply_routine (method_routine db session (.reflectGetJob jobId))
  | reflectGetPreferences agentId =>
      exact session_routine fun _ session =>
        reply_routine (method_routine db session (.reflectGetPreferences agentId))
  | reflectGetContradictions agentId =>
      exact session_routine fun _ session =>
        reply_routine (method_routine db session (.reflectGetContradictions agentId))
  | reflectResolveContradiction agentId contradictionId strategy mergedValueJson =>
      exact session_routine fun _ session =>
        Try.within_bind (parseJson_routine _ mergedValueJson) fun mergedValue =>
        reply_routine (method_routine db session
          (.reflectResolveContradiction agentId contradictionId strategy mergedValue))
  | activeSessionCount =>
      exact session_routine fun _ _ =>
        reply_routine activeSessionCount_routine
  | beginTx => cases h
  | txRemember txId content => obtain ⟨_, -, h⟩ := Grpc.ifUuid_eq_other h; cases h
  | txRememberTyped txId content type tags metadataJson =>
      obtain ⟨_, -, h⟩ := Grpc.ifUuid_eq_other h
      split at h
      · cases h
      · split at h <;> cases h
  | commitTx txId => obtain ⟨_, -, h⟩ := Grpc.ifUuid_eq_other h; cases h
  | rollbackTx txId => obtain ⟨_, -, h⟩ := Grpc.ifUuid_eq_other h; cases h

end Handlers

/-! ## Pending transactions -/

section Pending

-- which type a text names is of no interest here
attribute [local irreducible] parseMemoryType

variable [Crates] {req : Request} {m : Local}

/-- What is known of a memory after its request has taken `pending`. -/
structure Local.Holds (m : Local) (pending : PendingTransaction) : Prop where
  running : m.finished = false
  taken : m.taken = some pending

theorem wp_validateSession {token : String} {Q : Local → Except ClawDBError ClawDBSession → Prop}
    (hm : m.finished = false) (herr : ∀ e, Q m (.error e))
    (hok : ∀ g, Q { m with validated := (token, g) :: m.validated } (.ok g.toSession)) :
    (ClawDBEngine.validateSession token).run.wp (monitor.protocol req) Q m := by
  refine Try.wp_bind.mpr (Try.wp_of.mpr ⟨⟨hm, trivial⟩, fun r => ?_⟩)
  cases r with
  | error e => exact herr _
  | ok g => exact hok g

/-- The core transaction is opened under the owner's session, or not at all. -/
theorem wp_transaction (db : ClawDBEngine) {pending : PendingTransaction}
    {Q : Local → Except ClawDBError ClawTransaction → Prop} (hm : m.Holds pending)
    (hnone : m.handle = none)
    (herr : ∀ v e, Q { m with validated := v } (.error e))
    (hok : ∀ v tx, Q { m with validated := v, handle := some tx.inner } (.ok tx)) :
    (db.transaction pending.session).run.wp (monitor.protocol req) Q m := by
  unfold ClawDBEngine.transaction
  rw [authorize_bind]
  refine ⟨⟨hm.running, trivial⟩, fun r => ?_⟩
  rcases r with e | g
  · exact herr m.validated _
  · dsimp only
    split
    next hp =>
        refine Try.wp_bind.mpr (Try.wp_of.mpr ⟨⟨hm.running, fun _ => ⟨hnone, pending, hm.taken,
          ⟨g, List.mem_cons_self⟩, hp⟩⟩, fun r => ?_⟩)
        cases r with
        | error e => exact herr _ _
        | ok tx => exact hok _ ⟨tx, _, _, _⟩
    next => exact ⟨hm.running, fun _ => ⟨hm.running, fun _ => herr _ _⟩⟩

/-- One staged memory: its row is drawn, and inserted if the core takes it. -/
theorem wp_txRememberTyped {tx : ClawTransaction} {staged : StagedMemory}
    {Q : Local → Except ClawDBError (Uuid × ClawTransaction) → Prop} (hm : m.finished = false)
    (hinsert : ∀ record : MemoryRecord, record.shape = staged.shape →
      coreAllowed req { m with minted := record.id :: m.minted } (.txInsertMemory tx.inner record))
    (herr : ∀ minted e, Q { m with minted := minted } (.error e))
    (hok : ∀ (record : MemoryRecord) id (tx' : ClawTransaction), record.shape = staged.shape →
      tx'.inner = tx.inner →
      Q { m with minted := record.id :: m.minted, inserted := m.inserted ++ [record] }
        (.ok (id, tx'))) :
    (tx.rememberTyped staged.content staged.memoryType staged.tags staged.metadata).run.wp
      (monitor.protocol req) Q m := by
  refine Try.wp_bind.mpr (Try.wp_bind.mpr (Try.wp_lift.mpr ⟨hm, fun id => ?_⟩))
  refine Try.wp_bind.mpr (Try.wp_of.mpr ⟨⟨hm, hinsert _ rfl⟩, fun r => ?_⟩)
  cases r with
  | error e => exact herr _ _
  | ok rowId =>
      exact hok ⟨id, staged.content, parseMemoryType staged.memoryType, staged.tags⟩ _ _ rfl rfl

/-- The loop of a commit: after `done`, the rows inserted are those of `done`. -/
theorem wp_replay {id : Uuid} (hreq : req.intent = .commit id) {pending : PendingTransaction}
    {Q : Local → Except ClawDBError ClawTransaction → Prop}
    (herr : ∀ m' e, m'.Holds pending → m'.committed = m.committed → Q m' (.error e))
    (hok : ∀ m' tx, m'.Holds pending → m'.committed = m.committed → m'.ended = false →
      m'.handle = some tx.inner →
      m'.inserted.map MemoryRecord.shape = pending.stagedMemories.map StagedMemory.shape →
      Q m' (.ok tx)) :
    ∀ (rest done : List StagedMemory) (tx : ClawTransaction) (m' : Local),
      pending.stagedMemories = done ++ rest → m'.Holds pending → m'.committed = m.committed →
      m'.ended = false → m'.handle = some tx.inner →
      m'.inserted.map MemoryRecord.shape = done.map StagedMemory.shape →
      (PendingTransaction.replay tx rest).run.wp (monitor.protocol req) Q m' := by
  intro rest
  induction rest with
  | nil =>
      intro done tx m' hst hm hc hended hh hins
      refine hok m' tx hm hc hended hh ?_
      rw [hins, hst, List.append_nil]
  | cons staged rest ih =>
      intro done tx m' hst hm hc hended hh hins
      have hlen : m'.inserted.length = done.length := by
        have := congrArg List.length hins
        simpa using this
      have hnext : pending.stagedMemories[m'.inserted.length]? = some staged := by
        rw [hst, hlen, List.getElem?_append_right (Nat.le_refl _), Nat.sub_self]
        rfl
      unfold PendingTransaction.replay
      refine Try.wp_bind.mpr (wp_txRememberTyped hm.running ?_ ?_ ?_)
      · intro record hshape
        exact ⟨id, pending, staged, hreq, hm.taken, hh, hended, List.mem_cons_self, hnext, hshape⟩
      · exact fun minted e => herr _ e ⟨hm.running, hm.taken⟩ hc
      · intro record rowId tx' hshape htx
        refine ih (done ++ [staged]) tx' _ (by rw [hst, List.append_assoc]; rfl)
          ⟨hm.running, hm.taken⟩ hc hended (hh.trans (congrArg some htx.symm)) ?_
        rw [List.map_append, List.map_append, hins, List.map_singleton, List.map_singleton, hshape]

/-- The vector work of a commit is not remembered. -/
theorem wp_flush {workspaceId : String} {upserts : List (String × Json.Value)}
    {Q : Local → Except ClawDBError Unit → Prop} (hm : m.finished = false) (hQ : Q m (.ok ())) :
    (ClawTransaction.flush workspaceId upserts).run.wp (monitor.protocol req) Q m := by
  induction upserts with
  | nil => exact hQ
  | cons upsert rest ih =>
      exact Try.wp_bind.mpr (Try.wp_lift.mpr ⟨hm, fun _ => ih⟩)

/-- A commit either ends with an error and nothing committed, or with everything that
was staged inserted and committed. -/
theorem wp_commit (db : ClawDBEngine) {id : Uuid} (hreq : req.intent = .commit id)
    {pending : PendingTransaction} {Q : Local → Except ClawDBError Unit → Prop}
    (hm : m.Holds pending) (hhandle : m.handle = none) (hins : m.inserted = [])
    (hended : m.ended = false) (hcommitted : m.committed = false)
    (herr : ∀ m' e, m'.taken = some pending → m'.committed = false → Q m' (.error e))
    (hok : ∀ m', m'.taken = some pending → m'.committed = true → Q m' (.ok ())) :
    (pending.commit db).run.wp (monitor.protocol req) Q m := by
  refine Try.wp_bind.mpr (wp_transaction db hm hhandle ?_ fun v tx => ?_)
  · exact fun v e => herr _ e hm.taken hcommitted
  refine Try.wp_bind.mpr (wp_replay (m := { m with validated := v, handle := some tx.inner }) hreq
    ?_ ?_ pending.stagedMemories [] tx _ rfl ⟨hm.running, hm.taken⟩ rfl hended rfl ?_)
  · exact fun m' e hm' hc => herr m' e hm'.taken (hc.trans hcommitted)
  · intro m' tx' hm' hc hended' hh hins'
    refine Try.wp_bind.mpr (Try.wp_of.mpr ⟨⟨hm'.running, id, pending, hreq, hm'.taken, hh, hended',
      hins'⟩, fun r => ?_⟩)
    cases r with
    | error e => exact herr _ _ hm'.taken (hc.trans hcommitted)
    | ok _ =>
        dsimp only [Except.mapError]
        split
        · exact wp_flush hm'.running (hok _ hm'.taken rfl)
        · exact hok _ hm'.taken rfl
  · rw [hins]; rfl

theorem wp_rollback (db : ClawDBEngine) {id : Uuid} (hreq : req.intent = .rollback id)
    {pending : PendingTransaction} {Q : Local → Except ClawDBError Unit → Prop}
    (hm : m.Holds pending) (hhandle : m.handle = none) (hended : m.ended = false)
    (hQ : ∀ m' r, m'.taken = some pending → Q m' r) :
    (pending.rollback db).run.wp (monitor.protocol req) Q m := by
  refine Try.wp_bind.mpr (wp_transaction db hm hhandle ?_ fun v tx => ?_)
  · exact fun v e => hQ _ _ hm.taken
  · refine Try.wp_of.mpr ⟨⟨hm.running, id, hreq, rfl, hended⟩, fun r => ?_⟩
    cases r with
    | error e => exact hQ _ _ hm.taken
    | ok _ => exact hQ _ _ hm.taken

end Pending

/-! ## What is owed for each kind of request -/

theorem Reply.TurnedAway.not_success {rep : Reply} (h : rep.TurnedAway) :
    rep.isSuccess = false := by
  cases rep with
  | http r => obtain rfl | ⟨requestId, rfl⟩ := h <;> rfl
  | grpc r => subst h; rfl

theorem Response.mapError_not_success (e : ClawDBError) (requestId : Option String) :
    (Reply.http (.mapError e requestId)).isSuccess = false := by
  cases e <;> rfl

section Answers

variable [Crates] {req : Request} {m : Local} {rep : Reply} {id : Uuid}

theorem answered_stage {staged : StagedMemory} (h : req.intent = .stage id staged) :
    answered req m rep ↔ (rep.isSuccess = true ↔ m.staged = true) := by
  unfold answered; rw [h]

theorem answered_commit (h : req.intent = .commit id) : answered req m rep ↔
    (m.taken = none → m.Refused rep) ∧
      (rep.isSuccess = true ↔ m.committed = true) := by
  unfold answered; rw [h]

theorem answered_rollback (h : req.intent = .rollback id) : answered req m rep ↔
    (m.taken = none → m.Refused rep) := by
  unfold answered; rw [h]

theorem answered_createSession {role : String} {scopes : List String}
    (h : req.intent = .createSession id role scopes) : answered req m rep ↔
      (rep.isSuccess = true → ∃ g, m.issued = [g] ∧
        rep.Grants { g.toSession with scopes := scopes }) := by
  unfold answered; rw [h]

/-- A request that is turned away has done nothing. -/
theorem answered_turnedAway (hrep : rep.TurnedAway) (hs : m.staged = false)
    (hm : m.missed = false) (hc : m.committed = false) : answered req m rep := by
  have hno := hrep.not_success
  unfold answered
  split
  · rw [hno, hs]
  · exact ⟨fun _ => .inr ⟨hm, hrep⟩, by rw [hno, hc]⟩
  · exact fun _ => .inr ⟨hm, hrep⟩
  · intro h; rw [hno] at h; cases h
  · trivial

end Answers

/-! ## HTTP -/

section Http

variable [Crates] (db : ClawDBEngine) {r : Http.Request}

theorem wp_answer {α : Type} {req : Request} {requestId : Option String} {call : Eng α}
    {ok : α → Response} {Q : Local → Response → Prop} {m : Local} :
    (Http.answer requestId call ok).wp (monitor.protocol req) Q m ↔
      call.run.wp (monitor.protocol req) (fun m' => fun
        | .ok value => Q m' (ok value)
        | .error e => Q m' (.mapError e requestId)) m := by
  unfold Http.answer
  rw [Prog.wp_bind]
  constructor <;> refine fun h => wp_mono (fun m' r hr => ?_) h <;> cases r <;> exact hr

theorem wp_sessionWithTtl {req : Request} {agentId : Uuid} {role : String}
    {scopes : List String} {ttlSecs : Int} {Q : Local → Except ClawDBError ClawDBSession → Prop}
    {m : Local} (hm : m.finished = false)
    (hallowed : req.intent = .createSession agentId role scopes ∧ m.issued = [] ∧
      (req.isHttp = false → req.Authenticated m))
    (herr : ∀ e, Q m (.error e))
    (hok : ∀ g, Q { m with issued := g :: m.issued }
      (.ok { g.toSession with scopes := scopes })) :
    (db.sessionWithTtl agentId role scopes ttlSecs).run.wp (monitor.protocol req) Q m := by
  rw [sessionWithTtl_run]
  refine ⟨⟨hm, hallowed⟩, fun reply => ?_⟩
  cases reply with
  | error e => exact herr _
  | ok g => exact ⟨hm, fun _ => ⟨hm, fun _ => hok g⟩⟩

theorem Http.createSession_conforms {body : Http.Extracted Http.CreateSessionBody}
    (hr : r.route = .createSession body) :
    (Http.createSession db r.requestId body).wp (monitor.protocol (.http r))
      (fun m rep => answered (.http r) m (.http rep)) .init := by
  have hint : (Request.http r).intent = (Http.Route.createSession body).intent :=
    congrArg Http.Route.intent hr
  cases body with
  | error rejection => exact answered_of_intent (.inr (.inl hint))
  | ok body =>
      refine wp_answer.mpr (wp_sessionWithTtl db rfl ⟨hint, rfl, fun h => nomatch h⟩
        (fun e => ?_) fun g => ?_)
      · refine (answered_createSession hint).mpr fun h => ?_
        rw [Response.mapError_not_success] at h
        cases h
      · exact (answered_createSession hint).mpr fun _ => ⟨g, rfl, rfl⟩

theorem Http.stage_conforms {id : Uuid} {staged : StagedMemory}
    {v : List (String × GuardSession)} (h : (Request.http r).intent = .stage id staged)
    (hauth : (Request.http r).Authenticated { Local.init with validated := v }) :
    (Http.stage r.requestId id staged).wp (monitor.protocol (.http r))
      (fun m rep => answered (.http r) m (.http rep)) { Local.init with validated := v } := by
  refine ⟨⟨rfl, h, fun _ => hauth⟩, fun found => ?_⟩
  cases found with
  | true => exact (answered_stage h).mpr (iff_of_true rfl rfl)
  | false => exact (answered_stage h).mpr (iff_of_false Bool.false_ne_true Bool.false_ne_true)

theorem Http.commit_conforms {id : Uuid} {v : List (String × GuardSession)}
    (h : (Request.http r).intent = .commit id)
    (hauth : (Request.http r).Authenticated { Local.init with validated := v }) :
    (Http.terminate r.requestId id (·.commit db) committedBody).wp (monitor.protocol (.http r))
      (fun m rep => answered (.http r) m (.http rep)) { Local.init with validated := v } := by
  have hcommit := fun {m rep} => @answered_commit _ _ m rep _ h
  refine ⟨⟨rfl, by rw [h]; rfl, rfl, fun _ => hauth⟩, fun pending => ?_⟩
  cases pending with
  | none =>
      exact hcommit.mpr ⟨fun _ => .inl ⟨rfl, _, rfl⟩,
        iff_of_false Bool.false_ne_true Bool.false_ne_true⟩
  | some pending =>
      refine wp_answer.mpr (wp_commit db h ⟨rfl, rfl⟩ rfl rfl rfl rfl ?_ ?_)
      · intro m' e ht hc
        refine hcommit.mpr ⟨fun h => (nomatch ht.symm.trans h), ?_⟩
        rw [Response.mapError_not_success, hc]
      · intro m' ht hc
        exact hcommit.mpr ⟨fun h => (nomatch ht.symm.trans h), iff_of_true rfl hc⟩

theorem Http.rollback_conforms {id : Uuid} {v : List (String × GuardSession)}
    (h : (Request.http r).intent = .rollback id)
    (hauth : (Request.http r).Authenticated { Local.init with validated := v }) :
    (Http.terminate r.requestId id (·.rollback db) rolledBackBody).wp
      (monitor.protocol (.http r)) (fun m rep => answered (.http r) m (.http rep))
      { Local.init with validated := v } := by
  have hrollback := fun {m rep} => @answered_rollback _ _ m rep _ h
  refine ⟨⟨rfl, by rw [h]; rfl, rfl, fun _ => hauth⟩, fun pending => ?_⟩
  cases pending with
  | none => exact hrollback.mpr fun _ => .inl ⟨rfl, _, rfl⟩
  | some pending =>
      refine wp_answer.mpr (wp_rollback db h ⟨rfl, rfl⟩ rfl rfl fun m' reply ht => ?_)
      have hanswered : ∀ rep, answered (.http r) m' rep := fun rep =>
        hrollback.mpr fun h => nomatch ht.symm.trans h
      cases reply <;> exact hanswered _

theorem Http.Protected.handle_conforms {route : Http.Protected} (hr : r.route = .«protected» route)
    {token : String} (htoken : Http.bearerToken r.authorization = some token)
    (g : GuardSession) :
    (route.handle db r.requestId g.toSession).wp (monitor.protocol (.http r))
      (fun m rep => answered (.http r) m (.http rep))
      { Local.init with validated := [(token, g)] } := by
  have hint : (Request.http r).intent = route.intent := congrArg Http.Route.intent hr
  have hauth : (Request.http r).Authenticated { Local.init with validated := [(token, g)] } :=
    ⟨token, g, htoken, List.mem_cons_self⟩
  by_cases hother : route.intent = .other
  · exact wp_routine (by rw [hint, hother]; rfl) (Http.Protected.handle_routine db hother _ _)
      (fun _ _ => answered_of_intent (.inl (hint.trans hother))) rfl
  have hmalformed : route.intent = .malformed → ∀ m rep, answered (.http r) m rep :=
    fun h _ _ => answered_of_intent (.inr (.inl (hint.trans h)))
  cases route with
  | revokeSession id =>
      cases id with
      | error rejection => exact hmalformed rfl _ _
      | ok id =>
          have hany : ∀ m rep, answered (.http r) m rep :=
            fun m rep => answered_of_intent (.inr (.inr (.inr ⟨id, hint⟩)))
          refine wp_answer.mpr (Try.wp_of.mpr ⟨⟨rfl, hint, hauth⟩, fun reply => ?_⟩)
          cases reply <;> exact hany _ _
  | beginTransaction =>
      refine ⟨rfl, fun id => ⟨⟨rfl, hint, List.mem_cons_self, token, g, htoken,
        List.mem_cons_self, rfl⟩, fun _ => ?_⟩⟩
      exact answered_of_intent (.inr (.inr (.inl hint)))
  | txRemember id body | txRememberTyped id body =>
      cases id with
      | error rejection => exact hmalformed rfl _ _
      | ok id =>
          cases body with
          | error rejection => exact hmalformed rfl _ _
          | ok body => exact Http.stage_conforms hint hauth
  | commitTransaction id =>
      cases id with
      | error rejection => exact hmalformed rfl _ _
      | ok id => exact Http.commit_conforms db hint hauth
  | rollbackTransaction id =>
      cases id with
      | error rejection => exact hmalformed rfl _ _
      | ok id => exact Http.rollback_conforms db hint hauth
  | _ => exact absurd rfl hother

/-- The middlewares turn a request away, or let it through with its session. -/
theorem Http.serve_conforms (r : Http.Request) :
    (Http.serve db r).wp (monitor.protocol (.http r))
      (fun m rep => answered (.http r) m (.http rep)) .init := by
  have hpublic : ∀ {p : Act Response}, (Request.http r).intent = .other → Routine p →
      p.wp (monitor.protocol (.http r)) (fun m rep => answered (.http r) m (.http rep)) .init :=
    fun h hp => wp_routine (by rw [h]; rfl) hp (fun _ _ => answered_of_intent (.inl h)) rfl
  unfold Http.serve
  cases hr : r.route with
  | health =>
      exact hpublic (congrArg Http.Route.intent hr) (answer_routine (health_routine db))
  | ready =>
      exact hpublic (congrArg Http.Route.intent hr) (answer_routine (health_routine db))
  | createSession body => exact Http.createSession_conforms db hr
  | metrics =>
      exact hpublic (congrArg Http.Route.intent hr)
        (activeSessionCount_routine.bind fun _ => ⟨rfl, fun _ => trivial⟩)
  | «protected» route =>
      dsimp only
      unfold Http.authMiddleware
      split
      next => exact answered_turnedAway (.inl rfl) rfl rfl rfl
      next token htoken =>
        refine Prog.wp_bind.mpr
          (wp_validateSession rfl (fun e => ?_) fun g => ⟨rfl, fun within => ?_⟩)
        · exact answered_turnedAway (.inl rfl) rfl rfl rfl
        · cases within with
          | true => exact Http.Protected.handle_conforms db hr htoken g
          | false => exact answered_turnedAway (.inr ⟨_, rfl⟩) rfl rfl rfl

end Http

/-! ## gRPC -/

section Grpc

variable [Crates]

theorem Grpc.ifUuid_some {text : String} {f : Uuid → Intent} {id : Uuid}
    (h : Crates.parseStr text = some id) : Grpc.ifUuid text f = f id := by
  unfold Grpc.ifUuid; rw [h]

theorem Grpc.ifUuid_none {text : String} {f : Uuid → Intent}
    (h : Crates.parseStr text = none) : Grpc.ifUuid text f = .malformed := by
  unfold Grpc.ifUuid; rw [h]

theorem wp_sessionFromRequest {req : Request} {token : Option String}
    {Q : Local → Except Status (String × ClawDBSession) → Prop} {m : Local}
    (hm : m.finished = false) (herr : ∀ status, Q m (.error status))
    (hok : ∀ t g, token = some t →
      Q { m with validated := (t, g) :: m.validated } (.ok (t, g.toSession))) :
    (Grpc.sessionFromRequest token).run.wp (monitor.protocol req) Q m := by
  cases token with
  | none => exact herr _
  | some t =>
      exact Try.wp_bind.mpr (Try.wp_of.mpr
        (wp_validateSession hm (fun _ => herr _) fun g => hok t g rfl))

theorem wp_parseUuid_bind {α M : Type} {P : Protocol Sig M} {message text : String}
    {k : Uuid → Grpc.Rpc α} {Q : M → Except Status α → Prop} {m : M}
    (hnone : Crates.parseStr text = none → ∀ status, Q m (.error status))
    (hsome : ∀ id, Crates.parseStr text = some id →
      (k id).run.wp P Q m) :
    (Grpc.parseUuid message text >>= k).run.wp P Q m := by
  refine Try.wp_bind.mpr ?_
  unfold Grpc.parseUuid
  split
  next id hp => exact hsome id hp
  next hp => exact hnone hp _

theorem wp_parseJson_bind {α M : Type} {P : Protocol Sig M} {message text : String}
    {k : Option Json.Value → Grpc.Rpc α} {Q : M → Except Status α → Prop} {m : M}
    (hblank : (Text.trim text).isEmpty = true → (k none).run.wp P Q m)
    (hnone : (Text.trim text).isEmpty = false → Crates.fromStr text = none →
      ∀ status, Q m (.error status))
    (hsome : ∀ value, (Text.trim text).isEmpty = false → Crates.fromStr text = some value →
      (k (some value)).run.wp P Q m) :
    (Grpc.parseJson message text >>= k).run.wp P Q m := by
  rw [Try.wp_bind]
  unfold Grpc.parseJson
  cases he : (Text.trim text).isEmpty with
  | true => exact hblank he
  | false =>
      rw [if_neg Bool.false_ne_true]
      split
      next value hv => exact hsome value he hv
      next hv => exact hnone he hv _

-- what a metadata text parses to is decided by the lemma above, not by unfolding
attribute [local irreducible] Grpc.parseJson

variable (db : ClawDBEngine) {r : Grpc.Request}

theorem Grpc.stage_conforms {id : Uuid} {staged : StagedMemory}
    (h : (Request.grpc r).intent = .stage id staged) :
    (Grpc.stage id staged).run.wp (monitor.protocol (.grpc r))
      (fun m result => answered (.grpc r) m (.grpc ⟨some r.requestId, result⟩)) .init := by
  refine Try.wp_bind.mpr (Try.wp_lift.mpr ⟨rfl, fun stagedId => ?_⟩)
  refine Try.wp_bind.mpr (Try.wp_lift.mpr ⟨⟨rfl, h, fun hh => nomatch hh⟩, fun found => ?_⟩)
  cases found with
  | true => exact (answered_stage h).mpr (iff_of_true rfl rfl)
  | false => exact (answered_stage h).mpr (iff_of_false Bool.false_ne_true Bool.false_ne_true)

theorem answered_malformed {req : Request} {m : Local} {rep : Reply} {text : String}
    {f : Uuid → Intent} (h : req.intent = Grpc.ifUuid text f) (hp : Crates.parseStr text = none) :
    answered req m rep :=
  answered_of_intent (.inr (.inl (h.trans (Grpc.ifUuid_none hp))))

theorem Grpc.createSession_conforms {agentId role : String} {scopes : List String}
    {ttlSecs : UInt64} (hr : r.method = .createSession agentId role scopes ttlSecs) :
    (Grpc.createSession db r.requestId r.token agentId role scopes ttlSecs).run.wp
      (monitor.protocol (.grpc r))
      (fun m result => answered (.grpc r) m (.grpc ⟨some r.requestId, result⟩)) .init := by
  have hint : (Request.grpc r).intent =
      Grpc.ifUuid agentId fun id => .createSession id role scopes :=
    congrArg Grpc.Method.intent hr
  have herr : ∀ m status, answered (.grpc r) m (.grpc ⟨some r.requestId, .error status⟩) := by
    intro m status
    cases hp : Crates.parseStr agentId with
    | none => exact answered_malformed hint hp
    | some id =>
        exact (answered_createSession (hint.trans (Grpc.ifUuid_some hp))).mpr
          fun h => (nomatch h)
  refine Try.wp_bind.mpr (wp_sessionFromRequest rfl (fun _ => herr _ _) fun t g ht => ?_)
  refine wp_parseUuid_bind (fun _ _ => herr _ _) fun id hp => ?_
  have hint' := hint.trans (Grpc.ifUuid_some hp)
  refine Try.wp_bind.mpr (Try.wp_of.mpr (wp_sessionWithTtl db rfl
    ⟨hint', rfl, fun _ => ⟨t, g, ht, List.mem_cons_self⟩⟩ (fun e => herr _ _) fun g' => ?_))
  exact (answered_createSession hint').mpr fun _ => ⟨g', rfl, rfl⟩

theorem Grpc.revokeSession_conforms {sessionId : String}
    (hr : r.method = .revokeSession sessionId) :
    (Grpc.revokeSession r.requestId r.token sessionId).run.wp (monitor.protocol (.grpc r))
      (fun m result => answered (.grpc r) m (.grpc ⟨some r.requestId, result⟩)) .init := by
  have hint : (Request.grpc r).intent = Grpc.ifUuid sessionId .revokeSession :=
    congrArg Grpc.Method.intent hr
  have hany : ∀ m rep, answered (.grpc r) m rep := by
    intro m rep
    cases hp : Crates.parseStr sessionId with
    | none => exact answered_malformed hint hp
    | some id =>
        exact answered_of_intent (.inr (.inr (.inr ⟨id, hint.trans (Grpc.ifUuid_some hp)⟩)))
  refine Try.wp_bind.mpr (wp_sessionFromRequest rfl (fun _ => hany _ _) fun t g ht => ?_)
  refine wp_parseUuid_bind (fun _ _ => hany _ _) fun id hp => ?_
  refine Try.wp_bind.mpr (Try.wp_of.mpr (Try.wp_of.mpr
    ⟨⟨rfl, hint.trans (Grpc.ifUuid_some hp), t, g, ht, List.mem_cons_self⟩, fun reply => ?_⟩))
  cases reply <;> exact hany _ _

theorem Grpc.beginTx_conforms (hr : r.method = .beginTx) :
    (Grpc.beginTx r.token).run.wp (monitor.protocol (.grpc r))
      (fun m result => answered (.grpc r) m (.grpc ⟨some r.requestId, result⟩)) .init := by
  have hint : (Request.grpc r).intent = .begin := congrArg Grpc.Method.intent hr
  have hany : ∀ m rep, answered (.grpc r) m rep :=
    fun m rep => answered_of_intent (.inr (.inr (.inl hint)))
  refine Try.wp_bind.mpr (wp_sessionFromRequest rfl (fun _ => hany _ _) fun t g ht => ?_)
  refine Try.wp_bind.mpr (Try.wp_lift.mpr ⟨rfl, fun id => ?_⟩)
  exact Try.wp_bind.mpr (Try.wp_lift.mpr ⟨⟨rfl, hint, List.mem_cons_self, t, g, ht,
    List.mem_cons_self, rfl⟩, fun _ => hany _ _⟩)

theorem Grpc.commitTx_conforms {txId : String} (hr : r.method = .commitTx txId) :
    (Grpc.commitTx db r.requestId txId).run.wp (monitor.protocol (.grpc r))
      (fun m result => answered (.grpc r) m (.grpc ⟨some r.requestId, result⟩)) .init := by
  have hint : (Request.grpc r).intent = Grpc.ifUuid txId .commit :=
    congrArg Grpc.Method.intent hr
  refine wp_parseUuid_bind (fun hp _ => answered_malformed hint hp) fun id hp => ?_
  have hint' := hint.trans (Grpc.ifUuid_some hp)
  have hcommit := fun {m rep} => @answered_commit _ _ m rep _ hint'
  refine Try.wp_bind.mpr (Try.wp_lift.mpr
    ⟨⟨rfl, by rw [hint']; rfl, rfl, fun hh => nomatch hh⟩, fun pending => ?_⟩)
  cases pending with
  | none =>
      exact hcommit.mpr ⟨fun _ => .inl ⟨rfl, rfl⟩,
        iff_of_false Bool.false_ne_true Bool.false_ne_true⟩
  | some pending =>
      refine Try.wp_bind.mpr (Try.wp_of.mpr
        (wp_commit db hint' ⟨rfl, rfl⟩ rfl rfl rfl rfl ?_ ?_))
      · intro m' e ht hc
        refine hcommit.mpr ⟨fun h => (nomatch ht.symm.trans h), ?_⟩
        rw [hc]
        exact iff_of_false Bool.false_ne_true Bool.false_ne_true
      · intro m' ht hc
        exact hcommit.mpr ⟨fun h => (nomatch ht.symm.trans h), iff_of_true rfl hc⟩

theorem Grpc.rollbackTx_conforms {txId : String} (hr : r.method = .rollbackTx txId) :
    (Grpc.rollbackTx db r.requestId txId).run.wp (monitor.protocol (.grpc r))
      (fun m result => answered (.grpc r) m (.grpc ⟨some r.requestId, result⟩)) .init := by
  have hint : (Request.grpc r).intent = Grpc.ifUuid txId .rollback :=
    congrArg Grpc.Method.intent hr
  refine wp_parseUuid_bind (fun hp _ => answered_malformed hint hp) fun id hp => ?_
  have hint' := hint.trans (Grpc.ifUuid_some hp)
  have hrollback := fun {m rep} => @answered_rollback _ _ m rep _ hint'
  refine Try.wp_bind.mpr (Try.wp_lift.mpr
    ⟨⟨rfl, by rw [hint']; rfl, rfl, fun hh => nomatch hh⟩, fun pending => ?_⟩)
  cases pending with
  | none => exact hrollback.mpr fun _ => .inl ⟨rfl, rfl⟩
  | some pending =>
      refine Try.wp_bind.mpr (Try.wp_of.mpr
        (wp_rollback db hint' ⟨rfl, rfl⟩ rfl rfl fun m' reply ht => ?_))
      have hanswered : ∀ rep, answered (.grpc r) m' rep := fun rep =>
        hrollback.mpr fun h => (nomatch ht.symm.trans h)
      cases reply <;> exact hanswered _

theorem Grpc.Method.handle_conforms {method : Grpc.Method} (hr : r.method = method) :
    (method.handle db r.requestId r.token).run.wp (monitor.protocol (.grpc r))
      (fun m result => answered (.grpc r) m (.grpc ⟨some r.requestId, result⟩)) .init := by
  have hint : (Request.grpc r).intent = method.intent := congrArg Grpc.Method.intent hr
  by_cases hother : method.intent = .other
  · exact wp_routine (by rw [hint, hother]; rfl) (Grpc.Method.handle_routine db hother _ _)
      (fun _ _ => answered_of_intent (.inl (hint.trans hother))) rfl
  cases method with
  | createSession agentId role scopes ttlSecs => exact Grpc.createSession_conforms db hr
  | revokeSession sessionId => exact Grpc.revokeSession_conforms hr
  | beginTx => exact Grpc.beginTx_conforms hr
  | txRemember txId content =>
      exact wp_parseUuid_bind (fun hp _ => answered_malformed hint hp) fun id hp =>
        Grpc.stage_conforms (hint.trans (Grpc.ifUuid_some hp))
  | txRememberTyped txId content type tags metadataJson =>
      refine wp_parseUuid_bind (fun hp _ => answered_malformed hint hp) fun id hp => ?_
      have hint' := hint.trans (Grpc.ifUuid_some hp)
      refine wp_parseJson_bind (fun he => ?_) (fun he hv status => ?_) fun value he hv => ?_
      · rw [he] at hint'
        exact Grpc.stage_conforms hint'
      · rw [he, hv] at hint'
        exact answered_of_intent (.inr (.inl hint'))
      · rw [he, hv] at hint'
        exact Grpc.stage_conforms hint'
  | commitTx txId => exact Grpc.commitTx_conforms db hr
  | rollbackTx txId => exact Grpc.rollbackTx_conforms db hr
  | _ => exact absurd rfl hother

theorem Grpc.serve_conforms (r : Grpc.Request) :
    (Grpc.serve db r).wp (monitor.protocol (.grpc r))
      (fun m rep => answered (.grpc r) m (.grpc rep)) .init := by
  refine ⟨rfl, fun within => ?_⟩
  cases within with
  | true =>
      show ((r.method.handle db r.requestId r.token).run >>= fun result =>
        (Prog.pure ⟨some r.requestId, result⟩ : Act GrpcResponse)).wp _ _ _
      exact Prog.wp_bind.mpr (Grpc.Method.handle_conforms db rfl)
  | false => exact answered_turnedAway rfl rfl rfl rfl

end Grpc

/-- The server keeps to the monitor, whichever requests it is open to. -/
theorem server_conforms [Crates] (db : ClawDBEngine) (accepts : Request → Prop) :
    Conforms (server db accepts) monitor := by
  intro req _
  cases req with
  | http r => exact Prog.wp_bind.mpr (Http.serve_conforms db r)
  | grpc r => exact Prog.wp_bind.mpr (Grpc.serve_conforms db r)

end ClawDB
