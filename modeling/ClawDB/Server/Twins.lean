/-
# `Server.Twins` — a gRPC call and the HTTP request that says the same

Most methods of the service have a twin among the protected routes: `Method.twin` makes of a call
the request with the same arguments, an absent value being a zero or a blank on one side and a
missing field on the other.  The two authenticate at different points and have limiters of their
own; behind that each makes one call on the engine.

`twins_served` says that the two front ends are one service: whatever one of them can do from a
state the other can, to the same state, and where one reports an error so does the other, and the
same one.  What a reply says of a success each front end words in its own way; the wording is not
compared here.

Without a twin are the calls that HTTP cannot say: a filter, more or less than one id to recall.
And so are those that the two let in by different rules: HTTP opens a session without a token, and
the four methods that change a pending transaction ask for none over gRPC.
-/
import ClawDB.Lib.Same
import ClawDB.Memories
import ClawDB.Server.Conforms

namespace ClawDB

open Effect Prog
open Json (Value)

/-! ## Twins -/

namespace Grpc

variable [Crates]

/-- What `parse_json` makes of a text it accepts. -/
def readJson (text : String) : Option (Option Value) :=
  if (Text.trim text).isEmpty then some none else (Crates.fromStr text).map some

/-- The HTTP request that says the same. -/
def Method.twin : Method → Option Http.Protected
  | .validateSession => some .whoami
  | .revokeSession sessionId => (Crates.parseStr sessionId).map fun id => .revokeSession (.ok id)
  | .remember content => some (.remember (.ok ⟨content, none, [], .null⟩))
  | .rememberTyped content type tags metadataJson =>
      (readJson metadataJson).map fun metadata =>
        .remember (.ok ⟨content, some type, tags, metadata.getD .null⟩)
  | .updateMemory memoryId content =>
      (Crates.parseStr memoryId).map fun id => .updateMemory (.ok id) (.ok ⟨content⟩)
  | .search query topK semantic filterJson =>
      match readJson filterJson with
      | some none => some (.search (.ok ⟨query, max topK.toNat 1, semantic⟩))
      | _ => none
  | .«recall» [memoryId] => (Crates.parseStr memoryId).map fun id => .recallOne (.ok id)
  | .listMemories type limit => some (.listMemories (.ok ⟨nonBlank type, nonZero limit⟩))
  | .deleteMemory memoryId => (Crates.parseStr memoryId).map fun id => .deleteMemory (.ok id)
  | .branch name «from» =>
      if «from».isEmpty then some (.createBranch (.ok ⟨name, none⟩))
      else (Crates.parseStr «from»).map fun parent => .createBranch (.ok ⟨name, some parent⟩)
  | .merge source target strategy =>
      (Crates.parseStr source).bind fun source => (Crates.parseStr target).map fun target =>
        .mergeBranch (.ok source) (.ok ⟨target, some strategy⟩)
  | .getBranch branchId => (Crates.parseStr branchId).map fun id => .getBranch (.ok id)
  | .getBranchByName name => some (.getBranchByName name)
  | .getTrunkBranch => some .getTrunkBranch
  | .listBranches => some .listBranches
  | .discardBranch branchId => (Crates.parseStr branchId).map fun id => .discardBranch (.ok id)
  | .archiveBranch branchId => (Crates.parseStr branchId).map fun id => .archiveBranch (.ok id)
  | .diff branchId target =>
      (Crates.parseStr branchId).bind fun id => (Crates.parseStr target).map fun target =>
        .diffBranch (.ok id) (.ok ⟨target⟩)
  | .sync => some .sync
  | .pushSync => some .pushSync
  | .pullSync => some .pullSync
  | .reconcileSync => some .reconcileSync
  | .syncStatus => some .syncStatus
  | .reflect => some .reflect
  | .reflectGetFacts agentId => some (.getReflectFacts agentId)
  | .reflectListJobs agentId status limit offset =>
      some (.listReflectJobs (.ok ⟨nonBlank agentId, nonBlank status,
        if limit = 0 then none else some limit, if offset = 0 then none else some offset⟩))
  | .reflectGetJob jobId => some (.getReflectJob jobId)
  | .reflectGetPreferences agentId => some (.getReflectPreferences agentId)
  | .reflectGetContradictions agentId => some (.getReflectContradictions agentId)
  | .reflectResolveContradiction agentId contradictionId strategy mergedValueJson =>
      (readJson mergedValueJson).map fun mergedValue =>
        .resolveReflectContradiction agentId contradictionId (.ok ⟨strategy, mergedValue⟩)
  | .activeSessionCount => some .activeSessionCount
  | .beginTx => some .beginTransaction
  | .health | .createSession .. | .«recall» _ | .txRemember .. | .txRememberTyped ..
  | .commitTx _ | .rollbackTx _ => none

end Grpc

/-- Replies that say the same: the request was served, the engine refused it with the same
error, or the token is not that of a session. -/
inductive Corresponds (requestId : String) : Response → Except Status Message → Prop where
  | served {r : Response} (message : Message) (h : r.status < 300) :
      Corresponds requestId r (.ok message)
  | failed (e : ClawDBError) :
      Corresponds requestId (.mapError e requestId) (.error (.mapError requestId e))
  | unauthenticated (message : String) :
      Corresponds requestId .unauthorized (.error ⟨.unauthenticated, message⟩)

section Handlers

variable {requestId : String} {α : Type}

/-- A handler and the body of a method, for one session. -/
abbrev Twinned (requestId : String) (handler : Act Response) (body : Grpc.Rpc Message) : Prop :=
  Matches Op.sem (Corresponds requestId) handler body.run

/-- Each makes the call, and renders its result. -/
theorem twinned_call {call : Eng α} {ok : α → Response} {message : α → Message} {P : α → Prop}
    (hcall : ∀ {w a w'}, Exec Op.sem call.run w (.ok a) w' → P a)
    (hok : ∀ a, P a → (ok a).status < 300) :
    Twinned requestId (Http.answer requestId call ok)
      (Grpc.call requestId call >>= fun a => pure (message a)) := by
  unfold Twinned Http.answer Grpc.call
  rw [Try.run_bind, Try.run_of, bind_assoc]
  refine Matches.bind (Matches.self (P := fun r => ∀ a, r = .ok a → P a) ?_) ?_
  · intro w r w' h a ha
    exact hcall (ha ▸ h)
  · rintro r _ ⟨rfl, hr⟩
    cases r with
    | ok a => exact .pure (.served _ (hok a (hr a rfl)))
    | error e => exact .pure (.failed e)

/-- A call of which any result will do. -/
theorem twinned_any {call : Eng α} {ok : α → Response} {message : α → Message}
    (hok : ∀ a, (ok a).status < 300) :
    Twinned requestId (Http.answer requestId call ok)
      (Grpc.call requestId call >>= fun a => pure (message a)) :=
  twinned_call (P := fun _ => True) (fun _ => trivial) fun a _ => hok a

end Handlers

section Arguments

variable [Crates] {α : Type}

theorem parseUuid_bind {message text : String} {id : Uuid} (h : Crates.parseStr text = some id)
    (k : Uuid → Grpc.Rpc α) : (Grpc.parseUuid message text >>= k) = k id := by
  unfold Grpc.parseUuid
  rw [h]
  rfl

theorem parseJson_bind {message text : String} {value : Option Value}
    (h : Grpc.readJson text = some value) (k : Option Value → Grpc.Rpc α) :
    (Grpc.parseJson message text >>= k) = k value := by
  unfold Grpc.readJson at h
  unfold Grpc.parseJson
  split at h
  next hblank =>
      obtain rfl := Option.some.inj h
      rw [if_pos hblank]
      rfl
  next hblank =>
      obtain ⟨v, hv, rfl⟩ := Option.map_eq_some_iff.mp h
      rw [if_neg hblank, hv]
      rfl

omit [Crates] in
theorem nonZero_eq (n : UInt32) :
    (if n = 0 then none else some n : Option UInt32).map UInt32.toNat = Grpc.nonZero n := by
  unfold Grpc.nonZero
  split <;> rfl

end Arguments

section Methods

variable [Crates] (db : ClawDBEngine) (requestId : String)

/-- Behind the token's session the method does what the handler does. -/
def Pairs (method : Grpc.Method) (route : Http.Protected) (token : String) : Prop :=
  ∃ body : String × ClawDBSession → Grpc.Rpc Message,
    method.handle db requestId (some token) = (Grpc.sessionFromRequest (some token) >>= body) ∧
    ∀ session, Twinned requestId (route.handle db requestId session) (body (token, session))

omit [Crates] in
/-- One id, one memory. -/
theorem recall_one {session : ClawDBSession} {id : Uuid} {w w' : World}
    {memories : List MemoryRecord}
    (h : Exec Op.sem (ClawDBEngine.recall session [id]).run w (.ok memories) w') :
    ∃ memory, memories = [memory] := by
  unfold ClawDBEngine.recall ClawDBEngine.getMemories ClawDBEngine.getMemories at h
  obtain ⟨_, w₁, -, h⟩ | ⟨e, -, he⟩ := Try.exec_bind.mp h
  · obtain ⟨record, w₂, -, h⟩ | ⟨e, -, he⟩ := Try.exec_bind.mp h
    · obtain ⟨h, -⟩ := exec_pure.mp h
      exact ⟨record, Except.ok.inj h⟩
    · cases he
  · cases he

section Pairs

variable {db : ClawDBEngine} {requestId} {α : Type} {method : Grpc.Method}
  {route : Http.Protected} {token : String}

/-- Both make one call, once the arguments are read. -/
theorem pairs_call {call : ClawDBSession → Eng α} {ok : α → Response} {message : α → Message}
    {body : String × ClawDBSession → Grpc.Rpc Message} (hok : ∀ a, (ok a).status < 300)
    (hmethod : method.handle db requestId (some token) =
      (Grpc.sessionFromRequest (some token) >>= body))
    (hbody : ∀ session, body (token, session) =
      (Grpc.call requestId (call session) >>= fun a => pure (message a)))
    (hroute : ∀ session, route.handle db requestId session =
      Http.answer requestId (call session) ok) : Pairs db requestId method route token := by
  refine ⟨body, hmethod, fun session => ?_⟩
  rw [hbody, hroute]
  exact twinned_any hok

end Pairs

omit [Crates] in
theorem status_json (v : Value) : (Response.json v).status < 300 := Nat.lt_of_sub_eq_succ rfl

omit [Crates] in
theorem status_noContent : Response.noContent.status < 300 := Nat.lt_of_sub_eq_succ rfl

theorem pairs_branch {name «from» token : String} {route : Http.Protected}
    (h : (Grpc.Method.branch name «from»).twin = some route) :
    Pairs db requestId (.branch name «from») route token := by
  have htwin : (if «from».isEmpty then some (.createBranch (.ok ⟨name, none⟩))
    else (Crates.parseStr «from»).map fun parent => .createBranch (.ok ⟨name, some parent⟩)) =
      some route := h
  refine ⟨_, rfl, fun session => ?_⟩
  show Twinned requestId _ (Grpc.forked requestId session name «from» >>= fun id =>
    pure (.branch (Crates.uuidToString id) name))
  unfold Grpc.forked
  split at htwin
  next hempty =>
      cases htwin
      rw [if_pos hempty]
      exact twinned_any fun _ => status_json _
  next hempty =>
      obtain ⟨parent, hparent, htwin⟩ := Option.map_eq_some_iff.mp htwin
      cases htwin
      rw [if_neg hempty, parseUuid_bind hparent]
      exact twinned_any fun _ => status_json _

theorem pairs_recall {memoryIds : List String} {token : String} {route : Http.Protected}
    (h : (Grpc.Method.«recall» memoryIds).twin = some route) :
    Pairs db requestId (.«recall» memoryIds) route token := by
  cases memoryIds with
  | nil => cases h
  | cons memoryId rest =>
      cases rest with
      | cons _ _ => cases h
      | nil =>
          obtain ⟨id, hid, h⟩ := Option.map_eq_some_iff.mp h
          cases h
          refine ⟨_, rfl, fun session => ?_⟩
          have hids : Grpc.parseIds [memoryId] = (pure [id] : Grpc.Rpc (List Uuid)) := by
            unfold Grpc.parseIds
            rw [parseUuid_bind hid]
            rfl
          show Twinned requestId _ (Grpc.parseIds [memoryId] >>= _)
          rw [hids, pure_bind]
          refine twinned_call recall_one fun memories hone => ?_
          obtain ⟨memory, rfl⟩ := hone
          exact Nat.lt_of_sub_eq_succ rfl

theorem pairs_of_twin {method : Grpc.Method} {route : Http.Protected} (token : String)
    (h : method.twin = some route) : Pairs db requestId method route token := by
  have hlist : ∀ memories : List MemoryRecord,
      (⟨200, .memories memories⟩ : Response).status < 300 := fun _ => Nat.lt_of_sub_eq_succ rfl
  cases method with
  | branch name «from» => exact pairs_branch db requestId h
  | «recall» memoryIds => exact pairs_recall db requestId h
  | validateSession =>
      cases h
      exact ⟨_, rfl, fun session => .pure (.served _ (status_json _))⟩
  | beginTx =>
      cases h
      refine ⟨_, rfl, fun session => ?_⟩
      exact (Matches.refl (perform (F := Sig) (.host .newV4))).bind fun id _ hid => by
        obtain rfl := hid
        exact (Matches.refl (perform (F := Sig) (.txs (.insert id ⟨id, session, []⟩)))).bind
          fun _ _ _ => .pure (.served _ (status_json _))
  | remember content | getBranchByName name | getTrunkBranch | listBranches | sync | pushSync
  | pullSync | reconcileSync | syncStatus | reflect | reflectGetFacts agentId
  | reflectGetJob jobId | reflectGetPreferences agentId | reflectGetContradictions agentId
  | activeSessionCount =>
      cases h
      exact pairs_call (fun _ => status_json _) rfl (fun _ => rfl) fun _ => rfl
  | listMemories type limit =>
      cases h
      exact pairs_call (fun _ => hlist _) rfl (fun _ => rfl) fun _ => rfl
  | reflectListJobs agentId status limit offset =>
      cases h
      refine pairs_call (fun jobs => status_json (.array jobs)) rfl (fun _ => rfl) fun session => ?_
      show Http.listReflectJobs db requestId session _ = _
      unfold Http.listReflectJobs Http.extract
      simp only [nonZero_eq]
  | rememberTyped content type tags metadataJson =>
      obtain ⟨metadata, hmetadata, h⟩ := Option.map_eq_some_iff.mp h
      cases h
      exact pairs_call (fun _ => status_json _) rfl (fun _ => parseJson_bind hmetadata _)
        fun _ => rfl
  | reflectResolveContradiction agentId contradictionId strategy mergedValueJson =>
      obtain ⟨mergedValue, hmerged, h⟩ := Option.map_eq_some_iff.mp h
      cases h
      exact pairs_call (fun _ => status_json _) rfl (fun _ => parseJson_bind hmerged _)
        fun _ => rfl
  | search query topK semantic filterJson =>
      unfold Grpc.Method.twin at h
      dsimp only at h
      split at h
      next hfilter =>
          cases h
          exact pairs_call (fun hits => Nat.lt_of_sub_eq_succ rfl) rfl
            (fun _ => parseJson_bind hfilter _) fun _ => rfl
      next => cases h
  | updateMemory memoryId content =>
      obtain ⟨id, hid, h⟩ := Option.map_eq_some_iff.mp h
      cases h
      exact pairs_call (fun _ => status_json _) rfl (fun _ => parseUuid_bind hid _) fun _ => rfl
  | getBranch branchId =>
      obtain ⟨id, hid, h⟩ := Option.map_eq_some_iff.mp h
      cases h
      exact pairs_call (fun _ => status_json _) rfl (fun _ => parseUuid_bind hid _) fun _ => rfl
  | revokeSession id | deleteMemory id | discardBranch id | archiveBranch id =>
      obtain ⟨id, hid, h⟩ := Option.map_eq_some_iff.mp h
      cases h
      exact pairs_call (fun _ => status_noContent) rfl (fun _ => parseUuid_bind hid _) fun _ => rfl
  | merge source target strategy =>
      obtain ⟨source', hsource, h⟩ := Option.bind_eq_some_iff.mp h
      obtain ⟨target', htarget, h⟩ := Option.map_eq_some_iff.mp h
      cases h
      exact pairs_call (fun _ => status_json _) rfl
        (fun _ => (parseUuid_bind hsource _).trans (parseUuid_bind htarget _)) fun _ => rfl
  | diff branchId target =>
      obtain ⟨id, hid, h⟩ := Option.bind_eq_some_iff.mp h
      obtain ⟨target', htarget, h⟩ := Option.map_eq_some_iff.mp h
      cases h
      exact pairs_call (fun _ => status_json _) rfl
        (fun _ => (parseUuid_bind hid _).trans (parseUuid_bind htarget _)) fun _ => rfl
  | health | createSession | txRemember | txRememberTyped | commitTx | rollbackTx => cases h

end Methods

/-! ## Requests -/

section Requests

variable {token : String} {w w' : World}

/-- Asking the guard changes nothing. -/
theorem exec_validateSession {v : Except ClawDBError ClawDBSession}
    (h : Exec Op.sem (ClawDBEngine.validateSession token).run w v w') : w' = w := by
  obtain ⟨g, w₁, hguard, hpure⟩ | ⟨e, hguard, rfl⟩ := Try.exec_bind.mp h
  · obtain ⟨r, hr, he⟩ := Try.exec_of.mp hguard
    obtain ⟨-, rfl⟩ := exec_pure.mp hpure
    cases r with
    | ok g => exact (exec_perform.mp hr).1
    | error e => exact exec_perform.mp hr
  · obtain ⟨r, hr, he⟩ := Try.exec_of.mp hguard
    cases r with
    | ok g => exact (exec_perform.mp hr).1
    | error e => exact exec_perform.mp hr

/-- What `session_from_request` makes of the guard's reply. -/
def sessionReply (token : String) :
    Except ClawDBError ClawDBSession → Except Status (String × ClawDBSession)
  | .ok session => .ok (token, session)
  | .error _ => .error ⟨.unauthenticated, "invalid session token"⟩

theorem exec_sessionFromRequest {r : Except Status (String × ClawDBSession)} :
    Exec Op.sem (Grpc.sessionFromRequest (some token)).run w r w' ↔
      ∃ v, Exec Op.sem (ClawDBEngine.validateSession token).run w v w' ∧
        r = sessionReply token v := by
  unfold Grpc.sessionFromRequest
  rw [Try.run_bind, Try.run_of, bind_assoc, exec_bind]
  refine exists_congr fun v => ?_
  constructor
  · rintro ⟨w₁, hv, hrest⟩
    cases v <;> (obtain ⟨rfl, rfl⟩ := exec_pure.mp hrest; exact ⟨hv, rfl⟩)
  · rintro ⟨hv, rfl⟩
    refine ⟨w', hv, ?_⟩
    cases v <;> exact .pure ..

variable [Crates] (db : ClawDBEngine) {requestId : String} {method : Grpc.Method}
  {route : Http.Protected} {authorization : Option String} {rep : Response}

/-- What a protected request comes to: turned away, over the limit, or handled. -/
theorem exec_http (htoken : Http.bearerToken authorization = some token) :
    Exec Op.sem (Http.serve db ⟨requestId, authorization, .«protected» route⟩) w rep w' ↔
      ∃ v, Exec Op.sem (ClawDBEngine.validateSession token).run w v w ∧
        ((∃ e, v = .error e ∧ rep = .unauthorized ∧ w' = w) ∨
          ∃ session, v = .ok session ∧ ((rep = .rateLimited requestId ∧ w' = w) ∨
            Exec Op.sem (route.handle db requestId session) w rep w')) := by
  unfold Http.serve Http.authMiddleware
  rw [htoken]
  dsimp only
  rw [exec_bind]
  constructor
  · rintro ⟨v, w₁, hv, hk⟩
    obtain rfl := exec_validateSession hv
    refine ⟨v, hv, ?_⟩
    cases v with
    | error e =>
        obtain ⟨rfl, rfl⟩ := exec_pure.mp hk
        exact .inl ⟨e, rfl, rfl, rfl⟩
    | ok session =>
        obtain ⟨within, w₂, hwithin, hnext⟩ := exec_op.mp hk
        obtain rfl : w₂ = w₁ := hwithin
        refine .inr ⟨session, rfl, ?_⟩
        cases within with
        | true => exact .inr hnext
        | false => exact .inl (exec_pure.mp hnext)
  · rintro ⟨v, hv, ⟨e, rfl, rfl, rfl⟩ | ⟨session, rfl, ⟨rfl, rfl⟩ | hhandle⟩⟩
    · exact ⟨_, _, hv, .pure ..⟩
    · exact ⟨_, _, hv, exec_op.mpr ⟨false, _, rfl, .pure ..⟩⟩
    · exact ⟨_, _, hv, exec_op.mpr ⟨true, _, rfl, hhandle⟩⟩

theorem exec_grpc {reply : GrpcResponse} {body : String × ClawDBSession → Grpc.Rpc Message}
    (hbody : method.handle db requestId (some token) =
      (Grpc.sessionFromRequest (some token) >>= body)) :
    Exec Op.sem (Grpc.serve db ⟨requestId, some token, method⟩) w reply w' ↔
      (reply = .rateLimited ∧ w' = w) ∨
        ∃ result v, reply = ⟨some requestId, result⟩ ∧
          Exec Op.sem (ClawDBEngine.validateSession token).run w v w ∧
          ((∃ e, v = .error e ∧
              result = .error ⟨.unauthenticated, "invalid session token"⟩ ∧ w' = w) ∨
            ∃ session, v = .ok session ∧ Exec Op.sem (body (token, session)).run w result w') := by
  have hserve : Grpc.serve db ⟨requestId, some token, method⟩ =
      .op (F := Sig) (.host (.checkKey .grpc token)) fun within : Bool =>
        if within then (method.handle db requestId (some token)).run >>= fun result =>
          .pure ⟨some requestId, result⟩
        else .pure .rateLimited := rfl
  rw [hserve, exec_op, hbody]
  constructor
  · rintro ⟨within, w₁, hwithin, hk⟩
    obtain rfl : w₁ = w := hwithin
    cases within with
    | false => exact .inl (exec_pure.mp hk)
    | true =>
        obtain ⟨result, w₂, hmethod, hpure⟩ := exec_bind.mp hk
        obtain ⟨rfl, rfl⟩ := exec_pure.mp hpure
        refine .inr ⟨result, ?_⟩
        rcases Try.exec_bind.mp hmethod with ⟨ts, w₃, hsession, hrest⟩ | ⟨status, hsession, rfl⟩
        · obtain ⟨v, hv, hr⟩ := exec_sessionFromRequest.mp hsession
          obtain rfl := exec_validateSession hv
          cases v with
          | error e => cases hr
          | ok session =>
              obtain rfl := Except.ok.inj hr
              exact ⟨_, rfl, hv, .inr ⟨session, rfl, hrest⟩⟩
        · obtain ⟨v, hv, hr⟩ := exec_sessionFromRequest.mp hsession
          obtain rfl := exec_validateSession hv
          cases v with
          | ok session => cases hr
          | error e => exact ⟨_, rfl, hv, .inl ⟨e, rfl, congrArg _ (Except.error.inj hr), rfl⟩⟩
  · rintro (⟨rfl, rfl⟩ | ⟨result, v, rfl, hv, ⟨e, rfl, rfl, rfl⟩ | ⟨session, rfl, hrest⟩⟩)
    · exact ⟨false, _, rfl, .pure ..⟩
    · refine ⟨true, _, rfl, exec_bind.mpr ⟨_, _, Try.exec_bind.mpr (.inr ⟨_, ?_, rfl⟩), .pure ..⟩⟩
      exact exec_sessionFromRequest.mpr ⟨_, hv, rfl⟩
    · refine ⟨true, _, rfl, exec_bind.mpr
        ⟨_, _, Try.exec_bind.mpr (.inl ⟨_, _, ?_, hrest⟩), .pure ..⟩⟩
      exact exec_sessionFromRequest.mpr ⟨_, hv, rfl⟩

/-- A call and its twin, sent with the same token: whatever one of them can come to, within its
limit, the other can come to as well, with the same world behind it and a reply that says the
same. -/
theorem twins_served (htwin : method.twin = some route)
    (htoken : Http.bearerToken authorization = some token) :
    let http := Http.serve db ⟨requestId, authorization, .«protected» route⟩
    let grpc := Grpc.serve db ⟨requestId, some token, method⟩
    (∀ {w rep w'}, Exec Op.sem http w rep w' → (rep = .rateLimited requestId ∧ w' = w) ∨
      ∃ result, Exec Op.sem grpc w ⟨some requestId, result⟩ w' ∧
        Corresponds requestId rep result) ∧
    ∀ {w reply w'}, Exec Op.sem grpc w reply w' → (reply = .rateLimited ∧ w' = w) ∨
      ∃ result rep, reply = ⟨some requestId, result⟩ ∧ Exec Op.sem http w rep w' ∧
        Corresponds requestId rep result := by
  intro http grpc
  obtain ⟨body, hbody, hpairs⟩ := pairs_of_twin db requestId token htwin
  constructor
  · intro w rep w' h
    obtain ⟨v, hv, ⟨e, rfl, rfl, rfl⟩ | ⟨session, rfl, hlimited | hhandle⟩⟩ :=
      (exec_http db htoken).mp h
    · refine .inr ⟨_, (exec_grpc db hbody).mpr (.inr ⟨_, _, rfl, hv, .inl ⟨e, rfl, rfl, rfl⟩⟩), ?_⟩
      exact .unauthenticated _
    · exact .inl hlimited
    · obtain ⟨result, hresult, hcorr⟩ := (hpairs session).forth hhandle
      refine .inr ⟨result, (exec_grpc db hbody).mpr (.inr ⟨_, _, rfl, hv, .inr ?_⟩), hcorr⟩
      exact ⟨session, rfl, hresult⟩
  · intro w reply w' h
    obtain hlimited | ⟨result, v, rfl, hv, ⟨e, rfl, rfl, rfl⟩ | ⟨session, rfl, hrest⟩⟩ :=
      (exec_grpc db hbody).mp h
    · exact .inl hlimited
    · refine .inr ⟨_, _, rfl, (exec_http db htoken).mpr ⟨_, hv, .inl ⟨e, rfl, rfl, rfl⟩⟩, ?_⟩
      exact .unauthenticated _
    · obtain ⟨rep, hrep, hcorr⟩ := (hpairs session).back hrest
      refine .inr ⟨result, rep, rfl, (exec_http db htoken).mpr ⟨_, hv, .inr ?_⟩, hcorr⟩
      exact ⟨session, rfl, .inr hrep⟩

end Requests

section Witness

attribute [local instance] Crates.sample

def rememberOverHttp : Act Response :=
  Http.serve vectorDb ⟨"r", some "Bearer t", .«protected» (.remember (.ok ⟨"x", none, [], .null⟩))⟩

/-- What the HTTP request does, the call can do. -/
theorem twins_served_remember :
    (rememberOverHttp.run Op.reference ownerWorld).1.status = 200 ∧
      ∃ result, Exec Op.sem (Grpc.serve vectorDb ⟨"r", some "t", .remember "x"⟩) ownerWorld
        ⟨some "r", result⟩ (rememberOverHttp.run Op.reference ownerWorld).2 ∧
        Corresponds "r" (rememberOverHttp.run Op.reference ownerWorld).1 result := by
  have hstatus : (rememberOverHttp.run Op.reference ownerWorld).1.status = 200 := by
    decide +kernel
  refine ⟨hstatus, ?_⟩
  have hexec := exec_run Op.reference_refines rememberOverHttp ownerWorld
  have hbearer : Http.bearerToken (some "Bearer t") = some "t" := by decide +kernel
  have htwin : (Grpc.Method.remember "x").twin =
      some (.remember (.ok ⟨"x", none, [], .null⟩)) := rfl
  rcases (twins_served vectorDb htwin hbearer).1 hexec with ⟨hlimited, -⟩ | h
  · rw [hlimited] at hstatus
    cases hstatus
  · exact h

end Witness

end ClawDB
