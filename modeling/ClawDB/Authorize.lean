/-
# `ClawDB.Authorize` — what a session may do

Every method of the wrapper that takes a session, as one enumeration, with the
scopes the source lists for it.  All of them start with `authorize`; its
specification, `authorize_bind`, is the only place where it is unfolded.

Two results.  A session that is rejected reaches no component, and one whose
scopes are confined to a resource reaches no other resource
(`sessionCall_confined`).  The decision depends on the guard's verdict on the token
and on the scopes the session value carries, and on nothing else
(`decision_of_verdict`).
-/
import ClawDB.Engine
import ClawDB.World

namespace ClawDB

open Effect Prog
open Json (Value)

/-! ## Scopes -/

theorem scopeMatches_iff {granted required : String} : scopeMatches granted required = true ↔
    granted = "*" ∨ granted = required ∨
      ∃ p t, granted = p ++ ":*" ∧ required = p ++ ":" ++ t := by
  simp only [scopeMatches, Bool.or_eq_true, beq_iff_eq, Option.any_eq_true, Text.startsWith_iff,
    Text.stripSuffix_eq_some, or_assoc]
  constructor
  · rintro (h | h | ⟨p, hp, t, ht⟩)
    · exact .inl h
    · exact .inr (.inl h)
    · exact .inr (.inr ⟨p, t, hp, ht⟩)
  · rintro (h | h | ⟨p, t, hp, ht⟩)
    · exact .inl h
    · exact .inr (.inl h)
    · exact .inr (.inr ⟨p, hp, t, ht⟩)

theorem permits_iff {scopes accepted : List String} :
    ClawDBEngine.permits scopes accepted = true ↔
      ∃ required ∈ accepted, ∃ granted ∈ scopes, scopeMatches granted required = true := by
  simp only [ClawDBEngine.permits, List.any_eq_true]

/-- Without its last `*`, a wildcard scope still has every prefix that ends in a colon. -/
theorem wildcard_prefix {R p : String} {u : String} (h : R ++ ":" ++ u = p ++ ":*") :
    ∃ v, p ++ ":" = R ++ ":" ++ v := by
  have hl : R.toList ++ ':' :: u.toList = p.toList ++ [':', '*'] := by
    simpa [String.toList_append] using congrArg String.toList h
  have hu : u.toList ≠ [] := by
    intro hu
    have := congrArg List.getLast? hl
    simp [hu] at this
  have hd := congrArg List.dropLast hl
  rw [List.dropLast_append_of_ne_nil (by simp), List.dropLast_append_of_ne_nil (by simp),
    List.dropLast_cons_of_ne_nil hu] at hd
  refine ⟨String.ofList u.toList.dropLast, String.toList_inj.mp ?_⟩
  simpa [String.toList_append] using hd.symm

/-- A scope under a resource prefix matches only what is under that prefix. -/
theorem scopeMatches_under {R granted required : String}
    (hg : Text.startsWith granted (R ++ ":") = true)
    (hm : scopeMatches granted required = true) :
    Text.startsWith required (R ++ ":") = true := by
  obtain ⟨u, rfl⟩ := Text.startsWith_iff.mp hg
  rcases scopeMatches_iff.mp hm with h | h | ⟨p, t, hp, rfl⟩
  · -- `*` has no colon
    have := congrArg (fun s : String => s.toList.count ':') h
    simp [String.toList_append, List.count_append] at this
  · exact Text.startsWith_iff.mpr ⟨u, h.symm⟩
  · obtain ⟨v, hv⟩ := wildcard_prefix hp
    exact Text.startsWith_iff.mpr ⟨v ++ t, by rw [hv, String.append_assoc]⟩

/-- A string with one colon has one prefix that ends in it. -/
theorem prefix_unique {s R R' : String} (hc : s.toList.count ':' = 1)
    (h : Text.startsWith s (R ++ ":") = true) (h' : Text.startsWith s (R' ++ ":") = true) :
    R = R' := by
  have key : ∀ {Q : String}, Text.startsWith s (Q ++ ":") = true →
      Q.toList = s.toList.takeWhile (· != ':') := by
    intro Q hQ
    obtain ⟨t, rfl⟩ := Text.startsWith_iff.mp hQ
    have hQ' : Q.toList.count ':' = 0 := by
      simp only [String.toList_append, List.count_append] at hc
      have : (":".toList).count ':' = 1 := by decide
      omega
    have hall : ∀ c ∈ Q.toList, (c != ':') = true := by
      intro c hc'
      have hne : c ≠ ':' := fun e => List.count_eq_zero.mp hQ' (e ▸ hc')
      simpa using hne
    rw [String.toList_append, String.toList_append, List.append_assoc,
      List.takeWhile_append_of_pos hall]
    simp
  exact String.toList_inj.mp ((key h).trans (key h').symm)

/-! ### The order of scopes -/

theorem scopeMatches_refl (scope : String) : scopeMatches scope scope = true :=
  scopeMatches_iff.mpr (.inr (.inl rfl))

theorem scopeMatches_trans {a b c : String} (hab : scopeMatches a b = true)
    (hbc : scopeMatches b c = true) : scopeMatches a c = true := by
  rcases scopeMatches_iff.mp hab with rfl | rfl | ⟨p, t, rfl, rfl⟩
  · exact scopeMatches_iff.mpr (.inl rfl)
  · exact hbc
  · have hprefix : Text.startsWith (p ++ ":" ++ t) (p ++ ":") = true :=
      Text.startsWith_iff.mpr ⟨t, rfl⟩
    obtain ⟨u, rfl⟩ := Text.startsWith_iff.mp (scopeMatches_under hprefix hbc)
    exact scopeMatches_iff.mpr (.inr (.inr ⟨p, u, rfl, rfl⟩))

/-- Each scope is covered by one of those held. -/
def Covered (held scopes : List String) : Prop :=
  ∀ scope ∈ scopes, ∃ h ∈ held, scopeMatches h scope = true

/-- Covered scopes permit no more than what covers them. -/
theorem Covered.permits {held scopes accepted : List String} (h : Covered held scopes)
    (hp : ClawDBEngine.permits scopes accepted = true) :
    ClawDBEngine.permits held accepted = true := by
  obtain ⟨required, hr, granted, hg, hm⟩ := permits_iff.mp hp
  obtain ⟨s, hs, hsg⟩ := h granted hg
  exact permits_iff.mpr ⟨required, hr, s, hs, scopeMatches_trans hsg hm⟩

/-! ## The authorization step -/

/-- `authorize`, and what comes after it. -/
theorem authorize_bind {α : Type} (session : ClawDBSession) (accepted : List String)
    (f : Unit → Eng α) :
    (ClawDBEngine.authorize session accepted >>= f).run =
      Prog.op (F := Sig) (.guard (.validateSession session.token)) fun
        | .error e => .pure (.error (mapGuardSessionError e))
        | .ok _ =>
            if ClawDBEngine.permits session.scopes accepted then (f ()).run
            else .op (.host (.count .sessionDenied)) fun _ =>
              .op (.host (.emit (.policyDenied session.agentId (accepted.head?.getD "unknown")
                "required scope missing"))) fun _ =>
                .pure (.error (.permissionDenied "required scope missing")) := by
  simp only [ClawDBEngine.authorize, ClawDBEngine.count, ClawDBEngine.emit, Try.run_bind,
    Try.run_of, Eng.guard_bind, Prog.op_bind, Prog.pure_bind']
  refine congrArg _ (funext fun r => ?_)
  cases r with
  | error e => rfl
  | ok g =>
      simp only [Except.mapError]
      split
      · rfl
      · simp only [Try.run_bind, Try.run_lift, Try.run_throw, Eng.host_bind,
          Prog.op_bind, Prog.pure_bind']

theorem within_authorize {α : Type} {P : Op → Prop} {session : ClawDBSession}
    {accepted : List String} {f : Unit → Eng α}
    (hguard : P (.guard (.validateSession session.token)))
    (hcount : P (.host (.count .sessionDenied)))
    (hemit : ∀ agentId scope reason, P (.host (.emit (.policyDenied agentId scope reason))))
    (hf : (f ()).run.Within P) : (ClawDBEngine.authorize session accepted >>= f).run.Within P := by
  rw [authorize_bind]
  refine ⟨hguard, fun r => ?_⟩
  cases r with
  | error e => trivial
  | ok g =>
      show Within (F := Sig) P
        (if ClawDBEngine.permits session.scopes accepted then _ else _)
      split
      · exact hf
      · exact ⟨hcount, fun _ => ⟨hemit _ _ _, fun _ => trivial⟩⟩

/-- What follows the authorization, for a protocol that does not remember it. -/
theorem wp_authorize {α M : Type} {P : Protocol Sig M} {session : ClawDBSession}
    {accepted : List String} {f : Unit → Eng α} {Q : M → Except ClawDBError α → Prop} {m : M}
    (hguard : P.Skips m (.guard (.validateSession session.token)))
    (hcount : P.Skips m (.host (.count .sessionDenied)))
    (hemit : ∀ agentId scope reason, P.Skips m (.host (.emit (.policyDenied agentId scope reason))))
    (hf : (f ()).run.wp P Q m) (herror : ∀ e, Q m (.error e)) :
    (ClawDBEngine.authorize session accepted >>= f).run.wp P Q m := by
  rw [authorize_bind]
  refine ⟨hguard.1, fun r => ?_⟩
  rw [hguard.2 r]
  cases r with
  | error e => exact herror _
  | ok g =>
      dsimp only
      split
      · exact hf
      · refine ⟨hcount.1, fun r => ?_⟩
        rw [hcount.2 r]
        refine ⟨(hemit ..).1, fun r => ?_⟩
        rw [(hemit ..).2 r]
        exact herror _

/-- The guard's reply to a token, in a given state. -/
def guardReply {σ : Type} (h : Handler Sig σ) (s : σ) (token : String) :
    Except GuardError GuardSession :=
  (h (.guard (.validateSession token)) s).1

/-- What `authorize` answers, in a given state. -/
def decision {σ : Type} (h : Handler Sig σ) (s : σ) (session : ClawDBSession)
    (accepted : List String) : Except ClawDBError Unit :=
  (Prog.run h (ClawDBEngine.authorize session accepted).run s).1

/-- The decision that a verdict on the token and a list of scopes lead to. -/
def verdict (reply : Except GuardError GuardSession) (scopes accepted : List String) :
    Except ClawDBError Unit :=
  match reply with
  | .error e => .error (mapGuardSessionError e)
  | .ok _ =>
      if ClawDBEngine.permits scopes accepted then .ok ()
      else .error (.permissionDenied "required scope missing")

theorem decision_of_verdict {σ : Type} (h : Handler Sig σ) (s : σ) (session : ClawDBSession)
    (accepted : List String) :
    decision h s session accepted =
      verdict (guardReply h s session.token) session.scopes accepted := by
  have hb := authorize_bind session accepted (fun _ => pure ())
  rw [bind_pure_unit] at hb
  simp only [decision, hb, Prog.run_op, guardReply, verdict]
  rcases (h (.guard (.validateSession session.token)) s).1 with e | g
  · rfl
  · by_cases hp : ClawDBEngine.permits session.scopes accepted = true
    · simp only [hp, if_true]; rfl
    · simp only [hp]; rfl

/-- The scopes of a session only matter through what they match: the order of scopes is
reflexive and transitive, and scopes that cover others pass every test that those pass. -/
theorem authorization_monotone :
    (∀ scope, scopeMatches scope scope = true) ∧
    (∀ a b c, scopeMatches a b = true → scopeMatches b c = true → scopeMatches a c = true) ∧
    ∀ scopes held, Covered held scopes → ∀ accepted,
      (ClawDBEngine.permits scopes accepted = true →
        ClawDBEngine.permits held accepted = true) ∧
      ∀ (σ : Type) (h : Handler Sig σ) (s : σ) (session : ClawDBSession),
        decision h s { session with scopes := scopes } accepted = .ok () →
          decision h s { session with scopes := held } accepted = .ok () := by
  refine ⟨scopeMatches_refl, fun a b c => scopeMatches_trans, fun scopes held hcovered accepted =>
    ⟨hcovered.permits, fun σ h s session hok => ?_⟩⟩
  rw [decision_of_verdict] at hok ⊢
  unfold verdict at hok ⊢
  cases hguard : guardReply h s session.token with
  | error e =>
      simp only [hguard] at hok
      cases hok
  | ok g =>
      simp only [hguard] at hok ⊢
      by_cases hp : ClawDBEngine.permits scopes accepted = true
      · rw [if_pos (hcovered.permits hp)]
      · rw [if_neg hp] at hok
        cases hok

/-- Where `memory:read` is enough, so is `memory:*`. -/
theorem authorization_monotone_reader :
    Covered ["memory:*"] ["memory:read"] ∧
    ClawDBEngine.permits ["memory:*"] ["memory:read", "memory:search", "memory:*", "*"] = true := by
  have hcovered : Covered ["memory:*"] ["memory:read"] := by unfold Covered; decide
  exact ⟨hcovered, (authorization_monotone.2.2 _ _ hcovered _).1 (by decide)⟩

/-! ## Issuing sessions -/

theorem sessionWithTtl_run (db : ClawDBEngine) (agentId : Uuid) (role : String)
    (scopes : List String) (ttlSecs : Int) :
    (db.sessionWithTtl agentId role scopes ttlSecs).run =
      Prog.op (F := Sig) (.guard (.createSession agentId db.workspaceId role scopes
        (max ttlSecs 1).toNat)) fun
        | .error e => .pure (.error (.guard e))
        | .ok g => .op (.host (.count .sessionCreated)) fun _ =>
            .op (.host (.emit (.sessionCreated g.id agentId))) fun _ =>
              .pure (.ok { g.toSession with scopes := scopes }) := by
  simp only [ClawDBEngine.sessionWithTtl, ClawDBEngine.count, ClawDBEngine.emit, Try.run_bind,
    Try.run_of, Eng.guard_bind, Prog.op_bind, Prog.pure_bind']
  refine congrArg _ (funext fun r => ?_)
  rcases r with e | g
  · rfl
  · simp only [Except.mapError, Try.run_lift, Try.run_pure', Eng.host_bind, Prog.op_bind,
      Prog.pure_bind']

/-- The scopes of a value `session_with_ttl` returns are the requested ones, and
the guard answers for its token with the same ones ever after. -/
theorem sessionWithTtl_scopes {db : ClawDBEngine} {agentId : Uuid} {role : String}
    {scopes : List String} {ttlSecs : Int} {w w₁ w₂ w₃ : World} {v : ClawDBSession}
    {g : GuardSession} (hw : w.TokensDistinct)
    (hv : Exec Op.sem (db.sessionWithTtl agentId role scopes ttlSecs).run w (.ok v) w₁)
    (hl : World.Later w₁ w₂)
    (hg : Op.sem (.guard (.validateSession v.token)) w₂ (.ok g) w₃) :
    v.scopes = scopes ∧ g.scopes = v.scopes := by
  rw [sessionWithTtl_run, exec_op] at hv
  obtain ⟨r, w', hr, hv⟩ := hv
  have hd := Op.sem_tokensDistinct hr hw
  rcases r with e | g₀
  · cases hv
  · obtain ⟨-, -, -, hs, -, -, rfl⟩ := hr
    obtain ⟨_, _, rfl, hv'⟩ := exec_op.mp hv
    obtain ⟨_, _, rfl, hv''⟩ := exec_op.mp hv'
    obtain ⟨hok, rfl⟩ := exec_pure.mp hv''
    cases hok
    obtain ⟨-, hmem, ht, -⟩ := hg
    have hmem₀ : g₀ ∈ w₂.sessions :=
      hl.session_mem (List.mem_append_right _ (List.mem_singleton_self g₀))
    obtain rfl := (hl.tokensDistinct hd).eq hmem hmem₀ ht
    exact ⟨rfl, hs⟩

/-! ## The session-taking methods -/

inductive SessionCall where
  | remember (content : String)
  | rememberTyped (content memoryType : String) (tags : List String) (metadata : Value)
  | search (query : String)
  | searchWithOptions (query : String) (topK : Nat) (semantic : Bool) (filter : Option Value)
  | «recall» (memoryIds : List Uuid)
  | recallOne (memoryId : Uuid)
  | listMemories (memoryType : Option String)
  | deleteMemory (memoryId : Uuid)
  | updateMemory (memoryId : Uuid) (content : String)
  | branch (name : String)
  | forkBranch (parent : Uuid) (name : String)
  | getBranch (branchId : Uuid)
  | listBranches
  | getBranchByName (name : String)
  | trunkBranch
  | merge (source target : Uuid)
  | mergeWithStrategy (source target : Uuid) (strategy : MergeStrategy)
  | diff (source target : Uuid)
  | discardBranch (branchId : Uuid)
  | archiveBranch (branchId : Uuid)
  | sync
  | pushSync
  | pullSync
  | reconcileSync
  | syncStatus
  | reflect
  | reflectGetFacts (agentId : String)
  | reflectListJobs (agentId status : Option String) (limit offset : Option Nat)
  | reflectGetJob (jobId : String)
  | reflectGetPreferences (agentId : String)
  | reflectGetContradictions (agentId : String)
  | reflectResolveContradiction (agentId contradictionId strategy : String)
      (mergedValue : Option Value)
  | transaction

namespace SessionCall

@[reducible] def Ret : SessionCall → Type
  | remember _ | rememberTyped .. => RememberResult
  | search _ | searchWithOptions .. => List SearchHit
  | «recall» _ | listMemories _ => List MemoryRecord
  | recallOne _ => MemoryRecord
  | deleteMemory _ | updateMemory .. | discardBranch _ | archiveBranch _ => Unit
  | branch _ | forkBranch .. => Uuid
  | getBranch _ | getBranchByName _ | trunkBranch => Branch
  | listBranches => List Branch
  | merge .. | mergeWithStrategy .. => MergeResult
  | diff .. => DiffResult
  | sync => SyncSummary
  | pushSync => PushStats
  | pullSync => PullStats
  | reconcileSync => Value
  | syncStatus => SyncStatus
  | reflect => ReflectSummary
  | reflectGetFacts _ | reflectListJobs .. | reflectGetPreferences _
  | reflectGetContradictions _ => List Value
  | reflectGetJob _ | reflectResolveContradiction .. => Value
  | transaction => ClawTransaction

variable [Crates] in
/-- The method a call names, on a wrapper and with a session. -/
def perform (db : ClawDBEngine) (session : ClawDBSession) : (c : SessionCall) → Eng c.Ret
  | remember content => db.remember session content
  | rememberTyped content memoryType tags metadata =>
      db.rememberTyped session content memoryType tags metadata
  | search query => db.search session query
  | searchWithOptions query topK semantic filter =>
      db.searchWithOptions session query topK semantic filter
  | «recall» memoryIds => ClawDBEngine.recall session memoryIds
  | recallOne memoryId => ClawDBEngine.recallOne session memoryId
  | listMemories memoryType => ClawDBEngine.listMemories session memoryType
  | deleteMemory memoryId => ClawDBEngine.deleteMemory session memoryId
  | updateMemory memoryId content => ClawDBEngine.updateMemory session memoryId content
  | branch name => ClawDBEngine.branch session name
  | forkBranch parent name => ClawDBEngine.forkBranch session parent name
  | getBranch branchId => ClawDBEngine.getBranch session branchId
  | listBranches => ClawDBEngine.listBranches session
  | getBranchByName name => ClawDBEngine.getBranchByName session name
  | trunkBranch => ClawDBEngine.trunkBranch session
  | merge source target => ClawDBEngine.merge session source target
  | mergeWithStrategy source target strategy =>
      ClawDBEngine.mergeWithStrategy session source target strategy
  | diff source target => ClawDBEngine.diff session source target
  | discardBranch branchId => ClawDBEngine.discardBranch session branchId
  | archiveBranch branchId => ClawDBEngine.archiveBranch session branchId
  | sync => db.sync session
  | pushSync => ClawDBEngine.pushSync session
  | pullSync => ClawDBEngine.pullSync session
  | reconcileSync => ClawDBEngine.reconcileSync session
  | syncStatus => ClawDBEngine.syncStatus session
  | reflect => db.reflect session
  | reflectGetFacts agentId => db.reflectGetFacts session agentId
  | reflectListJobs agentId status limit offset =>
      db.reflectListJobs session agentId status limit offset
  | reflectGetJob jobId => db.reflectGetJob session jobId
  | reflectGetPreferences agentId => db.reflectGetPreferences session agentId
  | reflectGetContradictions agentId => db.reflectGetContradictions session agentId
  | reflectResolveContradiction agentId contradictionId strategy mergedValue =>
      db.reflectResolveContradiction session agentId contradictionId strategy mergedValue
  | transaction => db.transaction session

/-- The scopes the method accepts. -/
def accepted : SessionCall → List String
  | remember _ | rememberTyped .. | deleteMemory _ | updateMemory .. | transaction =>
      ["memory:write", "memory:*", "*"]
  | search _ | searchWithOptions .. => ["memory:read", "memory:search", "memory:*", "*"]
  | «recall» _ | recallOne _ | listMemories _ => ["memory:read", "memory:*", "*"]
  | branch _ | forkBranch .. | merge .. | mergeWithStrategy .. | discardBranch _
  | archiveBranch _ => ["branch:write", "branch:*", "*"]
  | getBranch _ | listBranches | getBranchByName _ | trunkBranch | diff .. =>
      ["branch:read", "branch:*", "*"]
  | sync | pushSync | pullSync | reconcileSync => ["sync:write", "sync:*", "*"]
  | syncStatus => ["sync:read", "sync:*", "*"]
  | reflect => ["reflect:run", "reflect:write", "reflect:*", "*"]
  | reflectGetFacts _ | reflectListJobs .. | reflectGetJob _ | reflectGetPreferences _
  | reflectGetContradictions _ => ["reflect:read", "reflect:*", "*"]
  | reflectResolveContradiction .. => ["reflect:write", "reflect:*", "*"]

/-- The resource the method belongs to. -/
def resource : SessionCall → String
  | remember _ | rememberTyped .. | search _ | searchWithOptions .. | «recall» _ | recallOne _
  | listMemories _ | deleteMemory _ | updateMemory .. | transaction => "memory"
  | branch _ | forkBranch .. | getBranch _ | listBranches | getBranchByName _ | trunkBranch
  | merge .. | mergeWithStrategy .. | diff .. | discardBranch _ | archiveBranch _ => "branch"
  | sync | pushSync | pullSync | reconcileSync | syncStatus => "sync"
  | reflect | reflectGetFacts _ | reflectListJobs .. | reflectGetJob _ | reflectGetPreferences _
  | reflectGetContradictions _ | reflectResolveContradiction .. => "reflect"

/-- A scope accepted by a method is `*` or `resource:verb`, of its own resource. -/
theorem accepted_form (c : SessionCall) : ∀ required ∈ c.accepted, required = "*" ∨
    (Text.startsWith required (c.resource ++ ":") = true ∧ required.toList.count ':' = 1) := by
  cases c <;> simp only [accepted, resource] <;> decide

/-- The session has no authority for the call: the guard rejects its token, or
none of its scopes matches an accepted one. -/
def Rejected {σ : Type} (h : Handler Sig σ) (s : σ) (session : ClawDBSession)
    (c : SessionCall) : Prop :=
  (∃ e, guardReply h s session.token = .error e) ∨
    ∀ required ∈ c.accepted, ∀ granted ∈ session.scopes, scopeMatches granted required = false

theorem verdict_rejected {σ : Type} {h : Handler Sig σ} {s : σ} {session : ClawDBSession}
    {c : SessionCall} (hr : c.Rejected h s session) :
    ∃ e, verdict (guardReply h s session.token) session.scopes c.accepted = .error e := by
  unfold verdict
  rcases hg : guardReply h s session.token with e | g
  · exact ⟨_, rfl⟩
  · rcases hr with ⟨e, he⟩ | hno
    · rw [hg] at he; cases he
    · have hp : ClawDBEngine.permits session.scopes c.accepted = false := by
        rw [Bool.eq_false_iff, Ne, permits_iff]
        rintro ⟨required, hr, granted, hgr, hm⟩
        rw [hno required hr granted hgr] at hm
        cases hm
      simp only [hp]
      exact ⟨_, rfl⟩

end SessionCall

/-- The resource whose scopes guard a component. -/
def Op.resource : Op → Option String
  | .core _ | .vector _ => some "memory"
  | .branch _ => some "branch"
  | .sync _ => some "sync"
  | .reflect _ => some "reflect"
  | .guard _ | .host _ | .txs _ => none

/-- A routine operation, on no component but those of the resource `R`. -/
def Op.Of (R : String) (o : Op) : Prop :=
  o.routine = true ∧ ∀ r, o.resource = some r → r = R

theorem Op.resource_eq_none {o : Op} (h : o.isComponent = false) : o.resource = none := by
  cases o <;> first | rfl | cases h

/-! ### What a method calls -/

theorem within_core (o : CoreOp) (ho : (Op.core o).routine = true) :
    (Eng.core o).Within (Op.Of "memory") :=
  ⟨⟨ho, fun _ h => (Option.some.inj h).symm⟩, fun _ => trivial⟩

theorem within_vector (o : VectorOp) : (Eng.vector o).Within (Op.Of "memory") :=
  ⟨⟨rfl, fun _ h => (Option.some.inj h).symm⟩, fun _ => trivial⟩

theorem within_branch (o : BranchOp) : (Eng.branch o).Within (Op.Of "branch") :=
  ⟨⟨rfl, fun _ h => (Option.some.inj h).symm⟩, fun _ => trivial⟩

theorem within_sync (o : SyncOp) : (Eng.sync o).Within (Op.Of "sync") :=
  ⟨⟨rfl, fun _ h => (Option.some.inj h).symm⟩, fun _ => trivial⟩

theorem within_reflect (o : ReflectOp) : (Eng.reflect o).Within (Op.Of "reflect") :=
  ⟨⟨rfl, fun _ h => (Option.some.inj h).symm⟩, fun _ => trivial⟩

theorem within_host {R : String} (o : HostOp) : (Eng.host o).Within (Op.Of R) :=
  ⟨⟨rfl, fun _ h => (nomatch h)⟩, fun _ => trivial⟩

theorem within_count {R : String} (m : Metric) :
    (ClawDBEngine.count m).run.Within (Op.Of R) :=
  Try.within_lift (within_host _)

theorem within_emit {R : String} (event : ClawEvent) :
    (ClawDBEngine.emit event).run.Within (Op.Of R) :=
  Try.within_lift (within_host _)

theorem within_getMemories (ids : List Uuid) :
    (ClawDBEngine.getMemories ids).run.Within (Op.Of "memory") := by
  induction ids with
  | nil => trivial
  | cons id ids ih =>
      exact Try.within_bind (Try.within_of (within_core _ rfl)) fun r =>
        Try.within_bind ih fun rs => trivial

section Methods

variable [Crates]

theorem within_indexed (db : ClawDBEngine) (session : ClawDBSession) (content : String)
    (memoryId : Uuid) (record : MemoryRecord) (metadata : Value) :
    (db.indexed session content memoryId record metadata).run.Within (Op.Of "memory") := by
  unfold ClawDBEngine.indexed
  split
  · exact Try.within_bind (Try.within_lift (within_vector _)) fun _ => trivial
  · trivial

theorem within_hits (db : ClawDBEngine) (session : ClawDBSession) (query : String) (topK : Nat)
    (semantic : Bool) (filter : Option Value) :
    (db.hits session query topK semantic filter).run.Within (Op.Of "memory") := by
  unfold ClawDBEngine.hits
  split
  · exact Try.within_bind (Try.within_of (within_vector _)) fun _ => trivial
  · exact Try.within_bind (Try.within_of (within_core _ rfl)) fun _ => trivial

namespace SessionCall

/-- Every method is an authorization for its accepted scopes, followed by calls
on its own resource. -/
theorem perform_spec (db : ClawDBEngine) (session : ClawDBSession) (c : SessionCall) :
    ∃ body : Unit → Eng c.Ret,
      c.perform db session = (ClawDBEngine.authorize session c.accepted >>= body) ∧
      (body ()).run.Within (Op.Of c.resource) := by
  cases c
  all_goals refine ⟨_, rfl, ?_⟩
  case recallOne | listMemories | deleteMemory | updateMemory =>
    exact Try.within_of (within_core _ rfl)
  case getBranch | listBranches | getBranchByName | trunkBranch | diff | discardBranch
      | archiveBranch =>
    exact Try.within_of (within_branch _)
  case pushSync | pullSync | reconcileSync => exact Try.within_of (within_sync _)
  case syncStatus => exact Try.within_lift (within_sync _)
  case «recall» ids => exact within_getMemories ids
  case branch | forkBranch =>
    exact Try.within_bind (Try.within_of (within_branch _)) fun b =>
      Try.within_bind (within_count _) fun _ => Try.within_bind (within_emit _) fun _ => trivial
  case merge | mergeWithStrategy =>
    exact Try.within_bind (Try.within_of (within_branch _)) fun b =>
      Try.within_bind (within_count _) fun _ => Try.within_bind (within_emit _) fun _ => trivial
  case transaction =>
    exact Try.within_bind (Try.within_of (within_core _ rfl)) fun tx => trivial
  case sync =>
    split
    · trivial
    · exact Try.within_bind (Try.within_of (within_sync _)) fun round =>
        Try.within_bind (within_count _) fun _ => Try.within_bind (within_count _) fun _ =>
        Try.within_bind (within_emit _) fun _ => trivial
  case reflect =>
    split
    · exact Try.within_bind (Try.within_of (within_reflect _)) fun job =>
        Try.within_bind (within_emit _) fun _ => trivial
    · trivial
  case reflectGetFacts | reflectListJobs | reflectGetJob | reflectGetPreferences
      | reflectGetContradictions | reflectResolveContradiction =>
    split
    · exact Try.within_of (within_reflect _)
    · trivial
  case remember | rememberTyped =>
    exact Try.within_bind (Try.within_bind (Try.within_lift (within_host _)) fun _ => trivial)
      fun record => Try.within_bind (Try.within_of (within_core _ rfl)) fun memoryId =>
        Try.within_bind (within_indexed db session _ memoryId record _) fun indexed =>
        Try.within_bind (within_count _) fun _ => Try.within_bind (within_emit _) fun _ => trivial
  case search | searchWithOptions =>
    exact Try.within_bind (within_hits db session _ _ _ _) fun hits =>
      Try.within_bind (within_count _) fun _ => Try.within_bind (within_count _) fun _ =>
      Try.within_bind (within_emit _) fun _ => trivial

/-- A call does routine work, on components of its own resource only. -/
theorem perform_within (db : ClawDBEngine) (session : ClawDBSession) (c : SessionCall) :
    (c.perform db session).run.Within (Op.Of c.resource) := by
  obtain ⟨body, hb, hw⟩ := c.perform_spec db session
  rw [hb, authorize_bind]
  refine ⟨⟨rfl, fun _ h => (nomatch h)⟩, fun r => ?_⟩
  rcases r with e | g
  · trivial
  · dsimp only
    split
    · exact hw
    · exact ⟨⟨rfl, fun _ h => (nomatch h)⟩,
        fun _ => ⟨⟨rfl, fun _ h => (nomatch h)⟩, fun _ => trivial⟩⟩

section Running

variable {σ : Type} (db : ClawDBEngine) (h : Handler Sig σ) (s : σ) (session : ClawDBSession)
  (c : SessionCall)

/-- A call that is denied ends with the error of the decision, and has reached no
component. -/
theorem run_denied {e : ClawDBError} (hd : decision h s session c.accepted = .error e) :
    (Prog.run h (c.perform db session).run s).1 = .error e ∧
      ∀ o ∈ Prog.calls h (c.perform db session).run s, o.isComponent = false := by
  obtain ⟨body, hb, -⟩ := c.perform_spec db session
  rw [decision_of_verdict] at hd
  rw [hb, authorize_bind]
  simp only [Prog.run_op, Prog.calls_op]
  unfold verdict guardReply at hd
  rcases hg : (h (.guard (.validateSession session.token)) s).1 with e' | g
  · rw [hg] at hd
    cases hd
    exact ⟨rfl, by simp [Op.isComponent]⟩
  · simp only [hg] at hd ⊢
    by_cases hp : ClawDBEngine.permits session.scopes c.accepted = true
    · simp only [hp, if_true] at hd; cases hd
    · simp only [hp] at hd ⊢
      cases hd
      exact ⟨rfl, by simp [Op.isComponent]⟩

end Running

end SessionCall

/-- Rejected sessions reach nothing, and scopes under one prefix reach one resource. -/
theorem sessionCall_confined {σ : Type} (db : ClawDBEngine) (h : Handler Sig σ) (s : σ)
    (session : ClawDBSession) (c : SessionCall) :
    (c.Rejected h s session →
      (∃ e, (Prog.run h (c.perform db session).run s).1 = .error e) ∧
      ∀ o ∈ Prog.calls h (c.perform db session).run s, o.isComponent = false) ∧
    ∀ R : String, (∀ granted ∈ session.scopes, Text.startsWith granted (R ++ ":") = true) →
      ∀ o ∈ Prog.calls h (c.perform db session).run s, ∀ r, o.resource = some r → r = R := by
  have hrejected : c.Rejected h s session →
      (∃ e, (Prog.run h (c.perform db session).run s).1 = .error e) ∧
      ∀ o ∈ Prog.calls h (c.perform db session).run s, o.isComponent = false := by
    intro hr
    obtain ⟨e, he⟩ := SessionCall.verdict_rejected hr
    rw [← decision_of_verdict] at he
    obtain ⟨hrun, hcalls⟩ := SessionCall.run_denied db h s session c he
    exact ⟨⟨e, hrun⟩, hcalls⟩
  refine ⟨hrejected, fun R hR o ho r hor => ?_⟩
  by_cases hc : c.resource = R
  · exact (((c.perform_within db session).calls h s o ho).2 r hor).trans hc
  · -- no scope under `R` matches a scope of another resource
    have hr : c.Rejected h s session := by
      refine .inr fun required hreq granted hgr => Bool.eq_false_iff.mpr fun hm => hc ?_
      have hp := scopeMatches_under (hR granted hgr) hm
      obtain rfl | ⟨hp', hone⟩ := c.accepted_form required hreq
      · obtain ⟨t, ht⟩ := Text.startsWith_iff.mp hp
        have := congrArg (fun s : String => s.toList.count ':') ht
        simp [String.toList_append, List.count_append] at this
      · exact prefix_unique hone hp' hp
    rw [Op.resource_eq_none ((hrejected hr).2 o ho)] at hor
    cases hor

end Methods

/-- A guard that knows one session, which may read memories, and accepts its token. -/
def readerWorld : World :=
  { World.empty with sessions := [⟨1, 2, 3, "agent", ["memory:read"], "t", 0⟩] }

/-- The session value that goes with it. -/
def readerSession : ClawDBSession := ⟨1, 2, 3, "agent", ["memory:read"], "t", 0⟩

/-- The reader writes no memory and reaches no branch. -/
theorem sessionCall_confined_reader :
    letI := Crates.sample
    (∀ o ∈ Prog.calls Op.reference ((SessionCall.remember "x").perform
      ⟨3, true, true, false⟩ readerSession).run readerWorld, o.isComponent = false) ∧
    ∀ o ∈ Prog.calls Op.reference ((SessionCall.branch "x").perform
      ⟨3, true, true, false⟩ readerSession).run readerWorld, ∀ r, o.resource = some r →
        r = "memory" :=
  letI := Crates.sample
  ⟨((sessionCall_confined ⟨3, true, true, false⟩ Op.reference readerWorld readerSession
      (.remember "x")).1 (.inr (by decide))).2,
    (sessionCall_confined ⟨3, true, true, false⟩ Op.reference readerWorld readerSession
      (.branch "x")).2 "memory" (by decide)⟩

/-! ## Two values with one token -/

/-- The decision on a call is the guard's verdict on the token, and then the scopes
of the value: values that agree on both get one decision, and a value that carries
the guard's own scopes gets the guard's decision.  A denied call ends there. -/
theorem decision_determined [Crates] {σ : Type} (db : ClawDBEngine) (h : Handler Sig σ) (s : σ)
    (c : SessionCall) (a b : ClawDBSession) (htoken : a.token = b.token)
    (hscopes : a.scopes = b.scopes) :
    decision h s a c.accepted = decision h s b c.accepted ∧
    decision h s a c.accepted = verdict (guardReply h s a.token) a.scopes c.accepted ∧
    (∀ g, guardReply h s a.token = .ok g → a.scopes = g.scopes →
      decision h s a c.accepted = verdict (.ok g) g.scopes c.accepted) ∧
    (∀ e, decision h s a c.accepted = .error e →
      (Prog.run h (c.perform db a).run s).1 = .error e ∧
      (Prog.run h (c.perform db b).run s).1 = .error e) ∧
    ∀ (agentId : Uuid) (role : String) (scopes : List String) (ttlSecs : Int)
      (v : ClawDBSession) (g : GuardSession) (w w₁ w₂ w₃ : World), w.TokensDistinct →
      Exec Op.sem (db.sessionWithTtl agentId role scopes ttlSecs).run w (.ok v) w₁ →
      World.Later w₁ w₂ → Op.sem (.guard (.validateSession v.token)) w₂ (.ok g) w₃ →
      v.scopes = scopes ∧ g.scopes = v.scopes := by
  have hab : decision h s a c.accepted = decision h s b c.accepted := by
    rw [decision_of_verdict, decision_of_verdict, htoken, hscopes]
  refine ⟨hab, decision_of_verdict h s a c.accepted, ?_, ?_, ?_⟩
  · intro g hg hs
    rw [decision_of_verdict, hg, hs]
  · intro e he
    exact ⟨(SessionCall.run_denied db h s a c he).1,
      (SessionCall.run_denied db h s b c (hab ▸ he)).1⟩
  · intro agentId role scopes ttlSecs v g w w₁ w₂ w₃ hw hv hl hg
    exact sessionWithTtl_scopes hw hv hl hg

/-- The reader and a copy of it under another role. -/
theorem decision_determined_reader :
    letI := Crates.sample
    readerSession.token = { readerSession with role := "admin" }.token ∧
    decision Op.reference readerWorld readerSession (SessionCall.recall [4]).accepted =
      decision Op.reference readerWorld { readerSession with role := "admin" }
        (SessionCall.recall [4]).accepted :=
  letI := Crates.sample
  ⟨rfl, (decision_determined ⟨3, true, true, false⟩ Op.reference readerWorld (.«recall» [4])
    readerSession { readerSession with role := "admin" } rfl rfl).1⟩

/-- Scopes written into the value by its holder decide the call: the reader, with
its own token, is refused a write and then, with `*` written in, is not. -/
theorem decision_follows_the_value :
    letI := Crates.sample
    (¬ ∀ (σ : Type) (h : Handler Sig σ) (s : σ) (c : SessionCall) (a b : ClawDBSession),
      a.token = b.token → decision h s a c.accepted = decision h s b c.accepted) ∧
    (Prog.run Op.reference ((SessionCall.remember "x").perform ⟨3, true, true, false⟩
      readerSession).run readerWorld).1.isOk = false ∧
    (Prog.run Op.reference ((SessionCall.remember "x").perform ⟨3, true, true, false⟩
      { readerSession with scopes := ["*"] }).run readerWorld).1.isOk = true := by
  refine ⟨fun hclaim => ?_, by decide, by decide⟩
  have := hclaim World Op.reference readerWorld (.remember "x") readerSession
    { readerSession with scopes := ["*"] } rfl
  rw [decision_of_verdict, decision_of_verdict] at this
  revert this
  decide

end ClawDB
