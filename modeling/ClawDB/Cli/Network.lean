/-
# `ClawDB.Cli.Network` — how often a request takes effect

Between the CLI and the server a request can be lost, and so can the reply to it.  A command
that is told of a failure cannot tell the two apart, and sends its request again, whatever the
method is.

`Site` is the server as the command leaves it behind: the components, how many of its requests
took effect, and how many of those it was not told of.  A request takes effect at most once,
and no more requests are sent than there are attempts; the last attempt is the only one that
can take effect and be told of.
-/
import ClawDB.Cli.Commands
import ClawDB.Memories
import ClawDB.Server.Router

namespace ClawDB

open Effect Prog
open Json (Value)

/-! ## Taking effect -/

/-- The operation stored, staged, begun, created or started something. -/
def Op.creates : (o : Op) → o.Ret → Bool
  | .core (.insertMemory _), r => r.isOk
  | .txs (.push ..), found => found
  | .txs (.insert ..), _ => true
  | .branch (.forkTrunk _), r => r.isOk
  | .branch (.fork ..), r => r.isOk
  | .guard (.createSession ..), r => r.isOk
  | .reflect (.triggerJob ..), r => r.isOk
  | _, _ => false

/-- How often that happened. -/
def creations : Protocol Sig Nat where
  allowed _ _ := True
  next n o r := if o.creates r then n + 1 else n

theorem creations_skips {o : Op} (h : ∀ r, o.creates r = false) (n : Nat) : creations.Skips n o :=
  ⟨trivial, fun r => if_neg (by simp [h r])⟩

/-- It happens at most once, and if it does the result is good. -/
def CreatesOnce {α : Type} (good : α → Prop) (p : Act α) : Prop :=
  ∀ n, p.wp creations (fun n' a => n' = n ∨ n' = n + 1 ∧ good a) n

section

variable {α β : Type} {good : α → Prop}

theorem createsOnce_pure (a : α) : CreatesOnce good (Prog.pure a : Act α) := fun _ => .inl rfl

/-- An operation of no effect may come first. -/
theorem createsOnce_op {o : Op} {k : o.Ret → Act α} (ho : ∀ r, o.creates r = false)
    (hk : ∀ r, CreatesOnce good (k r)) : CreatesOnce good (Prog.op (F := Sig) o k) := by
  intro n
  refine ⟨trivial, fun r => ?_⟩
  rw [(creations_skips ho n).2 r]
  exact hk r n

theorem createsOnce_authorize {session : ClawDBSession} {accepted : List String}
    {f : Unit → Eng α} (hf : CreatesOnce (fun r => r.isOk = true) (f ()).run) :
    CreatesOnce (fun r => r.isOk = true) (ClawDBEngine.authorize session accepted >>= f).run :=
  fun n => wp_authorize (creations_skips (fun _ => rfl) n) (creations_skips (fun _ => rfl) n)
    (fun _ _ _ => creations_skips (fun _ => rfl) n) (hf n) fun _ => .inl rfl

/-- The operation is none of these. -/
def Op.Barren (o : Op) : Prop := ∀ r, o.creates r = false

theorem createsOnce_of_barren {p : Act α} (h : p.Within Op.Barren) : CreatesOnce good p :=
  fun n => wp_mono (fun _ _ hn => .inl hn) (wp_of_within (h.mono fun _ ho => creations_skips ho n))

/-- Nothing more happens, and it cannot fail. -/
def Settles (c : Eng α) : Prop := ∀ n, c.run.wp creations (fun n' r => n' = n ∧ r.isOk = true) n

theorem createsOnce_then {c : Eng α} {f : α → Eng β}
    (hc : CreatesOnce (fun r => r.isOk = true) c.run) (hf : ∀ a, Settles (f a)) :
    CreatesOnce (fun r => r.isOk = true) (c >>= f).run := by
  intro n
  refine Try.wp_bind.mpr (wp_mono ?_ (hc n))
  rintro n' (e | a) hn
  · obtain rfl | ⟨-, he⟩ := hn
    · exact .inl rfl
    · cases he
  · refine wp_mono ?_ (hf a n')
    rintro n'' r ⟨rfl, hr⟩
    exact hn.imp_right fun h => ⟨h.1, hr⟩

/-- An awaited call that counts exactly if it returns. -/
theorem createsOnce_call {ε : Type} {o : Op} {reply : o.Ret → Except ε α} {conv : ε → ClawDBError}
    (ho : ∀ r, o.creates r = true → (reply r).isOk = true) :
    CreatesOnce (fun r => r.isOk = true)
      (Try.of (Prog.op (F := Sig) o fun r => .pure (reply r)) conv).run := by
  intro n
  refine ⟨trivial, fun r => ?_⟩
  have hnext : creations.next n o r = if o.creates r then n + 1 else n := rfl
  rw [hnext]
  split
  next hr =>
    refine .inr ⟨rfl, ?_⟩
    have hok := ho r hr
    cases hreply : reply r with
    | ok a => rfl
    | error e => rw [hreply] at hok; cases hok
  next => exact .inl rfl

/-- The reply to a call that returned is a success. -/
theorem createsOnce_answer {requestId : Option String} {call : Eng α} {ok : α → Response}
    (hcall : CreatesOnce (fun r => r.isOk = true) call.run) (hok : ∀ a, (ok a).status = 200) :
    CreatesOnce (fun resp => resp.status = 200) (Http.answer requestId call ok) := by
  intro n
  refine wp_bind.mpr (wp_mono ?_ (hcall n))
  rintro n' (e | a) hn
  · obtain rfl | ⟨-, he⟩ := hn
    · exact .inl rfl
    · cases he
  · exact hn.imp_right fun h => ⟨h.1, hok a⟩

theorem createsOnce_extract {good : Response → Prop} {x : Http.Extracted α}
    {handler : α → Act Response} (h : ∀ a, CreatesOnce good (handler a)) :
    CreatesOnce good (Http.extract x handler) := by
  cases x with
  | ok a => exact h a
  | error rejection => exact createsOnce_pure _

end

/-! ## The handlers -/

section Handlers

variable (db : ClawDBEngine) (requestId : String) (session : ClawDBSession)

theorem createsOnce_stage (id : Uuid) (staged : StagedMemory) :
    CreatesOnce (fun resp => resp.status = 200) (Http.stage requestId id staged) := by
  refine fun n => ⟨trivial, fun found => ?_⟩
  cases found with
  | true => exact .inr ⟨rfl, rfl⟩
  | false => exact .inl rfl

theorem createsOnce_sessionWithTtl (agentId : Uuid) (role : String) (scopes : List String)
    (ttlSecs : Int) :
    CreatesOnce (fun r => r.isOk = true)
      (db.sessionWithTtl agentId role scopes ttlSecs).run :=
  createsOnce_then (createsOnce_call fun _ h => h) fun _ _ =>
    ⟨trivial, fun _ => ⟨trivial, fun _ => ⟨rfl, rfl⟩⟩⟩

variable [Crates]

theorem createsOnce_rememberTyped (content memoryType : String) (tags : List String)
    (metadata : Value) :
    CreatesOnce (fun r => r.isOk = true)
      (db.rememberTyped session content memoryType tags metadata).run := by
  refine createsOnce_authorize (createsOnce_op (fun _ => rfl) fun id => ?_)
  refine createsOnce_then (createsOnce_call fun _ h => h) fun memoryId n => ?_
  refine Try.wp_bind.mpr (wp_mono ?_ (wp_indexed fun _ => creations_skips (fun _ => rfl) n))
  rintro n' r ⟨rfl, indexed, rfl⟩
  exact ⟨trivial, fun _ => ⟨trivial, fun _ => ⟨rfl, rfl⟩⟩⟩

theorem createsOnce_forked {fork : Eng Branch}
    (hfork : CreatesOnce (fun r => r.isOk = true) fork.run) :
    CreatesOnce (fun r => r.isOk = true) (ClawDBEngine.forked session fork).run :=
  createsOnce_authorize (createsOnce_then hfork fun _ _ =>
    ⟨trivial, fun _ => ⟨trivial, fun _ => ⟨rfl, rfl⟩⟩⟩)

theorem createsOnce_reflect : CreatesOnce (fun r => r.isOk = true) (db.reflect session).run := by
  refine createsOnce_authorize ?_
  split
  · exact createsOnce_then (createsOnce_call fun _ h => h) fun _ _ => ⟨trivial, fun _ => ⟨rfl, rfl⟩⟩
  · exact createsOnce_pure _

end Handlers

/-! ### Handlers that create nothing -/

section Barren

variable {α : Type}

theorem barren_host (o : HostOp) : (Try.lift (Eng.host o) : Eng o.Ret).run.Within Op.Barren :=
  Try.within_lift ⟨fun _ => rfl, fun _ => trivial⟩

theorem barren_authorize {session : ClawDBSession} {accepted : List String} {f : Unit → Eng α}
    (hf : (f ()).run.Within Op.Barren) :
    (ClawDBEngine.authorize session accepted >>= f).run.Within Op.Barren :=
  within_authorize (fun _ => rfl) (fun _ => rfl) (fun _ _ _ _ => rfl) hf

theorem barren_answer {requestId : Option String} {call : Eng α} {ok : α → Response}
    (h : call.run.Within Op.Barren) : (Http.answer requestId call ok).Within Op.Barren :=
  h.bind fun r => by cases r <;> trivial

theorem barren_terminate {requestId : String} {id : Uuid} {finish : PendingTransaction → Eng Unit}
    {ok : Value} (h : ∀ pending, (finish pending).run.Within Op.Barren) :
    (Http.terminate requestId id finish ok).Within Op.Barren := by
  refine ⟨fun _ => rfl, fun pending => ?_⟩
  cases pending with
  | none => trivial
  | some pending => exact barren_answer (h pending)

theorem barren_flush (workspaceId : String) (pending : List (String × Value)) :
    (ClawTransaction.flush workspaceId pending).run.Within Op.Barren := by
  induction pending with
  | nil => trivial
  | cons p rest ih =>
      exact Try.within_bind (Try.within_lift ⟨fun _ => rfl, fun _ => trivial⟩) fun _ => ih

variable (db : ClawDBEngine) (session : ClawDBSession)

theorem barren_viaReflect {accepted : List String} {call : Eng α}
    (h : call.run.Within Op.Barren) :
    (db.viaReflect session accepted call).run.Within Op.Barren := by
  refine barren_authorize ?_
  split
  · exact h
  · trivial

variable [Crates]

theorem barren_merge (source target : Uuid) (strategy : MergeStrategy) :
    (ClawDBEngine.mergeWithStrategy session source target strategy).run.Within Op.Barren :=
  barren_authorize <| Try.within_bind (Try.within_of ⟨fun _ => rfl, fun _ => trivial⟩) fun _ =>
    Try.within_bind (barren_host _) fun _ => Try.within_bind (barren_host _) fun _ => trivial

theorem barren_sync : (db.sync session).run.Within Op.Barren := by
  refine barren_authorize ?_
  split
  · trivial
  · exact Try.within_bind (Try.within_of ⟨fun _ => rfl, fun _ => trivial⟩) fun _ =>
      Try.within_bind (barren_host _) fun _ => Try.within_bind (barren_host _) fun _ =>
      Try.within_bind (barren_host _) fun _ => trivial

theorem barren_replay (tx : ClawTransaction) (staged : List StagedMemory) :
    (PendingTransaction.replay tx staged).run.Within Op.Barren := by
  induction staged generalizing tx with
  | nil => trivial
  | cons item rest ih =>
      refine Try.within_bind ?_ fun x => ih x.2
      refine Try.within_bind (Try.within_bind (barren_host _) fun _ => trivial) fun record => ?_
      exact Try.within_bind (Try.within_of ⟨fun _ => rfl, fun _ => trivial⟩) fun _ => trivial

theorem barren_transaction : (db.transaction session).run.Within Op.Barren :=
  barren_authorize <|
    Try.within_bind (Try.within_of ⟨fun _ => rfl, fun _ => trivial⟩) fun _ => trivial

theorem barren_commit (pending : PendingTransaction) :
    (pending.commit db).run.Within Op.Barren := by
  refine Try.within_bind (barren_transaction db _) fun tx => ?_
  refine Try.within_bind (barren_replay tx _) fun tx => ?_
  refine Try.within_bind (Try.within_of ⟨fun _ => rfl, fun _ => trivial⟩) fun _ => ?_
  split
  · exact barren_flush _ _
  · trivial

theorem barren_rollback (pending : PendingTransaction) :
    (pending.rollback db).run.Within Op.Barren :=
  Try.within_bind (barren_transaction db _) fun _ => Try.within_of ⟨fun _ => rfl, fun _ => trivial⟩

end Barren

/-! ## The requests -/

theorem createsOnce_protected {authorization : Option String} {requestId : String} {isGet : Bool}
    {next : Http.AuthContext → Act Response}
    (h : ∀ auth, CreatesOnce (fun resp => resp.status = 200) (next auth)) :
    CreatesOnce (fun resp => resp.status = 200) (Http.authMiddleware authorization fun auth =>
      Http.rateLimitMiddleware requestId isGet auth (next auth)) := by
  unfold Http.authMiddleware
  split
  · exact createsOnce_pure _
  · refine createsOnce_op (fun _ => rfl) fun r => ?_
    cases r with
    | error e => exact createsOnce_pure _
    | ok session =>
        refine createsOnce_op (fun _ => rfl) fun within => ?_
        cases within with
        | true => exact h _
        | false => exact createsOnce_pure _

namespace Cli

section

variable [Crates] [Http.Frameworks] (db : ClawDBEngine)

/-- A request that takes effect at most once, and if it does is told so. -/
def HttpRequest.Single (request : HttpRequest) : Prop :=
  ∀ requestId, CreatesOnce (fun resp => resp.status = 200) (Http.respond db requestId request)

/-- Whatever is posted, wherever its path leads. -/
theorem single_posted {pattern : Http.Pattern} {params : List String}
    (h : Http.PostTo pattern params) (body : Option Value) : ∃ route,
      Http.postHandler pattern params body = some route ∧ ∀ requestId authorization,
        CreatesOnce (fun resp => resp.status = 200)
          (Http.serve db ⟨requestId, authorization, route⟩) := by
  have hprotected : ∀ {route : Http.Protected},
      (∀ requestId session,
        CreatesOnce (fun resp => resp.status = 200) (route.handle db requestId session)) →
      ∀ requestId authorization, CreatesOnce (fun resp => resp.status = 200)
        (Http.serve db ⟨requestId, authorization, .«protected» route⟩) :=
    fun h requestId _ => createsOnce_protected fun auth => h requestId auth.session
  cases h with
  | createSession =>
      refine ⟨_, rfl, fun _ _ => createsOnce_extract fun _ => ?_⟩
      exact createsOnce_answer (createsOnce_sessionWithTtl db _ _ _ _) fun _ => rfl
  | remember =>
      refine ⟨_, rfl, hprotected fun requestId session => createsOnce_extract fun body => ?_⟩
      refine createsOnce_answer ?_ fun _ => rfl
      split
      · exact createsOnce_rememberTyped db session _ _ _ _
      · exact createsOnce_rememberTyped db session _ _ _ _
  | createBranch =>
      refine ⟨_, rfl, hprotected fun requestId session => createsOnce_extract fun body => ?_⟩
      refine createsOnce_answer ?_ fun _ => rfl
      split
      · exact createsOnce_forked session (createsOnce_call fun _ h => h)
      · exact createsOnce_forked session (createsOnce_call fun _ h => h)
  | reflect =>
      refine ⟨_, rfl, hprotected fun _ session => ?_⟩
      exact createsOnce_answer (createsOnce_reflect db session) fun _ => rfl
  | begin =>
      refine ⟨_, rfl, hprotected fun _ _ => createsOnce_op (fun _ => rfl) fun _ _ => ?_⟩
      exact ⟨trivial, fun _ => .inr ⟨rfl, rfl⟩⟩
  | txRemember id | txRememberTyped id =>
      refine ⟨_, rfl, hprotected fun requestId _ => createsOnce_extract fun id => ?_⟩
      exact createsOnce_extract fun _ => createsOnce_stage requestId id _
  | mergeBranch id =>
      refine ⟨_, rfl, hprotected fun _ session => createsOnce_extract fun id => ?_⟩
      exact createsOnce_extract fun body => createsOnce_of_barren (barren_answer
        (barren_merge session id body.target _))
  | archiveBranch id =>
      refine ⟨_, rfl, hprotected fun _ session => createsOnce_extract fun id => ?_⟩
      exact createsOnce_of_barren (barren_answer (barren_authorize
        (Try.within_of ⟨fun _ => rfl, fun _ => trivial⟩)))
  | sync =>
      refine ⟨_, rfl, hprotected fun _ session => ?_⟩
      exact createsOnce_of_barren (barren_answer (barren_sync db session))
  | pushSync | pullSync | reconcileSync =>
      refine ⟨_, rfl, hprotected fun _ session => ?_⟩
      exact createsOnce_of_barren (barren_answer (barren_authorize
        (Try.within_of ⟨fun _ => rfl, fun _ => trivial⟩)))
  | resolve agentId contradictionId =>
      refine ⟨_, rfl, hprotected fun _ session => createsOnce_extract fun body => ?_⟩
      exact createsOnce_of_barren (barren_answer (barren_viaReflect db session
        (Try.within_of ⟨fun _ => rfl, fun _ => trivial⟩)))
  | commit id =>
      refine ⟨_, rfl, hprotected fun _ _ => createsOnce_extract fun id => ?_⟩
      exact createsOnce_of_barren (barren_terminate (barren_commit db))
  | rollback id =>
      refine ⟨_, rfl, hprotected fun _ _ => createsOnce_extract fun id => ?_⟩
      exact createsOnce_of_barren (barren_terminate (barren_rollback db))

variable {db} {request : HttpRequest}

theorem single_post (hmethod : request.method = .post) : request.Single db := by
  intro requestId
  unfold Http.respond
  split
  next => exact createsOnce_pure _
  next =>
    split
    next route hroute =>
        obtain ⟨pattern, params, harrives, hpost⟩ := Http.posted_of_route hmethod hroute
        obtain ⟨route', hroute', hserve⟩ :=
          single_posted db (Http.postTo_of_arrives harrives) request.body
        obtain rfl := Option.some.inj (hpost.symm.trans hroute')
        exact hserve requestId _
    next =>
        split
        · exact createsOnce_protected fun _ => createsOnce_pure _
        · exact createsOnce_pure _

/-! ## The network -/

/-- The server, as a command leaves it behind. -/
structure Site where
  world : World
  /-- how often a request of the command took effect -/
  effects : Nat
  /-- how often one did whose reply did not arrive as it was sent -/
  unheard : Nat

variable (db)

/-- What can become of a request. -/
inductive Attempt (request : HttpRequest) (s : Site) : Outcome → Site → Prop where
  /-- it does not reach the server -/
  | lost (outcome : Outcome) {w : World} : World.Later s.world w →
      Attempt request s outcome { s with world := w }
  /-- its reply does not arrive: the client is told something else, or nothing -/
  | unheard (outcome : Outcome) {requestId : String} {response : Response} {w : World}
      {n : Nat} :
      Exec (Rel.watched Op.shared creations) (Http.respond db requestId request)
        (s.world, s.effects) response (w, n) →
      Attempt request s outcome ⟨w, n, s.unheard + (n - s.effects)⟩
  /-- its reply arrives -/
  | heard {requestId : String} {response : Response} {retryAfter : Option String} {w : World}
      {n : Nat} :
      Exec (Rel.watched Op.shared creations) (Http.respond db requestId request)
        (s.world, s.effects) response (w, n) →
      Attempt request s (.replied (Http.reply retryAfter response)) ⟨w, n, s.unheard⟩

/-- The others go on while a command sleeps. -/
def network : Prog.Rel Net Site
  | .send request, s, o, s' => Attempt db request s o s'
  | .sleep _, s, _, s' => ∃ w, World.Later s.world w ∧ s' = { s with world := w }

variable {db}

/-- The commands whose request is not idempotent. -/
def Command.creates : Command → Bool
  | .remember _ | .memory (.remember _) | .tx (.remember ..) | .tx (.rememberTyped ..)
  | .tx .begin | .branch (.create ..) | .session (.create ..) | .reflect (.run ..) => true
  | _ => false

/-! ## Attempts -/

variable {s s' : Site} {outcome : Outcome}

theorem single_effects {requestId : String} {response : Response} {w : World} {n : Nat}
    (hr : request.Single db)
    (h : Exec (Rel.watched Op.shared creations) (Http.respond db requestId request)
      (s.world, s.effects) response (w, n)) :
    n = s.effects ∨ n = s.effects + 1 ∧ response.status = 200 :=
  wp_watched (Q := fun n' resp => n' = s.effects ∨ n' = s.effects + 1 ∧ resp.status = 200) h
    (hr requestId s.effects)

/-- An attempt takes effect at most once, and nobody is told of it only if the client is not. -/
theorem Attempt.effects (hr : request.Single db) (h : Attempt db request s outcome s') :
    s'.effects ≤ s.effects + 1 ∧ (s'.effects + s.unheard = s.effects + s'.unheard ∨
      s'.effects = s.effects + 1 ∧ s'.unheard = s.unheard ∧
        ∃ response retryAfter, response.status = 200 ∧
          outcome = .replied (Http.reply retryAfter response)) := by
  cases h with
  | lost outcome hw => exact ⟨Nat.le_succ _, .inl rfl⟩
  | unheard outcome hrespond =>
      have := single_effects hr hrespond
      refine ⟨?_, .inl ?_⟩ <;> dsimp only <;> omega
  | heard hrespond =>
      obtain rfl | ⟨rfl, hs⟩ := single_effects hr hrespond
      · exact ⟨Nat.le_succ _, .inl rfl⟩
      · exact ⟨Nat.le_refl _, .inr ⟨rfl, rfl, _, _, hs, rfl⟩⟩

/-- A body the server wrote arrives whole. -/
theorem not_retryable_payload {α : Type} {d : Json.Decoder α} {body : Body} {e : CliError}
    (h : (Http.payload body).read d = .error e) : isRetryable e = false := by
  have hvalue : ∀ v, fromValue d v = .error e → isRetryable e = false := by
    intro v hv
    unfold fromValue at hv
    cases hd : d v with
    | ok a => rw [hd] at hv; cases hv
    | error e' =>
        rw [hd] at hv
        obtain rfl : CliError.json (.data e') = e := Except.error.inj hv
        rfl
  cases body with
  | text t =>
      have hpayload : Http.payload (.text t) = if t = "" then .empty else .text t := rfl
      rw [hpayload] at h
      split at h
      · exact hvalue _ h
      · cases h; rfl
  | _ => exact hvalue _ h

/-- After an attempt that is made again, the client was told of nothing that took effect. -/
theorem Attempt.again [Reasons] {α : Type} {d : Json.Decoder α} {e : CliError}
    (hr : request.Single db) (h : Attempt db request s outcome s')
    (hparsed : Client.parsed d outcome = .error e) (hretry : isRetryable e = true) :
    s'.effects ≤ s.effects + 1 ∧ s'.effects + s.unheard = s.effects + s'.unheard := by
  obtain ⟨hle, heq | ⟨-, -, response, retryAfter, hs, rfl⟩⟩ := h.effects hr
  · exact ⟨hle, heq⟩
  · have hsuccess : (Http.reply retryAfter response).isSuccess = true := by
      simp [Http.reply, Reply.isSuccess, hs]
    have hread : (Http.payload response.body).read d = .error e := by
      rw [← hparsed, Client.parsed, Client.handleResponse, if_pos hsuccess]
      rfl
    rw [not_retryable_payload hread] at hretry
    cases hretry

/-! ## Runs -/

/-- At most once for each attempt, and at most once more than the client was not told of. -/
def Site.Bounded (s s' : Site) : Prop :=
  s'.effects ≤ s.effects + 4 ∧ s'.effects + s.unheard ≤ s.effects + s'.unheard + 1

theorem bounded_after {α : Type} {x : Except CliError α} {c : α → Cmd Unit}
    {r : Except CliError Unit}
    (hc : ∀ a, Exec (network db) (c a).run s r s' → s.Bounded s')
    (h : Exec (network db) (ExceptT.mk (.pure x) >>= c).run s r s') : s.Bounded s' := by
  obtain ⟨a, s₁, ha, hk⟩ | ⟨e, he, -⟩ := Try.exec_bind.mp h
  · obtain ⟨-, rfl⟩ := exec_pure.mp ha
    exact hc a hk
  · obtain ⟨-, rfl⟩ := exec_pure.mp he
    exact ⟨Nat.le_add_right .., Nat.le_add_right ..⟩

variable [Reasons]

/-- What the attempts before the last did to the counts. -/
def Site.Counted (s : Site) (n : Nat) (s' : Site) : Prop :=
  s'.effects ≤ s.effects + n ∧ s'.effects + s.unheard = s.effects + s'.unheard

theorem exec_attempt {α : Type} {d : Json.Decoder α} {r : Except CliError α}
    (h : Exec (network db) (send request >>= fun o => .pure (Client.parsed d o)) s r s') :
    ∃ outcome, Attempt db request s outcome s' ∧ Client.parsed d outcome = r := by
  obtain ⟨outcome, s₁, hsend, hread⟩ := exec_bind.mp h
  obtain ⟨rfl, rfl⟩ := exec_pure.mp hread
  exact ⟨outcome, exec_perform.mp hsend, rfl⟩

theorem bounded_retrying {α : Type} {d : Json.Decoder α} {r : Except CliError α}
    (hr : request.Single db)
    (h : Exec (network db) (retrying request (Client.parsed d)).run s r s') : s.Bounded s' := by
  have hstep : ∀ n s₀ s₁ s₂ e delay, s.Counted n s₀ →
      Exec (network db) (send request >>= fun o => .pure (Client.parsed d o)) s₀ (.error e) s₁ →
      isRetryable e = true → Exec (network db) (sleep delay) s₁ () s₂ →
      s.Counted (n + 1) s₂ := by
    intro n s₀ s₁ s₂ e delay hcount hattempt hretry hsleep
    obtain ⟨outcome, hattempt, hparsed⟩ := exec_attempt hattempt
    obtain ⟨w, -, rfl⟩ := exec_perform.mp hsleep
    have hagain := hattempt.again hr hparsed hretry
    unfold Site.Counted at *
    dsimp only
    omega
  obtain ⟨m, hm, s₁, hcount, hlast⟩ :=
    exec_retry (I := s.Counted) (n := 0) hstep ⟨Nat.le_refl _, rfl⟩ h
  obtain ⟨outcome, hattempt, -⟩ := exec_attempt hlast
  have heffects := (hattempt.effects hr)
  have hdelays : m ≤ 0 + 3 := hm
  unfold Site.Counted at hcount
  unfold Site.Bounded
  omega

theorem bounded_fetch {α : Type} {d : Json.Decoder α} {r : Except CliError Unit}
    {k : α → Except CliError Unit} (hr : request.Single db)
    (h : Exec (network db)
      (retrying request (Client.parsed d) >>= fun a => ExceptT.mk (.pure (k a))).run s r s') :
    s.Bounded s' := by
  obtain ⟨a, s₁, ha, hk⟩ | ⟨e, he, -⟩ := Try.exec_bind.mp h
  · obtain ⟨-, rfl⟩ := exec_pure.mp hk
    exact bounded_retrying hr ha
  · exact bounded_retrying hr he

variable (client : ClawDBClient)

theorem bounded_remember {args : RememberArgs} {r : Except CliError Unit}
    (h : Exec (network db) (args.execute client).run s r s') : s.Bounded s' :=
  bounded_after (fun _ h => bounded_after
    (fun _ h => bounded_fetch (k := fun _ => .ok ()) (single_post rfl) h) h) h

/-- A command takes effect at most once for each of its four attempts, and at most once more
than its client was not told of. -/
theorem command_effects {command : Command} (hc : command.creates = true)
    {r : Except CliError Unit}
    (h : Exec (network db) (command.execute client).run s r s') :
    s'.effects ≤ s.effects + 4 ∧ s'.effects + s.unheard ≤ s.effects + s'.unheard + 1 := by
  cases command with
  | remember args => exact bounded_remember client h
  | memory c =>
      cases c with
      | remember args => exact bounded_remember client h
      | _ => cases hc
  | tx c =>
      cases c with
      | begin => exact bounded_fetch (k := fun _ => .ok ()) (single_post rfl) h
      | remember txId content =>
          exact bounded_fetch (k := fun _ => .ok ()) (single_post rfl) h
      | rememberTyped txId content type tags metadata =>
          exact bounded_fetch (k := fun _ => .ok ()) (single_post rfl) h
      | _ => cases hc
  | branch c =>
      cases c with
      | create name parent =>
          exact bounded_fetch (k := fun _ => .ok ()) (single_post rfl) h
      | _ => cases hc
  | session c =>
      cases c with
      | create args saved =>
          have hsaved : ioResult saved = ExceptT.mk (.pure (saved.mapError .io)) := by
            cases saved <;> rfl
          change Exec (network db) (_ >>= fun _ => ioResult saved).run s r s' at h
          rw [hsaved] at h
          exact bounded_fetch (k := fun _ => saved.mapError .io) (single_post rfl) h
      | _ => cases hc
  | reflect c =>
      cases c with
      | run kind dryRun agentId =>
          exact bounded_fetch (k := fun _ => .ok ()) (single_post rfl) h
      | _ => cases hc
  | _ => cases hc

end

/-! ## A reply that is lost -/

section Witnesses

attribute [local instance] Crates.sample Http.Frameworks.sample Reasons.sample

def rememberArgs : RememberArgs := ⟨some "x", none, none, none, none⟩

def owner : ClawDBClient := ⟨some "t"⟩

def rememberRequest : HttpRequest :=
  ⟨.post, "/v1/memories", [], some (rememberArgs.body "x" .null), owner.token⟩

/-- The server serves the request, undisturbed. -/
def served (s : World × Nat) : Response × (World × Nat) :=
  (Http.respond vectorDb "r" rememberRequest).run (Op.reference.watched creations) s

theorem exec_served (s : World × Nat) :
    Exec (Rel.watched Op.shared creations) (Http.respond vectorDb "r" rememberRequest) s
      (served s).1 (served s).2 :=
  (exec_run (Op.reference_refines.watched creations) _ s).mono fun o s r s' h =>
    ⟨Op.sem_shared o s.1 r s'.1 h.1, h.2⟩

def timeout : ReqwestError := ⟨false, true, "operation timed out"⟩

/-- The reply to the first attempt is lost. -/
def afterTimeout : Site :=
  let (world, n) := (served (ownerWorld, 0)).2
  ⟨world, n, n⟩

def afterRetry : Site :=
  let (world, n) := (served (afterTimeout.world, afterTimeout.effects)).2
  ⟨world, n, afterTimeout.unheard⟩

theorem served_second :
    (served (afterTimeout.world, afterTimeout.effects)).1 =
      ⟨200, .json (rememberedBody ⟨(4 : Nat), true⟩)⟩ := by
  decide +kernel

theorem exec_rememberTwice :
    Exec (network vectorDb) ((Command.remember rememberArgs).execute owner).run ⟨ownerWorld, 0, 0⟩
      (.ok ()) afterRetry := by
  refine Try.exec_bind_of (.pure ..) (Try.exec_bind_of (.pure ..) ?_)
  refine Try.exec_bind_of (a := ⟨Crates.uuidToString (4 : Nat)⟩) ?_ (.pure ..)
  have hlost : Attempt vectorDb rememberRequest ⟨ownerWorld, 0, 0⟩ (.failed timeout) afterTimeout :=
    .unheard (.failed timeout) (exec_served (ownerWorld, 0))
  have hheard : Attempt vectorDb rememberRequest afterTimeout
      (.replied (Http.reply none ⟨200, .json (rememberedBody ⟨(4 : Nat), true⟩)⟩)) afterRetry := by
    rw [← served_second]
    exact .heard (exec_served (afterTimeout.world, afterTimeout.effects))
  refine exec_retry_again (e := .connection "is clawdb-server running?")
    (exec_bind.mpr ⟨_, _, exec_perform.mpr hlost, .pure ..⟩) rfl
    (exec_perform.mpr ⟨afterTimeout.world, .refl, rfl⟩)
    (exec_retry_done (exec_bind.mpr ⟨_, _, exec_perform.mpr hheard, ?_⟩) fun e he => nomatch he)
  exact .pure ..

theorem command_effects_rememberTwice : afterRetry.effects ≤ 4 ∧ afterRetry.effects ≤ 2 := by
  obtain ⟨hfour, hunheard⟩ :=
    command_effects owner (show (Command.remember rememberArgs).creates = true from rfl)
      exec_rememberTwice
  have hone : afterRetry.unheard = 1 := by decide +kernel
  rw [hone] at hunheard
  exact ⟨by simpa using hfour, by simpa using hunheard⟩

/-- A memory is stored twice if the reply to the first attempt is lost. -/
theorem remember_stores_twice :
    ¬ ∀ (db : ClawDBEngine) (client : ClawDBClient) (command : Command) (s s' : Site)
      (r : Except CliError Unit), command.creates = true →
        Exec (network db) (command.execute client).run s r s' → s'.effects ≤ s.effects + 1 := by
  intro hclaim
  have hle := hclaim _ _ _ _ _ _ rfl exec_rememberTwice
  have htwo : afterRetry.effects = 2 := by decide +kernel
  rw [htwo] at hle
  exact absurd hle (by decide)

example : afterRetry.world.rows.map (·.content) = ["x", "x"] := by decide +kernel

end Witnesses

end Cli

end ClawDB
