/-
# `ClawDB.Server.Surfaces` — one engine call behind two front ends

A protobuf field that is absent reads as zero or as the empty text, and the gRPC methods take
a zero limit, a zero lifetime and a blank type for absent ones, and a zero `top_k` for one.
The HTTP handlers have an absent value of their own and take a zero for what it says.

So every call of the three methods agrees with the HTTP request that leaves out what is zero
or blank: both validate the same token, ask the components the same, and render one result.
-/
import ClawDB.Server.Grpc
import ClawDB.Memories

namespace ClawDB

open Effect
open Json (Value)

section Agreement

variable {α : Type}

/-- Two replies that render one result of the engine. -/
inductive Renders (requestId : String) (ok : α → Response) (message : α → Message) :
    Response → Except Status Message → Prop where
  | ok (a : α) : Renders requestId ok message (ok a) (.ok (message a))
  | error (e : ClawDBError) :
      Renders requestId ok message (.mapError e requestId) (.error (.mapError requestId e))

/-- With a token that is valid the method does what the HTTP handler does with the session:
the same operations in the same order, to the same state, with a reply that renders the same
result. -/
def Agrees (requestId token : String) (ok : α → Response) (message : α → Message)
    (handler : ClawDBSession → Act Response) (method : Grpc.Rpc Message) : Prop :=
  ∀ (σ : Type) (h : Prog.Handler Sig σ) (w w' : σ) (session : GuardSession),
    h (.guard (.validateSession token)) w = (.ok session, w') →
      method.run.calls h w =
        .guard (.validateSession token) :: (handler session.toSession).calls h w' ∧
      (method.run.run h w).2 = ((handler session.toSession).run h w').2 ∧
      Renders requestId ok message ((handler session.toSession).run h w').1 (method.run.run h w).1

theorem eval_sessionFromRequest {σ : Type} {h : Prog.Handler Sig σ} {w w' : σ} {token : String}
    {session : GuardSession} (hvalid : h (.guard (.validateSession token)) w = (.ok session, w')) :
    (Grpc.sessionFromRequest token).eval h w = (.ok (token, session.toSession), w') ∧
      (Grpc.sessionFromRequest token).run.calls h w = [.guard (.validateSession token)] := by
  constructor
  · show Prog.run h (Prog.op (F := Sig) (.guard (.validateSession token)) _) w = _
    rw [Prog.run_op, hvalid]
    rfl
  · show Prog.calls h (Prog.op (F := Sig) (.guard (.validateSession token)) _) w = _
    rw [Prog.calls_op, hvalid]
    rfl

theorem calls_call {β σ : Type} (requestId : String) (c : Eng β) (h : Prog.Handler Sig σ) (w : σ) :
    (Grpc.call requestId c).run.calls h w = c.run.calls h w := by
  show Prog.calls h (c.run >>= fun r => .pure (r.mapError (Status.mapError requestId))) w = _
  rw [Prog.calls_bind]
  exact List.append_nil _

theorem eval_call {β σ : Type} (requestId : String) {c : Eng β} {h : Prog.Handler Sig σ} {w w' : σ}
    {r : Except ClawDBError β} (hc : c.eval h w = (r, w')) :
    (Grpc.call requestId c).eval h w = (r.mapError (Status.mapError requestId), w') := by
  have hrun : Prog.run h c.run w = (r, w') := hc
  show Prog.run h (c.run >>= fun r => .pure (r.mapError (Status.mapError requestId))) w = _
  rw [Prog.run_bind, hrun]
  rfl

theorem answer_spec {β σ : Type} (requestId : String) {c : Eng β} (ok : β → Response)
    {h : Prog.Handler Sig σ} {w w' : σ} {r : Except ClawDBError β} (hc : c.eval h w = (r, w')) :
    (Http.answer requestId c ok).calls h w = c.run.calls h w ∧
      ∃ reply, (Http.answer requestId c ok).run h w = (reply, w') ∧
        ((∃ b, r = .ok b ∧ reply = ok b) ∨ ∃ e, r = .error e ∧ reply = .mapError e requestId) := by
  have hrun : Prog.run h c.run w = (r, w') := hc
  unfold Http.answer
  rw [Prog.calls_bind, Prog.run_bind, hrun]
  cases r with
  | ok b => exact ⟨List.append_nil _, _, rfl, .inl ⟨b, rfl, rfl⟩⟩
  | error e => exact ⟨List.append_nil _, _, rfl, .inr ⟨e, rfl, rfl⟩⟩

/-- What the HTTP handler and the method do with one engine call. -/
theorem agrees_call (requestId token : String) {β : Type} (call : ClawDBSession → Eng β)
    (result : β → α) (ok : α → Response) (message : α → Message) :
    Agrees requestId token ok message
      (fun session => Http.answer requestId (call session) fun b => ok (result b))
      (do
        let (_, session) ← Grpc.sessionFromRequest token
        let b ← Grpc.call requestId (call session)
        pure (message (result b))) := by
  intro σ h w w' session hvalid
  obtain ⟨hsession, hcalls⟩ := eval_sessionFromRequest hvalid
  cases hc : (call session.toSession).eval h w' with
  | mk r w'' =>
      have hcall := eval_call requestId hc
      obtain ⟨hanswer, reply, hreply, hr⟩ := answer_spec requestId (fun b => ok (result b)) hc
      have hmethod := Try.eval_bind_ok (f := fun x => do
        let b ← Grpc.call requestId (call x.2)
        pure (message (result b))) hsession
      rw [Try.calls_bind_ok hsession, hcalls, hanswer, hreply, ← calls_call requestId]
      rcases hr with ⟨b, rfl, rfl⟩ | ⟨e, rfl, rfl⟩
      · rw [Try.eval_bind_ok hcall] at hmethod
        refine ⟨congrArg _ ?_, congrArg Prod.snd hmethod, ?_⟩
        · exact (Try.calls_bind_ok hcall).trans (List.append_nil _)
        · show Renders _ _ _ _ (Try.eval h _ w).1
          rw [hmethod]
          exact .ok (result b)
      · rw [Try.eval_bind_error hcall] at hmethod
        refine ⟨congrArg _ (Try.calls_bind_error hcall), congrArg Prod.snd hmethod, ?_⟩
        show Renders _ _ _ _ (Try.eval h _ w).1
        rw [hmethod]
        exact .error e

end Agreement

/-! ## The three calls -/

section Calls

/-- What a limit leaves of a list. -/
def taken (limit : UInt32) (memories : List MemoryRecord) : List MemoryRecord :=
  (Grpc.nonZero limit).elim memories memories.take

theorem taken_eq (limit : UInt32) (memories : List MemoryRecord) :
    (if 0 < limit then memories.take limit.toNat else memories) = taken limit memories := by
  unfold taken Grpc.nonZero
  by_cases h : limit = 0
  · subst h
    rfl
  · rw [if_neg h, if_pos (UInt32.pos_iff_ne_zero.mpr h)]
    rfl

theorem lifetime_eq (ttlSecs : UInt64) :
    (if ttlSecs = 0 then 3600 else ttlSecs.toInt64.toInt) =
      ((if ttlSecs = 0 then none else some ttlSecs).getD 3600).toInt64.toInt := by
  split
  · decide
  · rfl

variable [Crates]

def renderHits (hits : List SearchHit) : Response := ⟨200, .hits hits⟩

def renderMemories (memories : List MemoryRecord) : Response := ⟨200, .memories memories⟩

def renderSession (session : ClawDBSession) : Response := .json (sessionBody session)

def messageHits (hits : List SearchHit) : Message := .search (hits.map Grpc.mapHit)

def messageMemories (memories : List MemoryRecord) : Message :=
  .memories (memories.map Grpc.mapMemoryRecord)

def messageSession (session : ClawDBSession) : Message :=
  .createSession (Crates.uuidToString session.id) session.token
    (Crates.toRfc3339 session.expiresAt) session.scopes

/-- A blank filter is none. -/
theorem parseJson_blank {message text : String} (h : (Text.trim text).isEmpty = true)
    {k : Option Value → Grpc.Rpc Message} : (Grpc.parseJson message text >>= k) = k none := by
  rw [Grpc.parseJson, if_pos h]
  rfl

/-- Every call of the three methods agrees with the HTTP request that leaves out what is zero
or blank, and asks for one hit where none were asked for. -/
theorem surfaces_agree (db : ClawDBEngine) (requestId token : String) :
    (∀ (query : String) (topK : UInt32) (semantic : Bool) (filterJson : String),
      (Text.trim filterJson).isEmpty = true →
        Agrees requestId token renderHits messageHits
          (fun session =>
            Http.search db requestId session (.ok ⟨query, max topK.toNat 1, semantic⟩))
          (Grpc.search db requestId token query topK semantic filterJson)) ∧
    (∀ (type : String) (limit : UInt32),
      Agrees requestId token renderMemories messageMemories
        (fun session => Http.listMemories requestId session
          (.ok ⟨Grpc.nonBlank type, Grpc.nonZero limit⟩))
        (Grpc.listMemories requestId token type limit)) ∧
    ∀ (agent role : String) (agentId : Uuid) (scopes : List String) (ttlSecs : UInt64),
      Crates.parseStr agent = some agentId →
        Agrees requestId token renderSession messageSession
          (fun _ => Http.createSession db requestId
            (.ok ⟨agentId, role, scopes, if ttlSecs = 0 then none else some ttlSecs⟩))
          (Grpc.createSession db requestId token agent role scopes ttlSecs) := by
  refine ⟨?_, ?_, ?_⟩
  · intro query topK semantic filterJson hblank
    unfold Grpc.search
    simp only [parseJson_blank hblank]
    exact agrees_call requestId token (fun session =>
      db.searchWithOptions session query (max topK.toNat 1) semantic none) id renderHits messageHits
  · intro type limit
    have hagree := agrees_call requestId token
      (fun session => ClawDBEngine.listMemories session (Grpc.nonBlank type))
      (taken limit) renderMemories messageMemories
    unfold Grpc.listMemories
    simp only [taken_eq]
    have hhttp : ∀ session, Http.listMemories requestId session
          (.ok ⟨Grpc.nonBlank type, Grpc.nonZero limit⟩) =
        Http.answer requestId (ClawDBEngine.listMemories session (Grpc.nonBlank type))
          fun memories => renderMemories (taken limit memories) := by
      intro session
      simp only [Http.listMemories, Http.extract, taken, renderMemories]
    simp only [hhttp]
    exact hagree
  · intro agent role agentId scopes ttlSecs hagent
    have hagree := agrees_call requestId token
      (fun _ => db.sessionWithTtl agentId role scopes
        ((if ttlSecs = 0 then none else some ttlSecs).getD 3600).toInt64.toInt)
      id renderSession messageSession
    unfold Grpc.createSession Grpc.parseUuid
    rw [hagent, lifetime_eq]
    exact hagree

end Calls

/-! ## Zero on both surfaces -/

section Witnesses

attribute [local instance] Crates.sample

/-- The owner's session, and one memory. -/
def oneMemory : World :=
  (reference (vectorDb.remember ownerSession "x") ownerWorld).2

/-- How many memories or hits a reply lists. -/
def Response.listed : Response → Option Nat
  | ⟨_, .hits hits⟩ => some hits.length
  | ⟨_, .memories memories⟩ => some memories.length
  | _ => none

def messageListed : Except Status Message → Option Nat
  | .ok (.search hits) => some hits.length
  | .ok (.memories memories) => some memories.length
  | _ => none

theorem listed_mapError (e : ClawDBError) (requestId : String) :
    (Response.mapError e requestId).listed = none := by
  cases e <;> rfl

theorem Renders.listed_hits {requestId : String} {r : Response} {m : Except Status Message}
    (h : Renders requestId renderHits messageHits r m) : r.listed = messageListed m := by
  cases h with
  | ok hits => exact congrArg some (List.length_map _).symm
  | error e => exact listed_mapError e requestId

theorem Renders.listed_memories {requestId : String} {r : Response} {m : Except Status Message}
    (h : Renders requestId renderMemories messageMemories r m) : r.listed = messageListed m := by
  cases h with
  | ok memories => exact congrArg some (List.length_map _).symm
  | error e => exact listed_mapError e requestId

theorem surfaces_agree_owner :
    Crates.parseStr "00000000-0000-0000-0000-000000000009" = some (9 : Nat) ∧
    Agrees "r" "t" renderSession messageSession
      (fun _ => Http.createSession vectorDb "r"
        (.ok ⟨(9 : Nat), "agent", [], if (0 : UInt64) = 0 then none else some 0⟩))
      (Grpc.createSession vectorDb "r" "t" "00000000-0000-0000-0000-000000000009" "agent"
        [] 0) := by
  have hagent : Crates.parseStr "00000000-0000-0000-0000-000000000009" = some (9 : Nat) := by
    decide +kernel
  exact ⟨hagent, (surfaces_agree vectorDb "r" "t").2.2 _ "agent" 9 [] 0 hagent⟩

/-- With a zero in the HTTP request too, they do not agree: HTTP lists nothing, and lets the
session last one second. -/
theorem zeros_differ :
    (¬ ∀ (db : ClawDBEngine) requestId token (query : String) (topK : UInt32) (semantic : Bool),
      Agrees requestId token renderHits messageHits
        (fun session => Http.search db requestId session (.ok ⟨query, topK.toNat, semantic⟩))
        (Grpc.search db requestId token query topK semantic "")) ∧
    (¬ ∀ requestId token (limit : UInt32),
      Agrees requestId token renderMemories messageMemories
        (fun session => Http.listMemories requestId session (.ok ⟨none, some limit.toNat⟩))
        (Grpc.listMemories requestId token "" limit)) ∧
    ¬ ∀ (db : ClawDBEngine) requestId token agent role agentId scopes (ttlSecs : UInt64),
      Crates.parseStr agent = some agentId →
        Agrees requestId token renderSession messageSession
          (fun _ => Http.createSession db requestId (.ok ⟨agentId, role, scopes, some ttlSecs⟩))
          (Grpc.createSession db requestId token agent role scopes ttlSecs) := by
  refine ⟨fun hclaim => ?_, fun hclaim => ?_, fun hclaim => ?_⟩
  · obtain ⟨-, -, h⟩ := hclaim vectorDb "r" "t" "x" 0 false World Op.reference oneMemory oneMemory
      ⟨1, 2, 3, "agent", ["*"], "t", 0⟩ rfl
    exact absurd h.listed_hits (by decide +kernel)
  · obtain ⟨-, -, h⟩ := hclaim "r" "t" 0 World Op.reference oneMemory oneMemory
      ⟨1, 2, 3, "agent", ["*"], "t", 0⟩ rfl
    exact absurd h.listed_memories (by decide +kernel)
  · obtain ⟨-, h, -⟩ := hclaim vectorDb "r" "t" "00000000-0000-0000-0000-000000000009" "agent" 9 []
      0 (by decide +kernel) World Op.reference ownerWorld ownerWorld
      ⟨1, 2, 3, "agent", ["*"], "t", 0⟩ rfl
    have hexpiry := congrArg (fun w => w.sessions.map GuardSession.expiresAt) h
    exact absurd hexpiry (by decide +kernel)

end Witnesses

end ClawDB
