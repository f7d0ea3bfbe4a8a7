/-
# `ClawDB.Server.Lifetimes` — how long a session is asked for

A requested lifetime is a `u64`.  Both front ends cast it to the `i64` that `session_with_ttl`
takes, which clamps it to at least one and casts it back.  From `i64::MAX` on the first cast
wraps round to a negative number, and the clamp makes one second of it.
-/
import ClawDB.Server.Monitor
import ClawDB.Server.Surfaces

namespace ClawDB

open Effect

/-- `i64::MAX` -/
def i64Max : Nat := 9223372036854775807

/-- What the casts and the clamp make of a lifetime. -/
def lifetime (ttlSecs : UInt64) : Nat := (max ttlSecs.toInt64.toInt 1).toNat

theorem toInt_toInt64 (t : UInt64) :
    t.toInt64.toInt = if t.toNat ≤ i64Max then (t.toNat : Int) else t.toNat - 2 * (i64Max + 1) := by
  have hsize : t.toNat < 2 * (i64Max + 1) := t.toBitVec.isLt
  have hcond := BitVec.toInt_eq_toNat_cond t.toBitVec
  have hnat : t.toBitVec.toNat = t.toNat := rfl
  have hint : t.toInt64.toInt = t.toBitVec.toInt := rfl
  rw [hint, hcond, hnat]
  unfold i64Max at *
  split <;> split <;> omega

theorem lifetime_of_le {t : UInt64} (h : t.toNat ≤ i64Max) : lifetime t = max t.toNat 1 := by
  rw [lifetime, toInt_toInt64, if_pos h]
  omega

theorem lifetime_of_gt {t : UInt64} (h : i64Max < t.toNat) : lifetime t = 1 := by
  have hsize : t.toNat < 2 * (i64Max + 1) := t.toBitVec.isLt
  rw [lifetime, toInt_toInt64, if_neg (Nat.not_le.mpr h)]
  omega

/-! ## What the guard is asked for -/

/-- The lifetime the guard is asked for. -/
def Op.ttl : Op → Option Nat
  | .guard (.createSession _ _ _ _ ttlSecs) => some ttlSecs
  | _ => none

/-- No operation asks for another lifetime. -/
def Op.Lasts (ttl : Nat) (o : Op) : Prop := ∀ n, o.ttl = some n → n = ttl

section Guard

variable {db : ClawDBEngine}

theorem lasts_sessionWithTtl (agentId : Uuid) (role : String) (scopes : List String)
    (ttlSecs : Int) : (db.sessionWithTtl agentId role scopes ttlSecs).run.Within
      (Op.Lasts (max ttlSecs 1).toNat) := by
  have hother : ∀ o : HostOp, Op.Lasts (max ttlSecs 1).toNat (.host o) := fun _ _ h => nomatch h
  rw [sessionWithTtl_run]
  refine ⟨fun n h => (Option.some.inj h).symm, fun r => ?_⟩
  cases r with
  | error e => trivial
  | ok g => exact ⟨hother _, fun _ => ⟨hother _, fun _ => trivial⟩⟩

theorem asked_sessionWithTtl (db : ClawDBEngine) {σ : Type} (h : Prog.Handler Sig σ) (s : σ)
    (agentId : Uuid) (role : String) (scopes : List String) (ttlSecs : Int) :
    Op.guard (.createSession agentId db.workspaceId role scopes (max ttlSecs 1).toNat) ∈
      (db.sessionWithTtl agentId role scopes ttlSecs).run.calls h s := by
  rw [sessionWithTtl_run]
  exact List.mem_cons_self

end Guard

theorem ne_zero_of_pos {t : UInt64} (h : 1 ≤ t) : t ≠ 0 := by
  rintro rfl
  exact absurd h (by decide)

section Requests

variable [Crates]

/-- Some run of the request asks the guard for a session of `ttl` seconds. -/
def Request.HandsOver (db : ClawDBEngine) (req : Request) (ttl : Nat) : Prop :=
  ∃ (σ : Type) (h : Prog.Handler Sig σ) (s : σ), ∃ o ∈ (handle db req).calls h s, o.ttl = some ttl

/-- The request asks for a session of `ttlSecs` seconds: over HTTP with a body that could be
read, over gRPC with a token and an agent id that parses. -/
inductive Request.AsksFor : Request → UInt64 → Prop where
  | http {requestId : String} {authorization : Option String} {body : Http.CreateSessionBody}
      {ttlSecs : UInt64} : body.ttlSecs = some ttlSecs →
      AsksFor (.http ⟨requestId, authorization, .createSession (.ok body)⟩) ttlSecs
  | grpc {requestId token agent role : String} {agentId : Uuid} {scopes : List String}
      {ttlSecs : UInt64} : Crates.parseStr agent = some agentId → 1 ≤ ttlSecs →
      AsksFor (.grpc ⟨requestId, some token, .createSession agent role scopes ttlSecs⟩) ttlSecs

section Handing

variable {db : ClawDBEngine} {req : Request} {t : UInt64}

/-- A request for `t` seconds asks the guard for `lifetime t`, if it gets that far. -/
theorem lasts_handle (h : req.AsksFor t) : (handle db req).Within (Op.Lasts (lifetime t)) := by
  cases h with
  | http hbody =>
      refine Prog.Within.bind ?_ fun _ => trivial
      show (Http.answer _ _ _).Within _
      rw [hbody]
      refine (lasts_sessionWithTtl ..).bind fun reply => ?_
      cases reply <;> trivial
  | @grpc requestId token agent role agentId scopes t hagent hpos =>
      have hzero : t ≠ 0 := ne_zero_of_pos hpos
      refine Prog.Within.bind (Prog.Within.bind ⟨fun _ h => (nomatch h), fun _ => trivial⟩ ?_)
        fun _ => trivial
      intro within
      cases within with
      | false => trivial
      | true =>
          refine Prog.Within.bind ?_ fun _ => trivial
          refine Try.within_bind (Try.within_bind (Try.within_of ?_) fun _ => trivial) fun _ => ?_
          · exact Try.within_bind (Try.within_of ⟨fun _ h => (nomatch h), fun _ => trivial⟩)
              fun _ => trivial
          · unfold Grpc.parseUuid
            rw [hagent]
            refine Try.within_bind (x := pure agentId) trivial fun id => ?_
            rw [if_neg hzero]
            exact Try.within_bind (Try.within_of (lasts_sessionWithTtl ..)) fun _ => trivial

/-- A guard that knows one token. -/
def knownToken (token : String) : World :=
  { World.empty with sessions := [⟨1, 2, 3, "agent", [], token, 0⟩] }

/-- And it can get that far. -/
theorem handsOver_lifetime (h : req.AsksFor t) : req.HandsOver db (lifetime t) := by
  cases h with
  | @http requestId authorization body t hbody =>
      have hasked := asked_sessionWithTtl db Op.reference World.empty body.agentId body.role
        body.scopes (body.ttlSecs.getD 3600).toInt64.toInt
      rw [hbody] at hasked
      refine ⟨World, Op.reference, World.empty, .guard (.createSession body.agentId db.workspaceId
        body.role body.scopes (lifetime t)), ?_, rfl⟩
      · unfold handle
        rw [Prog.calls_bind]
        refine List.mem_append_left _ ?_
        show _ ∈ (Http.answer _ _ _).calls _ _
        unfold Http.answer
        rw [Prog.calls_bind, hbody]
        exact List.mem_append_left _ hasked
  | @grpc requestId token agent role agentId scopes t hagent hpos =>
      have hzero : t ≠ 0 := ne_zero_of_pos hpos
      have hasked := asked_sessionWithTtl db Op.reference (knownToken token) agentId role
        scopes t.toInt64.toInt
      have hvalid : Op.reference (.guard (.validateSession token)) (knownToken token) =
          (.ok ⟨1, 2, 3, "agent", [], token, 0⟩, knownToken token) := by
        simp [Op.reference, GuardOp.reference, knownToken, World.empty]
      obtain ⟨hsession, -⟩ := eval_sessionFromRequest hvalid
      refine ⟨World, Op.reference, knownToken token, .guard (.createSession agentId db.workspaceId
        role scopes (lifetime t)), ?_, rfl⟩
      · unfold handle
        rw [Prog.calls_bind]
        refine List.mem_append_left _ (List.mem_cons_of_mem _ ?_)
        show _ ∈ (((Grpc.createSession db requestId (some token) agent role scopes t).run >>=
          fun result => pure (⟨some requestId, result⟩ : GrpcResponse)) : Act GrpcResponse).calls
            Op.reference (knownToken token)
        rw [Prog.calls_bind]
        refine List.mem_append_left _ ?_
        unfold Grpc.createSession Grpc.parseUuid
        rw [Try.calls_bind_ok hsession, hagent, if_neg hzero]
        refine List.mem_append_right _ ?_
        rw [Try.calls_bind_ok (x := pure agentId) rfl, Try.run_bind, Prog.calls_bind, calls_call]
        exact List.mem_append_right _ (List.mem_append_left _ hasked)

theorem handsOver_iff (h : req.AsksFor t) {n : Nat} : req.HandsOver db n ↔ n = lifetime t := by
  constructor
  · rintro ⟨σ, handler, s, o, ho, hn⟩
    exact (lasts_handle h).calls handler s o ho n hn
  · rintro rfl
    exact handsOver_lifetime h

end Handing

/-- What is asked of two requests for `t₁` and for `t₂` seconds, `t₁` at most `t₂`. -/
def LifetimesOrdered (db : ClawDBEngine) (req₁ req₂ : Request) (t₁ t₂ : UInt64) : Prop :=
  ∀ n₁ n₂, req₁.HandsOver db n₁ → req₂.HandsOver db n₂ →
    n₁ ≤ n₂ ∧ min t₁.toNat i64Max ≤ n₁ ∧ min t₂.toNat i64Max ≤ n₂

/-- No request for a longer session asks for a shorter one, as long as the lifetimes fit into an
`i64`. -/
theorem lifetimesOrdered_iff (db : ClawDBEngine) {req₁ req₂ : Request} {t₁ t₂ : UInt64}
    (h₁ : req₁.AsksFor t₁) (h₂ : req₂.AsksFor t₂) (hpos : 1 ≤ t₁) (hle : t₁ ≤ t₂) :
    LifetimesOrdered db req₁ req₂ t₁ t₂ ↔ t₂.toNat ≤ i64Max := by
  have hone : 1 ≤ t₁.toNat := UInt64.le_iff_toNat_le.mp hpos
  have hnat : t₁.toNat ≤ t₂.toNat := UInt64.le_iff_toNat_le.mp hle
  constructor
  · intro h
    obtain ⟨-, -, hlong⟩ := h _ _ (handsOver_lifetime h₁) (handsOver_lifetime h₂)
    refine Nat.le_of_not_gt fun hgt => ?_
    rw [lifetime_of_gt hgt] at hlong
    unfold i64Max at *
    omega
  · intro hfits n₁ n₂ hn₁ hn₂
    rw [handsOver_iff h₁, lifetime_of_le (Nat.le_trans hnat hfits)] at hn₁
    rw [handsOver_iff h₂, lifetime_of_le hfits] at hn₂
    omega

end Requests

section Witnesses

attribute [local instance] Crates.sample

/-- An HTTP request for a session of `ttlSecs` seconds. -/
def httpAsks (ttlSecs : UInt64) : Request :=
  .http ⟨"r", none, .createSession (.ok ⟨(9 : Nat), "agent", [], some ttlSecs⟩)⟩

def grpcAsks (ttlSecs : UInt64) : Request :=
  .grpc ⟨"r", some "t", .createSession "00000000-0000-0000-0000-000000000009" "agent" [] ttlSecs⟩

theorem httpAsks_for (ttlSecs : UInt64) : (httpAsks ttlSecs).AsksFor ttlSecs := .http rfl

theorem grpcAsks_for {ttlSecs : UInt64} (h : 1 ≤ ttlSecs) :
    (grpcAsks ttlSecs).AsksFor ttlSecs := by
  have hagent : Crates.parseStr "00000000-0000-0000-0000-000000000009" = some (9 : Nat) := by
    decide +kernel
  exact .grpc hagent h

theorem lifetimesOrdered_hour :
    LifetimesOrdered vectorDb (httpAsks 60) (httpAsks 3600) 60 3600 ∧
      LifetimesOrdered vectorDb (grpcAsks 60) (grpcAsks 3600) 60 3600 :=
  ⟨(lifetimesOrdered_iff vectorDb (httpAsks_for 60) (httpAsks_for 3600) (by decide)
      (by decide)).mpr (by decide),
    (lifetimesOrdered_iff vectorDb (grpcAsks_for (by decide)) (grpcAsks_for (by decide))
      (by decide) (by decide)).mpr (by decide)⟩

/-- On either route a session of `i64::MAX + 1` seconds lasts one second. -/
theorem longest_is_shortest :
    (¬ ∀ (db : ClawDBEngine) (t₁ t₂ : UInt64), 1 ≤ t₁ → t₁ ≤ t₂ →
      LifetimesOrdered db (httpAsks t₁) (httpAsks t₂) t₁ t₂) ∧
    ¬ ∀ (db : ClawDBEngine) (t₁ t₂ : UInt64), 1 ≤ t₁ → t₁ ≤ t₂ →
      LifetimesOrdered db (grpcAsks t₁) (grpcAsks t₂) t₁ t₂ := by
  have hwraps : lifetime 9223372036854775808 = 1 := by decide
  have hhour : lifetime 3600 = 3600 := by decide
  constructor
  · intro hclaim
    have h := hclaim vectorDb 3600 9223372036854775808 (by decide) (by decide) _ _
      (handsOver_lifetime (httpAsks_for _)) (handsOver_lifetime (httpAsks_for _))
    rw [hwraps, hhour] at h
    exact absurd h.1 (by decide)
  · intro hclaim
    have h := hclaim vectorDb 3600 9223372036854775808 (by decide) (by decide) _ _
      (handsOver_lifetime (grpcAsks_for (by decide)))
      (handsOver_lifetime (grpcAsks_for (by decide)))
    rw [hwraps, hhour] at h
    exact absurd h.1 (by decide)

end Witnesses

end ClawDB
