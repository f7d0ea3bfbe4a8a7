/-
# `Session.Tokens` — what a token opens, and what revoking a session revokes

`create` and `refresh` leave a session in the store under the id the manager drew, with the
token the guard issued; the guard is never told that id.  `validate` looks up the id the guard
bound the token to, and `revoke` asks the guard to revoke the id the manager drew.  So both do
what they are for exactly if the two ids are the same.
-/
import ClawDB.Session.Runs

namespace ClawDB.Session

open Effect Prog

/-- The guard was started, and bound the token of the session to the session's own id. -/
def OneId (w : World) (ctx : SessionContext) : Prop :=
  w.up = true ∧ w.bound.lookup ctx.token = some ctx.sessionId

/-- What may happen in a call, of a guard that answers as assumed. -/
def assumed : Rel Shared World := fun o w r w' => sem o w r w' ∧ Answers o w r

/-- Before its expiry the token of the session opens it. -/
def Validates (w : World) (ctx : SessionContext) : Prop :=
  ∀ r w', Exec assumed (validate ctx.token).run w r w' →
    timestamp w'.clock < ctx.expiresAt → r = .ok ctx

/-- The sessions the guard was asked to revoke. -/
def revocations (evs : List (Exchange Shared)) : List Uuid :=
  evs.filterMap fun ev =>
    match ev.1 with
    | .revokeSession session => some session
    | _ => none

/-- Revoking the session asks the guard to revoke what its token is bound to. -/
def Revokes (w : World) (ctx : SessionContext) : Prop :=
  ∀ evs r w', ExecTrace assumed (revoke ctx.sessionId).run w evs r w' →
    ∃ session ∈ revocations evs, w.bound.lookup ctx.token = some session

theorem serve_assumed (first : Nat) : (serve first).Refines assumed :=
  fun o w => ⟨serve_refines first o w, serve_answers first o w⟩

section Calls

variable {w w' : World} {ctx : SessionContext}

theorem validates_of_oneId (hid : OneId w ctx)
    (hstored : w.store.lookup ctx.sessionId = some ctx) (hlive : ctx.sessionId ∉ w.guardRevoked) :
    Validates w ctx := by
  obtain ⟨hup, hbound⟩ := hid
  intro r w' hexec hvalid
  obtain ⟨started, w₁, ⟨⟨hstarted, rfl⟩, -⟩, hexec⟩ := exec_op.mp hexec
  obtain rfl : started = true := hstarted.trans hup
  obtain ⟨claims, w₁, ⟨rfl, -, hanswer⟩, hexec⟩ := exec_op.mp hexec
  obtain rfl : claims = .ok ctx.sessionId := hanswer ctx.sessionId hbound hlive
  obtain ⟨found, w₂, ⟨⟨now, hfound, rfl⟩, -⟩, hexec⟩ := exec_op.mp hexec
  obtain ⟨rfl, rfl⟩ := exec_pure.mp hexec
  have hget : w₁.store.get (timestamp now) ctx.sessionId = .ok ctx :=
    SessionStore.get_ok.mpr ⟨hstored, decide_eq_true hvalid⟩
  rw [hfound, hget]
  rfl

/-- The one session the guard is asked to revoke is named by the manager's id. -/
theorem revocations_revoke {id : Uuid} {evs : List (Exchange Shared)} {r : Except SessionError Unit}
    (hstored : w.store.lookup id = some ctx) (h : ExecTrace assumed (revoke id).run w evs r w') :
    revocations evs = if w.up then [id] else [] := by
  obtain ⟨found, w₁, evs, rfl, ⟨⟨hfound, rfl⟩, -⟩, h⟩ := traced_op.mp h
  obtain rfl : found = some ctx := hfound.trans hstored
  obtain ⟨started, w₂, evs, rfl, ⟨⟨hstarted, rfl⟩, -⟩, h⟩ := traced_op.mp h
  cases started with
  | true =>
      have hup : w.up = true := hstarted.symm
      obtain ⟨answer, w₃, evs, rfl, -, h⟩ := traced_op.mp h
      obtain ⟨u, w₄, evs, rfl, -, h⟩ := traced_op.mp h
      obtain ⟨rfl, -, -⟩ := traced_pure.mp h
      rw [hup]
      rfl
  | false =>
      have hup : w.up = false := hstarted.symm
      obtain ⟨u, w₃, evs, rfl, -, h⟩ := traced_op.mp h
      obtain ⟨rfl, -, -⟩ := traced_pure.mp h
      rw [hup]
      rfl

theorem revokes_iff (hstored : w.store.lookup ctx.sessionId = some ctx) :
    Revokes w ctx ↔ OneId w ctx := by
  constructor
  · intro h
    obtain ⟨evs, htraced⟩ := (exec_run (serve_assumed 0) (revoke ctx.sessionId).run w).traced
    obtain ⟨session, hsession, hbound⟩ := h evs _ _ htraced
    rw [revocations_revoke hstored htraced] at hsession
    by_cases hup : w.up = true
    · rw [if_pos hup] at hsession
      obtain rfl := List.mem_singleton.mp hsession
      exact ⟨hup, hbound⟩
    · rw [if_neg hup] at hsession
      cases hsession
  · rintro ⟨hup, hbound⟩ evs r w' htraced
    refine ⟨ctx.sessionId, ?_, hbound⟩
    rw [revocations_revoke hstored htraced, if_pos hup]
    exact List.mem_singleton_self _

/-- A token that opens its session, before the expiry, is bound to the session's id. -/
theorem oneId_of_validates (hfiled : w.store.Filed) (hvalid : timestamp w.clock < ctx.expiresAt)
    (h : Validates w ctx) : OneId w ctx := by
  cases hup : w.up with
  | false =>
      have hexec : Exec assumed (validate ctx.token).run w
          (.error (.componentNotReady "guard")) w :=
        .op (r := false) ⟨⟨hup.symm, rfl⟩, trivial⟩ (.pure ..)
      cases h _ w hexec hvalid
  | true =>
      have hguard : assumed Op.guard w true w := ⟨⟨hup.symm, rfl⟩, trivial⟩
      have hasked : assumed (Op.validateToken ctx.token) w (w.claims ctx.token) w :=
        ⟨rfl, serve_answers 0 (.validateToken ctx.token) w⟩
      cases hclaims : w.claims ctx.token with
      | error e =>
          rw [hclaims] at hasked
          have hexec : Exec assumed (validate ctx.token).run w (.error (.guard e)) w :=
            .op hguard (.op hasked (.pure ..))
          cases h _ w hexec hvalid
      | ok session =>
          rw [hclaims] at hasked
          have hexec : Exec assumed (validate ctx.token).run w
              ((w.store.get (timestamp w.clock) session).mapError id) w :=
            .op hguard (.op hasked (.op ⟨⟨w.clock, rfl, rfl⟩, trivial⟩ (.pure ..)))
          have hget := h _ w hexec hvalid
          cases hstored : w.store.get (timestamp w.clock) session with
          | error e =>
              rw [hstored] at hget
              cases hget
          | ok found =>
              rw [hstored] at hget
              obtain rfl := Except.ok.inj hget
              have hid := hfiled session found (SessionStore.get_ok.mp hstored).1
              exact ⟨hup, hid ▸ (World.claims_eq.mp hclaims).1⟩

end Calls

/-! ## The sessions the manager keeps -/

section Kept

variable [Crates] {workspaceId : Uuid} {c : Sessions}

/-- The call returned a session, new or refreshed. -/
def Opened (e : Ended Request Reply Memory) (ctx : SessionContext) : Prop :=
  ∃ rep, e.rep = some rep ∧ contextOpened e.req rep = some ctx

theorem stored_of_opened (h : Reached workspaceId c) {e : Ended Request Reply Memory}
    (he : e ∈ c.ended) {ctx : SessionContext} (hopened : Opened e ctx)
    (hlive : ctx.sessionId ∉ c.world.removals) :
    ∃ cur, c.world.store.lookup ctx.sessionId = some cur ∧ cur.Same ctx := by
  obtain ⟨rep, hrep, hctx⟩ := hopened
  obtain ⟨hsound, -⟩ := sound_reached h
  have hpost := (Pool.reachable_board conforms h).replied e he rep hrep
  obtain ⟨b, hb, hsame⟩ := (remembers_ended h he).filed ctx (hpost.opened ctx hctx)
  obtain ⟨cur, hcur⟩ := hsound.kept b hb (hsame.sessionId ▸ hlive)
  obtain ⟨b', hb', hsame'⟩ := hsound.known _ cur hcur
  have hid : b'.sessionId = b.sessionId :=
    hsame'.sessionId.trans (hsound.filed _ cur hcur)
  obtain rfl := hsound.once b' hb' b hb hid
  exact ⟨cur, hsame.sessionId ▸ hcur, hsame'.symm.trans hsame⟩

/-- A session that was opened and not revoked is kept, and its token opens it before its expiry,
and revoking it revokes the token, exactly if the guard bound the token to the manager's id. -/
theorem opens_and_revokes_iff (h : Reached workspaceId c) {e : Ended Request Reply Memory}
    (he : e ∈ c.ended) {ctx : SessionContext} (hopened : Opened e ctx)
    (hlive : ctx.sessionId ∉ c.world.removals) :
    ∃ cur, c.world.store.lookup ctx.sessionId = some cur ∧ cur.Same ctx ∧
      (Validates c.world cur ∧ Revokes c.world cur ↔ OneId c.world cur) ∧
      (timestamp c.world.clock < cur.expiresAt →
        (Validates c.world cur ↔ OneId c.world cur)) := by
  obtain ⟨cur, hcur, hsame⟩ := stored_of_opened h he hopened hlive
  obtain ⟨hsound, -⟩ := sound_reached h
  have hstored : c.world.store.lookup cur.sessionId = some cur := hsame.sessionId ▸ hcur
  have hnot : cur.sessionId ∉ c.world.guardRevoked := fun hrevoked =>
    hlive (hsame.sessionId ▸ hsound.guardRevoked _ hrevoked)
  have hvalidates : OneId c.world cur → Validates c.world cur := fun hid =>
    validates_of_oneId hid hstored hnot
  have hrevokes := revokes_iff hstored
  refine ⟨cur, hcur, hsame, ⟨fun h => hrevokes.mp h.2, fun hid => ?_⟩, fun hvalid => ⟨?_, ?_⟩⟩
  · exact ⟨hvalidates hid, hrevokes.mpr hid⟩
  · exact oneId_of_validates hsound.filed hvalid
  · exact hvalidates

end Kept

section Witnesses

attribute [local instance] Crates.sample

/-- A session is created, under id 1, and refreshed. -/
def kept (first : Nat) : Sessions :=
  schedule first empty (Pool.oneByOne 5 [.create 9 "assistant" ["memory:read"] none, .refresh 1])

theorem kept_reached (first : Nat) : Reached 0 (kept first) :=
  Pool.Reachable.later (reached_of_fresh fresh_empty)
    (Pool.turns_later (refines_serve first) (fun _ => trivial) _ empty)

def opens (id : Uuid) (e : Ended Request Reply Memory) : Bool :=
  (e.rep.bind (contextOpened e.req)).any fun ctx => ctx.sessionId == id

theorem opened_of_any (c : Sessions) (id : Uuid) (h : c.ended.any (opens id) = true) :
    ∃ e ∈ c.ended, ∃ ctx, Opened e ctx ∧ ctx.sessionId = id := by
  obtain ⟨e, he, h⟩ := List.any_eq_true.mp h
  obtain ⟨ctx, hctx, hid⟩ := (Option.any_eq_true _ _).mp h
  obtain ⟨rep, hrep, hctx⟩ := Option.bind_eq_some_iff.mp hctx
  exact ⟨e, he, ctx, ⟨rep, hrep, hctx⟩, by simpa using hid⟩

/-- Where the guard counts from 0, its second session is the manager's first. -/
theorem opens_and_revokes_kept :
    ∃ cur, (kept 0).world.store.lookup 1 = some cur ∧
      Validates (kept 0).world cur ∧ Revokes (kept 0).world cur := by
  obtain ⟨e, he, ctx, hopened, hid⟩ := opened_of_any (kept 0) (1 : Nat) (by decide +kernel)
  have hlive : ctx.sessionId ∉ (kept 0).world.removals := hid ▸ (by decide +kernel)
  obtain ⟨cur, hcur, -, hiff, -⟩ := opens_and_revokes_iff (kept_reached 0) he hopened hlive
  rw [hid] at hcur
  have htoken : ((kept 0).world.store.lookup 1).map (fun s => (kept 0).world.bound.lookup s.token) =
      some (some 1) := by decide +kernel
  have hcurId : ((kept 0).world.store.lookup 1).map SessionContext.sessionId = some 1 := by
    decide +kernel
  rw [hcur] at htoken hcurId
  refine ⟨cur, hcur, hiff.mpr ⟨by decide +kernel, ?_⟩⟩
  rw [Option.some.inj hcurId]
  exact Option.some.inj htoken

/-- Where it counts from 100, the token of the first session does not open it. -/
theorem token_opens_nothing :
    ¬ ∀ (c : Sessions), Reached 0 c → ∀ e ∈ c.ended, ∀ ctx, Opened e ctx →
      ctx.sessionId ∉ c.world.removals → ∃ cur, c.world.store.lookup ctx.sessionId = some cur ∧
        cur.Same ctx ∧ Validates c.world cur ∧ Revokes c.world cur := by
  intro hclaim
  obtain ⟨e, he, ctx, hopened, hid⟩ := opened_of_any (kept 100) (1 : Nat) (by decide +kernel)
  have hlive : ctx.sessionId ∉ (kept 100).world.removals := hid ▸ (by decide +kernel)
  obtain ⟨cur, hcur, -, hvalidates, -⟩ := hclaim (kept 100) (kept_reached 100) e he ctx hopened
    hlive
  rw [hid] at hcur
  have hexpiry : ((kept 100).world.store.lookup 1).map SessionContext.expiresAt = some 3600 := by
    decide +kernel
  have htoken : ((kept 100).world.store.lookup 1).map SessionContext.token =
      some (tokenText 1) := by decide +kernel
  rw [hcur] at hexpiry htoken
  have hrun := hvalidates _ _ (exec_run (serve_assumed 100) _ _) (by
    rw [Option.some.inj hexpiry, Option.some.inj htoken]
    decide +kernel)
  rw [Option.some.inj htoken] at hrun
  have herror : ((validate (tokenText 1)).run.run (serve 100) (kept 100).world).1 =
      .error (.sessionNotFound 101) := by decide +kernel
  rw [herror] at hrun
  cases hrun

end Witnesses

end ClawDB.Session
