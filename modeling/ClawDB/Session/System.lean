/-
# `Session.System` — the manager at work, call by call

What the calls share, and what each operation does to it.  The guard is taken at its interface:
a token it issues is bound to a session of its own choosing, and it may answer anything.  What
is assumed of its answers where a result needs it is `Answers`.

`born` and `removals` are the proof's own: the sessions as they were first filed, and the ids
that some call has had removed.  A drawn id is neither among the first nor among the second.

The monitor remembers of a call what it was told by the store in the operation just performed
(`found`), what it was last told (`seen`), what it wrote (`filed`) and which ids it removed.
-/
import ClawDB.Lib.Pool
import ClawDB.Session.Manager
import ClawDB.World

namespace ClawDB.Session

open Effect Prog

/-- Two contexts of one session; the token and the expiry may differ. -/
structure SessionContext.Same (a b : SessionContext) : Prop where
  sessionId : a.sessionId = b.sessionId
  agentId : a.agentId = b.agentId
  role : a.role = b.role
  scopes : a.scopes = b.scopes

namespace SessionContext.Same

theorem refl (a : SessionContext) : a.Same a := ⟨rfl, rfl, rfl, rfl⟩

theorem symm {a b : SessionContext} (h : a.Same b) : b.Same a :=
  ⟨h.sessionId.symm, h.agentId.symm, h.role.symm, h.scopes.symm⟩

theorem trans {a b c : SessionContext} (h : a.Same b) (h' : b.Same c) : a.Same c :=
  ⟨h.sessionId.trans h'.sessionId, h.agentId.trans h'.agentId, h.role.trans h'.role,
    h.scopes.trans h'.scopes⟩

end SessionContext.Same

/-! ## State and behaviour -/

structure World where
  store : SessionStore := ∅
  born : List SessionContext := []
  removals : List Uuid := []
  bound : AList (fun _ : String => Uuid) := ∅
  guardRevoked : List Uuid := []
  up : Bool := true
  clock : DateTime := 0

/-- No session yet, and nothing revoked. -/
structure World.Init (w : World) : Prop where
  store : w.store = ∅
  born : w.born = []
  removals : w.removals = []
  guardRevoked : w.guardRevoked = []

def sem : (o : Op) → World → o.Ret → World → Prop
  | .guard, w => fun started w' => started = w.up ∧ w' = w
  | .issueSessionToken _ _, w => fun r w' =>
      match r with
      | .ok token => ∃ session, w' = { w with bound := w.bound.insert token session }
      | .error _ => w' = w
  | .validateToken _, w => fun _ w' => w' = w
  | .revokeSession id, w => fun r w' =>
      w' = { w with guardRevoked := id :: w.guardRevoked } ∨ (∃ e, r = .error e) ∧ w' = w
  | .now, w => fun t w' => w' = { w with clock := t }
  | .fileNew session, w => fun id w' =>
      (∀ ctx ∈ w.born, ctx.sessionId ≠ id) ∧ id ∉ w.removals ∧
        w' = { w with store := w.store.insert (session id).asContext
                      born := (session id).asContext :: w.born }
  | .insert ctx, w => fun _ w' => w' = { w with store := w.store.insert ctx }
  | .get id, w => fun r w' =>
      ∃ now, r = w.store.get (timestamp now) id ∧ w' = { w with clock := now }
  | .remove id, w => fun r w' => r = w.store.lookup id ∧
      w' = { w with store := w.store.remove id, removals := id :: w.removals }
  | .idsForAgent agentId, w => fun r w' => r.Perm (w.store.idsForAgent agentId) ∧ w' = w
  | .emit _, w => fun _ w' => w' = w

/-- What is assumed of `claw_guard`: the claims of a token it issued, and has not had to revoke,
are those of the session the token is bound to. -/
def Answers : (o : Op) → World → o.Ret → Prop
  | .validateToken token, w => fun r =>
      (∀ session, r = .ok session → w.bound.lookup token = some session) ∧
        ∀ session, w.bound.lookup token = some session → session ∉ w.guardRevoked →
          r = .ok session
  | _, _ => fun _ => True

/-- The calls of the manager, interleaved. -/
def server [Crates] (workspaceId : Uuid) : Server Shared World Request Reply where
  handler := handler workspaceId
  sem := sem
  accepts _ := True

/-! ### One system with this behaviour

Ids are drawn by counting up, the guard counts its own sessions from `first`, nothing fails and
the clock stands still. -/

def tokenText (n : Nat) : String := String.ofList (List.replicate (n + 1) 't')

def World.claims (w : World) (token : String) : Except String Uuid :=
  match w.bound.lookup token with
  | none => .error "unknown token"
  | some session => if session ∈ w.guardRevoked then .error "revoked" else .ok session

theorem World.claims_eq {w : World} {token : String} {session : Uuid} :
    w.claims token = .ok session ↔
      w.bound.lookup token = some session ∧ session ∉ w.guardRevoked := by
  unfold World.claims
  cases w.bound.lookup token with
  | none => simp
  | some bound =>
      by_cases hrevoked : bound ∈ w.guardRevoked
      · simp only [hrevoked, if_true]
        constructor
        · intro h
          cases h
        · rintro ⟨h, hnot⟩
          exact absurd (Option.some.inj h ▸ hrevoked) hnot
      · simp only [hrevoked, if_false]
        constructor
        · intro h
          obtain rfl := Except.ok.inj h
          exact ⟨rfl, hrevoked⟩
        · rintro ⟨h, -⟩
          rw [Option.some.inj h]

def serve (first : Nat) : Handler Shared World
  | .guard, w => (w.up, w)
  | .issueSessionToken _ _, w =>
      let n := w.bound.entries.length
      (.ok (tokenText n), { w with bound := w.bound.insert (tokenText n) (first + n) })
  | .validateToken token, w => (w.claims token, w)
  | .revokeSession id, w => (.ok (), { w with guardRevoked := id :: w.guardRevoked })
  | .now, w => (w.clock, w)
  | .fileNew session, w =>
      let id := ClawDB.World.fresh (w.born.map SessionContext.sessionId ++ w.removals)
      (id, { w with store := w.store.insert (session id).asContext
                    born := (session id).asContext :: w.born })
  | .insert ctx, w => ((), { w with store := w.store.insert ctx })
  | .get id, w => (w.store.get (timestamp w.clock) id, w)
  | .remove id, w =>
      (w.store.lookup id, { w with store := w.store.remove id, removals := id :: w.removals })
  | .idsForAgent agentId, w => (w.store.idsForAgent agentId, w)
  | .emit _, w => ((), w)

theorem serve_refines (first : Nat) : (serve first).Refines sem := by
  intro o w
  cases o with
  | issueSessionToken principal task => exact ⟨_, rfl⟩
  | revokeSession id => exact .inl rfl
  | fileNew session =>
      have hfresh := ClawDB.World.fresh_notMem (w.born.map SessionContext.sessionId ++ w.removals)
      refine ⟨fun ctx hctx heq => hfresh ?_, fun hid => hfresh ?_, rfl⟩
      · exact List.mem_append_left _ (List.mem_map.mpr ⟨ctx, hctx, heq⟩)
      · exact List.mem_append_right _ hid
  | get id => exact ⟨w.clock, rfl, rfl⟩
  | remove id => exact ⟨rfl, rfl⟩
  | idsForAgent agentId => exact ⟨List.Perm.refl _, rfl⟩
  | guard => exact ⟨rfl, rfl⟩
  | _ => exact rfl

theorem serve_answers (first : Nat) (o : Op) (w : World) :
    Answers o w (serve first o w).1 := by
  cases o with
  | validateToken token =>
      refine ⟨fun session h => ?_, fun session h hnot => ?_⟩
      · exact (World.claims_eq.mp h).1
      · exact World.claims_eq.mpr ⟨h, hnot⟩
  | _ => trivial

/-! ## What a call remembers -/

structure Memory where
  found : Option SessionContext := none
  seen : Option SessionContext := none
  filed : Option SessionContext := none
  removed : List Uuid := []

/-- The context a read returned. -/
def contextRead : Request → Reply → Option SessionContext
  | .getSession _, .context (.ok ctx) => some ctx
  | .validate _, .context (.ok ctx) => some ctx
  | _, _ => none

/-- The context of the session a call returned, new or refreshed. -/
def contextOpened : Request → Reply → Option SessionContext
  | .create .., .session (.ok session) => some session.asContext
  | .createSession .., .context (.ok ctx) => some ctx
  | .refresh _, .context (.ok ctx) => some ctx
  | _, _ => none

/-- The sessions a call has revoked, once it returned. -/
def idsRevoked : Request → Memory → List Uuid
  | .revoke id, _ => [id]
  | .invalidate id, _ => [id]
  | .revokeAllForAgent _, m => m.removed
  | _, _ => []

namespace Memory

def allowed (m : Memory) : Op → Prop
  | .insert ctx => ∃ ctx₀, m.seen = some ctx₀ ∧ ctx₀.Same ctx
  | .fileNew session => ∀ id, (session id).id = id
  | .revokeSession id => id ∈ m.removed
  | _ => True

def next (m : Memory) : (o : Op) → o.Ret → Memory
  | .get _, r => { m with found := Except.toOption r, seen := Except.toOption r }
  | .insert ctx, _ => { m with found := none, filed := some ctx }
  | .fileNew session, id => { m with found := none, filed := some (session id).asContext }
  | .remove id, _ => { m with found := none, removed := id :: m.removed }
  | _, _ => { m with found := none }

structure Post (req : Request) (m : Memory) (rep : Reply) : Prop where
  read : ∀ ctx, contextRead req rep = some ctx → m.found = some ctx
  opened : ∀ ctx, contextOpened req rep = some ctx → m.filed = some ctx
  revoked : ∀ id ∈ idsRevoked req m, id ∈ m.removed

end Memory

def monitor : Monitor Shared Request Reply Memory where
  init _ := {}
  allowed _ := Memory.allowed
  next := Memory.next
  post := Memory.Post

/-! ## Every call keeps to the monitor -/

abbrev protocol : Protocol Shared Memory := ⟨Memory.allowed, Memory.next⟩

section Conforms

variable {m : Memory}

theorem wp_ask {o : Op} {Q : Memory → o.Ret → Prop} (ho : m.allowed o)
    (h : ∀ r, Q (m.next o r) r) : (ask o).wp protocol Q m :=
  ⟨ho, h⟩

theorem returns_of {α : Type} {p : Prog Shared (Except String α)} {e : String → SessionError}
    {Q : Memory → Prop} (h : p.wp protocol (fun m' _ => Q m') m) :
    Try.Returns protocol (fun m' _ => Q m') (Try.of p e) m := by
  show (Try.of p e).run.wp protocol _ m
  rw [Try.wp_of]
  exact wp_mono (fun m' r hm a _ => hm) h

theorem returns_guard : Try.Returns protocol (fun m' _ => m'.seen = m.seen) guard m := by
  refine Try.returns_lift trivial fun started => ?_
  cases started with
  | true => exact Try.returns_pure rfl
  | false => exact Try.returns_throw

theorem returns_issueSessionToken {principal task : String} :
    Try.Returns protocol (fun m' _ => m'.seen = m.seen) (issueSessionToken principal task) m :=
  returns_of (wp_ask trivial fun _ => rfl)

theorem returns_get {sessionId : Uuid} :
    Try.Returns protocol (fun m' ctx => m'.found = some ctx ∧ m'.seen = some ctx)
      (storeGet sessionId) m := by
  show (Try.of _ _).run.wp protocol _ m
  rw [Try.wp_of]
  refine wp_ask trivial fun r => ?_
  intro ctx h
  cases r with
  | error e => cases h
  | ok found =>
      obtain rfl := Except.ok.inj h
      exact ⟨rfl, rfl⟩

theorem returns_validate {guardToken : String} :
    Try.Returns protocol (fun m' ctx => m'.found = some ctx) (validate guardToken) m := by
  refine returns_guard.bind fun m _ _ => ?_
  have hclaims : Try.Returns protocol (fun _ _ => True)
      (Try.of (ask (.validateToken guardToken)) SessionError.guard) m :=
    returns_of (wp_ask trivial fun _ => trivial)
  refine hclaims.bind fun m sessionId _ => ?_
  exact wp_mono (fun m' r h ctx hctx => (h ctx hctx).1) returns_get

section Programs

variable [Crates] {workspaceId : Uuid}

theorem returns_create {agentId : Uuid} {role : String} {scopes : List String}
    {taskType : Option String} :
    Try.Returns protocol (fun m' session => m'.filed = some session.asContext)
      (create workspaceId agentId role scopes taskType) m := by
  refine returns_guard.bind fun m _ _ => ?_
  refine returns_issueSessionToken.bind fun m guardToken _ => ?_
  refine Try.returns_lift trivial fun now => ?_
  refine Try.returns_lift (fun id => rfl) fun id => ?_
  exact Try.returns_lift trivial fun _ => Try.returns_pure rfl

theorem returns_createSession {agentId : Uuid} {role : String} {scopes : List String}
    {taskType : String} :
    Try.Returns protocol (fun m' ctx => m'.filed = some ctx)
      (createSession workspaceId agentId role scopes taskType) m :=
  returns_create.bind fun _ _ h => Try.returns_pure h

theorem returns_refresh {sessionId : Uuid} :
    Try.Returns protocol (fun m' ctx => m'.filed = some ctx) (refresh sessionId) m := by
  refine returns_get.bind fun m existing hread => ?_
  refine returns_guard.bind fun m₁ _ hseen₁ => ?_
  refine returns_issueSessionToken.bind fun m₂ newToken hseen₂ => ?_
  refine Try.returns_lift trivial fun now => ?_
  have hseen : m₂.seen = some existing := hseen₂.trans (hseen₁.trans hread.2)
  refine Try.returns_lift ⟨existing, hseen, rfl, rfl, rfl, rfl⟩ fun _ => ?_
  exact Try.returns_pure rfl

end Programs

/-- The call has had the session removed, whatever it returns, and has forgotten no removal. -/
theorem wp_revoke {sessionId : Uuid} :
    (revoke sessionId).run.wp protocol
      (fun m' _ => m'.removed = sessionId :: m.removed) m := by
  refine ⟨trivial, fun r => ?_⟩
  cases r with
  | none => exact rfl
  | some ctx =>
      refine ⟨trivial, fun started => ?_⟩
      cases started with
      | false => exact ⟨trivial, fun _ => rfl⟩
      | true => exact ⟨List.mem_cons_self, fun _ => ⟨trivial, fun _ => rfl⟩⟩

theorem wp_revokeEach {ids : List Uuid} {count : UInt32} :
    (revokeEach ids count).wp protocol (fun _ _ => True) m := by
  induction ids generalizing count m with
  | nil => trivial
  | cons sessionId ids ih =>
      show ((revoke sessionId).run >>= _).wp protocol _ m
      rw [wp_bind]
      refine wp_mono (fun m r _ => ?_) wp_revoke
      cases r with
      | error e => exact ih
      | ok u => exact ih

theorem wp_map {α β : Type} {Q : Memory → β → Prop} {f : α → β} {p : Prog Shared α}
    (h : p.wp protocol (fun m a => Q m (f a)) m) : (f <$> p).wp protocol Q m := by
  rw [← bind_pure_comp, wp_bind]
  exact h

/-- A call that removes nothing, and what it reads or opens. -/
theorem wp_reply {α : Type} {req : Request} {f : Except SessionError α → Reply} {x : Call α}
    {Q : Memory → α → Prop} (hx : Try.Returns protocol Q x m)
    (hread : ∀ m a ctx, Q m a → contextRead req (f (.ok a)) = some ctx → m.found = some ctx)
    (hopened : ∀ m a ctx, Q m a → contextOpened req (f (.ok a)) = some ctx →
      m.filed = some ctx)
    (herror : ∀ e, contextRead req (f (.error e)) = none ∧
      contextOpened req (f (.error e)) = none)
    (hrevoked : ∀ m, idsRevoked req m = []) :
    (f <$> x.run).wp protocol (Memory.Post req) m := by
  refine wp_map (wp_mono (fun m r h => ?_) hx)
  have hids : ∀ id ∈ idsRevoked req m, id ∈ m.removed := by
    intro id hid
    rw [hrevoked] at hid
    cases hid
  cases r with
  | ok a => exact ⟨fun ctx => hread m a ctx (h a rfl), fun ctx => hopened m a ctx (h a rfl), hids⟩
  | error e =>
      refine ⟨fun ctx hctx => ?_, fun ctx hctx => ?_, hids⟩
      · rw [(herror e).1] at hctx
        cases hctx
      · rw [(herror e).2] at hctx
        cases hctx

theorem conforms [Crates] {workspaceId : Uuid} : Conforms (server workspaceId) monitor := by
  have hread : ∀ (m : Memory) (found ctx : SessionContext), m.found = some found →
      some found = some ctx → m.found = some ctx := fun _ _ _ h he => h.trans he
  have hopened : ∀ (m : Memory) (filed ctx : SessionContext), m.filed = some filed →
      some filed = some ctx → m.filed = some ctx := fun _ _ _ h he => h.trans he
  have hnone : ∀ (m : Memory) (o : Option SessionContext) (ctx : SessionContext),
      none = some ctx → o = some ctx := fun _ _ _ h => nomatch h
  intro req _
  cases req with
  | create agentId role scopes taskType =>
      exact wp_reply returns_create (fun m _ ctx _ => hnone m _ ctx)
        (fun m session ctx h => hopened m session.asContext ctx h) (fun _ => ⟨rfl, rfl⟩)
        fun _ => rfl
  | createSession agentId role scopes taskType =>
      exact wp_reply returns_createSession (fun m _ ctx _ => hnone m _ ctx) hopened
        (fun _ => ⟨rfl, rfl⟩) fun _ => rfl
  | validate guardToken =>
      exact wp_reply returns_validate hread (fun m _ ctx _ => hnone m _ ctx)
        (fun _ => ⟨rfl, rfl⟩) fun _ => rfl
  | refresh sessionId =>
      exact wp_reply returns_refresh (fun m _ ctx _ => hnone m _ ctx) hopened
        (fun _ => ⟨rfl, rfl⟩) fun _ => rfl
  | getSession sessionId =>
      exact wp_reply returns_get (fun m found ctx h => hread m found ctx h.1)
        (fun m _ ctx _ => hnone m _ ctx) (fun _ => ⟨rfl, rfl⟩) fun _ => rfl
  | revoke sessionId =>
      refine wp_map (wp_mono (fun m r h => ?_) wp_revoke)
      refine ⟨fun ctx hctx => (nomatch hctx), fun ctx hctx => (nomatch hctx), fun id hid => ?_⟩
      rw [h, List.mem_singleton.mp hid]
      exact List.mem_cons_self
  | revokeAllForAgent agentId =>
      refine wp_map (wp_bind.mpr (wp_ask trivial fun ids => ?_))
      refine wp_mono (fun m n _ => ?_) wp_revokeEach
      exact ⟨fun ctx hctx => (nomatch hctx), fun ctx hctx => (nomatch hctx), fun id hid => hid⟩
  | invalidate sessionId =>
      refine wp_map (wp_bind.mpr (wp_ask trivial fun found => ?_))
      refine ⟨fun ctx hctx => (nomatch hctx), fun ctx hctx => (nomatch hctx), fun id hid => ?_⟩
      rw [List.mem_singleton.mp hid]
      exact List.mem_cons_self

end Conforms

end ClawDB.Session
