/-
# `Session.Purge` — counting what a purge removed, while others use the store

`purge_expired` of `session/store.rs`.  The store is cheap to clone and its map is shared, so
that between two accesses of a purge other holders may insert, remove, or purge themselves.
The purge does not count what its `retain` removes: it reads how many sessions there are before
and after, and takes the difference.

The difference is the number removed just when the others, between the two readings, brought
in as many sessions as they took out (`purge_count_iff`).  When they brought in more than were
removed altogether, the second reading exceeds the first and the subtraction underflows.
-/
import ClawDB.Lib.Among
import ClawDB.Session.Store
import Mathlib.Algebra.GroupWithZero.Nat

namespace ClawDB.Session

open Effect
open Effect.Prog (Turn Course Among)

/-! ## The store -/

namespace SessionStore

/-- How many sessions there are, expired ones included. -/
def len (store : SessionStore) : Nat := store.entries.length

/-- Keeps the sessions that expire after `now`. -/
def retain (store : SessionStore) (now : Int) : SessionStore :=
  ⟨store.entries.filter fun e => e.2.isValid now, store.nodupKeys.sublist List.filter_sublist⟩

/-- The sessions that `retain` drops. -/
def expired (store : SessionStore) (now : Int) : List SessionContext :=
  (store.entries.filter fun e => !e.2.isValid now).map Sigma.snd

variable {store : SessionStore} {ctx : SessionContext} {now : Int}

theorem of_expired (h : ctx ∈ store.expired now) : ctx.isValid now = false := by
  obtain ⟨e, he, rfl⟩ := List.mem_map.mp h
  have hfiltered : (!e.2.isValid now) = true := (List.mem_filter.mp he).2
  simpa using hfiltered

theorem len_retain : (store.retain now).len + (store.expired now).length = store.len := by
  show (List.filter _ store.entries).length + (List.map _ _).length = store.entries.length
  rw [List.length_map]
  exact (List.length_eq_length_filter_add _).symm

/-- A session that was there is one less without it. -/
theorem len_remove (store : SessionStore) (id : Uuid) :
    (store.remove id).len + (store.lookup id).toList.length = store.len := by
  show (List.kerase id store.entries).length + _ = store.entries.length
  cases h : store.lookup id with
  | none =>
      have hid : id ∉ store.entries.keys := AList.lookup_eq_none.mp h
      rw [List.kerase_of_notMem_keys hid]
      rfl
  | some ctx =>
      have hid : id ∈ store.entries.keys := AList.lookup_isSome.mp (h ▸ rfl)
      obtain ⟨b, l₁, l₂, -, hl, hk⟩ := List.exists_of_kerase hid
      rw [hk, hl]
      simp only [List.length_append, List.length_cons, Option.toList_some, List.length_nil]
      omega

/-- An insertion puts one session in the place of those it finds under the id. -/
theorem len_insert (store : SessionStore) (ctx : SessionContext) :
    (store.insert ctx).len + (store.lookup ctx.sessionId).toList.length = store.len + 1 := by
  have hlen : (store.insert ctx).len = (store.remove ctx.sessionId).len + 1 := by
    show (AList.insert ctx.sessionId ctx store).entries.length = _
    rw [AList.entries_insert]
    rfl
  have hremove := len_remove store ctx.sessionId
  omega

end SessionStore

/-! ## Operations -/

namespace Purge

inductive Op where
  | now
  | len
  | retain (now : Int)
  | insert (ctx : SessionContext)
  | remove (id : Uuid)

/-- `insert` and `remove` return what they found under the id.  What `retain` dropped is the
proof's own: the code is not told. -/
@[reducible] def Op.Ret : Op → Type
  | .now => Int
  | .len => Nat
  | .retain _ => List SessionContext
  | .insert _ => Option SessionContext
  | .remove _ => Option SessionContext

abbrev Shared : Effect.Sig := ⟨Op, Op.Ret⟩

def sem : Prog.Rel Shared SessionStore
  | .now, w => fun _ w' => w' = w
  | .len, w => fun n w' => n = w.len ∧ w' = w
  | .retain now, w => fun dropped w' => dropped.Perm (w.expired now) ∧ w' = w.retain now
  | .insert ctx, w => fun old w' => old = w.lookup ctx.sessionId ∧ w' = w.insert ctx
  | .remove id, w => fun found w' => found = w.lookup id ∧ w' = w.remove id

/-- Subtraction of lengths: an underflow is a panic, `none`, where overflow checks are compiled
in, and wraps around where they are not. -/
def subLen (checks : Bool) (a b : Nat) : Option Nat :=
  if b ≤ a then some (a - b)
  else if checks then none
  else some ((2 ^ 64 + a - b) % 2 ^ 64)

/-- `SessionStore::purge_expired` -/
def purgeExpired (checks : Bool) : Prog Shared (Option Nat) := do
  let now ← Prog.perform (F := Shared) .now
  let before ← Prog.perform (F := Shared) .len
  let _ ← Prog.perform (F := Shared) (.retain now)
  let after ← Prog.perform (F := Shared) .len
  pure (subLen checks before after)

/-! ## What the others bring in and take out -/

/-- Sessions under an id that had none. -/
def Turnover.added : Exchange Shared → Nat
  | ⟨.insert _, old⟩ => if old.isNone then 1 else 0
  | _ => 0

/-- Sessions that are gone. -/
def Turnover.taken : Exchange Shared → Nat
  | ⟨.remove _, found⟩ => found.toList.length
  | ⟨.retain _, dropped⟩ => dropped.length
  | _ => 0

/-- How many sessions some exchanges brought in. -/
def added (evs : List (Exchange Shared)) : Nat := (evs.map Turnover.added).sum

/-- How many sessions some exchanges took out. -/
def taken (evs : List (Exchange Shared)) : Nat := (evs.map Turnover.taken).sum

theorem added_append (evs evs' : List (Exchange Shared)) :
    added (evs ++ evs') = added evs + added evs' := by
  unfold added
  rw [List.map_append, List.sum_append]

theorem taken_append (evs evs' : List (Exchange Shared)) :
    taken (evs ++ evs') = taken evs + taken evs' := by
  unfold taken
  rw [List.map_append, List.sum_append]

/-- The books of one exchange balance. -/
theorem sem_len {o : Op} {r : o.Ret} {w w' : SessionStore} (h : sem o w r w') :
    w'.len + Turnover.taken ⟨o, r⟩ = w.len + Turnover.added ⟨o, r⟩ := by
  cases o with
  | now => obtain rfl := h; rfl
  | len => obtain ⟨-, rfl⟩ := h; rfl
  | retain now =>
      obtain ⟨hdropped, rfl⟩ := h
      show (w.retain now).len + r.length = w.len + 0
      rw [hdropped.length_eq]
      exact SessionStore.len_retain
  | remove id =>
      obtain ⟨rfl, rfl⟩ := h
      exact SessionStore.len_remove _ _
  | insert ctx =>
      obtain ⟨rfl, rfl⟩ := h
      have hlen := SessionStore.len_insert w ctx
      show (w.insert ctx).len + 0 =
        w.len + if (w.lookup ctx.sessionId).isNone = true then 1 else 0
      cases hold : w.lookup ctx.sessionId with
      | none => rw [hold] at hlen; simpa using hlen
      | some old => rw [hold] at hlen; simpa using hlen

/-- So do those of a course of exchanges. -/
theorem course_len {w w' : SessionStore} {evs : List (Exchange Shared)}
    (h : Course sem w evs w') : w'.len + taken evs = w.len + added evs := by
  induction h with
  | nil w => rfl
  | @cons o r w w₁ w' evs hr _ ih =>
      have hone := sem_len hr
      show w'.len + (Turnover.taken ⟨o, r⟩ + taken evs) =
        w.len + (Turnover.added ⟨o, r⟩ + added evs)
      omega

theorem subLen_of_le {checks : Bool} {a b : Nat} (h : b ≤ a) : subLen checks a b = some (a - b) :=
  if_pos h

variable {other : List (Exchange Shared) → Exchange Shared → Prop} {checks : Bool}
  {store store' : SessionStore} {turns : List (Turn Shared)} {out : Option Nat}

/-- What a purge does, and how the two lengths it reads are related: what others did before
its `retain` and after it moves the second. -/
theorem purgeExpired_turns (h : Among sem other [] (purgeExpired checks) store turns out store') :
    ∃ (now : Int) (before : Nat) (removed : List SessionContext) (after : Nat)
      (others₀ others₁ others₂ others₃ : List (Exchange Shared)),
      turns = [⟨others₀, ⟨.now, now⟩⟩, ⟨others₁, ⟨.len, before⟩⟩,
        ⟨others₂, ⟨.retain now, removed⟩⟩, ⟨others₃, ⟨.len, after⟩⟩] ∧
      out = subLen checks before after ∧
      (∀ ctx ∈ removed, ctx.isValid now = false) ∧
      after + removed.length + taken (others₂ ++ others₃) =
        before + added (others₂ ++ others₃) := by
  obtain ⟨others₀, now, rest₀, s₀, s₀', rfl, -, -, -, h⟩ := Prog.among_op.mp h
  obtain ⟨others₁, before, rest₁, s₁, s₁', rfl, -, -, hbefore, h⟩ := Prog.among_op.mp h
  obtain ⟨others₂, removed, rest₂, s₂, s₂', rfl, -, hothers₂, hretain, h⟩ := Prog.among_op.mp h
  obtain ⟨others₃, after, rest₃, s₃, s₃', rfl, -, hothers₃, hafter, h⟩ := Prog.among_op.mp h
  obtain ⟨rfl, rfl, -⟩ := Prog.among_pure.mp h
  obtain ⟨rfl, rfl⟩ := hbefore
  obtain ⟨rfl, rfl⟩ := hafter
  refine ⟨now, s₁'.len, removed, s₃'.len, others₀, others₁, others₂, others₃, rfl, rfl, ?_, ?_⟩
  · intro ctx hctx
    exact SessionStore.of_expired (hretain.1.mem_iff.mp hctx)
  · have hdropped : s₂'.len + removed.length = s₂.len + 0 := sem_len (o := .retain now) hretain
    have hgap₂ : s₂.len + taken others₂ = s₁'.len + added others₂ := course_len hothers₂
    have hgap₃ : s₃'.len + taken others₃ = s₂'.len + added others₃ := course_len hothers₃
    rw [taken_append, added_append]
    omega

/-- The difference of the two lengths does not underflow and is the number of expired sessions
that the purge's `retain` removed, just when the others, between the two readings, brought in
as many sessions as they took out. -/
theorem purge_count_iff (h : Among sem other [] (purgeExpired checks) store turns out store') :
    ∃ (now : Int) (before : Nat) (removed : List SessionContext) (after : Nat)
      (others₀ others₁ others₂ others₃ : List (Exchange Shared)),
      turns = [⟨others₀, ⟨.now, now⟩⟩, ⟨others₁, ⟨.len, before⟩⟩,
        ⟨others₂, ⟨.retain now, removed⟩⟩, ⟨others₃, ⟨.len, after⟩⟩] ∧
      (∀ ctx ∈ removed, ctx.isValid now = false) ∧
      ((after ≤ before ∧ out = some removed.length) ↔
        added (others₂ ++ others₃) = taken (others₂ ++ others₃)) := by
  obtain ⟨now, before, removed, after, others₀, others₁, others₂, others₃, hturns, rfl, hexpired,
    hbooks⟩ := purgeExpired_turns h
  refine ⟨now, before, removed, after, others₀, others₁, others₂, others₃, hturns, hexpired, ?_⟩
  constructor
  · rintro ⟨hle, hout⟩
    rw [subLen_of_le hle] at hout
    have hdiff : before - after = removed.length := Option.some.inj hout
    omega
  · intro hquits
    have hle : after ≤ before := by omega
    have hdiff : before - after = removed.length := by omega
    exact ⟨hle, by rw [subLen_of_le hle, hdiff]⟩

/-! ## Two purges -/

/-- Clients that insert and remove. -/
def Clients (_ : List (Exchange Shared)) : Exchange Shared → Prop
  | ⟨.insert _, _⟩ => True
  | ⟨.remove _, _⟩ => True
  | _ => False

/-- A session that expires at second 10. -/
def session (id : Uuid) : SessionContext := ⟨id, 7, "token", "agent", [], "chat", 10⟩

/-- At second 20 a purge finds one expired session; while it is under way one client files a
new session, and takes it out again. -/
def traded : List (Turn Shared) :=
  [⟨[], ⟨.now, (20 : Int)⟩⟩, ⟨[], ⟨.len, (1 : Nat)⟩⟩,
    ⟨[⟨.insert (session 2), none⟩, ⟨.remove 2, some (session 2)⟩], ⟨.retain 20, [session 1]⟩⟩,
    ⟨[], ⟨.len, (0 : Nat)⟩⟩]

theorem traded_among : Among sem Clients [] (purgeExpired true)
    (SessionStore.insert ∅ (session 1)) traded (some 1)
    ((((SessionStore.insert ∅ (session 1)).insert (session 2)).remove 2).retain 20) := by
  refine .op (fun _ h => nomatch h) (.nil _) rfl ?_
  refine .op (fun _ h => nomatch h) (.nil _) ⟨rfl, rfl⟩ ?_
  refine .op (by simp [Clients]) (.cons ⟨rfl, rfl⟩ (.cons ⟨rfl, rfl⟩ (.nil _))) ⟨?_, rfl⟩ ?_
  · exact List.Perm.refl [session 1]
  · exact .op (fun _ h => nomatch h) (.nil _) ⟨rfl, rfl⟩ (.pure ..)

theorem purge_count_iff_traded : ∃ (now : Int) (before : Nat) (removed : List SessionContext)
      (after : Nat) (others₀ others₁ others₂ others₃ : List (Exchange Shared)),
    traded = [⟨others₀, ⟨.now, now⟩⟩, ⟨others₁, ⟨.len, before⟩⟩,
      ⟨others₂, ⟨.retain now, removed⟩⟩, ⟨others₃, ⟨.len, after⟩⟩] ∧
    (∀ ctx ∈ removed, ctx.isValid now = false) ∧
    ((after ≤ before ∧ some 1 = some removed.length) ↔
      added (others₂ ++ others₃) = taken (others₂ ++ others₃)) :=
  purge_count_iff traded_among

/-- A client files a session while an empty store is purged. -/
def filed : List (Turn Shared) :=
  [⟨[], ⟨.now, (20 : Int)⟩⟩, ⟨[], ⟨.len, (0 : Nat)⟩⟩, ⟨[], ⟨.retain 20, []⟩⟩,
    ⟨[⟨.insert (session 1), none⟩], ⟨.len, (1 : Nat)⟩⟩]

theorem filed_among (checks : Bool) : Among sem Clients [] (purgeExpired checks) ∅ filed
    (subLen checks 0 1) (SessionStore.insert (SessionStore.retain ∅ 20) (session 1)) := by
  refine .op (fun _ h => nomatch h) (.nil _) rfl ?_
  refine .op (fun _ h => nomatch h) (.nil _) ⟨rfl, rfl⟩ ?_
  refine .op (fun _ h => nomatch h) (.nil _) ⟨List.Perm.refl [], rfl⟩ ?_
  exact .op (by simp [Clients]) (.cons ⟨rfl, rfl⟩ (.nil _)) ⟨rfl, rfl⟩ (.pure ..)

/-- The second length exceeds the first, and the purge panics or returns `2 ^ 64 - 1`. -/
theorem purge_underflows : subLen true 0 1 = none ∧ subLen false 0 1 = some (2 ^ 64 - 1) ∧
    ¬∀ (checks : Bool) (store store' : SessionStore) (turns : List (Turn Shared))
      (out : Option Nat), Among sem Clients [] (purgeExpired checks) store turns out store' →
        ∃ (now : Int) (before : Nat) (removed : List SessionContext) (after : Nat)
          (others₀ others₁ others₂ others₃ : List (Exchange Shared)),
          turns = [⟨others₀, ⟨.now, now⟩⟩, ⟨others₁, ⟨.len, before⟩⟩,
            ⟨others₂, ⟨.retain now, removed⟩⟩, ⟨others₃, ⟨.len, after⟩⟩] ∧
          after ≤ before ∧ out = some removed.length := by
  refine ⟨by decide, by decide, fun hclaim => ?_⟩
  obtain ⟨now, before, removed, after, others₀, others₁, others₂, others₃, hturns, hle, -⟩ :=
    hclaim false ∅ _ filed _ (filed_among false)
  simp only [filed, List.cons.injEq, Turn.mk.injEq, Sigma.mk.injEq, heq_eq_eq, true_and,
    and_true] at hturns
  obtain ⟨-, ⟨-, rfl⟩, -, -, rfl⟩ := hturns
  exact absurd hle (by decide)

end Purge

end ClawDB.Session
