/-
# `Lib.Trace` — the events of an execution

`ExecTrace` is `Exec` with the operations and replies of the execution written down, in order.
Every execution has its trace, and the trace of a sequence is the two traces one after the
other; that is all a proof about the order of events needs.
-/
import ClawDB.Lib.Prog

namespace Effect

/-- An operation with the reply it got. -/
abbrev Exchange (F : Sig) := (o : F.Op) × F.Ret o

namespace Prog

variable {F : Sig} {α β σ : Type}

/-- One complete execution of a program, with its events. -/
inductive ExecTrace (R : Rel F σ) : Prog F α → σ → List (Exchange F) → α → σ → Prop where
  | pure (a : α) (s : σ) : ExecTrace R (.pure a) s [] a s
  | op {o : F.Op} {k : F.Ret o → Prog F α} {s s' s'' : σ} {r : F.Ret o} {a : α}
      {evs : List (Exchange F)} :
      R o s r s' → ExecTrace R (k r) s' evs a s'' → ExecTrace R (.op o k) s (⟨o, r⟩ :: evs) a s''

variable {R : Rel F σ} {s s' s'' : σ} {evs : List (Exchange F)}

theorem Exec.traced {p : Prog F α} {a : α} (h : Exec R p s a s') :
    ∃ evs, ExecTrace R p s evs a s' := by
  induction h with
  | pure a s => exact ⟨[], .pure a s⟩
  | op hr _ ih =>
      obtain ⟨evs, h⟩ := ih
      exact ⟨_, .op hr h⟩

theorem ExecTrace.exec {p : Prog F α} {a : α} (h : ExecTrace R p s evs a s') : Exec R p s a s' := by
  induction h with
  | pure a s => exact .pure a s
  | op hr _ ih => exact .op hr ih

@[simp] theorem traced_pure {a b : α} :
    ExecTrace R (.pure a : Prog F α) s evs b s' ↔ evs = [] ∧ b = a ∧ s' = s := by
  constructor
  · intro h; cases h; exact ⟨rfl, rfl, rfl⟩
  · rintro ⟨rfl, rfl, rfl⟩; exact .pure ..

theorem traced_op {o : F.Op} {k : F.Ret o → Prog F α} {a : α} :
    ExecTrace R (.op o k) s evs a s'' ↔
      ∃ r s' rest, evs = ⟨o, r⟩ :: rest ∧ R o s r s' ∧ ExecTrace R (k r) s' rest a s'' := by
  constructor
  · intro h
    cases h with
    | op hr hk => exact ⟨_, _, _, rfl, hr, hk⟩
  · rintro ⟨r, s', rest, rfl, hr, hk⟩; exact .op hr hk

/-- The events of a sequence. -/
theorem traced_bind {p : Prog F α} {f : α → Prog F β} {b : β} :
    ExecTrace R (p >>= f) s evs b s'' ↔ ∃ first rest a s', evs = first ++ rest ∧
      ExecTrace R p s first a s' ∧ ExecTrace R (f a) s' rest b s'' := by
  induction p generalizing s evs with
  | pure a =>
      constructor
      · intro h; exact ⟨[], evs, a, s, rfl, .pure .., h⟩
      · rintro ⟨first, rest, a', s', rfl, hp, hf⟩
        obtain ⟨rfl, rfl, rfl⟩ := traced_pure.mp hp
        exact hf
  | op o k ih =>
      rw [op_bind, traced_op]
      constructor
      · rintro ⟨r, s₁, evs, rfl, hr, h⟩
        obtain ⟨first, rest, a, s', rfl, hk, hf⟩ := ih r |>.mp h
        exact ⟨⟨o, r⟩ :: first, rest, a, s', rfl, .op hr hk, hf⟩
      · rintro ⟨first, rest, a, s', rfl, hp, hf⟩
        obtain ⟨r, s₁, first, rfl, hr, hk⟩ := traced_op.mp hp
        exact ⟨r, s₁, first ++ rest, rfl, hr, ih r |>.mpr ⟨first, rest, a, s', rfl, hk, hf⟩⟩

theorem traced_perform {o : F.Op} {r : F.Ret o} :
    ExecTrace R (perform o) s evs r s' ↔ evs = [⟨o, r⟩] ∧ R o s r s' := by
  unfold perform
  rw [traced_op]
  constructor
  · rintro ⟨r', s₁, rest, rfl, hr, hk⟩
    obtain ⟨rfl, rfl, rfl⟩ := traced_pure.mp hk
    exact ⟨rfl, hr⟩
  · rintro ⟨rfl, hr⟩
    exact ⟨r, s', [], rfl, hr, .pure ..⟩

theorem traced_map {p : Prog F α} {f : α → β} {b : β} :
    ExecTrace R (f <$> p) s evs b s' ↔ ∃ a, ExecTrace R p s evs a s' ∧ b = f a := by
  rw [← bind_pure_comp, traced_bind]
  constructor
  · rintro ⟨first, rest, a, s₁, rfl, hp, hf⟩
    obtain ⟨rfl, rfl, rfl⟩ := traced_pure.mp hf
    exact ⟨a, by rwa [List.append_nil], rfl⟩
  · rintro ⟨a, hp, rfl⟩
    exact ⟨evs, [], a, s', (List.append_nil _).symm, hp, .pure ..⟩

/-- The operations of an execution are operations of the program. -/
theorem ExecTrace.within {P : F.Op → Prop} {p : Prog F α} {a : α} (h : ExecTrace R p s evs a s')
    (hp : p.Within P) : ∀ ev ∈ evs, P ev.1 := by
  induction h with
  | pure a s => intro ev hev; cases hev
  | @op o k s s' s'' r a evs hr _ ih =>
      intro ev hev
      rcases List.mem_cons.mp hev with rfl | hev
      · exact hp.1
      · exact ih (hp.2 r) ev hev

/-- The relation that a handler is. -/
def Handler.rel (h : Handler F σ) : Rel F σ := fun o s r s' => r = (h o s).1 ∧ s' = (h o s).2

/-- The events of a run against a handler. -/
def events (h : Handler F σ) : Prog F α → σ → List (Exchange F)
  | .pure _, _ => []
  | .op o k, s => ⟨o, (h o s).1⟩ :: (k (h o s).1).events h (h o s).2

theorem traced_events (h : Handler F σ) (p : Prog F α) (s : σ) :
    ExecTrace h.rel p s (p.events h s) (p.run h s).1 (p.run h s).2 := by
  induction p generalizing s with
  | pure a => exact .pure ..
  | op o k ih => exact .op ⟨rfl, rfl⟩ (ih _ _)

/-- What a run against a handler is told, the handler replied in some state. -/
theorem reply_of_mem_events {h : Handler F σ} {p : Prog F α} {ev : Exchange F}
    (hev : ev ∈ p.events h s) : ∃ s', ev.2 = (h ev.1 s').1 := by
  induction p generalizing s with
  | pure a => cases hev
  | op o k ih =>
      rcases List.mem_cons.mp hev with rfl | hev
      · exact ⟨s, rfl⟩
      · exact ih _ hev

/-- No operation of a run against a handler has to wait. -/
def steady (ready : F.Op → σ → Bool) (h : Handler F σ) : Prog F α → σ → Bool
  | .pure _, _ => true
  | .op o k, s => ready o s && (k (h o s).1).steady ready h (h o s).2

/-- Such a run is one of the executions, for a handler that is right where it is ready. -/
theorem traced_steady {ready : F.Op → σ → Bool} {h : Handler F σ}
    (hR : ∀ o s, ready o s = true → R o s (h o s).1 (h o s).2) {p : Prog F α}
    (hp : p.steady ready h s = true) : ExecTrace R p s (p.events h s) (p.run h s).1 (p.run h s).2 := by
  induction p generalizing s with
  | pure a => exact .pure ..
  | op o k ih =>
      obtain ⟨ho, hk⟩ := Bool.and_eq_true_iff.mp hp
      exact .op (hR o s ho) (ih _ hk)

/-! ## The history as a memory -/

/-- The protocol that remembers every event. -/
def recorded (allowed : List (Exchange F) → F.Op → Prop) : Protocol F (List (Exchange F)) where
  allowed := allowed
  next evs o r := evs ++ [⟨o, r⟩]

/-- What `wp` says with the history for its memory holds at every event of an execution, and at
its end. -/
theorem ExecTrace.keeps {allowed : List (Exchange F) → F.Op → Prop} {p : Prog F α}
    {Q : List (Exchange F) → α → Prop} {past : List (Exchange F)} {a : α}
    (h : ExecTrace R p s evs a s') (hp : p.wp (recorded allowed) Q past) :
    (∀ pre ev post, evs = pre ++ ev :: post → allowed (past ++ pre) ev.1) ∧ Q (past ++ evs) a := by
  induction h generalizing past with
  | pure a s =>
      refine ⟨fun pre ev post h => absurd h (by simp), ?_⟩
      rw [List.append_nil]
      exact hp
  | @op o k s s' s'' r a evs hr _ ih =>
      obtain ⟨hallowed, hend⟩ := ih (hp.2 r)
      constructor
      · intro pre ev post hsplit
        cases pre with
        | nil =>
            obtain ⟨rfl, -⟩ := List.cons.inj hsplit
            rw [List.append_nil]
            exact hp.1
        | cons first pre =>
            obtain ⟨rfl, hrest⟩ := List.cons.inj hsplit
            have hev := hallowed pre ev post hrest
            rwa [recorded, List.append_assoc] at hev
      · rwa [recorded, List.append_assoc] at hend

/-! ## Two lists in one -/

/-- Where an element of two lists put together stands. -/
theorem split_append {l₁ l₂ pre post : List α} {a : α} (h : l₁ ++ l₂ = pre ++ a :: post) :
    (∃ mid, l₁ = pre ++ a :: mid ∧ post = mid ++ l₂) ∨
      ∃ mid, pre = l₁ ++ mid ∧ l₂ = mid ++ a :: post := by
  rcases List.append_eq_append_iff.mp h with ⟨mid, hpre, hl₂⟩ | ⟨mid, hl₁, hpost⟩
  · exact .inr ⟨mid, hpre, hl₂⟩
  · cases mid with
    | nil => exact .inr ⟨[], by simpa using hl₁.symm, by simpa using hpost.symm⟩
    | cons b mid =>
        obtain ⟨rfl, rfl⟩ := List.cons.inj hpost
        exact .inl ⟨mid, hl₁, rfl⟩

end Prog

namespace Try

open Prog

variable {F : Sig} {α β ε ε' σ M : Type} {R : Rel F σ} {s s' : σ} {evs : List (Exchange F)}

/-- The events of a sequence of fallible programs: those of the first, if it fails. -/
theorem traced_bind {x : Try F ε α} {f : α → Try F ε β} {r : Except ε β}
    (h : ExecTrace R (x >>= f).run s evs r s') :
    (∃ e, ExecTrace R x.run s evs (.error e) s' ∧ r = .error e) ∨
      ∃ first rest a s₁, evs = first ++ rest ∧ ExecTrace R x.run s first (.ok a) s₁ ∧
        ExecTrace R (f a).run s₁ rest r s' := by
  rw [run_bind] at h
  obtain ⟨first, rest, a, s₁, rfl, hx, hf⟩ := Prog.traced_bind.mp h
  cases a with
  | ok a => exact .inr ⟨first, rest, a, s₁, rfl, hx, hf⟩
  | error e =>
      obtain ⟨rfl, rfl, rfl⟩ := traced_pure.mp hf
      rw [List.append_nil]
      exact .inl ⟨e, hx, rfl⟩

/-- A sequence that succeeds is one success after the other. -/
theorem traced_bind_ok {x : Try F ε α} {f : α → Try F ε β} {b : β}
    (h : ExecTrace R (x >>= f).run s evs (.ok b) s') : ∃ first rest a s₁, evs = first ++ rest ∧
      ExecTrace R x.run s first (.ok a) s₁ ∧ ExecTrace R (f a).run s₁ rest (.ok b) s' := by
  rcases traced_bind h with ⟨e, -, he⟩ | h
  · cases he
  · exact h

theorem traced_lift {p : Prog F α} {r : Except ε α} :
    ExecTrace R (lift p : Try F ε α).run s evs r s' ↔ ∃ a, ExecTrace R p s evs a s' ∧ r = .ok a := by
  rw [run_lift]
  exact Prog.traced_map

theorem traced_of {p : Prog F (Except ε' α)} {e : ε' → ε} {b : Except ε α} :
    ExecTrace R (of p e).run s evs b s' ↔ ∃ r, ExecTrace R p s evs r s' ∧ b = r.mapError e := by
  rw [run_of, Prog.traced_bind]
  constructor
  · rintro ⟨first, rest, r, s₁, rfl, hp, hb⟩
    obtain ⟨rfl, rfl, rfl⟩ := traced_pure.mp hb
    rw [List.append_nil]
    exact ⟨r, hp, rfl⟩
  · rintro ⟨r, hp, rfl⟩
    exact ⟨evs, [], r, s', (List.append_nil _).symm, hp, .pure ..⟩

theorem wp_lift_bind {P : Protocol F M} {p : Prog F α} {f : α → Try F ε β}
    {Q : M → Except ε β → Prop} {m : M} :
    (lift p >>= f).run.wp P Q m ↔ p.wp P (fun m' a => (f a).run.wp P Q m') m := by
  rw [wp_bind, wp_lift]

theorem wp_of_bind {P : Protocol F M} {p : Prog F (Except ε' α)} {e : ε' → ε}
    {f : α → Try F ε β} {Q : M → Except ε β → Prop} {m : M} :
    (of p e >>= f).run.wp P Q m ↔ p.wp P (fun m' => fun
      | .ok a => (f a).run.wp P Q m'
      | .error x => Q m' (.error (e x))) m := by
  rw [wp_bind, wp_of]
  constructor <;> refine fun h => wp_mono (fun m' r hr => ?_) h <;> cases r <;> exact hr

theorem eval_lift_bind (h : Handler F σ) (p : Prog F α) (f : α → Try F ε β) (s : σ) :
    (lift p >>= f).eval h s = (f (p.run h s).1).eval h (p.run h s).2 := by
  unfold eval
  rw [run_bind, run_lift, Prog.run_bind, Prog.run_bind]
  rfl

theorem eval_of_bind (h : Handler F σ) (p : Prog F (Except ε' α)) (e : ε' → ε) (f : α → Try F ε β)
    (s : σ) : (of p e >>= f).eval h s =
      match p.run h s with
      | (.ok a, s') => (f a).eval h s'
      | (.error x, s') => (.error (e x), s') := by
  unfold eval
  rw [run_bind, run_of, Prog.run_bind, Prog.run_bind]
  cases p.run h s with
  | mk r s' => cases r <;> rfl

end Try

end Effect
