/-
# `Lib.Among` — one call in the middle of others

`Exec` runs a program on components that nobody else touches.  Here they are shared: before
each operation of the program, others may perform any number of theirs.  A `Turn` is one
operation of the program with what the others did before it, so that the turns of a run are
all that happened in it, in order.

What the others may do can depend on what the program has done so far, its `past`: what it
was handed for itself, nobody else can use.
-/
import ClawDB.Lib.Trace

namespace Effect

namespace Prog

variable {F : Sig} {α β σ : Type}

/-- Exchanges one after the other, whoever's they are. -/
inductive Course (R : Rel F σ) : σ → List (Exchange F) → σ → Prop where
  | nil (s : σ) : Course R s [] s
  | cons {o : F.Op} {r : F.Ret o} {s s' s'' : σ} {evs : List (Exchange F)} :
      R o s r s' → Course R s' evs s'' → Course R s (⟨o, r⟩ :: evs) s''

/-- One operation of a program, and what others did before it. -/
structure Turn (F : Sig) where
  others : List (Exchange F)
  own : Exchange F

/-- One complete run of a program among others, which do what `other` lets them. -/
inductive Among (R : Rel F σ) (other : List (Exchange F) → Exchange F → Prop) :
    List (Exchange F) → Prog F α → σ → List (Turn F) → α → σ → Prop where
  | pure (past : List (Exchange F)) (a : α) (s : σ) : Among R other past (.pure a) s [] a s
  | op {past evs : List (Exchange F)} {o : F.Op} {k : F.Ret o → Prog F α} {s s₁ s₂ s' : σ}
      {r : F.Ret o} {turns : List (Turn F)} {a : α} :
      (∀ ev ∈ evs, other past ev) → Course R s evs s₁ → R o s₁ r s₂ →
      Among R other (past ++ [⟨o, r⟩]) (k r) s₂ turns a s' →
      Among R other past (.op o k) s (⟨evs, ⟨o, r⟩⟩ :: turns) a s'

variable {R : Rel F σ} {other : List (Exchange F) → Exchange F → Prop} {past : List (Exchange F)}
  {s s' s'' : σ} {evs : List (Exchange F)} {turns : List (Turn F)}

theorem among_pure {a b : α} :
    Among R other past (.pure a : Prog F α) s turns b s' ↔ turns = [] ∧ b = a ∧ s' = s := by
  constructor
  · intro h; cases h; exact ⟨rfl, rfl, rfl⟩
  · rintro ⟨rfl, rfl, rfl⟩; exact .pure ..

theorem among_op {o : F.Op} {k : F.Ret o → Prog F α} {a : α} :
    Among R other past (.op o k) s turns a s' ↔ ∃ evs r rest s₁ s₂, turns = ⟨evs, ⟨o, r⟩⟩ :: rest ∧
      (∀ ev ∈ evs, other past ev) ∧ Course R s evs s₁ ∧ R o s₁ r s₂ ∧
      Among R other (past ++ [⟨o, r⟩]) (k r) s₂ rest a s' := by
  constructor
  · intro h
    cases h with
    | op hothers hevs hr hk => exact ⟨_, _, _, _, _, rfl, hothers, hevs, hr, hk⟩
  · rintro ⟨evs, r, rest, s₁, s₂, rfl, hothers, hevs, hr, hk⟩
    exact .op hothers hevs hr hk

/-- The turns of a sequence. -/
theorem among_bind {p : Prog F α} {f : α → Prog F β} {b : β} :
    Among R other past (p >>= f) s turns b s'' ↔ ∃ first rest a s', turns = first ++ rest ∧
      Among R other past p s first a s' ∧
      Among R other (past ++ first.map Turn.own) (f a) s' rest b s'' := by
  induction p generalizing past s turns with
  | pure a =>
      constructor
      · intro h
        refine ⟨[], turns, a, s, rfl, .pure .., ?_⟩
        rw [List.map_nil, List.append_nil]
        exact h
      · rintro ⟨first, rest, a', s', rfl, hp, hf⟩
        obtain ⟨rfl, rfl, rfl⟩ := among_pure.mp hp
        rw [List.map_nil, List.append_nil] at hf
        exact hf
  | op o k ih =>
      rw [op_bind, among_op]
      constructor
      · rintro ⟨evs, r, turns, s₁, s₂, rfl, hothers, hevs, hr, h⟩
        obtain ⟨first, rest, a, s', rfl, hk, hf⟩ := (ih r).mp h
        refine ⟨⟨evs, ⟨o, r⟩⟩ :: first, rest, a, s', rfl, .op hothers hevs hr hk, ?_⟩
        rw [List.append_assoc] at hf
        exact hf
      · rintro ⟨first, rest, a, s', rfl, hp, hf⟩
        obtain ⟨evs, r, first, s₁, s₂, rfl, hothers, hevs, hr, hk⟩ := among_op.mp hp
        rw [List.map_cons, ← List.singleton_append, ← List.append_assoc] at hf
        exact ⟨evs, r, first ++ rest, s₁, s₂, rfl, hothers, hevs, hr,
          (ih r).mpr ⟨first, rest, a, s', rfl, hk, hf⟩⟩

/-- A run on its own is one among others that do nothing. -/
theorem ExecTrace.among {p : Prog F α} {a : α} (h : ExecTrace R p s evs a s')
    (other : List (Exchange F) → Exchange F → Prop) (past : List (Exchange F)) :
    Among R other past p s (evs.map (Turn.mk [])) a s' := by
  induction h generalizing past with
  | pure a s => exact .pure ..
  | op hr _ ih => exact .op (fun ev hev => nomatch hev) (.nil _) hr (ih _)

end Prog

end Effect
