/-
# `Lib.Escrow` — entries taken out once, rows kept aside

Three facts about a store that is used by many parties at once.

* `Drawn`: keys that are drawn once belong to one party.
* `Entries`: a map in which an entry is begun under a name nobody used before, added
  to, and taken out.  What is taken out is what was added, in order, and nobody takes
  the same entry again.
* `Vault`: a table of rows with keys, and transactions in which rows are kept aside.  A
  party draws its keys itself and works in one transaction of its own; whatever the
  others do, the table holds the party's rows if it has committed, and none otherwise.

Each is an invariant, and one lemma for each thing that can happen to it.
-/
import Mathlib.Logic.Function.Basic
import Mathlib.Data.List.Nodup
import Mathlib.Data.List.Pairwise
import Mathlib.Data.List.Perm.Basic
import Mathlib.Tactic.Common

namespace Escrow

/-! ## Keys drawn once -/

section Drawn

variable {κ : Type} {used l : List κ} {ls : List (List κ)}

/-- The keys each party drew are in use, and are no other party's. -/
structure Drawn (used : List κ) (ls : List (List κ)) : Prop where
  used : ∀ l ∈ ls, ∀ k ∈ l, k ∈ used
  disjoint : ls.Pairwise List.Disjoint

namespace Drawn

theorem nil : Drawn used [] := ⟨fun _ hl => (nomatch hl), List.Pairwise.nil⟩

theorem perm {ls' : List (List κ)} (h : Drawn used ls) (hp : ls.Perm ls') : Drawn used ls' := by
  refine ⟨fun l hl => h.used l (hp.mem_iff.mpr hl), (hp.pairwise_iff ?_).mp h.disjoint⟩
  intro l l' hd k hk hk'
  exact hd hk' hk

theorem arrive (h : Drawn used ls) : Drawn used ([] :: ls) := by
  refine ⟨?_, List.pairwise_cons.mpr ⟨fun l _ => List.disjoint_nil_left l, h.disjoint⟩⟩
  intro l hl
  rcases List.mem_cons.mp hl with rfl | hl
  · intro k hk; cases hk
  · exact h.used l hl

theorem grow {used' : List κ} (h : Drawn used ls) (hu : ∀ k ∈ used, k ∈ used') :
    Drawn used' ls :=
  ⟨fun l hl k hk => hu k (h.used l hl k hk), h.disjoint⟩

theorem draw (h : Drawn used (l :: ls)) {k : κ} (hk : k ∉ used) :
    Drawn (k :: used) ((k :: l) :: ls) := by
  obtain ⟨hl, hls⟩ := List.pairwise_cons.mp h.disjoint
  refine ⟨?_, List.pairwise_cons.mpr ⟨?_, hls⟩⟩
  · intro l' hl' k' hk'
    rcases List.mem_cons.mp hl' with rfl | hl'
    · rcases List.mem_cons.mp hk' with rfl | hk'
      · exact List.mem_cons_self
      · exact List.mem_cons_of_mem _ (h.used l List.mem_cons_self k' hk')
    · exact List.mem_cons_of_mem _ (h.used l' (List.mem_cons_of_mem _ hl') k' hk')
  · intro l' hl'
    refine List.disjoint_cons_left.mpr ⟨fun hm => ?_, hl l' hl'⟩
    exact hk (h.used l' (List.mem_cons_of_mem _ hl') k hm)

/-- Two parties drew different keys. -/
theorem apart {α : Type} {f : α → List κ} {xs : List α} (h : Drawn used (xs.map f)) {x y : α}
    (hx : x ∈ xs) (hy : y ∈ xs) (hne : x ≠ y) : List.Disjoint (f x) (f y) := by
  have hpairs := List.pairwise_map.mp h.disjoint
  have : Std.Symm fun x y => List.Disjoint (f x) (f y) := ⟨fun _ _ hd _ hy hx => hd hx hy⟩
  exact hpairs.forall hx hy hne

theorem mem_used {α : Type} {f : α → List κ} {xs : List α} (h : Drawn used (xs.map f)) {x : α}
    (hx : x ∈ xs) {k : κ} (hk : k ∈ f x) : k ∈ used :=
  h.used _ (List.mem_map_of_mem hx) k hk

end Drawn

end Drawn

/-! ## Entries taken out once -/

section Entries

variable {κ α : Type}

/-- A map of open entries, what was added under each name, the names begun, and the
entries taken out. -/
structure Entries (κ α : Type) where
  map : κ → Option (List α)
  added : κ → List α
  begun : List κ
  taken : List (κ × List α)

namespace Entries

variable {e : Entries κ α}

structure Inv (e : Entries κ α) : Prop where
  /-- an open entry is what was added to it, and nobody has taken it -/
  isOpen : ∀ k l, e.map k = some l → l = e.added k ∧ k ∉ e.taken.map Prod.fst
  /-- so is one that was taken, and it is gone -/
  taken : ∀ t ∈ e.taken, t.2 = e.added t.1 ∧ e.map t.1 = none
  once : (e.taken.map Prod.fst).Nodup
  unseen : ∀ k, k ∉ e.begun → e.map k = none ∧ e.added k = [] ∧ k ∉ e.taken.map Prod.fst

theorem inv_empty : (⟨fun _ => none, fun _ => [], [], []⟩ : Entries κ α).Inv where
  isOpen := by intro k l h; cases h
  taken := by intro t ht; cases ht
  once := List.nodup_nil
  unseen := by intro k _; exact ⟨rfl, rfl, List.not_mem_nil⟩

/-- The order in which parties are listed does not matter. -/
theorem Inv.perm (h : e.Inv) {begun : List κ} {taken : List (κ × List α)}
    (hb : e.begun.Perm begun) (ht : e.taken.Perm taken) :
    (⟨e.map, e.added, begun, taken⟩ : Entries κ α).Inv := by
  have hfst : ∀ k, k ∈ taken.map Prod.fst ↔ k ∈ e.taken.map Prod.fst :=
    fun k => (ht.map Prod.fst).mem_iff.symm
  refine ⟨?_, ?_, ?_, ?_⟩
  · intro k l hk
    exact ⟨(h.isOpen k l hk).1, by rw [hfst]; exact (h.isOpen k l hk).2⟩
  · intro t hm
    exact h.taken t (ht.mem_iff.mpr hm)
  · exact (ht.map Prod.fst).nodup h.once
  · intro k hk
    obtain ⟨hmap, hadd, htaken⟩ := h.unseen k fun hm => hk (hb.mem_iff.mp hm)
    exact ⟨hmap, hadd, by rw [hfst]; exact htaken⟩

theorem ne_of_taken {k : κ} {t : κ × List α} (hk : k ∉ e.taken.map Prod.fst) (ht : t ∈ e.taken) :
    t.1 ≠ k :=
  fun he => hk (he ▸ List.mem_map_of_mem ht)

variable [DecidableEq κ] {k : κ} {l : List α}

theorem Inv.begin (h : e.Inv) (hk : k ∉ e.begun) :
    (⟨Function.update e.map k (some []), e.added, k :: e.begun, e.taken⟩ : Entries κ α).Inv := by
  obtain ⟨-, hadd, htaken⟩ := h.unseen k hk
  refine ⟨?_, ?_, h.once, ?_⟩
  · intro k' l hl
    by_cases hkk : k' = k
    · subst hkk
      simp only [Function.update_self, Option.some.injEq] at hl
      exact ⟨by rw [hadd, hl], htaken⟩
    · simp only [Function.update_of_ne hkk] at hl
      exact h.isOpen k' l hl
  · intro t ht
    simp only [Function.update_of_ne (ne_of_taken htaken ht)]
    exact h.taken t ht
  · intro k' hk'
    obtain ⟨hne, hk'⟩ := not_or.mp (mt List.mem_cons.mpr hk')
    simp only [Function.update_of_ne hne]
    exact h.unseen k' hk'

theorem Inv.add (h : e.Inv) (hk : e.map k = some l) (a : α) :
    (⟨Function.update e.map k (some (l ++ [a])), Function.update e.added k (e.added k ++ [a]),
      e.begun, e.taken⟩ : Entries κ α).Inv := by
  obtain ⟨hl, htaken⟩ := h.isOpen k l hk
  refine ⟨?_, ?_, h.once, ?_⟩
  · intro k' l' hl'
    by_cases hkk : k' = k
    · subst hkk
      simp only [Function.update_self, Option.some.injEq] at hl' ⊢
      exact ⟨by rw [← hl', hl], htaken⟩
    · simp only [Function.update_of_ne hkk] at hl' ⊢
      exact h.isOpen k' l' hl'
  · intro t ht
    simp only [Function.update_of_ne (ne_of_taken htaken ht)]
    exact h.taken t ht
  · intro k' hk'
    have hne : k' ≠ k := by
      rintro rfl
      rw [(h.unseen k' hk').1] at hk
      cases hk
    simp only [Function.update_of_ne hne]
    exact h.unseen k' hk'

theorem Inv.take (h : e.Inv) (hk : e.map k = some l) :
    (⟨Function.update e.map k none, e.added, e.begun, (k, l) :: e.taken⟩ : Entries κ α).Inv := by
  obtain ⟨hl, htaken⟩ := h.isOpen k l hk
  refine ⟨?_, ?_, ?_, ?_⟩
  · intro k' l' hl'
    have hne : k' ≠ k := by
      rintro rfl
      simp only [Function.update_self] at hl'
      cases hl'
    simp only [Function.update_of_ne hne] at hl'
    obtain ⟨hadd, ht⟩ := h.isOpen k' l' hl'
    exact ⟨hadd, List.not_mem_cons_of_ne_of_not_mem hne ht⟩
  · intro t ht
    rcases List.mem_cons.mp ht with rfl | ht
    · exact ⟨hl, Function.update_self ..⟩
    · simp only [Function.update_of_ne (ne_of_taken htaken ht)]
      exact h.taken t ht
  · exact List.nodup_cons.mpr ⟨htaken, h.once⟩
  · intro k' hk'
    have hne : k' ≠ k := by
      rintro rfl
      rw [(h.unseen k' hk').1] at hk
      cases hk
    obtain ⟨hmap, hadd, ht⟩ := h.unseen k' hk'
    simp only [Function.update_of_ne hne]
    exact ⟨hmap, hadd, List.not_mem_cons_of_ne_of_not_mem hne ht⟩

end Entries

end Entries

/-! ## Rows kept aside -/

section Vault

variable {κ ρ τ : Type}

/-- A table, the rows each open transaction keeps aside, the transactions given out and
the keys drawn. -/
structure Vault (κ ρ τ : Type) where
  rows : List ρ
  kept : τ → Option (List ρ)
  handles : List τ
  used : List κ

/-- One party: the keys it drew, its transaction, what it inserted there, and whether
the transaction has ended and was committed. -/
structure Party (κ ρ τ : Type) where
  drawn : List κ
  handle : Option τ
  inserted : List ρ
  ended : Bool
  committed : Bool

/-- A party that has not done anything. -/
def Party.idle : Party κ ρ τ := ⟨[], none, [], false, false⟩

namespace Vault

/-- Two parties have no transaction in common. -/
def Apart (p q : Party κ ρ τ) : Prop := ∀ t, p.handle = some t → q.handle ≠ some t

theorem Apart.symm {p q : Party κ ρ τ} (h : Apart p q) : Apart q p :=
  fun t ht ht' => h t ht' ht

/-- What a party does to its own transaction, the others do not see. -/
theorem kept_frame [DecidableEq τ] {v : Vault κ ρ τ} {p : Party κ ρ τ} {t : τ}
    {kept : Option (List ρ)} (ht : p.handle = some t) :
    ∀ t' ∈ v.handles, p.handle ≠ some t' → Function.update v.kept t kept t' = v.kept t' := by
  intro t' _ ht'
  refine Function.update_of_ne ?_ _ _
  rintro rfl
  exact ht' ht

variable [DecidableEq κ] {key : ρ → κ}

/-- What holds of one party. -/
structure Sound (key : ρ → κ) (v : Vault κ ρ τ) (p : Party κ ρ τ) : Prop where
  handle : ∀ t, p.handle = some t → t ∈ v.handles
  keys : ∀ r ∈ p.inserted, key r ∈ p.drawn
  kept : ∀ t, p.handle = some t → p.ended = false → v.kept t = some p.inserted
  running : p.ended = false → p.committed = false
  waiting : p.handle = none → p.inserted = [] ∧ p.ended = false
  /-- the point of it all -/
  stored : v.rows.filter (fun r => decide (key r ∈ p.drawn)) =
    if p.committed then p.inserted else []

structure Inv (key : ρ → κ) (old : List ρ) (v : Vault κ ρ τ) (ps : List (Party κ ρ τ)) : Prop where
  rows : ∀ r ∈ v.rows, key r ∈ v.used
  drawn : Drawn v.used (ps.map Party.drawn)
  sound : ∀ p ∈ ps, Sound key v p
  apart : ps.Pairwise Apart
  /-- rows come from the parties that committed -/
  origin : ∀ r ∈ v.rows, r ∈ old ∨ ∃ p ∈ ps, p.committed = true ∧ r ∈ p.inserted

variable {old : List ρ} {v : Vault κ ρ τ} {p : Party κ ρ τ} {ps : List (Party κ ρ τ)}

theorem inv_nil (h : ∀ r ∈ v.rows, key r ∈ v.used) : Inv key v.rows v [] where
  rows := h
  drawn := .nil
  sound := by intro p hp; cases hp
  apart := List.Pairwise.nil
  origin := fun _ hr => .inl hr

theorem Inv.perm {qs : List (Party κ ρ τ)} (h : Inv key old v ps) (hp : ps.Perm qs) :
    Inv key old v qs where
  rows := h.rows
  drawn := h.drawn.perm (hp.map _)
  sound := fun q hq => h.sound q (hp.mem_iff.mpr hq)
  apart := (hp.pairwise_iff Apart.symm).mp h.apart
  origin := by
    intro r hr
    obtain hold | ⟨q, hq, hc⟩ := h.origin r hr
    · exact .inl hold
    · exact .inr ⟨q, hp.mem_iff.mp hq, hc⟩

/-- A new party. -/
theorem Inv.arrive (h : Inv key old v ps) : Inv key old v (.idle :: ps) where
  rows := h.rows
  drawn := h.drawn.arrive
  sound := by
    intro q hq
    rcases List.mem_cons.mp hq with rfl | hq
    · exact ⟨by simp [Party.idle], by simp [Party.idle], by simp [Party.idle], fun _ => rfl,
        fun _ => ⟨rfl, rfl⟩, by simp [Party.idle]⟩
    · exact h.sound q hq
  apart := by
    refine List.pairwise_cons.mpr ⟨fun q _ => ?_, h.apart⟩
    intro t ht; cases ht
  origin := by
    intro r hr
    obtain hold | ⟨q, hq, hc⟩ := h.origin r hr
    · exact .inl hold
    · exact .inr ⟨q, List.mem_cons_of_mem _ hq, hc⟩

/-- One party works on: it stays sound, what it newly has is no other's, and the
others find the table and their own transactions as they were. -/
theorem Inv.work {v' : Vault κ ρ τ} {p' : Party κ ρ τ} (h : Inv key old v (p :: ps))
    (hrowsUsed : ∀ r ∈ v'.rows, key r ∈ v'.used)
    (hdrawn : Drawn v'.used (p'.drawn :: ps.map Party.drawn)) (hp : Sound key v' p')
    (hhandles : ∀ t ∈ v.handles, t ∈ v'.handles)
    (hhandle : ∀ t, p'.handle = some t → p.handle = some t ∨ t ∉ v.handles)
    (hkept : ∀ t ∈ v.handles, p.handle ≠ some t → v'.kept t = v.kept t)
    (hrows : v'.rows = v.rows ∨ p'.committed = true ∧ v'.rows = v.rows ++ p'.inserted)
    (hcommitted : p.committed = true → p'.committed = true ∧ p'.inserted = p.inserted) :
    Inv key old v' (p' :: ps) := by
  obtain ⟨hapart, hrest⟩ := List.pairwise_cons.mp h.apart
  have hsound : ∀ q ∈ ps, Sound key v q := fun q hq => h.sound q (List.mem_cons_of_mem _ hq)
  refine ⟨hrowsUsed, hdrawn, ?_, List.pairwise_cons.mpr ⟨?_, hrest⟩, ?_⟩
  · intro q hq
    rcases List.mem_cons.mp hq with rfl | hq
    · exact hp
    have hs := hsound q hq
    refine ⟨fun t ht => hhandles t (hs.handle t ht), hs.keys, ?_, hs.running, hs.waiting, ?_⟩
    · intro t ht he
      rw [hkept t (hs.handle t ht) fun htp => hapart q hq t htp ht]
      exact hs.kept t ht he
    · rcases hrows with hr | ⟨-, hr⟩
      · rw [hr]; exact hs.stored
      · have hdisjoint : List.Disjoint p'.drawn q.drawn :=
          (List.pairwise_cons.mp hdrawn.disjoint).1 q.drawn (List.mem_map_of_mem hq)
        have hnone : p'.inserted.filter (fun r => decide (key r ∈ q.drawn)) = [] := by
          refine List.filter_eq_nil_iff.mpr fun r hrp => ?_
          simpa using hdisjoint (hp.keys r hrp)
        rw [hr, List.filter_append, hnone, List.append_nil]
        exact hs.stored
  · intro q hq t ht htq
    rcases hhandle t ht with ht | ht
    · exact hapart q hq t ht htq
    · exact ht ((hsound q hq).handle t htq)
  · have horigin : ∀ r ∈ v.rows, r ∈ old ∨ ∃ q ∈ p' :: ps, q.committed = true ∧ r ∈ q.inserted := by
      intro r hr
      obtain hold | ⟨q, hq, hc, hm⟩ := h.origin r hr
      · exact .inl hold
      rcases List.mem_cons.mp hq with rfl | hq
      · obtain ⟨hc', hi⟩ := hcommitted hc
        exact .inr ⟨p', List.mem_cons_self, hc', hi ▸ hm⟩
      · exact .inr ⟨q, List.mem_cons_of_mem _ hq, hc, hm⟩
    intro r hr
    rcases hrows with he | ⟨hc, he⟩
    · exact horigin r (he ▸ hr)
    · rw [he] at hr
      rcases List.mem_append.mp hr with hr | hr
      · exact horigin r hr
      · exact .inr ⟨p', List.mem_cons_self, hc, hr⟩

/-- A key is drawn. -/
theorem Inv.draw (h : Inv key old v (p :: ps)) {k : κ} (hk : k ∉ v.used) :
    Inv key old { v with used := k :: v.used } ({ p with drawn := k :: p.drawn } :: ps) := by
  have hp := h.sound p List.mem_cons_self
  refine h.work (fun r hr => List.mem_cons_of_mem _ (h.rows r hr)) (h.drawn.draw hk) ?_
    (fun _ ht => ht) (fun _ ht => .inl ht) (fun _ _ _ => rfl) (.inl rfl) (fun hc => ⟨hc, rfl⟩)
  refine ⟨hp.handle, fun r hr => List.mem_cons_of_mem _ (hp.keys r hr), hp.kept, hp.running,
    hp.waiting, ?_⟩
  rw [← hp.stored]
  refine List.filter_congr fun r hr => ?_
  have hne : key r ≠ k := fun he => hk (he ▸ h.rows r hr)
  simp [hne]

/-- Keys are drawn by nobody in particular. -/
theorem Inv.grow (h : Inv key old v (p :: ps)) {used : List κ} (hu : ∀ k ∈ v.used, k ∈ used) :
    Inv key old { v with used := used } (p :: ps) := by
  have hp := h.sound p List.mem_cons_self
  exact h.work (fun r hr => hu _ (h.rows r hr)) (h.drawn.grow hu)
    ⟨hp.handle, hp.keys, hp.kept, hp.running, hp.waiting, hp.stored⟩ (fun _ ht => ht)
    (fun _ ht => .inl ht) (fun _ _ _ => rfl) (.inl rfl) (fun hc => ⟨hc, rfl⟩)

variable [DecidableEq τ]

/-- A transaction is opened. -/
theorem Inv.open (h : Inv key old v (p :: ps)) {t : τ} (hnone : p.handle = none)
    (ht : t ∉ v.handles) :
    Inv key old { v with kept := Function.update v.kept t (some []), handles := t :: v.handles }
      ({ p with handle := some t } :: ps) := by
  have hp := h.sound p List.mem_cons_self
  obtain ⟨hi, he⟩ := hp.waiting hnone
  refine h.work h.rows h.drawn ?_ (fun _ hm => List.mem_cons_of_mem _ hm) ?_ ?_ (.inl rfl)
    (fun hc => ⟨hc, rfl⟩)
  · refine ⟨?_, hp.keys, ?_, hp.running, ?_, hp.stored⟩
    · intro t' ht'
      obtain rfl := Option.some.inj ht'
      exact List.mem_cons_self
    · intro t' ht' _
      obtain rfl := Option.some.inj ht'
      simp only [Function.update_self, hi]
    · intro hh; cases hh
  · intro t' ht'
    obtain rfl := Option.some.inj ht'
    exact .inr ht
  · intro t' ht' _
    refine Function.update_of_ne ?_ _ _
    rintro rfl
    exact ht ht'

/-- A row is inserted in the party's transaction. -/
theorem Inv.insert (h : Inv key old v (p :: ps)) {t : τ} {r : ρ} {kept : List ρ}
    (ht : p.handle = some t) (he : p.ended = false) (hr : key r ∈ p.drawn)
    (hkept : v.kept t = some kept) :
    Inv key old { v with kept := Function.update v.kept t (some (kept ++ [r])) }
      ({ p with inserted := p.inserted ++ [r] } :: ps) := by
  have hp := h.sound p List.mem_cons_self
  have hc := hp.running he
  refine h.work h.rows h.drawn ?_ (fun _ hm => hm) (fun _ hh => .inl hh) (kept_frame ht)
    (.inl rfl) ?_
  · refine ⟨hp.handle, ?_, ?_, hp.running, ?_, ?_⟩
    · intro r' hr'
      rcases List.mem_append.mp hr' with hr' | hr'
      · exact hp.keys r' hr'
      · obtain rfl := List.mem_singleton.mp hr'
        exact hr
    · intro t' ht' _
      obtain rfl := Option.some.inj (ht.symm.trans ht')
      obtain rfl := Option.some.inj (hkept.symm.trans (hp.kept t ht he))
      exact Function.update_self ..
    · intro hh
      cases ht.symm.trans hh
    · have hs := hp.stored
      rw [hc, if_neg Bool.false_ne_true] at hs
      simpa only [hc, Bool.false_eq_true, if_false] using hs
  · intro hcc
    cases hc.symm.trans hcc

/-- The party's transaction is committed: its rows enter the table. -/
theorem Inv.commit (h : Inv key old v (p :: ps)) {t : τ} {kept : List ρ}
    (ht : p.handle = some t) (he : p.ended = false) (hkept : v.kept t = some kept) :
    Inv key old { v with rows := v.rows ++ kept, kept := Function.update v.kept t none }
      ({ p with ended := true, committed := true } :: ps) := by
  have hp := h.sound p List.mem_cons_self
  have hc := hp.running he
  obtain rfl := Option.some.inj (hkept.symm.trans (hp.kept t ht he))
  refine h.work ?_ h.drawn ?_ (fun _ hm => hm) (fun _ hh => .inl hh) (kept_frame ht)
    (.inr ⟨rfl, rfl⟩) ?_
  · intro r hr
    rcases List.mem_append.mp hr with hr | hr
    · exact h.rows r hr
    · exact h.drawn.used _ List.mem_cons_self _ (hp.keys r hr)
  · refine ⟨hp.handle, hp.keys, ?_, ?_, ?_, ?_⟩
    · intro t' _ hh; cases hh
    · intro hh; cases hh
    · intro hh; cases ht.symm.trans hh
    · have hs := hp.stored
      rw [hc] at hs
      have hall : p.inserted.filter (fun r => decide (key r ∈ p.drawn)) = p.inserted :=
        List.filter_eq_self.mpr fun r hr => decide_eq_true (hp.keys r hr)
      simp only [List.filter_append, hs, hall]
      rfl
  · intro hcc
    cases hc.symm.trans hcc

/-- The party's transaction is rolled back, or its commit fails. -/
theorem Inv.close (h : Inv key old v (p :: ps)) {t : τ} (ht : p.handle = some t) :
    Inv key old { v with kept := Function.update v.kept t none }
      ({ p with ended := true } :: ps) := by
  have hp := h.sound p List.mem_cons_self
  refine h.work h.rows h.drawn ?_ (fun _ hm => hm) (fun _ hh => .inl hh) (kept_frame ht)
    (.inl rfl) (fun hcc => ⟨hcc, rfl⟩)
  refine ⟨hp.handle, hp.keys, ?_, ?_, ?_, hp.stored⟩
  · intro t' _ hh; cases hh
  · intro hh; cases hh
  · intro hh; cases ht.symm.trans hh

end Vault

end Vault

end Escrow
