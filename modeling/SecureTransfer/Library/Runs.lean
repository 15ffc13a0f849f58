import Mathlib.Data.Fintype.Order
import Mathlib.Order.WellFounded
import Mathlib.Tactic.Common

/-!
Systems given by initial states and labelled steps: runs over a list of events,
reachable states, and systems restricted to the steps that meet a condition.
-/

namespace Runs

structure System (σ ε : Type) where
  init : σ → Prop
  step : σ → ε → σ → Prop

namespace System

variable {σ ε : Type}

inductive Run (S : System σ ε) : σ → List ε → σ → Prop where
  | nil (s : σ) : Run S s [] s
  | cons {s t u : σ} {e : ε} {es : List ε} (head : S.step s e t) (tail : Run S t es u) :
      Run S s (e :: es) u

def Reachable (S : System σ ε) (s : σ) : Prop :=
  ∃ s₀ es, S.init s₀ ∧ S.Run s₀ es s

/-- The steps of a system that meet a condition on the state and the event. -/
def guard (S : System σ ε) (G : σ → ε → Prop) : System σ ε where
  init := S.init
  step s e t := S.step s e t ∧ G s e

/-- Two runs next to each other, of which the second one skips some of the events. -/
def beside (S : System σ ε) (skips : ε → Prop) : System (σ × σ) ε where
  init p := S.init p.1 ∧ p.2 = p.1
  step p e q := S.step p.1 e q.1 ∧ (skips e → q.2 = p.2) ∧ (¬ skips e → S.step p.2 e q.2)

variable {S : System σ ε}

theorem Run.append {s t u : σ} {es fs : List ε} (h : S.Run s es t) (h' : S.Run t fs u) :
    S.Run s (es ++ fs) u := by
  induction h with
  | nil s => exact h'
  | cons head _ ih => exact .cons head (ih h')

theorem Reachable.step {s t : σ} {e : ε} (hs : S.Reachable s) (h : S.step s e t) :
    S.Reachable t := by
  obtain ⟨s₀, es, hinit, hrun⟩ := hs
  exact ⟨s₀, es ++ [e], hinit, hrun.append (.cons h (.nil t))⟩

theorem Reachable.run {s t : σ} {es : List ε} (hs : S.Reachable s) (h : S.Run s es t) :
    S.Reachable t := by
  obtain ⟨s₀, fs, hinit, hrun⟩ := hs
  exact ⟨s₀, fs ++ es, hinit, hrun.append h⟩

/-- What every step preserves, every run preserves. -/
theorem Run.invariant {I : σ → Prop} (hstep : ∀ s e t, I s → S.step s e t → I t)
    {s t : σ} {es : List ε} (h : S.Run s es t) (hs : I s) : I t := by
  induction h with
  | nil s => exact hs
  | cons head _ ih => exact ih (hstep _ _ _ hs head)

theorem Reachable.invariant {I : σ → Prop} (hinit : ∀ s, S.init s → I s)
    (hstep : ∀ s e t, I s → S.step s e t → I t) {s : σ} (h : S.Reachable s) : I s := by
  obtain ⟨s₀, es, h₀, hrun⟩ := h
  exact hrun.invariant hstep (hinit s₀ h₀)

section
variable {τ δ : Type} {T : System τ δ} {f : σ → τ} {g : ε → δ} {I : σ → Prop}
  (hstep : ∀ s e t, I s → S.step s e t → I t ∧ T.step (f s) (g e) (f t))
include hstep

/-- A system whose steps, seen from outside, are steps of another one. -/
theorem Run.through {s t : σ} {es : List ε} (h : S.Run s es t) (hs : I s) :
    I t ∧ T.Run (f s) (es.map g) (f t) := by
  induction h with
  | nil s => exact ⟨hs, .nil _⟩
  | cons head _ ih =>
      obtain ⟨hu, hhead⟩ := hstep _ _ _ hs head
      obtain ⟨ht, htail⟩ := ih hu
      exact ⟨ht, .cons hhead htail⟩

theorem Reachable.through (hinit : ∀ s, S.init s → I s ∧ T.init (f s)) {s : σ}
    (h : S.Reachable s) : I s ∧ T.Reachable (f s) := by
  obtain ⟨s₀, es, h₀, hrun⟩ := h
  obtain ⟨hI, hf⟩ := hinit s₀ h₀
  obtain ⟨ht, hrun⟩ := hrun.through hstep hI
  exact ⟨ht, f s₀, es.map g, hf, hrun⟩

end

theorem Run.of_guard {G : σ → ε → Prop} {s t : σ} {es : List ε} (h : (S.guard G).Run s es t) :
    S.Run s es t := by
  induction h with
  | nil s => exact .nil s
  | cons head _ ih => exact .cons head.1 ih

theorem Reachable.of_guard {G : σ → ε → Prop} {s : σ} (h : (S.guard G).Reachable s) :
    S.Reachable s := by
  obtain ⟨s₀, es, hinit, hrun⟩ := h
  exact ⟨s₀, es, hinit, hrun.of_guard⟩

/-- In a deterministic system a run meets a condition if its first step and the rest do. -/
theorem guard_run_cons {G : σ → ε → Prop} {s t u : σ} {e : ε} {es : List ε} (h : S.step s e t)
    (hunique : ∀ t', S.step s e t' → t' = t) :
    (S.guard G).Run s (e :: es) u ↔ G s e ∧ (S.guard G).Run t es u := by
  constructor
  · intro hrun
    cases hrun with
    | cons head tail =>
        obtain rfl := hunique _ head.1
        exact ⟨head.2, tail⟩
  · intro hboth
    exact .cons ⟨h, hboth.1⟩ hboth.2

/-- The second of them is a run over the events it does not skip. -/
theorem Run.of_beside {skips : ε → Prop} [DecidablePred skips] {p q : σ × σ} {es : List ε}
    (h : (S.beside skips).Run p es q) :
    S.Run p.1 es q.1 ∧ S.Run p.2 (es.filter fun e => ¬ skips e) q.2 := by
  induction h with
  | nil p => exact ⟨.nil p.1, .nil p.2⟩
  | @cons p p' q e es head _ ih =>
      refine ⟨.cons head.1 ih.1, ?_⟩
      by_cases he : skips e
      · rw [List.filter_cons_of_neg (by simpa using he), ← head.2.1 he]
        exact ih.2
      · rw [List.filter_cons_of_pos (by simpa using he)]
        exact .cons (head.2.2 he) ih.2

/-- A run that never ends. -/
structure Forever (S : System σ ε) (states : Nat → σ) (events : Nat → ε) : Prop where
  init : S.init (states 0)
  step : ∀ n, S.step (states n) (events n) (states (n + 1))

theorem Forever.reachable {states : Nat → σ} {events : Nat → ε} (h : S.Forever states events)
    (n : Nat) : S.Reachable (states n) := by
  induction n with
  | zero => exact ⟨states 0, [], h.init, .nil _⟩
  | succ n ih => exact ih.step (h.step n)

section
variable {ρ : Type} {lt : ρ → ρ → Prop} {rank : σ → ρ} {own : ε → Prop}
  (hwf : WellFounded lt)
  (hown : ∀ s e t, S.Reachable s → S.step s e t → own e → lt (rank t) (rank s))
  (hother : ∀ s e t, S.Reachable s → S.step s e t → ¬ own e → rank t = rank s)
include hwf hown hother

/-- Steps under which a rank falls come to an end, if it stays under the others. -/
theorem Forever.eventually_not {states : Nat → σ} {events : Nat → ε}
    (h : S.Forever states events) : ∃ first, ∀ n, first ≤ n → ¬ own (events n) := by
  obtain ⟨r, ⟨first, rfl⟩, hleast⟩ :=
    hwf.has_min (Set.range fun n => rank (states n)) ⟨_, 0, rfl⟩
  have hfalls : ∀ n, rank (states n) = rank (states first) → ¬ own (events n) := by
    intro n hn hmoves
    have hlt := hown _ _ _ (h.reachable n) (h.step n) hmoves
    rw [hn] at hlt
    exact hleast _ ⟨n + 1, rfl⟩ hlt
  have hstays : ∀ n, first ≤ n → rank (states n) = rank (states first) := by
    intro n hn
    induction n, hn using Nat.le_induction with
    | base => rfl
    | succ n _ ih =>
        exact (hother _ _ _ (h.reachable n) (h.step n) (hfalls n ih)).trans ih
  exact ⟨first, fun n hn => hfalls n (hstays n hn)⟩

/-- A run comes to rest in which one of these steps is taken again and again till then. -/
theorem Forever.rests (rest : σ → Prop) {states : Nat → σ} {events : Nat → ε}
    (h : S.Forever states events)
    (hfair : ∀ n, ∃ m, n ≤ m ∧ (own (events m) ∨ rest (states m))) : ∃ n, rest (states n) := by
  obtain ⟨first, hquiet⟩ := h.eventually_not hwf hown hother
  obtain ⟨m, hm, hmoves | hrest⟩ := hfair first
  · exact absurd hmoves (hquiet m hm)
  · exact ⟨m, hrest⟩

end

/-- If every step is one of finitely many parties, and each of them has a rank that falls under
its own steps and stays under those of the others, then every run is finite. -/
theorem not_forever {κ ρ : Type} [Finite κ] {lt : ρ → ρ → Prop} (hwf : WellFounded lt)
    (rank : κ → σ → ρ) (own : κ → ε → Prop)
    (hsome : ∀ s e t, S.Reachable s → S.step s e t → ∃ i, own i e)
    (hown : ∀ i s e t, S.Reachable s → S.step s e t → own i e → lt (rank i t) (rank i s))
    (hother : ∀ i s e t, S.Reachable s → S.step s e t → ¬ own i e → rank i t = rank i s)
    (states : Nat → σ) (events : Nat → ε) : ¬ S.Forever states events := by
  intro h
  choose first hquiet using fun i => h.eventually_not hwf (hown i) (hother i)
  obtain ⟨bound, hbound⟩ := Finite.bddAbove_range first
  obtain ⟨i, hi⟩ := hsome _ _ _ (h.reachable bound) (h.step bound)
  exact hquiet i bound (hbound ⟨i, rfl⟩) hi

end System
end Runs
