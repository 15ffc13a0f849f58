import Mathlib.Tactic.Common

/-!
Stateful commands that finish with a value, raise an exception or wait for
input that never comes. An exception keeps the state reached so far, and a
handler sees exceptions only: a command that waits cannot be caught.
-/

namespace Effects

inductive Outcome (ε α : Type) where
  | done (value : α)
  | raised (error : ε)
  | blocked
deriving DecidableEq, Repr

@[ext] structure Act (σ ε α : Type) where
  run : σ → Outcome ε α × σ

namespace Act

variable {σ τ ε α β : Type}

def ret (a : α) : Act σ ε α := ⟨fun s => (.done a, s)⟩

def andThen (m : Act σ ε α) (f : α → Act σ ε β) : Act σ ε β := ⟨fun s =>
  match m.run s with
  | (.done a, t) => (f a).run t
  | (.raised e, t) => (.raised e, t)
  | (.blocked, t) => (.blocked, t)⟩

instance : Monad (Act σ ε) where
  pure := ret
  bind := andThen

def raise (e : ε) : Act σ ε α := ⟨fun s => (.raised e, s)⟩

def get : Act σ ε σ := ⟨fun s => (.done s, s)⟩

def modify (f : σ → σ) : Act σ ε Unit := ⟨fun s => (.done (), f s)⟩

/-- `try: m except: handler`. -/
def attempt (m : Act σ ε α) (handler : ε → Act σ ε α) : Act σ ε α := ⟨fun s =>
  match m.run s with
  | (.raised e, t) => (handler e).run t
  | other => other⟩

/-- A computed value, or the exception raised when there is none. -/
def ofOption (e : ε) : Option α → Act σ ε α
  | some a => ret a
  | none => raise e

/-- Raise unless the condition holds. -/
def require (c : Prop) [Decidable c] (e : ε) : Act σ ε Unit :=
  if c then ret () else raise e

/-- `if c: m`. -/
def whenever (c : Prop) [Decidable c] (m : Act σ ε Unit) : Act σ ε Unit :=
  if c then m else ret ()

/-- Run a command on one component of a larger state. -/
def onPart (part : τ → σ) (put : σ → τ → τ) (m : Act σ ε α) : Act τ ε α := ⟨fun t =>
  ((m.run (part t)).1, put (m.run (part t)).2 t)⟩

@[simp] theorem run_pure (a : α) (s : σ) : (pure a : Act σ ε α).run s = (.done a, s) := rfl

@[simp] theorem run_raise (e : ε) (s : σ) :
    (raise e : Act σ ε α).run s = (.raised e, s) := rfl

@[simp] theorem run_get (s : σ) : (get : Act σ ε σ).run s = (.done s, s) := rfl

@[simp] theorem run_modify (f : σ → σ) (s : σ) :
    (modify f : Act σ ε Unit).run s = (.done (), f s) := rfl

@[simp] theorem ofOption_some (e : ε) (a : α) :
    (ofOption e (some a) : Act σ ε α) = pure a := rfl

@[simp] theorem ofOption_none (e : ε) : (ofOption e none : Act σ ε α) = raise e := rfl

@[simp] theorem require_pos {c : Prop} [Decidable c] (h : c) (e : ε) :
    (require c e : Act σ ε Unit) = pure () := if_pos h

@[simp] theorem require_neg {c : Prop} [Decidable c] (h : ¬ c) (e : ε) :
    (require c e : Act σ ε Unit) = raise e := if_neg h

@[simp] theorem whenever_pos {c : Prop} [Decidable c] (h : c) (m : Act σ ε Unit) :
    whenever c m = m := if_pos h

@[simp] theorem whenever_neg {c : Prop} [Decidable c] (h : ¬ c) (m : Act σ ε Unit) :
    whenever c m = pure () := if_neg h

theorem andThen_ret (m : Act σ ε α) : andThen m ret = m := by
  ext1
  funext s
  rcases h : m.run s with ⟨o, t⟩
  cases o <;> simp [andThen, h, ret]

theorem andThen_assoc (m : Act σ ε α) (f : α → Act σ ε β) {γ : Type} (g : β → Act σ ε γ) :
    andThen (andThen m f) g = andThen m fun a => andThen (f a) g := by
  ext1
  funext s
  rcases h : m.run s with ⟨o, t⟩
  cases o <;> simp [andThen, h]

instance : LawfulMonad (Act σ ε) :=
  LawfulMonad.mk' _ (fun m => andThen_ret m) (fun _ _ => rfl) fun m f g => andThen_assoc m f g

@[simp] theorem raise_bind (e : ε) (f : α → Act σ ε β) : (raise e >>= f) = raise e := rfl

theorem run_bind (m : Act σ ε α) (f : α → Act σ ε β) (s : σ) :
    (m >>= f).run s = match m.run s with
      | (.done a, t) => (f a).run t
      | (.raised e, t) => (.raised e, t)
      | (.blocked, t) => (.blocked, t) := rfl

theorem bind_done {m : Act σ ε α} {f : α → Act σ ε β} {s t : σ} {a : α}
    (h : m.run s = (.done a, t)) : (m >>= f).run s = (f a).run t := by
  rw [run_bind, h]

theorem bind_raised {m : Act σ ε α} {f : α → Act σ ε β} {s t : σ} {e : ε}
    (h : m.run s = (.raised e, t)) : (m >>= f).run s = (.raised e, t) := by
  rw [run_bind, h]

theorem bind_blocked {m : Act σ ε α} {f : α → Act σ ε β} {s t : σ}
    (h : m.run s = (.blocked, t)) : (m >>= f).run s = (.blocked, t) := by
  rw [run_bind, h]

theorem bind_eq_done {m : Act σ ε α} {f : α → Act σ ε β} {s t : σ} {b : β}
    (h : (m >>= f).run s = (.done b, t)) :
    ∃ a u, m.run s = (.done a, u) ∧ (f a).run u = (.done b, t) := by
  rw [run_bind] at h
  rcases hm : m.run s with ⟨o, u⟩
  rw [hm] at h
  cases o with
  | done a => exact ⟨a, u, rfl, h⟩
  | raised e => cases h
  | blocked => cases h

theorem ofOption_done {e : ε} {o : Option α} {s t : σ} {a : α}
    (h : (ofOption e o : Act σ ε α).run s = (.done a, t)) : o = some a ∧ t = s := by
  cases o with
  | none => cases (Prod.mk.inj h).1
  | some b =>
      obtain ⟨hb, hs⟩ := Prod.mk.inj h
      exact ⟨congrArg some (Outcome.done.inj hb), hs.symm⟩

/-- A command that does not finish is the last one. -/
theorem bind_unfinished {m : Act σ ε Unit} {f : Unit → Act σ ε Unit} {s t : σ}
    {o : Outcome ε Unit} (h : m.run s = (o, t)) (ho : o ≠ .done ()) :
    (m >>= f).run s = (o, t) := by
  cases o with
  | done _ => exact absurd rfl ho
  | raised e => exact bind_raised h
  | blocked => exact bind_blocked h

theorem attempt_done {m : Act σ ε α} {handler : ε → Act σ ε α} {s t : σ} {a : α}
    (h : m.run s = (.done a, t)) : (attempt m handler).run s = (.done a, t) := by
  simp only [attempt, h]

theorem attempt_raised {m : Act σ ε α} {handler : ε → Act σ ε α} {s t : σ} {e : ε}
    (h : m.run s = (.raised e, t)) : (attempt m handler).run s = (handler e).run t := by
  simp only [attempt, h]

theorem attempt_blocked {m : Act σ ε α} {handler : ε → Act σ ε α} {s t : σ}
    (h : m.run s = (.blocked, t)) : (attempt m handler).run s = (.blocked, t) := by
  simp only [attempt, h]

/-- A handler of a handler. -/
theorem attempt_attempt (m : Act σ ε α) (first second : ε → Act σ ε α) :
    attempt (attempt m first) second = attempt m fun e => attempt (first e) second := by
  ext1
  funext s
  rcases h : m.run s with ⟨o, t⟩
  cases o <;> simp [attempt, h]

theorem attempt_congr {m n : Act σ ε α} {s t : σ} (h : m.run s = n.run t)
    (handler : ε → Act σ ε α) : (attempt m handler).run s = (attempt n handler).run t := by
  simp only [attempt, h]

/-- The command leaves a flag of the state, and waits only where the flag is set. -/
def Steady (flag : σ → Bool) (m : Act σ ε α) : Prop :=
  ∀ s, flag (m.run s).2 = flag s ∧ (flag s = false → (m.run s).1 ≠ .blocked)

namespace Steady

variable {flag : σ → Bool}

theorem pure (a : α) : Steady flag (Pure.pure a : Act σ ε α) := fun _ => ⟨rfl, nofun⟩

theorem raise (e : ε) : Steady flag (Act.raise e : Act σ ε α) := fun _ => ⟨rfl, nofun⟩

theorem modify {f : σ → σ} (h : ∀ s, flag (f s) = flag s) :
    Steady flag (Act.modify f : Act σ ε Unit) := fun s => ⟨h s, nofun⟩

theorem bind {m : Act σ ε α} {f : α → Act σ ε β} (hm : Steady flag m)
    (hf : ∀ a, Steady flag (f a)) : Steady flag (m >>= f) := by
  intro s
  obtain ⟨hflag, hwaits⟩ := hm s
  rw [run_bind]
  rcases hrun : m.run s with ⟨o, t⟩
  rw [hrun] at hflag hwaits
  cases o with
  | done a =>
      obtain ⟨hflag', hwaits'⟩ := hf a t
      exact ⟨hflag'.trans hflag, fun h => hwaits' (hflag.trans h)⟩
  | raised e => exact ⟨hflag, nofun⟩
  | blocked => exact ⟨hflag, fun h => absurd rfl (hwaits h)⟩

theorem of_blocked {m : Act σ ε α} (hm : Steady flag m) {s t : σ} (h : m.run s = (.blocked, t)) :
    flag s = true := by
  by_contra hclear
  exact (hm s).2 (by simpa using hclear) (by rw [h])

theorem ofOption (e : ε) (o : Option α) : Steady flag (Act.ofOption e o : Act σ ε α) := by
  cases o with
  | none => exact raise e
  | some a => exact pure a

theorem require {c : Prop} [Decidable c] (e : ε) :
    Steady flag (Act.require c e : Act σ ε Unit) := by
  rw [Act.require]
  split
  · exact pure ()
  · exact raise e

theorem whenever {c : Prop} [Decidable c] {m : Act σ ε Unit} (hm : Steady flag m) :
    Steady flag (Act.whenever c m) := by
  rw [Act.whenever]
  split
  · exact hm
  · exact pure ()

/-- On a part of the state that has the flag. -/
theorem onPart {part : τ → σ} {put : σ → τ → τ} (hput : ∀ s t, part (put s t) = s)
    {m : Act σ ε α} (hm : Steady flag m) :
    Steady (fun t => flag (part t)) (Act.onPart part put m) := by
  intro t
  obtain ⟨hflag, hwaits⟩ := hm (part t)
  refine ⟨?_, hwaits⟩
  change flag (part (put (m.run (part t)).2 t)) = _
  rw [hput]
  exact hflag

end Steady

/-- However the command ends, the state still satisfies an invariant. -/
def Keeps (I : σ → Prop) (m : Act σ ε α) : Prop := ∀ s, I s → I (m.run s).2

namespace Keeps

variable {I : σ → Prop}

theorem pure (a : α) : Keeps I (Pure.pure a : Act σ ε α) := fun _ h => h

theorem raise (e : ε) : Keeps I (Act.raise e : Act σ ε α) := fun _ h => h

theorem modify {f : σ → σ} (h : ∀ s, I s → I (f s)) : Keeps I (Act.modify f : Act σ ε Unit) := h

theorem bind {m : Act σ ε α} {f : α → Act σ ε β} (hm : Keeps I m) (hf : ∀ a, Keeps I (f a)) :
    Keeps I (m >>= f) := by
  intro s hs
  have hkept := hm s hs
  rw [run_bind]
  rcases hrun : m.run s with ⟨o, t⟩
  rw [hrun] at hkept
  cases o with
  | done a => exact hf a t hkept
  | raised e => exact hkept
  | blocked => exact hkept

theorem ofOption (e : ε) (o : Option α) : Keeps I (Act.ofOption e o : Act σ ε α) := by
  cases o with
  | none => exact raise e
  | some a => exact pure a

end Keeps

/-- From this state, and seen through `view`, the second command does what the first does,
which ends with the invariant. -/
def Simulates (view : σ → τ) (I : σ → Prop) (m : Act σ ε α) (n : Act τ ε α) (s : σ) : Prop :=
  n.run (view s) = ((m.run s).1, view (m.run s).2) ∧ I (m.run s).2

namespace Simulates

variable {view : σ → τ} {I : σ → Prop} {s : σ}

theorem pure (hs : I s) (a : α) :
    Simulates view I (Pure.pure a : Act σ ε α) (Pure.pure a) s := ⟨rfl, hs⟩

theorem raise (hs : I s) (e : ε) :
    Simulates view I (Act.raise e : Act σ ε α) (Act.raise e) s := ⟨rfl, hs⟩

theorem modify {f : σ → σ} {g : τ → τ} (hview : g (view s) = view (f s)) (hs : I (f s)) :
    Simulates view I (Act.modify f : Act σ ε Unit) (Act.modify g) s :=
  ⟨congrArg (Prod.mk _) hview, hs⟩

theorem bind {m : Act σ ε α} {n : Act τ ε α} {f : α → Act σ ε β} {g : α → Act τ ε β}
    (hm : Simulates view I m n s)
    (hf : ∀ a t, m.run s = (.done a, t) → I t → Simulates view I (f a) (g a) t) :
    Simulates view I (m >>= f) (n >>= g) s := by
  obtain ⟨hrun, hkept⟩ := hm
  rw [Simulates, run_bind, run_bind, hrun]
  generalize m.run s = result at hkept hf ⊢
  obtain ⟨o, t⟩ := result
  cases o with
  | done a => exact hf a t rfl hkept
  | raised e => exact ⟨rfl, hkept⟩
  | blocked => exact ⟨rfl, hkept⟩

theorem ofOption (hs : I s) (e : ε) (o : Option α) :
    Simulates view I (Act.ofOption e o : Act σ ε α) (Act.ofOption e o) s := by
  cases o with
  | none => exact raise hs e
  | some a => exact pure hs a

theorem require (hs : I s) {c : Prop} [Decidable c] (e : ε) :
    Simulates view I (Act.require c e : Act σ ε Unit) (Act.require c e) s := by
  rw [Act.require, Act.require]
  split
  · exact pure hs ()
  · exact raise hs e

theorem whenever (hs : I s) {c : Prop} [Decidable c] {m : Act σ ε Unit} {n : Act τ ε Unit}
    (hm : c → Simulates view I m n s) :
    Simulates view I (Act.whenever c m) (Act.whenever c n) s := by
  rw [Act.whenever, Act.whenever]
  split
  · exact hm ‹c›
  · exact pure hs ()

theorem attempt {m : Act σ ε α} {n : Act τ ε α} {handler : ε → Act σ ε α}
    {handler' : ε → Act τ ε α} (hm : Simulates view I m n s)
    (hh : ∀ e t, I t → Simulates view I (handler e) (handler' e) t) :
    Simulates view I (Act.attempt m handler) (Act.attempt n handler') s := by
  obtain ⟨hrun, hkept⟩ := hm
  simp only [Simulates, Act.attempt, hrun]
  generalize m.run s = result at hkept ⊢
  obtain ⟨o, t⟩ := result
  cases o with
  | done a => exact ⟨rfl, hkept⟩
  | raised e => exact hh e t hkept
  | blocked => exact ⟨rfl, hkept⟩

end Simulates

end Act
end Effects
