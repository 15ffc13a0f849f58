import SecureTransfer.Library.Effects

/-!
Rules of pre- and postconditions for stateful commands. The condition on the state that an
exception or a wait leaves behind is one for a whole command.
-/

namespace Effects
namespace Act

variable {σ τ ε α β : Type} {P P' : σ → Prop} {Q Q' : α → σ → Prop} {E E' : σ → Prop}

/-- From a state with `P` the command finishes in one with `Q`, if it finishes, and otherwise
ends in one with `E`. -/
def Triple (P : σ → Prop) (m : Act σ ε α) (Q : α → σ → Prop) (E : σ → Prop) : Prop :=
  ∀ s, P s → match m.run s with
    | (.done a, t) => Q a t
    | (.raised _, t) => E t
    | (.blocked, t) => E t

namespace Triple

variable {m : Act σ ε α}

theorem mono (h : Triple P m Q E) (hP : ∀ s, P' s → P s) (hQ : ∀ a s, Q a s → Q' a s)
    (hE : ∀ s, E s → E' s) : Triple P' m Q' E' := by
  intro s hs
  have hrun := h s (hP s hs)
  cases ho : m.run s with
  | mk o t =>
      rw [ho] at hrun
      cases o with
      | done a => exact hQ a t hrun
      | raised e => exact hE t hrun
      | blocked => exact hE t hrun

theorem weaken (h : Triple P m Q E) (hQ : ∀ a s, Q a s → Q' a s) : Triple P m Q' E :=
  h.mono (fun _ hs => hs) hQ fun _ hs => hs

theorem strengthen (h : Triple P m Q E) (hP : ∀ s, P' s → P s) : Triple P' m Q E :=
  h.mono hP (fun _ _ hs => hs) fun _ hs => hs

/-- Facts that do not mention the state. -/
theorem of_pure {c : Prop} (h : c → Triple P m Q E) : Triple (fun s => P s ∧ c) m Q E :=
  fun s hs => h hs.2 s hs.1

theorem of_exists {ι : Type} {P : ι → σ → Prop} (h : ∀ i, Triple (P i) m Q E) :
    Triple (fun s => ∃ i, P i s) m Q E := by
  intro s hs
  obtain ⟨i, hi⟩ := hs
  exact h i s hi

theorem pure {a : α} (h : ∀ s, P s → Q a s) : Triple P (Pure.pure a : Act σ ε α) Q E := h

theorem raise {e : ε} (h : ∀ s, P s → E s) : Triple P (Act.raise e : Act σ ε α) Q E := h

theorem modify {Q : Unit → σ → Prop} {f : σ → σ} (h : ∀ s, P s → Q () (f s)) :
    Triple P (Act.modify f : Act σ ε Unit) Q E := h

theorem bind {R : β → σ → Prop} {f : α → Act σ ε β} (hm : Triple P m Q E)
    (hf : ∀ a, Triple (Q a) (f a) R E) : Triple P (m >>= f) R E := by
  intro s hs
  have hrun := hm s hs
  rw [run_bind]
  cases ho : m.run s with
  | mk o t =>
      rw [ho] at hrun
      cases o with
      | done a => exact hf a t hrun
      | raised e => exact hrun
      | blocked => exact hrun

theorem ofOption {e : ε} {o : Option α} (hsome : ∀ a, o = some a → ∀ s, P s → Q a s)
    (hnone : ∀ s, P s → E s) : Triple P (Act.ofOption e o : Act σ ε α) Q E := by
  cases o with
  | none => exact raise hnone
  | some a => exact pure (hsome a rfl)

theorem require {Q : Unit → σ → Prop} {c : Prop} [Decidable c] {e : ε}
    (hyes : c → ∀ s, P s → Q () s) (hno : ∀ s, P s → E s) :
    Triple P (Act.require c e : Act σ ε Unit) Q E := by
  by_cases h : c
  · rw [require_pos h]
    exact pure (hyes h)
  · rw [require_neg h]
    exact raise hno

theorem whenever {Q : Unit → σ → Prop} {m : Act σ ε Unit} {c : Prop} [Decidable c]
    (hyes : c → Triple P m Q E) (hno : ¬ c → ∀ s, P s → Q () s) :
    Triple P (Act.whenever c m) Q E := by
  by_cases h : c
  · rw [whenever_pos h]
    exact hyes h
  · rw [whenever_neg h]
    exact pure (hno h)

/-- The handler starts from what the exception left. -/
theorem attempt {R : σ → Prop} {handler : ε → Act σ ε α} (hm : Triple P m Q R)
    (hhandler : ∀ e, Triple R (handler e) Q E) (hblocked : ∀ s, R s → E s) :
    Triple P (Act.attempt m handler) Q E := by
  intro s hs
  have hrun := hm s hs
  cases ho : m.run s with
  | mk o t =>
      rw [ho] at hrun
      cases o with
      | done a =>
          rw [attempt_done ho]
          exact hrun
      | raised e =>
          rw [attempt_raised ho]
          exact hhandler e t hrun
      | blocked =>
          rw [attempt_blocked ho]
          exact hblocked t hrun

theorem of_keeps {I : σ → Prop} (h : Keeps I m) : Triple I m (fun _ => I) I := by
  intro s hs
  have hkept := h s hs
  cases ho : m.run s with
  | mk o t =>
      rw [ho] at hkept
      cases o <;> exact hkept

/-- Whatever becomes of the command, the state it ends in. -/
theorem final {I : σ → Prop} (h : Triple P m (fun _ => I) I) {s : σ} (hs : P s) :
    I (m.run s).2 := by
  have hrun := h s hs
  cases ho : m.run s with
  | mk o t =>
      rw [ho] at hrun
      cases o with
      | done a => exact hrun
      | raised e => exact hrun
      | blocked => exact hrun

end Triple
end Act
end Effects
