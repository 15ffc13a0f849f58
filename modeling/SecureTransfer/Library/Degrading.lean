import SecureTransfer.Library.Effects

/-!
Commands that make calls which may fail, next to the same commands where nothing fails: a map
of the states turns the failures off, and a view is what can be seen from outside.
-/

namespace Effects
namespace Act

variable {σ τ ε α β : Type}

/-- The command does what it does where nothing fails. -/
def Calmly (calm : σ → σ) (m : Act σ ε α) (s : σ) : Prop :=
  m.run (calm s) = ((m.run s).1, calm (m.run s).2)

/-- Nothing is seen of the command. It raises if it does not do what it does otherwise. -/
def Unseen (calm : σ → σ) (view : σ → τ) (m : Act σ ε α) : Prop :=
  ∀ s, view (m.run s).2 = view s ∧ (Calmly calm m s ∨ ∃ e, (m.run s).1 = .raised e)

/-- The command does what it does otherwise, or it raises and nothing is seen of it, or it is
seen to have failed. -/
def Degrades (calm : σ → σ) (view : σ → τ) (ready : τ → Prop) (told : τ → τ → Prop)
    (m : Act σ ε α) : Prop :=
  ∀ s, ready (view s) → Calmly calm m s ∨
    (∃ e, (m.run s).1 = .raised e ∧ view (m.run s).2 = view s) ∨
      ∃ a, (m.run s).1 = .done a ∧ told (view s) (view (m.run s).2)

section
variable {calm : σ → σ} {view : σ → τ} {ready : τ → Prop} {told : τ → τ → Prop}
  {m : Act σ ε α} {f : α → Act σ ε β} {s t : σ}

theorem Calmly.bind_done {a : α} (hm : Calmly calm m s) (hrun : m.run s = (.done a, t))
    (hf : Calmly calm (f a) t) : Calmly calm (m >>= f) s := by
  rw [Calmly, hrun] at hm
  rw [Calmly, Act.bind_done hrun, Act.bind_done hm]
  exact hf

theorem Calmly.bind_blocked (hm : Calmly calm m s) (hrun : m.run s = (.blocked, t)) :
    Calmly calm (m >>= f) s := by
  rw [Calmly, hrun] at hm
  rw [Calmly, Act.bind_blocked hrun, Act.bind_blocked hm]

theorem Calmly.bind (hm : Calmly calm m s)
    (hf : ∀ a t, m.run s = (.done a, t) → Calmly calm (f a) t) : Calmly calm (m >>= f) s := by
  cases hrun : m.run s with
  | mk o t =>
      cases o with
      | done a => exact hm.bind_done hrun (hf a t hrun)
      | raised e =>
          rw [Calmly, hrun] at hm
          rw [Calmly, Act.bind_raised hrun, Act.bind_raised hm]
      | blocked => exact hm.bind_blocked hrun

theorem Calmly.ofOption (e : ε) (o : Option α) :
    Calmly calm (Act.ofOption e o : Act σ ε α) s := by
  cases o <;> rfl

namespace Unseen

theorem of_calmly (hview : ∀ s, view (m.run s).2 = view s) (hm : ∀ s, Calmly calm m s) :
    Unseen calm view m := fun s => ⟨hview s, .inl (hm s)⟩

theorem pure (a : α) : Unseen calm view (Pure.pure a : Act σ ε α) :=
  of_calmly (fun _ => rfl) fun _ => rfl

theorem raise (e : ε) : Unseen calm view (Act.raise e : Act σ ε α) :=
  of_calmly (fun _ => rfl) fun _ => rfl

theorem modify {g : σ → σ} (hview : ∀ s, view (g s) = view s)
    (hcalm : ∀ s, g (calm s) = calm (g s)) :
    Unseen calm view (Act.modify g : Act σ ε Unit) :=
  of_calmly hview fun s => congrArg (Prod.mk (Outcome.done ())) (hcalm s)

theorem bind (hm : Unseen calm view m) (hf : ∀ a, Unseen calm view (f a)) :
    Unseen calm view (m >>= f) := by
  intro s
  obtain ⟨hview, hsame⟩ := hm s
  cases hrun : m.run s with
  | mk o t =>
      rw [hrun] at hview hsame
      cases o with
      | done a =>
          obtain ⟨hview', hsame'⟩ := hf a t
          rw [Act.bind_done hrun]
          refine ⟨hview'.trans hview, ?_⟩
          obtain hcalm | ⟨e, he⟩ := hsame
          · exact hsame'.imp_left fun h => hcalm.bind_done hrun h
          · cases he
      | raised e =>
          rw [Act.bind_raised hrun]
          exact ⟨hview, .inr ⟨e, rfl⟩⟩
      | blocked =>
          rw [Act.bind_blocked hrun]
          obtain hcalm | ⟨e, he⟩ := hsame
          · exact ⟨hview, .inl (hcalm.bind_blocked hrun)⟩
          · cases he

theorem ofOption (e : ε) (o : Option α) : Unseen calm view (Act.ofOption e o : Act σ ε α) := by
  cases o with
  | none => exact raise e
  | some a => exact pure a

theorem require {c : Prop} [Decidable c] (e : ε) :
    Unseen calm view (Act.require c e : Act σ ε Unit) := by
  rw [Act.require]
  split
  · exact pure ()
  · exact raise e

theorem whenever {c : Prop} [Decidable c] {m : Act σ ε Unit} (hm : Unseen calm view m) :
    Unseen calm view (Act.whenever c m) := by
  rw [Act.whenever]
  split
  · exact hm
  · exact pure ()

end Unseen

namespace Degrades

theorem of_unseen (hm : Unseen calm view m) : Degrades calm view ready told m := by
  intro s _
  obtain ⟨hview, hcalm | ⟨e, he⟩⟩ := hm s
  · exact .inl hcalm
  · exact .inr (.inl ⟨e, he, hview⟩)

theorem of_calmly (hm : ∀ s, Calmly calm m s) : Degrades calm view ready told m :=
  fun s _ => .inl (hm s)

theorem raise (e : ε) : Degrades calm view ready told (Act.raise e : Act σ ε α) :=
  of_unseen (.raise e)

/-- What can be seen comes last. -/
theorem bind (hm : Unseen calm view m) (hf : ∀ a, Degrades calm view ready told (f a)) :
    Degrades calm view ready told (m >>= f) := by
  intro s hs
  obtain ⟨hview, hsame⟩ := hm s
  cases hrun : m.run s with
  | mk o t =>
      rw [hrun] at hview hsame
      cases o with
      | done a =>
          have hnext := hf a t (hview.symm ▸ hs)
          rw [Act.bind_done hrun, ← hview]
          obtain hcalm | ⟨e, he⟩ := hsame
          · exact hnext.imp_left fun h => hcalm.bind_done hrun h
          · cases he
      | raised e =>
          rw [Act.bind_raised hrun]
          exact .inr (.inl ⟨e, rfl, hview⟩)
      | blocked =>
          obtain hcalm | ⟨e, he⟩ := hsame
          · exact .inl (hcalm.bind_blocked hrun)
          · cases he

theorem whenever {c : Prop} [Decidable c] {m : Act σ ε Unit}
    (hm : Degrades calm view ready told m) :
    Degrades calm view ready told (Act.whenever c m) := by
  rw [Act.whenever]
  split
  · exact hm
  · exact of_unseen (.pure ())

/-- A handler that tells of every failure makes no difference otherwise. -/
theorem attempt_cases {handler : ε → Act σ ε α} (hm : Degrades calm view ready told m)
    (hcalm : ∀ e s, Calmly calm (handler e) s)
    (htold : ∀ e s, ready (view s) → ∃ a, ((handler e).run s).1 = .done a ∧
      told (view s) (view ((handler e).run s).2)) (hs : ready (view s)) :
    Calmly calm (Act.attempt m handler) s ∨
      ∃ a, ((Act.attempt m handler).run s).1 = .done a ∧
        told (view s) (view ((Act.attempt m handler).run s).2) := by
  have hcases := hm s hs
  cases hrun : m.run s with
  | mk o t =>
      rw [hrun] at hcases
      rw [Calmly] at hcases ⊢
      rw [hrun] at hcases
      cases o with
      | done a =>
          rw [attempt_done hrun]
          obtain h | ⟨e, he, -⟩ | h := hcases
          · exact .inl (attempt_done h)
          · cases he
          · exact .inr h
      | raised e =>
          rw [attempt_raised hrun]
          obtain h | ⟨-, -, hview⟩ | ⟨a, ha, -⟩ := hcases
          · rw [attempt_raised h]
            exact .inl (hcalm e t)
          · obtain ⟨a, ha, htell⟩ := htold e t (hview.symm ▸ hs)
            exact .inr ⟨a, ha, hview ▸ htell⟩
          · cases ha
      | blocked =>
          rw [attempt_blocked hrun]
          obtain h | ⟨e, he, -⟩ | ⟨a, ha, -⟩ := hcases
          · exact .inl (attempt_blocked h)
          · cases he
          · cases ha

end Degrades
end
end Act
end Effects
