import Mathlib.Tactic.Common

/-!
Programs that talk to a peer and to their machine: trees of sends, reads and
queries, whose later steps depend on what was read. `stuck` stands for a recursion
that outran the turns allowed for it.
-/

namespace Dialogue

/-- `κ` is the kind of a query and `ρ` the type of its result. -/
inductive Prog (ω κ : Type) (ρ : κ → Type) (α : Type) where
  | ret (a : α)
  | exit
  | stuck
  | send (data : ω) (next : Prog ω κ ρ α)
  | recv (size : Nat) (next : ω → Prog ω κ ρ α)
  | query (q : κ) (next : ρ q → Prog ω κ ρ α)

namespace Prog

variable {ω κ : Type} {ρ : κ → Type} {α β : Type}

def bind (p : Prog ω κ ρ α) (f : α → Prog ω κ ρ β) : Prog ω κ ρ β :=
  match p with
  | ret a => f a
  | exit => exit
  | stuck => stuck
  | send data next => send data (next.bind f)
  | recv size next => recv size fun data => (next data).bind f
  | query q next => query q fun r => (next r).bind f

instance : Monad (Prog ω κ ρ) where
  pure := ret
  bind := bind

theorem bind_ret (p : Prog ω κ ρ α) : p.bind ret = p := by
  induction p with
  | ret _ | exit | stuck => rfl
  | send data next ih => rw [bind, ih]
  | recv size next ih => rw [bind, funext ih]
  | query q next ih => rw [bind, funext ih]

theorem bind_bind {γ : Type} (p : Prog ω κ ρ α) (f : α → Prog ω κ ρ β)
    (g : β → Prog ω κ ρ γ) : (p.bind f).bind g = p.bind fun a => (f a).bind g := by
  induction p with
  | ret _ | exit | stuck => rfl
  | send data next ih => simp only [bind, ih]
  | recv size next ih => simp only [bind, ih]
  | query q next ih => simp only [bind, ih]

instance : LawfulMonad (Prog ω κ ρ) :=
  LawfulMonad.mk' _ (fun p => bind_ret p) (fun _ _ => rfl) fun p f g => bind_bind p f g

@[simp] theorem ret_bind (a : α) (f : α → Prog ω κ ρ β) :
    ((ret a : Prog ω κ ρ α) >>= f) = f a := rfl

@[simp] theorem send_bind (data : ω) (next : Prog ω κ ρ α) (f : α → Prog ω κ ρ β) :
    (send data next >>= f) = send data (next >>= f) := rfl

@[simp] theorem recv_bind (size : Nat) (next : ω → Prog ω κ ρ α) (f : α → Prog ω κ ρ β) :
    (recv size next >>= f) = recv size fun data => next data >>= f := rfl

@[simp] theorem query_bind (q : κ) (next : ρ q → Prog ω κ ρ α) (f : α → Prog ω κ ρ β) :
    (query q next >>= f) = query q fun r => next r >>= f := rfl

@[simp] theorem exit_bind (f : α → Prog ω κ ρ β) : ((exit : Prog ω κ ρ α) >>= f) = exit := rfl

@[simp] theorem stuck_bind (f : α → Prog ω κ ρ β) : ((stuck : Prog ω κ ρ α) >>= f) = stuck :=
  rfl

/-- Send the items in turn, then go on. -/
def sendAll (items : List ω) (next : Prog ω κ ρ α) : Prog ω κ ρ α :=
  items.foldr send next

theorem sendAll_bind (items : List ω) (next : Prog ω κ ρ α) (f : α → Prog ω κ ρ β) :
    (sendAll items next >>= f) = sendAll items (next >>= f) := by
  induction items with
  | nil => rfl
  | cons item items ih => exact congrArg (send item) ih

/-- What a program sends before it does anything else. -/
def emitted : Prog ω κ ρ α → List ω
  | send data next => data :: next.emitted
  | _ => []

theorem emitted_sendAll (items : List ω) (next : Prog ω κ ρ α) :
    (sendAll items next).emitted = items ++ next.emitted := by
  induction items with
  | nil => rfl
  | cons item items ih => exact congrArg (item :: ·) ih

/-- Let a program read from the items that have arrived, until it does anything else or
needs more of them. Returns what is left of both. -/
def reading {ι : Type} : Prog (List ι) κ ρ α → List ι → Prog (List ι) κ ρ α × List ι
  | recv size next, stream =>
      if size ≤ stream.length then reading (next (stream.take size)) (stream.drop size)
      else (recv size next, stream)
  | p, stream => (p, stream)

theorem reading_recv {ι : Type} {size : Nat} {next : List ι → Prog (List ι) κ ρ α}
    {field : List ι} (h : field.length = size) (rest : List ι) :
    (recv size next).reading (field ++ rest) = (next field).reading rest := by
  rw [reading, if_pos (by simp [← h]), List.take_left' h, List.drop_left' h]

/-- What a program does next is not a read. -/
def Pauses {ι : Type} (p : Prog (List ι) κ ρ α) : Prop := ∀ stream, p.reading stream = (p, stream)

namespace Pauses

variable {ι : Type}

theorem ret (a : α) : Pauses (.ret a : Prog (List ι) κ ρ α) := fun _ => rfl

theorem exit : Pauses (.exit : Prog (List ι) κ ρ α) := fun _ => rfl

theorem stuck : Pauses (.stuck : Prog (List ι) κ ρ α) := fun _ => rfl

theorem send (data : List ι) (next : Prog (List ι) κ ρ α) : Pauses (.send data next) := fun _ => rfl

theorem query (q : κ) (next : ρ q → Prog (List ι) κ ρ α) : Pauses (.query q next) := fun _ => rfl

end Pauses

/-! Runs with all that passed between the program, its peer and its machine, and what a
ledger of that rules out. -/

inductive Observation (ω κ : Type) (ρ : κ → Type) where
  | sent (data : ω)
  | read (data : ω)
  | asked (q : κ) (r : ρ q)

/-- A program after a run, up to some point. -/
inductive Reaches (okRecv : Nat → ω → Prop) :
    Prog ω κ ρ α → List (Observation ω κ ρ) → Prog ω κ ρ α → Prop where
  | here (p : Prog ω κ ρ α) : Reaches okRecv p [] p
  | send {data : ω} {next q : Prog ω κ ρ α} {history : List (Observation ω κ ρ)}
      (h : Reaches okRecv next history q) :
      Reaches okRecv (.send data next) (.sent data :: history) q
  | recv {size : Nat} {next : ω → Prog ω κ ρ α} {data : ω} {q : Prog ω κ ρ α}
      {history : List (Observation ω κ ρ)} (hok : okRecv size data)
      (h : Reaches okRecv (next data) history q) :
      Reaches okRecv (.recv size next) (.read data :: history) q
  | query {k : κ} {next : ρ k → Prog ω κ ρ α} {r : ρ k} {q : Prog ω κ ρ α}
      {history : List (Observation ω κ ρ)} (h : Reaches okRecv (next r) history q) :
      Reaches okRecv (.query k next) (.asked k r :: history) q

theorem Reaches.split {okRecv : Nat → ω → Prop} {p q : Prog ω κ ρ α}
    {before after : List (Observation ω κ ρ)} (h : Reaches okRecv p (before ++ after) q) :
    ∃ m, Reaches okRecv p before m ∧ Reaches okRecv m after q := by
  induction before generalizing p with
  | nil => exact ⟨p, .here p, h⟩
  | cons o before ih =>
      cases h with
      | send h =>
          obtain ⟨m, hm, hq⟩ := ih h
          exact ⟨m, .send hm, hq⟩
      | recv hok h =>
          obtain ⟨m, hm, hq⟩ := ih h
          exact ⟨m, .recv hok hm, hq⟩
      | query h =>
          obtain ⟨m, hm, hq⟩ := ih h
          exact ⟨m, .query hm, hq⟩

/-- No program runs for ever. -/
theorem Reaches.finite {okRecv : Nat → ω → Prop} (p : Prog ω κ ρ α)
    (f : Nat → Observation ω κ ρ) :
    ∃ n, ∀ q, ¬ Reaches okRecv p ((List.range n).map f) q := by
  induction p generalizing f with
  | ret a | exit | stuck => exact ⟨1, fun q h => nomatch h⟩
  | send data next ih =>
      obtain ⟨n, hn⟩ := ih (f ∘ Nat.succ)
      refine ⟨n + 1, fun q h => ?_⟩
      rw [List.range_succ_eq_map, List.map_cons, List.map_map] at h
      generalize f 0 = o at h
      cases h with
      | send h => exact hn q h
  | recv size next ih =>
      cases hfirst : f 0 with
      | read data =>
          obtain ⟨n, hn⟩ := ih data (f ∘ Nat.succ)
          refine ⟨n + 1, fun q h => ?_⟩
          rw [List.range_succ_eq_map, List.map_cons, List.map_map, hfirst] at h
          cases h with
          | recv _ h => exact hn q h
      | sent _ | asked _ _ =>
          refine ⟨1, fun q h => ?_⟩
          rw [List.range_one, List.map_singleton, hfirst] at h
          cases h
  | query k next ih =>
      cases hfirst : f 0 with
      | asked k' r =>
          by_cases hk : k' = k
          · subst hk
            obtain ⟨n, hn⟩ := ih r (f ∘ Nat.succ)
            refine ⟨n + 1, fun q h => ?_⟩
            rw [List.range_succ_eq_map, List.map_cons, List.map_map, hfirst] at h
            cases h with
            | query h => exact hn q h
          · refine ⟨1, fun q h => ?_⟩
            rw [List.range_one, List.map_singleton, hfirst] at h
            cases h
            exact hk rfl
      | sent _ | read _ =>
          refine ⟨1, fun q h => ?_⟩
          rw [List.range_one, List.map_singleton, hfirst] at h
          cases h

/-- What a ledger assumes of the surroundings of a program and asks of the program: the
data that can be read and the results that queries can have, how an observation is noted,
which observations are permitted, and whether a turn may be missing. -/
structure Rules (ω κ : Type) (ρ : κ → Type) (σ : Type) where
  okRecv : Nat → ω → Prop
  okQuery : ∀ q, ρ q → Prop
  note : σ → Observation ω κ ρ → σ
  permits : σ → Observation ω κ ρ → Prop
  mayStick : Prop

/-- `Keeps rules post s p`: in every run of `p` from the state `s` of the ledger each
observation is permitted in the state then, and a result satisfies `post`. -/
inductive Keeps {σ : Type} (rules : Rules ω κ ρ σ) (post : α → σ → Prop) :
    σ → Prog ω κ ρ α → Prop where
  | ret {s : σ} {a : α} (h : post a s) : Keeps rules post s (.ret a)
  | exit {s : σ} : Keeps rules post s .exit
  | stuck {s : σ} (h : rules.mayStick) : Keeps rules post s .stuck
  | send {s : σ} {data : ω} {next : Prog ω κ ρ α} (hok : rules.permits s (.sent data))
      (hnext : Keeps rules post (rules.note s (.sent data)) next) :
      Keeps rules post s (.send data next)
  | recv {s : σ} {size : Nat} {next : ω → Prog ω κ ρ α}
      (hok : ∀ data, rules.okRecv size data → rules.permits s (.read data))
      (hnext : ∀ data, rules.okRecv size data →
        Keeps rules post (rules.note s (.read data)) (next data)) :
      Keeps rules post s (.recv size next)
  | query {s : σ} {k : κ} {next : ρ k → Prog ω κ ρ α}
      (hok : ∀ r, rules.okQuery k r → rules.permits s (.asked k r))
      (hnext : ∀ r, rules.okQuery k r → Keeps rules post (rules.note s (.asked k r)) (next r)) :
      Keeps rules post s (.query k next)

section
variable {σ : Type} {rules : Rules ω κ ρ σ}

theorem Keeps.bind {post : α → σ → Prop} {post' : β → σ → Prop} {s : σ} {p : Prog ω κ ρ α}
    {f : α → Prog ω κ ρ β} (hp : Keeps rules post s p)
    (hf : ∀ a t, post a t → Keeps rules post' t (f a)) : Keeps rules post' s (p >>= f) := by
  induction hp with
  | ret h => exact hf _ _ h
  | exit => exact .exit
  | stuck h => exact .stuck h
  | send hok _ ih => exact .send hok ih
  | recv hok _ ih => exact .recv hok ih
  | query hok _ ih => exact .query hok ih

theorem Keeps.mono {post post' : α → σ → Prop} {s : σ} {p : Prog ω κ ρ α}
    (hp : Keeps rules post s p) (h : ∀ a t, post a t → post' a t) : Keeps rules post' s p := by
  induction hp with
  | ret ha => exact .ret (h _ _ ha)
  | exit => exact .exit
  | stuck h => exact .stuck h
  | send hok _ ih => exact .send hok ih
  | recv hok _ ih => exact .recv hok ih
  | query hok _ ih => exact .query hok ih

/-- Each item is sent in the state that the items before it leave. -/
theorem Keeps.sendAll {post : α → σ → Prop} {s : σ} {items : List ω} {next : Prog ω κ ρ α}
    (h : ∀ before item after, items = before ++ item :: after →
      rules.permits ((before.map .sent).foldl rules.note s) (.sent item))
    (hnext : Keeps rules post ((items.map .sent).foldl rules.note s) next) :
    Keeps rules post s (sendAll items next) := by
  induction items generalizing s with
  | nil => exact hnext
  | cons item items ih =>
      refine .send (h [] item items rfl) (ih ?_ hnext)
      intro before item' after hitems
      exact h (item :: before) item' after (congrArg (item :: ·) hitems)

theorem Keeps.not_stuck {post : α → σ → Prop} {s : σ} {p : Prog ω κ ρ α}
    (hp : Keeps rules post s p) (hnever : ¬ rules.mayStick) : p ≠ .stuck := by
  intro hstuck
  subst hstuck
  cases hp with
  | stuck h => exact hnever h

/-- What is kept of a program is kept of all that it comes to. -/
theorem Keeps.reaches {post : α → σ → Prop} {s : σ} {p q : Prog ω κ ρ α}
    {history : List (Observation ω κ ρ)} (hp : Keeps rules post s p)
    (h : Reaches rules.okRecv p history q)
    (hasked : ∀ k r, Observation.asked k r ∈ history → rules.okQuery k r) :
    Keeps rules post (history.foldl rules.note s) q := by
  induction h generalizing s with
  | here _ => exact hp
  | send _ ih =>
      cases hp with
      | send _ hnext => exact ih hnext fun k r hmem => hasked k r (List.mem_cons_of_mem _ hmem)
  | recv hdata _ ih =>
      cases hp with
      | recv _ hnext =>
          exact ih (hnext _ hdata) fun k r hmem => hasked k r (List.mem_cons_of_mem _ hmem)
  | query _ ih =>
      cases hp with
      | query _ hnext =>
          exact ih (hnext _ (hasked _ _ List.mem_cons_self)) fun k r hmem =>
            hasked k r (List.mem_cons_of_mem _ hmem)

/-- Every observation of a run was permitted when it was made. -/
theorem Keeps.observed {post : α → σ → Prop} {s : σ} {p q : Prog ω κ ρ α}
    {before after : List (Observation ω κ ρ)} {o : Observation ω κ ρ}
    (hp : Keeps rules post s p) (h : Reaches rules.okRecv p (before ++ o :: after) q)
    (hasked : ∀ k r, Observation.asked k r ∈ before ++ o :: after → rules.okQuery k r) :
    rules.permits (before.foldl rules.note s) o := by
  obtain ⟨m, hbefore, hafter⟩ := h.split
  have hm := hp.reaches hbefore fun k r hmem => hasked k r (List.mem_append_left _ hmem)
  cases hafter with
  | send _ =>
      cases hm with
      | send hok _ => exact hok
  | recv hdata _ =>
      cases hm with
      | recv hok _ => exact hok _ hdata
  | query _ =>
      cases hm with
      | query hok _ =>
          exact hok _ (hasked _ _ (List.mem_append_right _ List.mem_cons_self))

/-- What a history sends, each item with the state of the ledger then. -/
def posted (note : σ → Observation ω κ ρ → σ) : σ → List (Observation ω κ ρ) → List (σ × ω)
  | _, [] => []
  | s, .sent data :: history => (s, data) :: posted note (note s (.sent data)) history
  | s, o :: history => posted note (note s o) history

theorem split_of_mem_posted {note : σ → Observation ω κ ρ → σ} {s : σ}
    {history : List (Observation ω κ ρ)} {w : σ × ω} (h : w ∈ posted note s history) :
    ∃ before after, history = before ++ .sent w.2 :: after ∧ w.1 = before.foldl note s := by
  induction history generalizing s with
  | nil => cases h
  | cons o history ih =>
      have hlater : w ∈ posted note (note s o) history → ∃ before after,
          o :: history = before ++ .sent w.2 :: after ∧ w.1 = before.foldl note s := by
        intro hmem
        obtain ⟨before, after, hhistory, hw⟩ := ih hmem
        exact ⟨o :: before, after, congrArg (o :: ·) hhistory, hw⟩
      cases o with
      | sent data =>
          obtain rfl | hmem := List.mem_cons.mp h
          · exact ⟨[], history, rfl, rfl⟩
          · exact hlater hmem
      | read data => exact hlater h
      | asked q r => exact hlater h

theorem Keeps.posted {post : α → σ → Prop} {s : σ} {p q : Prog ω κ ρ α}
    {history : List (Observation ω κ ρ)} (hp : Keeps rules post s p)
    (h : Reaches rules.okRecv p history q)
    (hasked : ∀ k r, Observation.asked k r ∈ history → rules.okQuery k r) :
    ∀ w ∈ posted rules.note s history, rules.permits w.1 (.sent w.2) := by
  intro w hw
  obtain ⟨before, after, rfl, hstate⟩ := split_of_mem_posted hw
  exact hstate ▸ hp.observed h hasked

end

end Prog
end Dialogue
