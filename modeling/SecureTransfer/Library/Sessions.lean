import SecureTransfer.Library.Dialogue
import SecureTransfer.Library.Runs
import Mathlib.Logic.Relation
import Mathlib.Order.WellFounded

/-!
A program that talks to a peer while others do so too. What it sends goes over a wire and
waits there; the peer takes one message at a time, and what it answers waits to be read.
`Completes` looks at conversations in which each message is taken at once; `Awaits` carries
it over to all the others.
-/

namespace Dialogue

open Relation (ReflTransGen)

variable {σ φ ι κ : Type} {ρ : κ → Type} {α β : Type}

/-- A peer with states `σ`. It handles a message with a reply, or refuses it with one and
then discards all that waits behind. -/
structure Peer (σ ι : Type) where
  wire : List ι → List ι → Prop
  valid : σ → List ι → Prop
  handles : σ → List ι → σ → List ι → Prop
  refuses : σ → List ι → σ → List ι → Prop
  others : σ → σ → Prop

namespace Prog

/-- Whatever its machine answers, the program reads again before it comes to an end. -/
inductive Patient (M : φ → ∀ q : κ, ρ q → φ → Prop) : φ → Prog (List ι) κ ρ α → Prop where
  | send {f : φ} {data : List ι} {next : Prog (List ι) κ ρ α} (h : Patient M f next) :
      Patient M f (.send data next)
  | recv {f : φ} {size : Nat} {next : List ι → Prog (List ι) κ ρ α} (h : 0 < size) :
      Patient M f (.recv size next)
  | query {f : φ} {q : κ} {next : ρ q → Prog (List ι) κ ρ α}
      (h : ∀ r f', M f q r f' → Patient M f' (next r)) : Patient M f (.query q next)

variable {M : φ → ∀ q : κ, ρ q → φ → Prop} {f : φ}

theorem Patient.bind {p : Prog (List ι) κ ρ α} (h : p.Patient M f)
    (k : α → Prog (List ι) κ ρ β) : (p >>= k).Patient M f := by
  induction h with
  | send _ ih => exact .send ih
  | recv h => exact .recv h
  | query _ ih => exact .query ih

theorem Patient.sendAll {items : List (List ι)} {next : Prog (List ι) κ ρ α}
    (h : next.Patient M f) : (sendAll items next).Patient M f := by
  induction items with
  | nil => exact h
  | cons item items ih => exact .send ih

/-- The program reads next. -/
def Listens (p : Prog (List ι) κ ρ α) : Prop :=
  ∃ size next, 0 < size ∧ p = .recv size next

theorem Listens.bind {p : Prog (List ι) κ ρ α} (h : p.Listens) (k : α → Prog (List ι) κ ρ β) :
    (p >>= k).Listens := by
  obtain ⟨size, next, hsize, rfl⟩ := h
  exact ⟨size, _, hsize, rfl⟩

/-- One program is what another one does next. -/
inductive Follows : Prog (List ι) κ ρ α → Prog (List ι) κ ρ α → Prop where
  | send (data : List ι) (next : Prog (List ι) κ ρ α) : Follows next (.send data next)
  | recv (size : Nat) (next : List ι → Prog (List ι) κ ρ α) (data : List ι) :
      Follows (next data) (.recv size next)
  | query (q : κ) (next : ρ q → Prog (List ι) κ ρ α) (r : ρ q) :
      Follows (next r) (.query q next)

theorem wellFounded_follows :
    WellFounded (Follows : Prog (List ι) κ ρ α → Prog (List ι) κ ρ α → Prop) := by
  refine ⟨fun p => ?_⟩
  induction p with
  | ret a | exit | stuck =>
      refine ⟨_, fun q h => ?_⟩
      cases h
  | send data next ih =>
      refine ⟨_, fun q h => ?_⟩
      cases h
      exact ih
  | recv size next ih =>
      refine ⟨_, fun q h => ?_⟩
      cases h
      exact ih _
  | query q next ih =>
      refine ⟨_, fun q h => ?_⟩
      cases h
      exact ih _

end Prog

section
variable (P : Peer σ ι) (M : φ → ∀ q : κ, ρ q → φ → Prop) (gone : φ → σ → Prop)
  (post : α → φ → σ → Prop)

/-- However the others act and the machine answers, the program comes to a result with
`post` or exits with `gone`, if each of its messages is taken before it goes on. It sends only
when it has read all answers, and awaits the answer to what may be refused. -/
inductive Completes : Prog (List ι) κ ρ α → φ → σ → List ι → Prop where
  | ret {a : α} {f : φ} {s : σ} (h : post a f s) : Completes (.ret a) f s []
  | exit {f : φ} {s : σ} {unread : List ι} (h : gone f s) : Completes .exit f s unread
  | send {data : List ι} {next : Prog (List ι) κ ρ α} {f : φ} {s : σ}
      (hpatient : next.Patient M f)
      (hvalid : ∀ data' s₁, P.wire data data' → ReflTransGen P.others s s₁ → P.valid s₁ data')
      (hhandled : ∀ data' s₁ s₂ reply, P.wire data data' → ReflTransGen P.others s s₁ →
        P.handles s₁ data' s₂ reply → Completes next f s₂ reply)
      (hlistens : ∀ data' s₁ s₂ reply, P.wire data data' → ReflTransGen P.others s s₁ →
        P.refuses s₁ data' s₂ reply → next.Listens)
      (hrefused : ∀ data' s₁ s₂ reply, P.wire data data' → ReflTransGen P.others s s₁ →
        P.refuses s₁ data' s₂ reply → Completes next f s₂ reply) :
      Completes (.send data next) f s []
  | recv {size : Nat} {next : List ι → Prog (List ι) κ ρ α} {f : φ} {s : σ} {unread : List ι}
      (h : size ≤ unread.length)
      (hnext : Completes (next (unread.take size)) f s (unread.drop size)) :
      Completes (.recv size next) f s unread
  | query {q : κ} {next : ρ q → Prog (List ι) κ ρ α} {f : φ} {s : σ} {unread : List ι}
      (hnext : ∀ r f', M f q r f' → Completes (next r) f' s unread) :
      Completes (.query q next) f s unread

end

variable {P : Peer σ ι} {M : φ → ∀ q : κ, ρ q → φ → Prop} {gone : φ → σ → Prop}
  {post : α → φ → σ → Prop}

namespace Completes

variable {p : Prog (List ι) κ ρ α} {f : φ} {s t : σ} {unread : List ι}

theorem bind {post' : β → φ → σ → Prop} {k : α → Prog (List ι) κ ρ β}
    (hp : Completes P M gone post p f s unread)
    (hk : ∀ a f s, post a f s → Completes P M gone post' (k a) f s []) :
    Completes P M gone post' (p >>= k) f s unread := by
  induction hp with
  | ret h => exact hk _ _ _ h
  | exit h => exact .exit h
  | send hpatient hvalid _ hlistens _ ihhandled ihrefused =>
      refine .send (hpatient.bind k) hvalid ihhandled ?_ ihrefused
      intro data' s₁ s₂ reply hwire hothers hrefuses
      exact (hlistens data' s₁ s₂ reply hwire hothers hrefuses).bind k
  | recv h _ ih => exact .recv h ih
  | query _ ih => exact .query ih

theorem mono_gone {gone' : φ → σ → Prop} {post' : α → φ → σ → Prop}
    (hp : Completes P M gone post p f s unread) (hgone : ∀ f s, gone f s → gone' f s)
    (h : ∀ a f s, post a f s → post' a f s) : Completes P M gone' post' p f s unread := by
  induction hp with
  | ret ha => exact .ret (h _ _ _ ha)
  | exit he => exact .exit (hgone _ _ he)
  | send hpatient hvalid _ hlistens _ ihhandled ihrefused =>
      exact .send hpatient hvalid ihhandled hlistens ihrefused
  | recv hsize _ ih => exact .recv hsize ih
  | query _ ih => exact .query ih

theorem mono {post' : α → φ → σ → Prop} (hp : Completes P M gone post p f s unread)
    (h : ∀ a f s, post a f s → post' a f s) : Completes P M gone post' p f s unread :=
  hp.mono_gone (fun _ _ hgone => hgone) h

/-- A reader that finds its answer, and what follows it. -/
theorem of_reading_bind {post' : β → φ → σ → Prop} {q : Prog (List ι) κ ρ α}
    {k : α → Prog (List ι) κ ρ β} {stream left : List ι} (h : p.reading stream = (q, left))
    (hq : Completes P M gone post' (q >>= k) f s left) :
    Completes P M gone post' (p >>= k) f s stream := by
  induction p generalizing stream with
  | recv size next ih =>
      rw [Prog.reading] at h
      split at h
      · rename_i hsize
        exact .recv hsize (ih _ h)
      · obtain ⟨rfl, rfl⟩ := Prod.mk.inj h
        exact hq
  | ret a | exit | stuck | send data next _ | query q next _ =>
      obtain ⟨rfl, rfl⟩ := Prod.mk.inj h
      exact hq

theorem of_reading {q : Prog (List ι) κ ρ α} {stream left : List ι}
    (h : p.reading stream = (q, left)) (hq : Completes P M gone post q f s left) :
    Completes P M gone post p f s stream := by
  rw [← bind_pure p]
  rw [← bind_pure q] at hq
  exact of_reading_bind h hq

/-- What others do in between does no harm. -/
theorem others (hpost : ∀ a f s t, post a f s → P.others s t → post a f t)
    (hgone : ∀ f s t, gone f s → P.others s t → gone f t)
    (hp : Completes P M gone post p f s unread) (h : P.others s t) :
    Completes P M gone post p f t unread := by
  induction hp with
  | ret ha => exact .ret (hpost _ _ _ _ ha h)
  | exit he => exact .exit (hgone _ _ _ he h)
  | send hpatient hvalid hhandled hlistens hrefused _ _ =>
      refine .send hpatient ?_ ?_ ?_ ?_
      · exact fun data' s₁ hwire hothers => hvalid _ _ hwire (.head h hothers)
      · exact fun data' s₁ s₂ reply hwire hothers => hhandled _ _ _ _ hwire (.head h hothers)
      · exact fun data' s₁ s₂ reply hwire hothers => hlistens _ _ _ _ hwire (.head h hothers)
      · exact fun data' s₁ s₂ reply hwire hothers => hrefused _ _ _ _ hwire (.head h hothers)
  | recv hsize _ ih => exact .recv hsize (ih h)
  | query _ ih => exact .query fun r f' hr => ih r f' hr h

end Completes

section
variable (P : Peer σ ι) (M : φ → ∀ q : κ, ρ q → φ → Prop) (gone : φ → σ → Prop)
  (post : α → φ → σ → Prop)

/-- The program completes once the messages under way are taken. -/
def Awaits (p : Prog (List ι) κ ρ α) (f : φ) : List (List ι) → σ → List ι → Prop
  | [], s, unread => Completes P M gone post p f s unread
  | data :: queue, s, unread =>
      unread = [] ∧ p.Patient M f ∧ ∀ s₁, ReflTransGen P.others s s₁ → P.valid s₁ data ∧
        ∀ s₂ reply,
          (P.handles s₁ data s₂ reply → Awaits p f queue s₂ reply) ∧
          (P.refuses s₁ data s₂ reply → queue = [] ∧ p.Listens ∧
            Completes P M gone post p f s₂ reply)

end

namespace Awaits

variable {p : Prog (List ι) κ ρ α} {f : φ} {queue : List (List ι)} {s t : σ} {unread : List ι}

theorem unread_eq_nil {data : List ι} (h : Awaits P M gone post p f (data :: queue) s unread) :
    unread = [] := h.1

theorem patient {data : List ι} (h : Awaits P M gone post p f (data :: queue) s unread) :
    p.Patient M f := h.2.1

theorem valid {data : List ι} (h : Awaits P M gone post p f (data :: queue) s unread) :
    P.valid s data := (h.2.2 s .refl).1

theorem send {data data' : List ι} {next : Prog (List ι) κ ρ α}
    (h : Awaits P M gone post (.send data next) f queue s unread)
    (hwire : P.wire data data') : Awaits P M gone post next f (queue ++ [data']) s unread := by
  induction queue generalizing s unread with
  | nil =>
      cases h with
      | send hpatient hvalid hhandled hlistens hrefused =>
          refine ⟨rfl, hpatient, fun s₁ hothers => ⟨hvalid _ _ hwire hothers, fun s₂ reply =>
            ⟨?_, ?_⟩⟩⟩
          · exact hhandled _ _ _ _ hwire hothers
          · intro hrefuses
            exact ⟨rfl, hlistens _ _ _ _ hwire hothers hrefuses,
              hrefused _ _ _ _ hwire hothers hrefuses⟩
  | cons first queue ih =>
      obtain ⟨hunread, hpatient, hlater⟩ := h
      cases hpatient with
      | send hpatient =>
          refine ⟨hunread, hpatient, fun s₁ hothers => ⟨(hlater s₁ hothers).1, fun s₂ reply =>
            ⟨?_, ?_⟩⟩⟩
          · intro hhandles
            exact ih (((hlater s₁ hothers).2 s₂ reply).1 hhandles)
          · intro hrefuses
            obtain ⟨-, ⟨size, next', -, hlistens⟩, -⟩ :=
              ((hlater s₁ hothers).2 s₂ reply).2 hrefuses
            cases hlistens

theorem recv {size : Nat} {next : List ι → Prog (List ι) κ ρ α}
    (h : Awaits P M gone post (.recv size next) f queue s unread)
    (hsize : size ≤ unread.length) :
    Awaits P M gone post (next (unread.take size)) f queue s (unread.drop size) := by
  cases queue with
  | nil =>
      cases h with
      | recv _ hnext => exact hnext
  | cons data queue =>
      cases h.patient with
      | recv hpos =>
          rw [h.unread_eq_nil] at hsize
          exact absurd hsize (Nat.not_le.mpr hpos)

theorem query {q : κ} {next : ρ q → Prog (List ι) κ ρ α} {r : ρ q} {f' : φ}
    (h : Awaits P M gone post (.query q next) f queue s unread) (hr : M f q r f') :
    Awaits P M gone post (next r) f' queue s unread := by
  induction queue generalizing s unread with
  | nil =>
      cases h with
      | query hnext => exact hnext r f' hr
  | cons data queue ih =>
      obtain ⟨hunread, hpatient, hlater⟩ := h
      cases hpatient with
      | query hpatient =>
          refine ⟨hunread, hpatient r f' hr, fun s₁ hothers => ⟨(hlater s₁ hothers).1,
            fun s₂ reply => ⟨?_, ?_⟩⟩⟩
          · intro hhandles
            exact ih (((hlater s₁ hothers).2 s₂ reply).1 hhandles)
          · intro hrefuses
            obtain ⟨-, ⟨size, next', -, hlistens⟩, -⟩ :=
              ((hlater s₁ hothers).2 s₂ reply).2 hrefuses
            cases hlistens

theorem handle {data reply : List ι}
    (h : Awaits P M gone post p f (data :: queue) s unread)
    (hhandles : P.handles s data t reply) :
    Awaits P M gone post p f queue t (unread ++ reply) := by
  rw [h.unread_eq_nil]
  exact ((h.2.2 s .refl).2 t reply).1 hhandles

theorem refuse {data reply : List ι}
    (h : Awaits P M gone post p f (data :: queue) s unread)
    (hrefuses : P.refuses s data t reply) :
    Awaits P M gone post p f [] t (unread ++ reply) := by
  rw [h.unread_eq_nil]
  exact (((h.2.2 s .refl).2 t reply).2 hrefuses).2.2

theorem others (hpost : ∀ a f s t, post a f s → P.others s t → post a f t)
    (hgone : ∀ f s t, gone f s → P.others s t → gone f t)
    (h : Awaits P M gone post p f queue s unread) (hst : P.others s t) :
    Awaits P M gone post p f queue t unread := by
  cases queue with
  | nil => exact Completes.others hpost hgone h hst
  | cons data queue =>
      obtain ⟨hunread, hpatient, hlater⟩ := h
      exact ⟨hunread, hpatient, fun s₁ hothers => hlater s₁ (.head hst hothers)⟩

theorem not_stuck (h : Awaits P M gone post p f queue s unread) : p ≠ .stuck := by
  intro hp
  subst hp
  cases queue with
  | nil => cases h
  | cons data queue => cases h.patient

theorem exit (h : Awaits P M gone post .exit f queue s unread) : queue = [] ∧ gone f s := by
  cases queue with
  | nil =>
      cases h with
      | exit h => exact ⟨rfl, h⟩
  | cons data queue => cases h.patient

theorem result {a : α} (h : Awaits P M gone post (.ret a) f queue s unread) :
    queue = [] ∧ unread = [] ∧ post a f s := by
  cases queue with
  | nil =>
      cases h with
      | ret h => exact ⟨rfl, rfl, h⟩
  | cons data queue => cases h.patient

theorem readable {size : Nat} {next : List ι → Prog (List ι) κ ρ α}
    (h : Awaits P M gone post (.recv size next) f [] s unread) : size ≤ unread.length := by
  cases h with
  | recv h _ => exact h

end Awaits

/-! The conversation as a system of its own. -/

structure Session (σ φ ι κ : Type) (ρ : κ → Type) (α : Type) where
  prog : Prog (List ι) κ ρ α
  machine : φ
  queue : List (List ι)
  peer : σ
  unread : List ι

inductive Move where
  | program
  | peer
  | others
deriving DecidableEq

namespace Session

variable (P M) in
inductive Step : Session σ φ ι κ ρ α → Move → Session σ φ ι κ ρ α → Prop where
  | send {data data' : List ι} {next : Prog (List ι) κ ρ α} {f : φ} {queue : List (List ι)}
      {s : σ} {unread : List ι} (h : P.wire data data') :
      Step ⟨.send data next, f, queue, s, unread⟩ .program ⟨next, f, queue ++ [data'], s, unread⟩
  | recv {size : Nat} {next : List ι → Prog (List ι) κ ρ α} {f : φ} {queue : List (List ι)}
      {s : σ} {unread : List ι} (h : size ≤ unread.length) :
      Step ⟨.recv size next, f, queue, s, unread⟩ .program
        ⟨next (unread.take size), f, queue, s, unread.drop size⟩
  | query {q : κ} {next : ρ q → Prog (List ι) κ ρ α} {f f' : φ} {r : ρ q}
      {queue : List (List ι)} {s : σ} {unread : List ι} (h : M f q r f') :
      Step ⟨.query q next, f, queue, s, unread⟩ .program ⟨next r, f', queue, s, unread⟩
  | handle {p : Prog (List ι) κ ρ α} {f : φ} {data reply : List ι} {queue : List (List ι)}
      {s t : σ} {unread : List ι} (h : P.handles s data t reply) :
      Step ⟨p, f, data :: queue, s, unread⟩ .peer ⟨p, f, queue, t, unread ++ reply⟩
  | refuse {p : Prog (List ι) κ ρ α} {f : φ} {data reply : List ι} {queue : List (List ι)}
      {s t : σ} {unread : List ι} (h : P.refuses s data t reply) :
      Step ⟨p, f, data :: queue, s, unread⟩ .peer ⟨p, f, [], t, unread ++ reply⟩
  | others {p : Prog (List ι) κ ρ α} {f : φ} {queue : List (List ι)} {s t : σ}
      {unread : List ι} (h : P.others s t) :
      Step ⟨p, f, queue, s, unread⟩ .others ⟨p, f, queue, t, unread⟩

theorem Step.follows {x y : Session σ φ ι κ ρ α} (h : Step P M x .program y) :
    Prog.Follows y.prog x.prog := by
  cases h with
  | send _ => exact .send _ _
  | recv _ => exact .recv _ _ _
  | query _ => exact .query _ _ _

variable (P M gone post) in
/-- Whatever happens from here on, the program completes. -/
def OnCourse (x : Session σ φ ι κ ρ α) : Prop :=
  Awaits P M gone post x.prog x.machine x.queue x.peer x.unread

/-- No order of the steps keeps the program from completing. -/
theorem OnCourse.step (hpost : ∀ a f s t, post a f s → P.others s t → post a f t)
    (hgone : ∀ f s t, gone f s → P.others s t → gone f t) {x y : Session σ φ ι κ ρ α} {m : Move}
    (h : x.OnCourse P M gone post) (hstep : Step P M x m y) : y.OnCourse P M gone post := by
  cases hstep with
  | send hwire => exact Awaits.send h hwire
  | recv hsize => exact Awaits.recv h hsize
  | query hr => exact Awaits.query h hr
  | handle hhandles => exact Awaits.handle h hhandles
  | refuse hrefuses => exact Awaits.refuse h hrefuses
  | others hst => exact Awaits.others hpost hgone h hst

end Session
end Dialogue
