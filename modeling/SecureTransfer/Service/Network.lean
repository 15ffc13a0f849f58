import SecureTransfer.Service.LaterVisit

/-!
Any number of clients with names of their own on one select loop. Each of them is for every
other one just somebody who is courteous, so each comes to its end; and as all the steps of
the network belong to some client, no run of it goes on for ever.
-/

open Octets (Text)
open Effects Act
open Runs (System)
open Dialogue
open SecureTransfer.ClientSide (Files Toolkit KeyPair)

namespace SecureTransfer

structure Party where
  prog : ClientSide.Prog Unit
  files : Files
  taken : Nat

/-- The client in place `i` is on socket `i` of the loop. -/
structure Network where
  parties : List Party
  loop : Loop

def Party.visit (p : Party) (l : Loop) : Visit := ⟨p.prog, p.files, l, p.taken⟩

def Visit.party (x : Visit) : Party := ⟨x.prog, x.files, x.taken⟩

inductive NetworkEvent where
  | client (socket : Nat) (keys : KeyPair) (arrived : Bytes)
  | callback (socket : Nat) (draws : Draws)

def NetworkEvent.socket : NetworkEvent → Nat
  | .client socket _ _ | .callback socket _ => socket

/-- What the client and the server know of each other. -/
inductive Stage where
  | first
  | later (keys : KeyPair) (owner : Client) (contents : Text → Option Bytes)

/-- A client of the network. -/
structure Member (site : Site) where
  kit : Toolkit
  errand : Errand site kit
  stage : Stage
  files : Files
  given : errand.Given files

section
variable {site : Site}

def Member.Begins (m : Member site) (s : Server) : Prop :=
  match m.stage with
  | .first => m.files ClientSide.meInfo = none ∧ m.errand.name ∉ s.names
  | .later keys owner contents => owner.clientName = m.errand.name ∧
      m.kit.base64Decode ((m.kit.base64Encode keys.privateKey).filter (· ≠ 10)) =
        keys.privateKey ∧
      Acquainted site m.kit keys owner contents m.files s

def Member.Ends (m : Member site) (files : Files) (s : Server) : Prop :=
  match m.stage with
  | .first => m.errand.Registered m.files files s
  | .later keys owner contents => owner.clientName = m.errand.name ∧
      m.errand.Returned keys owner contents m.files files s

variable (members : List (Member site))

inductive Network.Step (net : Network) : NetworkEvent → Network → Prop where
  | client {i : Nat} {m : Member site} {p : Party} {keys : KeyPair} {arrived : Bytes} {y : Visit}
      (hm : members[i]? = some m) (hp : net.parties[i]? = some p) (hkeys : Works site m.kit keys)
      (harrived : ∀ data rest, p.prog = .send data rest → data = arrived)
      (hnext : (p.visit net.loop).next site i (.client keys arrived) = some y) :
      Step net (.client i keys arrived) ⟨net.parties.set i y.party, y.loop⟩
  | callback {i : Nat} {draws : Draws} {l : Loop} (hfresh : draws.uuid ∉ net.loop.server.ids)
      (hnul : (0 : UInt8) ∉ draws.uuid) (hready : net.loop.Admissible (.callback draws [] i))
      (hnext : net.loop.next site (.callback draws [] i) = some l) :
      Step net (.callback i draws) ⟨net.parties, l⟩

/-- All of them start with open connections to a server that has never given an id of zeros. -/
structure Network.Starts (net : Network) : Prop where
  server : (plainRuns site).Reachable net.loop.server
  zero : List.replicate General.clientIdSize 0 ∉ net.loop.server.ids
  parties : net.parties = members.map fun m => ⟨ClientSide.main m.kit, m.files, 0⟩
  conns : net.loop.conns = List.replicate members.length .accepted
  begins : ∀ m ∈ members, m.Begins net.loop.server

def network : System Network NetworkEvent := ⟨Network.Starts members, Network.Step members⟩

/-- What holds in every state of the network. -/
structure Network.Good (net : Network) : Prop where
  parties : net.parties.length = members.length
  conns : net.loop.conns.length = members.length
  zero : List.replicate General.clientIdSize 0 ∉ net.loop.server.ids
  guided : ∀ (i : Nat) (m : Member site) (p : Party), members[i]? = some m →
    net.parties[i]? = some p →
    (p.visit net.loop).Guided site m.kit m.errand.name Eq i Never fun _ => m.Ends

end

section
variable {site : Site} {s t : Server} {name : Text}

/-- A request of one client is courteous to all the others. -/
theorem Asked.courteous {other : Text} {r : Reception} {id : Bytes} {body : Body}
    (h : Asked other s id body) (hr : r.incoming = .request id body) (hne : name ≠ other)
    (hs : WellFormed s) (hzero : List.replicate General.clientIdSize 0 ∉ s.ids) :
    Courteous name s r := by
  intro id' body' hr'
  obtain ⟨rfl, rfl⟩ := Incoming.request.inj (hr.symm.trans hr')
  obtain ⟨rfl, rfl⟩ | ⟨hbody, c, hc, hname, hid⟩ := h
  · refine ⟨fun c hc _ hid => hzero (hid ▸ List.mem_map_of_mem hc), fun he => ?_⟩
    exact absurd (Body.registration.inj he).symm hne
  · refine ⟨fun c' hc' hname' hid' => ?_, fun he => ?_⟩
    · obtain rfl := Keyed.eq_of_key_eq (fun x : Client => x.clientId) hs.idsDistinct hc' hc
        (hid'.trans hid.symm)
      exact hne (hname'.symm.trans hname)
    · subst he
      cases hbody

theorem Update.ids {draws : Draws} {clientId : Bytes} {body : Body}
    (h : Update site draws clientId body s t) :
    t.ids = s.ids ∨ t.ids = s.ids ++ [draws.uuid] := by
  cases h with
  | seen => exact .inl (Server.ids_seen draws)
  | publicKey => exact .inl (Server.ids_withPublicKey _)
  | aesKey => exact .inl (Server.ids_withAesKey _)
  | write _ _ _ _ => exact .inl rfl
  | flag _ _ _ _ => exact .inl (Server.ids_flagFile _ _)
  | record _ _ _ _ _ => exact .inl (Server.ids_addFile _)
  | discard _ _ _ _ _ _ => exact .inl (Server.ids_dropFile _)
  | register _ _ _ _ => exact .inr (by simp [Server.ids, Server.addClient, newClient])

theorem next_zero {draws : Draws} (r : Reception) (hs : WellFormed s)
    (hfresh : draws.uuid ∉ s.ids) (hnul : (0 : UInt8) ∉ draws.uuid)
    (hzero : List.replicate General.clientIdSize 0 ∉ s.ids) :
    List.replicate General.clientIdSize 0 ∉ (r.next site draws s).ids := by
  refine next_invariant (I := fun t => List.replicate General.clientIdSize 0 ∉ t.ids) site draws r
    hs hfresh ?_ hzero
  intro clientId body _ s' t' _ hs' hupd
  obtain hsame | hnew := hupd.ids
  · rw [hsame]
    exact hs'
  · rw [hnew]
    intro hmem
    obtain hmem | hmem := List.mem_append.mp hmem
    · exact hs' hmem
    · refine hnul ?_
      rw [← List.mem_singleton.mp hmem]
      exact List.mem_replicate.mpr ⟨by decide, rfl⟩

end

/-! One step of the network. -/

section
variable {site : Site} {kit : Toolkit} {name : Text} {socket : Nat} {gone : Files → Server → Prop}
  {post : Unit → Files → Server → Prop} {x y : Visit}

/-- A readable socket of a client has one of its requests. -/
theorem Visit.Guided.head (h : x.Guided site kit name Eq socket gone post) {c : Conn}
    (hc : x.loop.conns[socket]? = some c) (hreadable : c.readable) :
    WellFormed x.loop.server ∧ ∃ id body, (receive c).incoming = .request id body ∧ body.Plain ∧
      Asked name x.loop.server id body := by
  obtain ⟨z, hmirrors, hs, hl, hon⟩ := h
  obtain ⟨-, -, hpeer, c', hc', hholds, -, -⟩ := hmirrors
  obtain rfl := Option.some.inj (hc.symm.trans hc')
  obtain ⟨p, f, queue, s, unread⟩ := z
  simp only at hpeer hholds hs
  subst hpeer
  refine ⟨hs, ?_⟩
  cases queue with
  | nil =>
      have hnothing : c.avail = [] := hholds.avail
      simp [Conn.readable, hnothing, hholds.hangup] at hreadable
  | cons data queue =>
      obtain ⟨id, body, hid, hfits, hplain, hasked, rfl⟩ := hon.valid
      refine ⟨id, body, ?_, hplain, hasked⟩
      rw [receive_held hid hfits hholds]

/-- To the others a step of a client is traffic at most. -/
theorem Visit.next_client_loop {keys : KeyPair} {arrived : Bytes} {c : Conn}
    (hc : x.loop.conns[socket]? = some c)
    (h : x.next site socket (.client keys arrived) = some y) :
    y.loop = x.loop ∨ ∃ c', c.Traffic c' ∧
      y.loop = { x.loop with conns := x.loop.conns.set socket c' } := by
  simp only [Visit.next] at h
  split at h
  · cases h
  · cases h
  · cases h
  · obtain rfl := Option.some.inj h
    refine .inr ⟨c.withAvail (c.avail ++ arrived), ⟨List.prefix_append _ _, rfl, rfl, rfl, rfl⟩, ?_⟩
    have hlt := (List.getElem?_eq_some_iff.mp hc).1
    have hget := (List.getElem?_eq_some_iff.mp hc).2
    simp only [Loop.arrive]
    rw [List.modify_eq_set_getElem? , hc]
    rfl
  · rw [hc] at h
    simp only at h
    split at h
    · obtain rfl := Option.some.inj h
      exact .inl rfl
    · cases h
  · obtain rfl := Option.some.inj h
    exact .inl rfl

end

/-- What a client has reached the others leave. -/
theorem Member.Ends.others {site : Site} {m : Member site} {f : Files} {s t : Server}
    (h : m.Ends f s) (hothers : (service site m.errand.name Eq).others s t) : m.Ends f t := by
  rw [Member.Ends] at h ⊢
  split at h
  · exact h.others hothers
  · exact ⟨h.1, h.2.others h.1 hothers⟩

theorem completes_main {site : Site} {m : Member site} {gone : Files → Server → Prop} {s : Server}
    (h : m.Begins s) (hs : WellFormed s) (hl : Layout site s) :
    Completes (service site m.errand.name Eq) (machineOf site m.kit) gone (fun _ => m.Ends)
      (ClientSide.main m.kit) m.files s [] := by
  rw [Member.Begins] at h
  split at h
  · rename_i hstage
    refine (completes_main_first m.given h.1 ⟨hs, hl, h.2⟩).mono fun _ f t hdone => ?_
    rw [Member.Ends, hstage]
    exact hdone
  · rename_i hstage
    obtain ⟨howner, hbase64, hacquainted⟩ := h
    refine (completes_main_later m.given howner hbase64 hacquainted).mono fun _ f t hdone => ?_
    rw [Member.Ends, hstage]
    exact ⟨howner, hdone⟩

namespace Network

def rank (i : Nat) (net : Network) : ClientSide.Prog Unit × Nat :=
  net.parties[i]?.elim (.exit, 0) fun p => (p.visit net.loop).rank i

section
variable {site : Site} {members : List (Member site)} {net net' : Network} {i j : Nat}
  {m : Member site} {p : Party}

theorem rank_of_party (hp : net.parties[i]? = some p) : net.rank i = (p.visit net.loop).rank i := by
  rw [rank, hp, Option.elim_some]

/-- A step of the loop that is not for client `i`. -/
theorem Good.other (h : net.Good members) (hm : members[i]? = some m)
    (hp : net.parties[i]? = some p) {e : LoopEvent} {l : Loop}
    (hadmissible : (p.visit net.loop).Admissible site m.kit m.errand.name Eq i (.server e))
    (hother : ¬ VisitEvent.Own i (.server e)) (hnext : net.loop.next site e = some l) :
    (p.visit l).Guided site m.kit m.errand.name Eq i Never (fun _ => m.Ends) ∧
      (p.visit l).rank i = (p.visit net.loop).rank i := by
  have hstep : (visits site m.kit m.errand.name Eq i fun _ => True).step (p.visit net.loop)
      (.server e) (p.visit l) := by
    refine ⟨hadmissible, ?_⟩
    have hloop : (p.visit net.loop).loop.next site e = some l := hnext
    rw [Visit.next, hloop]
    rfl
  exact (h.guided i m p hm hp).other (fun _ f s t hdone => hdone.others)
    never_others hother hstep

theorem names_ne (hnames : (members.map (·.errand.name)).Nodup) {m' : Member site} (hne : i ≠ j)
    (hm : members[i]? = some m) (hm' : members[j]? = some m') :
    m.errand.name ≠ m'.errand.name := by
  intro he
  have hlt : i < (members.map (·.errand.name)).length := by
    rw [List.length_map]
    exact (List.getElem?_eq_some_iff.mp hm).1
  refine hne ((List.getElem?_inj hlt hnames).mp ?_)
  rw [List.getElem?_map, List.getElem?_map, hm, hm', Option.map_some, Option.map_some, he]

theorem Good.member (h : net.Good members) (hp : net.parties[i]? = some p) :
    ∃ m, members[i]? = some m :=
  ⟨_, List.getElem?_eq_getElem (h.parties ▸ (List.getElem?_eq_some_iff.mp hp).1)⟩

/-- A client of the network goes on. -/
theorem Good.client (h : net.Good members) (hm : members[i]? = some m)
    (hp : net.parties[i]? = some p) {keys : KeyPair} {arrived : Bytes} {y : Visit}
    (hkeys : Works site m.kit keys)
    (harrived : ∀ data rest, p.prog = .send data rest → data = arrived)
    (hnext : (p.visit net.loop).next site i (.client keys arrived) = some y) :
    Good members ⟨net.parties.set i y.party, y.loop⟩ ∧
      Precedes (rank i ⟨net.parties.set i y.party, y.loop⟩) (net.rank i) ∧
      ∀ j, j ≠ i → rank j ⟨net.parties.set i y.party, y.loop⟩ = net.rank j := by
  have hlt := (List.getElem?_eq_some_iff.mp hp).1
  have hset : (net.parties.set i y.party)[i]? = some y.party := List.getElem?_set_self hlt
  have hsame : ∀ j, j ≠ i → (net.parties.set i y.party)[j]? = net.parties[j]? :=
    fun j hj => List.getElem?_set_ne hj.symm
  have hstep : (visits site m.kit m.errand.name Eq i fun _ => True).step (p.visit net.loop)
      (.client keys arrived) y := ⟨.client hkeys harrived, hnext⟩
  obtain ⟨hown, hfalls⟩ :=
    (h.guided i m p hm hp).own (fun _ f s t hdone => hdone.others) never_others
      .client hstep
  obtain ⟨z, ⟨-, -, -, c, hc, -⟩, -⟩ := h.guided i m p hm hp
  have hothers : ∀ j m' p', j ≠ i → members[j]? = some m' → net.parties[j]? = some p' →
      (p'.visit y.loop).Guided site m'.kit m'.errand.name Eq j Never (fun _ => m'.Ends) ∧
        (p'.visit y.loop).rank j = (p'.visit net.loop).rank j := by
    intro j m' p' hj hm' hp'
    obtain hloop | ⟨c', htraffic, hloop⟩ := Visit.next_client_loop hc hnext
    · rw [hloop]
      exact ⟨h.guided j m' p' hm' hp', rfl⟩
    · exact h.other hm' hp' (.traffic hj.symm ⟨c, hc, htraffic⟩) (fun hown => by cases hown)
        (hloop ▸ rfl)
  have hloop : y.loop.server = net.loop.server ∧ y.loop.conns.length = net.loop.conns.length := by
    obtain hloop | ⟨c', -, hloop⟩ := Visit.next_client_loop hc hnext
    · rw [hloop]
      exact ⟨rfl, rfl⟩
    · rw [hloop]
      exact ⟨rfl, List.length_set⟩
  refine ⟨⟨List.length_set.trans h.parties, hloop.2.trans h.conns, hloop.1 ▸ h.zero, ?_⟩, ?_, ?_⟩
  · intro j m' p' hm' hp'
    by_cases hj : j = i
    · subst hj
      obtain rfl := Option.some.inj (hm.symm.trans hm')
      obtain rfl := Option.some.inj (hset.symm.trans hp')
      exact hown
    · exact (hothers j m' p' hj hm' ((hsame j hj).symm.trans hp')).1
  · rw [rank_of_party hset, rank_of_party hp]
    exact hfalls
  · intro j hj
    cases hp' : net.parties[j]? with
    | none => rw [rank, rank, hsame j hj, hp']; rfl
    | some p' =>
        obtain ⟨m', hm'⟩ := h.member hp'
        rw [rank_of_party ((hsame j hj).trans hp'), rank_of_party hp']
        exact (hothers j m' p' hj hm' hp').2

/-- The callback for a client of the network comes to an end. -/
theorem Good.callback (hnames : (members.map (·.errand.name)).Nodup) (h : net.Good members)
    {draws : Draws} (hfresh : draws.uuid ∉ net.loop.server.ids) (hnul : (0 : UInt8) ∉ draws.uuid)
    (hready : net.loop.Admissible (.callback draws [] i)) :
    ∃ l, net.loop.next site (.callback draws [] i) = some l ∧ Good members ⟨net.parties, l⟩ ∧
      i < members.length ∧ Precedes (rank i ⟨net.parties, l⟩) (net.rank i) ∧
      ∀ j, j ≠ i → rank j ⟨net.parties, l⟩ = net.rank j := by
  obtain ⟨c, hc, hregistered, hreadable⟩ := id hready
  have hlt : i < members.length := h.conns ▸ (List.getElem?_eq_some_iff.mp hc).1
  obtain ⟨m, hm⟩ : ∃ m, members[i]? = some m := ⟨_, List.getElem?_eq_getElem hlt⟩
  obtain ⟨p, hp⟩ : ∃ p, net.parties[i]? = some p :=
    ⟨_, List.getElem?_eq_getElem (h.parties.symm ▸ hlt)⟩
  obtain ⟨hs, id, body, hr, hplain, hasked⟩ := (h.guided i m p hm hp).head hc hreadable
  obtain ⟨z, hmirrors, -, -, hon⟩ := h.guided i m p hm hp
  obtain ⟨y, -, hy, -⟩ := hmirrors.callback (hmirrors.peer ▸ hs) hon hfresh hnul hready
  obtain ⟨l, hl, rfl⟩ := Option.map_eq_some_iff.mp hy
  have hstep : (visits site m.kit m.errand.name Eq i fun _ => True).step (p.visit net.loop)
      (.server (.callback draws [] i)) (p.visit l) :=
    ⟨.callback hfresh hready (fun _ => hnul) fun hne => absurd rfl hne, hy⟩
  obtain ⟨hown, hfalls⟩ :=
    (h.guided i m p hm hp).own (fun _ f s t hdone => hdone.others) never_others
      .callback hstep
  have hothers : ∀ j m' p', j ≠ i → members[j]? = some m' → net.parties[j]? = some p' →
      (p'.visit l).Guided site m'.kit m'.errand.name Eq j Never (fun _ => m'.Ends) ∧
        (p'.visit l).rank j = (p'.visit net.loop).rank j := by
    intro j m' p' hj hm' hp'
    refine h.other hm' hp' (.callback hfresh hready (fun he => absurd he.symm hj)
      fun _ c' hc' => ?_) (fun hown => by cases hown; exact hj rfl) hl
    obtain rfl := Option.some.inj (hc.symm.trans hc')
    refine ⟨fun id' body' hr' => ?_, hasked.courteous hr (names_ne hnames hj hm' hm) hs h.zero⟩
    obtain ⟨-, rfl⟩ := Incoming.request.inj (hr.symm.trans hr')
    exact hplain
  have hloop : l.conns.length = net.loop.conns.length ∧
      l.server = (receive c).next site draws net.loop.server := by
    obtain ⟨c', w, hc', hread, rfl⟩ := Loop.next_callback_done hl
    obtain rfl := Option.some.inj (hc.symm.trans hc')
    have hcalm := read_calm site draws c hs hfresh
    exact ⟨List.length_set, congrArg (fun r => r.2.server) (hread.symm.trans hcalm)⟩
  have hzero := @next_zero site _ _ (receive c) hs hfresh hnul h.zero
  refine ⟨l, hl, ⟨h.parties, hloop.1.trans h.conns, hloop.2 ▸ hzero, ?_⟩, hlt, ?_, ?_⟩
  · intro j m' p' hm' hp'
    by_cases hj : j = i
    · subst hj
      obtain rfl := Option.some.inj (hm.symm.trans hm')
      obtain rfl := Option.some.inj (hp.symm.trans hp')
      exact hown
    · exact (hothers j m' p' hj hm' hp').1
  · have hp' : (⟨net.parties, l⟩ : Network).parties[i]? = some p := hp
    rw [rank_of_party hp', rank_of_party hp]
    exact hfalls
  · intro j hj
    cases hp' : net.parties[j]? with
    | none => rw [rank, rank, hp']; rfl
    | some p' =>
        obtain ⟨m', hm'⟩ := h.member hp'
        have hp'' : (⟨net.parties, l⟩ : Network).parties[j]? = some p' := hp'
        rw [rank_of_party hp'', rank_of_party hp']
        exact (hothers j m' p' hj hm' hp').2

theorem Good.step (hnames : (members.map (·.errand.name)).Nodup) (h : net.Good members)
    {e : NetworkEvent} (hstep : Step members net e net') :
    net'.Good members ∧ e.socket < members.length ∧
      Precedes (rank e.socket net') (net.rank e.socket) ∧
      ∀ j, j ≠ e.socket → rank j net' = net.rank j := by
  cases hstep with
  | client hm hp hkeys harrived hnext =>
      obtain ⟨hgood, hfalls, hothers⟩ := h.client hm hp hkeys harrived hnext
      exact ⟨hgood, (List.getElem?_eq_some_iff.mp hm).1, hfalls, hothers⟩
  | callback hfresh hnul hready hnext =>
      obtain ⟨l, hl, hgood, hlt, hfalls, hothers⟩ := h.callback hnames hfresh hnul hready
      obtain rfl := Option.some.inj (hl.symm.trans hnext)
      exact ⟨hgood, hlt, hfalls, hothers⟩

theorem Starts.good (h : net.Starts members) : net.Good members := by
  obtain ⟨hs, hl⟩ := plain_layout h.server
  refine ⟨?_, ?_, h.zero, ?_⟩
  · rw [h.parties, List.length_map]
  · rw [h.conns, List.length_replicate]
  · intro i m p hm hp
    rw [h.parties, List.getElem?_map, hm] at hp
    obtain rfl := Option.some.inj hp
    have hlt := (List.getElem?_eq_some_iff.mp hm).1
    have hconn : net.loop.conns[i]? = some .accepted := by
      rw [h.conns]
      exact List.getElem?_replicate_of_lt hlt
    have hstarts : (Party.visit ⟨ClientSide.main m.kit, m.files, 0⟩ net.loop).Starts site m.kit i
        m.files := ⟨rfl, rfl, rfl, hconn, h.server⟩
    exact hstarts.guided (completes_main (h.begins m (List.mem_of_getElem? hm)) hs hl)

end
end Network

/-- Clients with different names come to their ends whatever the order of their steps and of
the callbacks; no callback for them raises or waits; and no run goes on for ever. -/
theorem network_delivers (site : Site) (members : List (Member site))
    (hnames : (members.map (·.errand.name)).Nodup) :
    (∀ net, (network members).Reachable net →
      (∀ (i : Nat) (m : Member site), members[i]? = some m → ∃ p, net.parties[i]? = some p ∧
        (p.prog = .ret () ∧ m.Ends p.files net.loop.server ∨
          p.prog ≠ .exit ∧ p.prog ≠ .stuck ∧ (p.visit net.loop).Moves site m.kit Eq i)) ∧
      ∀ (i : Nat) (draws : Draws), draws.uuid ∉ net.loop.server.ids → (0 : UInt8) ∉ draws.uuid →
        net.loop.Admissible (.callback draws [] i) →
        ∃ l, net.loop.next site (.callback draws [] i) = some l) ∧
    ∀ states events, ¬ (network members).Forever states events := by
  have hgood : ∀ net, (network members).Reachable net → net.Good members := by
    intro net hnet
    refine hnet.invariant (fun net hstarts => ?_) fun net e net' h hstep => ?_
    · exact Network.Starts.good hstarts
    · exact (h.step hnames hstep).1
  refine ⟨fun net hnet => ⟨fun i m hm => ?_, fun i draws hfresh hnul hready => ?_⟩, ?_⟩
  · have hlt : i < net.parties.length :=
      (hgood net hnet).parties.symm ▸ (List.getElem?_eq_some_iff.mp hm).1
    have hp := List.getElem?_eq_getElem hlt
    refine ⟨_, hp, ?_⟩
    obtain hdone | ⟨-, hexit⟩ | hmoves := ((hgood net hnet).guided i m _ hm hp).cases
    · exact .inl hdone
    · exact hexit.elim
    · exact .inr hmoves
  · obtain ⟨l, hl, -⟩ := (hgood net hnet).callback hnames hfresh hnul hready
    exact ⟨l, hl⟩
  · refine System.not_forever (κ := Fin members.length) wellFounded_precedes
      (fun i => Network.rank i) (fun i e => e.socket = i) ?_ ?_ ?_
    · intro net e net' hnet hstep
      exact ⟨⟨e.socket, ((hgood net hnet).step hnames hstep).2.1⟩, rfl⟩
    · intro i net e net' hnet hstep hi
      rw [← hi]
      exact ((hgood net hnet).step hnames hstep).2.2.1
    · intro i net e net' hnet hstep hi
      exact ((hgood net hnet).step hnames hstep).2.2.2 i fun he => hi he.symm

/-! Client `a` comes back while a client `b` comes for the first time. -/

def memberA (contents : Text → Option Bytes) : Member letterSite where
  kit := letterTools
  errand := errandOfA
  stage := .later rsaKeys knownClient contents
  files := knownFiles
  given := given_knownFiles

theorem goodName_b : GoodName ['b'] := ⟨by decide, ⟨by decide, by decide⟩, by decide⟩

theorem given_letterFiles_b : (letterErrand ['b'] goodName_b).Given (letterFiles ['b']) :=
  ⟨⟨_, rfl, by decide, by decide⟩, rfl⟩

def memberB : Member letterSite where
  kit := letterTools
  errand := letterErrand ['b'] goodName_b
  stage := .first
  files := letterFiles ['b']
  given := given_letterFiles_b

/-- What an exchange of keys does not add to the register. -/
theorem knownServer_registers : List.replicate General.clientIdSize 0 ∉ knownServer.ids ∧
    ['b'] ∉ knownServer.names := by
  have hs := (plain_layout reachable_newcomerServer).1
  have hupdates := serve_updates letterSite rsaDraws hs (by decide) oneClientId
    (.publicKey ['a'] (.done rsaPublicKey))
  refine hupdates.invariant (I := fun t => List.replicate General.clientIdSize 0 ∉ t.ids ∧
    ['b'] ∉ t.names) (fun s t h hupd => ⟨?_, ?_⟩) ⟨by decide, by decide⟩
  · obtain hids | hids := hupd.ids
    · exact hids ▸ h.1
    · rw [hids]
      intro hmem
      obtain hmem | hmem := List.mem_append.mp hmem
      · exact h.1 hmem
      · exact absurd (List.mem_singleton.mp hmem) (by decide)
  · obtain hnames | ⟨name, hbody, -⟩ := hupd.names
    · exact hnames ▸ h.2
    · cases hbody

theorem network_delivers_letters : ∃ contents,
    (∃ net, Network.Starts [memberA contents, memberB] net) ∧
    ∀ states events, ¬ (network [memberA contents, memberB]).Forever states events := by
  obtain ⟨contents, hacquainted⟩ := acquainted_knownServer
  refine ⟨contents, ⟨⟨[⟨ClientSide.main letterTools, knownFiles, 0⟩,
    ⟨ClientSide.main letterTools, letterFiles ['b'], 0⟩], knownServer, [.accepted, .accepted]⟩,
    reachable_knownServer, knownServer_registers.1, rfl, rfl, ?_⟩, ?_⟩
  · intro m hm
    obtain rfl | rfl : m = memberA contents ∨ m = memberB := by simpa using hm
    · exact ⟨rfl, base64_rsa, hacquainted⟩
    · exact ⟨rfl, knownServer_registers.2⟩
  · have hnames : [['a'], ['b']].Nodup := by decide
    exact (network_delivers letterSite [memberA contents, memberB] hnames).2

end SecureTransfer
