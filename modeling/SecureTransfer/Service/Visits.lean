import SecureTransfer.Library.Sessions
import SecureTransfer.Service.Blocking
import SecureTransfer.Service.EndToEnd
import SecureTransfer.Service.Segments
import SecureTransfer.Client.Files

/-!
A client program and the select loop of the server, connected by one of the sockets of the
loop. The client writes and reads, the callbacks of its socket take what has arrived, and
others do what they like on the other sockets. With each such run goes a conversation in which
the service takes one request at a time.
-/

open Effects Act
open Runs (System)
open Dialogue
open SecureTransfer.ClientSide (KeyPair Files Query Toolkit)

namespace SecureTransfer

/-- `taken` counts the bytes the client has read of those sent on its socket. -/
structure Visit where
  prog : ClientSide.Prog Unit
  files : Files
  loop : Loop
  taken : Nat

/-- The client goes on, with the keys that its machine generates if it is asked to, and with
what arrives of the bytes it writes; or the loop does. -/
inductive VisitEvent where
  | client (keys : KeyPair) (arrived : Bytes)
  | server (e : LoopEvent)

/-- Bytes arrive on a socket. -/
def Loop.arrive (l : Loop) (socket : Nat) (data : Bytes) : Loop :=
  { l with conns := l.conns.modify socket fun c => c.withAvail (c.avail ++ data) }

namespace Visit

/-- `none` when the client has come to an end, or waits for more bytes. -/
def next (site : Site) (socket : Nat) (x : Visit) : VisitEvent → Option Visit
  | .client keys arrived =>
      match x.prog with
      | .ret _ | .exit | .stuck => none
      | .send _ rest => some { x with prog := rest, loop := x.loop.arrive socket arrived }
      | .recv size rest =>
          match x.loop.conns[socket]? with
          | none => none
          | some c =>
              let unread := c.sent.drop x.taken
              if size ≤ unread.length then
                some { x with prog := rest (unread.take size), taken := x.taken + size }
              else none
      | .query q rest =>
          some { x with
            prog := rest (q.perform keys x.files).1, files := (q.perform keys x.files).2 }
  | .server e => (x.loop.next site e).map fun l => { x with loop := l }

end Visit

/-- Key pairs by which the server can hand over an AES key. -/
structure Works (site : Site) (kit : Toolkit) (keys : KeyPair) : Prop where
  length_publicKey : keys.publicKey.length = General.publicKeySize
  decrypts : ∃ k, site.importKey keys.publicKey = some k ∧
    ∀ seed aesKey, aesKey.length = General.aesKeySize → ∃ encrypted,
      site.oaepEncrypt k seed aesKey = some encrypted ∧ encrypted.length < 2 ^ 31 - 16 ∧
        kit.rsaDecrypt keys.privateKey encrypted = some aesKey

/-- A request on another socket leaves a client name alone: it does not take the name while it
is free, and does not carry the id of the client who has it. -/
def Courteous (name : Octets.Text) (s : Server) (r : Reception) : Prop :=
  ∀ id body, r.incoming = .request id body →
    (∀ c ∈ s.clientsList, c.clientName = name → c.clientId ≠ id) ∧
      (body = .registration name → name ∈ s.names)

section
variable (site : Site) (kit : Toolkit) (name : Octets.Text) (wire : Bytes → Bytes → Prop)
  (socket : Nat)

/-- No file or sqlite call fails, uuids are new, and that of a request on this socket has no
NUL byte, at which the client would cut it. -/
inductive Visit.Admissible (x : Visit) : VisitEvent → Prop where
  | client {keys : KeyPair} {arrived : Bytes} (hkeys : Works site kit keys)
      (hwire : ∀ data rest, x.prog = .send data rest → wire data arrived) :
      Admissible x (.client keys arrived)
  | accept : Admissible x (.server .accept)
  | traffic {i : Nat} {c : Conn} (hother : i ≠ socket) (h : x.loop.Admissible (.traffic i c)) :
      Admissible x (.server (.traffic i c))
  | callback {draws : Draws} {i : Nat} (hfresh : draws.uuid ∉ x.loop.server.ids)
      (h : x.loop.Admissible (.callback draws [] i)) (hown : i = socket → (0 : UInt8) ∉ draws.uuid)
      (hothers : i ≠ socket → ∀ c, x.loop.conns[i]? = some c →
        (Event.callback draws c).Plain ∧ Courteous name x.loop.server (receive c)) :
      Admissible x (.server (.callback draws [] i))

/-- The steps of the client and of the callbacks for its socket. -/
inductive VisitEvent.Own : VisitEvent → Prop where
  | client {keys : KeyPair} {arrived : Bytes} : Own (.client keys arrived)
  | callback {draws : Draws} {faults : List Bool} : Own (.server (.callback draws faults socket))

def visits (init : Visit → Prop) : System Visit VisitEvent where
  init := init
  step x e y := x.Admissible site kit name wire socket e ∧ x.next site socket e = some y

/-- The client can go on, whatever keys its machine generates and whatever arrives of what it
writes; or the callback of its socket can, whatever is drawn. -/
def Visit.Moves (x : Visit) : Prop :=
  (∀ keys arrived, Works site kit keys →
    (∀ data rest, x.prog = .send data rest → wire data arrived) →
      ∃ y, x.next site socket (.client keys arrived) = some y) ∨
  (∃ c, x.loop.conns[socket]? = some c ∧ c.registered ∧ c.readable) ∧
    ∀ draws, draws.uuid ∉ x.loop.server.ids → (0 : UInt8) ∉ draws.uuid →
      ∃ y, x.next site socket (.server (.callback draws [] socket)) = some y

/-- The client with this name asks to be registered, or it asks with the id that the server has
for it. -/
def Asked (s : Server) (id : Bytes) (body : Body) : Prop :=
  body = .registration name ∧ id = List.replicate General.clientIdSize 0 ∨
    body.isRegistration = false ∧ ∃ c ∈ s.clientsList, c.clientName = name ∧ c.clientId = id

/-- The service in the conversation. -/
def service : Peer Server UInt8 where
  wire := wire
  valid s data := ∃ id body, id.length = General.clientIdSize ∧ body.Fits ∧ body.Plain ∧
    Asked name s id body ∧ data = requestBytes id body
  handles s data t reply := ∃ (draws : Draws) (id : Bytes) (body : Body),
    draws.uuid ∉ s.ids ∧ (0 : UInt8) ∉ draws.uuid ∧ id.length = General.clientIdSize ∧ body.Fits ∧
      data = requestBytes id body ∧ t = (serve site draws s id body).1 ∧
      ∃ o : Option Message, (serve site draws s id body).2 = o.elim .silent .answer ∧
        reply = o.elim [] Message.bytes
  refuses s data t reply := ∃ (draws : Draws) (id : Bytes) (body : Body),
    draws.uuid ∉ s.ids ∧ (0 : UInt8) ∉ draws.uuid ∧ id.length = General.clientIdSize ∧ body.Fits ∧
      data = requestBytes id body ∧ t = (serve site draws s id body).1 ∧
      ((serve site draws s id body).2 = .rejected ∨
        (serve site draws s id body).2 = .rejectedUnread) ∧
        reply = (failureMessage body.isRegistration).bytes
  others s t := ∃ draws c, draws.uuid ∉ s.ids ∧ (Event.callback draws c).Plain ∧
    Courteous name s (receive c) ∧ t = (receive c).next site draws s

/-- The machine of the client. -/
def machineOf (files : Files) (q : Query) (r : q.Result) (files' : Files) : Prop :=
  ∃ keys, Works site kit keys ∧ q.perform keys files = (r, files')

end

abbrev Talk : Type := Session Server Files UInt8 Query Query.Result Unit

/-- A connection that stays open, on which these messages wait. -/
structure Conn.Holds (c : Conn) (queue : List Bytes) : Prop where
  avail : c.avail = queue.flatten
  pending : c.pending = []
  hangup : c.hangup = .idle
  registered : c.registered = true
  sendsLeft : c.sendsLeft = none

/-- The conversation that goes with a visit. -/
structure Visit.Mirrors (socket : Nat) (x : Visit) (z : Talk) : Prop where
  prog : z.prog = x.prog
  machine : z.machine = x.files
  peer : z.peer = x.loop.server
  conn : ∃ c, x.loop.conns[socket]? = some c ∧ c.Holds z.queue ∧
    z.unread = c.sent.drop x.taken ∧ x.taken ≤ c.sent.length

section
variable {site : Site} {draws : Draws} {s : Server} {id : Bytes}

theorem serve_done {body : Body} (h : body.Fits) : (serve site draws s id body).2 ≠ .waits := by
  intro hwaits
  obtain ⟨name, rfl⟩ := serve_waits hwaits
  obtain ⟨-, k, hk, -⟩ := h
  cases hk

theorem receive_held (hid : id.length = General.clientIdSize) {body : Body} (hfits : body.Fits)
    {c : Conn} {queue : List Bytes} (hc : c.Holds (requestBytes id body :: queue)) :
    receive c = ⟨.request id body, c.withAvail (body.unread ++ queue.flatten),
      c.withAvail queue.flatten⟩ := by
  have hconn : c = c.withAvail (requestBytes id body ++ queue.flatten) := by
    rw [← List.flatten_cons, ← hc.avail]
    rfl
  rw [hconn, receive_request hid hfits]
  rfl

/-- The callback for a request at the head of what has arrived. -/
theorem read_held (hs : WellFormed s) (hfresh : draws.uuid ∉ s.ids)
    (hid : id.length = General.clientIdSize) {body : Body} (hfits : body.Fits) {c : Conn}
    {queue : List Bytes} (hc : c.Holds (requestBytes id body :: queue)) :
    ∃ reply c', (read site draws).run (calm s c) =
        (.done (), calm (serve site draws s id body).1 c') ∧ c'.sent = c.sent ++ reply ∧
      ((∃ o : Option Message, (serve site draws s id body).2 = o.elim .silent .answer ∧
          reply = o.elim [] Message.bytes) ∧ c'.Holds queue ∨
        ((serve site draws s id body).2 = .rejected ∨
          (serve site draws s id body).2 = .rejectedUnread) ∧
          reply = (failureMessage body.isRegistration).bytes ∧ c'.Holds []) := by
  have hreceive := receive_held hid hfits hc
  have hstays : ∀ avail, (c.withAvail avail).sendsLeft = none := fun _ => hc.sendsLeft
  have hread := read_calm site draws c hs hfresh
  have hconclude : conclude body.isRegistration (c.withAvail (body.unread ++ queue.flatten))
      (c.withAvail queue.flatten) (serve site draws s id body).2 =
    concluded body.isRegistration (c.withAvail (body.unread ++ queue.flatten))
      (c.withAvail queue.flatten) (serve site draws s id body).2 :=
    conclude_stays (hstays _) (hstays _) _ fun m hm => (serve_answer hm).2
  simp only [hreceive, Reception.finish, Reception.next, hconclude] at hread
  cases hreply : (serve site draws s id body).2 with
  | silent =>
      rw [hreply] at hread
      exact ⟨[], _, hread, (List.append_nil _).symm, .inl ⟨⟨none, rfl, rfl⟩,
        rfl, hc.pending, hc.hangup, hc.registered, hc.sendsLeft⟩⟩
  | answer m =>
      rw [hreply] at hread
      exact ⟨m.bytes, _, hread, rfl, .inl ⟨⟨some m, rfl, rfl⟩,
        rfl, hc.pending, hc.hangup, hc.registered, hc.sendsLeft⟩⟩
  | rejected =>
      rw [hreply] at hread
      exact ⟨_, _, hread, rfl, .inr ⟨.inl rfl, rfl,
        rfl, hc.pending, hc.hangup, hc.registered, hc.sendsLeft⟩⟩
  | rejectedUnread =>
      rw [hreply] at hread
      exact ⟨_, _, hread, rfl, .inr ⟨.inr rfl, rfl,
        rfl, hc.pending, hc.hangup, hc.registered, hc.sendsLeft⟩⟩
  | waits => exact absurd hreply (serve_done hfits)

end

/-! The conversation keeps up with the visit. -/

theorem Loop.arrive_conns {l : Loop} {socket : Nat} {c : Conn} (hc : l.conns[socket]? = some c)
    (data : Bytes) :
    (l.arrive socket data).conns[socket]? = some (c.withAvail (c.avail ++ data)) := by
  rw [Loop.arrive, List.getElem?_modify_eq, hc]
  rfl

theorem Conn.Holds.arrive {c : Conn} {queue : List Bytes} (h : c.Holds queue) (data : Bytes) :
    (c.withAvail (c.avail ++ data)).Holds (queue ++ [data]) where
  avail := by
    rw [List.flatten_append, List.flatten_singleton, ← h.avail]
    rfl
  pending := h.pending
  hangup := h.hangup
  registered := h.registered
  sendsLeft := h.sendsLeft

section
variable {site : Site} {kit : Toolkit} {name : Octets.Text} {wire : Bytes → Bytes → Prop}
  {socket : Nat} {init : Visit → Prop} {gone : Files → Server → Prop}
  {post : Unit → Files → Server → Prop}
  {x y : Visit} {z : Talk}

/-- A callback of the loop that comes to an end. -/
theorem Loop.next_callback {l : Loop} {draws : Draws} {faults : List Bool} {i : Nat} {c : Conn}
    (hc : l.conns[i]? = some c) {w : World}
    (hread : (read site draws).run (l.world c faults) = (.done (), w)) :
    l.next site (.callback draws faults i) = some ⟨w.server, l.conns.set i w.conn⟩ := by
  simp only [Loop.next, hc, hread]

theorem Loop.next_callback_done {l l' : Loop} {draws : Draws} {faults : List Bool} {i : Nat}
    (h : l.next site (.callback draws faults i) = some l') :
    ∃ c w, l.conns[i]? = some c ∧ (read site draws).run (l.world c faults) = (.done (), w) ∧
      l' = ⟨w.server, l.conns.set i w.conn⟩ := by
  simp only [Loop.next] at h
  split at h
  · cases h
  rename_i c hc
  split at h
  · rename_i w hread
    exact ⟨c, w, hc, hread, (Option.some.inj h).symm⟩
  · cases h
  · cases h

/-- A step of the client is one of the program. -/
theorem Visit.Mirrors.client (h : x.Mirrors socket z) {keys : KeyPair} {arrived : Bytes}
    (hkeys : Works site kit keys)
    (hwire : ∀ data rest, x.prog = .send data rest → wire data arrived)
    (hnext : x.next site socket (.client keys arrived) = some y) :
    ∃ w, Session.Step (service site name wire) (machineOf site kit) z .program w ∧
      y.Mirrors socket w := by
  obtain ⟨hprog, hmachine, hpeer, c, hc, hholds, hunread, htaken⟩ := h
  obtain ⟨p, f, queue, s, unread⟩ := z
  simp only at hprog hmachine hpeer hholds hunread
  subst hprog hmachine hpeer hunread
  simp only [Visit.next] at hnext
  split at hnext
  · cases hnext
  · cases hnext
  · cases hnext
  · rename_i data rest hsend
    obtain rfl := Option.some.inj hnext
    refine ⟨⟨rest, x.files, queue ++ [arrived], x.loop.server, c.sent.drop x.taken⟩, ?_, rfl, rfl,
      rfl, _, Loop.arrive_conns hc arrived, hholds.arrive arrived, rfl, htaken⟩
    rw [hsend]
    exact .send (hwire _ _ hsend)
  · rename_i size rest hrecv
    rw [hc] at hnext
    simp only at hnext
    split at hnext
    · rename_i hsize
      obtain rfl := Option.some.inj hnext
      refine ⟨⟨rest ((c.sent.drop x.taken).take size), x.files, queue, x.loop.server,
        (c.sent.drop x.taken).drop size⟩, ?_, rfl, rfl, rfl, c, hc, hholds, List.drop_drop, ?_⟩
      · rw [hrecv]
        exact .recv hsize
      · rw [List.length_drop] at hsize
        simp only
        omega
    · cases hnext
  · rename_i q rest hquery
    obtain rfl := Option.some.inj hnext
    refine ⟨⟨rest (q.perform keys x.files).1, (q.perform keys x.files).2, queue, x.loop.server,
      c.sent.drop x.taken⟩, ?_, rfl, rfl, rfl, c, hc, hholds, rfl, htaken⟩
    rw [hquery]
    exact .query ⟨keys, hkeys, rfl⟩

/-- The callback of the socket is a step of the service. -/
theorem Visit.Mirrors.callback (h : x.Mirrors socket z) (hs : WellFormed z.peer)
    (hon : z.OnCourse (service site name wire) (machineOf site kit) gone post) {draws : Draws}
    (hfresh : draws.uuid ∉ x.loop.server.ids) (hnul : (0 : UInt8) ∉ draws.uuid)
    (hready : x.loop.Admissible (.callback draws [] socket)) :
    ∃ y w, x.next site socket (.server (.callback draws [] socket)) = some y ∧
      Session.Step (service site name wire) (machineOf site kit) z .peer w ∧
      y.Mirrors socket w ∧ y.prog = x.prog ∧
      w.queue.flatten.length < z.queue.flatten.length := by
  obtain ⟨hprog, hmachine, hpeer, c, hc, hholds, hunread, htaken⟩ := h
  obtain ⟨p, f, queue, s, unread⟩ := z
  simp only at hprog hmachine hpeer hholds hunread hs
  subst hprog hmachine hpeer hunread
  cases queue with
  | nil =>
      obtain ⟨c', hc', -, hreadable⟩ := hready
      obtain rfl := Option.some.inj (hc.symm.trans hc')
      have hnothing : c.avail = [] := hholds.avail
      simp [Conn.readable, hnothing, hholds.hangup] at hreadable
  | cons data queue =>
      obtain ⟨id, body, hid, hfits, -, -, rfl⟩ := hon.valid
      have hdata : 0 < (requestBytes id body).length :=
        List.length_pos_of_ne_nil (requestBytes_ne_nil hid body)
      obtain ⟨reply, c', hread, hsent, hreply⟩ := read_held hs hfresh hid hfits hholds
      have hlt := (List.getElem?_eq_some_iff.mp hc).1
      have hnext : x.next site socket (.server (.callback draws [] socket)) = some { x with
          loop := ⟨(serve site draws x.loop.server id body).1, x.loop.conns.set socket c'⟩ } := by
        rw [Visit.next, Loop.next_callback hc hread]
        rfl
      have hconn : (x.loop.conns.set socket c')[socket]? = some c' :=
        List.getElem?_set_self hlt
      have hdrop : c.sent.drop x.taken ++ reply = c'.sent.drop x.taken := by
        rw [hsent, List.drop_append_of_le_length htaken]
      have htaken' : x.taken ≤ c'.sent.length := by
        rw [hsent, List.length_append]
        omega
      obtain ⟨hreply, hholds'⟩ | ⟨hreply, hbytes, hholds'⟩ := hreply
      · refine ⟨_, ⟨x.prog, x.files, queue, _, c.sent.drop x.taken ++ reply⟩, hnext,
          .handle ⟨draws, id, body, hfresh, hnul, hid, hfits, rfl, rfl, hreply⟩,
          ⟨rfl, rfl, rfl, c', hconn, hholds', hdrop, htaken'⟩, rfl, ?_⟩
        rw [List.flatten_cons, List.length_append]
        exact Nat.lt_add_of_pos_left hdata
      · refine ⟨_, ⟨x.prog, x.files, [], _, c.sent.drop x.taken ++ reply⟩, hnext,
          .refuse ⟨draws, id, body, hfresh, hnul, hid, hfits, rfl, rfl, hreply, hbytes⟩,
          ⟨rfl, rfl, rfl, c', hconn, hholds', hdrop, htaken'⟩, rfl, ?_⟩
        rw [List.flatten_cons, List.length_append]
        exact Nat.add_pos_left hdata _

/-- What happens on the other sockets. -/
theorem Visit.Mirrors.others (h : x.Mirrors socket z) (hs : WellFormed z.peer) {e : LoopEvent}
    (hadmissible : x.Admissible site kit name wire socket (.server e))
    (hother : ¬ VisitEvent.Own socket (.server e))
    (hnext : x.next site socket (.server e) = some y) :
    (y.Mirrors socket z ∨ ∃ w, y.Mirrors socket w ∧
      Session.Step (service site name wire) (machineOf site kit) z .others w) ∧
    y.prog = x.prog ∧ y.loop.conns[socket]? = x.loop.conns[socket]? := by
  obtain ⟨hprog, hmachine, hpeer, c, hc, hholds, hunread, htaken⟩ := h
  have hlt := (List.getElem?_eq_some_iff.mp hc).1
  obtain ⟨l, hl, rfl⟩ := Option.map_eq_some_iff.mp hnext
  cases hadmissible with
  | accept =>
      obtain rfl := Option.some.inj hl
      have hconns : (x.loop.conns ++ [(accept.run .incoming).2])[socket]? =
          x.loop.conns[socket]? := List.getElem?_append_left hlt
      exact ⟨.inl ⟨hprog, hmachine, hpeer, c, hconns.trans hc, hholds, hunread, htaken⟩, rfl,
        hconns⟩
  | @traffic i c' hne _ =>
      obtain rfl := Option.some.inj hl
      have hconns : (x.loop.conns.set i c')[socket]? = x.loop.conns[socket]? :=
        List.getElem?_set_ne hne
      exact ⟨.inl ⟨hprog, hmachine, hpeer, c, hconns.trans hc, hholds, hunread, htaken⟩, rfl,
        hconns⟩
  | @callback draws i hfresh _ _ hothers =>
      have hne : i ≠ socket := fun he => hother (he ▸ .callback)
      obtain ⟨c', w, hc', hread, rfl⟩ := Loop.next_callback_done hl
      obtain ⟨hplain, hcourteous⟩ := hothers hne c' hc'
      have hconns : (x.loop.conns.set i w.conn)[socket]? = x.loop.conns[socket]? :=
        List.getElem?_set_ne hne
      have hserver : w.server = (receive c').next site draws x.loop.server := by
        have hcalm := read_calm site draws c' (hpeer ▸ hs) hfresh
        exact congrArg (fun r => r.2.server) (hread.symm.trans hcalm)
      obtain ⟨p, f, queue, s, unread⟩ := z
      simp only at hpeer
      subst hpeer
      refine ⟨.inr ⟨⟨p, f, queue, w.server, unread⟩, ⟨hprog, hmachine, rfl, c, hconns.trans hc,
        hholds, hunread, htaken⟩, .others ⟨draws, c', hfresh, hplain, hcourteous, hserver⟩⟩, rfl,
        hconns⟩

/-- A visit with a conversation that is on its course to an end. -/
def Visit.Guided (site : Site) (kit : Toolkit) (name : Octets.Text) (wire : Bytes → Bytes → Prop)
    (socket : Nat) (gone : Files → Server → Prop) (post : Unit → Files → Server → Prop)
    (x : Visit) : Prop :=
  ∃ z : Talk, x.Mirrors socket z ∧ WellFormed z.peer ∧ Layout site z.peer ∧
    z.OnCourse (service site name wire) (machineOf site kit) gone post

/-- One step of the service keeps what holds of the server. -/
theorem step_orderly {m : Move} {z w : Talk}
    (hstep : Session.Step (service site name wire) (machineOf site kit) z m w)
    (hon : z.OnCourse (service site name wire) (machineOf site kit) gone post)
    (hs : WellFormed z.peer) (hl : Layout site z.peer) :
    WellFormed w.peer ∧ Layout site w.peer := by
  have hserved : ∀ {s : Server} {draws : Draws} {id : Bytes} {body : Body}, WellFormed s →
      Layout site s → draws.uuid ∉ s.ids → body.Plain →
        WellFormed (serve site draws s id body).1 ∧ Layout site (serve site draws s id body).1 := by
    intro s draws id body hs hl hfresh hplain
    have hupdates := serve_updates site draws hs hfresh id body
    exact ⟨hupdates.wellFormed hs, hupdates.invariant (fun _ _ hl hupd => hl.update hplain hupd) hl⟩
  cases hstep with
  | send _ | recv _ | query _ => exact ⟨hs, hl⟩
  | handle h =>
      obtain ⟨draws, id, body, hfresh, -, hid, hfits, rfl, rfl, -⟩ := h
      obtain ⟨id', body', hid', hfits', hplain, -, hbytes⟩ := hon.valid
      obtain ⟨rfl, rfl, -⟩ := requestBytes_append_inj hid hfits hid' hfits'
        (congrArg (· ++ []) hbytes)
      exact hserved hs hl hfresh hplain
  | refuse h =>
      obtain ⟨draws, id, body, hfresh, -, hid, hfits, rfl, rfl, -⟩ := h
      obtain ⟨id', body', hid', hfits', hplain, -, hbytes⟩ := hon.valid
      obtain ⟨rfl, rfl, -⟩ := requestBytes_append_inj hid hfits hid' hfits'
        (congrArg (· ++ []) hbytes)
      exact hserved hs hl hfresh hplain
  | others h =>
      obtain ⟨draws, c, hfresh, hplain, -, rfl⟩ := h
      exact ⟨next_wellFormed site draws _ hs hfresh, next_layout hs hl hfresh hplain⟩

/-- The rest of the client and the number of bytes the server has yet to read. -/
def Visit.rank (socket : Nat) (x : Visit) : ClientSide.Prog Unit × Nat :=
  (x.prog, x.loop.conns[socket]?.elim 0 fun c => c.avail.length)

theorem Visit.Mirrors.rank (h : x.Mirrors socket z) :
    x.rank socket = (x.prog, z.queue.flatten.length) := by
  obtain ⟨-, -, -, c, hc, hholds, -, -⟩ := h
  rw [Visit.rank, hc, Option.elim_some, hholds.avail]

/-- What the program has yet to do, and then what is under way. -/
abbrev Precedes : ClientSide.Prog Unit × Nat → ClientSide.Prog Unit × Nat → Prop :=
  Prod.Lex Prog.Follows (· < ·)

theorem wellFounded_precedes : WellFounded Precedes :=
  WellFounded.prod_lex Prog.wellFounded_follows Nat.lt_wfRel.wf

section
variable (hpost : ∀ a f s t, post a f s → (service site name wire).others s t → post a f t)
  (hgone : ∀ f s t, gone f s → (service site name wire).others s t → gone f t)
include hpost hgone

theorem Visit.Guided.talk (hs : WellFormed z.peer) (hl : Layout site z.peer)
    (hon : z.OnCourse (service site name wire) (machineOf site kit) gone post) {m : Move}
    {w : Talk} (htalk : Session.Step (service site name wire) (machineOf site kit) z m w)
    (hw : y.Mirrors socket w) : y.Guided site kit name wire socket gone post := by
  obtain ⟨hsw, hlw⟩ := step_orderly htalk hon hs hl
  exact ⟨w, hw, hsw, hlw, hon.step hpost hgone htalk⟩

/-- A step of the client or for it brings the end nearer. -/
theorem Visit.Guided.own (h : x.Guided site kit name wire socket gone post) {e : VisitEvent}
    (hown : VisitEvent.Own socket e)
    (hstep : (visits site kit name wire socket init).step x e y) :
    y.Guided site kit name wire socket gone post ∧
      Precedes (y.rank socket) (x.rank socket) := by
  obtain ⟨z, hmirrors, hs, hl, hon⟩ := h
  obtain ⟨hadmissible, hnext⟩ := hstep
  cases hown with
  | client =>
      cases hadmissible with
      | client hkeys hwire =>
          obtain ⟨w, htalk, hw⟩ : ∃ w, Session.Step (service site name wire) (machineOf site kit) z
              .program w ∧ y.Mirrors socket w := hmirrors.client hkeys hwire hnext
          refine ⟨.talk hpost hgone hs hl hon htalk hw, ?_⟩
          rw [hw.rank, hmirrors.rank, ← hw.prog, ← hmirrors.prog]
          exact .left _ _ htalk.follows
  | callback =>
      cases hadmissible with
      | callback hfresh hready hnul _ =>
          obtain ⟨y', w, hy', htalk, hw, hprog, hlt⟩ :=
            hmirrors.callback hs hon hfresh (hnul rfl) hready
          obtain rfl := Option.some.inj (hy'.symm.trans hnext)
          refine ⟨.talk hpost hgone hs hl hon htalk hw, ?_⟩
          rw [hw.rank, hmirrors.rank, hprog]
          exact .right _ hlt

theorem Visit.Guided.other (h : x.Guided site kit name wire socket gone post) {e : VisitEvent}
    (hother : ¬ VisitEvent.Own socket e)
    (hstep : (visits site kit name wire socket init).step x e y) :
    y.Guided site kit name wire socket gone post ∧ y.rank socket = x.rank socket := by
  obtain ⟨z, hmirrors, hs, hl, hon⟩ := h
  obtain ⟨hadmissible, hnext⟩ := hstep
  cases e with
  | client keys arrived => exact absurd .client hother
  | server e =>
      obtain ⟨hsame, hprog, hconns⟩ := hmirrors.others hs hadmissible hother hnext
      refine ⟨?_, by rw [Visit.rank, Visit.rank, hprog, hconns]⟩
      obtain hsame | ⟨w, hw, htalk⟩ := hsame
      · exact ⟨z, hsame, hs, hl, hon⟩
      · exact .talk hpost hgone hs hl hon htalk hw

/-- Under every order of steps the client comes to its end, if the steps of the client and of
the callbacks for it are taken again and again till then. -/
theorem guided_ends (hinit : ∀ x, init x → x.Guided site kit name wire socket gone post) :
    (∀ x, (visits site kit name wire socket init).Reachable x →
      x.Guided site kit name wire socket gone post) ∧
    ∀ states events, (visits site kit name wire socket init).Forever states events →
      (∃ first, ∀ n, first ≤ n → ¬ VisitEvent.Own socket (events n)) ∧
      ((∀ n, ∃ m, n ≤ m ∧ (VisitEvent.Own socket (events m) ∨
          ¬ (states m).Moves site kit wire socket)) →
        ∃ n, ¬ (states n).Moves site kit wire socket) := by
  have hguided : ∀ x, (visits site kit name wire socket init).Reachable x →
      x.Guided site kit name wire socket gone post := by
    intro x hx
    refine hx.invariant hinit fun x e y hx hstep => ?_
    by_cases hown : VisitEvent.Own socket e
    · exact (hx.own hpost hgone hown hstep).1
    · exact (hx.other hpost hgone hown hstep).1
  have hfalls : ∀ x e y, (visits site kit name wire socket init).Reachable x →
      (visits site kit name wire socket init).step x e y → VisitEvent.Own socket e →
        Precedes (y.rank socket) (x.rank socket) :=
    fun x e y hx hstep hown => ((hguided x hx).own hpost hgone hown hstep).2
  have hstays : ∀ x e y, (visits site kit name wire socket init).Reachable x →
      (visits site kit name wire socket init).step x e y → ¬ VisitEvent.Own socket e →
        y.rank socket = x.rank socket :=
    fun x e y hx hstep hother => ((hguided x hx).other hpost hgone hother hstep).2
  refine ⟨hguided, fun states events hforever => ⟨?_, fun hfair => ?_⟩⟩
  · exact hforever.eventually_not wellFounded_precedes hfalls hstays
  · exact hforever.rests wellFounded_precedes hfalls hstays
      (fun x => ¬ x.Moves site kit wire socket) hfair

end

/-- The client is done, or it has given up, or something moves on. -/
theorem Visit.Guided.cases (h : x.Guided site kit name wire socket gone post) :
    x.prog = .ret () ∧ post () x.files x.loop.server ∨
      x.prog = .exit ∧ gone x.files x.loop.server ∨
      x.prog ≠ .exit ∧ x.prog ≠ .stuck ∧ x.Moves site kit wire socket := by
  obtain ⟨z, hmirrors, hs, hl, hon⟩ := h
  obtain ⟨hprog, hmachine, hpeer, c, hc, hholds, hunread, htaken⟩ := id hmirrors
  have hon' : Awaits (service site name wire) (machineOf site kit) gone post x.prog x.files
      z.queue x.loop.server z.unread := hprog ▸ hmachine ▸ hpeer ▸ hon
  have hstuck := hon'.not_stuck
  cases hp : x.prog with
  | ret a =>
      rw [hp] at hon'
      exact .inl ⟨rfl, hon'.result.2.2⟩
  | exit =>
      rw [hp] at hon'
      exact .inr (.inl ⟨rfl, hon'.exit.2⟩)
  | stuck => exact absurd hp hstuck
  | send data rest =>
      refine .inr (.inr ⟨by simp, hp ▸ hstuck, .inl fun keys arrived _ _ => ?_⟩)
      simp only [Visit.next, hp]
      exact ⟨_, rfl⟩
  | query q rest =>
      refine .inr (.inr ⟨by simp, hp ▸ hstuck, .inl fun keys arrived _ _ => ?_⟩)
      simp only [Visit.next, hp]
      exact ⟨_, rfl⟩
  | recv size rest =>
      refine .inr (.inr ⟨by simp, hp ▸ hstuck, ?_⟩)
      cases hqueue : z.queue with
      | nil =>
          rw [hp, hqueue] at hon'
          have hsize := hon'.readable
          rw [hunread] at hsize
          refine .inl fun keys arrived _ _ => ?_
          simp only [Visit.next, hp, hc, if_pos hsize]
          exact ⟨_, rfl⟩
      | cons data queue =>
          rw [hqueue] at hon'
          obtain ⟨id, body, hid, -, -, -, rfl⟩ := hon'.valid
          have hreadable : c.readable = true := by
            have havail : c.avail ≠ [] := by
              rw [hholds.avail, hqueue]
              exact List.append_ne_nil_of_left_ne_nil (requestBytes_ne_nil hid body) _
            simp [Conn.readable, havail]
          refine .inr ⟨⟨c, hc, hholds.registered, hreadable⟩, fun draws hfresh hnul => ?_⟩
          obtain ⟨y, -, hy, -⟩ := hmirrors.callback hs hon hfresh hnul
            ⟨c, hc, hholds.registered, hreadable⟩
          exact ⟨y, hy⟩

/-- Whatever the order of the steps, the client never gets stuck. Only finitely many steps are
its own, and if these are taken again and again while there are any, it comes to its end or
gives up. Then `done` or `gone` holds, whatever else goes on. -/
structure Settles (site : Site) (kit : Toolkit) (name : Octets.Text) (wire : Bytes → Bytes → Prop)
    (socket : Nat) (init : Visit → Prop) (done gone : Files → Server → Prop) : Prop where
  goes : ∀ x, (visits site kit name wire socket init).Reachable x →
    x.prog = .ret () ∧ done x.files x.loop.server ∨ x.prog = .exit ∧ gone x.files x.loop.server ∨
      x.prog ≠ .exit ∧ x.prog ≠ .stuck ∧ x.Moves site kit wire socket
  few : ∀ states events, (visits site kit name wire socket init).Forever states events →
    ∃ first, ∀ n, first ≤ n → ¬ VisitEvent.Own socket (events n)
  ends : ∀ states events, (visits site kit name wire socket init).Forever states events →
    (∀ n, ∃ m, n ≤ m ∧ (VisitEvent.Own socket (events m) ∨
      ¬ (states m).Moves site kit wire socket)) →
    ∃ n, (states n).prog = .ret () ∧ done (states n).files (states n).loop.server ∨
      (states n).prog = .exit ∧ gone (states n).files (states n).loop.server

theorem settles_of_guided {done : Files → Server → Prop}
    (hdone : ∀ f s t, done f s → (service site name wire).others s t → done f t)
    (hgone : ∀ f s t, gone f s → (service site name wire).others s t → gone f t)
    (hinit : ∀ x, init x → x.Guided site kit name wire socket gone fun _ => done) :
    Settles site kit name wire socket init done gone := by
  obtain ⟨hguided, hforever⟩ := guided_ends (fun _ => hdone) hgone hinit
  refine ⟨fun x hx => (hguided x hx).cases, fun states events h => (hforever states events h).1,
    fun states events h hfair => ?_⟩
  obtain ⟨n, hn⟩ := (hforever states events h).2 hfair
  obtain hends | hexits | ⟨-, -, hmoves⟩ := (hguided _ (h.reachable n)).cases
  · exact ⟨n, .inl hends⟩
  · exact ⟨n, .inr hexits⟩
  · exact absurd hmoves hn

/-- Whatever the order of the steps, the client never gets stuck and never gives up. Only
finitely many steps are its own, and if these are taken again and again while there are any,
it comes to its end. Then `done` holds, whatever else goes on. -/
structure ComesTo (site : Site) (kit : Toolkit) (name : Octets.Text) (wire : Bytes → Bytes → Prop)
    (socket : Nat) (init : Visit → Prop) (done : Files → Server → Prop) : Prop where
  goes : ∀ x, (visits site kit name wire socket init).Reachable x →
    x.prog = .ret () ∧ done x.files x.loop.server ∨
      x.prog ≠ .exit ∧ x.prog ≠ .stuck ∧ x.Moves site kit wire socket
  few : ∀ states events, (visits site kit name wire socket init).Forever states events →
    ∃ first, ∀ n, first ≤ n → ¬ VisitEvent.Own socket (events n)
  ends : ∀ states events, (visits site kit name wire socket init).Forever states events →
    (∀ n, ∃ m, n ≤ m ∧ (VisitEvent.Own socket (events m) ∨
      ¬ (states m).Moves site kit wire socket)) →
    ∃ n, (states n).prog = .ret () ∧ done (states n).files (states n).loop.server

/-- A client that does not give up. -/
abbrev Never : Files → Server → Prop := fun _ _ => False

theorem never_others (f : Files) (s t : Server) (h : Never f s)
    (_ : (service site name wire).others s t) : Never f t := h

theorem Settles.comesTo {done : Files → Server → Prop}
    (h : Settles site kit name wire socket init done Never) :
    ComesTo site kit name wire socket init done where
  goes x hx := by
    obtain hdone | ⟨-, hexit⟩ | hmoves := h.goes x hx
    · exact .inl hdone
    · exact hexit.elim
    · exact .inr hmoves
  few := h.few
  ends states events hforever hfair := by
    obtain ⟨n, hdone | ⟨-, hexit⟩⟩ := h.ends states events hforever hfair
    · exact ⟨n, hdone⟩
    · exact hexit.elim

theorem comesTo_of_guided {done : Files → Server → Prop}
    (hothers : ∀ f s t, done f s → (service site name wire).others s t → done f t)
    (hinit : ∀ x, init x → x.Guided site kit name wire socket Never fun _ => done) :
    ComesTo site kit name wire socket init done :=
  (settles_of_guided hothers never_others hinit).comesTo

end

end SecureTransfer
