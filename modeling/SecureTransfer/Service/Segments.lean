import SecureTransfer.Service.Stream

/-!
How the stream of a client is cut into segments. A recv returns what has arrived, so a
callback that starts before its request is complete may take a part of a field for the
whole, or fail; and what has arrived behind a request that is rejected is dropped. In a
run in which neither happens the cuts cannot be seen: the server ends as if every
request had arrived by itself.
-/

open Octets (Text encodeUtf8 padTo)
open Effects Act
open Runs (System)

namespace SecureTransfer

namespace Conn

/-- What the peer has sent and the server has not read, arrived or not. -/
def stream (c : Conn) : Bytes := c.avail ++ c.pending.flatten

theorem recv_stream {n : Int} {c c' : Conn} {data : Bytes}
    (h : (recv n).run c = (.done data, c')) : c.stream = data ++ c'.stream := by
  simp only [recv] at h
  split at h
  · cases h
  split at h
  · cases h
    rfl
  split at h
  · cases h
    rw [stream, stream, ← List.append_assoc]
    exact congrArg (· ++ _) (List.take_append_drop n.toNat c.avail).symm
  · rename_i havail
    have hnone : c.avail = [] := not_not.mp havail
    split at h
    · rename_i chunk rest hpending
      split at h
      · cases h
        rw [stream, stream, hnone, hpending, List.nil_append, List.flatten_cons,
          ← List.append_assoc]
        exact congrArg (· ++ _) (List.take_append_drop n.toNat chunk).symm
      · cases h
    · split at h <;> cases h
    · cases h
      rfl
    · cases h

namespace Reads

variable {c c' : Conn} {fields : List Bytes}

theorem stream (h : c.Reads fields c') : c.stream = fields.flatten ++ c'.stream := by
  induction h with
  | nil c => rfl
  | cons head _ ih => rw [recv_stream head, ih, List.flatten_cons, List.append_assoc]

theorem sameEnd (h : c.Reads fields c') : c.SameEnd c' := by
  induction h with
  | nil c => exact .refl c
  | @cons c c₁ c₂ field fields head _ ih =>
      have hrecv := recv_sameEnd field.length c
      rw [head] at hrecv
      exact hrecv.trans ih

end Reads
end Conn

/-- A server and the one connection of a client. -/
structure Feed where
  server : Server
  conn : Conn

/-- The next segment arrives, or the callback runs. -/
inductive Feed.Event where
  | arrive
  | callback (draws : Draws)

namespace Feed

/-- The callback runs when there are unread bytes. -/
def next (site : Site) (u : Feed) : Feed.Event → Option Feed
  | .arrive =>
      match u.conn.pending with
      | [] => none
      | chunk :: pending =>
          some { u with conn := { u.conn with avail := u.conn.avail ++ chunk, pending := pending } }
  | .callback draws =>
      if u.conn.avail = [] then none
      else
        let w := ((read site draws).run (calm u.server u.conn)).2
        some ⟨w.server, w.conn⟩

/-- Everything has arrived and been read. -/
def Over (u : Feed) : Prop := u.conn.avail = [] ∧ u.conn.pending = []

/-- What the client sends, in these segments. -/
def cut (u : Feed) (chunks : List Bytes) : Feed :=
  { u with conn := { u.conn with pending := chunks } }

/-- Every recv of the callback returns the whole of its field, and if the request is
rejected nothing has arrived behind it. -/
def Undivided (site : Site) (u : Feed) (e : Feed.Event) : Prop :=
  ∀ draws, e = .callback draws → ∃ clientId body c₁ c₂,
    clientId.length = General.clientIdSize ∧ body.Fits ∧
    u.conn.Reads (checkedFields clientId body) c₁ ∧ c₁.Reads body.unchecked c₂ ∧
    ((serve site draws u.server clientId body).2 = .rejected → c₂.avail = []) ∧
    ((serve site draws u.server clientId body).2 = .rejectedUnread → c₁.avail = body.unread)

/-- The same callbacks, each as soon as one segment has arrived. -/
def oneByOne (es : List Feed.Event) : List Feed.Event :=
  es.flatMap fun e => match e with
    | .arrive => []
    | .callback draws => [.arrive, .callback draws]

end Feed

/-- Runs of the callback on one connection, from a reachable server. -/
def feedRuns (site : Site) : System Feed Feed.Event where
  init u := Reachable site u.server ∧ u.conn.avail = [] ∧ u.conn.sendsLeft = none
  step u e v := (∀ draws, e = .callback draws → draws.uuid ∉ u.server.ids) ∧
    u.next site e = some v

/-! One callback that reads its request whole. -/

section
variable (site : Site) (draws : Draws) {s : Server} {clientId : Bytes} {body : Body}
  {c c₁ c₂ : Conn}

theorem concluded_stays {registration : Bool} (hu : c₁.sendsLeft = none)
    (hc : c₂.sendsLeft = none) (reply : Reply) :
    (concluded registration c₁ c₂ reply).2.sendsLeft = none := by
  cases reply with
  | silent | answer _ | rejected | waits => exact hc
  | rejectedUnread => exact hu

/-- What is unread afterwards is what comes behind the request. -/
theorem concluded_stream {registration : Bool} {reply : Reply}
    (hkey : c₁.stream = body.unread ++ c₂.stream)
    (hrejected : reply = .rejected → c₂.avail = [])
    (hunread : reply = .rejectedUnread → c₁.avail = body.unread) :
    (concluded registration c₁ c₂ reply).2.stream = c₂.stream := by
  cases reply with
  | silent | answer _ | waits => rfl
  | rejected =>
      simp only [Conn.stream, hrejected rfl]
      rfl
  | rejectedUnread =>
      rw [Conn.stream, hunread rfl] at hkey
      exact List.append_cancel_left hkey

/-- The callback serves the request and leaves the stream behind it. -/
theorem read_undivided (hs : WellFormed s) (hfresh : draws.uuid ∉ s.ids)
    (hstays : c.sendsLeft = none) (hid : clientId.length = General.clientIdSize)
    (hfits : body.Fits) (hchecked : c.Reads (checkedFields clientId body) c₁)
    (hkey : c₁.Reads body.unchecked c₂) :
    (read site draws).run (calm s c) =
      ((concluded body.isRegistration c₁ c₂ (serve site draws s clientId body).2).1,
        calm (serve site draws s clientId body).1
          (concluded body.isRegistration c₁ c₂ (serve site draws s clientId body).2).2) := by
  have h₁ : c₁.sendsLeft = none := hchecked.sameEnd.sendsLeft.trans hstays
  have h₂ : c₂.sendsLeft = none := hkey.sameEnd.sendsLeft.trans h₁
  rw [read_calm site draws c hs hfresh, receive_reads hid hfits hchecked hkey]
  simp only [Reception.finish, Reception.next]
  rw [conclude_stays h₁ h₂ _ fun m hm => (serve_answer hm).2]

/-- Two connections on which the same was sent stay so. -/
theorem concluded_told {registration : Bool} {d₁ d₂ : Conn} (reply : Reply)
    (h₁ : c₁.answers = d₁.answers ∧ c₁.sent = d₁.sent)
    (h₂ : c₂.answers = d₂.answers ∧ c₂.sent = d₂.sent) :
    (concluded registration c₁ c₂ reply).2.answers =
        (concluded registration d₁ d₂ reply).2.answers ∧
      (concluded registration c₁ c₂ reply).2.sent =
        (concluded registration d₁ d₂ reply).2.sent := by
  cases reply with
  | silent | waits => exact h₂
  | answer m =>
      exact ⟨congrArg (· ++ [m.header]) h₂.1, congrArg (· ++ m.bytes) h₂.2⟩
  | rejected =>
      exact ⟨congrArg (· ++ [(failureMessage registration).header]) h₂.1,
        congrArg (· ++ (failureMessage registration).bytes) h₂.2⟩
  | rejectedUnread =>
      exact ⟨congrArg (· ++ [(failureMessage registration).header]) h₁.1,
        congrArg (· ++ (failureMessage registration).bytes) h₁.2⟩

/-- A request alone leaves nothing unread and takes no segment. -/
theorem concluded_alone (registration : Bool) (d : Conn) (unread : Bytes) (reply : Reply) :
    (concluded registration (d.withAvail unread) (d.withAvail []) reply).2.avail = [] ∧
      (concluded registration (d.withAvail unread) (d.withAvail []) reply).2.pending =
        d.pending := by
  cases reply with
  | silent | answer _ | rejected | rejectedUnread | waits => exact ⟨rfl, rfl⟩

end

/-- A stream of requests can be taken apart in one way only. -/
theorem requestBytes_append_inj {clientId clientId' : Bytes} {body body' : Body}
    {rest rest' : Bytes} (hid : clientId.length = General.clientIdSize) (hfits : body.Fits)
    (hid' : clientId'.length = General.clientIdSize) (hfits' : body'.Fits)
    (h : requestBytes clientId body ++ rest = requestBytes clientId' body' ++ rest') :
    clientId = clientId' ∧ body = body' ∧ rest = rest' := by
  have hfirst := receive_request hid hfits rest .accepted
  rw [h, receive_request hid' hfits' rest' .accepted] at hfirst
  obtain ⟨hrequest, -, hconn⟩ := Reception.mk.inj hfirst
  obtain ⟨rfl, rfl⟩ := Incoming.request.inj hrequest
  exact ⟨rfl, rfl, (congrArg Conn.avail hconn).symm⟩

/-- Requests as a client builds them. -/
def WellBuilt (requests : List (Bytes × Body)) : Prop :=
  ∀ r ∈ requests, r.1.length = General.clientIdSize ∧ r.2.Fits

theorem streamBytes_cons (clientId : Bytes) (body : Body) (requests : List (Bytes × Body)) :
    streamBytes ((clientId, body) :: requests) =
      requestBytes clientId body ++ streamBytes requests := List.flatMap_cons

/-- The requests each in a segment of its own. -/
def segments (requests : List (Bytes × Body)) : List Bytes :=
  requests.map fun r => requestBytes r.1 r.2

/-- The request at the head of a stream is the first one of those it consists of. -/
theorem head_of_stream {left : List (Bytes × Body)} (hleft : WellBuilt left) {clientId : Bytes}
    {body : Body} {rest : Bytes} (hid : clientId.length = General.clientIdSize)
    (hfits : body.Fits) (h : streamBytes left = requestBytes clientId body ++ rest) :
    ∃ later, left = (clientId, body) :: later ∧ rest = streamBytes later := by
  cases left with
  | nil =>
      have hlength := congrArg List.length h
      rw [List.length_append, length_requestBytes hid] at hlength
      simp only [streamBytes, List.flatMap_nil, List.length_nil] at hlength
      omega
  | cons r later =>
      obtain ⟨hid', hfits'⟩ := hleft r List.mem_cons_self
      obtain ⟨rfl, rfl, hrest⟩ := requestBytes_append_inj hid hfits hid' hfits'
        (h.symm.trans (streamBytes_cons r.1 r.2 later))
      exact ⟨later, rfl, hrest⟩

/-! Two runs side by side: the stream in its segments, and request by request. -/

namespace Feed

/-- The first is in the middle of its stream, the second between two requests. -/
structure Abreast (left : List (Bytes × Body)) (u v : Feed) : Prop where
  wellFormed : WellFormed u.server
  server : v.server = u.server
  stays : u.conn.sendsLeft = none
  vStays : v.conn.sendsLeft = none
  stream : u.conn.stream = streamBytes left
  avail : v.conn.avail = []
  pending : v.conn.pending = segments left
  told : u.conn.answers = v.conn.answers ∧ u.conn.sent = v.conn.sent

namespace Abreast

variable {site : Site} {left : List (Bytes × Body)} {u u' v : Feed}

theorem isOver (h : Abreast left u v) (hleft : WellBuilt left) (hover : u.Over) : v.Over := by
  have hnone : streamBytes left = [] := by
    rw [← h.stream, Conn.stream, hover.1, hover.2]
    rfl
  cases left with
  | nil => exact ⟨h.avail, h.pending⟩
  | cons r later =>
      obtain ⟨hid, -⟩ := hleft r List.mem_cons_self
      have hlength := congrArg List.length hnone
      rw [streamBytes_cons, List.length_append, length_requestBytes hid, List.length_nil] at hlength
      omega

theorem arrive (h : Abreast left u v) (hstep : (feedRuns site).step u .arrive u') :
    Abreast left u' v := by
  have hnext := hstep.2
  simp only [next] at hnext
  split at hnext
  · cases hnext
  · rename_i chunk pending hpending
    obtain rfl := Option.some.inj hnext
    refine { h with stream := ?_ }
    rw [← h.stream, Conn.stream, Conn.stream, hpending, List.flatten_cons, List.append_assoc]

/-- One callback, and the second server given the request alone. -/
theorem callback (h : Abreast left u v) (hleft : WellBuilt left) {draws : Draws}
    (hstep : (feedRuns site).step u (.callback draws) u')
    (hwhole : u.Undivided site (.callback draws)) :
    ∃ r later v', left = r :: later ∧
      (feedRuns site).Run v [.arrive, .callback draws] v' ∧ Abreast later u' v' := by
  obtain ⟨clientId, body, c₁, c₂, hid, hfits, hchecked, hkey, hrejected, hunread⟩ :=
    hwhole draws rfl
  have hfresh := hstep.1 draws rfl
  have hnext := hstep.2
  simp only [next] at hnext
  split at hnext
  · cases hnext
  obtain rfl := Option.some.inj hnext
  have hbehind : c₁.stream = body.unread ++ c₂.stream := by
    rw [hkey.stream, Body.flatten_unchecked]
  have hstream : streamBytes left = requestBytes clientId body ++ c₂.stream := by
    rw [← h.stream, hchecked.stream, hbehind, ← List.append_assoc, flatten_checkedFields]
  obtain ⟨later, rfl, hlater⟩ := head_of_stream hleft hid hfits hstream
  -- the second server finds exactly the request
  let d : Conn := { v.conn with pending := segments later }
  let v₁ : Feed := ⟨v.server, d.withAvail (requestBytes clientId body ++ [])⟩
  have harrive : (feedRuns site).step v .arrive v₁ := by
    refine ⟨fun _ he => (nomatch he), ?_⟩
    simp only [next, h.pending, segments, List.map_cons, h.avail, v₁, d, Conn.withAvail,
      List.append_nil, List.nil_append]
  have hfields := Conn.Reads.of_avail (checkedFields clientId body) (body.unread ++ []) d
  have hfield := Conn.Reads.of_avail body.unchecked [] d
  rw [← List.append_assoc, flatten_checkedFields] at hfields
  rw [Body.flatten_unchecked] at hfield
  have hread := read_undivided site draws h.wellFormed hfresh h.stays hid hfits hchecked hkey
  have hread' := read_undivided site draws h.wellFormed hfresh (c := v₁.conn) h.vStays hid hfits
    hfields hfield
  let reply := (serve site draws u.server clientId body).2
  let w : Feed := ⟨(serve site draws u.server clientId body).1,
    (concluded body.isRegistration (d.withAvail (body.unread ++ [])) (d.withAvail []) reply).2⟩
  have hcallback : (feedRuns site).step v₁ (.callback draws) w := by
    refine ⟨fun _ he => by cases he; exact h.server ▸ hfresh, ?_⟩
    have hne : v₁.conn.avail ≠ [] := by
      intro hnone
      have hlength := congrArg List.length hnone
      simp only [v₁, Conn.withAvail, List.length_append, length_requestBytes hid,
        List.length_nil] at hlength
      omega
    have hserver : calm v₁.server v₁.conn = calm u.server v₁.conn := by rw [← h.server]
    rw [next, if_neg hne, hserver, hread']
    rfl
  refine ⟨(clientId, body), later, w, rfl, .cons harrive (.cons hcallback (.nil w)), ?_⟩
  have hconn : c₁.answers = v.conn.answers ∧ c₁.sent = v.conn.sent := by
    rw [hchecked.sameEnd.answers, hchecked.sameEnd.sent]
    exact h.told
  have hconn' : c₂.answers = v.conn.answers ∧ c₂.sent = v.conn.sent := by
    rw [hkey.sameEnd.answers, hkey.sameEnd.sent]
    exact hconn
  have h₁ : c₁.sendsLeft = none := hchecked.sameEnd.sendsLeft.trans h.stays
  have h₂ : c₂.sendsLeft = none := hkey.sameEnd.sendsLeft.trans h₁
  have hd₁ : (d.withAvail (body.unread ++ [])).sendsLeft = none := h.vStays
  have hd₂ : (d.withAvail []).sendsLeft = none := h.vStays
  obtain ⟨havail, hpending⟩ :=
    concluded_alone body.isRegistration d (body.unread ++ []) reply
  rw [hread]
  exact
    { wellFormed := serve_wellFormed site draws h.wellFormed hfresh clientId body
      server := rfl
      stays := concluded_stays h₁ h₂ _
      vStays := concluded_stays hd₁ hd₂ _
      stream := (concluded_stream hbehind hrejected hunread).trans hlater
      avail := havail
      pending := hpending
      told := concluded_told _ hconn hconn' }

/-- Side by side, from the beginning of a run to its end. -/
theorem run (h : Abreast left u v) (hleft : WellBuilt left) {es : List Feed.Event}
    (hrun : ((feedRuns site).guard (Undivided site)).Run u es u') :
    ∃ later v', WellBuilt later ∧ (feedRuns site).Run v (oneByOne es) v' ∧
      Abreast later u' v' := by
  induction hrun generalizing left v with
  | nil u => exact ⟨left, v, hleft, .nil v, h⟩
  | @cons u u₁ u' e es head _ ih =>
      obtain ⟨hstep, hwhole⟩ := head
      cases e with
      | arrive => exact ih (h.arrive hstep) hleft
      | callback draws =>
          obtain ⟨r, later, v₁, rfl, hrun₁, hnext⟩ := h.callback hleft hstep hwhole
          have hlater : WellBuilt later := fun x hx => hleft x (List.mem_cons_of_mem _ hx)
          obtain ⟨left', v', hleft', hrun', hend⟩ := ih hnext hlater
          exact ⟨left', v', hleft', hrun₁.append hrun', hend⟩

end Abreast
end Feed

/-- Where the callback reads its requests whole, the server and what it sends are those of
the run in which every request arrives by itself. -/
theorem segments_unseen {site : Site} {requests : List (Bytes × Body)}
    (hbuilt : WellBuilt requests) {chunks : List Bytes}
    (hchunks : chunks.flatten = streamBytes requests) {u v : Feed} {es : List Feed.Event}
    (hinit : (feedRuns site).init u)
    (hrun : ((feedRuns site).guard (Feed.Undivided site)).Run (u.cut chunks) es v) :
    ∃ v', (feedRuns site).Run (u.cut (segments requests)) (Feed.oneByOne es) v' ∧
      v'.server = v.server ∧ v'.conn.answers = v.conn.answers ∧ v'.conn.sent = v.conn.sent ∧
      (v.Over → v'.Over) := by
  obtain ⟨hreach, havail, hstays⟩ := hinit
  have hstart : Feed.Abreast requests (u.cut chunks) (u.cut (segments requests)) :=
    { wellFormed := hreach.wellFormed
      server := rfl
      stays := hstays
      vStays := hstays
      stream := by
        rw [← hchunks, Conn.stream]
        simp only [Feed.cut, havail, List.nil_append]
      avail := havail
      pending := rfl
      told := ⟨rfl, rfl⟩ }
  obtain ⟨later, v', hlater, hrun', hend⟩ := hstart.run hbuilt hrun
  exact ⟨v', hrun', hend.server, hend.told.1.symm, hend.told.2.symm, hend.isOver hlater⟩

/-! A registration cut before the last bytes of its padding. -/

theorem Conn.recv_rest {n : Nat} {data : Bytes} (hne : data ≠ []) (hlength : data.length ≤ n)
    (c : Conn) : (recv n).run (c.withAvail data) = (.done data, c.withAvail []) := by
  have hpos : 0 < data.length := List.length_pos_iff.mpr hne
  have hz : n ≠ 0 := by omega
  simp [recv, withAvail, take, hne, hz, List.take_of_length_le hlength,
    List.drop_of_length_le hlength]

/-- The name is read without the padding that has not arrived. -/
theorem receive_short {clientId : Bytes} {name : Text} {n : Nat}
    (hid : clientId.length = General.clientIdSize) (hne : encodeUtf8 name ≠ [])
    (hfits : NameFits n name) (hn : n ≤ General.clientNameSize) (c : Conn) :
    receive (c.withAvail (frame clientId General.registrationRequest825 General.clientNameSize ++
        nameField n name)) =
      ⟨.request clientId (.registration name), c.withAvail [], c.withAvail []⟩ := by
  have hheader := getHeader_frame hid (by decide : General.registrationRequest825 < 256 ^ 2)
    (by decide : General.clientNameSize < 256 ^ 4) (nameField n name) c
  have hdata : nameField n name ≠ [] := by
    intro h
    exact hne (List.append_eq_nil_iff.mp h).1
  have hrecv := Conn.recv_rest hdata (length_nameField hfits ▸ hn) c
  have hdecode := Octets.decodeUtf8_padTo n name
  rw [← nameField] at hdecode
  have htext : (recvText General.clientNameSize).run (c.withAvail (nameField n name)) =
      (.done name, c.withAvail []) := by
    rw [recvText, bind_done hrecv, hdecode, ofOption_some, pure_bind, run_pure,
      Octets.filter_nul_padded hfits.2]
  rw [receive_of_header hheader, Reception.ofHeader, if_neg (not_not_intro rfl), if_pos rfl, htext]
  rfl

/-- What follows is too short for a header. -/
theorem receive_stub {c : Conn} {stub : Bytes} (hne : stub ≠ [])
    (hlength : stub.length ≤ General.clientIdSize) (hpending : c.pending = [])
    (hidle : c.hangup = .idle) (hblocking : c.blocking = false) :
    receive (c.withAvail stub) = ⟨.malformed false, c.withAvail [], c.withAvail []⟩ := by
  have hraised : (Conn.recv General.versionSize).run (c.withAvail []) =
      (.raised .blockingIOError, c.withAvail []) := by
    simp [Conn.recv, Conn.withAvail, hpending, hidle, hblocking]
  have hheader : Request.getHeader.run (c.withAvail stub) =
      (.raised .blockingIOError, c.withAvail []) := by
    rw [Request.getHeader, bind_done (Conn.recv_rest hne hlength c), if_neg hne]
    exact bind_raised (bind_raised hraised)
  rw [receive, hheader]

namespace Feed

variable (site : Site) {u : Feed} {draws : Draws} {clientId : Bytes} {body : Body}
  {unread conn : Conn}

theorem step_arrive {chunk : Bytes} {chunks : List Bytes} (h : u.conn.pending = chunk :: chunks) :
    (feedRuns site).step u .arrive
      { u with conn := { u.conn with avail := u.conn.avail ++ chunk, pending := chunks } } := by
  refine ⟨fun _ he => (nomatch he), ?_⟩
  simp only [next, h]

theorem step_callback (hs : WellFormed u.server) (hfresh : draws.uuid ∉ u.server.ids)
    (hready : u.conn.avail ≠ []) :
    (feedRuns site).step u (.callback draws) ⟨(receive u.conn).next site draws u.server,
      ((receive u.conn).finish site draws u.server).2⟩ := by
  refine ⟨fun _ he => by cases he; exact hfresh, ?_⟩
  rw [next, if_neg hready, read_calm site draws u.conn hs hfresh]
  rfl

theorem step_answered (hs : WellFormed u.server) (hfresh : draws.uuid ∉ u.server.ids)
    (hready : u.conn.avail ≠ []) (hstays : conn.sendsLeft = none)
    (hreceive : receive u.conn = ⟨.request clientId body, unread, conn⟩) {m : Message}
    (hreply : (serve site draws u.server clientId body).2 = .answer m) :
    (feedRuns site).step u (.callback draws)
      ⟨(serve site draws u.server clientId body).1, conn.told m⟩ := by
  have hstep := step_callback site hs hfresh hready
  rw [hreceive] at hstep
  simp only [Reception.next, Reception.finish, hreply, conclude,
    attempt_done (send_stays hstays (serve_answer hreply).2)] at hstep
  exact hstep

theorem step_malformed (hs : WellFormed u.server) (hfresh : draws.uuid ∉ u.server.ids)
    (hready : u.conn.avail ≠ []) (hstays : conn.sendsLeft = none) {registration : Bool}
    (hreceive : receive u.conn = ⟨.malformed registration, unread, conn⟩) :
    (feedRuns site).step u (.callback draws)
      ⟨u.server, conn.cleaned.told (failureMessage registration)⟩ := by
  have hstep := step_callback site hs hfresh hready
  rw [hreceive] at hstep
  simp only [Reception.next, Reception.finish, failure_stays hstays] at hstep
  exact hstep

end Feed

def startedFeed : Feed := ⟨startedServer, .accepted⟩

def unregisteredId : Bytes := List.replicate 16 0

/-- The last ten bytes of a registration come later than the others. -/
def cutRegistration : List Bytes :=
  [frame unregisteredId General.registrationRequest825 General.clientNameSize ++
    nameField 245 ['b'], List.replicate 10 0]

theorem flatten_cutRegistration :
    cutRegistration.flatten = streamBytes [(unregisteredId, .registration ['b'])] := by
  have hname : nameField General.clientNameSize ['b'] =
      nameField 245 ['b'] ++ List.replicate 10 0 := by
    have hbyte : encodeUtf8 ['b'] = [98] := by decide
    rw [nameField, nameField, padTo, padTo, hbyte, List.append_assoc,
      List.replicate_append_replicate]
    rfl
  have hlength : (nameField General.clientNameSize ['b']).length = General.clientNameSize :=
    length_nameField ⟨by decide, by decide⟩
  simp only [streamBytes_cons, requestBytes, Body.code, Body.payload, hlength]
  rw [hname]
  simp [cutRegistration, streamBytes]

theorem fits_registration : (Body.registration ['b']).Fits := ⟨by decide, by decide⟩

theorem wellBuilt_registration : WellBuilt [(unregisteredId, .registration ['b'])] := by
  intro r hr
  obtain rfl := List.mem_singleton.mp hr
  exact ⟨List.length_replicate, fits_registration⟩

theorem init_startedFeed : (feedRuns bareSite).init startedFeed :=
  ⟨reachable_startedServer, rfl, rfl⟩

theorem registration_answered :
    (serve bareSite (sameDraws 1) startedServer unregisteredId (.registration ['b'])).2 =
      .answer (.registrationDone (sameDraws 1).uuid) := rfl

theorem length_unregisteredId : unregisteredId.length = General.clientIdSize :=
  List.length_replicate

theorem requestBytes_ne_nil {clientId : Bytes} (hid : clientId.length = General.clientIdSize)
    (body : Body) : requestBytes clientId body ≠ [] := by
  intro hnone
  have hlength := congrArg List.length hnone
  rw [length_requestBytes hid, List.length_nil] at hlength
  omega

/-- A request that has arrived, with nothing behind it. -/
theorem Feed.undivided_arrived (site : Site) {u : Feed} {clientId : Bytes} {body : Body}
    (hid : clientId.length = General.clientIdSize) (hfits : body.Fits)
    (havail : u.conn.avail = requestBytes clientId body) (e : Feed.Event) :
    u.Undivided site e := by
  intro draws _
  have hchecked := Conn.Reads.of_avail (checkedFields clientId body) body.unread u.conn
  have hkey := Conn.Reads.of_avail body.unchecked [] u.conn
  rw [flatten_checkedFields, ← havail] at hchecked
  rw [Body.flatten_unchecked, List.append_nil] at hkey
  exact ⟨clientId, body, _, _, hid, hfits, hchecked, hkey, fun _ => rfl, fun _ => rfl⟩

/-- A request in two segments, both of which arrive before the callback. -/
theorem Feed.run_arrived (site : Site) {u : Feed} {draws : Draws} {clientId : Bytes} {body : Body}
    (hid : clientId.length = General.clientIdSize) (hfits : body.Fits) (hs : WellFormed u.server)
    (hfresh : draws.uuid ∉ u.server.ids) (havail : u.conn.avail = []) {first second : Bytes}
    (hcut : first ++ second = requestBytes clientId body) :
    ∃ v, ((feedRuns site).guard (Feed.Undivided site)).Run (u.cut [first, second])
      [.arrive, .arrive, .callback draws] v := by
  let w : Feed :=
    ⟨u.server, { u.conn with avail := u.conn.avail ++ first ++ second, pending := [] }⟩
  have hw : w.conn.avail = requestBytes clientId body := by
    simp only [w, havail, List.nil_append, hcut]
  have hcallback := step_callback site (u := w) hs hfresh
    (hw ▸ requestBytes_ne_nil hid body)
  exact ⟨_, .cons ⟨step_arrive _ rfl, fun _ h => (nomatch h)⟩
    (.cons ⟨step_arrive _ rfl, fun _ h => (nomatch h)⟩
      (.cons ⟨hcallback, undivided_arrived site hid hfits hw _⟩ (.nil _)))⟩

/-- The same cut does no harm if both segments have arrived before the callback. -/
theorem segments_unseen_cut :
    ∃ u v, ((feedRuns bareSite).guard (Feed.Undivided bareSite)).Run
        (startedFeed.cut cutRegistration) [.arrive, .arrive, .callback (sameDraws 1)] u ∧
      (feedRuns bareSite).Run
        (startedFeed.cut (segments [(unregisteredId, .registration ['b'])]))
        (Feed.oneByOne [.arrive, .arrive, .callback (sameDraws 1)]) v ∧
      v.server = u.server ∧ v.conn.answers = u.conn.answers ∧ v.conn.sent = u.conn.sent := by
  have hcut := flatten_cutRegistration
  rw [streamBytes_cons, cutRegistration, List.flatten_cons, List.flatten_singleton,
    show streamBytes [] = [] from rfl, List.append_nil] at hcut
  have hfresh : (sameDraws 1).uuid ∉ startedFeed.server.ids := by decide
  obtain ⟨u, hrun⟩ := Feed.run_arrived bareSite length_unregisteredId fits_registration
    reachable_startedServer.wellFormed hfresh rfl hcut
  obtain ⟨v, hrun', hserver, hanswers, hsent, -⟩ :=
    segments_unseen wellBuilt_registration flatten_cutRegistration init_startedFeed hrun
  exact ⟨u, v, hrun, hrun', hserver, hanswers, hsent⟩

/-- The padding that comes later is answered as a request of its own. -/
theorem padding_answered :
    WellBuilt [(unregisteredId, .registration ['b'])] ∧
      cutRegistration.flatten = streamBytes [(unregisteredId, .registration ['b'])] ∧
      (∀ chunk ∈ cutRegistration, chunk ≠ []) ∧ (feedRuns bareSite).init startedFeed ∧
      ∃ u v, (feedRuns bareSite).Run (startedFeed.cut cutRegistration)
          [.arrive, .callback (sameDraws 1), .arrive, .callback (sameDraws 2)] u ∧ u.Over ∧
        (feedRuns bareSite).Run
          (startedFeed.cut (segments [(unregisteredId, .registration ['b'])]))
          [.arrive, .callback (sameDraws 1)] v ∧ v.Over ∧
        u.conn.answers.map (·.code) =
          [General.registrationDone1600, General.generalError1607] ∧
        v.conn.answers.map (·.code) = [General.registrationDone1600] := by
  have hs : WellFormed startedServer := reachable_startedServer.wellFormed
  have hfresh : (sameDraws 1).uuid ∉ startedServer.ids := by decide
  have hhead : frame unregisteredId General.registrationRequest825 General.clientNameSize ++
      nameField 245 ['b'] ≠ [] := by
    intro h
    exact absurd (List.append_eq_nil_iff.mp h).2 (by decide)
  refine ⟨wellBuilt_registration, flatten_cutRegistration, ?_, init_startedFeed, ?_⟩
  · intro chunk hchunk
    obtain rfl | hchunk := List.mem_cons.mp hchunk
    · exact hhead
    · rw [List.mem_singleton.mp hchunk]
      decide
  have hname : NameFits 245 ['b'] := ⟨by decide, by decide⟩
  let c : Conn := { Conn.accepted with pending := [List.replicate 10 0] }
  have hshort := receive_short length_unregisteredId (by decide) hname (by decide) c
  let u₁ : Feed := ⟨startedServer, { Conn.accepted with
    avail := frame unregisteredId General.registrationRequest825 General.clientNameSize ++
      nameField 245 ['b'], pending := [List.replicate 10 0] }⟩
  have h₁ : (feedRuns bareSite).step (startedFeed.cut cutRegistration) .arrive u₁ :=
    Feed.step_arrive _ rfl
  have h₂ := Feed.step_answered bareSite (u := u₁) hs hfresh hhead rfl hshort
    registration_answered
  let s₁ := (serve bareSite (sameDraws 1) startedServer unregisteredId (.registration ['b'])).1
  let m : Message := .registrationDone (sameDraws 1).uuid
  let u₂ : Feed := ⟨s₁, (c.withAvail []).told m⟩
  have hs₁ : WellFormed s₁ := serve_wellFormed bareSite (sameDraws 1) hs hfresh _ _
  have hfresh₁ : (sameDraws 2).uuid ∉ s₁.ids := by decide
  let u₃ : Feed := ⟨s₁, (Conn.accepted.told m).withAvail (List.replicate 10 0)⟩
  have h₃ : (feedRuns bareSite).step u₂ .arrive u₃ := Feed.step_arrive _ rfl
  have hzeros : List.replicate 10 (0 : UInt8) ≠ [] := by decide
  have hstub := receive_stub (c := Conn.accepted.told m) hzeros (by decide) rfl rfl rfl
  have h₄ := Feed.step_malformed bareSite (u := u₃) hs₁ hfresh₁ hzeros rfl hstub
  -- the same registration in one piece
  let bytes : Bytes := requestBytes unregisteredId (.registration ['b'])
  let v₁ : Feed := ⟨startedServer, Conn.accepted.withAvail (bytes ++ [])⟩
  have hv₁ : (feedRuns bareSite).step
      (startedFeed.cut (segments [(unregisteredId, .registration ['b'])])) .arrive v₁ := by
    simp only [v₁, List.append_nil]
    exact Feed.step_arrive _ rfl
  have hwhole := receive_request length_unregisteredId fits_registration [] .accepted
  have hready : bytes ++ [] ≠ [] := by
    rw [List.append_nil]
    exact requestBytes_ne_nil length_unregisteredId _
  have hv₂ := Feed.step_answered bareSite (u := v₁) hs hfresh hready rfl hwhole
    registration_answered
  exact ⟨_, _, .cons h₁ (.cons h₂ (.cons h₃ (.cons h₄ (.nil _)))), ⟨rfl, rfl⟩,
    .cons hv₁ (.cons hv₂ (.nil _)), ⟨rfl, rfl⟩, rfl, rfl⟩

end SecureTransfer
