import SecureTransfer.Client.Codec
import SecureTransfer.Service.Delivery

/-!
The stream of requests of one client, as the server reads it: each request is received
as the client built it, and the next one starts where it ended.
-/

open Octets (Text encodeUtf8)
open Effects Act
open Dialogue (Prog)

namespace SecureTransfer

theorem length_frame {clientId : Bytes} (hid : clientId.length = General.clientIdSize)
    (code payloadSize : Nat) : (frame clientId code payloadSize).length = 23 := by
  simp only [frame, List.length_append, Octets.length_toLittle, hid]
  rfl

theorem length_requestBytes {clientId : Bytes} (hid : clientId.length = General.clientIdSize)
    (body : Body) : (requestBytes clientId body).length = 23 + body.payload.length := by
  rw [requestBytes, List.length_append, length_frame hid]

/-- A request that is not rejected leaves on the connection what came behind it. -/
theorem read_consumes (site : Site) (draws : Draws) {s : Server} (hs : Reachable site s)
    (hfresh : draws.uuid ∉ s.ids) {clientId : Bytes} {body : Body}
    (hid : clientId.length = General.clientIdSize) (hfits : body.Fits) (rest : Bytes)
    {c : Conn} (hc : c.sendsLeft = none)
    (hreply : (serve site draws s clientId body).2 = .silent ∨
      ∃ m, (serve site draws s clientId body).2 = .answer m) :
    ((read site draws).run
      (calm s (c.withAvail (requestBytes clientId body ++ rest)))).2.conn.avail = rest := by
  rw [read_calm site draws _ hs.wellFormed hfresh, receive_request hid hfits]
  simp only [Reception.finish, calm]
  have hstays : (c.withAvail rest).sendsLeft = none := hc
  rcases hreply with hreply | ⟨m, hreply⟩
  · rw [hreply]
    rfl
  · rw [hreply, conclude, attempt_done (send_stays hstays (serve_answer hreply).2)]
    rfl

/-- The bytes of some requests, one behind the other. -/
def streamBytes (requests : List (Bytes × Body)) : Bytes :=
  requests.flatMap fun r => requestBytes r.1 r.2

namespace ClientSide

variable {kit : Toolkit} {z : Setting kit}

/-- These writes, each with what the client held then, are these requests one by one. -/
def Setting.Writes (z : Setting kit) (writes : List (Holdings × Bytes))
    (requests : List (Bytes × Body)) : Prop :=
  List.Forall₂ (fun write r => z.Asks write.1 r.1 r.2 ∧ write.2 = requestBytes r.1 r.2)
    writes requests

theorem Setting.Writes.fits {writes : List (Holdings × Bytes)} {requests : List (Bytes × Body)}
    (h : z.Writes writes requests) :
    ∀ r ∈ requests, r.1.length = General.clientIdSize ∧ r.2.Fits := by
  induction h with
  | nil =>
      intro r hr
      cases hr
  | cons hwrite _ ih =>
      intro r hr
      obtain rfl | hr := List.mem_cons.mp hr
      · exact hwrite.1.fits
      · exact ih r hr

theorem requests_of_sends {writes : List (Holdings × Bytes)}
    (h : ∀ write ∈ writes, z.IsRequest write.1 write.2) :
    ∃ requests, z.Writes writes requests := by
  induction writes with
  | nil => exact ⟨[], .nil⟩
  | cons write writes ih =>
      obtain ⟨id, body, hasks, hbytes⟩ := h write List.mem_cons_self
      obtain ⟨requests, hrequests⟩ := ih fun w hw => h w (List.mem_cons_of_mem write hw)
      exact ⟨(id, body) :: requests, .cons ⟨hasks, hbytes⟩ hrequests⟩

/-- At any point of a run the client has written requests and nothing else, one after the
other, each of its own id, name, key and next slice as it held them when it wrote, and it
has read an answer only after a request. The server reads each of these requests from the
bytes of the stream where the one before it ended. -/
theorem client_stream_in_step (kit : Toolkit) (z : Setting kit) (history : List Observation)
    (p : Prog Unit) (hcomes : Comes kit history p)
    (hasked : ∀ q r, Prog.Observation.asked q r ∈ history → z.Allows q r) :
    (∀ before data after, history = before ++ .read data :: after →
      (before.foldl (Holdings.note kit) Holdings.new).fields = [] →
        (before.foldl (Holdings.note kit) Holdings.new).unanswered = true) ∧
    ∃ requests : List (Bytes × Body),
      z.Writes (Prog.posted (Holdings.note kit) Holdings.new history) requests ∧
      ∀ id body after, (id, body) :: after <:+ requests → ∀ (c : Conn) (rest : Bytes),
        (requestBytes id body).length = 23 + body.payload.length ∧
        Request.getHeader.run (c.withAvail (streamBytes ((id, body) :: after) ++ rest)) =
          (.done (some ⟨id, General.version, body.code, body.payload.length⟩),
            c.withAvail (body.payload ++ (streamBytes after ++ rest))) ∧
        receive (c.withAvail (streamBytes ((id, body) :: after) ++ rest)) =
          ⟨.request id body, c.withAvail (body.unread ++ (streamBytes after ++ rest)),
            c.withAvail (streamBytes after ++ rest)⟩ ∧
        ∀ (site : Site) (draws : Draws) (s : Server), Reachable site s → draws.uuid ∉ s.ids →
          c.sendsLeft = none →
          ((serve site draws s id body).2 = .silent ∨
            ∃ m, (serve site draws s id body).2 = .answer m) →
          ((read site draws).run (calm s (c.withAvail
            (streamBytes ((id, body) :: after) ++ rest)))).2.conn.avail =
              streamBytes after ++ rest := by
  refine ⟨?_, ?_⟩
  · intro before data after hhistory
    subst hhistory
    exact (sends_main z).observed hcomes hasked
  obtain ⟨requests, hwrites⟩ := requests_of_sends ((sends_main z).posted hcomes hasked)
  refine ⟨requests, hwrites, ?_⟩
  intro id body after hsuffix c rest
  obtain ⟨hid, hfits⟩ := Setting.Writes.fits hwrites _ (hsuffix.mem List.mem_cons_self)
  have hstream : streamBytes ((id, body) :: after) ++ rest =
      requestBytes id body ++ (streamBytes after ++ rest) := by
    rw [streamBytes, List.flatMap_cons, List.append_assoc]
    rfl
  rw [hstream]
  refine ⟨length_requestBytes hid body, ?_, receive_request hid hfits _ c, ?_⟩
  · rw [requestBytes, List.append_assoc]
    exact getHeader_frame hid (Body.code_lt hfits) (Body.payload_lt hfits) _ c
  · intro site draws s hs hfresh hc hreply
    exact read_consumes site draws hs hfresh hid hfits _ hc hreply

/-- A client named `a` with an empty file `f` to send. -/
def emptyFileSetting : Setting bareKit where
  clientName := ['a']
  fileName := ['f']
  pathToFile := [102]
  Key := fun key => key.length = General.publicKeySize
  Content := fun file => file = []
  clientName_fits := ⟨by decide, by decide⟩
  fileName_fits := ⟨by decide, by decide⟩
  findFileName_eq := by decide
  length_key := fun _ h => h
  length_ciphertext := by
    rintro key _ rfl
    rw [ciphertext, BlockMode.length_cbcEncrypt]
    decide

/-- The first thing that client sends if it finds no me.info. -/
def firstRequest : Request :=
  (((Request.new.setClientID (List.replicate 32 0)).setCode registering825).setPayloadSize
    nameOfClientSize).appendStringPayload [97] nameOfClientSize

/-- Its run up to that write. -/
def firstHistory : List Observation :=
  [.asked (.load transferInfo) (some [58, 10, 97, 10, 102]), .asked (.connect [] []) (),
    .asked (.load meInfo) none, .sent firstRequest.massage]

theorem comes_firstHistory : ∃ p, Comes bareKit firstHistory p :=
  ⟨_, .query (.query (.query (.send (.here _))))⟩

theorem allows_firstHistory :
    ∀ q r, Prog.Observation.asked q r ∈ firstHistory → emptyFileSetting.Allows q r := by
  have hload : emptyFileSetting.Allows (.load transferInfo) (some [58, 10, 97, 10, 102]) := by
    refine ⟨fun _ => ⟨_, rfl, by decide, by decide⟩, fun h => ?_⟩
    cases h
  have hme : emptyFileSetting.Allows (.load meInfo) none := by
    refine ⟨fun h => ?_, fun h => ?_⟩
    · cases h
    · cases h
  intro q r hmem
  simp only [firstHistory, List.mem_cons, List.not_mem_nil, or_false, reduceCtorEq] at hmem
  obtain h | h | h := hmem
  · cases h
    exact hload
  · cases h
    exact trivial
  · cases h
    exact hme

theorem client_stream_in_step_firstRequest : ∃ requests : List (Bytes × Body),
    emptyFileSetting.Writes
      (Prog.posted (Holdings.note bareKit) Holdings.new firstHistory) requests ∧
      requests.length = 1 := by
  obtain ⟨p, hcomes⟩ := comes_firstHistory
  obtain ⟨-, requests, hwrites, -⟩ := client_stream_in_step bareKit emptyFileSetting firstHistory p
    hcomes allows_firstHistory
  exact ⟨requests, hwrites, (List.Forall₂.length_eq hwrites).symm⟩

end ClientSide
end SecureTransfer
