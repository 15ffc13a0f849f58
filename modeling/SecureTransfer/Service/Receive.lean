import SecureTransfer.Service.Refinement

/-!
What a callback finds on its connection, and the callback as a whole: read a
request, serve it, and conclude with the answer or with the error of the handler.
-/

open Octets (Text encodeUtf8 padTo toLittle)
open Effects Act

namespace SecureTransfer

inductive Incoming where
  | ended
  | waits
  /-- A request that cannot be read, known to be a registration or not. -/
  | malformed (registration : Bool)
  | request (clientId : Bytes) (body : Body)

/-- A request with the connection after it. `unread` differs from `conn` for an 826
alone: it is the connection before the key is read. -/
structure Reception where
  incoming : Incoming
  unread : Conn
  conn : Conn

namespace Reception

/-- The fields are read by one command, and make up the body of the request. -/
def ofRead {α : Type} (clientId : Bytes) (registration : Bool) (body : α → Body) :
    Outcome PyError α × Conn → Reception
  | (.done a, c) => ⟨.request clientId (body a), c, c⟩
  | (.raised _, c) => ⟨.malformed registration, c, c⟩
  | (.blocked, c) => ⟨.waits, c, c⟩

def withKey (clientId : Bytes) : Outcome PyError Text × Conn → Reception
  | (.done name, c) =>
      let key := (Conn.recv General.publicKeySize).run c
      ⟨.request clientId (.publicKey name key.1), c, key.2⟩
  | (.raised _, c) => ⟨.malformed false, c, c⟩
  | (.blocked, c) => ⟨.waits, c, c⟩

def ofHeader (r : Request) (c : Conn) : Reception :=
  if r.version ≠ General.version then ⟨.malformed false, c, c⟩
  else if r.code = General.registrationRequest825 then
    ofRead r.clientId true .registration ((recvText General.clientNameSize).run c)
  else if r.code = General.reconnectionRequest827 then
    ofRead r.clientId false .reconnection ((recvText General.clientNameSize).run c)
  else if r.code = General.sendPublicKeyRequest826 then
    withKey r.clientId ((recvText General.clientNameSize).run c)
  else if r.code = General.sendFileRequest828 then
    ofRead r.clientId false .packet ((Request.recvPacket r.payloadSize).run c)
  else if r.code = General.validCrcRequest900 ∨ r.code = General.invalidCrcRequest901 ∨
      r.code = General.invalidCrc4thRequest902 then
    ofRead r.clientId false (.verdict r.code) ((recvText General.fileNameSize).run c)
  else ⟨.malformed false, c, c⟩

end Reception

def receive (c : Conn) : Reception :=
  match Request.getHeader.run c with
  | (.done none, c) => ⟨.ended, c, c⟩
  | (.done (some r), c) => .ofHeader r c
  | (.raised _, c) => ⟨.malformed false, c, c⟩
  | (.blocked, c) => ⟨.waits, c, c⟩

def reject (code : Nat) : Net Unit := do
  cleanBuffer
  Answer.sendHeaderToClient ⟨code, 0⟩

/-- The handlers around a request: that of a registration stands inside the general
one. -/
def failure (registration : Bool) : Net Unit :=
  if registration then
    attempt (reject General.registrationFailed1601) fun _ => reject General.generalError1607
  else reject General.generalError1607

def Body.isRegistration : Body → Bool
  | .registration _ => true
  | _ => false

def conclude (registration : Bool) (unread conn : Conn) : Reply → Outcome PyError Unit × Conn
  | .silent => (.done (), conn)
  | .answer m => (attempt m.send fun _ => failure registration).run conn
  | .rejected => (failure registration).run conn
  | .rejectedUnread => (failure registration).run unread
  | .waits => (.blocked, conn)

namespace Reception

/-- The server after the request. -/
def next (site : Site) (draws : Draws) (s : Server) (r : Reception) : Server :=
  match r.incoming with
  | .request clientId body => (serve site draws s clientId body).1
  | _ => s

/-- How the callback ends, and the connection after it. -/
def finish (site : Site) (draws : Draws) (s : Server) (r : Reception) :
    Outcome PyError Unit × Conn :=
  match r.incoming with
  | .ended => (.done (), { r.conn with registered := false })
  | .waits => (.blocked, r.conn)
  | .malformed registration => (failure registration).run r.conn
  | .request clientId body =>
      conclude body.isRegistration r.unread r.conn (serve site draws s clientId body).2

end Reception

theorem onConn_calm {α : Type} (m : Net α) (s : Server) (c : Conn) :
    (onConn m).run (calm s c) = ((m.run c).1, calm s (m.run c).2) := rfl

theorem onConn_attempt (m handler : Net Unit) :
    (attempt (onConn m) fun _ => onConn handler) = onConn (attempt m fun _ => handler) := by
  ext1
  funext w
  rcases h : m.run w.conn with ⟨o, c⟩
  cases o <;> simp [onConn, onPart, attempt, h]

/-- A handler that computes the service, inside the handlers of the callback. -/
theorem attempt_refines {m : Py Unit} {s : Server} {c c' : Conn} {r : Server × Reply}
    (h : Refines m s c c' r) (registration : Bool) :
    (attempt m fun _ => onConn (failure registration)).run (calm s c) =
      ((conclude registration c c' r.2).1, calm r.1 (conclude registration c c' r.2).2) := by
  obtain ⟨s', reply⟩ := r
  cases reply with
  | silent => exact attempt_done h
  | answer msg =>
      rw [attempt_congr h, onConn_attempt, onConn_calm]
      rfl
  | rejected =>
      obtain ⟨e, he⟩ := h
      rw [attempt_raised he, onConn_calm]
      rfl
  | rejectedUnread =>
      obtain ⟨e, he⟩ := h
      rw [attempt_raised he, onConn_calm]
      rfl
  | waits => exact attempt_blocked h

namespace Conn

theorem recv_length {n : Int} {c c' : Conn} {data : Bytes}
    (h : (recv n).run c = (.done data, c')) : data.length ≤ n.toNat := by
  simp only [recv] at h
  split at h
  · simp at h
  split at h
  · simp only [Prod.mk.injEq, Outcome.done.injEq] at h
    simp [← h.1]
  split at h
  · simp only [Prod.mk.injEq, Outcome.done.injEq] at h
    rw [← h.1]
    exact List.length_take_le _ _
  split at h
  · split at h
    · simp only [Prod.mk.injEq, Outcome.done.injEq] at h
      rw [← h.1]
      exact List.length_take_le _ _
    · simp at h
  · split at h <;> simp at h
  · simp only [Prod.mk.injEq, Outcome.done.injEq] at h
    simp [← h.1]
  · simp at h

end Conn

theorem recvNumber_lt {size n : Nat} {c c' : Conn}
    (h : (recvNumber size).run c = (.done n, c')) : n < 256 ^ size := by
  obtain ⟨data, t, hrecv, h⟩ := bind_eq_done h
  simp only [run_pure, Prod.mk.injEq, Outcome.done.injEq] at h
  rw [← h.1]
  exact Octets.ofLittle_lt_of_length_le (Conn.recv_length hrecv)

theorem recvPacket_contentSize {payloadSize : Nat} {p : Packet} {c c' : Conn}
    (h : (Request.recvPacket payloadSize).run c = (.done p, c')) :
    p.contentSize < 256 ^ General.contentSizeSize := by
  obtain ⟨contentSize, t, hsize, h⟩ := bind_eq_done h
  obtain ⟨_, _, -, h⟩ := bind_eq_done h
  obtain ⟨_, _, -, h⟩ := bind_eq_done h
  obtain ⟨_, _, -, h⟩ := bind_eq_done h
  obtain ⟨_, _, -, h⟩ := bind_eq_done h
  obtain ⟨_, _, -, h⟩ := bind_eq_done h
  simp only [run_pure, Prod.mk.injEq, Outcome.done.injEq] at h
  rw [← h.1]
  exact recvNumber_lt hsize

section
variable (site : Site) (draws : Draws) {s : Server}

/-- A request whose fields are read by one command, then served. -/
theorem ofRead_calm {α : Type} (clientId : Bytes) (registration : Bool) (body : α → Body)
    (m : Net α) (g : α → Py Unit) (c : Conn) (hbody : ∀ a, (body a).isRegistration = registration)
    (hg : ∀ a c', m.run c = (.done a, c') →
      Refines (g a) s c' c' (serve site draws s clientId (body a))) :
    (attempt (onConn m >>= g) fun _ => onConn (failure registration)).run (calm s c) =
      (let r := Reception.ofRead clientId registration body (m.run c)
       ((r.finish site draws s).1, calm (r.next site draws s) (r.finish site draws s).2)) := by
  rcases hm : m.run c with ⟨o, c'⟩
  have hread : (onConn m).run (calm s c) = (o, calm s c') := by rw [onConn_calm, hm]
  cases o with
  | done a =>
      rw [attempt_congr (bind_done hread), attempt_refines (hg a c' hm)]
      simp only [Reception.ofRead, Reception.finish, Reception.next, hbody]
  | raised e => rw [attempt_raised (bind_raised hread), onConn_calm]; rfl
  | blocked => rw [attempt_blocked (bind_blocked hread)]; rfl

theorem withKey_calm (clientId : Bytes) (c : Conn) (hs : WellFormed s) :
    (attempt (do
        let newClientName ← onConn (recvText General.clientNameSize)
        Request.takePublicKey site draws clientId newClientName)
      fun _ => onConn (failure false)).run (calm s c) =
      (let r := Reception.withKey clientId ((recvText General.clientNameSize).run c)
       ((r.finish site draws s).1, calm (r.next site draws s) (r.finish site draws s).2)) := by
  rcases hm : (recvText General.clientNameSize).run c with ⟨o, c'⟩
  have hread : (onConn (recvText General.clientNameSize)).run (calm s c) = (o, calm s c') := by
    rw [onConn_calm, hm]
  cases o with
  | done name =>
      rw [attempt_congr (bind_done hread),
        attempt_refines (takePublicKey_refines site draws clientId name s c' hs.idsDistinct)]
      rfl
  | raised e => rw [attempt_raised (bind_raised hread), onConn_calm]; rfl
  | blocked => rw [attempt_blocked (bind_blocked hread)]; rfl

theorem dispatch_calm (r : Request) (c : Conn) (hs : WellFormed s) (hfresh : draws.uuid ∉ s.ids) :
    (attempt (do onConn r.headerValidation; dispatch site draws r)
      fun _ => onConn (failure false)).run (calm s c) =
      (let r := Reception.ofHeader r c
       ((r.finish site draws s).1, calm (r.next site draws s) (r.finish site draws s).2)) := by
  unfold Reception.ofHeader
  by_cases hversion : r.version = General.version
  · rw [if_neg (by simpa using hversion)]
    have hvalid : (onConn r.headerValidation).run (calm s c) = (.done (), calm s c) := by
      rw [onConn_calm, Request.headerValidation, require_pos hversion]
      rfl
    rw [attempt_congr (bind_done hvalid)]
    unfold dispatch
    split
    · rw [attempt_attempt]
      have hfail : (fun _ : PyError => onConn (failure true)) = fun _ => attempt
          (onConn (reject General.registrationFailed1601)) fun _ => onConn (failure false) := by
        funext _
        rw [onConn_attempt]
        rfl
      have h := ofRead_calm site draws r.clientId true .registration
        (recvText General.clientNameSize) (Request.register site draws) c (fun _ => rfl)
        fun name c' _ => register_refines site draws name s c' hs hfresh
      rw [hfail] at h
      exact h
    split
    · exact ofRead_calm site draws r.clientId false .reconnection
        (recvText General.clientNameSize) (Request.reconnect site draws r.clientId) c
        (fun _ => rfl) fun name c' _ =>
          reconnect_refines site draws r.clientId name s c' hs.idsDistinct
    split
    · exact withKey_calm site draws r.clientId c hs
    split
    · exact ofRead_calm site draws r.clientId false .packet (Request.recvPacket r.payloadSize)
        (Request.storePacket site draws r.clientId) c (fun _ => rfl) fun p c' h =>
          storePacket_refines site draws r.clientId p s c' hs (recvPacket_contentSize h)
    split
    · exact ofRead_calm site draws r.clientId false (.verdict r.code)
        (recvText General.fileNameSize) (Request.crcVerdict site draws r.clientId r.code) c
        (fun _ => rfl) fun name c' _ => crcVerdict_refines site draws r.clientId r.code name s c' hs
    · rw [attempt_raised (run_raise _ _), onConn_calm]
      rfl
  · rw [if_pos hversion]
    have hinvalid : (onConn r.headerValidation).run (calm s c) =
        (.raised .typeError, calm s c) := by
      rw [onConn_calm, Request.headerValidation, require_neg hversion]
      rfl
    rw [attempt_raised (bind_raised hinvalid), onConn_calm]
    rfl

/-- The callback, when no file or sqlite call fails and the uuid drawn is new. -/
theorem read_calm (c : Conn) (hs : WellFormed s) (hfresh : draws.uuid ∉ s.ids) :
    (read site draws).run (calm s c) =
      (((receive c).finish site draws s).1,
        calm ((receive c).next site draws s) ((receive c).finish site draws s).2) := by
  unfold read receive
  rcases hh : Request.getHeader.run c with ⟨o, c'⟩
  have hread : (onConn Request.getHeader).run (calm s c) = (o, calm s c') := by
    rw [onConn_calm, hh]
  cases o with
  | done header =>
      rw [attempt_congr (bind_done hread)]
      cases header with
      | none => rfl
      | some r => exact dispatch_calm site draws r c' hs hfresh
  | raised e => rw [attempt_raised (bind_raised hread), onConn_calm]; rfl
  | blocked => rw [attempt_blocked (bind_blocked hread)]; rfl

end
end SecureTransfer
