import SecureTransfer.Service.Delivery
import SecureTransfer.Service.Emissions

/-!
Callbacks that do not return. The handlers around a request send an answer themselves, so a
peer that is gone before the answer is complete ends the server, and one that reads nothing
holds it up: the callback returns exactly if every sendall call of its answer is taken in and
it need not wait for the rest of its request, which it does on a blocking socket alone.
-/

open Effects Act

namespace SecureTransfer

/-- The sendall calls that a reply of the service takes. -/
def Reply.sendCalls : Reply → Nat
  | .silent | .waits => 0
  | .answer m => 3 + m.parts.length
  | .rejected | .rejectedUnread => 3

theorem Conn.lasts_zero (c : Conn) : c.Lasts 0 := fun _ _ => Nat.zero_le _

theorem conclude_done_iff (registration : Bool) {unread conn : Conn}
    (h : unread.sendsLeft = conn.sendsLeft) {reply : Reply}
    (hfits : ∀ m, reply = .answer m → m.Fits) :
    (conclude registration unread conn reply).1 = .done () ↔
      reply ≠ .waits ∧ conn.Lasts reply.sendCalls := by
  cases reply with
  | silent | waits => simp [conclude, Reply.sendCalls, Conn.lasts_zero]
  | answer m =>
      have hsend := MakesCalls.send (hfits m rfl)
      have hreply : Reply.answer m ≠ .waits := by simp
      rw [and_iff_right hreply]
      exact (hsend.attempt (by decide) (.failure registration)).done_iff conn
  | rejected =>
      have hreply : Reply.rejected ≠ .waits := by simp
      rw [and_iff_right hreply]
      exact (MakesCalls.failure registration).done_iff conn
  | rejectedUnread =>
      have hreply : Reply.rejectedUnread ≠ .waits := by simp
      rw [and_iff_right hreply, conclude, (MakesCalls.failure registration).done_iff]
      simp only [Conn.Lasts, h, Reply.sendCalls]

namespace Reception

variable (site : Site) (draws : Draws) (s : Server)

/-- The sendall calls that a callback makes if all of them succeed. -/
def sendCalls (r : Reception) : Nat :=
  match r.incoming with
  | .ended | .waits => 0
  | .malformed _ => 3
  | .request clientId body => (serve site draws s clientId body).2.sendCalls

/-- The callback waits for the rest of its request. -/
def Waits (r : Reception) : Prop :=
  match r.incoming with
  | .ended | .malformed _ => False
  | .waits => True
  | .request clientId body => (serve site draws s clientId body).2 = .waits

end Reception

/-- The request is not complete, or the key of an 826 is not. -/
def Incoming.Lacks : Incoming → Prop
  | .waits => True
  | .request _ (.publicKey _ key) => key = .blocked
  | _ => False

theorem ofRead_lacks {α : Type} {m : Net α} (hm : Act.Steady Conn.stalls m) {clientId : Bytes}
    {registration : Bool} {body : α → Body} (hbody : ∀ a name key, body a ≠ .publicKey name key)
    {c : Conn} (h : (Reception.ofRead clientId registration body (m.run c)).incoming.Lacks) :
    c.stalls = true := by
  rcases hrun : m.run c with ⟨o, c'⟩
  rw [hrun] at h
  cases o with
  | done a =>
      simp only [Reception.ofRead] at h
      cases hkey : body a with
      | publicKey name key => exact absurd hkey (hbody a name key)
      | registration _ | reconnection _ | packet _ | verdict _ _ => rw [hkey] at h; exact h.elim
  | raised e => exact h.elim
  | blocked => exact hm.of_blocked hrun

theorem withKey_lacks {clientId : Bytes} {c : Conn}
    (h : (Reception.withKey clientId ((recvText General.clientNameSize).run c)).incoming.Lacks) :
    c.stalls = true := by
  have htext := steady_recvText recv_stalls General.clientNameSize
  rcases hrun : (recvText General.clientNameSize).run c with ⟨o, c'⟩
  rw [hrun] at h
  cases o with
  | done name =>
      have hsame : c'.stalls = c.stalls := by
        have hkept := (htext c).1
        rwa [hrun] at hkept
      rcases hkey : (Conn.recv General.publicKeySize).run c' with ⟨key, c''⟩
      have hblocked : ((Conn.recv General.publicKeySize).run c').1 = .blocked := h
      rw [hkey] at hblocked
      obtain rfl : key = .blocked := hblocked
      exact hsame ▸ (recv_stalls _).of_blocked hkey
  | raised e => exact h.elim
  | blocked => exact htext.of_blocked hrun

theorem ofHeader_lacks {r : Request} {c : Conn}
    (h : (Reception.ofHeader r c).incoming.Lacks) : c.stalls = true := by
  unfold Reception.ofHeader at h
  split at h
  · exact h.elim
  split at h
  · exact ofRead_lacks (steady_recvText recv_stalls _) (fun _ _ _ => Body.noConfusion) h
  split at h
  · exact ofRead_lacks (steady_recvText recv_stalls _) (fun _ _ _ => Body.noConfusion) h
  split at h
  · exact withKey_lacks h
  split at h
  · exact ofRead_lacks (steady_recvPacket recv_stalls _) (fun _ _ _ => Body.noConfusion) h
  split at h
  · exact ofRead_lacks (steady_recvText recv_stalls _) (fun _ _ _ => Body.noConfusion) h
  · exact h.elim

theorem receive_lacks {c : Conn} (h : (receive c).incoming.Lacks) : c.stalls = true := by
  have hheader := steady_getHeader recv_stalls
  rw [receive] at h
  rcases hrun : Request.getHeader.run c with ⟨o, c'⟩
  rw [hrun] at h
  cases o with
  | done header =>
      have hsame : c'.stalls = c.stalls := by
        have hkept := (hheader c).1
        rwa [hrun] at hkept
      cases header with
      | none => exact h.elim
      | some r => exact hsame ▸ ofHeader_lacks h
  | raised e => exact h.elim
  | blocked => exact hheader.of_blocked hrun

section
variable {site : Site} {draws : Draws} {s : Server} {id : Bytes}

/-! The service waits only for a public key that has not arrived. -/

theorem sendNewAesKey_done (code : Nat) (key : Bytes) :
    (sendNewAesKey site draws s code id key).2 ≠ .waits := by
  rw [sendNewAesKey]
  split <;> exact Reply.noConfusion

theorem finishUpload_done (c : Client) (file : File) (p : Packet) :
    (finishUpload site s c file p).2 ≠ .waits := by
  rw [finishUpload]
  split
  · exact Reply.noConfusion
  split
  · exact Reply.noConfusion
  simp only
  split <;> exact Reply.noConfusion

theorem discardFile_done (file : File) : (discardFile site s id file).2 ≠ .waits := by
  rw [discardFile]
  split
  · exact Reply.noConfusion
  simp only
  split <;> exact Reply.noConfusion

theorem servePacket_done (p : Packet) : (servePacket site draws s id p).2 ≠ .waits := by
  rw [servePacket]
  split
  · exact Reply.noConfusion
  split
  · exact Reply.noConfusion
  simp only
  split
  · exact Reply.noConfusion
  split
  · exact finishUpload_done _ _ _
  · exact Reply.noConfusion

theorem serveVerdict_done (code : Nat) (fileName : Octets.Text) :
    (serveVerdict site draws s id code fileName).2 ≠ .waits := by
  rw [serveVerdict]
  split
  · exact Reply.noConfusion
  simp only
  split
  · exact Reply.noConfusion
  split
  · exact Reply.noConfusion
  split
  · exact Reply.noConfusion
  split
  · exact discardFile_done _
  · exact Reply.noConfusion

theorem serve_waits {body : Body} (h : (serve site draws s id body).2 = .waits) :
    ∃ name, body = .publicKey name .blocked := by
  cases body with
  | registration name =>
      simp only [serve, serveRegistration] at h
      split at h
      · cases h
      split at h <;> cases h
  | reconnection name =>
      simp only [serve, serveReconnection] at h
      split at h
      · cases h
      split at h
      · cases h
      split at h
      · cases h
      · exact absurd h (sendNewAesKey_done _ _)
  | publicKey name key =>
      simp only [serve, servePublicKey] at h
      split at h
      · cases h
      split at h
      · cases h
      cases key with
      | blocked => exact ⟨name, rfl⟩
      | raised e => cases h
      | done k => exact absurd h (sendNewAesKey_done _ _)
  | packet p => exact absurd h (servePacket_done p)
  | verdict code fileName => exact absurd h (serveVerdict_done code fileName)

end

theorem waits_lacks {site : Site} {draws : Draws} {s : Server} {r : Reception}
    (h : r.Waits site draws s) : r.incoming.Lacks := by
  obtain ⟨incoming, unread, conn⟩ := r
  cases incoming with
  | ended | malformed _ => exact h.elim
  | waits => trivial
  | request clientId body =>
      obtain ⟨name, rfl⟩ := serve_waits h
      rfl

/-- Whatever fails and wherever the tables are, a callback waits for its request, or its answer,
if it makes one, is the same for every peer, and it returns exactly to those that take in all
of it. -/
theorem read_peers (site : Platform) (draws : Draws) (w : World) :
    ((w.conn.blocking = true ∧ w.conn.hangup = .idle) ∧
      ∀ left, ((read site draws).run (w.lasting left)).1 = .blocked) ∨
    ∃ reply : Option Message,
      (∀ m, reply = some m → (receive w.conn).incoming.Answers m) ∧
      ((read site draws).run (w.lasting none)).2.conn.sent =
        w.conn.sent ++ reply.elim [] Message.bytes ∧
      ∀ left, ((read site draws).run (w.lasting left)).1 = .done () ↔
        ∀ n, left = some n → reply.elim 0 Message.calls ≤ n := by
  obtain ⟨w', hsent, ⟨o, ho, hrun⟩ | ⟨m, n, hm, hdelivers, hrun⟩⟩ := read_endsAlike site draws w
  · obtain rfl | ⟨rfl, hstalls⟩ := ho
    · refine .inr ⟨none, by simp, ?_, ?_⟩
      · rw [hrun]
        simpa [World.lasting, Conn.lasting] using hsent
      · intro left
        rw [hrun]
        simp
    · refine .inl ⟨by simpa [Conn.stalls] using hstalls, fun left => ?_⟩
      rw [hrun]
  · refine .inr ⟨some m, fun m' hm' => Option.some.inj hm' ▸ hm, ?_, ?_⟩
    · rw [hrun, ← hsent]
      exact hdelivers.sent (w'.lasting none).conn rfl
    · intro left
      rw [hrun]
      exact hdelivers.calls.done_iff (w'.lasting left).conn

/-- The callback returns if and only if it need not wait for the rest of its request and every
sendall call of its answer succeeds. It waits for a request only on a socket in blocking mode
whose client sends nothing more. Where file and sqlite calls fail, wherever the tables are and
whatever the server holds, a callback that does not wait for its request returns exactly to the
peers that take in all of its answer, if it makes one. -/
theorem read_survives_iff (site : Site) (s : Server) (hs : Reachable site s) (draws : Draws)
    (hfresh : draws.uuid ∉ s.ids) (c : Conn) :
    (((read site draws).run (calm s c)).1 = .done () ↔
      ¬ (receive c).Waits site draws s ∧
        ∀ n, c.sendsLeft = some n → (receive c).sendCalls site draws s ≤ n) ∧
    ((receive c).Waits site draws s → c.blocking = true ∧ c.hangup = .idle) ∧
    ∀ (platform : Platform) (w : World),
      ((w.conn.blocking = true ∧ w.conn.hangup = .idle) ∧
        ∀ left, ((read platform draws).run (w.lasting left)).1 = .blocked) ∨
      ∃ reply : Option Message,
        (∀ m, reply = some m → (receive w.conn).incoming.Answers m) ∧
        ((read platform draws).run (w.lasting none)).2.conn.sent =
          w.conn.sent ++ reply.elim [] Message.bytes ∧
        ∀ left, ((read platform draws).run (w.lasting left)).1 = .done () ↔
          ∀ n, left = some n → reply.elim 0 Message.calls ≤ n := by
  refine ⟨?_, fun h => by simpa [Conn.stalls] using receive_lacks (waits_lacks h),
    fun platform w => read_peers platform draws w⟩
  rw [read_calm site draws c hs.wellFormed hfresh]
  obtain ⟨hunread, hconn⟩ := receive_sameEnd c
  rw [← hconn.sendsLeft]
  have hsame : (receive c).unread.sendsLeft = (receive c).conn.sendsLeft :=
    hunread.sendsLeft.trans hconn.sendsLeft.symm
  generalize receive c = r at hsame ⊢
  obtain ⟨incoming, unread, conn⟩ := r
  cases incoming with
  | ended | waits => simp [Reception.finish, Reception.sendCalls, Reception.Waits]
  | malformed registration =>
      have hreads : ¬ Reception.Waits site draws s ⟨.malformed registration, unread, conn⟩ := id
      rw [and_iff_right hreads]
      exact (MakesCalls.failure registration).done_iff conn
  | request clientId body =>
      exact conclude_done_iff _ hsame fun m hm => (serve_answer hm).2

/-- One byte has arrived from a peer that has gone. -/
def goneConn : Conn :=
  { Conn.accepted with avail := [1], hangup := .closed, sendsLeft := some 0 }

theorem read_survives_iff_goneConn :
    ((read bareSite (sameDraws 1)).run (calm startedServer goneConn)).1 = .done () ↔
      ¬ (receive goneConn).Waits bareSite (sameDraws 1) startedServer ∧
        ∀ n, goneConn.sendsLeft = some n →
          (receive goneConn).sendCalls bareSite (sameDraws 1) startedServer ≤ n :=
  (read_survives_iff bareSite startedServer reachable_startedServer (sameDraws 1) (by decide)
    goneConn).1

/-- The answer to a truncated request cannot be sent, and its exception leaves the
callback. -/
theorem read_raises_goneConn : Reachable bareSite startedServer ∧
    ((read bareSite (sameDraws 1)).run (calm startedServer goneConn)).1 =
      .raised .connectionError :=
  ⟨reachable_startedServer, rfl⟩

end SecureTransfer
