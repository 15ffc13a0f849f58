import SecureTransfer.Server.Loop
import SecureTransfer.Service.Faults
import SecureTransfer.Service.Survival

/-!
The mode of the sockets in the select loop. A socket is accepted in non-blocking mode, in which
no handler waits, and the handlers leave the mode; the error paths of the callback put the
socket into blocking mode, where it stays.
-/

open Octets (Text)
open Effects Act
open Runs (System)

namespace SecureTransfer

def loopRuns (site : Platform) : System Loop LoopEvent where
  init l := l.conns = [] ∧ ∃ s, dataBaseHandle site s = some l.server
  step l e l' := l.Admissible e ∧ l.next site e = some l'

/-- The request without the handlers around it. -/
def attend (site : Platform) (draws : Draws) : Py Unit := do
  match ← onConn Request.getHeader with
  | none => onConn Conn.close
  | some r => do
      onConn r.headerValidation
      if r.code = General.registrationRequest825 then Request.registrationRequest825 site draws
      else dispatch site draws r

/-- The request raises. -/
def fails (site : Platform) (draws : Draws) (w : World) : Bool :=
  match ((attend site draws).run w).1 with
  | .raised _ => true
  | .done _ | .blocked => false

/-- The request is refused, or its peer leaves or reads nothing before the answer is complete. -/
def Reply.Fails (c : Conn) : Reply → Prop
  | .silent | .waits => False
  | .answer m => ¬ c.Lasts (3 + m.parts.length)
  | .rejected | .rejectedUnread => True

/-- The request cannot be read, or its reply fails. -/
def Refused (site : Site) (draws : Draws) (s : Server) (c : Conn) : Prop :=
  match (receive c).incoming with
  | .ended | .waits => False
  | .malformed _ => True
  | .request clientId body => (serve site draws s clientId body).2.Fails (receive c).conn

/-- The socket of an event whose request fails. -/
def failedSocket (site : Platform) (l : Loop) : LoopEvent → Option Nat
  | .callback draws faults socket =>
      match l.conns[socket]? with
      | some c => if fails site draws (l.world c faults) then some socket else none
      | none => none
  | .accept | .traffic _ _ => none

/-- The sockets on which a request of the run fails. -/
def failures (site : Platform) : Loop → List LoopEvent → List Nat
  | _, [] => []
  | l, e :: es =>
      (failedSocket site l e).toList ++
        match l.next site e with
        | none => []
        | some l' => failures site l' es

/-! Commands on the connection. -/

abbrev SteadyNet {α : Type} (m : Net α) : Prop := Act.Steady Conn.blocking m

abbrev SteadyPy {α : Type} (m : Py α) : Prop := Act.Steady (fun w : World => w.conn.blocking) m

namespace SteadyNet

theorem recv (n : Int) : SteadyNet (Conn.recv n) := by
  intro c
  obtain ⟨avail, pending, hsame⟩ := Conn.recv_sameEnd n c
  refine ⟨by rw [hsame], fun hb => ?_⟩
  simp only [Conn.recv, hb]
  intro hblocked
  split at hblocked
  · cases hblocked
  split at hblocked
  · cases hblocked
  split at hblocked
  · cases hblocked
  split at hblocked <;> cases hblocked

theorem sendall (data : Bytes) : SteadyNet (Conn.sendall data) := by
  intro c
  simp only [Conn.sendall]
  split
  · refine ⟨rfl, fun _ h => ?_⟩
    cases h
  · refine ⟨rfl, fun _ h => ?_⟩
    cases h
  · split
    · refine ⟨rfl, fun _ h => ?_⟩
      cases h
    · split
      · rename_i hblocking
        exact ⟨rfl, fun hnon => absurd (hnon.symm.trans hblocking) Bool.false_ne_true⟩
      · refine ⟨rfl, fun _ h => ?_⟩
        cases h

theorem sendHeader (a : Answer) : SteadyNet a.sendHeaderToClient :=
  .bind (.ofOption _ _) fun _ => .bind (sendall _) fun _ => .bind (.ofOption _ _) fun _ =>
    .bind (sendall _) fun _ => .bind (.ofOption _ _) fun _ => .bind (sendall _) fun _ =>
      .modify fun _ => rfl

theorem recvText (size : Nat) : SteadyNet (recvText size) := steady_recvText recv size

theorem getHeader : SteadyNet Request.getHeader := steady_getHeader recv

theorem recvPacket (payloadSize : Nat) : SteadyNet (Request.recvPacket payloadSize) :=
  steady_recvPacket recv payloadSize

/-- A header and one field. -/
theorem sendField (a : Answer) (field : Bytes) :
    SteadyNet (do a.sendHeaderToClient; Conn.sendall field) :=
  .bind (sendHeader a) fun _ => sendall field

end SteadyNet

namespace SteadyPy

variable {α : Type}

theorem of_quiet {m : Py α} (hm : Quiet m) : SteadyPy m := by
  intro w
  obtain ⟨a, w', hrun, hconn⟩ | ⟨e, w', hrun, hconn⟩ := hm w
  · rw [hrun]
    exact ⟨congrArg Conn.blocking hconn, nofun⟩
  · rw [hrun]
    exact ⟨congrArg Conn.blocking hconn, nofun⟩

theorem onConn {m : Net α} (hm : SteadyNet m) : SteadyPy (onConn m) :=
  Act.Steady.onPart (fun _ _ => rfl) hm

section
variable (site : Platform) (draws : Draws)

theorem lastSeen (client : Nat) : SteadyPy (lastSeen site draws client) :=
  of_quiet (.lastSeen draws client)

theorem getClient (client : Nat) : SteadyPy (getClient client) := of_quiet (.getClient client)

theorem getServer : SteadyPy getServer := of_quiet .getServer

theorem modifyServer (f : Server → Server) : SteadyPy (modifyServer f) :=
  of_quiet (.modifyServer f)

/-- An update of the tables. -/
theorem statement (f : Tables → Tables) :
    SteadyPy (do Sql.connect site; Sql.modifyTables site f) :=
  of_quiet (.sql f)

theorem sqlDelete (fileName : Text) : SteadyPy (Sql.deleteFile site fileName) := by
  refine .bind (of_quiet (.connect site)) fun _ => .bind getServer fun s => ?_
  split
  · exact modifyServer _
  · exact .raise _

theorem addClientDb (c : Client) : SteadyPy (Sql.addClientDb site c) := by
  refine .bind (of_quiet (.connect site)) fun _ => .bind getServer fun s => ?_
  split
  · exact .raise _
  · exact modifyServer _

theorem clientInit (name : Text) : SteadyPy (Client.init site draws name) :=
  .bind getServer fun _ => .bind (.whenever (of_quiet (.onDisk _))) fun _ => .pure _

theorem createSendAes (code client : Nat) : SteadyPy (createSendAes site draws code client) := by
  refine .bind (modifyServer _) fun _ => .bind (getClient _) fun c =>
    .bind (statement site _) fun _ => .bind ?_ fun encrypted => onConn ?_
  · exact .bind (.ofOption _ _) fun _ => .ofOption _ _
  · exact .bind (SteadyNet.sendHeader _) fun _ => .bind (SteadyNet.sendall _) fun _ =>
      SteadyNet.sendall _

theorem lastPacket (file : File) (client : Client) (contentSize origFileSize : Nat) :
    SteadyPy (lastPacket site file client contentSize origFileSize) :=
  .bind (of_quiet (.createDecryptedFile site _ _)) fun _ => .bind (.require _) fun _ => onConn <|
    .bind (SteadyNet.sendHeader _) fun _ => .bind (SteadyNet.sendall _) fun _ =>
      .bind (.ofOption _ _) fun _ => .bind (SteadyNet.sendall _) fun _ =>
        .bind (SteadyNet.sendall _) fun _ => .bind (.ofOption _ _) fun _ => SteadyNet.sendall _

theorem registrationRequest825 : SteadyPy (Request.registrationRequest825 site draws) := by
  refine .bind (onConn (SteadyNet.recvText _)) fun name => .bind getServer fun s => ?_
  split
  · exact .bind (lastSeen site draws _) fun _ => .raise _
  · exact .bind (clientInit site draws name) fun c => .bind (modifyServer _) fun _ =>
      .bind (addClientDb site c) fun _ => onConn (SteadyNet.sendField _ _)

theorem reconnectionRequest827 (r : Request) :
    SteadyPy (Request.reconnectionRequest827 site draws r) := by
  refine .bind (onConn (SteadyNet.recvText _)) fun name => .bind getServer fun s => ?_
  split
  · refine .bind (getClient _) fun c => .bind (.require _) fun _ =>
      .bind (lastSeen site draws _) fun _ => ?_
    split
    · exact onConn (SteadyNet.sendField _ _)
    · exact createSendAes site draws _ _
  · exact onConn (SteadyNet.sendField _ _)

theorem sendPublicKeyRequest826 (r : Request) :
    SteadyPy (Request.sendPublicKeyRequest826 site draws r) := by
  refine .bind (onConn (SteadyNet.recvText _)) fun name => .bind getServer fun s => ?_
  split
  · exact .bind (getClient _) fun c => .bind (.require _) fun _ =>
      .bind (onConn (SteadyNet.recv _)) fun _ => .bind (modifyServer _) fun _ =>
        .bind (statement site _) fun _ => .bind (lastSeen site draws _) fun _ =>
          createSendAes site draws _ _
  · exact .raise _

theorem sendFileRequest828 (r : Request) :
    SteadyPy (Request.sendFileRequest828 site draws r) := by
  refine .bind (onConn (SteadyNet.recvPacket _)) fun p => .bind getServer fun s => ?_
  split
  · exact .raise _
  · refine .bind (getClient _) fun c => .bind (of_quiet (.onDisk _)) fun _ =>
      .bind (of_quiet (.onDisk _)) fun _ => .bind (lastSeen site draws _) fun _ => ?_
    split
    · exact .bind (.ofOption _ _) fun f =>
        .bind (.whenever (.bind (modifyServer _) fun _ => statement site _)) fun _ =>
          .whenever (lastPacket site f c _ _)
    · exact .bind (.require _) fun _ => .bind (of_quiet (.addFileDb _)) fun _ =>
        .bind (modifyServer _) fun _ => .whenever (lastPacket site _ c _ _)

theorem crcResponse900901902 (r : Request) :
    SteadyPy (Request.crcResponse900901902 site draws r) := by
  refine .bind (onConn (SteadyNet.recvText _)) fun name => .bind getServer fun s => ?_
  split
  · exact .raise _
  · refine .bind (getClient _) fun c => .bind (lastSeen site draws _) fun _ => ?_
    split
    · exact .raise _
    · refine .bind (.ofOption _ _) fun f => .bind (.require _) fun _ => .bind (.whenever ?_)
        fun _ => .whenever ?_
      · exact .bind (modifyServer _) fun _ => .bind (statement site _) fun _ =>
          onConn (SteadyNet.sendField _ _)
      · exact .bind (of_quiet (.onDisk _)) fun _ => .bind (modifyServer _) fun _ =>
          .bind (sqlDelete site _) fun _ => onConn (SteadyNet.sendField _ _)

/-- A request leaves the mode of its socket, and waits in blocking mode alone. -/
theorem attend : SteadyPy (attend site draws) := by
  refine .bind (onConn SteadyNet.getHeader) fun header => ?_
  split
  · exact onConn (.modify fun _ => rfl)
  · rename_i r
    refine .bind (onConn (.require _)) fun _ => ?_
    split
    · exact registrationRequest825 site draws
    · rename_i hcode
      rw [dispatch, if_neg hcode]
      repeat' split
      · exact reconnectionRequest827 site draws r
      · exact sendPublicKeyRequest826 site draws r
      · exact sendFileRequest828 site draws r
      · exact crcResponse900901902 site draws r
      · exact .raise _

end

end SteadyPy

/-! The error paths. -/

theorem reject_blocking (code : Nat) (c : Conn) : ((reject code).run c).2.blocking = true := by
  rw [reject, bind_done (cleanBuffer_run c)]
  exact (SteadyNet.sendHeader _ c.cleaned).1

section
variable (site : Platform) (draws : Draws) {w w' : World}

/-- The body of the outer `try` of the callback. -/
def guarded : Py Unit := do
  match ← onConn Request.getHeader with
  | none => onConn Conn.close
  | some r => do
      onConn r.headerValidation
      dispatch site draws r

/-- It differs from the request in the 1601 after a registration that raises. -/
theorem guarded_cases (w : World) : (guarded site draws).run w = (attend site draws).run w ∨
    ∃ e w₁, (attend site draws).run w = (.raised e, w₁) ∧
      (guarded site draws).run w =
        (onConn (reject General.registrationFailed1601)).run w₁ := by
  rcases hheader : (onConn Request.getHeader).run w with ⟨o, w₀⟩
  cases o with
  | raised e => exact .inl ((bind_raised hheader).trans (bind_raised hheader).symm)
  | blocked => exact .inl ((bind_blocked hheader).trans (bind_blocked hheader).symm)
  | done header =>
      rw [guarded, attend, bind_done hheader, bind_done hheader]
      cases header with
      | none => exact .inl rfl
      | some r =>
          rcases hvalid : (onConn r.headerValidation).run w₀ with ⟨o, w₁⟩
          cases o with
          | raised e => exact .inl ((bind_raised hvalid).trans (bind_raised hvalid).symm)
          | blocked => exact .inl ((bind_blocked hvalid).trans (bind_blocked hvalid).symm)
          | done _ =>
              simp only [bind_done hvalid]
              by_cases hcode : r.code = General.registrationRequest825
              · rw [dispatch, if_pos hcode, if_pos hcode]
                rcases hrun : (Request.registrationRequest825 site draws).run w₁ with ⟨o, w₂⟩
                cases o with
                | raised e => exact .inr ⟨e, w₂, rfl, attempt_raised hrun⟩
                | done _ => exact .inl (attempt_done hrun)
                | blocked => exact .inl (attempt_blocked hrun)
              · rw [if_neg hcode]
                exact .inl rfl

theorem read_eq_guarded : read site draws = attempt (guarded site draws) fun _ =>
    onConn (reject General.generalError1607) := rfl

/-- After a failure the socket is in blocking mode. -/
theorem read_of_raised {e : PyError} (h : (attend site draws).run w = (.raised e, w')) :
    ((read site draws).run w).2.conn.blocking = true := by
  rw [read_eq_guarded]
  obtain hsame | ⟨e₁, w₁, -, hreject⟩ := guarded_cases site draws w
  · rw [attempt_raised (hsame.trans h)]
    exact reject_blocking _ _
  · have hblocking := reject_blocking General.registrationFailed1601 w₁.conn
    rcases hrun : (onConn (reject General.registrationFailed1601)).run w₁ with ⟨o, w₂⟩
    have hw₂ : w₂.conn.blocking = true := by
      have hsecond := congrArg (fun r => r.2.conn.blocking) hrun
      exact hsecond.symm.trans hblocking
    cases o with
    | raised e₂ =>
        rw [attempt_raised (hreject.trans hrun)]
        exact reject_blocking _ _
    | done _ =>
        rw [attempt_done (hreject.trans hrun)]
        exact hw₂
    | blocked =>
        rw [attempt_blocked (hreject.trans hrun)]
        exact hw₂

/-- A request that does not fail does not come to the error paths. -/
theorem read_of_not_fails (h : fails site draws w = false) :
    (read site draws).run w = (attend site draws).run w := by
  rcases hattend : (attend site draws).run w with ⟨o, w₁⟩
  have hsame : (guarded site draws).run w = (o, w₁) := by
    obtain hsame | ⟨e, w₂, hraised, -⟩ := guarded_cases site draws w
    · exact hsame.trans hattend
    · simp only [fails, hraised] at h
      cases h
  rw [read_eq_guarded]
  cases o with
  | raised e =>
      simp only [fails, hattend] at h
      cases h
  | done _ => exact attempt_done hsame
  | blocked => exact attempt_blocked hsame

/-- The mode after a callback. -/
theorem read_blocking : ((read site draws).run w).2.conn.blocking =
    (w.conn.blocking || fails site draws w) := by
  cases h : fails site draws w with
  | false =>
      rw [read_of_not_fails site draws h, Bool.or_false]
      exact (SteadyPy.attend site draws w).1
  | true =>
      rw [Bool.or_true]
      rcases hattend : (attend site draws).run w with ⟨o, w₁⟩
      cases o with
      | raised e => exact read_of_raised site draws hattend
      | done _ | blocked =>
          simp only [fails, hattend] at h
          cases h

/-- In non-blocking mode a request does not wait, and a callback waits only with the answer to
one that failed. -/
theorem fails_of_blocked (hmode : w.conn.blocking = false) :
    ((attend site draws).run w).1 ≠ .blocked ∧
      (((read site draws).run w).1 = .blocked → fails site draws w = true) := by
  have hattend := (SteadyPy.attend site draws w).2 hmode
  refine ⟨hattend, fun hblocked => ?_⟩
  cases h : fails site draws w with
  | true => rfl
  | false =>
      rw [read_of_not_fails site draws h] at hblocked
      exact absurd hblocked hattend

/-! The requests that fail when no file or sqlite call does. -/

theorem failure_blocking (registration : Bool) (c : Conn) :
    ((failure registration).run c).2.blocking = true := by
  rw [failure]
  split
  · rcases hrun : (reject General.registrationFailed1601).run c with ⟨o, c₁⟩
    have hfirst : c₁.blocking = true := by
      rw [← reject_blocking General.registrationFailed1601 c, hrun]
    cases o with
    | raised e =>
        rw [attempt_raised hrun]
        exact reject_blocking _ _
    | done _ =>
        rw [attempt_done hrun]
        exact hfirst
    | blocked =>
        rw [attempt_blocked hrun]
        exact hfirst
  · exact reject_blocking _ c

theorem SteadyNet.sendParts (parts : List Bytes) : SteadyNet (sendParts parts) := by
  induction parts with
  | nil => exact .pure ()
  | cons part parts ih => exact .bind (sendall part) fun _ => ih

theorem conclude_blocking {registration : Bool} {unread conn : Conn} {reply : Reply}
    (hmode : conn.blocking = false) (hfits : ∀ m, reply = .answer m → m.Fits) :
    (conclude registration unread conn reply).2.blocking = true ↔ reply.Fails conn := by
  cases reply with
  | silent | waits => simp [conclude, Reply.Fails, hmode]
  | rejected | rejectedUnread => simp [conclude, Reply.Fails, failure_blocking]
  | answer m =>
      have hcalls := MakesCalls.send (hfits m rfl)
      have hsteady : SteadyNet m.send :=
        .bind (SteadyNet.sendHeader _) fun _ => SteadyNet.sendParts _
      rw [conclude]
      by_cases hlasts : conn.Lasts (3 + m.parts.length)
      · obtain ⟨c', hrun, -⟩ := hcalls.lasts conn hlasts
        have hsame : c'.blocking = false := by
          have hkept := (hsteady conn).1
          rw [hrun] at hkept
          exact hkept.trans hmode
        rw [attempt_done hrun]
        simp [Reply.Fails, hlasts, hsame]
      · obtain ⟨o, c', hrun, ho, -⟩ := hcalls.leaves conn hlasts
        cases o with
        | done _ => exact absurd rfl ho
        | raised e =>
            rw [attempt_raised hrun]
            simp [Reply.Fails, hlasts, failure_blocking]
        | blocked => exact absurd hrun fun h => (hsteady conn).2 hmode (congrArg Prod.fst h)

theorem fails_iff_refused (site : Site) {s : Server} {c : Conn} (hs : WellFormed s)
    (hfresh : draws.uuid ∉ s.ids) (hmode : c.blocking = false) :
    fails site draws (calm s c) = true ↔ Refused site draws s c := by
  have hread := read_blocking site draws (w := calm s c)
  have hcalm : (calm s c).conn.blocking = false := hmode
  rw [hcalm, Bool.false_or] at hread
  rw [← hread, read_calm site draws c hs hfresh, Refused]
  change ((receive c).finish site draws s).2.blocking = true ↔ _
  obtain ⟨-, hconn⟩ := receive_sameEnd c
  have hsame : (receive c).conn.blocking = false := by
    obtain ⟨avail, pending, h⟩ := hconn
    rw [h]
    exact hmode
  generalize receive c = r at hsame ⊢
  obtain ⟨incoming, unread, conn⟩ := r
  cases incoming with
  | ended | waits => simpa [Reception.finish] using hsame
  | malformed registration => simp [Reception.finish, failure_blocking]
  | request clientId body => exact conclude_blocking hsame fun m hm => (serve_answer hm).2

end

/-! Runs of the loop. -/

/-- The socket is in blocking mode. -/
def Loop.Blocks (l : Loop) (socket : Nat) : Prop :=
  ∃ c, l.conns[socket]? = some c ∧ c.blocking = true

section
variable {site : Platform} {l l' : Loop}

theorem blocks_append (s : Server) (conns : List Conn) (socket : Nat) :
    Loop.Blocks ⟨s, conns ++ [(accept.run .incoming).2]⟩ socket ↔
      Loop.Blocks ⟨s, conns⟩ socket := by
  simp only [Loop.Blocks, List.getElem?_append]
  split
  · rfl
  · rename_i hlast
    have hnone : conns[socket]? = none := List.getElem?_eq_none (Nat.not_lt.mp hlast)
    constructor
    · intro h
      obtain ⟨c, hc, hblocking⟩ := h
      obtain rfl := List.mem_singleton.mp (List.mem_of_getElem? hc)
      cases hblocking
    · intro h
      obtain ⟨c, hc, -⟩ := h
      rw [hnone] at hc
      cases hc

/-- Another connection on one socket. -/
theorem blocks_set {s s' : Server} {conns : List Conn} {c c' : Conn} {socket : Nat}
    (hc : conns[socket]? = some c) (other : Nat) :
    Loop.Blocks ⟨s', conns.set socket c'⟩ other ↔
      if other = socket then c'.blocking = true else Loop.Blocks ⟨s, conns⟩ other := by
  have hlt := (List.getElem?_eq_some_iff.mp hc).1
  simp only [Loop.Blocks, List.getElem?_set]
  by_cases hother : other = socket
  · subst hother
    simp [hlt]
  · simp [hother, Ne.symm hother]

/-- An event puts the socket into blocking mode on which a request fails, and no other one. -/
theorem step_blocks {e : LoopEvent} (hstep : (loopRuns site).step l e l') (socket : Nat) :
    l'.Blocks socket ↔ l.Blocks socket ∨ failedSocket site l e = some socket := by
  obtain ⟨hadmissible, hnext⟩ := hstep
  cases e with
  | accept =>
      obtain rfl := Option.some.inj hnext
      simpa [failedSocket] using blocks_append l.server l.conns socket
  | traffic i c' =>
      obtain ⟨c, hc, htraffic⟩ := hadmissible
      obtain rfl := Option.some.inj hnext
      rw [blocks_set (s := l.server) hc]
      split
      · rename_i hi
        subst hi
        simp [failedSocket, Loop.Blocks, hc, htraffic.blocking]
      · simp [failedSocket]
  | callback draws faults i =>
      obtain ⟨c, hc, -, -⟩ := hadmissible
      have hmode := read_blocking site draws (w := l.world c faults)
      simp only [Loop.next, hc] at hnext
      split at hnext
      · rename_i w hread
        obtain rfl := Option.some.inj hnext
        rw [hread] at hmode
        have hafter : w.conn.blocking =
            (c.blocking || fails site draws (l.world c faults)) := hmode
        rw [blocks_set (s := l.server) hc]
        split
        · rename_i hi
          subst hi
          simp [failedSocket, Loop.Blocks, hc, hafter]
        · rename_i hi
          simp [failedSocket, hc, Ne.symm hi]
      · cases hnext
      · cases hnext

theorem run_blocks {es : List LoopEvent} (hrun : (loopRuns site).Run l es l') (socket : Nat) :
    l'.Blocks socket ↔ l.Blocks socket ∨ socket ∈ failures site l es := by
  induction hrun with
  | nil l => simp [failures]
  | cons head tail ih =>
      have hstep := step_blocks head socket
      have hnext := head.2
      rw [ih, hstep, failures, List.mem_append, Option.mem_toList, hnext, or_assoc]

end

/-- A socket of the select loop is in non-blocking mode exactly until a request on it fails.
Till then no call of a handler for it waits, whatever arrives; a callback that waits does so with
the error answer to its request, which has failed. So all registered sockets are in non-blocking
mode exactly if every socket on which a request has failed is closed. A request fails, when no
file or sqlite call does, if it cannot be read or is refused, or if its peer leaves or reads
nothing before the answer is complete. -/
theorem nonblocking_iff (site : Platform) {l l' : Loop} {es : List LoopEvent}
    (hinit : (loopRuns site).init l) (hrun : (loopRuns site).Run l es l') :
    ((∀ c ∈ l'.conns, c.registered → c.blocking = false) ↔
      ∀ socket ∈ failures site l es, ∀ c, l'.conns[socket]? = some c → c.registered = false) ∧
    (∀ (socket : Nat) c, l'.conns[socket]? = some c →
      (c.blocking = false ↔ socket ∉ failures site l es)) ∧
    (∀ socket c c', l'.conns[socket]? = some c → socket ∉ failures site l es → c.Traffic c' →
      ∀ draws faults, ((attend site draws).run (l'.world c' faults)).1 ≠ .blocked ∧
        (((read site draws).run (l'.world c' faults)).1 = .blocked →
          fails site draws (l'.world c' faults) = true)) ∧
    ∀ (site : Site) s draws c, Reachable site s → draws.uuid ∉ s.ids → c.blocking = false →
      (fails site draws (calm s c) = true ↔ Refused site draws s c) := by
  have hmode : ∀ (socket : Nat) c, l'.conns[socket]? = some c →
      (c.blocking = false ↔ socket ∉ failures site l es) := by
    intro socket c hc
    have hfirst : ¬ l.Blocks socket := by
      intro h
      obtain ⟨c₀, hc₀, -⟩ := h
      rw [hinit.1] at hc₀
      cases hc₀
    have hblocks := run_blocks hrun socket
    rw [or_iff_right hfirst] at hblocks
    rw [← hblocks, Loop.Blocks, hc]
    simp
  refine ⟨?_, hmode, ?_, ?_⟩
  · constructor
    · intro h socket hsocket c hc
      by_contra hregistered
      have hnon := h c (List.mem_of_getElem? hc) (by simpa using hregistered)
      exact (hmode socket c hc).mp hnon hsocket
    · intro h c hc hregistered
      obtain ⟨socket, hsocket⟩ := List.mem_iff_getElem?.mp hc
      refine (hmode socket c hsocket).mpr fun hfailed => ?_
      rw [h socket hfailed c hsocket] at hregistered
      cases hregistered
  · intro socket c c' hc hsocket htraffic draws faults
    apply fails_of_blocked
    exact htraffic.blocking.trans ((hmode socket c hc).mpr hsocket)
  · intro site s draws c hs hfresh hnon
    exact fails_iff_refused draws site hs.wellFormed hfresh hnon

/-! Two clients have connected. The first byte of a request of the one arrives alone, which is
answered with a 1607, and then the first byte of another one. -/

def connected : Loop := ⟨startedServer, [Conn.accepted, Conn.accepted]⟩

def firstByte : Conn := Conn.accepted.withAvail [1]

/-- The connection after the 1607. -/
def refusedConn : Conn := ((read bareSite (sameDraws 1)).run (calm startedServer firstByte)).2.conn

def waitingRequest : Conn :=
  Conn.accepted.withAvail (requestBytes (List.replicate 16 0) (.registration ['b']))

def oneByteEach : List LoopEvent :=
  [.accept, .accept, .traffic 0 firstByte, .callback (sameDraws 1) [] 0,
    .traffic 0 (refusedConn.withAvail [1]), .traffic 1 waitingRequest]

def stuckLoop : Loop := ⟨startedServer, [refusedConn.withAvail [1], waitingRequest]⟩

theorem init_started : (loopRuns bareSite).init ⟨startedServer, []⟩ := by
  obtain ⟨s₀, -, hstart⟩ := init_startedServer BlockMode.idCipher
  exact ⟨rfl, s₀, hstart⟩

theorem run_oneByteEach : (loopRuns bareSite).Run ⟨startedServer, []⟩ oneByteEach stuckLoop := by
  refine .cons ⟨trivial, rfl⟩ (.cons ⟨trivial, rfl⟩ (.cons ⟨⟨Conn.accepted, rfl, ?_⟩, rfl⟩
    (.cons ⟨⟨firstByte, rfl, rfl, by decide⟩, rfl⟩ (.cons ⟨⟨refusedConn, rfl, ?_⟩, rfl⟩
      (.cons ⟨⟨Conn.accepted, rfl, ?_⟩, rfl⟩ (.nil _))))))
  · exact ⟨List.nil_prefix, rfl, rfl, rfl, rfl⟩
  · exact ⟨List.nil_prefix, rfl, rfl, rfl, rfl⟩
  · exact ⟨List.nil_prefix, rfl, rfl, rfl, rfl⟩

/-- The callback of the first socket waits, with a request on the second one. -/
theorem waits_for_one : ∃ l es l', (loopRuns bareSite).init l ∧ (loopRuns bareSite).Run l es l' ∧
    (∃ c, l'.conns[0]? = some c ∧ c.registered = true ∧ c.blocking = true ∧
      c.readable = true ∧ ((read bareSite (sameDraws 1)).run (l'.world c [])).1 = .blocked) ∧
    ∃ c, l'.conns[1]? = some c ∧ c.registered = true ∧ c.readable = true := by
  refine ⟨_, oneByteEach, stuckLoop, init_started, run_oneByteEach,
    ⟨refusedConn.withAvail [1], rfl, rfl, rfl, by decide, rfl⟩, waitingRequest, rfl, rfl, ?_⟩
  have hne : waitingRequest.avail ≠ [] := by
    exact List.append_ne_nil_of_left_ne_nil (by decide) _
  simp [Conn.readable, hne]

theorem nonblocking_iff_accepted : connected.conns.length = 2 ∧
    ∀ c ∈ connected.conns, c.registered → c.blocking = false := by
  have hrun : (loopRuns bareSite).Run ⟨startedServer, []⟩ [.accept, .accept] connected :=
    .cons ⟨trivial, rfl⟩ (.cons ⟨trivial, rfl⟩ (.nil _))
  exact ⟨rfl, (nonblocking_iff bareSite init_started hrun).1.mpr nofun⟩

end SecureTransfer
