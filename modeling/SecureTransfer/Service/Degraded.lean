import SecureTransfer.Library.Degrading
import SecureTransfer.Service.Durability

/-!
What a client can conclude from an answer when calls may fail. A callback whose file or sqlite
call fails raises before it has sent anything, and the error is all that the client gets; any
other callback has done what it does where nothing fails.
-/

open Octets (Text)
open Effects Act
open Runs (System)

namespace SecureTransfer

/-- The same world, in which nothing fails any more. -/
def World.calmed (w : World) : World := { w with faults := [] }

/-- How long the peer stays, and what it has been sent. -/
def World.shown (w : World) : Option Nat × List Answer × Bytes :=
  (w.conn.sendsLeft, w.conn.answers, w.conn.sent)

/-- The error of a failed request was sent. -/
def ToldError (v v' : Option Nat × List Answer × Bytes) : Prop :=
  ∃ registration, v' = (v.1, v.2.1 ++ [(failureMessage registration).header],
    v.2.2 ++ (failureMessage registration).bytes)

abbrev Hidden {α : Type} (m : Py α) : Prop := Unseen World.calmed World.shown m

abbrev Reports {α : Type} (m : Py α) : Prop :=
  Degrades World.calmed World.shown (fun v => v.1 = none) ToldError m

namespace Hidden

variable {α : Type}

theorem tick : Hidden tick := by
  intro w
  obtain ⟨s, c, faults⟩ := w
  cases faults with
  | nil => exact ⟨rfl, .inl rfl⟩
  | cons fault faults =>
      cases fault with
      | false => exact ⟨rfl, .inl rfl⟩
      | true => exact ⟨rfl, .inr ⟨.osError, rfl⟩⟩

/-- A command chosen by looking at the server. -/
theorem getServer {f : Server → Py α} (hf : ∀ s, Hidden (f s)) : Hidden (getServer >>= f) :=
  fun w => hf w.server w

theorem modifyServer (f : Server → Server) : Hidden (modifyServer f) :=
  Unseen.modify (fun _ => rfl) fun _ => rfl

theorem getClient (client : Nat) : Hidden (getClient client) :=
  getServer fun _ => Unseen.ofOption _ _

theorem setServer (s : Server) : Hidden (setServer s) :=
  Unseen.modify (fun _ => rfl) fun _ => rfl

theorem connect (site : Platform) : Hidden (Sql.connect site) := by
  refine Unseen.bind tick fun _ => ?_
  cases site.sqlite with
  | none => exact Unseen.pure ()
  | some sqlite =>
      refine Unseen.bind (modifyServer _) fun _ => getServer fun s => ?_
      exact Unseen.bind (Unseen.ofOption _ _) fun _ => setServer _

theorem modifyTables (site : Platform) (f : Tables → Tables) : Hidden (Sql.modifyTables site f) :=
  modifyServer _

theorem sql {site : Platform} (f : Tables → Tables) :
    Hidden (Sql.connect site >>= fun _ => Sql.modifyTables site f) :=
  Unseen.bind (connect site) fun _ => modifyTables site f

theorem addClientDb {site : Platform} (c : Client) : Hidden (Sql.addClientDb site c) := by
  refine Unseen.bind (connect site) fun _ => getServer fun s => ?_
  split
  · exact Unseen.raise _
  · exact modifyTables site _

theorem addFileDb {site : Platform} (file : File) : Hidden (Sql.addFileDb site file) := by
  refine Unseen.bind (connect site) fun _ => getServer fun s => ?_
  split
  · exact Unseen.raise _
  · exact modifyTables site _

theorem deleteFile {site : Platform} (fileName : Text) : Hidden (Sql.deleteFile site fileName) := by
  refine Unseen.bind (connect site) fun _ => getServer fun s => ?_
  split
  · exact modifyTables site _
  · exact Unseen.raise _

theorem onDisk (f : FileTree → Option FileTree) : Hidden (onDisk f) :=
  Unseen.bind tick fun _ => getServer fun _ => Unseen.bind (Unseen.ofOption _ _) fun _ =>
    Unseen.modify (fun _ => rfl) fun _ => rfl

theorem createDecryptedFile (site : Platform) (path : Text) (aesKey : Bytes) :
    Hidden (createDecryptedFile site path aesKey) :=
  Unseen.bind (Unseen.bind tick fun _ => getServer fun _ => Unseen.ofOption _ _) fun _ =>
    Unseen.bind (Unseen.ofOption _ _) fun _ => Unseen.bind (onDisk _) fun _ =>
      Unseen.bind (onDisk _) fun _ => Unseen.pure _

theorem clientInit (site : Platform) (draws : Draws) (name : Text) :
    Hidden (Client.init site draws name) :=
  getServer fun _ => Unseen.bind (Unseen.whenever (onDisk _)) fun _ => Unseen.pure _

theorem lastSeen {site : Platform} (draws : Draws) (client : Nat) :
    Hidden (lastSeen site draws client) :=
  Unseen.bind (getClient client) fun _ => Unseen.bind (sql _) fun _ => modifyServer _

theorem onConn {m : Net α} (hm : OnlyReads m) : Hidden (onConn m) := by
  refine Unseen.of_calmly (fun w => ?_) fun _ => rfl
  have hsame := hm w.conn
  exact Prod.ext hsame.sendsLeft (Prod.ext hsame.answers hsame.sent)

end Hidden

namespace Reports

variable {α : Type}

theorem getServer {f : Server → Py α} (hf : ∀ s, Reports (f s)) : Reports (getServer >>= f) :=
  fun w => hf w.server w

/-- Nothing on the connection depends on the calls that fail. -/
theorem onConn (m : Net α) : Reports (onConn m) := Degrades.of_calmly fun _ => rfl

/-- The handlers around a request tell of every failure. -/
theorem attempt_cases {m : Py Unit} (hm : Reports m) (registration : Bool) {w : World}
    (hw : w.conn.sendsLeft = none) :
    let caught := Act.attempt m fun _ =>
      SecureTransfer.onConn (reject (failureCode registration))
    Calmly World.calmed caught w ∨ ∃ a, (caught.run w).1 = .done a ∧
      ToldError w.shown (caught.run w).2.shown := by
  refine Degrades.attempt_cases hm (fun _ _ => rfl) (fun _ w hstays => ?_) hw
  have hfits : failureCode registration < 256 ^ General.codeSize := by
    cases registration <;> decide
  have hrun := reject_stays hstays hfits
  refine ⟨(), ?_, registration, ?_⟩
  · simp only [SecureTransfer.onConn, Act.onPart, hrun]
  · simp only [SecureTransfer.onConn, Act.onPart, hrun]
    rfl

theorem attempt {m : Py Unit} (hm : Reports m) (registration : Bool) :
    Reports (Act.attempt m fun _ =>
      SecureTransfer.onConn (reject (failureCode registration))) :=
  fun _ hw => (attempt_cases hm registration hw).imp_right .inr

end Reports

/-! The handlers. -/

section
variable (site : Platform) (draws : Draws)

theorem createSendAes_reports (code client : Nat) :
    Reports (createSendAes site draws code client) := by
  refine Degrades.bind (Hidden.modifyServer _) fun _ => Degrades.bind (Hidden.getClient _)
    fun c => Degrades.bind (Hidden.sql _) fun _ => Degrades.bind ?_ fun _ => Reports.onConn _
  exact Unseen.bind (Unseen.ofOption _ _) fun _ => Unseen.ofOption _ _

theorem lastPacket_reports (file : File) (client : Client) (contentSize origFileSize : Nat) :
    Reports (lastPacket site file client contentSize origFileSize) :=
  Degrades.bind (Hidden.createDecryptedFile site _ _) fun _ =>
    Degrades.bind (Unseen.require _) fun _ => Reports.onConn _

theorem register_reports (name : Text) : Reports (Request.register site draws name) := by
  refine Reports.getServer fun s => ?_
  split
  · exact Degrades.bind (Hidden.lastSeen draws _) fun _ => Degrades.raise _
  · exact Degrades.bind (Hidden.clientInit site draws name) fun _ =>
      Degrades.bind (Hidden.modifyServer _) fun _ =>
        Degrades.bind (Hidden.addClientDb _) fun _ => Reports.onConn _

theorem reconnect_reports (clientId : Bytes) (name : Text) :
    Reports (Request.reconnect site draws clientId name) := by
  refine Reports.getServer fun s => ?_
  split
  · refine Degrades.bind (Hidden.getClient _) fun c => Degrades.bind (Unseen.require _) fun _ =>
      Degrades.bind (Hidden.lastSeen draws _) fun _ => ?_
    split
    · exact Reports.onConn _
    · exact createSendAes_reports site draws _ _
  · exact Reports.onConn _

theorem takePublicKey_reports (clientId : Bytes) (name : Text) :
    Reports (Request.takePublicKey site draws clientId name) := by
  refine Reports.getServer fun s => ?_
  split
  · refine Degrades.bind (Hidden.getClient _) fun c => Degrades.bind (Unseen.require _) fun _ =>
      Degrades.bind (Hidden.onConn (.recv _)) fun _ => ?_
    exact Degrades.bind (Hidden.modifyServer _) fun _ => Degrades.bind (Hidden.sql _) fun _ =>
      Degrades.bind (Hidden.lastSeen draws _) fun _ => createSendAes_reports site draws _ _
  · exact Degrades.raise _

theorem storePacket_reports (clientId : Bytes) (p : Packet) :
    Reports (Request.storePacket site draws clientId p) := by
  refine Reports.getServer fun s => ?_
  split
  · exact Degrades.raise _
  · refine Degrades.bind (Hidden.getClient _) fun c => Degrades.bind (Hidden.onDisk _) fun _ =>
      Degrades.bind (Hidden.onDisk _) fun _ => Degrades.bind (Hidden.lastSeen draws _) fun _ => ?_
    split
    · refine Degrades.bind (Unseen.ofOption _ _) fun f => Degrades.bind (Unseen.whenever ?_)
        fun _ => Degrades.whenever (lastPacket_reports site _ _ _ _)
      exact Unseen.bind (Hidden.modifyServer _) fun _ => Hidden.sql _
    · exact Degrades.bind (Unseen.require _) fun _ => Degrades.bind (Hidden.addFileDb _) fun _ =>
        Degrades.bind (Hidden.modifyServer _) fun _ =>
          Degrades.whenever (lastPacket_reports site _ _ _ _)

theorem crcVerdict_reports (clientId : Bytes) (code : Nat) (fileName : Text) :
    Reports (Request.crcVerdict site draws clientId code fileName) := by
  refine Reports.getServer fun s => ?_
  split
  · exact Degrades.raise _
  · refine Degrades.bind (Hidden.getClient _) fun c =>
      Degrades.bind (Hidden.lastSeen draws _) fun _ => ?_
    split
    · exact Degrades.raise _
    · refine Degrades.bind (Unseen.ofOption _ _) fun f => Degrades.bind (Unseen.require _)
        fun _ => ?_
      -- only one of the two verdicts sends an answer
      by_cases h900 : code = General.validCrcRequest900
      · have h902 : ¬ code = General.invalidCrc4thRequest902 := by
          rw [h900]
          decide
        rw [whenever_pos h900, whenever_neg h902, bind_pure]
        exact Degrades.bind (Hidden.modifyServer _) fun _ => Degrades.bind (Hidden.sql _) fun _ =>
          Reports.onConn _
      · rw [whenever_neg h900, pure_bind]
        exact Degrades.whenever (Degrades.bind (Hidden.onDisk _) fun _ =>
          Degrades.bind (Hidden.modifyServer _) fun _ =>
            Degrades.bind (Hidden.deleteFile _) fun _ => Reports.onConn _)

theorem dispatch_reports (r : Request) : Reports (dispatch site draws r) := by
  rw [dispatch]
  split
  · exact Reports.attempt (Degrades.bind (Hidden.onConn (.recvText _)) fun name =>
      register_reports site draws name) true
  split
  · exact Degrades.bind (Hidden.onConn (.recvText _)) fun _ => reconnect_reports site draws _ _
  split
  · exact Degrades.bind (Hidden.onConn (.recvText _)) fun _ =>
      takePublicKey_reports site draws _ _
  split
  · exact Degrades.bind (Hidden.onConn (.recvPacket _)) fun _ => storePacket_reports site draws _ _
  split
  · exact Degrades.bind (Hidden.onConn (.recvText _)) fun _ => crcVerdict_reports site draws _ _ _
  · exact Degrades.raise _

/-- The callback inside its handler. -/
theorem request_reports : Reports (do
    match ← onConn Request.getHeader with
    | none => onConn Conn.close
    | some r => do
        onConn r.headerValidation
        dispatch site draws r) := by
  refine Degrades.bind (Hidden.onConn .getHeader) fun header => ?_
  cases header with
  | none => exact Reports.onConn _
  | some r =>
      refine Degrades.bind (Hidden.onConn fun c => ?_) fun _ => dispatch_reports site draws r
      rw [Request.headerValidation, Act.require]
      split <;> exact .refl c

end

/-- Whatever file and sqlite calls fail, and whatever the state of the server is: a callback
does what it does where nothing fails, or it sends the header of an error and nothing else. -/
theorem faults_reported (site : Platform) (draws : Draws) (w : World)
    (hstays : w.conn.sendsLeft = none) :
    (read site draws).run w.calmed =
        (((read site draws).run w).1, ((read site draws).run w).2.calmed) ∨
      ((read site draws).run w).1 = .done () ∧
        ∃ registration,
          ((read site draws).run w).2.conn.answers =
            w.conn.answers ++ [(failureMessage registration).header] ∧
          ((read site draws).run w).2.conn.sent =
            w.conn.sent ++ (failureMessage registration).bytes := by
  obtain hcalm | ⟨_, hdone, registration, hshown⟩ :=
    Reports.attempt_cases (request_reports site draws) false hstays
  · exact .inl hcalm
  · exact .inr ⟨hdone, registration, congrArg (fun v => v.2.1) hshown,
      congrArg (fun v => v.2.2) hshown⟩

/-- The row of a registration cannot be written. -/
theorem faults_reported_registration :
    let w : World := ⟨startedServer, registrationConn, [false, true]⟩
    (read bareSite (sameDraws 1)).run w.calmed =
        (((read bareSite (sameDraws 1)).run w).1, ((read bareSite (sameDraws 1)).run w).2.calmed) ∨
      ((read bareSite (sameDraws 1)).run w).1 = .done () ∧
        ∃ registration,
          ((read bareSite (sameDraws 1)).run w).2.conn.answers =
            w.conn.answers ++ [(failureMessage registration).header] ∧
          ((read bareSite (sameDraws 1)).run w).2.conn.sent =
            w.conn.sent ++ (failureMessage registration).bytes :=
  faults_reported bareSite (sameDraws 1) ⟨startedServer, registrationConn, [false, true]⟩ rfl

/-! Runs in which no client is told of an error. -/

/-- The event that this is where nothing fails. -/
def Turn.calmed : Turn → Event
  | .callback draws conn _ => .callback draws conn
  | .restart => .restart

/-- The client stays, and is not answered with an error. -/
def Unreported (site : Platform) (s : Server) : Turn → Prop
  | .callback draws conn faults => conn.sendsLeft = none ∧ ∀ registration,
      (s.afterRead site draws conn faults).conn.answers ≠
        conn.answers ++ [(failureMessage registration).header]
  | .restart => True

theorem unreported_step {site : Platform} {s t : Server} {e : Turn} (hstep : e.Leads site s t)
    (hunreported : Unreported site s e) :
    Admissible s e.calmed ∧ step site s e.calmed = some t := by
  cases e with
  | restart => exact ⟨trivial, hstep⟩
  | callback draws conn faults =>
      obtain ⟨hfresh, rfl⟩ := hstep
      obtain ⟨hstays, hnone⟩ := hunreported
      refine ⟨hfresh.client, ?_⟩
      obtain hcalm | ⟨-, registration, hanswers, -⟩ :=
        faults_reported site draws ⟨s, conn, faults⟩ hstays
      · exact congrArg (fun r => some r.2.server) hcalm
      · exact absurd hanswers (hnone registration)

/-- A run whose clients stay and are not told of an error, whatever file and sqlite calls fail
in it, is one that the server makes where nothing fails: what holds in every reachable state of
the server holds in it. -/
theorem unreported_runs (site : Site) (s t : Server) (es : List Turn)
    (hrun : ((roughRuns site).guard (Unreported site)).Run s es t) :
    (serverRuns site).Run s (es.map Turn.calmed) t := by
  induction hrun with
  | nil s => exact .nil s
  | cons head _ ih => exact .cons (unreported_step head.1 head.2) ih

theorem fresh_started : (sameDraws 1).Fresh startedServer := ⟨by decide, by decide⟩

/-- A registration with a folder call that does not fail. -/
theorem unreported_runs_registration :
    (serverRuns bareSite).Run startedServer [.callback (sameDraws 1) registrationConn]
      (startedServer.afterRead bareSite (sameDraws 1) registrationConn [false]).server := by
  have hunreported : Unreported bareSite startedServer
      (.callback (sameDraws 1) registrationConn [false]) := by
    refine ⟨rfl, fun registration => ?_⟩
    cases registration <;> decide +kernel
  exact unreported_runs bareSite startedServer _
    [.callback (sameDraws 1) registrationConn [false]] (.cons ⟨⟨fresh_started, rfl⟩, hunreported⟩
      (.nil _))

/-- The same with the tables in a file of the working directory, which any packet may reach. -/
theorem unreported_storedRuns {site : Site} {q : Sqlite} {s t : Server} {es : List Turn}
    (hrun : ((storedRoughRuns site q).guard (Unreported (site.storing q))).Run s es t) :
    (storedRuns site q).Run s (es.map Turn.calmed) t := by
  induction hrun with
  | nil s => exact .nil s
  | cons head _ ih => exact .cons (unreported_step head.1 head.2) ih

end SecureTransfer
