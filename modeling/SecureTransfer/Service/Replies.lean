import SecureTransfer.Service.Updates

/-!
What a callback leaves on a connection whose peer stays: reading changes the unread
bytes alone, an answer is appended to what was sent, and the handlers drop what has
arrived and leave the socket blocking.
-/

open Octets (Text encodeUtf8 padTo toLittle)
open Effects Act

namespace SecureTransfer

/-- A message on the wire. -/
def Message.bytes (m : Message) : Bytes :=
  toLittle General.versionSize General.version ++ toLittle General.codeSize m.header.code ++
    toLittle General.payloadSizeSize m.header.payloadSize ++ m.parts.flatten

namespace Conn

/-- The same connection up to the bytes not yet read. -/
def SameEnd (c c' : Conn) : Prop :=
  ∃ avail pending, c' = { c with avail := avail, pending := pending }

theorem SameEnd.refl (c : Conn) : SameEnd c c := ⟨c.avail, c.pending, rfl⟩

theorem SameEnd.trans {a b c : Conn} (h : SameEnd a b) (h' : SameEnd b c) : SameEnd a c := by
  obtain ⟨avail, pending, rfl⟩ := h
  obtain ⟨avail', pending', rfl⟩ := h'
  exact ⟨avail', pending', rfl⟩

theorem SameEnd.sendsLeft {c c' : Conn} (h : SameEnd c c') : c'.sendsLeft = c.sendsLeft := by
  obtain ⟨avail, pending, rfl⟩ := h
  rfl

theorem SameEnd.answers {c c' : Conn} (h : SameEnd c c') : c'.answers = c.answers := by
  obtain ⟨avail, pending, rfl⟩ := h
  rfl

theorem SameEnd.sent {c c' : Conn} (h : SameEnd c c') : c'.sent = c.sent := by
  obtain ⟨avail, pending, rfl⟩ := h
  rfl

theorem recv_sameEnd (n : Int) (c : Conn) : SameEnd c ((recv n).run c).2 := by
  simp only [recv]
  split
  · exact .refl c
  split
  · exact .refl c
  split
  · exact ⟨_, _, rfl⟩
  split
  · split
    · exact ⟨_, _, rfl⟩
    · exact .refl c
  · split <;> exact .refl c
  · exact .refl c
  · exact .refl c

def sentAlso (data : Bytes) (c : Conn) : Conn := { c with sent := c.sent ++ data }

/-- The connection after a message was sent on it. -/
def told (m : Message) (c : Conn) : Conn :=
  { c with sent := c.sent ++ m.bytes, answers := c.answers ++ [m.header] }

/-- The connection after `clean_buffer`. -/
def cleaned (c : Conn) : Conn := { c with avail := [], blocking := true }

end Conn

/-! Commands that only read. -/

def OnlyReads {α : Type} (m : Net α) : Prop := ∀ c, Conn.SameEnd c (m.run c).2

namespace OnlyReads

variable {α β : Type}

theorem pure (a : α) : OnlyReads (Pure.pure a : Net α) := fun c => .refl c

theorem ofOption (e : PyError) (o : Option α) : OnlyReads (Act.ofOption e o) := by
  intro c
  cases o <;> exact .refl c

theorem bind {m : Net α} {f : α → Net β} (hm : OnlyReads m) (hf : ∀ a, OnlyReads (f a)) :
    OnlyReads (m >>= f) := by
  intro c
  have h := hm c
  rw [run_bind]
  rcases hrun : m.run c with ⟨o, c'⟩
  rw [hrun] at h
  cases o with
  | done a => exact h.trans (hf a c')
  | raised e => exact h
  | blocked => exact h

theorem recv (n : Int) : OnlyReads (Conn.recv n) := Conn.recv_sameEnd n

theorem recvNumber (size : Nat) : OnlyReads (recvNumber size) :=
  bind (recv size) fun _ => pure _

theorem recvText (size : Nat) : OnlyReads (recvText size) :=
  bind (recv size) fun _ => bind (ofOption _ _) fun _ => pure _

theorem getHeader : OnlyReads Request.getHeader := by
  refine bind (recv _) fun id => ?_
  split
  · exact pure _
  · exact bind (recvNumber _) fun _ => bind (recvNumber _) fun _ =>
      bind (recvNumber _) fun _ => pure _

theorem recvPacket (payloadSize : Nat) : OnlyReads (Request.recvPacket payloadSize) :=
  bind (recvNumber _) fun _ => bind (recvNumber _) fun _ => bind (recvNumber _) fun _ =>
    bind (recvNumber _) fun _ => bind (recvText _) fun _ => bind (recv _) fun _ => pure _

end OnlyReads

namespace Reception

theorem ofRead_sameEnd {α : Type} {clientId : Bytes} {registration : Bool} {body : α → Body}
    {m : Net α} (hm : OnlyReads m) (c : Conn) :
    c.SameEnd (ofRead clientId registration body (m.run c)).unread ∧
      c.SameEnd (ofRead clientId registration body (m.run c)).conn := by
  have h := hm c
  rcases hrun : m.run c with ⟨o, c'⟩
  rw [hrun] at h
  cases o <;> exact ⟨h, h⟩

theorem withKey_sameEnd {clientId : Bytes} (c : Conn) :
    c.SameEnd (withKey clientId ((recvText General.clientNameSize).run c)).unread ∧
      c.SameEnd (withKey clientId ((recvText General.clientNameSize).run c)).conn := by
  have h := OnlyReads.recvText General.clientNameSize c
  rcases hrun : (recvText General.clientNameSize).run c with ⟨o, c'⟩
  rw [hrun] at h
  cases o with
  | done name => exact ⟨h, h.trans (Conn.recv_sameEnd _ c')⟩
  | raised e => exact ⟨h, h⟩
  | blocked => exact ⟨h, h⟩

theorem ofHeader_sameEnd (r : Request) (c : Conn) :
    c.SameEnd (ofHeader r c).unread ∧ c.SameEnd (ofHeader r c).conn := by
  unfold ofHeader
  repeat' split
  · exact ⟨.refl c, .refl c⟩
  · exact ofRead_sameEnd (.recvText _) c
  · exact ofRead_sameEnd (.recvText _) c
  · exact withKey_sameEnd c
  · exact ofRead_sameEnd (.recvPacket _) c
  · exact ofRead_sameEnd (.recvText _) c
  · exact ⟨.refl c, .refl c⟩

end Reception

theorem receive_sameEnd (c : Conn) :
    c.SameEnd (receive c).unread ∧ c.SameEnd (receive c).conn := by
  have h := OnlyReads.getHeader c
  unfold receive
  rcases hrun : Request.getHeader.run c with ⟨o, c'⟩
  rw [hrun] at h
  cases o with
  | done header =>
      cases header with
      | none => exact ⟨h, h⟩
      | some r =>
          obtain ⟨hunread, hconn⟩ := Reception.ofHeader_sameEnd r c'
          exact ⟨h.trans hunread, h.trans hconn⟩
  | raised e => exact ⟨h, h⟩
  | blocked => exact ⟨h, h⟩

/-! Sending to a peer that stays. -/

theorem sendall_stays {c : Conn} (h : c.sendsLeft = none) (data : Bytes) :
    (Conn.sendall data).run c = (.done (), c.sentAlso data) := by
  simp only [Conn.sendall, h, Conn.sentAlso]

theorem sendParts_stays (parts : List Bytes) {c : Conn} (h : c.sendsLeft = none) :
    (sendParts parts).run c = (.done (), c.sentAlso parts.flatten) := by
  induction parts generalizing c with
  | nil => simp [sendParts, Conn.sentAlso]
  | cons part parts ih =>
      rw [sendParts, bind_done (sendall_stays h part), ih (c := c.sentAlso part) h]
      simp [Conn.sentAlso]

/-- The header fits its fields. -/
def Message.Fits (m : Message) : Prop :=
  m.header.code < 256 ^ General.codeSize ∧
    m.header.payloadSize < 256 ^ General.payloadSizeSize

theorem sendHeader_stays {c : Conn} (h : c.sendsLeft = none) {a : Answer}
    (hfits : a.code < 256 ^ General.codeSize ∧ a.payloadSize < 256 ^ General.payloadSizeSize) :
    a.sendHeaderToClient.run c = (.done (), c.told ⟨a, []⟩) := by
  have hversion : General.version < 256 ^ General.versionSize := by decide
  rw [Answer.sendHeaderToClient, convertIntToByte_of_lt hversion, pure_bind,
    bind_done (sendall_stays h _), convertIntToByte_of_lt hfits.1, pure_bind,
    bind_done (sendall_stays (c := c.sentAlso _) h _), convertIntToByte_of_lt hfits.2, pure_bind,
    bind_done (sendall_stays (c := (c.sentAlso _).sentAlso _) h _)]
  simp [Conn.told, Conn.sentAlso, Message.bytes]

theorem send_stays {c : Conn} (h : c.sendsLeft = none) {m : Message} (hfits : m.Fits) :
    m.send.run c = (.done (), c.told m) := by
  rw [Message.send, bind_done (sendHeader_stays h hfits),
    sendParts_stays m.parts (c := c.told ⟨m.header, []⟩) h]
  simp [Conn.told, Conn.sentAlso, Message.bytes]

/-! Cleaning the buffer. -/

theorem drain_run (turns : Nat) {c : Conn} (hb : c.blocking = false)
    (h : c.avail.length < turns) :
    ∃ o, (Conn.drain turns).run c = (o, { c with avail := [] }) ∧ o ≠ .blocked := by
  induction turns generalizing c with
  | zero => omega
  | succ turns ih =>
      by_cases havail : c.avail = []
      · have hc : { c with avail := [] } = c := by rw [← havail]
        rw [hc]
        cases hp : c.pending with
        | cons chunk rest =>
            have hrecv : (Conn.recv 4096).run c = (.raised .blockingIOError, c) := by
              simp [Conn.recv, havail, hp, hb]
            exact ⟨_, by rw [Conn.drain, bind_raised hrecv], by simp⟩
        | nil =>
            cases hh : c.hangup with
            | idle =>
                have hrecv : (Conn.recv 4096).run c = (.raised .blockingIOError, c) := by
                  simp [Conn.recv, havail, hp, hh, hb]
                exact ⟨_, by rw [Conn.drain, bind_raised hrecv], by simp⟩
            | closed =>
                have hrecv : (Conn.recv 4096).run c = (.done [], c) := by
                  simp [Conn.recv, havail, hp, hh]
                exact ⟨.done (), by rw [Conn.drain, bind_done hrecv]; simp, by simp⟩
            | reset =>
                have hrecv : (Conn.recv 4096).run c = (.raised .connectionError, c) := by
                  simp [Conn.recv, havail, hp, hh]
                exact ⟨_, by rw [Conn.drain, bind_raised hrecv], by simp⟩
      · have hrecv : (Conn.recv 4096).run c = (.done (c.avail.take 4096), c.take 4096) := by
          simp [Conn.recv, havail]
        have hne : c.avail.take 4096 ≠ [] := by simpa using havail
        have hpos := List.length_pos_iff.mpr havail
        obtain ⟨o, ho, hblocked⟩ := ih (c := c.take 4096) hb (by
          simp only [Conn.take, List.length_drop]
          omega)
        refine ⟨o, ?_, hblocked⟩
        rw [Conn.drain, bind_done hrecv, if_neg hne, ho]
        rfl

theorem cleanBuffer_run (c : Conn) : cleanBuffer.run c = (.done (), c.cleaned) := by
  obtain ⟨o, ho, hblocked⟩ := drain_run (c.avail.length + 1)
    (c := { c with blocking := false }) rfl (Nat.lt_succ_self _)
  have hset : (Conn.setblocking false).run c = (.done (), { c with blocking := false }) := rfl
  rw [cleanBuffer, bind_done hset, bind_done (run_get _)]
  cases o with
  | done _ =>
      rw [bind_done (attempt_done ho)]
      rfl
  | raised e =>
      have hcaught : (attempt (Conn.drain (c.avail.length + 1)) fun _ => pure ()).run
          { c with blocking := false } = (.done (), { c with blocking := false, avail := [] }) := by
        rw [attempt_raised ho, run_pure]
      rw [bind_done hcaught]
      rfl
  | blocked => exact absurd rfl hblocked

/-- The code of the answer to a request that raised. -/
def failureCode (registration : Bool) : Nat :=
  if registration then General.registrationFailed1601 else General.generalError1607

def failureMessage (registration : Bool) : Message := ⟨⟨failureCode registration, 0⟩, []⟩

theorem failureMessage_fits (registration : Bool) : (failureMessage registration).Fits := by
  cases registration <;> constructor <;> decide

theorem reject_stays {c : Conn} (h : c.sendsLeft = none) {code : Nat}
    (hfits : code < 256 ^ General.codeSize) :
    (reject code).run c = (.done (), c.cleaned.told ⟨⟨code, 0⟩, []⟩) := by
  have hclean : c.cleaned.sendsLeft = none := h
  have hpayload : 0 < 256 ^ General.payloadSizeSize := by decide
  rw [reject, bind_done (cleanBuffer_run c), sendHeader_stays hclean ⟨hfits, hpayload⟩]

theorem failure_stays {c : Conn} (h : c.sendsLeft = none) (registration : Bool) :
    (failure registration).run c =
      (.done (), c.cleaned.told (failureMessage registration)) := by
  cases registration with
  | false => exact reject_stays h (by decide)
  | true => exact attempt_done (reject_stays h (by decide))

/-! The answers of the service: their codes, and that they fit their headers. -/

def Body.codes : Body → List Nat
  | .registration _ => [General.registrationDone1600]
  | .reconnection _ => [General.validReconnectionAes1605, General.reconnectionFailed1606]
  | .publicKey _ _ => [General.gotPublicSendAes1602]
  | .packet _ => [General.fileReceivedCrc1603]
  | .verdict _ _ => [General.thankYouClient1604]

theorem Message.fits_of_eq {m : Message} {code payloadSize : Nat}
    (h : m.header = ⟨code, payloadSize⟩) (hcode : code < 256 ^ General.codeSize)
    (hsize : payloadSize < 256 ^ General.payloadSizeSize) : m.Fits := by
  rw [Message.Fits, h]
  exact ⟨hcode, hsize⟩

/-- The answers to a request, and what is in them. -/
inductive Emits (id : Bytes) : Body → Message → Prop where
  | registrationDone {name : Text} {uuid : Bytes} (huuid : uuid.length = General.clientIdSize) :
      Emits id (.registration name) (.registrationDone uuid)
  | reconnected {name : Text} {encrypted : Bytes}
      (hfits : General.clientIdSize + encrypted.length < 256 ^ General.payloadSizeSize) :
      Emits id (.reconnection name) (.aesKey General.validReconnectionAes1605 id encrypted)
  | reconnectionFailed {name : Text} : Emits id (.reconnection name) (.reconnectionFailed id)
  | keyTaken {name : Text} {key : Outcome PyError Bytes} {encrypted : Bytes}
      (hfits : General.clientIdSize + encrypted.length < 256 ^ General.payloadSizeSize) :
      Emits id (.publicKey name key) (.aesKey General.gotPublicSendAes1602 id encrypted)
  | fileReceived {p : Packet} {crc : Nat} (hcrc : crc < 2 ^ 32) :
      Emits id (.packet p) (.fileReceived id p.contentSize p.fileName crc)
  | thankYou {code : Nat} {fileName : Text} :
      Emits id (.verdict code fileName) (.thankYou id)

namespace Emits

variable {id : Bytes} {body : Body} {m : Message}

theorem code_mem (h : Emits id body m) : m.header.code ∈ body.codes := by
  cases h <;> simp [Body.codes, Message.registrationDone, Message.aesKey,
    Message.reconnectionFailed, Message.fileReceived, Message.thankYou]

theorem fits (h : Emits id body m) : m.Fits := by
  cases h with
  | registrationDone | reconnectionFailed | fileReceived | thankYou =>
      exact Message.fits_of_eq rfl (by decide) (by decide)
  | reconnected hfits | keyTaken hfits => exact Message.fits_of_eq rfl (by decide) hfits

end Emits

section
variable {site : Site} {draws : Draws} {s : Server} {id : Bytes} {m : Message}

theorem sendNewAesKey_emits {code : Nat} {publicKey : Bytes}
    (h : (sendNewAesKey site draws s code id publicKey).2 = .answer m) :
    ∃ encrypted, General.clientIdSize + encrypted.length < 256 ^ General.payloadSizeSize ∧
      m = .aesKey code id encrypted := by
  rw [sendNewAesKey] at h
  split at h
  · cases h
  · rename_i encrypted henc
    obtain ⟨key, -, hkey⟩ := Option.bind_eq_some_iff.mp henc
    have hlen := site.length_oaepEncrypt _ _ _ _ hkey
    have hid : General.clientIdSize = 16 := rfl
    have hsize : 256 ^ General.payloadSizeSize = 4294967296 := rfl
    exact ⟨encrypted, by omega, (Reply.answer.inj h).symm⟩

theorem finishUpload_emits {c : Client} {file : File} {p : Packet}
    (h : (finishUpload site s c file p).2 = .answer m) :
    ∃ plain, m = .fileReceived c.clientId p.contentSize file.fileName (Cksum.memcrc plain) := by
  rw [finishUpload] at h
  split at h
  · cases h
  · rename_i plain _
    split at h
    · cases h
    · simp only at h
      split at h
      · exact ⟨plain, (Reply.answer.inj h).symm⟩
      · cases h

theorem recordPacket_fileName {t : Server} {c : Client} {p : Packet} {file : File}
    (h : recordPacket s c p = some (t, file)) : file.fileName = p.fileName := by
  rw [recordPacket] at h
  split at h
  · rename_i old hold
    cases h
    simpa using List.find?_some hold
  · split at h
    · cases h
      rfl
    · cases h

theorem servePacket_emits {p : Packet} (h : (servePacket site draws s id p).2 = .answer m) :
    Emits id (.packet p) m := by
  rw [servePacket] at h
  split at h
  · cases h
  · rename_i c hclient
    obtain ⟨-, hid⟩ := Server.client?_eq_some hclient
    split at h
    · cases h
    · simp only at h
      split at h
      · cases h
      · rename_i t file hrecord
        split at h
        · obtain ⟨plain, rfl⟩ := finishUpload_emits h
          rw [hid, recordPacket_fileName hrecord]
          exact .fileReceived (Cksum.memcrc_lt plain)
        · cases h

theorem discardFile_emits {file : File} (h : (discardFile site s id file).2 = .answer m) :
    m = .thankYou id := by
  rw [discardFile] at h
  split at h
  · cases h
  · simp only at h
    split at h
    · cases h
    · exact (Reply.answer.inj h).symm

theorem serveVerdict_emits {code : Nat} {fileName : Text}
    (h : (serveVerdict site draws s id code fileName).2 = .answer m) :
    Emits id (.verdict code fileName) m := by
  rw [serveVerdict] at h
  split at h
  · cases h
  · simp only at h
    split at h
    · cases h
    · split at h
      · cases h
      · split at h
        · cases h
          exact .thankYou
        · split at h
          · rw [discardFile_emits h]
            exact .thankYou
          · cases h

theorem serveReconnection_emits {name : Text}
    (h : (serveReconnection site draws s id name).2 = .answer m) :
    Emits id (.reconnection name) m := by
  rw [serveReconnection] at h
  split at h
  · cases h
    exact .reconnectionFailed
  · split at h
    · cases h
    · simp only at h
      split at h
      · cases h
        exact .reconnectionFailed
      · obtain ⟨encrypted, hfits, rfl⟩ := sendNewAesKey_emits h
        exact .reconnected hfits

theorem servePublicKey_emits {name : Text} {key : Outcome PyError Bytes}
    (h : (servePublicKey site draws s id name key).2 = .answer m) :
    Emits id (.publicKey name key) m := by
  rw [servePublicKey.eq_def] at h
  split at h
  · cases h
  · split at h
    · cases h
    · split at h
      · cases h
      · cases h
      · obtain ⟨encrypted, hfits, rfl⟩ := sendNewAesKey_emits h
        exact .keyTaken hfits

theorem serveRegistration_emits {name : Text}
    (h : (serveRegistration site draws s name).2 = .answer m) :
    Emits id (.registration name) m := by
  rw [serveRegistration] at h
  split at h
  · cases h
  · split at h
    · cases h
    · cases h
      exact .registrationDone draws.length_uuid

/-- What the service answers. -/
theorem serve_emits {body : Body} (h : (serve site draws s id body).2 = .answer m) :
    Emits id body m := by
  cases body with
  | registration name => exact serveRegistration_emits h
  | reconnection name => exact serveReconnection_emits h
  | publicKey name key => exact servePublicKey_emits h
  | packet p => exact servePacket_emits h
  | verdict code fileName => exact serveVerdict_emits h

theorem serve_answer {body : Body} (h : (serve site draws s id body).2 = .answer m) :
    m.header.code ∈ body.codes ∧ m.Fits :=
  ⟨(serve_emits h).code_mem, (serve_emits h).fits⟩

end

/-! How a callback ends. -/

/-- `conclude` when the peer stays. -/
def concluded (registration : Bool) (unread conn : Conn) : Reply → Outcome PyError Unit × Conn
  | .silent => (.done (), conn)
  | .answer m => (.done (), conn.told m)
  | .rejected => (.done (), conn.cleaned.told (failureMessage registration))
  | .rejectedUnread => (.done (), unread.cleaned.told (failureMessage registration))
  | .waits => (.blocked, conn)

theorem conclude_stays {unread conn : Conn} (hu : unread.sendsLeft = none)
    (hc : conn.sendsLeft = none) (registration : Bool) {reply : Reply}
    (hfits : ∀ m, reply = .answer m → m.Fits) :
    conclude registration unread conn reply = concluded registration unread conn reply := by
  cases reply with
  | silent => rfl
  | answer m => exact attempt_done (send_stays hc (hfits m rfl))
  | rejected => exact failure_stays hc registration
  | rejectedUnread => exact failure_stays hu registration
  | waits => rfl

/-- The message with which a callback answers, if it does. -/
def Reception.message (site : Site) (draws : Draws) (s : Server) (r : Reception) :
    Option Message :=
  match r.incoming with
  | .ended | .waits => none
  | .malformed registration => some (failureMessage registration)
  | .request clientId body =>
      match (serve site draws s clientId body).2 with
      | .silent | .waits => none
      | .answer m => some m
      | .rejected | .rejectedUnread => some (failureMessage body.isRegistration)

/-- A callback sends its message, and nothing else, and does not raise. -/
theorem finish_told (site : Site) (draws : Draws) (s : Server) {c : Conn}
    (hc : c.sendsLeft = none) :
    ((receive c).finish site draws s).2.answers =
        c.answers ++ (((receive c).message site draws s).map (·.header)).toList ∧
      ((receive c).finish site draws s).2.sent =
        c.sent ++ ((receive c).message site draws s).elim [] Message.bytes ∧
      ∀ e, ((receive c).finish site draws s).1 ≠ .raised e := by
  obtain ⟨hunread, hconn⟩ := receive_sameEnd c
  have hu : (receive c).unread.sendsLeft = none := hunread.sendsLeft.trans hc
  have hr : (receive c).conn.sendsLeft = none := hconn.sendsLeft.trans hc
  rw [← hconn.answers, ← hconn.sent]
  generalize receive c = r at hunread hconn hu hr ⊢
  obtain ⟨incoming, unread, conn⟩ := r
  cases incoming with
  | ended => simp [Reception.finish, Reception.message]
  | waits => simp [Reception.finish, Reception.message]
  | malformed registration =>
      simp [Reception.finish, Reception.message, failure_stays hr, Conn.told, Conn.cleaned]
  | request clientId body =>
      simp only [Reception.finish, Reception.message]
      rw [conclude_stays hu hr _ fun m hm => (serve_answer hm).2]
      cases (serve site draws s clientId body).2 with
      | silent => simp [concluded]
      | answer m => simp [concluded, Conn.told]
      | rejected => simp [concluded, Conn.told, Conn.cleaned]
      | rejectedUnread =>
          have ha : unread.answers = conn.answers := hunread.answers.trans hconn.answers.symm
          have hs : unread.sent = conn.sent := hunread.sent.trans hconn.sent.symm
          simp [concluded, Conn.told, Conn.cleaned, ha, hs]
      | waits => simp [concluded]

/-- The codes with which a request can be answered. -/
theorem message_code {site : Site} {draws : Draws} {s : Server} {clientId : Bytes} {body : Body}
    {unread conn : Conn} {m : Message}
    (h : (⟨.request clientId body, unread, conn⟩ : Reception).message site draws s = some m) :
    (serve site draws s clientId body).2 = .answer m ∧ m.header.code ∈ body.codes ∨
      m = failureMessage body.isRegistration ∧
        ((serve site draws s clientId body).2 = .rejected ∨
          (serve site draws s clientId body).2 = .rejectedUnread) := by
  simp only [Reception.message] at h
  cases hr : (serve site draws s clientId body).2 with
  | silent | waits => simp [hr] at h
  | answer m' =>
      simp only [hr, Option.some.injEq] at h
      subst h
      exact .inl ⟨rfl, (serve_answer hr).1⟩
  | rejected | rejectedUnread =>
      simp only [hr, Option.some.injEq] at h
      exact .inr ⟨h.symm, by simp⟩

/-! Sending to any peer: what is sent whole is answered, and after a failure nothing is. -/

theorem sendall_gone (data : Bytes) {c : Conn} (hgone : c.sendsLeft = some 0) :
    ∃ o, (Conn.sendall data).run c = (o, c) ∧ o ≠ .done () := by
  simp only [Conn.sendall, hgone]
  split
  · exact ⟨_, rfl, nofun⟩
  · split
    · exact ⟨_, rfl, nofun⟩
    · exact ⟨_, rfl, nofun⟩

theorem sendall_cases (data : Bytes) (c : Conn) :
    (∃ c', (Conn.sendall data).run c = (.done (), c') ∧ c'.answers = c.answers) ∨
      ∃ o, (Conn.sendall data).run c = (o, c) ∧ o ≠ .done () ∧ c.sendsLeft = some 0 := by
  cases hleft : c.sendsLeft with
  | none => exact .inl ⟨_, sendall_stays hleft data, rfl⟩
  | some n =>
      cases n with
      | zero =>
          obtain ⟨o, h, ho⟩ := sendall_gone data hleft
          exact .inr ⟨o, h, ho, rfl⟩
      | succ n =>
          exact .inl ⟨{ c with sent := c.sent ++ data, sendsLeft := some n },
            by simp only [Conn.sendall, hleft], rfl⟩

theorem sendParts_cases (parts : List Bytes) (c : Conn) :
    (∃ c', (sendParts parts).run c = (.done (), c') ∧ c'.answers = c.answers) ∨
      ∃ o c', (sendParts parts).run c = (o, c') ∧ o ≠ .done () ∧ c'.sendsLeft = some 0 ∧
        c'.answers = c.answers := by
  induction parts generalizing c with
  | nil => exact .inl ⟨c, rfl, rfl⟩
  | cons part parts ih =>
      obtain ⟨c₁, h₁, ha₁⟩ | ⟨o, h₁, ho, hgone⟩ := sendall_cases part c
      · rw [sendParts, bind_done h₁, ← ha₁]
        exact ih c₁
      · exact .inr ⟨o, c, bind_unfinished h₁ ho, ho, hgone, rfl⟩

theorem sendHeader_cases {a : Answer} (hfits : a.code < 256 ^ General.codeSize ∧
    a.payloadSize < 256 ^ General.payloadSizeSize) (c : Conn) :
    (∃ c', a.sendHeaderToClient.run c = (.done (), c') ∧ c'.answers = c.answers ++ [a]) ∨
      ∃ o c', a.sendHeaderToClient.run c = (o, c') ∧ o ≠ .done () ∧ c'.sendsLeft = some 0 ∧
        c'.answers = c.answers := by
  have hversion : General.version < 256 ^ General.versionSize := by decide
  rw [Answer.sendHeaderToClient, convertIntToByte_of_lt hversion, pure_bind]
  obtain ⟨c₁, h₁, ha₁⟩ | ⟨o, h₁, ho, hgone⟩ := sendall_cases _ c
  · rw [bind_done h₁, convertIntToByte_of_lt hfits.1, pure_bind]
    obtain ⟨c₂, h₂, ha₂⟩ | ⟨o, h₂, ho, hgone⟩ := sendall_cases _ c₁
    · rw [bind_done h₂, convertIntToByte_of_lt hfits.2, pure_bind]
      obtain ⟨c₃, h₃, ha₃⟩ | ⟨o, h₃, ho, hgone⟩ := sendall_cases _ c₂
      · rw [bind_done h₃]
        refine .inl ⟨_, rfl, ?_⟩
        rw [← ha₁, ← ha₂, ← ha₃]
      · exact .inr ⟨o, c₂, bind_unfinished h₃ ho, ho, hgone, ha₂.trans ha₁⟩
    · exact .inr ⟨o, c₁, bind_unfinished h₂ ho, ho, hgone, ha₁⟩
  · exact .inr ⟨o, c, bind_unfinished h₁ ho, ho, hgone, rfl⟩

theorem reject_cases {code : Nat} (hfits : code < 256 ^ General.codeSize) (c : Conn) :
    (∃ c', (reject code).run c = (.done (), c') ∧ c'.answers = c.answers ++ [⟨code, 0⟩]) ∨
      ∃ o c', (reject code).run c = (o, c') ∧ o ≠ .done () ∧ c'.sendsLeft = some 0 ∧
        c'.answers = c.answers := by
  have hsize : 0 < 256 ^ General.payloadSizeSize := by decide
  rw [reject, bind_done (cleanBuffer_run c)]
  exact @sendHeader_cases ⟨code, 0⟩ ⟨hfits, hsize⟩ c.cleaned

/-! Once a call has found no taker nothing is answered any more. -/

theorem reject_gone (code : Nat) {c : Conn} (hgone : c.sendsLeft = some 0) :
    ∃ o, (reject code).run c = (o, c.cleaned) ∧ o ≠ .done () := by
  have hcleaned : c.cleaned.sendsLeft = some 0 := hgone
  have hversion : General.version < 256 ^ General.versionSize := by decide
  obtain ⟨o, h, ho⟩ := sendall_gone (toLittle General.versionSize General.version) hcleaned
  rw [reject, bind_done (cleanBuffer_run c), Answer.sendHeaderToClient,
    convertIntToByte_of_lt hversion, pure_bind]
  exact ⟨o, bind_unfinished h ho, ho⟩

theorem attempt_gone {m handler : Net Unit} {c c' : Conn} {o : Outcome PyError Unit}
    (hm : m.run c = (o, c')) (ho : o ≠ .done ())
    (hhandler : (handler.run c').2.answers = c'.answers) :
    ((attempt m fun _ => handler).run c).2.answers = c'.answers := by
  cases o with
  | done _ => exact absurd rfl ho
  | raised e => rw [attempt_raised hm, hhandler]
  | blocked => rw [attempt_blocked hm]

theorem failure_gone (registration : Bool) {c : Conn} (hgone : c.sendsLeft = some 0) :
    ((failure registration).run c).2.answers = c.answers := by
  have hcleaned : c.cleaned.sendsLeft = some 0 := hgone
  have hreject : ∀ {c : Conn}, c.sendsLeft = some 0 →
      ((reject General.generalError1607).run c).2.answers = c.answers := by
    intro c hgone
    obtain ⟨o, h, -⟩ := reject_gone General.generalError1607 hgone
    rw [h]
    rfl
  cases registration with
  | false => exact hreject hgone
  | true =>
      obtain ⟨o, h, ho⟩ := reject_gone General.registrationFailed1601 hgone
      have hanswers := attempt_gone h ho (hreject hcleaned)
      exact hanswers

theorem failure_answers (registration : Bool) (c : Conn) :
    ((failure registration).run c).2.answers = c.answers ∨
      ((failure registration).run c).2.answers =
        c.answers ++ [(failureMessage registration).header] := by
  have h1607 : General.generalError1607 < 256 ^ General.codeSize := by decide
  have h1601 : General.registrationFailed1601 < 256 ^ General.codeSize := by decide
  cases registration with
  | false =>
      rw [failure, if_neg Bool.false_ne_true]
      obtain ⟨c', h, ha⟩ | ⟨o, c', h, -, -, ha⟩ := reject_cases h1607 c
      · rw [h]
        exact .inr ha
      · rw [h]
        exact .inl ha
  | true =>
      rw [failure, if_pos rfl]
      obtain ⟨c', h, ha⟩ | ⟨o, c', h, ho, hgone, ha⟩ := reject_cases h1601 c
      · rw [attempt_done h]
        exact .inr ha
      · exact .inl ((attempt_gone h ho (failure_gone false hgone)).trans ha)

/-- The header that a callback sends, if it sends one, whether its peer stays or not. -/
theorem conclude_answers (registration : Bool) {unread conn : Conn} {reply : Reply}
    (hsame : unread.answers = conn.answers) (hfits : ∀ m, reply = .answer m → m.Fits) :
    (conclude registration unread conn reply).2.answers = conn.answers ∨
      (∃ m, reply = .answer m ∧
        (conclude registration unread conn reply).2.answers = conn.answers ++ [m.header]) ∨
      ((reply = .rejected ∨ reply = .rejectedUnread) ∧
        (conclude registration unread conn reply).2.answers =
          conn.answers ++ [(failureMessage registration).header]) := by
  cases reply with
  | silent | waits => exact .inl rfl
  | rejected =>
      obtain h | h := failure_answers registration conn
      · exact .inl h
      · exact .inr (.inr ⟨.inl rfl, h⟩)
  | rejectedUnread =>
      have h := failure_answers registration unread
      rw [hsame] at h
      obtain h | h := h
      · exact .inl h
      · exact .inr (.inr ⟨.inr rfl, h⟩)
  | answer m =>
      obtain ⟨c₁, h₁, ha₁⟩ | ⟨o, c₁, h₁, ho, hgone, ha₁⟩ := sendHeader_cases (hfits m rfl) conn
      · obtain ⟨c₂, h₂, ha₂⟩ | ⟨o, c₂, h₂, ho, hgone, ha₂⟩ := sendParts_cases m.parts c₁
        · have hsend : m.send.run conn = (.done (), c₂) := by rw [Message.send, bind_done h₁, h₂]
          rw [conclude, attempt_done hsend]
          exact .inr (.inl ⟨m, rfl, ha₂.trans ha₁⟩)
        · have hsend : m.send.run conn = (o, c₂) := by rw [Message.send, bind_done h₁, h₂]
          have hanswers := attempt_gone hsend ho (failure_gone registration hgone)
          exact .inr (.inl ⟨m, rfl, hanswers.trans (ha₂.trans ha₁)⟩)
      · have hsend : m.send.run conn = (o, c₁) := by rw [Message.send, bind_unfinished h₁ ho]
        exact .inl ((attempt_gone hsend ho (failure_gone registration hgone)).trans ha₁)

/-- A request that is answered with a 1607 was rejected: after a failure while the answer is
sent nothing more can be sent. -/
theorem rejected_of_answers {c : Conn} {reply : Reply}
    (hreply : ∀ m, reply = .answer m → m.Fits ∧ m.header.code ≠ General.generalError1607)
    (h : (conclude false c c reply).2.answers = c.answers ++ [⟨General.generalError1607, 0⟩]) :
    reply = .rejected ∨ reply = .rejectedUnread := by
  obtain hnone | ⟨m, hm, hanswer⟩ | ⟨hrejected, -⟩ :=
    conclude_answers false rfl fun m hm => (hreply m hm).1
  · rw [h] at hnone
    simpa using congrArg List.length hnone
  · rw [h, List.append_cancel_left_eq, List.singleton_inj] at hanswer
    exact absurd (congrArg Answer.code hanswer).symm (hreply m hm).2
  · exact hrejected

/-! The callback, on the server and on its connection. -/

theorem message_request {site : Site} {draws : Draws} {s : Server} {r : Reception}
    {clientId : Bytes} {body : Body} (h : r.incoming = .request clientId body) :
    r.message site draws s = match (serve site draws s clientId body).2 with
      | .silent | .waits => none
      | .answer m => some m
      | .rejected | .rejectedUnread => some (failureMessage body.isRegistration) := by
  simp only [Reception.message, h]

section
variable (site : Site) (draws : Draws) {s : Server} {c : Conn}

theorem read_server (hs : WellFormed s) (hfresh : draws.uuid ∉ s.ids) :
    ((read site draws).run (calm s c)).2.server = (receive c).next site draws s := by
  rw [read_calm site draws c hs hfresh]
  rfl

theorem read_answers (hs : WellFormed s) (hfresh : draws.uuid ∉ s.ids) (hc : c.sendsLeft = none) :
    ((read site draws).run (calm s c)).2.conn.answers =
      c.answers ++ (((receive c).message site draws s).map (·.header)).toList := by
  rw [read_calm site draws c hs hfresh]
  exact (finish_told site draws s hc).1

theorem read_sent (hs : WellFormed s) (hfresh : draws.uuid ∉ s.ids) (hc : c.sendsLeft = none) :
    ((read site draws).run (calm s c)).2.conn.sent =
      c.sent ++ ((receive c).message site draws s).elim [] Message.bytes := by
  rw [read_calm site draws c hs hfresh]
  exact (finish_told site draws s hc).2.1

/-- The callback answers with this header. -/
theorem read_answers_iff (hs : WellFormed s) (hfresh : draws.uuid ∉ s.ids)
    (hc : c.sendsLeft = none) {a : Answer} :
    ((read site draws).run (calm s c)).2.conn.answers = c.answers ++ [a] ↔
      ∃ m, (receive c).message site draws s = some m ∧ m.header = a := by
  rw [read_answers site draws hs hfresh hc, List.append_cancel_left_eq]
  cases (receive c).message site draws s with
  | none => simp
  | some m => simp

/-- The callback sends no other header than that of its message. -/
theorem read_answers_cases (hs : WellFormed s) (hfresh : draws.uuid ∉ s.ids) {clientId : Bytes}
    {body : Body} (hasks : (receive c).incoming = .request clientId body) {a : Answer}
    (hsent : ((read site draws).run (calm s c)).2.conn.answers = c.answers ++ [a]) :
    (∃ m, (serve site draws s clientId body).2 = .answer m ∧ m.header = a) ∨
      a = (failureMessage body.isRegistration).header := by
  obtain ⟨hunread, hconn⟩ := receive_sameEnd c
  rw [read_calm site draws c hs hfresh, Reception.finish, hasks] at hsent
  simp only [calm] at hsent
  have hsame : (receive c).unread.answers = (receive c).conn.answers :=
    hunread.answers.trans hconn.answers.symm
  rw [← hconn.answers] at hsent
  obtain hnone | ⟨m, hm, hanswer⟩ | ⟨-, hrejected⟩ := conclude_answers body.isRegistration hsame
    fun m hm => (@serve_answer site draws s clientId m body hm).2
  · rw [hsent] at hnone
    exact absurd (congrArg List.length hnone) (by simp)
  · rw [hsent, List.append_cancel_left_eq, List.singleton_inj] at hanswer
    exact .inl ⟨m, hm, hanswer.symm⟩
  · rw [hsent, List.append_cancel_left_eq, List.singleton_inj] at hrejected
    exact .inr hrejected

end

end SecureTransfer
