import SecureTransfer.Client.Packets

/-!
The handler of an 828 when any of its file and sqlite calls may fail. Nothing but its
answer touches the connection, and nothing fails after the answer was begun.
-/

open Octets (Text decodeUtf8 padTo toLittle)
open Effects Act
open SecureTransfer.ClientSide (packetBytes payloadSizeWithoutMassage)

namespace SecureTransfer

/-- The connection with these answers sent on it as well. -/
def Conn.Answered (answers : List Answer) (c c' : Conn) : Prop :=
  ∃ sent, c' = { c with sent := sent, answers := c.answers ++ answers }

theorem Conn.Answered.nil (c : Conn) : c.Answered [] c :=
  ⟨c.sent, by rw [List.append_nil]⟩

/-- A command that finishes with these answers sent, or raises and leaves the connection. -/
def Tells {α : Type} (m : Py α) (answers : List Answer) : Prop :=
  ∀ w : World, w.conn.sendsLeft = none →
    (∃ a w', m.run w = (.done a, w') ∧ w.conn.Answered answers w'.conn) ∨
      ∃ e w', m.run w = (.raised e, w') ∧ w'.conn = w.conn

/-- A command that leaves the connection. -/
def Quiet {α : Type} (m : Py α) : Prop :=
  ∀ w : World, (∃ a w', m.run w = (.done a, w') ∧ w'.conn = w.conn) ∨
    ∃ e w', m.run w = (.raised e, w') ∧ w'.conn = w.conn

namespace Quiet

variable {α β : Type}

theorem pure (a : α) : Quiet (Pure.pure a : Py α) := fun w => .inl ⟨a, w, rfl, rfl⟩

theorem raise (e : PyError) : Quiet (Act.raise e : Py α) := fun w => .inr ⟨e, w, rfl, rfl⟩

theorem bind {m : Py α} {f : α → Py β} (hm : Quiet m) (hf : ∀ a, Quiet (f a)) :
    Quiet (m >>= f) := by
  intro w
  obtain ⟨a, w₁, hrun, hconn⟩ | ⟨e, w₁, hrun, hconn⟩ := hm w
  · rw [bind_done hrun, ← hconn]
    exact hf a w₁
  · exact .inr ⟨e, w₁, bind_raised hrun, hconn⟩

theorem ofOption (e : PyError) (o : Option α) : Quiet (Act.ofOption e o : Py α) := by
  cases o with
  | none => exact raise e
  | some a => exact pure a

theorem require {c : Prop} [Decidable c] (e : PyError) : Quiet (Act.require c e : Py Unit) := by
  rw [Act.require]
  split
  · exact pure ()
  · exact raise e

theorem whenever {c : Prop} [Decidable c] {m : Py Unit} (hm : Quiet m) :
    Quiet (Act.whenever c m) := by
  rw [Act.whenever]
  split
  · exact hm
  · exact pure ()

theorem getServer : Quiet getServer := fun w => .inl ⟨w.server, w, rfl, rfl⟩

theorem setServer (s : Server) : Quiet (setServer s) := fun _ => .inl ⟨(), _, rfl, rfl⟩

theorem modifyServer (f : Server → Server) : Quiet (modifyServer f) :=
  fun _ => .inl ⟨(), _, rfl, rfl⟩

theorem tick : Quiet tick := by
  intro w
  obtain ⟨s, c, faults⟩ := w
  cases faults with
  | nil => exact .inl ⟨(), _, rfl, rfl⟩
  | cons fault faults =>
      cases fault with
      | false => exact .inl ⟨(), _, rfl, rfl⟩
      | true => exact .inr ⟨.osError, _, rfl, rfl⟩

theorem getClient (client : Nat) : Quiet (getClient client) :=
  bind getServer fun _ => ofOption _ _

theorem connect (site : Platform) : Quiet (Sql.connect site) := by
  refine bind tick fun _ => ?_
  cases site.sqlite with
  | none => exact pure ()
  | some sqlite =>
      exact bind (modifyServer _) fun _ => bind getServer fun _ => bind (ofOption _ _) fun _ =>
        setServer _

theorem modifyTables (site : Platform) (f : Tables → Tables) : Quiet (Sql.modifyTables site f) :=
  modifyServer _

/-- A statement of sqlite. -/
theorem sql {site : Platform} (f : Tables → Tables) :
    Quiet (Sql.connect site >>= fun _ => Sql.modifyTables site f) :=
  bind (connect site) fun _ => modifyTables site f

theorem onDisk (f : FileTree → Option FileTree) : Quiet (onDisk f) :=
  bind tick fun _ => bind getServer fun _ => bind (ofOption _ _) fun _ => setServer _

theorem readFile (site : Platform) (path : Text) : Quiet (readFile site path) :=
  bind tick fun _ => bind getServer fun _ => ofOption _ _

theorem createDecryptedFile (site : Platform) (path : Text) (aesKey : Bytes) :
    Quiet (createDecryptedFile site path aesKey) :=
  bind (readFile site path) fun _ => bind (ofOption _ _) fun _ => bind (onDisk _) fun _ =>
    bind (onDisk _) fun _ => pure _

theorem setValidCrc {site : Platform} (clientId : Bytes) (flag : Bool) :
    Quiet (Sql.setValidCrc site clientId flag) := sql _

theorem addFileDb {site : Platform} (file : File) : Quiet (Sql.addFileDb site file) := by
  refine bind (connect site) fun _ => bind getServer fun s => ?_
  split
  · exact raise _
  · exact modifyTables site _

theorem lastSeen {site : Platform} (draws : Draws) (client : Nat) :
    Quiet (lastSeen site draws client) :=
  bind (getClient client) fun _ => bind (sql _) fun _ => modifyServer _

end Quiet

namespace Tells

variable {α β : Type} {answers : List Answer}

theorem of_quiet {m : Py α} (hm : Quiet m) : Tells m [] := by
  intro w _
  obtain ⟨a, w', hrun, hconn⟩ | hraised := hm w
  · exact .inl ⟨a, w', hrun, hconn ▸ .nil _⟩
  · exact .inr hraised

theorem raise (e : PyError) : Tells (Act.raise e : Py α) answers :=
  fun w _ => .inr ⟨e, w, rfl, rfl⟩

/-- Nothing is sent before the last command of a sequence. -/
theorem bind {m : Py α} {f : α → Py β} (hm : Quiet m) (hf : ∀ a, Tells (f a) answers) :
    Tells (m >>= f) answers := by
  intro w hw
  obtain ⟨a, w₁, hrun, hconn⟩ | ⟨e, w₁, hrun, hconn⟩ := hm w
  · rw [bind_done hrun, ← hconn]
    exact hf a w₁ (hconn ▸ hw)
  · exact .inr ⟨e, w₁, bind_raised hrun, hconn⟩

theorem whenever {c : Prop} [Decidable c] {m : Py Unit} (hm : Tells m answers) :
    Tells (Act.whenever c m) (if c then answers else []) := by
  rw [Act.whenever]
  split
  · exact hm
  · exact of_quiet (.pure ())

theorem send {m : Message} (hfits : m.Fits) : Tells (onConn m.send) [m.header] := by
  intro w hw
  have hrun := send_stays hw hfits
  refine .inl ⟨(), { w with conn := w.conn.told m }, ?_, _, rfl⟩
  simp only [onConn, onPart, hrun]

end Tells

/-- The header of a 1603. -/
def crcAnswer : Answer :=
  ⟨General.fileReceivedCrc1603,
    General.clientIdSize + General.contentSizeSize + General.fileNameSize + General.crcSize⟩

section
variable (site : Site) (draws : Draws) {p : Packet}

theorem lastPacket_tells (file : File) (client : Client)
    (hsize : p.contentSize < 256 ^ General.contentSizeSize) :
    Tells (lastPacket site file client p.contentSize p.origFileSize) [crcAnswer] := by
  rw [lastPacket_eq site file p hsize]
  refine .bind (.createDecryptedFile site _ _) fun plain => .bind (.require _) fun _ => ?_
  have hcode : crcAnswer.code < 256 ^ General.codeSize := by decide
  have hpayload : crcAnswer.payloadSize < 256 ^ General.payloadSizeSize := by decide
  exact .send ⟨hcode, hpayload⟩

/-- A packet that does not fail is answered if it is the last one. -/
theorem storePacket_tells (clientId : Bytes)
    (hsize : p.contentSize < 256 ^ General.contentSizeSize) :
    Tells (Request.storePacket site draws clientId p)
      (if p.packetNumber = p.totalPackets then [crcAnswer] else []) := by
  refine .bind .getServer fun s => ?_
  split
  · exact .raise _
  · refine .bind (.getClient _) fun c => .bind (.onDisk _) fun _ => .bind (.onDisk _) fun _ =>
      .bind (.lastSeen draws _) fun _ => ?_
    split
    · refine .bind (.ofOption _ _) fun f => .bind (.whenever ?_) fun _ => ?_
      · exact .bind (.modifyServer _) fun _ => .setValidCrc _ _
      · exact .whenever (lastPacket_tells site f c hsize)
    · refine .bind (.require _) fun _ => .bind (.addFileDb _) fun _ =>
        .bind (.modifyServer _) fun _ => ?_
      exact .whenever (lastPacket_tells site _ c hsize)

end

/-! A packet as the client writes it, whatever the name, on a connection. -/

/-- The fields and the slice that `packetBytes` puts into a packet. -/
structure RawPacket where
  fileName : Bytes
  contentSize : Nat
  origFileSize : Nat
  packetNumber : Nat
  totalPackets : Nat
  content : Bytes

namespace RawPacket

def bytes (clientId : Bytes) (p : RawPacket) : Bytes :=
  packetBytes clientId p.fileName p.contentSize p.origFileSize p.packetNumber p.totalPackets
    p.content

structure Fits (p : RawPacket) : Prop where
  fileName : p.fileName.length ≤ General.fileNameSize
  contentSize : p.contentSize < 256 ^ General.contentSizeSize
  origFileSize : p.origFileSize < 256 ^ General.origFileSizeSize
  packetNumber : p.packetNumber < 256 ^ General.pucketNumberSize
  totalPackets : p.totalPackets < 256 ^ General.totalPucketsSize
  content : p.content.length ≤ ClientSide.packetMaxSize

/-- The packet as the server reads it, if its name is UTF-8. -/
def packet (p : RawPacket) (fileName : Text) : Packet :=
  { contentSize := p.contentSize, origFileSize := p.origFileSize,
    packetNumber := p.packetNumber, totalPackets := p.totalPackets,
    fileName := fileName.filter (· ≠ '\x00'), content := p.content }

/-- Its payload, with `rest` behind it. -/
def payload (p : RawPacket) (rest : Bytes) : Bytes :=
  toLittle General.contentSizeSize p.contentSize ++
    (toLittle General.origFileSizeSize p.origFileSize ++
      (toLittle General.pucketNumberSize p.packetNumber ++
        (toLittle General.totalPucketsSize p.totalPackets ++
          (padTo General.fileNameSize p.fileName ++ (p.content ++ rest)))))

end RawPacket

/-- A field of text, which need not be UTF-8. -/
theorem recvText_raw {size : Nat} {field : Bytes} (hfield : field.length ≤ size) (rest : Bytes)
    (c : Conn) : (recvText size).run (c.withAvail (padTo size field ++ rest)) =
      match decodeUtf8 (padTo size field) with
      | some text => (.done (text.filter (· ≠ '\x00')), c.withAvail rest)
      | none => (.raised .unicodeDecodeError, c.withAvail rest) := by
  rw [recvText, bind_done (recv_of_length (Octets.length_padTo hfield) rest c)]
  cases decodeUtf8 (padTo size field) with
  | none => rfl
  | some text => rfl

theorem recvPacket_raw {p : RawPacket} (hp : p.Fits) (rest : Bytes) (c : Conn) :
    (Request.recvPacket (payloadSizeWithoutMassage + p.content.length)).run
        (c.withAvail (p.payload rest)) =
      match decodeUtf8 (padTo General.fileNameSize p.fileName) with
      | some fileName => (.done (p.packet fileName), c.withAvail rest)
      | none => (.raised .unicodeDecodeError, c.withAvail (p.content ++ rest)) := by
  rw [RawPacket.payload, Request.recvPacket, bind_done (recvNumber_field hp.contentSize _ c),
    bind_done (recvNumber_field hp.origFileSize _ c),
    bind_done (recvNumber_field hp.packetNumber _ c),
    bind_done (recvNumber_field hp.totalPackets _ c)]
  have htext := recvText_raw hp.fileName (p.content ++ rest) c
  cases hdecode : decodeUtf8 (padTo General.fileNameSize p.fileName) with
  | none =>
      simp only [hdecode] at htext
      exact bind_raised htext
  | some fileName =>
      simp only [hdecode] at htext
      have hsize : ((payloadSizeWithoutMassage + p.content.length : Nat) : Int) -
          Request.packetFieldsSize = p.content.length := by
        have hfields : payloadSizeWithoutMassage = Request.packetFieldsSize := rfl
        omega
      have hcontent := recv_of_length (rfl : p.content.length = p.content.length) rest c
      rw [bind_done htext, hsize, bind_done hcontent]
      rfl

/-- The handler of the request that has arrived raises an exception. -/
def Raises (site : Site) (draws : Draws) (w : World) : Prop :=
  ∃ r conn e w', Request.getHeader.run w.conn = (.done (some r), conn) ∧
    (dispatch site draws r).run { w with conn := conn } = (.raised e, w')

section
variable (site : Site) (draws : Draws) {clientId : Bytes} {p : RawPacket}

/-- The header of a packet that has arrived. -/
theorem getHeader_raw (hid : clientId.length = General.clientIdSize) (hp : p.Fits) (rest : Bytes)
    (conn : Conn) : Request.getHeader.run (conn.withAvail (p.bytes clientId ++ rest)) =
      (.done (some ⟨clientId, General.version, General.sendFileRequest828,
        payloadSizeWithoutMassage + p.content.length⟩), conn.withAvail (p.payload rest)) := by
  have hsize : payloadSizeWithoutMassage + p.content.length < 256 ^ General.payloadSizeSize := by
    have hcontent := hp.content
    have hfields : payloadSizeWithoutMassage = Request.packetFieldsSize := rfl
    simp only [ClientSide.packetMaxSize, Request.packetFieldsSize, General.contentSizeSize,
      General.origFileSizeSize, General.pucketNumberSize, General.totalPucketsSize,
      General.fileNameSize, General.payloadSizeSize] at hcontent hfields ⊢
    omega
  have hcode : General.sendFileRequest828 < 256 ^ General.codeSize := by decide
  have hbytes : p.bytes clientId ++ rest = frame clientId General.sendFileRequest828
      (payloadSizeWithoutMassage + p.content.length) ++ p.payload rest := by
    simp only [RawPacket.bytes, packetBytes, RawPacket.payload, List.append_assoc]
  rw [hbytes]
  exact getHeader_frame hid hcode hsize (p.payload rest) conn

/-- The handler of a packet that has arrived, whatever fails. -/
theorem sendFileRequest_raw (hp : p.Fits) {w : World} {conn : Conn} {rest : Bytes}
    (hw : w.conn = conn.withAvail (p.payload rest)) (hstays : conn.sendsLeft = none) :
    (∃ w', (Request.sendFileRequest828 site draws ⟨clientId, General.version,
          General.sendFileRequest828, payloadSizeWithoutMassage + p.content.length⟩).run w =
          (.done (), w') ∧
        (conn.withAvail rest).Answered
          (if p.packetNumber = p.totalPackets then [crcAnswer] else []) w'.conn) ∨
      ∃ e w' left, (Request.sendFileRequest828 site draws ⟨clientId, General.version,
          General.sendFileRequest828, payloadSizeWithoutMassage + p.content.length⟩).run w =
          (.raised e, w') ∧ w'.conn = conn.withAvail left := by
  have hread := recvPacket_raw hp rest conn
  rw [← hw] at hread
  cases hdecode : decodeUtf8 (padTo General.fileNameSize p.fileName) with
  | none =>
      simp only [hdecode] at hread
      have hraised : (onConn (Request.recvPacket (payloadSizeWithoutMassage +
          p.content.length))).run w = (.raised .unicodeDecodeError,
            { w with conn := conn.withAvail (p.content ++ rest) }) := by
        simp only [onConn, onPart, hread]
      exact .inr ⟨_, _, _, bind_raised hraised, rfl⟩
  | some fileName =>
      simp only [hdecode] at hread
      have hdone : (onConn (Request.recvPacket (payloadSizeWithoutMassage +
          p.content.length))).run w =
            (.done (p.packet fileName), { w with conn := conn.withAvail rest }) := by
        simp only [onConn, onPart, hread]
      have htells := storePacket_tells (p := p.packet fileName) site draws clientId hp.contentSize
        { w with conn := conn.withAvail rest } hstays
      rw [Request.sendFileRequest828, bind_done hdone]
      obtain ⟨a, w', hrun, hanswered⟩ | ⟨e, w', hrun, hconn⟩ := htells
      · exact .inl ⟨w', hrun, hanswered⟩
      · exact .inr ⟨e, w', rest, hrun, hconn⟩

/-- The callback for a request whose handler answers so, or raises before it answers. -/
theorem read_answered {r : Request} {w : World} {conn c : Conn} {rest : Bytes}
    {answers : List Answer} (hheader : Request.getHeader.run w.conn = (.done (some r), c))
    (hversion : r.version = General.version) (hstays : conn.sendsLeft = none)
    (hcases : (∃ w', (dispatch site draws r).run { w with conn := c } = (.done (), w') ∧
        (conn.withAvail rest).Answered answers w'.conn) ∨
      ∃ e w' left, (dispatch site draws r).run { w with conn := c } = (.raised e, w') ∧
        w'.conn = conn.withAvail left) :
    (¬ Raises site draws w ∧
        (conn.withAvail rest).Answered answers ((read site draws).run w).2.conn) ∨
      Raises site draws w ∧
        ((read site draws).run w).2.conn = conn.cleaned.told (failureMessage false) := by
  have hget : (onConn Request.getHeader).run w = (.done (some r), { w with conn := c }) := by
    simp only [onConn, onPart, hheader]
  have hvalid : Request.headerValidation r = pure () := require_pos hversion _
  obtain ⟨w', hrun, hanswered⟩ | ⟨e, w', left, hrun, hconn⟩ := hcases
  · left
    constructor
    · intro hraises
      obtain ⟨r', c', e, w₂, hheader', hraised⟩ := hraises
      obtain ⟨hr, rfl⟩ := Prod.mk.inj (hheader.symm.trans hheader')
      obtain rfl := Option.some.inj (Outcome.done.inj hr)
      have hboth := hrun.symm.trans hraised
      cases hboth
    · have hread : (read site draws).run w = (.done (), w') := by
        rw [read]
        refine attempt_done ?_
        rw [bind_done hget]
        simp only [hvalid]
        exact hrun
      rw [hread]
      exact hanswered
  · right
    refine ⟨⟨_, _, e, w', hheader, hrun⟩, ?_⟩
    have hread : (read site draws).run w = (onConn (failure false)).run w' := by
      rw [read]
      refine attempt_raised (e := e) ?_
      rw [bind_done hget]
      simp only [hvalid]
      exact hrun
    have hleft : w'.conn.sendsLeft = none := by
      rw [hconn]
      exact hstays
    have hfailure := failure_stays hleft false
    rw [hread]
    simp only [onConn, onPart, hfailure]
    rw [hconn]
    rfl

/-- The callback for a packet that has arrived, with `rest` behind it: it reads the packet and
answers if that is the last one, or it fails, answers so, and drops the rest. -/
theorem read_raw (hid : clientId.length = General.clientIdSize) (hp : p.Fits) {w : World}
    {conn : Conn} {rest : Bytes} (hw : w.conn = conn.withAvail (p.bytes clientId ++ rest))
    (hstays : conn.sendsLeft = none) :
    (¬ Raises site draws w ∧ (conn.withAvail rest).Answered
        (if p.packetNumber = p.totalPackets then [crcAnswer] else [])
        ((read site draws).run w).2.conn) ∨
      Raises site draws w ∧
        ((read site draws).run w).2.conn = conn.cleaned.told (failureMessage false) := by
  have hheader := getHeader_raw hid hp rest conn
  rw [← hw] at hheader
  let w₁ : World := { w with conn := conn.withAvail (p.payload rest) }
  have hcases := @sendFileRequest_raw site draws clientId p hp w₁ conn rest rfl hstays
  exact read_answered site draws hheader rfl hstays hcases

end

/-! The 901 with which the client begins another attempt. It is not answered. -/

def noticeBytes (clientId fileName : Bytes) : Bytes :=
  frame clientId General.invalidCrcRequest901 General.fileNameSize ++
    padTo General.fileNameSize fileName

theorem Quiet.crcVerdict (site : Site) (draws : Draws) (clientId : Bytes) (fileName : Text) :
    Quiet (Request.crcVerdict site draws clientId General.invalidCrcRequest901 fileName) := by
  have h900 : ¬ General.invalidCrcRequest901 = General.validCrcRequest900 := by decide
  have h902 : ¬ General.invalidCrcRequest901 = General.invalidCrc4thRequest902 := by decide
  simp only [Request.crcVerdict, whenever_neg h900, whenever_neg h902]
  refine bind getServer fun s => ?_
  split
  · exact raise _
  · refine bind (getClient _) fun c => bind (lastSeen draws _) fun _ => ?_
    split
    · exact raise _
    · exact bind (ofOption _ _) fun f => bind (require _) fun _ => pure ()

/-- The callback for a 901 that has arrived, with `rest` behind it. -/
theorem read_notice (site : Site) (draws : Draws) {clientId fileName : Bytes}
    (hid : clientId.length = General.clientIdSize)
    (hname : fileName.length ≤ General.fileNameSize) {w : World} {conn : Conn} {rest : Bytes}
    (hw : w.conn = conn.withAvail (noticeBytes clientId fileName ++ rest))
    (hstays : conn.sendsLeft = none) :
    (¬ Raises site draws w ∧
        (conn.withAvail rest).Answered [] ((read site draws).run w).2.conn) ∨
      Raises site draws w ∧
        ((read site draws).run w).2.conn = conn.cleaned.told (failureMessage false) := by
  have hcode : General.invalidCrcRequest901 < 256 ^ General.codeSize := by decide
  have hsize : General.fileNameSize < 256 ^ General.payloadSizeSize := by decide
  have hheader := getHeader_frame hid hcode hsize
    (padTo General.fileNameSize fileName ++ rest) conn
  rw [← List.append_assoc, ← noticeBytes, ← hw] at hheader
  refine read_answered site draws hheader rfl hstays ?_
  have htext := recvText_raw hname rest conn
  let r : Request := ⟨clientId, General.version, General.invalidCrcRequest901, General.fileNameSize⟩
  have hdispatch : dispatch site draws r = Request.crcResponse900901902 site draws r := rfl
  rw [hdispatch]
  cases hdecode : decodeUtf8 (padTo General.fileNameSize fileName) with
  | none =>
      simp only [hdecode] at htext
      right
      refine ⟨.unicodeDecodeError, { w with conn := conn.withAvail rest }, rest, ?_, rfl⟩
      refine bind_raised ?_
      simp only [onConn, onPart, htext]
  | some name =>
      simp only [hdecode] at htext
      have hdone : (onConn (recvText General.fileNameSize)).run
          { w with conn := conn.withAvail (padTo General.fileNameSize fileName ++ rest) } =
            (.done (name.filter (· ≠ '\x00')), { w with conn := conn.withAvail rest }) := by
        simp only [onConn, onPart, htext]
      have hquiet := Quiet.crcVerdict site draws clientId (name.filter (· ≠ '\x00'))
        { w with conn := conn.withAvail rest }
      rw [Request.crcResponse900901902, bind_done hdone]
      obtain ⟨a, w', hrun, hconn⟩ | ⟨e, w', hrun, hconn⟩ := hquiet
      · exact .inl ⟨w', hrun, hconn ▸ .nil _⟩
      · exact .inr ⟨e, w', rest, hrun, hconn⟩

end SecureTransfer
