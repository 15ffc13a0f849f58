import SecureTransfer.Client.Echo
import SecureTransfer.Service.Emissions
import SecureTransfer.Service.Reconnection

/-!
The stream of answers to one client. What a server sends after a header has the length that the
header says, and the function of the client that waits for the answer takes the fields out of
the stream and leaves what is behind them.
-/

open Octets (Text encodeUtf8 toLittle ofLittle padTo uptoNul)
open Effects
open Dialogue (Prog)

namespace SecureTransfer

theorem Answers.fits {id : Bytes} {body : Body} {m : Message} (h : Answers id body m) :
    m.Fits := by
  obtain h | ⟨registration, -, rfl⟩ := h
  · exact h.fits
  · exact failureMessage_fits registration

/-- Behind the header are as many bytes as it says. -/
def Message.Exact (m : Message) : Prop := m.parts.flatten.length = m.header.payloadSize

theorem exact_registrationDone {id : Bytes} (hid : id.length = General.clientIdSize) :
    (Message.registrationDone id).Exact := by
  simp [Message.Exact, Message.registrationDone, hid]

theorem exact_aesKey {id : Bytes} (hid : id.length = General.clientIdSize) (code : Nat)
    (encrypted : Bytes) : (Message.aesKey code id encrypted).Exact := by
  simp [Message.Exact, Message.aesKey, hid]

theorem exact_reconnectionFailed {id : Bytes} (hid : id.length = General.clientIdSize) :
    (Message.reconnectionFailed id).Exact := by
  simp [Message.Exact, Message.reconnectionFailed, hid]

theorem exact_fileReceived {id : Bytes} (hid : id.length = General.clientIdSize)
    {fileName : Text} (hname : (encodeUtf8 fileName).length ≤ General.fileNameSize)
    (contentSize crc : Nat) : (Message.fileReceived id contentSize fileName crc).Exact := by
  simp only [Message.Exact, Message.fileReceived, List.flatten_cons, List.flatten_nil,
    List.length_append, List.length_nil, Octets.length_toLittle, Octets.length_padTo hname, hid]
  rfl

theorem exact_thankYou {id : Bytes} (hid : id.length = General.clientIdSize) :
    (Message.thankYou id).Exact := by
  simp [Message.Exact, Message.thankYou, hid]

theorem exact_failureMessage (registration : Bool) : (failureMessage registration).Exact := rfl

theorem Message.Exact.length_bytes {m : Message} (h : m.Exact) :
    m.bytes.length = 7 + m.header.payloadSize := by
  rw [← h]
  simp only [Message.bytes, List.length_append, Octets.length_toLittle]
  rfl

/-- An id without a zero byte, and a key, a size and a name within their bounds. -/
structure Bounded (id : Bytes) (body : Body) (m : Message) : Prop where
  length_id : id.length = General.clientIdSize
  id_nonzero : (0 : UInt8) ∉ id
  key : ∀ code encrypted, m = .aesKey code id encrypted → encrypted.length < 2 ^ 31 - 16
  contentSize : ∀ p, body = .packet p → p.contentSize < 2 ^ 31
  fileName : ∀ p, body = .packet p → (encodeUtf8 p.fileName).length ≤ 254
  fileName_nonzero : ∀ p, body = .packet p → (0 : UInt8) ∉ encodeUtf8 p.fileName

theorem Answers.exact {id : Bytes} {body : Body} {m : Message} (h : Answers id body m)
    (hb : Bounded id body m) : m.Exact := by
  obtain h | ⟨registration, -, rfl⟩ := h
  · cases h with
    | registrationDone huuid => exact exact_registrationDone huuid
    | reconnected | keyTaken => exact exact_aesKey hb.length_id _ _
    | reconnectionFailed => exact exact_reconnectionFailed hb.length_id
    | @fileReceived p crc hcrc =>
        exact exact_fileReceived hb.length_id (Nat.le_succ_of_le (hb.fileName p rfl)) _ _
    | thankYou => exact exact_thankYou hb.length_id
  · exact exact_failureMessage registration

namespace ClientSide

section
variable (kit : Toolkit) (client : Client) (tries : Nat) (request finish : Request)

/-! The functions that send a request, from where they wait for the answer. -/

def registeringAnswer : Prog Unit := do
  let answer ← Answer.getHeaderFromServer
  if answer.code = generalError1607 ∨ answer.code = registeringFailed1601 then do
    let (_, request) ← generalErrorHandle request
    registering kit client tries request.clearPayload
  else do
    unlessExit (answer.code = registeringDone1600)
    let client ← client.setClientID (← Answer.getClientID)
    let client ← sendPublicKeyGetAes kit client maxTries Request.new
    sendFile kit client maxTries Request.new

def publicKeyAnswer : Prog Client := do
  let answer ← Answer.getHeaderFromServer
  if answer.code = generalError1607 then do
    let (_, request) ← generalErrorHandle request
    sendPublicKeyGetAes kit client tries request.clearPayload
  else do
    unlessExit (answer.code = getPublicKeySendAes1602)
    getAesKeyFromServer client answer

def reconnectionAnswer : Prog (Nat × Client × Request) := do
  let answer ← Answer.getHeaderFromServer
  if answer.code = generalError1607 then do
    let (_, request) ← generalErrorHandle request
    reconnection kit client tries request.clearPayload
  else if answer.code = invalidReconnect1606 then do
    let _ ← recv clientIdSize
    pure (invalidReconnect1606, client, request.clearPayload.restartFailures)
  else do
    unlessExit (answer.code = validReconnect1605)
    let client ← getAesKeyFromServer client answer
    sendFile kit client maxTries Request.new
    pure (validReconnect1605, client, request)

/-- Each of these is the end of its function. -/
structure Waits : Prop where
  registering : registering kit client (tries + 1) request = do
    let fakeId := List.replicate 32 0
    let request := (request.setClientID fakeId).setCode registering825
    let request := request.setPayloadSize nameOfClientSize
    let request := request.appendStringPayload client.nameClient nameOfClientSize
    request.sendToServer
    registeringAnswer kit client tries request
  sendPublicKeyGetAes : sendPublicKeyGetAes kit client (tries + 1) request = do
    let keys ← ask .generateKeys
    let client := { client with privKey := keys.privateKey }
    createMeInfo kit client.nameClient client.privKey client.clientId
    createPrivKeyFile kit client.privKey
    let request := (request.setClientID client.clientId).setCode sendPublicKey826
    let request := request.setPayloadSize (nameOfClientSize + int32 keys.publicKey.length)
    let request := request.appendStringPayload client.nameClient nameOfClientSize
    let request := request.appendStringPayload keys.publicKey keys.publicKey.length
    request.sendToServer
    publicKeyAnswer kit client tries request
  reconnection : reconnection kit client (tries + 1) request = do
    let privKey ← readPrivKey kit
    let client := { client with privKey := privKey }
    let content ← ask (.load meInfo)
    let lines := linesOf (content.getD [])
    unlessExit (client.nameClient = lines.getD 0 [])
    let client ← client.setClientID (convertHexToBytes (lines.getD 1 []))
    let request := (request.setClientID client.clientId).setCode reconnect827
    let request := request.setPayloadSize nameOfClientSize
    let request := request.appendStringPayload client.nameClient nameOfClientSize
    request.sendToServer
    reconnectionAnswer kit client tries request

theorem waits : Waits kit client tries request := ⟨rfl, rfl, rfl⟩

end

/-- A part of the client that waits for an answer, an answer, and what is left to do when the
answer has been read. -/
structure Exchange where
  Result : Type
  reader : Prog Result
  answer : Message
  next : Prog Result

/-- What the client does with the answers to its requests. -/
inductive Handled (kit : Toolkit) (client : Client) (tries : Nat) (request finish : Request) :
    Body → Exchange → Prop where
  | registered {name : Text} {id : Bytes} (hid : id.length = clientIdSize) :
      Handled kit client tries request finish (.registration name)
        ⟨Unit, registeringAnswer kit client tries request, .registrationDone id, do
          let client ← sendPublicKeyGetAes kit { client with clientId := id } maxTries Request.new
          sendFile kit client maxTries Request.new⟩
  | registrationFailed {name : Text} (registration : Bool) :
      Handled kit client tries request finish (.registration name)
        ⟨Unit, registeringAnswer kit client tries request, failureMessage registration, do
          let (_, request) ← generalErrorHandle request
          registering kit client tries request.clearPayload⟩
  | keyTaken {name : Text} {key : Outcome PyError Bytes} {encrypted : Bytes}
      (hid : client.clientId.length = clientIdSize) (hz : (0 : UInt8) ∉ client.clientId)
      (henc : encrypted.length < 2 ^ 31 - 16) :
      Handled kit client tries request finish (.publicKey name key)
        ⟨Client, publicKeyAnswer kit client tries request,
          .aesKey General.gotPublicSendAes1602 client.clientId encrypted,
          pure { client with encryptedAes := encrypted }⟩
  | keyFailed {name : Text} {key : Outcome PyError Bytes} :
      Handled kit client tries request finish (.publicKey name key)
        ⟨Client, publicKeyAnswer kit client tries request, failureMessage false, do
          let (_, request) ← generalErrorHandle request
          sendPublicKeyGetAes kit client tries request.clearPayload⟩
  | reconnected {name : Text} {encrypted : Bytes}
      (hid : client.clientId.length = clientIdSize) (hz : (0 : UInt8) ∉ client.clientId)
      (henc : encrypted.length < 2 ^ 31 - 16) :
      Handled kit client tries request finish (.reconnection name)
        ⟨Nat × Client × Request, reconnectionAnswer kit client tries request,
          .aesKey General.validReconnectionAes1605 client.clientId encrypted, do
          let client := { client with encryptedAes := encrypted }
          sendFile kit client maxTries Request.new
          pure (validReconnect1605, client, request)⟩
  | reconnectionRefused {name : Text} {id : Bytes} (hid : id.length = clientIdSize) :
      Handled kit client tries request finish (.reconnection name)
        ⟨Nat × Client × Request, reconnectionAnswer kit client tries request,
          .reconnectionFailed id,
          pure (invalidReconnect1606, client, request.clearPayload.restartFailures)⟩
  | reconnectionFailed {name : Text} :
      Handled kit client tries request finish (.reconnection name)
        ⟨Nat × Client × Request, reconnectionAnswer kit client tries request,
          failureMessage false, do
          let (_, request) ← generalErrorHandle request
          reconnection kit client tries request.clearPayload⟩
  | fileReceived {p : Packet} {crc : Nat} (hid : client.clientId.length = clientIdSize)
      (hz : (0 : UInt8) ∉ client.clientId) (hname : client.fileName = encodeUtf8 p.fileName)
      (hlen : client.fileName.length ≤ 254) (hnul : (0 : UInt8) ∉ client.fileName)
      (hsize : p.contentSize < 2 ^ 31) (hcrc : crc < 2 ^ 32) :
      Handled kit client tries request finish (.packet p)
        ⟨Nat × Request × Request, crcChecking kit client request p.contentSize finish,
          .fileReceived client.clientId p.contentSize p.fileName crc,
          finishChecking client request finish crc⟩
  | packetFailed {p : Packet} (size : Int) :
      Handled kit client tries request finish (.packet p)
        ⟨Nat × Request × Request, crcChecking kit client request size finish,
          failureMessage false, do
          let (result, request) ← generalErrorHandle request
          pure (result, request, finish)⟩
  | thankYou {code : Nat} {fileName : Text} (hid : client.clientId.length = clientIdSize)
      (hz : (0 : UInt8) ∉ client.clientId) :
      Handled kit client tries request finish (.verdict code fileName)
        ⟨Unit, theEnd client (tries + 1) finish, .thankYou client.clientId, pure ()⟩
  | verdictFailed {code : Nat} {fileName : Text} :
      Handled kit client tries request finish (.verdict code fileName)
        ⟨Unit, theEnd client (tries + 1) finish, failureMessage false, do
          let (_, finish) ← generalErrorHandle finish
          finish.sendToServer
          theEnd client tries finish⟩

section
variable {kit : Toolkit} {client : Client} {tries : Nat} {request finish : Request}

/-! Having read an answer, the client does something else before it reads on. -/

theorem pauses_generalErrorHandle {α : Type} {f : Nat × Request → Prog α}
    (h : ∀ r, (f r).Pauses) : (generalErrorHandle request >>= f).Pauses := by
  simp only [generalErrorHandle, bind_assoc]
  by_cases hlast : request.addFailure.numOfFailures ≠ maxTries
  · rw [unlessExit_bind_pos hlast]
    exact h _
  · rw [unlessExit_bind_neg hlast]
    exact Prog.Pauses.exit

theorem pauses_registering : (registering kit client tries request).Pauses := by
  cases tries with
  | zero => exact Prog.Pauses.stuck
  | succ tries => exact Prog.Pauses.send _ _

theorem pauses_sendPublicKeyGetAes : (sendPublicKeyGetAes kit client tries request).Pauses := by
  cases tries with
  | zero => exact Prog.Pauses.stuck
  | succ tries => exact Prog.Pauses.query _ _

theorem pauses_reconnection : (reconnection kit client tries request).Pauses := by
  cases tries with
  | zero => exact Prog.Pauses.stuck
  | succ tries => exact Prog.Pauses.query _ _

theorem Handled.pauses {body : Body} {e : Exchange}
    (h : Handled kit client tries request finish body e) : e.next.Pauses := by
  cases h with
  | registered | reconnected => exact Prog.Pauses.query _ _
  | registrationFailed => exact pauses_generalErrorHandle fun _ => pauses_registering
  | keyFailed => exact pauses_generalErrorHandle fun _ => pauses_sendPublicKeyGetAes
  | reconnectionFailed => exact pauses_generalErrorHandle fun _ => pauses_reconnection
  | keyTaken | reconnectionRefused | thankYou => exact Prog.Pauses.ret _
  | fileReceived => exact Prog.Pauses.send _ _
  | packetFailed => exact pauses_generalErrorHandle fun _ => Prog.Pauses.ret _
  | verdictFailed => exact pauses_generalErrorHandle fun _ => Prog.Pauses.send _ _

/-- Nothing follows the header of a 1601 or a 1607. -/
theorem reading_failure {α : Type} (registration : Bool) (f : Answer → Prog α) (rest : Bytes) :
    (Answer.getHeaderFromServer >>= f).reading ((failureMessage registration).bytes ++ rest) =
      (f ⟨version, failureCode registration, 0⟩).reading rest := by
  have hsize : int32 ((failureMessage registration).header.payloadSize : Nat) = 0 := by
    rw [int32_of_lt] <;> simp only [failureMessage] <;> decide
  have hparts : (failureMessage registration).parts.flatten ++ rest = rest := by
    simp [failureMessage]
  rw [reading_header (failureMessage_fits registration), hsize, hparts]
  simp only [failureMessage]

theorem reading_registered {id : Bytes} (hid : id.length = clientIdSize) (rest : Bytes) :
    (registeringAnswer kit client tries request).reading
        ((Message.registrationDone id).bytes ++ rest) =
      (do let client ← sendPublicKeyGetAes kit { client with clientId := id } maxTries Request.new
          sendFile kit client maxTries Request.new : Prog Unit).reading rest := by
  have hm : (Message.registrationDone id).Fits := Message.fits_of_eq rfl (by decide) (by decide)
  have hfailed : ¬ ((Message.registrationDone id).header.code = generalError1607 ∨
      (Message.registrationDone id).header.code = registeringFailed1601) := by
    simp only [Message.registrationDone]
    decide
  have hdone : (Message.registrationDone id).header.code = registeringDone1600 := rfl
  have hparts : (Message.registrationDone id).parts.flatten = id := by
    simp [Message.registrationDone]
  rw [registeringAnswer, reading_header hm, hparts]
  simp only [hfailed, if_false]
  rw [unlessExit_bind_pos hdone, Answer.getClientID, reading_recv_bind hid]
  simp only [Client.setClientID, bind_assoc]
  rw [unlessExit_bind_pos hid, pure_bind]

theorem reading_reconnectionRefused {id : Bytes} (hid : id.length = clientIdSize)
    (rest : Bytes) :
    (reconnectionAnswer kit client tries request).reading
        ((Message.reconnectionFailed id).bytes ++ rest) =
      (pure (invalidReconnect1606, client, request.clearPayload.restartFailures), rest) := by
  have hm : (Message.reconnectionFailed id).Fits := Message.fits_of_eq rfl (by decide) (by decide)
  have h1607 : ¬ (Message.reconnectionFailed id).header.code = generalError1607 := by
    simp only [Message.reconnectionFailed]
    decide
  have h1606 : (Message.reconnectionFailed id).header.code = invalidReconnect1606 := rfl
  have hparts : (Message.reconnectionFailed id).parts.flatten = id := by
    simp [Message.reconnectionFailed]
  rw [reconnectionAnswer, reading_header hm, hparts]
  simp only [h1607, if_false]
  simp only [h1606, if_true]
  rw [reading_recv_bind hid]
  rfl

/-- The answer is taken from the stream, and what follows it is left. -/
theorem Handled.reading {body : Body} {e : Exchange}
    (h : Handled kit client tries request finish body e) (rest : Bytes) :
    e.reader.reading (e.answer.bytes ++ rest) = (e.next, rest) := by
  rw [← h.pauses rest]
  cases h with
  | registered hid => exact reading_registered hid rest
  | registrationFailed registration =>
      have hcode : failureCode registration = generalError1607 ∨
          failureCode registration = registeringFailed1601 := by
        cases registration <;> decide
      rw [registeringAnswer, reading_failure]
      simp only [hcode, if_true]
  | keyTaken hid hz henc =>
      refine @reading_aesKey Client client hid hz General.gotPublicSendAes1602 (by decide) _ henc _
        pure ?_ rest
      intro answer hcode
      rw [hcode, if_neg (by decide), unlessExit_bind_pos rfl, bind_pure]
  | keyFailed =>
      rw [publicKeyAnswer, reading_failure]
      rfl
  | reconnected hid hz henc =>
      refine @reading_aesKey _ client hid hz General.validReconnectionAes1605 (by decide) _ henc _
        (fun client => do
          sendFile kit client maxTries Request.new
          pure (validReconnect1605, client, request)) ?_ rest
      intro answer hcode
      rw [hcode, if_neg (by decide), if_neg (by decide), unlessExit_bind_pos rfl]
  | reconnectionRefused hid => exact reading_reconnectionRefused hid rest
  | reconnectionFailed =>
      rw [reconnectionAnswer, reading_failure]
      rfl
  | fileReceived hid hz hname hlen hnul hsize hcrc =>
      exact reading_fileReceived kit hid hz hname hlen hnul request finish hsize hcrc rest
  | packetFailed size =>
      rw [crcChecking, reading_failure]
      rfl
  | thankYou hid hz => exact reading_thankYou hid hz tries finish rest
  | verdictFailed =>
      rw [theEnd, reading_failure]
      rfl

theorem Handled.exact {body : Body} {e : Exchange}
    (h : Handled kit client tries request finish body e) : e.answer.Exact := by
  cases h with
  | registered hid => exact exact_registrationDone hid
  | keyTaken hid | reconnected hid => exact exact_aesKey hid _ _
  | reconnectionRefused hid => exact exact_reconnectionFailed hid
  | fileReceived hid hz hname hlen =>
      exact exact_fileReceived hid (hname ▸ Nat.le_succ_of_le hlen) _ _
  | thankYou hid => exact exact_thankYou hid
  | registrationFailed | keyFailed | reconnectionFailed | packetFailed | verdictFailed =>
      exact exact_failureMessage _

/-- The client expects what this answer holds. -/
def Expects (client : Client) (id : Bytes) : Body → Prop
  | .registration _ => True
  | .packet p => client.clientId = id ∧ client.fileName = encodeUtf8 p.fileName
  | .reconnection _ | .publicKey _ _ | .verdict _ _ => client.clientId = id

/-- Every answer is read by the function that asked. -/
theorem exists_handled {id : Bytes} {body : Body} {m : Message} (h : Answers id body m)
    (hb : Bounded id body m) (hexpects : Expects client id body) :
    ∃ e, Handled kit client tries request finish body e ∧ e.answer = m := by
  obtain h | ⟨registration, hregistration, rfl⟩ := h
  · cases h with
    | registrationDone huuid => exact ⟨_, .registered huuid, rfl⟩
    | reconnected =>
        obtain rfl : client.clientId = id := hexpects
        exact ⟨_, .reconnected hb.length_id hb.id_nonzero (hb.key _ _ rfl), rfl⟩
    | reconnectionFailed => exact ⟨_, .reconnectionRefused hb.length_id, rfl⟩
    | keyTaken =>
        obtain rfl : client.clientId = id := hexpects
        exact ⟨_, .keyTaken hb.length_id hb.id_nonzero (hb.key _ _ rfl), rfl⟩
    | @fileReceived p crc hcrc =>
        obtain ⟨rfl, hname⟩ : client.clientId = id ∧ client.fileName = _ := hexpects
        exact ⟨_, .fileReceived hb.length_id hb.id_nonzero hname (hname ▸ hb.fileName p rfl)
          (hname ▸ hb.fileName_nonzero p rfl) (hb.contentSize p rfl) hcrc, rfl⟩
    | thankYou =>
        obtain rfl : client.clientId = id := hexpects
        exact ⟨_, .thankYou hb.length_id hb.id_nonzero, rfl⟩
  · cases body with
    | registration name => exact ⟨_, .registrationFailed registration, rfl⟩
    | reconnection name =>
        obtain rfl : registration = false := by simpa [Body.isRegistration] using hregistration
        exact ⟨_, .reconnectionFailed, rfl⟩
    | publicKey name key =>
        obtain rfl : registration = false := by simpa [Body.isRegistration] using hregistration
        exact ⟨_, .keyFailed, rfl⟩
    | packet p =>
        obtain rfl : registration = false := by simpa [Body.isRegistration] using hregistration
        exact ⟨_, .packetFailed 0, rfl⟩
    | verdict code fileName =>
        obtain rfl : registration = false := by simpa [Body.isRegistration] using hregistration
        exact ⟨_, .verdictFailed, rfl⟩

end

/-- The answers are read from the stream one after another, each with its header and the bytes
behind it, and this is left. -/
inductive InStep (rest : Bytes) : List Exchange → Bytes → Prop where
  | done : InStep rest [] rest
  | read {e : Exchange} {es : List Exchange} {stream left : Bytes}
      (hread : e.reader.reading stream = (e.next, left))
      (hlength : stream.length = 7 + e.answer.header.payloadSize + left.length)
      (hlater : InStep rest es left) : InStep rest (e :: es) stream

/-- Some function of a client handles the answer. -/
def Exchange.IsHandled (kit : Toolkit) (e : Exchange) : Prop :=
  ∃ client tries request finish body, Handled kit client tries request finish body e

theorem inStep_of_handled {kit : Toolkit} (rest : Bytes) {es : List Exchange}
    (h : ∀ e ∈ es, e.IsHandled kit) : InStep rest es (es.flatMap (·.answer.bytes) ++ rest) := by
  induction es with
  | nil => exact .done
  | cons e es ih =>
      obtain ⟨client, tries, request, finish, body, he⟩ := h e List.mem_cons_self
      have hlater := ih fun e' he' => h e' (List.mem_cons_of_mem e he')
      rw [List.flatMap_cons, List.append_assoc]
      refine .read (he.reading _) ?_ hlater
      rw [List.length_append, he.exact.length_bytes]

/-- The message of a callback is an answer to what it has received. -/
theorem answers_message {site : Site} {draws : Draws} {s : Server} {r : Reception} {m : Message}
    (h : r.message site draws s = some m) : r.incoming.Answers m := by
  obtain ⟨incoming, unread, conn⟩ := r
  cases incoming with
  | ended | waits => cases h
  | malformed registration => exact (Option.some.inj h).symm
  | request id body =>
      rw [message_request (r := ⟨.request id body, unread, conn⟩) rfl] at h
      cases hreply : (serve site draws s id body).2 with
      | silent | waits =>
          rw [hreply] at h
          cases h
      | answer m' =>
          rw [hreply] at h
          obtain rfl := Option.some.inj h
          exact .inl (serve_emits hreply)
      | rejected | rejectedUnread =>
          rw [hreply] at h
          exact .inr ⟨body.isRegistration, fun h => h, (Option.some.inj h).symm⟩

/-- A callback sends the message of its reply, with the id, the key, the size, the name and
the CRC that the handler computed, or nothing where it has none; whatever fails, what it sends
is nothing or one answer to its request. Behind the header of an answer are as many bytes as
it says; the function that asked takes it from the stream and leaves the rest; and so any
answers are read one after another. -/
theorem answers_in_step (kit : Toolkit) :
    (∀ (site : Site) draws s c, Reachable site s → draws.uuid ∉ s.ids → c.sendsLeft = none →
      ((read site draws).run (calm s c)).2.conn.sent =
          c.sent ++ ((receive c).message site draws s).elim [] Message.bytes ∧
        ∀ m, (receive c).message site draws s = some m → (receive c).incoming.Answers m) ∧
    (∀ (site : Platform) draws w, w.conn.sendsLeft = none →
      ((read site draws).run w).2.conn.sent = w.conn.sent ∨
        ∃ m, (receive w.conn).incoming.Answers m ∧
          ((read site draws).run w).2.conn.sent = w.conn.sent ++ m.bytes) ∧
    (∀ id body m, Answers id body m → Bounded id body m →
      m.Fits ∧ m.parts.flatten.length = m.header.payloadSize ∧
        ∀ client tries request finish, Expects client id body →
          ∃ e, Handled kit client tries request finish body e ∧ e.answer = m) ∧
    (∀ client tries request, Waits kit client tries request) ∧
    (∀ client tries request finish body e, Handled kit client tries request finish body e →
      ∀ rest, e.reader.reading (e.answer.bytes ++ rest) = (e.next, rest)) ∧
    ∀ es rest, (∀ e ∈ es, Exchange.IsHandled kit e) →
      InStep rest es (es.flatMap (·.answer.bytes) ++ rest) := by
  refine ⟨?_, fun site draws => read_emits site draws, ?_, waits kit, ?_, ?_⟩
  · intro site draws s c hs hfresh hc
    exact ⟨read_sent site draws hs.wellFormed hfresh hc, fun m => answers_message⟩
  · intro id body m hm hb
    exact ⟨hm.fits, hm.exact hb, fun client tries request finish => exists_handled hm hb⟩
  · intro client tries request finish body e he rest
    exact he.reading rest
  · intro es rest hes
    exact inStep_of_handled rest hes

/-- The answers to an upload after a registration: 1600, 1602, 1603 and 1604. -/
def uploadExchanges : List Exchange :=
  [⟨Unit, registeringAnswer bareKit (namedClient []) 3 Request.new,
    .registrationDone oneClientId, do
      let client ← sendPublicKeyGetAes bareKit (namedClient oneClientId) maxTries Request.new
      sendFile bareKit client maxTries Request.new⟩,
    ⟨Client, publicKeyAnswer bareKit (namedClient oneClientId) 3 Request.new,
      .aesKey General.gotPublicSendAes1602 oneClientId [7, 0, 7],
      pure { namedClient oneClientId with encryptedAes := [7, 0, 7] }⟩,
    ⟨Nat × Request × Request,
      crcChecking bareKit (namedClient oneClientId) Request.new (4112 : Nat) Request.new,
      .fileReceived oneClientId 4112 ['a'] 5,
      finishChecking (namedClient oneClientId) Request.new Request.new 5⟩,
    ⟨Unit, theEnd (namedClient oneClientId) 4 Request.new, .thankYou oneClientId, pure ()⟩]

theorem handled_uploadExchanges : ∀ e ∈ uploadExchanges, e.IsHandled bareKit := by
  intro e he
  simp only [uploadExchanges, List.mem_cons, List.not_mem_nil, or_false] at he
  obtain rfl | rfl | rfl | rfl := he
  · exact ⟨namedClient [], 3, Request.new, Request.new, .registration ['a'],
    .registered (by decide)⟩
  · exact ⟨namedClient oneClientId, 3, Request.new, Request.new, .publicKey ['a'] .blocked,
      .keyTaken (by decide) (by decide) (by decide)⟩
  · exact ⟨namedClient oneClientId, 3, Request.new, Request.new, .packet (openingPacket ['a']),
      .fileReceived (by decide) (by decide) (by decide) (by decide) (by decide) (by decide)
        (by decide)⟩
  · exact ⟨namedClient oneClientId, 3, Request.new, Request.new, .verdict 900 ['a'],
      .thankYou (by decide) (by decide)⟩

/-- The answer to a client that was never registered, and the four answers above. -/
theorem answers_in_step_upload :
    ((read bareSite (sameDraws 2)).run (calm startedServer reconnectionConn)).2.conn.sent =
      (Message.reconnectionFailed oneClientId).bytes ∧
    InStep [1] uploadExchanges (uploadExchanges.flatMap (·.answer.bytes) ++ [1]) := by
  obtain ⟨hsent, -, -, -, -, hstep⟩ := answers_in_step bareKit
  refine ⟨?_, hstep uploadExchanges [1] handled_uploadExchanges⟩
  have hmessage : (receive reconnectionConn).message bareSite (sameDraws 2) startedServer =
      some (.reconnectionFailed oneClientId) := by
    rw [message_request receive_reconnectionConn]
    rfl
  obtain ⟨hbytes, -⟩ := hsent bareSite (sameDraws 2) startedServer reconnectionConn
    reachable_startedServer (by decide) rfl
  rw [hmessage] at hbytes
  exact hbytes

end ClientSide
end SecureTransfer
