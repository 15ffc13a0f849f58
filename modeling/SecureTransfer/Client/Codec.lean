import SecureTransfer.Client.Packets

/-!
Everything the client sends on a connection, in any run, is a request of its own: its id,
its name, its key and the next slice of its ciphertext, as it holds them at that point.
-/

open Octets (Text encodeUtf8 toLittle ofLittle padTo uptoNul uptoNul_encodeUtf8)
open Dialogue

namespace SecureTransfer
namespace ClientSide

abbrev Observation : Type := Prog.Observation Bytes Query Query.Result

/-- The client has come so far, and is about to do this. -/
abbrev Comes (kit : Toolkit) (history : List Observation) (p : Prog Unit) : Prop :=
  Prog.Reaches (fun size data => data.length = size) (main kit) history p

/-- What `encrypt_file` makes of a file under a key. -/
def ciphertext (kit : Toolkit) (key file : Bytes) : Bytes :=
  BlockMode.cbcEncrypt kit.cipher key (file.take (file.length % 2 ^ 32))

/-- The names in transfer.info, the public keys that can be generated and the contents
that the file to send can have. -/
structure Setting (kit : Toolkit) where
  clientName : Text
  fileName : Text
  pathToFile : Bytes
  Key : Bytes → Prop
  Content : Bytes → Prop
  clientName_fits : NameFits nameOfClientMaxSize clientName
  fileName_fits : NameFits 254 fileName
  findFileName_eq : findFileName pathToFile = encodeUtf8 fileName
  length_key : ∀ key, Key key → key.length = General.publicKeySize
  length_ciphertext : ∀ key file, Content file → (ciphertext kit key file).length ≤ maxCiphertext

variable {kit : Toolkit}

/-- The results of queries in this setting. -/
def Setting.Allows (z : Setting kit) : ∀ q : Query, q.Result → Prop
  | .load path, loaded =>
      (path = transferInfo → ∃ content, loaded = some content ∧
        (linesOf content).getD 1 [] = encodeUtf8 z.clientName ∧
        (linesOf content).getD 2 [] = z.pathToFile) ∧
      (path = z.pathToFile → ∀ file, loaded = some file → z.Content file)
  | .generateKeys, pair => z.Key pair.publicKey
  | .save _ _, _ => True
  | .connect _ _, _ => True

/-- What the client holds at some point of a run. `fields` are the fields read since the
last request or query; a request is `unanswered` until the first of them. From the key in
a 1602 or 1605 on the run is `keyed`, and every file that is read then is the file to send;
`written` counts the requests since. -/
structure Holdings where
  fields : List Bytes
  unanswered : Bool
  keyed : Bool
  id : Bytes
  publicKey : Bytes
  privKey : Bytes
  encryptedAes : Bytes
  file : Bytes
  written : Nat
deriving DecidableEq, Repr

namespace Holdings

def new : Holdings := ⟨[], false, false, [], [], [], [], [], 0⟩

def write (h : Holdings) : Holdings :=
  { h with fields := [], unanswered := true, written := h.written + 1 }

/-- The second field of an answer is its code, the fourth of a 1600 the id, the fifth of a
1602 or 1605 the encrypted key. -/
def read (data : Bytes) (h : Holdings) : Holdings :=
  let noted := { h with fields := h.fields ++ [data], unanswered := false }
  match h.fields with
  | [_, code, _] =>
      if ofLittle code = registeringDone1600 then { noted with id := data } else noted
  | [_, code, _, _] =>
      if ofLittle code = getPublicKeySendAes1602 ∨ ofLittle code = validReconnect1605 then
        { noted with keyed := true, encryptedAes := data }
      else noted
  | _ => noted

/-- priv.key holds the private key, the second line of me.info the id. -/
def load (kit : Toolkit) (path content : Bytes) (h : Holdings) : Holdings :=
  let noted := { h with fields := [] }
  if h.keyed then { noted with file := content, written := 0 }
  else if path = privKeyFile then
    { noted with privKey := kit.base64Decode (linesOf content).flatten }
  else if path = meInfo then
    { noted with id := convertHexToBytes ((linesOf content).getD 1 []) }
  else noted

def note (kit : Toolkit) (h : Holdings) : Observation → Holdings
  | .sent _ => h.write
  | .read data => h.read data
  | .asked (.load path) content => h.load kit path (content.getD [])
  | .asked .generateKeys keys =>
      { h with fields := [], publicKey := keys.publicKey, privKey := keys.privateKey }
  | .asked (.save _ _) _ | .asked (.connect _ _) _ => { h with fields := [] }

/-- The ciphertext of the file that was read last, under the key of the last answer. -/
def Encrypts (kit : Toolkit) (h : Holdings) (encrypted : Bytes) : Prop :=
  ∃ key, kit.rsaDecrypt h.privKey h.encryptedAes = some key ∧
    encrypted = ciphertext kit key h.file

end Holdings

/-- The requests that the client may send with what it holds: the packets of a file in
their order, and a verdict after the last of them. -/
inductive Setting.Asks (z : Setting kit) (h : Holdings) : Bytes → Body → Prop where
  | registration : Asks z h (List.replicate clientIdSize 0) (.registration z.clientName)
  | reconnection (hid : h.id.length = clientIdSize) :
      Asks z h h.id (.reconnection z.clientName)
  | publicKey (hid : h.id.length = clientIdSize) (hkey : z.Key h.publicKey) :
      Asks z h h.id (.publicKey z.clientName (.done h.publicKey))
  | packet {encrypted : Bytes} (hid : h.id.length = clientIdSize) (hfile : z.Content h.file)
      (hencrypted : h.Encrypts kit encrypted) (hnext : h.written < packetCount encrypted.length) :
      Asks z h h.id (.packet (packetOf encrypted h.file z.fileName h.written))
  | verdict {encrypted : Bytes} {code : Nat} (hid : h.id.length = clientIdSize)
      (hcode : code = validCrc900 ∨ code = wrongCrcTryAgain901 ∨ code = wrongCrc4th902)
      (hencrypted : h.Encrypts kit encrypted)
      (hlast : packetCount encrypted.length ≤ h.written) :
      Asks z h h.id (.verdict code z.fileName)

variable {z : Setting kit}

theorem NameFits.mono {small size : Nat} {name : Text} (h : NameFits small name)
    (hle : small ≤ size) : NameFits size name := ⟨h.1.trans hle, h.2⟩

theorem Setting.fileName_field (z : Setting kit) : NameFits General.fileNameSize z.fileName :=
  NameFits.mono z.fileName_fits (by decide)

theorem Setting.clientName_field (z : Setting kit) :
    NameFits General.clientNameSize z.clientName :=
  NameFits.mono z.clientName_fits (by decide)

theorem Setting.length_encrypted (z : Setting kit) {h : Holdings} {encrypted : Bytes}
    (hfile : z.Content h.file) (hencrypted : h.Encrypts kit encrypted) :
    encrypted.length ≤ maxCiphertext := by
  obtain ⟨key, -, rfl⟩ := hencrypted
  exact z.length_ciphertext key h.file hfile

theorem Setting.Asks.fits {h : Holdings} {id : Bytes} {body : Body} (hasks : z.Asks h id body) :
    id.length = General.clientIdSize ∧ body.Fits := by
  cases hasks with
  | registration => exact ⟨List.length_replicate, z.clientName_field⟩
  | reconnection hid => exact ⟨hid, z.clientName_field⟩
  | publicKey hid hkey => exact ⟨hid, z.clientName_field, _, rfl, z.length_key _ hkey⟩
  | packet hid hfile hencrypted hnext =>
      exact ⟨hid, packetOf_fits _ (z.length_encrypted hfile hencrypted) z.fileName_field hnext⟩
  | verdict hid hcode => exact ⟨hid, z.fileName_field, hcode⟩

/-- One write to the socket is one of these requests. -/
def Setting.IsRequest (z : Setting kit) (h : Holdings) (data : Bytes) : Prop :=
  ∃ id body, z.Asks h id body ∧ data = requestBytes id body

/-- Every write is a request, and an answer is read only after one. -/
def Setting.Permits (z : Setting kit) (h : Holdings) : Observation → Prop
  | .sent data => z.IsRequest h data
  | .read _ => h.fields = [] → h.unanswered = true
  | .asked _ _ => True

def Setting.rules (z : Setting kit) : Prog.Rules Bytes Query Query.Result Holdings where
  okRecv := fun size data => data.length = size
  okQuery := z.Allows
  note := Holdings.note kit
  permits := z.Permits
  mayStick := True

abbrev Setting.Sends {α : Type} (z : Setting kit) (post : α → Holdings → Prop) (h : Holdings)
    (p : Prog α) : Prop := Prog.Keeps z.rules post h p

/-! Functions that send nothing, or one request. -/

section
variable {α : Type} {post : α → Holdings → Prop} {h : Holdings}

theorem sends_pure {a : α} (ha : post a h) : z.Sends post h (pure a) := .ret ha

theorem sends_stuck : z.Sends post h (.stuck : Prog α) := .stuck trivial

theorem sends_recv (size : Nat) (hreads : h.fields = [] → h.unanswered = true) :
    z.Sends (fun data t => data.length = size ∧ t = h.read data) h (recv size) :=
  .recv (fun _ _ => hreads) fun _ hdata => .ret ⟨hdata, rfl⟩

theorem sends_ask (q : Query) :
    z.Sends (fun r t => z.Allows q r ∧ t = h.note kit (.asked q r)) h (ask q) :=
  .query (fun _ _ => trivial) fun _ hr => .ret ⟨hr, rfl⟩

theorem sends_unlessExit (c : Prop) [Decidable c] :
    z.Sends (fun _ t => c ∧ t = h) h (unlessExit c) := by
  rw [unlessExit]
  split
  · exact .ret ⟨‹c›, rfl⟩
  · exact .exit

theorem sends_orExit (o : Option α) : z.Sends (fun a t => o = some a ∧ t = h) h (orExit o) := by
  cases o with
  | none => exact .exit
  | some a => exact .ret ⟨rfl, rfl⟩

theorem sends_sendToServer {r : Request} (hr : z.IsRequest h r.massage) :
    z.Sends (fun _ t => t = h.write) h r.sendToServer := .send hr (.ret rfl)

/-- A read behind the first field of an answer. -/
theorem sends_field (size : Nat) (hfields : h.fields ≠ []) :
    z.Sends (fun data t => data.length = size ∧ t = h.read data) h (recv size) :=
  sends_recv size fun hnil => absurd hnil hfields

theorem sends_generalErrorHandle (r : Request) :
    z.Sends (fun result t => result = (tryAgain, r.addFailure) ∧ t = h) h
      (generalErrorHandle r) := by
  refine (sends_unlessExit _).bind ?_
  intro _ t ht
  exact sends_pure ⟨rfl, ht.2⟩

/-! The same before the rest of a program. -/

section
variable {β : Type} {post' : β → Holdings → Prop}

theorem sends_unlessExit_bind {c : Prop} [Decidable c] {f : Unit → Prog β}
    (hf : c → z.Sends post' h (f ())) : z.Sends post' h (unlessExit c >>= f) := by
  refine (sends_unlessExit c).bind ?_
  intro _ t ht
  obtain ⟨hc, rfl⟩ := ht
  exact hf hc

theorem sends_orExit_bind {o : Option α} {f : α → Prog β}
    (hf : ∀ a, o = some a → z.Sends post' h (f a)) : z.Sends post' h (orExit o >>= f) := by
  refine (sends_orExit o).bind ?_
  intro a t ht
  obtain ⟨ha, rfl⟩ := ht
  exact hf a ha

theorem sends_generalErrorHandle_bind {r : Request} {f : Nat × Request → Prog β}
    (hf : z.Sends post' h (f (tryAgain, r.addFailure))) :
    z.Sends post' h (generalErrorHandle r >>= f) := by
  refine (sends_generalErrorHandle r).bind ?_
  intro result t ht
  obtain ⟨rfl, rfl⟩ := ht
  exact hf

end

/-- What is held once the header of an answer has been read. -/
def Holdings.headed (version code size : Bytes) (h : Holdings) : Holdings :=
  { h with fields := [version, code, size], unanswered := false }

theorem sends_getHeader (hfields : h.fields = []) (hunanswered : h.unanswered = true) :
    z.Sends (fun answer t => ∃ version code size, answer.code = ofLittle code ∧
      t = h.headed version code size) h Answer.getHeaderFromServer := by
  obtain ⟨fields, unanswered, keyed, id, publicKey, privKey, encryptedAes, file, written⟩ := h
  obtain rfl : fields = [] := hfields
  refine (sends_recv versionSize fun _ => hunanswered).bind ?_
  intro version t ht
  obtain ⟨-, rfl⟩ := ht
  refine (sends_field codeSize (List.cons_ne_nil _ _)).bind ?_
  intro code t ht
  obtain ⟨-, rfl⟩ := ht
  refine (sends_field payloadSizeSize (List.cons_ne_nil _ _)).bind ?_
  intro size t ht
  obtain ⟨-, rfl⟩ := ht
  refine sends_unlessExit_bind fun _ => ?_
  exact sends_pure ⟨version, code, size, rfl, rfl⟩

/-- One request, and the header of its answer. -/
theorem sends_exchange {r : Request} {f : Answer → Prog α} (hr : z.IsRequest h r.massage)
    (hf : ∀ (answer : Answer) (version code size : Bytes), answer.code = ofLittle code →
      z.Sends post (h.write.headed version code size) (f answer)) :
    z.Sends post h (do
      r.sendToServer
      let answer ← Answer.getHeaderFromServer
      f answer) := by
  refine (sends_sendToServer hr).bind ?_
  intro _ t ht
  subst ht
  refine (sends_getHeader rfl rfl).bind ?_
  intro answer t ht
  obtain ⟨version, code, size, hcode, rfl⟩ := ht
  exact hf answer version code size hcode

end

/-! The request objects. -/

/-- An object to which nothing has been appended. -/
def Request.Empty (r : Request) : Prop := r.version = Request.new.version ∧ r.payload = []

theorem setClientID_of_length {id : Bytes} (h : id.length = clientIdSize) (r : Request) :
    (r.setClientID id).clientId = id := by
  rw [Request.setClientID, padTo, h, Nat.sub_self, List.replicate_zero, List.append_nil,
    List.take_of_length_le (Nat.le_of_eq h)]

theorem Request.Empty.ready {client : Client} (hid : client.clientId.length = clientIdSize)
    {request : Request} (h : request.Empty) :
    ReadyToSend client.clientId ((request.setClientID client.clientId).setCode sendFile828) :=
  ⟨setClientID_of_length hid request, h.1, storeLittle_of_lt (by decide), h.2⟩

/-- The client object of a run in this setting. -/
structure Setting.Names (z : Setting kit) (client : Client) : Prop where
  nameClient : client.nameClient = encodeUtf8 z.clientName
  fileName : client.fileName = encodeUtf8 z.fileName
  pathToFile : client.pathToFile = z.pathToFile

/-- A request with a name and nothing else. -/
theorem massage_name {r : Request} (hr : r.Empty) {id : Bytes} {idBytes : Bytes} {code : Nat}
    {name : Text} {body : Body} (hid : (r.setClientID idBytes).clientId = id)
    (hcode : code < 256 ^ codeSize) (hbody : body.code = code)
    (hpayload : body.payload = nameField nameOfClientSize name)
    (hname : NameFits nameOfClientSize name) :
    ((((r.setClientID idBytes).setCode code).setPayloadSize nameOfClientSize).appendStringPayload
      (encodeUtf8 name) nameOfClientSize).massage = requestBytes id body := by
  apply massage_eq
  · exact hid
  · exact hr.1
  · rw [hbody]
    exact storeLittle_of_lt hcode
  · rw [hpayload, length_nameField hname]
    exact storeLittle_of_lt (by decide)
  · rw [hpayload]
    simp [Request.appendStringPayload, Request.setPayloadSize, Request.setCode,
      Request.setClientID, hr.2, nameField]

theorem name_request {h : Holdings} {r : Request} (hr : r.Empty) {id idBytes : Bytes} {code : Nat}
    {name : Text} {body : Body} (hid : (r.setClientID idBytes).clientId = id)
    (hbody : body.code = code) (hpayload : body.payload = nameField nameOfClientSize name)
    (hname : NameFits nameOfClientSize name) (hasks : z.Asks h id body) {field : Bytes}
    (hfield : field = encodeUtf8 name) :
    z.IsRequest h ((((r.setClientID idBytes).setCode code).setPayloadSize
      nameOfClientSize).appendStringPayload field nameOfClientSize).massage := by
  have hcode : code < 256 ^ codeSize := hbody ▸ Body.code_lt hasks.fits.2
  rw [hfield]
  exact ⟨id, body, hasks, massage_name hr hid hcode hbody hpayload hname⟩

theorem massage_publicKey {r : Request} (hr : r.Empty) {client : Client} {name : Text}
    (hname : client.nameClient = encodeUtf8 name) (hfits : NameFits nameOfClientSize name)
    (hid : client.clientId.length = clientIdSize) {key : Bytes}
    (hlen : key.length = General.publicKeySize) :
    (((((r.setClientID client.clientId).setCode sendPublicKey826).setPayloadSize
      (nameOfClientSize + int32 key.length)).appendStringPayload client.nameClient
        nameOfClientSize).appendStringPayload key key.length).massage =
      requestBytes client.clientId (.publicKey name (.done key)) := by
  have hlen : key.length = 160 := hlen
  have hfield := length_nameField hfits
  apply massage_eq
  · exact setClientID_of_length hid r
  · exact hr.1
  · exact storeLittle_of_lt (by decide)
  · have hsize : ((nameOfClientSize : Nat) : Int) + int32 key.length = (415 : Nat) := by
      rw [hlen]
      rfl
    have hpayload : (Body.publicKey name (.done key)).payload.length = 415 := by
      have hfield : (nameField General.clientNameSize name).length = 255 := hfield
      simp only [Body.payload, List.length_append, hfield, hlen]
    simp only [Request.appendStringPayload, Request.setPayloadSize, hsize, hpayload]
    exact storeLittle_of_lt (by decide)
  · have hpad : padTo key.length key = key := by
      rw [padTo, Nat.sub_self, List.replicate_zero, List.append_nil]
    simp only [Request.appendStringPayload, Request.setPayloadSize, Request.setCode,
      Request.setClientID, hr.2, List.nil_append, hpad, hname]
    rfl

/-! The functions of client.cpp. -/

/-- The client object and what the run shows the client to hold. -/
structure Setting.Registered (z : Setting kit) (client : Client) (h : Holdings) : Prop where
  names : z.Names client
  length_id : client.clientId.length = clientIdSize
  id : h.id = client.clientId

/-- With the keys that the file is encrypted with. -/
structure Setting.Equipped (z : Setting kit) (client : Client) (h : Holdings) : Prop
    extends z.Registered client h where
  keyed : h.keyed = true
  privKey : h.privKey = client.privKey
  encryptedAes : h.encryptedAes = client.encryptedAes

theorem publicKey_request {r : Request} (hr : r.Empty) {client : Client} {h : Holdings}
    (hc : z.Registered client h) (hkey : z.Key h.publicKey) :
    z.IsRequest h (((((r.setClientID client.clientId).setCode sendPublicKey826).setPayloadSize
      (nameOfClientSize + int32 h.publicKey.length)).appendStringPayload client.nameClient
        nameOfClientSize).appendStringPayload h.publicKey h.publicKey.length).massage := by
  have hid : h.id.length = clientIdSize := hc.id ▸ hc.length_id
  refine ⟨_, _, .publicKey hid hkey, ?_⟩
  rw [hc.id]
  exact massage_publicKey hr hc.names.nameClient z.clientName_field hc.length_id
    (z.length_key _ hkey)

namespace Holdings

variable {h : Holdings}

/-- The fields of an answer behind its header; only a 1600 has an id to take. -/
theorem read_id {version code size : Bytes} (hfields : h.fields = [version, code, size])
    (data : Bytes) : h.read data =
      { h with
        fields := [version, code, size, data], unanswered := false,
        id := if ofLittle code = registeringDone1600 then data else h.id } := by
  obtain ⟨fields, unanswered, keyed, id, publicKey, privKey, encryptedAes, file, written⟩ := h
  obtain rfl : fields = [version, code, size] := hfields
  by_cases hcode : ofLittle code = registeringDone1600
  · simp [read, hcode]
  · simp [read, hcode]

theorem read_key {version code size fourth : Bytes}
    (hfields : h.fields = [version, code, size, fourth])
    (hcode : ofLittle code = getPublicKeySendAes1602 ∨ ofLittle code = validReconnect1605)
    (data : Bytes) : h.read data =
      { h with
        fields := [version, code, size, fourth, data], unanswered := false, keyed := true,
        encryptedAes := data } := by
  obtain ⟨fields, unanswered, keyed, id, publicKey, privKey, encryptedAes, file, written⟩ := h
  obtain rfl : fields = [version, code, size, fourth] := hfields
  rw [read]
  simp only [if_pos hcode]
  rfl

end Holdings

section
variable {client : Client} {h : Holdings}

/-- A file loaded before there is a key. -/
theorem sends_load (hkeyed : h.keyed = false) (path : Bytes) :
    z.Sends (fun content t => z.Allows (.load path) content ∧ t.keyed = false ∧
      t = h.load kit path (content.getD [])) h (ask (.load path)) := by
  refine (sends_ask _).mono ?_
  intro content t ht
  obtain ⟨hallows, rfl⟩ := ht
  refine ⟨hallows, ?_, rfl⟩
  simp only [Holdings.note, Holdings.load, hkeyed]
  split
  · rename_i hfalse
    cases hfalse
  · split
    · rfl
    · split <;> rfl

theorem sends_readStringAndCheck (expected : Bytes) (size : Nat) (hfields : h.fields ≠ []) :
    z.Sends (fun _ t => ∃ data, t = h.read data) h (Answer.readStringAndCheck expected size) := by
  refine (sends_field size hfields).bind ?_
  intro data t ht
  obtain ⟨-, rfl⟩ := ht
  refine (sends_unlessExit _).mono ?_
  intro _ u hu
  exact ⟨data, hu.2⟩

theorem sends_getNumber (size : Nat) (hfields : h.fields ≠ []) :
    z.Sends (fun _ t => ∃ data, t = h.read data) h (Answer.getNumber size) := by
  refine (sends_field size hfields).bind ?_
  intro data t ht
  exact sends_pure ⟨data, ht.2⟩

theorem sends_getEncryptedAes (answer : Answer) (hfields : h.fields ≠ []) :
    z.Sends (fun data t => t = h.read data) h answer.getEncryptedAes := by
  refine sends_unlessExit_bind fun _ => ?_
  refine (sends_field _ hfields).mono ?_
  intro data t ht
  exact ht.2

/-- The answer with a key makes a registered client an equipped one. -/
theorem sends_getAesKeyFromServer (hc : z.Registered client h)
    (hpriv : h.privKey = client.privKey) {version code size : Bytes}
    (hcode : ofLittle code = getPublicKeySendAes1602 ∨ ofLittle code = validReconnect1605)
    (answer : Answer) :
    z.Sends z.Equipped (h.headed version code size) (getAesKeyFromServer client answer) := by
  have hnot : ¬ ofLittle code = registeringDone1600 := by
    obtain hcode | hcode := hcode <;> rw [hcode] <;> decide
  refine (sends_readStringAndCheck _ _ (List.cons_ne_nil _ _)).bind ?_
  intro _ t ht
  obtain ⟨field, rfl⟩ := ht
  rw [Holdings.read_id rfl, if_neg hnot]
  refine (sends_getEncryptedAes answer (List.cons_ne_nil _ _)).bind ?_
  intro encryptedAes t ht
  subst ht
  rw [Holdings.read_key rfl hcode]
  exact sends_pure
    { names := ⟨hc.names.nameClient, hc.names.fileName, hc.names.pathToFile⟩
      length_id := hc.length_id
      id := hc.id
      keyed := rfl
      privKey := hpriv
      encryptedAes := rfl }

/-! `send_file`. -/

/-- The file is read, and this many requests have been sent since. -/
structure Setting.Sending (z : Setting kit) (client : Client) (encrypted : Bytes) (h : Holdings) :
    Prop extends z.Equipped client h where
  content : z.Content h.file
  encrypts : h.Encrypts kit encrypted

theorem Setting.Sending.verdict {encrypted : Bytes} (hs : z.Sending client encrypted h)
    (hlast : packetCount encrypted.length ≤ h.written) {code : Nat}
    (hcode : code = validCrc900 ∨ code = wrongCrcTryAgain901 ∨ code = wrongCrc4th902) :
    z.Asks h client.clientId (.verdict code z.fileName) := by
  have hid : h.id.length = clientIdSize := hs.id ▸ hs.length_id
  rw [← hs.id]
  exact .verdict hid hcode hs.encrypts hlast

theorem Setting.Sending.write {encrypted : Bytes} (hs : z.Sending client encrypted h) :
    z.Sending client encrypted h.write :=
  { hs with toEquipped := { hs.toEquipped with } }

end

theorem packetCount_pos {encrypted : Bytes} (h : encrypted ≠ []) :
    0 < packetCount encrypted.length := by
  rw [lt_packetCount_iff]
  exact List.length_pos_iff.mpr h

theorem finishCode_cases (wrong last : Prop) [Decidable wrong] [Decidable last] (code : Nat)
    (h : code = if wrong then if last then wrongCrc4th902 else wrongCrcTryAgain901
      else validCrc900) :
    code = validCrc900 ∨ code = wrongCrcTryAgain901 ∨ code = wrongCrc4th902 := by
  split at h
  · split at h
    · exact .inr (.inr h)
    · exact .inr (.inl h)
  · exact .inl h

section
variable {client : Client} {h : Holdings} {encrypted : Bytes}

/-- What the packets leave. -/
theorem Setting.Sending.sent (hs : z.Sending client encrypted h) (items : List Bytes) :
    let t := (items.map Prog.Observation.sent).foldl (Holdings.note kit) h
    z.Sending client encrypted t ∧ t.file = h.file ∧ t.written = h.written + items.length ∧
      (items ≠ [] → t.fields = [] ∧ t.unanswered = true) := by
  induction items generalizing h with
  | nil => exact ⟨hs, rfl, rfl, fun hne => absurd rfl hne⟩
  | cons item items ih =>
      obtain ⟨hsending, hfile, hwritten, hlast⟩ := ih hs.write
      refine ⟨hsending, hfile, ?_, ?_⟩
      · rw [List.length_cons, ← Nat.add_assoc, Nat.add_right_comm]
        exact hwritten
      · intro _
        by_cases hitems : items = []
        · subst hitems
          exact ⟨rfl, rfl⟩
        · exact hlast hitems

/-- The loop sends the packets in their order. -/
theorem sends_packets {α : Type} {post : α → Holdings → Prop} {next : Prog α}
    (hs : z.Sending client encrypted h) (hzero : h.written = 0) (hne : encrypted ≠ [])
    (hnext : ∀ t, z.Sending client encrypted t → t.written = packetCount encrypted.length →
      t.fields = [] → t.unanswered = true → z.Sends post t next) :
    z.Sends post h (Prog.sendAll ((packetsOf encrypted h.file z.fileName).map fun p =>
      requestBytes client.clientId (.packet p)) next) := by
  have hcount : (packetsOf encrypted h.file z.fileName).length = packetCount encrypted.length := by
    rw [packetsOf, List.length_map, List.length_range]
  apply Prog.Keeps.sendAll
  · intro before item after hitems
    obtain ⟨hsending, hfile, hwritten, -⟩ := hs.sent before
    have hitem := congrArg (fun items => items[before.length]?) hitems
    rw [List.getElem?_append_right (Nat.le_refl _), Nat.sub_self, List.getElem?_cons_zero,
      List.getElem?_map, packetsOf, List.getElem?_map] at hitem
    obtain ⟨p, hp, rfl⟩ := Option.map_eq_some_iff.mp hitem
    obtain ⟨k, hk, rfl⟩ := Option.map_eq_some_iff.mp hp
    obtain ⟨hlt, hk⟩ := List.getElem?_eq_some_iff.mp hk
    rw [List.getElem_range] at hk
    rw [List.length_range] at hlt
    subst hk
    have hid := hsending.id
    have hlength : ((before.map Prog.Observation.sent).foldl (Holdings.note kit) h).id.length =
        clientIdSize := hid ▸ hsending.length_id
    rw [hzero, Nat.zero_add] at hwritten
    have hasks := Setting.Asks.packet hlength hsending.content hsending.encrypts (hwritten ▸ hlt)
    rw [hid, hfile, hwritten] at hasks
    exact ⟨_, _, hasks, rfl⟩
  · obtain ⟨hsending, -, hwritten, hlast⟩ := hs.sent ((packetsOf encrypted h.file z.fileName).map
      fun p => requestBytes client.clientId (.packet p))
    rw [hzero, Nat.zero_add, List.length_map, hcount] at hwritten
    have hitems : (packetsOf encrypted h.file z.fileName).map (fun p =>
        requestBytes client.clientId (.packet p)) ≠ [] := by
      intro hnil
      have hlength := congrArg List.length hnil
      rw [List.length_map, hcount, List.length_nil] at hlength
      exact absurd hlength (Nat.ne_of_gt (packetCount_pos hne))
    exact hnext _ hsending hwritten (hlast hitems).1 (hlast hitems).2

/-- All packets have been sent. -/
structure Setting.Checking (z : Setting kit) (client : Client) (encrypted : Bytes) (h : Holdings) :
    Prop extends z.Sending client encrypted h where
  last : packetCount encrypted.length ≤ h.written

theorem Setting.Checking.headed (hs : z.Checking client encrypted h) (version code size : Bytes) :
    z.Checking client encrypted (h.headed version code size) :=
  { hs with toSending := { hs.toSending with toEquipped := { hs.toEquipped with } } }

theorem Setting.Checking.write (hs : z.Checking client encrypted h) :
    z.Checking client encrypted h.write :=
  { toSending := hs.toSending.write, last := Nat.le_succ_of_le hs.last }

/-- A field of a 1603 or 1604 changes nothing that the client holds. -/
theorem Setting.Checking.read (hs : z.Checking client encrypted h) {version code : Bytes}
    {later : List Bytes} (hfields : h.fields = version :: code :: later)
    (hcode : ofLittle code = validFileAndCrc1603 ∨ ofLittle code = thankYou1604) (data : Bytes) :
    z.Checking client encrypted (h.read data) ∧
      (h.read data).fields = version :: code :: (later ++ [data]) := by
  have hread : h.read data = { h with fields := h.fields ++ [data], unanswered := false } := by
    have h1600 : ¬ ofLittle code = registeringDone1600 := by
      obtain hcode | hcode := hcode <;> rw [hcode] <;> decide
    have hkey : ¬ (ofLittle code = getPublicKeySendAes1602 ∨
        ofLittle code = validReconnect1605) := by
      obtain hcode | hcode := hcode <;> rw [hcode] <;> decide
    rw [Holdings.read, hfields]
    obtain _ | ⟨size, _ | ⟨fourth, _ | ⟨fifth, later⟩⟩⟩ := later
    · rfl
    · simp only [if_neg h1600]
    · simp only [if_neg hkey]
    · rfl
  rw [hread, hfields]
  exact ⟨{ hs with toSending := { hs.toSending with toEquipped := { hs.toEquipped with } } }, rfl⟩

/-- A request that closes an upload. -/
def Setting.Closes (z : Setting kit) (client : Client) (r : Request) : Prop :=
  ∃ code, (code = validCrc900 ∨ code = wrongCrcTryAgain901 ∨ code = wrongCrc4th902) ∧
    r.massage = requestBytes client.clientId (.verdict code z.fileName)

theorem Setting.Checking.isRequest (hs : z.Checking client encrypted h) {r : Request}
    (hr : z.Closes client r) : z.IsRequest h r.massage := by
  obtain ⟨code, hcode, hmassage⟩ := hr
  exact ⟨_, _, hs.toSending.verdict hs.last hcode, hmassage⟩

theorem sends_theEnd (tries : Nat) {r : Request} (hs : z.Checking client encrypted h)
    (hfields : h.fields = []) (hunanswered : h.unanswered = true) (hr : z.Closes client r) :
    z.Sends (fun _ _ => True) h (theEnd client tries r) := by
  induction tries generalizing h r with
  | zero => exact sends_stuck
  | succ tries ih =>
      refine (sends_getHeader hfields hunanswered).bind ?_
      intro answer t ht
      obtain ⟨version, code, size, hcode, rfl⟩ := ht
      have hheaded := hs.headed version code size
      split
      · refine sends_generalErrorHandle_bind ?_
        refine (sends_sendToServer (hheaded.isRequest hr)).bind ?_
        intro _ t ht
        subst ht
        exact ih hheaded.write rfl rfl hr
      · refine sends_unlessExit_bind fun h1604 => ?_
        exact (sends_readStringAndCheck _ _ (List.cons_ne_nil _ _)).mono fun _ _ _ => trivial

/-- What is left for the next try, and the finish request if there is none. -/
def Setting.Checked (z : Setting kit) (client : Client) (encrypted : Bytes)
    (result : Nat × Request × Request) (h : Holdings) : Prop :=
  result.2.1.Empty ∧ z.Checking client encrypted h ∧
    (result.1 = tryAgain ∨
      h.fields = [] ∧ h.unanswered = true ∧ z.Closes client result.2.2)

theorem sends_crcChecking (hs : z.Checking client encrypted h) (hfields : h.fields = [])
    (hunanswered : h.unanswered = true) {r : Request} (hr : r.Empty) (size : Int) :
    z.Sends (z.Checked client encrypted) h (crcChecking kit client r size Request.new) := by
  refine (sends_getHeader hfields hunanswered).bind ?_
  intro answer t ht
  obtain ⟨version, code, psize, hcode, rfl⟩ := ht
  have hheaded := hs.headed version code psize
  split
  · refine sends_generalErrorHandle_bind ?_
    exact sends_pure ⟨hr, hheaded, .inl rfl⟩
  · refine sends_unlessExit_bind fun h1603 => ?_
    have hcode : ofLittle code = validFileAndCrc1603 ∨ ofLittle code = thankYou1604 :=
      .inl (hcode.symm.trans h1603)
    refine (sends_readStringAndCheck _ _ (List.cons_ne_nil _ _)).bind ?_
    intro _ t ht
    obtain ⟨id, rfl⟩ := ht
    obtain ⟨h₁, hfields₁⟩ := hheaded.read rfl hcode id
    refine (sends_getNumber _ (by simp [hfields₁])).bind ?_
    intro contentSize t ht
    obtain ⟨sizeField, rfl⟩ := ht
    obtain ⟨h₂, hfields₂⟩ := h₁.read hfields₁ hcode sizeField
    refine sends_unlessExit_bind fun _ => ?_
    refine (sends_readStringAndCheck _ _ (by simp [hfields₂])).bind ?_
    intro _ t ht
    obtain ⟨name, rfl⟩ := ht
    obtain ⟨h₃, hfields₃⟩ := h₂.read hfields₂ hcode name
    refine (sends_getNumber _ (by simp [hfields₃])).bind ?_
    intro crc t ht
    obtain ⟨crcField, rfl⟩ := ht
    obtain ⟨h₄, -⟩ := h₃.read hfields₃ hcode crcField
    have hfinish : ∀ code, code = validCrc900 ∨ code = wrongCrcTryAgain901 ∨
        code = wrongCrc4th902 → z.Closes client
          ((((Request.new.setClientID client.clientId).setCode code).setPayloadSize
            nameOfFileSize).appendStringPayload client.fileName nameOfClientSize) := by
      intro code hcode
      have hlt : code < 256 ^ codeSize := by
        obtain rfl | rfl | rfl := hcode <;> decide
      refine ⟨code, hcode, ?_⟩
      rw [hs.names.fileName]
      exact massage_name ⟨rfl, rfl⟩ (setClientID_of_length hs.length_id _) hlt rfl rfl
        z.fileName_field
    have hkept : ∀ wrong : Prop, ∀ _ : Decidable wrong,
        (if wrong then r.addFailure else r).Empty := by
      intro wrong _
      split <;> exact hr
    have hclosing := hfinish _ (finishCode_cases (client.crcValue ≠ crc)
      ((if client.crcValue ≠ crc then r.addFailure else r).numOfFailures = maxTries) _ rfl)
    refine (sends_sendToServer (h₄.isRequest hclosing)).bind ?_
    intro _ t ht
    subst ht
    exact sends_pure ⟨hkept _ _, h₄.write, .inr ⟨rfl, rfl, hclosing⟩⟩

end

section
variable {client : Client} {h : Holdings}

theorem sends_encryptFile (file : Bytes) :
    z.Sends (fun encrypted t => t = h ∧ ∃ key,
        kit.rsaDecrypt client.privKey client.encryptedAes = some key ∧
          encrypted = ciphertext kit key file) h
      (encryptFile kit client.encryptedAes client.privKey file) := by
  refine sends_orExit_bind fun key hkey => ?_
  refine sends_unlessExit_bind fun _ => ?_
  exact sends_pure ⟨rfl, key, hkey, rfl⟩

theorem ciphertext_ne_nil (key file : Bytes) : ciphertext kit key file ≠ [] := by
  intro hnil
  have hlength := congrArg List.length hnil
  rw [ciphertext, BlockMode.length_cbcEncrypt, List.length_nil] at hlength
  omega

/-- The file that is read with a key is the one to send. -/
theorem sends_fileByPath (hc : z.Equipped client h) :
    z.Sends (fun file t => z.Equipped client t ∧ z.Content t.file ∧ t.file = file ∧
      t.written = 0) h (fileByPath client.pathToFile) := by
  rw [hc.names.pathToFile]
  refine (sends_ask _).bind ?_
  intro loaded t ht
  obtain ⟨hallows, rfl⟩ := ht
  refine (sends_orExit loaded).mono ?_
  intro file t ht
  obtain ⟨rfl, rfl⟩ := ht
  have hnote : h.note kit (.asked (.load z.pathToFile) (some file)) =
      { h with fields := [], file := file, written := 0 } := by
    simp only [Holdings.note, Holdings.load, if_pos hc.keyed, Option.getD_some]
  rw [hnote]
  exact ⟨{ hc with toRegistered := { hc.toRegistered with } }, hallows.2 rfl file rfl, rfl, rfl⟩

theorem sends_sendFile (hc : z.Equipped client h) (tries : Nat) {r : Request} (hr : r.Empty) :
    z.Sends (fun _ _ => True) h (sendFile kit client tries r) := by
  induction tries generalizing client h r with
  | zero => exact sends_stuck
  | succ tries ih =>
      refine (sends_fileByPath hc).bind ?_
      intro file t ht
      obtain ⟨ht, hcontent, rfl, hzero⟩ := ht
      refine (sends_encryptFile _).bind ?_
      intro encrypted u hu
      obtain ⟨rfl, key, hkey, hencrypted⟩ := hu
      have hsize : encrypted.length ≤ maxCiphertext :=
        hencrypted ▸ z.length_ciphertext key _ hcontent
      have hne : encrypted ≠ [] := hencrypted ▸ ciphertext_ne_nil key _
      let client' : Client := { client with crcValue := ClientCksum.memcrc kit.longWidth u.file }
      have hs : z.Sending client' encrypted u :=
        { names := ⟨ht.names.nameClient, ht.names.fileName, ht.names.pathToFile⟩
          length_id := ht.length_id
          id := ht.id
          keyed := ht.keyed
          privKey := ht.privKey
          encryptedAes := ht.encryptedAes
          content := hcontent
          encrypts := ⟨key, ht.privKey ▸ ht.encryptedAes ▸ hkey, hencrypted⟩ }
      obtain ⟨r', hr', -, hloop⟩ := sendAllPackets_eq u.file hs.names.fileName z.fileName_field
        hsize (hr.ready hs.length_id)
      rw [calculateTotalPackets_eq hsize, pure_bind, hloop, Prog.sendAll_bind]
      refine sends_packets hs hzero hne ?_
      intro t ht hlast hfields hunanswered
      have hchecking : z.Checking client' encrypted t := { ht with last := Nat.le_of_eq hlast.symm }
      refine (sends_crcChecking hchecking hfields hunanswered ⟨hr'.version, hr'.payload⟩ _).bind ?_
      intro result t ht
      obtain ⟨finishCode, request, finishRequest⟩ := result
      obtain ⟨hempty, hchecking, hfinish⟩ := ht
      simp only
      split
      · exact ih hchecking.toEquipped ⟨hempty.1, rfl⟩
      · rename_i hcode
        obtain htry | ⟨hfields, hunanswered, hcloses⟩ := hfinish
        · exact absurd (.inr htry) hcode
        · exact sends_theEnd maxTries hchecking hfields hunanswered hcloses

theorem sends_setClientID (id : Bytes) :
    z.Sends (fun (c : Client) t => id.length = clientIdSize ∧ c = { client with clientId := id } ∧
      t = h) h (client.setClientID id) :=
  sends_unlessExit_bind fun hid => sends_pure ⟨hid, rfl, rfl⟩

theorem sends_sendPublicKeyGetAes (hc : z.Registered client h) (hkeyed : h.keyed = false)
    (tries : Nat) {r : Request} (hr : r.Empty) :
    z.Sends z.Equipped h (sendPublicKeyGetAes kit client tries r) := by
  induction tries generalizing client h r with
  | zero => exact sends_stuck
  | succ tries ih =>
      refine (sends_ask _).bind ?_
      intro keys t ht
      obtain ⟨hkey, rfl⟩ := ht
      refine (sends_ask _).bind ?_
      intro _ t ht
      obtain ⟨-, rfl⟩ := ht
      refine (sends_ask _).bind ?_
      intro _ t ht
      obtain ⟨-, rfl⟩ := ht
      let client' : Client := { client with privKey := keys.privateKey }
      let h' : Holdings :=
        { h with fields := [], publicKey := keys.publicKey, privKey := keys.privateKey }
      have hc' : z.Registered client' h' :=
        ⟨⟨hc.names.nameClient, hc.names.fileName, hc.names.pathToFile⟩, hc.length_id, hc.id⟩
      refine sends_exchange (h := h') (publicKey_request hr hc' hkey) ?_
      intro answer version code size hcode
      have hwritten : z.Registered client' h'.write := { hc' with }
      split
      · have hheaded : z.Registered client' (h'.write.headed version code size) := { hc' with }
        refine sends_generalErrorHandle_bind ?_
        exact ih hheaded hkeyed ⟨hr.1, rfl⟩
      · refine sends_unlessExit_bind fun h1602 => ?_
        exact sends_getAesKeyFromServer hwritten rfl (.inl (hcode.symm.trans h1602)) answer

/-- The 32 zeros that stand for an id are cut to sixteen. -/
theorem setClientID_fake (r : Request) :
    (r.setClientID (List.replicate 32 0)).clientId = List.replicate clientIdSize 0 := by
  simp only [Request.setClientID]
  decide

theorem sends_registering (hz : z.Names client) (hkeyed : h.keyed = false) (tries : Nat)
    {r : Request} (hr : r.Empty) :
    z.Sends (fun _ _ => True) h (registering kit client tries r) := by
  induction tries generalizing h r with
  | zero => exact sends_stuck
  | succ tries ih =>
      refine sends_exchange (name_request hr (setClientID_fake r) rfl rfl z.clientName_field
        .registration hz.nameClient) ?_
      intro answer version code size hcode
      have hheaded : (h.write.headed version code size).keyed = false := hkeyed
      split
      · refine sends_generalErrorHandle_bind ?_
        exact ih hheaded ⟨hr.1, rfl⟩
      · refine sends_unlessExit_bind fun h1600 => ?_
        refine (sends_field clientIdSize (List.cons_ne_nil _ _)).bind ?_
        intro id t ht
        obtain ⟨-, rfl⟩ := ht
        rw [Holdings.read_id rfl, if_pos (hcode.symm.trans h1600)]
        refine (sends_setClientID _).bind ?_
        intro client' t ht
        obtain ⟨hid, rfl, rfl⟩ := ht
        let h' : Holdings :=
          { h.write with fields := [version, code, size, id], unanswered := false, id := id }
        have hc : z.Registered { client with clientId := id } h' :=
          ⟨⟨hz.nameClient, hz.fileName, hz.pathToFile⟩, hid, rfl⟩
        refine (sends_sendPublicKeyGetAes hc hkeyed maxTries ⟨rfl, rfl⟩).bind ?_
        intro client'' t hequipped
        exact sends_sendFile hequipped maxTries ⟨rfl, rfl⟩

theorem sends_readPrivKey (hkeyed : h.keyed = false) :
    z.Sends (fun privKey t => t.keyed = false ∧ t.privKey = privKey) h (readPrivKey kit) := by
  refine (sends_load hkeyed privKeyFile).bind ?_
  intro content t ht
  obtain ⟨-, hkept, rfl⟩ := ht
  refine sends_orExit_bind fun text htext => ?_
  refine sends_pure ⟨hkept, ?_⟩
  simp [Holdings.load, hkeyed, htext]

theorem sends_reconnection (hz : z.Names client) (hkeyed : h.keyed = false) (tries : Nat)
    {r : Request} (hr : r.Empty) :
    z.Sends (fun result t => z.Names result.2.1 ∧
        (result.1 = invalidReconnect1606 → t.keyed = false ∧ result.2.2.Empty)) h
      (reconnection kit client tries r) := by
  induction tries generalizing client h r with
  | zero => exact sends_stuck
  | succ tries ih =>
      refine (sends_readPrivKey hkeyed).bind ?_
      intro privKey t ht
      obtain ⟨hkept, hpriv⟩ := ht
      refine (sends_load hkept meInfo).bind ?_
      intro content u hu
      obtain ⟨-, hkept', rfl⟩ := hu
      refine sends_unlessExit_bind fun _ => ?_
      refine (sends_setClientID _).bind ?_
      intro client' u hu
      obtain ⟨hid, rfl, rfl⟩ := hu
      have hc : z.Registered { client with
          privKey := privKey
          clientId := convertHexToBytes ((linesOf (content.getD [])).getD 1 []) }
          (t.load kit meInfo (content.getD [])) := by
        refine ⟨⟨hz.nameClient, hz.fileName, hz.pathToFile⟩, hid, ?_⟩
        simp [Holdings.load, hkept, meInfo, privKeyFile]
      have hpriv' : (t.load kit meInfo (content.getD [])).privKey = privKey := by
        simp [Holdings.load, hkept, meInfo, privKeyFile, hpriv]
      have hlength : (t.load kit meInfo (content.getD [])).id.length = clientIdSize :=
        hc.id ▸ hid
      have hasks : z.Asks _ _ (.reconnection z.clientName) := .reconnection hlength
      rw [hc.id] at hasks
      refine sends_exchange (name_request hr (setClientID_of_length hid r) rfl rfl
        z.clientName_field hasks hz.nameClient) ?_
      intro answer version code size hcode
      have hheaded : (Holdings.headed version code size
          (t.load kit meInfo (content.getD [])).write).keyed = false := hkept'
      split
      · refine sends_generalErrorHandle_bind ?_
        exact ih hc.names hheaded ⟨hr.1, rfl⟩
      · split
        · rename_i h1606
          have hnot : ¬ ofLittle code = registeringDone1600 := by
            rw [← hcode, h1606]
            decide
          refine (sends_field clientIdSize (List.cons_ne_nil _ _)).bind ?_
          intro data u hu
          obtain ⟨-, rfl⟩ := hu
          rw [Holdings.read_id rfl]
          exact sends_pure ⟨hc.names, fun _ => ⟨hkept', hr.1, rfl⟩⟩
        · refine sends_unlessExit_bind fun h1605 => ?_
          refine (sends_getAesKeyFromServer (h := Holdings.write _) { hc with } hpriv'
            (.inr (hcode.symm.trans h1605)) answer).bind ?_
          intro client'' u hequipped
          refine (sends_sendFile hequipped maxTries ⟨rfl, rfl⟩).bind ?_
          intro _ v _
          refine sends_pure ⟨hequipped.names, ?_⟩
          intro hcode
          cases hcode

theorem sends_setFileName {name : Bytes} (hname : uptoNul name = encodeUtf8 z.fileName) :
    z.Sends (fun (c : Client) t => c.fileName = encodeUtf8 z.fileName ∧ t = h) h
      (client.setFileName name) :=
  sends_unlessExit_bind fun _ => sends_pure ⟨hname, rfl⟩

theorem sends_readTransfer (hkeyed : h.keyed = false) :
    z.Sends (fun client t => z.Names client ∧ t.keyed = false) h readTransfer := by
  refine (sends_load hkeyed transferInfo).bind ?_
  intro loaded t ht
  obtain ⟨hallows, hkept, rfl⟩ := ht
  refine sends_orExit_bind fun content hcontent => ?_
  obtain ⟨content', hloaded, hname, hpath⟩ := hallows.1 rfl
  obtain rfl : content = content' := Option.some.inj (hcontent.symm.trans hloaded)
  refine sends_unlessExit_bind fun _ => ?_
  refine sends_unlessExit_bind fun _ => ?_
  have hfile : uptoNul (findFileName ((linesOf content).getD 2 [])) = encodeUtf8 z.fileName := by
    rw [hpath, z.findFileName_eq, uptoNul_encodeUtf8 z.fileName_fits.2]
  refine (sends_setFileName hfile).bind ?_
  intro client t ht
  obtain ⟨hclient, rfl⟩ := ht
  refine (sends_ask _).bind ?_
  intro _ t ht
  obtain ⟨-, rfl⟩ := ht
  exact sends_pure ⟨⟨hname, hclient, hpath⟩, hkept⟩

end

/-- Whatever the client sends in this setting is one of its requests. -/
theorem sends_main (z : Setting kit) : z.Sends (fun _ _ => True) Holdings.new (main kit) := by
  refine (sends_readTransfer rfl).bind ?_
  intro client t ht
  obtain ⟨hz, hkeyed⟩ := ht
  refine (sends_load hkeyed meInfo).bind ?_
  intro meInfoCheck u hu
  obtain ⟨-, hkept, rfl⟩ := hu
  split
  · refine (sends_reconnection hz hkept maxTries ⟨rfl, rfl⟩).bind ?_
    intro result v hv
    obtain ⟨answer, client', request⟩ := result
    obtain ⟨hz', hagain⟩ := hv
    simp only
    split
    · obtain ⟨hkeyed', hempty⟩ := hagain ‹_›
      exact sends_registering hz' hkeyed' maxTries hempty
    · exact sends_pure trivial
  · exact sends_registering hz hkept maxTries ⟨rfl, rfl⟩

end ClientSide
end SecureTransfer
