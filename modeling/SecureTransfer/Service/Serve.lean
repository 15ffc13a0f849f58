import SecureTransfer.Server.Main

/-!
The server as a service on whole requests. A request is an id and a body; serving
one gives the next server and at most one answer. Clients are addressed by id and
files by name, so the service makes sense of the lists as finite maps; the
refinement module shows that the handlers compute it.
-/

open Octets (Text encodeUtf8 padTo toLittle)
open Effects

namespace SecureTransfer

/-- An answer header with the byte strings sent after it. -/
structure Message where
  header : Answer
  parts : List Bytes
deriving DecidableEq, Repr

inductive Reply where
  | silent
  | answer (m : Message)
  | rejected
  /-- Rejected before the rest of the request was read. -/
  | rejectedUnread
  /-- The request is not complete and the server waits for it. -/
  | waits
deriving DecidableEq, Repr

/-- What a request asks for. The public key of an 826 is the result of a read that
takes place only after the name and the id have been checked. -/
inductive Body where
  | registration (name : Text)
  | reconnection (name : Text)
  | publicKey (name : Text) (key : Outcome PyError Bytes)
  | packet (p : Packet)
  | verdict (code : Nat) (fileName : Text)

/-! Rows and clients but for the last-seen date. -/

def ClientRow.undated (r : ClientRow) : ClientRow := { r with lastSeenDate := 0 }

def Client.undated (c : Client) : Client := { c with toClientRow := c.toClientRow.undated }

namespace Server

def client? (s : Server) (clientId : Bytes) : Option Client :=
  s.clientsList.find? (·.clientId = clientId)

def named? (s : Server) (name : Text) : Option Client :=
  s.clientsList.find? (·.clientName = name)

def ids (s : Server) : List Bytes := s.clientsList.map (·.clientId)

def names (s : Server) : List Text := s.clientsList.map (·.clientName)

/-- Change what memory and table clients both hold about a client. -/
def updateRow (s : Server) (clientId : Bytes) (f : ClientRow → ClientRow) : Server :=
  { s with
    clientsList := s.clientsList.map fun c =>
      if c.clientId = clientId then { c with toClientRow := f c.toClientRow } else c
    db := s.db.updateClients clientId f }

/-- Change the file records of a client in memory. -/
def updateFiles (s : Server) (clientId : Bytes) (f : List File → List File) : Server :=
  { s with
    clientsList := s.clientsList.map fun c =>
      if c.clientId = clientId then { c with filesList := f c.filesList } else c }

def seen (s : Server) (draws : Draws) (clientId : Bytes) : Server :=
  s.updateRow clientId fun r => { r with lastSeenDate := draws.now }

def withPublicKey (s : Server) (clientId key : Bytes) : Server :=
  s.updateRow clientId fun r => { r with publicKey := key }

def withAesKey (s : Server) (clientId key : Bytes) : Server :=
  s.updateRow clientId fun r => { r with aesKey := key }

/-- Flag one file in memory and, in table files, every file of the client. -/
def flagFile (s : Server) (clientId : Bytes) (fileName : Text) (flag : Bool) : Server :=
  let s := s.updateFiles clientId fun files => files.map fun f =>
    if f.fileName = fileName then { f with validCrc := flag } else f
  { s with db := s.db.setValidCrc clientId flag }

def addClient (s : Server) (c : Client) : Server :=
  { s with
    clientsList := s.clientsList ++ [c]
    db := { s.db with clients := s.db.clients ++ [c.toClientRow] } }

def addFile (s : Server) (file : File) : Server :=
  let s := s.updateFiles file.clientId (· ++ [file])
  { s with db := { s.db with files := s.db.files ++ [file] } }

/-- Forget one file in memory. -/
def dropFile (s : Server) (clientId : Bytes) (fileName : Text) : Server :=
  s.updateFiles clientId (·.filter fun f => f.fileName ≠ fileName)

/-- Delete the rows with a file name; `none` when there is no such row. -/
def deleteRows (s : Server) (fileName : Text) : Option Server :=
  if s.db.files.any (·.fileName = fileName) then
    some { s with db := s.db.deleteFile fileName }
  else none

end Server

namespace Message

def registrationDone (clientId : Bytes) : Message :=
  ⟨⟨General.registrationDone1600, General.clientIdSize⟩, [clientId]⟩

def reconnectionFailed (clientId : Bytes) : Message :=
  ⟨⟨General.reconnectionFailed1606, General.clientIdSize⟩, [clientId]⟩

def aesKey (code : Nat) (clientId encrypted : Bytes) : Message :=
  ⟨⟨code, General.clientIdSize + encrypted.length⟩, [clientId, encrypted]⟩

def thankYou (clientId : Bytes) : Message :=
  ⟨⟨General.thankYouClient1604, General.clientIdSize⟩, [clientId]⟩

def fileReceived (clientId : Bytes) (contentSize : Nat) (fileName : Text) (crc : Nat) :
    Message :=
  ⟨⟨General.fileReceivedCrc1603,
      General.clientIdSize + General.contentSizeSize + General.fileNameSize + General.crcSize⟩,
    [clientId, toLittle General.contentSizeSize contentSize,
      padTo General.fileNameSize (encodeUtf8 fileName), toLittle General.crcSize crc]⟩

end Message

section
variable (site : Site) (draws : Draws) (s : Server)

def serveRegistration (name : Text) : Server × Reply :=
  match s.named? name with
  | some c => (s.seen draws c.clientId, .rejected)
  | none =>
      match ensureDir site (clientFolder name) s.disk with
      | none => (s, .rejected)
      | some disk =>
          let c : Client :=
            { clientId := draws.uuid, clientName := name, publicKey := [],
              lastSeenDate := draws.now, aesKey := [], filesList := [] }
          (({ s with disk := disk } : Server).addClient c,
            .answer (.registrationDone draws.uuid))

def sendNewAesKey (code : Nat) (clientId publicKey : Bytes) : Server × Reply :=
  let s := s.withAesKey clientId draws.aesKey
  match (site.importKey publicKey).bind (site.oaepEncrypt · draws.seed draws.aesKey) with
  | none => (s, .rejected)
  | some encrypted => (s, .answer (.aesKey code clientId encrypted))

def serveReconnection (clientId : Bytes) (name : Text) : Server × Reply :=
  match s.named? name with
  | none => (s, .answer (.reconnectionFailed clientId))
  | some c =>
      if clientId ≠ c.clientId then (s, .rejected)
      else
        let s := s.seen draws clientId
        match site.importKey c.publicKey with
        | none => (s, .answer (.reconnectionFailed clientId))
        | some _ =>
            sendNewAesKey site draws s General.validReconnectionAes1605 clientId c.publicKey

def servePublicKey (clientId : Bytes) (name : Text) (key : Outcome PyError Bytes) :
    Server × Reply :=
  match s.named? name with
  | none => (s, .rejectedUnread)
  | some c =>
      if clientId ≠ c.clientId then (s, .rejectedUnread)
      else
        match key with
        | .blocked => (s, .waits)
        | .raised _ => (s, .rejected)
        | .done key =>
            sendNewAesKey site draws ((s.withPublicKey clientId key).seen draws clientId)
              General.gotPublicSendAes1602 clientId key

/-- Decrypt the stored ciphertext in place and announce its checksum. -/
def finishUpload (c : Client) (file : File) (p : Packet) : Server × Reply :=
  match (s.disk.readFile site.cwd file.path).bind (decryptContent site c.aesKey) with
  | none => (s, .rejected)
  | some plain =>
      match s.disk.store site.cwd file.path true plain with
      | none => (s, .rejected)
      | some disk =>
          let s := { s with disk := disk }
          if p.origFileSize = plain.length then
            (s, .answer (.fileReceived c.clientId p.contentSize file.fileName
              (Cksum.memcrc plain)))
          else (s, .rejected)

/-- The record of the file a packet belongs to, made if the packet is the first one;
`none` when a later packet finds no record. -/
def recordPacket (c : Client) (p : Packet) : Option (Server × File) :=
  match c.filesList.find? (·.fileName = p.fileName) with
  | some file =>
      some (if p.packetNumber = 1 then s.flagFile c.clientId p.fileName false else s, file)
  | none =>
      if p.packetNumber = 1 then
        let file : File := ⟨c.clientId, p.fileName, filePath c.clientName p.fileName, false⟩
        some (s.addFile file, file)
      else none

def servePacket (clientId : Bytes) (p : Packet) : Server × Reply :=
  match s.client? clientId with
  | none => (s, .rejected)
  | some c =>
      match s.disk.store site.cwd (filePath c.clientName p.fileName)
          (p.packetNumber = 1) p.content with
      | none => (s, .rejected)
      | some disk =>
          let s := ({ s with disk := disk } : Server).seen draws clientId
          match recordPacket s c p with
          | none => (s, .rejected)
          | some (s, file) =>
              if p.packetNumber = p.totalPackets then finishUpload site s c file p
              else (s, .silent)

/-- The last of four failed checks: delete the file on disk, its record, and the rows
with its name. -/
def discardFile (clientId : Bytes) (file : File) : Server × Reply :=
  match s.disk.remove site.cwd file.path with
  | none => (s, .rejected)
  | some disk =>
      let s := ({ s with disk := disk } : Server).dropFile clientId file.fileName
      match s.deleteRows file.fileName with
      | none => (s, .rejected)
      | some s => (s, .answer (.thankYou clientId))

def serveVerdict (clientId : Bytes) (code : Nat) (fileName : Text) : Server × Reply :=
  match s.client? clientId with
  | none => (s, .rejected)
  | some c =>
      let s := s.seen draws clientId
      match c.filesList.find? (·.fileName = fileName) with
      | none => (s, .rejected)
      | some file =>
          if file.validCrc then (s, .rejected)
          else if code = General.validCrcRequest900 then
            (s.flagFile clientId fileName true, .answer (.thankYou clientId))
          else if code = General.invalidCrc4thRequest902 then discardFile site s clientId file
          else (s, .silent)

def serve (clientId : Bytes) : Body → Server × Reply
  | .registration name => serveRegistration site draws s name
  | .reconnection name => serveReconnection site draws s clientId name
  | .publicKey name key => servePublicKey site draws s clientId name key
  | .packet p => servePacket site draws s clientId p
  | .verdict code fileName => serveVerdict site draws s clientId code fileName

end
end SecureTransfer
