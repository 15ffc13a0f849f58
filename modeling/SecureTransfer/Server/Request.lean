import SecureTransfer.Server.Functions
import SecureTransfer.Server.Cksum

/-!
The handlers of request.py. Each is split in two: the fields it reads first, and
what it does with them.
-/

open Octets (Text encodeUtf8 padTo)
open Effects Act

namespace SecureTransfer

def createSendAes (site : Platform) (draws : Draws) (code : Nat) (client : Nat) : Py Unit := do
  modifyServer (·.modifyClient client fun c => { c with aesKey := draws.aesKey })
  let c ← getClient client
  Sql.setAesKey site c.aesKey c.clientId
  let encryptedAesKey ← encryptByPublicKey site draws c.publicKey c.aesKey
  onConn do
    Answer.sendHeaderToClient ⟨code, General.clientIdSize + encryptedAesKey.length⟩
    Conn.sendall c.clientId
    Conn.sendall encryptedAesKey

/-- Both dates of one call are the date drawn for the request. -/
def lastSeen (site : Platform) (draws : Draws) (client : Nat) : Py Unit := do
  let c ← getClient client
  Sql.setLastseenDate site draws.now c.clientId
  modifyServer (·.modifyClient client fun c => { c with lastSeenDate := draws.now })

def lastPacket (site : Platform) (file : File) (client : Client)
    (contentSize origFileSize : Nat) : Py Unit := do
  let decryptedFileContent ← createDecryptedFile site file.path client.aesKey
  require (origFileSize = decryptedFileContent.length) .valueError
  let crc := Cksum.memcrc decryptedFileContent
  onConn do
    Answer.sendHeaderToClient ⟨General.fileReceivedCrc1603,
      General.clientIdSize + General.contentSizeSize + General.fileNameSize + General.crcSize⟩
    Conn.sendall client.clientId
    let contentSize ← convertIntToByte contentSize General.contentSizeSize
    Conn.sendall contentSize
    Conn.sendall (padTo General.fileNameSize (encodeUtf8 file.fileName))
    let crc ← convertIntToByte crc General.crcSize
    Conn.sendall crc

def thankYouAnswer (clientId : Bytes) : Net Unit := do
  Answer.sendHeaderToClient ⟨General.thankYouClient1604, General.clientIdSize⟩
  Conn.sendall clientId

structure Request where
  clientId : Bytes
  version : Nat
  code : Nat
  payloadSize : Nat
deriving DecidableEq, Repr

/-- The fields of an 828 request. -/
structure Packet where
  contentSize : Nat
  origFileSize : Nat
  packetNumber : Nat
  totalPackets : Nat
  fileName : Text
  content : Bytes
deriving DecidableEq, Repr

namespace Request

/-- Printing the error raises TypeError: VERSION is a number. -/
def headerValidation (r : Request) : Net Unit :=
  require (r.version = General.version) .typeError

/-- `none` is END: the client closed its connection. -/
def getHeader : Net (Option Request) := do
  let byteIdForCheck ← Conn.recv General.clientIdSize
  if byteIdForCheck = [] then pure none
  else do
    let version ← recvNumber General.versionSize
    let code ← recvNumber General.codeSize
    let payloadSize ← recvNumber General.payloadSizeSize
    pure (some ⟨byteIdForCheck, version, code, payloadSize⟩)

def register (site : Platform) (draws : Draws) (newClientName : Text) : Py Unit := do
  let s ← getServer
  match s.clientsList.findIdx? (·.clientName = newClientName) with
  | some client => do
      lastSeen site draws client
      raise .valueError
  | none => do
      let newClient ← Client.init site draws newClientName
      modifyServer fun s => { s with clientsList := s.clientsList ++ [newClient] }
      Sql.addClientDb site newClient
      onConn do
        Answer.sendHeaderToClient ⟨General.registrationDone1600, General.clientIdSize⟩
        Conn.sendall newClient.clientId

def registrationRequest825 (site : Platform) (draws : Draws) : Py Unit := do
  let newClientName ← onConn (recvText General.clientNameSize)
  register site draws newClientName

def reconnectionFailed (clientId : Bytes) : Net Unit := do
  Answer.sendHeaderToClient ⟨General.reconnectionFailed1606, General.clientIdSize⟩
  Conn.sendall clientId

def reconnect (site : Platform) (draws : Draws) (clientId : Bytes) (newClientName : Text) :
    Py Unit := do
  let s ← getServer
  match s.clientsList.findIdx? (·.clientName = newClientName) with
  | some client => do
      let c ← getClient client
      checkId clientId c.clientId
      lastSeen site draws client
      match site.importKey c.publicKey with
      | none => onConn (reconnectionFailed c.clientId)
      | some _ => createSendAes site draws General.validReconnectionAes1605 client
  | none => onConn (reconnectionFailed clientId)

def reconnectionRequest827 (site : Platform) (draws : Draws) (r : Request) : Py Unit := do
  let newClientName ← onConn (recvText General.clientNameSize)
  reconnect site draws r.clientId newClientName

/-- The public key is read only after the name and the id have been checked. -/
def takePublicKey (site : Platform) (draws : Draws) (clientId : Bytes) (newClientName : Text) :
    Py Unit := do
  let s ← getServer
  match s.clientsList.findIdx? (·.clientName = newClientName) with
  | some client => do
      let c ← getClient client
      checkId clientId c.clientId
      let publicKey ← onConn (Conn.recv General.publicKeySize)
      modifyServer (·.modifyClient client fun c => { c with publicKey := publicKey })
      Sql.setPublicKey site publicKey c.clientId
      lastSeen site draws client
      createSendAes site draws General.gotPublicSendAes1602 client
  | none => raise .valueError

def sendPublicKeyRequest826 (site : Platform) (draws : Draws) (r : Request) : Py Unit := do
  let newClientName ← onConn (recvText General.clientNameSize)
  takePublicKey site draws r.clientId newClientName

/-- What the payload of an 828 holds besides the slice. -/
abbrev packetFieldsSize : Nat :=
  General.contentSizeSize + General.origFileSizeSize + General.pucketNumberSize +
    General.totalPucketsSize + General.fileNameSize

def recvPacket (payloadSize : Nat) : Net Packet := do
  let contentSize ← recvNumber General.contentSizeSize
  let origFileSize ← recvNumber General.origFileSizeSize
  let packetNumber ← recvNumber General.pucketNumberSize
  let totalPackets ← recvNumber General.totalPucketsSize
  let fileName ← recvText General.fileNameSize
  let encryptedPacketContent ← Conn.recv ((payloadSize : Int) - packetFieldsSize)
  pure ⟨contentSize, origFileSize, packetNumber, totalPackets, fileName,
    encryptedPacketContent⟩

def storePacket (site : Platform) (draws : Draws) (clientId : Bytes) (p : Packet) : Py Unit := do
  let s ← getServer
  match s.clientsList.findIdx? (·.clientId = clientId) with
  | none => raise .valueError
  | some client => do
      let c ← getClient client
      let path := filePath c.clientName p.fileName
      openFile site path (p.packetNumber = 1)
      writeFile site path p.content
      lastSeen site draws client
      match c.filesList.findIdx? (·.fileName = p.fileName) with
      | some file => do
          let f ← ofOption .indexError c.filesList[file]?
          whenever (p.packetNumber = 1) do
            modifyServer (·.modifyFile client file fun f => { f with validCrc := false })
            Sql.setValidCrc site c.clientId false
          whenever (p.packetNumber = p.totalPackets)
            (lastPacket site f c p.contentSize p.origFileSize)
      | none => do
          require (p.packetNumber = 1) .valueError
          let newFile : File := ⟨c.clientId, p.fileName, path, false⟩
          Sql.addFileDb site newFile
          modifyServer (·.modifyClient client fun c =>
            { c with filesList := c.filesList ++ [newFile] })
          whenever (p.packetNumber = p.totalPackets)
            (lastPacket site newFile c p.contentSize p.origFileSize)

def sendFileRequest828 (site : Platform) (draws : Draws) (r : Request) : Py Unit := do
  let p ← onConn (recvPacket r.payloadSize)
  storePacket site draws r.clientId p

def crcVerdict (site : Platform) (draws : Draws) (clientId : Bytes) (code : Nat)
    (fileName : Text) : Py Unit := do
  let s ← getServer
  match s.clientsList.findIdx? (·.clientId = clientId) with
  | none => raise .valueError
  | some client => do
      let c ← getClient client
      lastSeen site draws client
      match c.filesList.findIdx? (·.fileName = fileName) with
      | none => raise .valueError
      | some file => do
          let f ← ofOption .indexError c.filesList[file]?
          require (f.validCrc = false) .valueError
          whenever (code = General.validCrcRequest900) do
            modifyServer (·.modifyFile client file fun f => { f with validCrc := true })
            Sql.setValidCrc site c.clientId true
            onConn (thankYouAnswer c.clientId)
          whenever (code = General.invalidCrc4thRequest902) do
            removeFile site f.path
            modifyServer (·.modifyClient client fun c =>
              { c with filesList := c.filesList.eraseIdx file })
            Sql.deleteFile site fileName
            onConn (thankYouAnswer c.clientId)

def crcResponse900901902 (site : Platform) (draws : Draws) (r : Request) : Py Unit := do
  let fileName ← onConn (recvText General.fileNameSize)
  crcVerdict site draws r.clientId r.code fileName

end Request
end SecureTransfer
