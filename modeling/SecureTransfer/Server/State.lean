import SecureTransfer.Library.Effects
import SecureTransfer.Library.BlockMode
import SecureTransfer.Library.FileTree

/-!
What the server program holds: the constants of general.py, the client and file
objects, the two sqlite tables, the disk and one client connection. Values drawn
while a request is served (uuid4, random bytes, the clock) come from a record
fixed for that request.
-/

open Octets (Text)
open BlockMode (BlockCipher)
open Effects

namespace SecureTransfer

namespace General

def folder : Text := ['c', 'l', 'i', 'e', 'n', 't', 's', ' ', 'f', 'i', 'l', 'e', 's']

abbrev version : Nat := 3
abbrev registrationRequest825 : Nat := 825
abbrev registrationFailed1601 : Nat := 1601
abbrev registrationDone1600 : Nat := 1600
abbrev reconnectionRequest827 : Nat := 827
abbrev reconnectionFailed1606 : Nat := 1606
abbrev validReconnectionAes1605 : Nat := 1605
abbrev sendPublicKeyRequest826 : Nat := 826
abbrev gotPublicSendAes1602 : Nat := 1602
abbrev sendFileRequest828 : Nat := 828
abbrev fileReceivedCrc1603 : Nat := 1603
abbrev validCrcRequest900 : Nat := 900
abbrev thankYouClient1604 : Nat := 1604
abbrev generalError1607 : Nat := 1607
abbrev invalidCrcRequest901 : Nat := 901
abbrev invalidCrc4thRequest902 : Nat := 902

abbrev aesKeySize : Nat := 32
abbrev clientNameSize : Nat := 255
abbrev clientIdSize : Nat := 16
abbrev versionSize : Nat := 1
abbrev codeSize : Nat := 2
abbrev payloadSizeSize : Nat := 4
abbrev publicKeySize : Nat := 160
abbrev contentSizeSize : Nat := 4
abbrev origFileSizeSize : Nat := 4
abbrev totalPucketsSize : Nat := 2
abbrev pucketNumberSize : Nat := 2
abbrev fileNameSize : Nat := 255
abbrev crcSize : Nat := 4

end General

/-- A File object; a row of table files has the same four columns. -/
structure File where
  clientId : Bytes
  fileName : Text
  path : Text
  validCrc : Bool
deriving DecidableEq, Repr

/-- A row of table clients. Keys not yet set are the empty string. -/
structure ClientRow where
  clientId : Bytes
  clientName : Text
  publicKey : Bytes
  lastSeenDate : Nat
  aesKey : Bytes
deriving DecidableEq, Repr

structure Client extends ClientRow where
  filesList : List File
deriving DecidableEq, Repr

structure Tables where
  clients : List ClientRow
  files : List File
deriving DecidableEq, Repr

/-- The process and the disk. `db` holds the tables as sqlite last read or wrote them. -/
structure Server where
  clientsList : List Client
  dbExists : Bool
  db : Tables
  disk : FileTree

/-- An answer header: the object that `send_header_to_client` sends. -/
structure Answer where
  code : Nat
  payloadSize : Nat
deriving DecidableEq, Repr

/-- What follows the bytes still to arrive on a connection. -/
inductive Hangup where
  | idle
  | closed
  | reset
deriving DecidableEq, Repr

/-- One client socket. `avail` has arrived and is unread, the chunks of `pending`
arrive later, one after another; `sendsLeft` counts the sendall calls that
succeed, if not all do: after them the peer is gone, or with `full` it stays and
reads nothing, so that the send buffer is full. `sent` and `answers` record the
bytes and the answer headers of the calls that succeeded. -/
structure Conn where
  avail : Bytes
  pending : List Bytes
  hangup : Hangup
  blocking : Bool
  registered : Bool
  sendsLeft : Option Nat
  full : Bool := false
  sent : Bytes
  answers : List Answer
deriving DecidableEq, Repr

inductive PyError where
  | valueError
  | typeError
  | overflowError
  | unicodeDecodeError
  | blockingIOError
  | osError
  | connectionError
  | integrityError
  | databaseError
  | indexError
deriving DecidableEq, Repr

/-- The state a callback works on. `faults` decides the file and sqlite calls in
turn, `true` making the next one fail; calls past its end succeed. -/
structure World where
  server : Server
  conn : Conn
  faults : List Bool

/-- How sqlite keeps the tables in a file. A file that is no database with the two
tables has none; what a statement has written is read back. -/
structure Sqlite where
  tables : Bytes → Option Tables
  file : Bytes → Tables → Bytes
  tables_file : ∀ old t, tables (file old t) = some t

/-- The machine and the libraries under the server: its working directory, the
RSA operations, the AES block cipher, and sqlite, which keeps the tables in a file of
the working directory. Without it they are kept apart from the disk. -/
structure Platform where
  cwd : Location
  PublicKey : Type
  importKey : Bytes → Option PublicKey
  oaepEncrypt : PublicKey → Bytes → Bytes → Option Bytes
  length_oaepEncrypt : ∀ key seed plain cipher,
    oaepEncrypt key seed plain = some cipher → cipher.length < 2 ^ 31
  cipher : BlockCipher
  sqlite : Option Sqlite := none

/-- A platform on which no path leads to the tables. -/
structure Site extends Platform where
  apart : sqlite = none := by rfl

instance : CoeOut Site Platform := ⟨Site.toPlatform⟩

/-- The values drawn while one request is served. -/
structure Draws where
  uuid : Bytes
  aesKey : Bytes
  seed : Bytes
  now : Nat
  length_uuid : uuid.length = General.clientIdSize
  length_aesKey : aesKey.length = General.aesKeySize

abbrev Net (α : Type) : Type := Act Conn PyError α

abbrev Py (α : Type) : Type := Act World PyError α

def onConn {α : Type} (m : Net α) : Py α :=
  Act.onPart World.conn (fun c w => { w with conn := c }) m

def getServer : Py Server := ⟨fun w => (.done w.server, w)⟩

def setServer (s : Server) : Py Unit := Act.modify fun w => { w with server := s }

def modifyServer (f : Server → Server) : Py Unit :=
  Act.modify fun w => { w with server := f w.server }

/-- A file or sqlite call that may fail. -/
def tick : Py Unit := ⟨fun w =>
  match w.faults with
  | [] => (.done (), w)
  | false :: rest => (.done (), { w with faults := rest })
  | true :: rest => (.raised .osError, { w with faults := rest })⟩

/-! Objects of `clients_list` are referred to by their position in the list, which
only grows. -/

def getClient (client : Nat) : Py Client := do
  let s ← getServer
  Act.ofOption .indexError s.clientsList[client]?

def Server.modifyClient (s : Server) (client : Nat) (f : Client → Client) : Server :=
  { s with clientsList := s.clientsList.modify client f }

def Server.modifyFile (s : Server) (client file : Nat) (f : File → File) : Server :=
  s.modifyClient client fun c => { c with filesList := c.filesList.modify file f }

end SecureTransfer
