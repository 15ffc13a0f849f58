import SecureTransfer.Library.BlockMode
import SecureTransfer.Library.Dialogue

/-!
The constants of global.h, and the objects of request.cpp, answer.cpp and
client_ob.cpp. Numbers are `int`s of 32 bits; a conversion that does not fit wraps.
-/

open Octets (Text toLittle ofLittle padTo uptoNul)
open BlockMode (BlockCipher)
open Dialogue

namespace SecureTransfer
namespace ClientSide

abbrev version : Nat := 3
abbrev maxTries : Nat := 4
abbrev tryAgain : Nat := 0

abbrev nameOfClientMaxSize : Nat := 100
abbrev nameOfClientSize : Nat := 255
abbrev nameOfFileSize : Nat := 255
abbrev payloadSizeSize : Nat := 4
abbrev codeSize : Nat := 2
abbrev versionSize : Nat := 1
abbrev clientIdSize : Nat := 16
abbrev packetMaxSize : Nat := 4096
abbrev contentSizeSize : Nat := 4
abbrev origFileSizeSize : Nat := 4
abbrev packetNumberSize : Nat := 2
abbrev totalPacketsSize : Nat := 2
abbrev fileNameSize : Nat := 255
abbrev crcSize : Nat := 4

abbrev invalidReconnect1606 : Nat := 1606
abbrev generalError1607 : Nat := 1607
abbrev validReconnect1605 : Nat := 1605
abbrev validFileAndCrc1603 : Nat := 1603
abbrev thankYou1604 : Nat := 1604
abbrev registeringFailed1601 : Nat := 1601
abbrev registeringDone1600 : Nat := 1600
abbrev getPublicKeySendAes1602 : Nat := 1602

abbrev reconnect827 : Nat := 827
abbrev sendFile828 : Nat := 828
abbrev validCrc900 : Nat := 900
abbrev wrongCrcTryAgain901 : Nat := 901
abbrev wrongCrc4th902 : Nat := 902
abbrev registering825 : Nat := 825
abbrev sendPublicKey826 : Nat := 826

/-- The value of an `int` converted from a wider integer. -/
def int32 (x : Int) : Int := x.bmod (2 ^ 32)

theorem int32_of_lt {x : Int} (hlow : -2 ^ 31 ≤ x) (h : x < 2 ^ 31) : int32 x = x := by
  rw [int32, Int.bmod_eq_of_le] <;> omega

/-- `store_little_u16`, `store_little_u32`: the lowest bytes of a number. -/
def storeLittle (size : Nat) (x : Int) : Bytes := toLittle size (x % 256 ^ size).toNat

structure KeyPair where
  privateKey : Bytes
  publicKey : Bytes
deriving DecidableEq, Repr

/-- What the client asks of its machine: reading a file (`none` if it is not there),
writing one, generating RSA keys, connecting to an address and port. -/
inductive Query where
  | load (path : Bytes)
  | save (path content : Bytes)
  | generateKeys
  | connect (address port : Bytes)
deriving DecidableEq, Repr

abbrev Query.Result : Query → Type
  | .load _ => Option Bytes
  | .save _ _ => Unit
  | .generateKeys => KeyPair
  | .connect _ _ => Unit

abbrev Prog (α : Type) : Type := Dialogue.Prog Bytes Query Query.Result α

/-- `boost::asio::read` of that many bytes; if it fails the program exits. -/
def recv (size : Nat) : Prog Bytes := .recv size .ret

def ask (q : Query) : Prog q.Result := .query q .ret

/-- Exit unless the condition holds. -/
def unlessExit (c : Prop) [Decidable c] : Prog Unit := if c then pure () else .exit

def orExit {α : Type} : Option α → Prog α
  | some a => pure a
  | none => .exit

structure Request where
  numOfFailures : Nat
  clientId : Bytes
  version : Bytes
  code : Bytes
  payloadSize : Bytes
  payload : Bytes
deriving DecidableEq, Repr

namespace Request

def new : Request :=
  { numOfFailures := 0, clientId := List.replicate clientIdSize 0,
    version := [UInt8.ofNat ClientSide.version], code := List.replicate codeSize 0,
    payloadSize := List.replicate payloadSizeSize 0, payload := [] }

def getCode (r : Request) : Nat := ofLittle r.code

/-- Ids have 16 or 32 bytes. -/
def setClientID (id : Bytes) (r : Request) : Request :=
  { r with clientId := (padTo clientIdSize id).take clientIdSize }

def setCode (code : Nat) (r : Request) : Request :=
  { r with code := storeLittle codeSize code }

def setPayloadSize (size : Int) (r : Request) : Request :=
  { r with payloadSize := storeLittle payloadSizeSize size }

def appendStringPayload (payload : Bytes) (wantedSize : Nat) (r : Request) : Request :=
  { r with payload := r.payload ++ padTo wantedSize payload }

def appendNumberPayload (num : Int) (size : Nat) (r : Request) : Request :=
  { r with payload := r.payload ++ storeLittle size num }

/-- The bytes from index `begin` up to `stop`. -/
def appendFileSlice (encryptedFile : Bytes) (start stop : Int) (r : Request) : Request :=
  { r with
    payload := r.payload ++ (encryptedFile.drop start.toNat).take (stop - start).toNat }

def clearPayload (r : Request) : Request := { r with payload := [] }

def addFailure (r : Request) : Request := { r with numOfFailures := r.numOfFailures + 1 }

def restartFailures (r : Request) : Request := { r with numOfFailures := 0 }

/-- The whole request, as it is written to the socket. -/
def massage (r : Request) : Bytes :=
  r.clientId ++ r.version ++ r.code ++ r.payloadSize ++ r.payload

/-- An error while writing is reported, and the program goes on. -/
def sendToServer (r : Request) : Prog Unit := .send r.massage (.ret ())

end Request

structure Answer where
  version : Nat
  code : Nat
  payloadSize : Int
deriving DecidableEq, Repr

namespace Answer

def getHeaderFromServer : Prog Answer := do
  let version ← recv versionSize
  let code ← recv codeSize
  let payloadSize ← recv payloadSizeSize
  unlessExit (ofLittle version = ClientSide.version)
  pure ⟨ofLittle version, ofLittle code, int32 (ofLittle payloadSize)⟩

/-- The comparison of `read_string_and_check`, after the cut at the first NUL. -/
def stringAccepted (expected received : Bytes) : Bool := uptoNul received = expected

def readStringAndCheck (expected : Bytes) (size : Nat) : Prog Unit := do
  let received ← recv size
  unlessExit (stringAccepted expected received)

/-- A size below that of the id is converted to a length no string can have. -/
def getEncryptedAes (a : Answer) : Prog Bytes := do
  unlessExit (clientIdSize ≤ a.payloadSize)
  recv (a.payloadSize - clientIdSize).toNat

def getNumber (numOfBytes : Nat) : Prog Nat := do
  let data ← recv numOfBytes
  pure (ofLittle data)

def getClientID : Prog Bytes := recv clientIdSize

end Answer

structure Client where
  nameClient : Bytes
  fileName : Bytes
  clientId : Bytes
  pathToFile : Bytes
  encryptedAes : Bytes
  privKey : Bytes
  crcValue : Nat
deriving DecidableEq, Repr

namespace Client

def new : Client := ⟨[], [], [], [], [], [], 0⟩

/-- `strcpy_s` stops the program if the name does not fit its buffer. -/
def setFileName (name : Bytes) (c : Client) : Prog Client := do
  unlessExit ((uptoNul name).length < nameOfFileSize)
  pure { c with fileName := uptoNul name }

def setClientID (id : Bytes) (c : Client) : Prog Client := do
  unlessExit (id.length = clientIdSize)
  pure { c with clientId := id }

end Client

end ClientSide
end SecureTransfer
