import SecureTransfer.Client.Functions

/-!
The functions of client.cpp. A function that calls itself to try again takes the
number of calls it may still make; objects passed by reference are returned.
-/

open Octets (Text toLittle ofLittle padTo uptoNul)
open Dialogue

namespace SecureTransfer
namespace ClientSide

/-- `TRY_AGAIN`, or exit after the last try. -/
def generalErrorHandle (request : Request) : Prog (Nat × Request) := do
  let request := request.addFailure
  unlessExit (request.numOfFailures ≠ maxTries)
  pure (tryAgain, request)

section
variable (kit : Toolkit)

/-- The part of `send_file` before the loop prepares this. -/
def payloadSizeWithoutMassage : Nat :=
  contentSizeSize + origFileSizeSize + packetNumberSize + totalPacketsSize + fileNameSize

/-- `while(encrypted_file_size_counter > 0)`. -/
def sendPackets (client : Client) (encryptedFile originalFile : Bytes) (totalPackets : Int) :
    Nat → Request → Int → Int → Int → Int → Prog Request
  | 0, request, _, _, _, counter => if counter > 0 then .stuck else pure request
  | turns + 1, request, packetNumber, start, stop, counter =>
      if counter > 0 then do
        let request := request.setPayloadSize (payloadSizeWithoutMassage + counter)
        let request := if counter > packetMaxSize then
          request.setPayloadSize (payloadSizeWithoutMassage + packetMaxSize) else request
        let request := request.appendNumberPayload (int32 encryptedFile.length) contentSizeSize
        let request := request.appendNumberPayload (int32 originalFile.length) origFileSizeSize
        let request := request.appendNumberPayload packetNumber packetNumberSize
        let request := request.appendNumberPayload totalPackets totalPacketsSize
        let request := request.appendStringPayload client.fileName nameOfClientSize
        let request := if counter > packetMaxSize then
          request.appendFileSlice encryptedFile start stop
        else request.appendFileSlice encryptedFile start (start + counter)
        request.sendToServer
        sendPackets client encryptedFile originalFile totalPackets turns request.clearPayload
          (int32 (packetNumber + 1)) (int32 (start + packetMaxSize))
          (int32 (stop + packetMaxSize)) (int32 (counter - packetMaxSize))
      else pure request

/-- The loop of `send_file` from its first turn. -/
def sendAllPackets (client : Client) (encryptedFile originalFile : Bytes)
    (totalPackets : Int) (request : Request) : Prog Request :=
  let size := int32 encryptedFile.length
  sendPackets client encryptedFile originalFile totalPackets size.toNat request 1 0
    packetMaxSize size

/-- The finish code, and the request objects afterwards. -/
def crcChecking (client : Client) (crcPacketRequest : Request) (encryptedFileSize : Int)
    (finishRequest : Request) : Prog (Nat × Request × Request) := do
  let answer ← Answer.getHeaderFromServer
  if answer.code = generalError1607 then do
    let (result, crcPacketRequest) ← generalErrorHandle crcPacketRequest
    pure (result, crcPacketRequest, finishRequest)
  else do
    unlessExit (answer.code = validFileAndCrc1603)
    Answer.readStringAndCheck client.clientId clientIdSize
    let contentSize ← Answer.getNumber contentSizeSize
    unlessExit (encryptedFileSize % 2 ^ kit.longWidth = contentSize)
    Answer.readStringAndCheck client.fileName fileNameSize
    let finishRequest := finishRequest.setClientID client.clientId
    let crc ← Answer.getNumber crcSize
    let wrong := client.crcValue ≠ crc
    let crcPacketRequest := if wrong then crcPacketRequest.addFailure else crcPacketRequest
    let finishCode :=
      if wrong then
        if crcPacketRequest.numOfFailures = maxTries then wrongCrc4th902
        else wrongCrcTryAgain901
      else validCrc900
    let finishRequest := finishRequest.setCode finishCode
    let finishRequest := finishRequest.setPayloadSize nameOfFileSize
    let finishRequest := finishRequest.appendStringPayload client.fileName nameOfClientSize
    finishRequest.sendToServer
    pure (finishCode, crcPacketRequest, finishRequest)

def theEnd (client : Client) : Nat → Request → Prog Unit
  | 0, _ => .stuck
  | tries + 1, finishRequest => do
      let answer ← Answer.getHeaderFromServer
      if answer.code = generalError1607 then do
        let (_, finishRequest) ← generalErrorHandle finishRequest
        finishRequest.sendToServer
        theEnd client tries finishRequest
      else do
        unlessExit (answer.code = thankYou1604)
        Answer.readStringAndCheck client.clientId clientIdSize

def sendFile (client : Client) : Nat → Request → Prog Unit
  | 0, _ => .stuck
  | tries + 1, request => do
      let originalFile ← fileByPath client.pathToFile
      let client := { client with crcValue := ClientCksum.memcrc kit.longWidth originalFile }
      let encryptedFile ← encryptFile kit client.encryptedAes client.privKey originalFile
      let request := (request.setClientID client.clientId).setCode sendFile828
      let totalPackets ← calculateTotalPackets (int32 encryptedFile.length)
      let request ← sendAllPackets client encryptedFile originalFile totalPackets request
      let (finishCode, request, finishRequest) ←
        crcChecking kit client request (int32 encryptedFile.length) Request.new
      if finishCode = wrongCrcTryAgain901 ∨ finishCode = tryAgain then
        sendFile client tries request.clearPayload
      else theEnd client maxTries finishRequest

def getAesKeyFromServer (client : Client) (answer : Answer) : Prog Client := do
  Answer.readStringAndCheck client.clientId clientIdSize
  let encryptedAes ← answer.getEncryptedAes
  pure { client with encryptedAes := encryptedAes }

/-- The client object afterwards. -/
def sendPublicKeyGetAes (client : Client) : Nat → Request → Prog Client
  | 0, _ => .stuck
  | tries + 1, request => do
      let keys ← ask .generateKeys
      let client := { client with privKey := keys.privateKey }
      createMeInfo kit client.nameClient client.privKey client.clientId
      createPrivKeyFile kit client.privKey
      let request := (request.setClientID client.clientId).setCode sendPublicKey826
      let request := request.setPayloadSize (nameOfClientSize + int32 keys.publicKey.length)
      let request := request.appendStringPayload client.nameClient nameOfClientSize
      let request := request.appendStringPayload keys.publicKey keys.publicKey.length
      request.sendToServer
      let answer ← Answer.getHeaderFromServer
      if answer.code = generalError1607 then do
        let (_, request) ← generalErrorHandle request
        sendPublicKeyGetAes client tries request.clearPayload
      else do
        unlessExit (answer.code = getPublicKeySendAes1602)
        getAesKeyFromServer client answer

def registering (client : Client) : Nat → Request → Prog Unit
  | 0, _ => .stuck
  | tries + 1, request => do
      let fakeId := List.replicate 32 0
      let request := (request.setClientID fakeId).setCode registering825
      let request := request.setPayloadSize nameOfClientSize
      let request := request.appendStringPayload client.nameClient nameOfClientSize
      request.sendToServer
      let answer ← Answer.getHeaderFromServer
      if answer.code = generalError1607 ∨ answer.code = registeringFailed1601 then do
        let (_, request) ← generalErrorHandle request
        registering client tries request.clearPayload
      else do
        unlessExit (answer.code = registeringDone1600)
        let client ← client.setClientID (← Answer.getClientID)
        let client ← sendPublicKeyGetAes kit client maxTries Request.new
        sendFile kit client maxTries Request.new

/-- The code of the last answer, with the objects that `registering` goes on with
after a 1606. -/
def reconnection (client : Client) : Nat → Request → Prog (Nat × Client × Request)
  | 0, _ => .stuck
  | tries + 1, request => do
      let privKey ← readPrivKey kit
      let client := { client with privKey := privKey }
      let content ← ask (.load meInfo)
      let lines := linesOf (content.getD [])
      unlessExit (client.nameClient = lines.getD 0 [])
      let client ← client.setClientID (convertHexToBytes (lines.getD 1 []))
      let request := (request.setClientID client.clientId).setCode reconnect827
      let request := request.setPayloadSize nameOfClientSize
      let request := request.appendStringPayload client.nameClient nameOfClientSize
      request.sendToServer
      let answer ← Answer.getHeaderFromServer
      if answer.code = generalError1607 then do
        let (_, request) ← generalErrorHandle request
        reconnection client tries request.clearPayload
      else if answer.code = invalidReconnect1606 then do
        let _ ← recv clientIdSize
        pure (invalidReconnect1606, client, request.clearPayload.restartFailures)
      else do
        unlessExit (answer.code = validReconnect1605)
        let client ← getAesKeyFromServer client answer
        sendFile kit client maxTries Request.new
        pure (validReconnect1605, client, request)

def readTransfer : Prog Client := do
  let content ← orExit (← ask (.load transferInfo))
  let lines := linesOf content
  let clientName := lines.getD 1 []
  unlessExit (clientName.length ≤ nameOfClientMaxSize)
  let pathToFile := lines.getD 2 []
  let fileName := findFileName pathToFile
  unlessExit (fileName.length ≠ fileNameSize)
  let client ← Client.new.setFileName fileName
  let connectionDetails := lines.getD 0 []
  let address := connectionDetails.takeWhile (· ≠ 58)
  let port := if 58 ∈ connectionDetails then connectionDetails.drop (address.length + 1)
    else connectionDetails
  ask (.connect address port)
  pure { client with nameClient := clientName, pathToFile := pathToFile }

def main : Prog Unit := do
  let client ← readTransfer
  let meInfoCheck ← ask (.load meInfo)
  if meInfoCheck.isSome then do
    let (answer, client, request) ← reconnection kit client maxTries Request.new
    if answer = invalidReconnect1606 then registering kit client maxTries request
    else pure ()
  else registering kit client maxTries Request.new

end
end ClientSide
end SecureTransfer
