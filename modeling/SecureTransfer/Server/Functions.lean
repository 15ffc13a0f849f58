import SecureTransfer.Server.Connection
import SecureTransfer.Server.Sql

/-!
The file calls of the server, and the helpers of various_functions.py and
clients.py that use them.
-/

open Octets (Text)
open Effects Act

namespace SecureTransfer

/-- `folder + '/' + client_name`. -/
def clientFolder (clientName : Text) : Text := General.folder ++ '/' :: clientName

/-- `folder + '/' + client_name + '/' + file_name`. -/
def filePath (clientName fileName : Text) : Text :=
  General.folder ++ '/' :: (clientName ++ '/' :: fileName)

/-! File calls raise when the path does not lead to a file they can work on. -/

def onDisk (f : FileTree → Option FileTree) : Py Unit := do
  tick
  let s ← getServer
  let disk ← ofOption .osError (f s.disk)
  setServer { s with disk := disk }

def openFile (site : Platform) (path : Text) (truncate : Bool) : Py Unit :=
  onDisk (·.openWrite site.cwd path truncate)

def writeFile (site : Platform) (path : Text) (content : Bytes) : Py Unit :=
  onDisk (·.append site.cwd path content)

def removeFile (site : Platform) (path : Text) : Py Unit := onDisk (·.remove site.cwd path)

def makeDir (site : Platform) (path : Text) : Py Unit := onDisk (·.mkdir site.cwd path)

def readFile (site : Platform) (path : Text) : Py Bytes := do
  tick
  let s ← getServer
  ofOption .osError (s.disk.readFile site.cwd path)

/-- `Client(client_name)`: the new object, and its folder unless the path exists. -/
def Client.init (site : Platform) (draws : Draws) (clientName : Text) : Py Client := do
  let path := clientFolder clientName
  let s ← getServer
  whenever (s.disk.pathExists site.cwd path = false) (makeDir site path)
  pure { clientId := draws.uuid, clientName := clientName, publicKey := [],
         lastSeenDate := draws.now, aesKey := [], filesList := [] }

def checkId (oldClientId newClientId : Bytes) : Py Unit :=
  require (oldClientId = newClientId) .valueError

/-- AES.new refuses a key of another length. -/
def aesKeyLengthOk (aesKey : Bytes) : Bool :=
  aesKey.length = 16 ∨ aesKey.length = 24 ∨ aesKey.length = 32

/-- AES.new, CBC decryption and unpadding. -/
def decryptContent (site : Platform) (aesKey encrypted : Bytes) : Option Bytes :=
  if aesKeyLengthOk aesKey then BlockMode.cbcDecrypt site.cipher aesKey encrypted else none

/-- Replace the ciphertext in a file by what it decrypts to. -/
def createDecryptedFile (site : Platform) (path : Text) (aesKey : Bytes) : Py Bytes := do
  let encryptedFileContent ← readFile site path
  let decryptedContent ←
    ofOption .valueError (decryptContent site aesKey encryptedFileContent)
  openFile site path true
  writeFile site path decryptedContent
  pure decryptedContent

def encryptByPublicKey (site : Platform) (draws : Draws) (publicKey aesKey : Bytes) :
    Py Bytes := do
  let rsaKey ← ofOption .valueError (site.importKey publicKey)
  ofOption .valueError (site.oaepEncrypt rsaKey draws.seed aesKey)

end SecureTransfer
