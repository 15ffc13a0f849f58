import SecureTransfer.Client.Request
import SecureTransfer.Client.Cksum

/-!
The helpers of various_functions.cpp, with the libraries they rest on as a
parameter.
-/

open Octets (Text toLittle ofLittle padTo uptoNul)
open BlockMode (BlockCipher)
open Dialogue

namespace SecureTransfer
namespace ClientSide

/-- The libraries under the client: RSA decryption with an encoded private key, base
64, the AES block cipher, and the number of bits of `unsigned long`. -/
structure Toolkit where
  rsaDecrypt : Bytes → Bytes → Option Bytes
  base64Encode : Bytes → Bytes
  base64Decode : Bytes → Bytes
  cipher : BlockCipher
  longWidth : Nat
  longWidth_ge : 32 ≤ longWidth

/-- A toolkit for runs in which nothing is decrypted. -/
def bareKit : Toolkit where
  rsaDecrypt := fun _ _ => none
  base64Encode := id
  base64Decode := id
  cipher := BlockMode.idCipher
  longWidth := 32
  longWidth_ge := Nat.le_refl 32

/-- A packet count that does not fit in 16 bits ends the program. -/
def calculateTotalPackets (fileSize : Int) : Prog Int := do
  let totalPackets := fileSize.tdiv packetMaxSize +
    (if fileSize.tmod packetMaxSize ≠ 0 then 1 else 0)
  unlessExit (totalPackets ≤ 65535)
  pure totalPackets

/-- What follows the last backslash. -/
def findFileName (pathToFile : Bytes) : Bytes := (pathToFile.splitOn 92).getLastD []

/-- The lines that `getline` yields. -/
def linesOf (content : Bytes) : List Bytes := content.splitOn 10

def meInfo : Bytes := [109, 101, 46, 105, 110, 102, 111]
def privKeyFile : Bytes := [112, 114, 105, 118, 46, 107, 101, 121]
def transferInfo : Bytes := [116, 114, 97, 110, 115, 102, 101, 114, 46, 105, 110, 102, 111]

def readPrivKey (kit : Toolkit) : Prog Bytes := do
  let content ← orExit (← ask (.load privKeyFile))
  pure (kit.base64Decode (linesOf content).flatten)

def hexDigit? (b : UInt8) : Option Nat :=
  if 48 ≤ b ∧ b ≤ 57 then some (b.toNat - 48)
  else if 97 ≤ b ∧ b ≤ 102 then some (b.toNat - 87)
  else if 65 ≤ b ∧ b ≤ 70 then some (b.toNat - 55)
  else none

def isSpace (b : UInt8) : Bool := b = 32 ∨ 9 ≤ b ∧ b ≤ 13

/-- `(char)strtol(s, NULL, 16)` of at most two characters: blanks and a sign may stand
before the digits, and what is not a number gives zero. -/
def hexByte : Bytes → UInt8
  | [a, b] =>
      match hexDigit? a, hexDigit? b with
      | some x, some y => UInt8.ofNat (16 * x + y)
      | some x, none => UInt8.ofNat x
      | none, some y =>
          if a = 45 then 0 - UInt8.ofNat y
          else if a = 43 ∨ isSpace a then UInt8.ofNat y else 0
      | none, none => 0
  | [a] => UInt8.ofNat ((hexDigit? a).getD 0)
  | _ => 0

def convertHexToBytes : Bytes → Bytes
  | [] => []
  | [a] => [hexByte [a]]
  | a :: b :: rest => hexByte [a, b] :: convertHexToBytes rest

def hexChar (n : Nat) : UInt8 := if n < 10 then UInt8.ofNat (48 + n) else UInt8.ofNat (87 + n)

def convertStringToHex (s : Bytes) : Bytes :=
  s.flatMap fun b => [hexChar (b.toNat / 16), hexChar (b.toNat % 16)]

/-- The whole file is handed to the cipher with its length as an `unsigned int`; a
decrypted key of the wrong length stops the program. -/
def encryptFile (kit : Toolkit) (encryptedAes privKey file : Bytes) : Prog Bytes := do
  let decryptedAes ← orExit (kit.rsaDecrypt privKey encryptedAes)
  unlessExit (decryptedAes.length = 32)
  pure (BlockMode.cbcEncrypt kit.cipher decryptedAes (file.take (file.length % 2 ^ 32)))

def fileByPath (path : Bytes) : Prog Bytes := do orExit (← ask (.load path))

def createMeInfo (kit : Toolkit) (clientName privateKey clientId : Bytes) : Prog Unit :=
  ask (.save meInfo (clientName ++ [10] ++ convertStringToHex clientId ++ [10] ++
    kit.base64Encode privateKey ++ [10]))

def createPrivKeyFile (kit : Toolkit) (privateKey : Bytes) : Prog Unit :=
  ask (.save privKeyFile (kit.base64Encode privateKey ++ [10]))

end ClientSide
end SecureTransfer
