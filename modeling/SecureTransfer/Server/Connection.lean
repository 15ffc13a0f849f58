import SecureTransfer.Server.State

/-!
The socket calls of the server on one connection, the numbers on the wire and
`clean_buffer`. A call that reads returns at most what has arrived; with nothing
there it raises on a non-blocking socket and waits on a blocking one.
-/

open Octets (Text toLittle ofLittle decodeUtf8)
open Effects Act

namespace SecureTransfer

namespace Conn

def take (n : Nat) (c : Conn) : Conn := { c with avail := c.avail.drop n }

/-- `conn.recv(n)`. -/
def recv (n : Int) : Net Bytes := ⟨fun c =>
  if n < 0 then (.raised .valueError, c)
  else if n = 0 then (.done [], c)
  else if c.avail ≠ [] then (.done (c.avail.take n.toNat), c.take n.toNat)
  else
    match c.pending, c.hangup with
    | chunk :: rest, _ =>
        if c.blocking then
          (.done (chunk.take n.toNat),
            { c with avail := chunk.drop n.toNat, pending := rest })
        else (.raised .blockingIOError, c)
    | [], .idle => if c.blocking then (.blocked, c) else (.raised .blockingIOError, c)
    | [], .closed => (.done [], c)
    | [], .reset => (.raised .connectionError, c)⟩

/-- `conn.sendall(data)`. With a full send buffer it raises on a non-blocking socket and
waits on a blocking one. -/
def sendall (data : Bytes) : Net Unit := ⟨fun c =>
  match c.sendsLeft with
  | none => (.done (), { c with sent := c.sent ++ data })
  | some (n + 1) => (.done (), { c with sent := c.sent ++ data, sendsLeft := some n })
  | some 0 =>
      if c.full = false then (.raised .connectionError, c)
      else if c.blocking then (.blocked, c)
      else (.raised .blockingIOError, c)⟩

def setblocking (flag : Bool) : Net Unit := modify fun c => { c with blocking := flag }

/-- `sel.unregister(conn)` and `conn.close()`. -/
def close : Net Unit := modify fun c => { c with registered := false }

/-- The loop of `clean_buffer`. Every turn but the last reads a byte, so the bytes
that have arrived bound the number of turns. -/
def drain : Nat → Net Unit
  | 0 => pure ()
  | turns + 1 => do
      let packet ← recv 4096
      if packet = [] then pure () else drain turns

end Conn

def cleanBuffer : Net Unit := do
  Conn.setblocking false
  let c ← get
  attempt (Conn.drain (c.avail.length + 1)) fun _ => pure ()
  Conn.setblocking true

def convertByteToInt (data : Bytes) : Nat := ofLittle data

def convertIntToByte (n size : Nat) : Net Bytes :=
  ofOption .overflowError (if n < 256 ^ size then some (toLittle size n) else none)

namespace Answer

def sendHeaderToClient (a : Answer) : Net Unit := do
  let version ← convertIntToByte General.version General.versionSize
  Conn.sendall version
  let code ← convertIntToByte a.code General.codeSize
  Conn.sendall code
  let payloadSize ← convertIntToByte a.payloadSize General.payloadSizeSize
  Conn.sendall payloadSize
  modify fun c => { c with answers := c.answers ++ [a] }

end Answer

/-- Read a text field: `conn.recv(size).decode('utf-8').replace('\0', '')`. -/
def recvText (size : Nat) : Net Text := do
  let data ← Conn.recv size
  let text ← ofOption .unicodeDecodeError (decodeUtf8 data)
  pure (text.filter (· ≠ '\x00'))

def recvNumber (size : Nat) : Net Nat := do
  let data ← Conn.recv size
  pure (convertByteToInt data)

end SecureTransfer
