import SecureTransfer.Server.Main

/-!
The select loop of server.py in one process: sockets are accepted, clients send bytes or leave,
and the callbacks of readable sockets run one after the other.
-/

open Effects Act

namespace SecureTransfer

/-- A socket that `sock.accept()` returns. -/
def Conn.incoming : Conn :=
  { avail := [], pending := [], hangup := .idle, blocking := true, registered := false,
    sendsLeft := none, sent := [], answers := [] }

/-- What `accept` does with the new socket: `setblocking(False)` and `sel.register`. -/
def accept : Net Unit := do
  Conn.setblocking false
  modify fun c => { c with registered := true }

/-- What `select` looks for: bytes, or the end of the connection. -/
def Conn.readable (c : Conn) : Bool := c.avail ≠ [] ∨ (c.pending = [] ∧ c.hangup ≠ .idle)

/-- The client sends bytes or leaves; the server's side of the connection stays. -/
structure Conn.Traffic (c c' : Conn) : Prop where
  avail : c.avail <+: c'.avail
  blocking : c'.blocking = c.blocking
  registered : c'.registered = c.registered
  sent : c'.sent = c.sent
  answers : c'.answers = c.answers

/-- The server, and its client sockets in the order in which they were accepted. -/
structure Loop where
  server : Server
  conns : List Conn

inductive LoopEvent where
  | accept
  | traffic (socket : Nat) (conn : Conn)
  | callback (draws : Draws) (faults : List Bool) (socket : Nat)

namespace Loop

/-- The callback of a socket in this loop. -/
def world (l : Loop) (c : Conn) (faults : List Bool) : World := ⟨l.server, c, faults⟩

/-- `none` when an exception leaves the callback, which ends the loop, or when the callback
waits. -/
def next (site : Platform) (l : Loop) : LoopEvent → Option Loop
  | .accept => some { l with conns := l.conns ++ [(SecureTransfer.accept.run .incoming).2] }
  | .traffic socket c => some { l with conns := l.conns.set socket c }
  | .callback draws faults socket =>
      match l.conns[socket]? with
      | none => none
      | some c =>
          match (read site draws).run (l.world c faults) with
          | (.done (), w) => some ⟨w.server, l.conns.set socket w.conn⟩
          | (.raised _, _) => none
          | (.blocked, _) => none

/-- Traffic is that of an open socket, and callbacks are those of readable ones. -/
def Admissible (l : Loop) : LoopEvent → Prop
  | .accept => True
  | .traffic socket c' => ∃ c, l.conns[socket]? = some c ∧ c.Traffic c'
  | .callback _ _ socket => ∃ c, l.conns[socket]? = some c ∧ c.registered ∧ c.readable

end Loop
end SecureTransfer
