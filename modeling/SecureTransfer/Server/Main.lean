import SecureTransfer.Server.Request

/-!
The callback of server.py for a readable connection, the start of the server from
its tables, and runs: callbacks on connections in any condition, and restarts.
-/

open Effects Act

namespace SecureTransfer

open Request

/-- The branch of `read` for a request whose header was accepted. -/
def dispatch (site : Platform) (draws : Draws) (r : Request) : Py Unit :=
  if r.code = General.registrationRequest825 then
    attempt (registrationRequest825 site draws) fun _ => onConn do
      cleanBuffer
      Answer.sendHeaderToClient ⟨General.registrationFailed1601, 0⟩
  else if r.code = General.reconnectionRequest827 then reconnectionRequest827 site draws r
  else if r.code = General.sendPublicKeyRequest826 then sendPublicKeyRequest826 site draws r
  else if r.code = General.sendFileRequest828 then sendFileRequest828 site draws r
  else if r.code = General.validCrcRequest900 ∨ r.code = General.invalidCrcRequest901 ∨
      r.code = General.invalidCrc4thRequest902 then crcResponse900901902 site draws r
  else raise .valueError

/-- The callback of server.py: serve one request of a readable connection. -/
def read (site : Platform) (draws : Draws) : Py Unit :=
  attempt
    (do
      match ← onConn getHeader with
      | none => onConn Conn.close
      | some r => do
          onConn r.headerValidation
          dispatch site draws r)
    fun _ => onConn do
      cleanBuffer
      Answer.sendHeaderToClient ⟨General.generalError1607, 0⟩

/-! `data_base_handle` runs in a new process, on whatever the disk and the
database file hold. Its `Client(...)` may create a folder, and raises if it cannot. -/

/-- `os.mkdir` unless the path exists. -/
def ensureDir (site : Platform) (path : Octets.Text) (disk : FileTree) : Option FileTree :=
  if disk.pathExists site.cwd path then some disk else disk.mkdir site.cwd path

def loadClients (site : Platform) : List ClientRow → FileTree → Option (List Client × FileTree)
  | [], disk => some ([], disk)
  | row :: rows, disk =>
      match ensureDir site (clientFolder row.clientName) disk with
      | none => none
      | some disk =>
          (loadClients site rows disk).map fun (clients, disk) =>
            ({ toClientRow := row, filesList := [] } :: clients, disk)

/-- Append one row of table files to every client with its id. -/
def loadFile (clients : List Client) (file : File) : List Client :=
  clients.map fun c =>
    if c.clientId = file.clientId then { c with filesList := c.filesList ++ [file] } else c

/-- Make the database unless its file exists, and read the tables. -/
def openDatabase (site : Platform) (s : Server) : Option Server :=
  match site.sqlite with
  | none => some { s with dbExists := true, db := if s.dbExists then s.db else .empty }
  | some sqlite =>
      if s.disk.occupied site.database then
        (site.stored sqlite s.disk).map fun tables => { s with dbExists := true, db := tables }
      else
        some { s with
          dbExists := true
          db := .empty
          disk := s.disk.setFile site.database (some (sqlite.file [] .empty)) }

/-- `none` when an exception leaves it and the server does not start. -/
def dataBaseHandle (site : Platform) (s : Server) : Option Server :=
  match openDatabase site s with
  | none => none
  | some s =>
      match loadClients site s.db.clients s.disk with
      | none => none
      | some (clients, disk) =>
          match ensureDir site General.folder disk with
          | none => none
          | some disk => some
              { s with clientsList := s.db.files.foldl loadFile clients, disk := disk }

inductive Event where
  | callback (draws : Draws) (conn : Conn)
  | restart

/-- The world in which a callback starts when no file or sqlite call fails. -/
def calm (s : Server) (c : Conn) : World := ⟨s, c, []⟩

/-- The server after an event; `none` when it does not start again. -/
def step (site : Platform) (s : Server) : Event → Option Server
  | .callback draws c => some ((read site draws).run (calm s c)).2.server
  | .restart => dataBaseHandle site s

end SecureTransfer
