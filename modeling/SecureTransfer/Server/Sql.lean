import SecureTransfer.Server.State

/-!
The statements of sql.py on the two tables. Each opens the database, runs one
statement and commits, so a call that fails leaves the tables as they were. The
database is a file of the working directory, which the file calls of the server can
reach like any other file.
-/

open Octets (Text)
open Effects Act

namespace SecureTransfer

namespace Tables

def empty : Tables := ⟨[], []⟩

/-- `UPDATE clients SET ... WHERE client_id = ?`. -/
def updateClients (t : Tables) (clientId : Bytes) (f : ClientRow → ClientRow) : Tables :=
  { t with clients := t.clients.map fun r => if r.clientId = clientId then f r else r }

/-- `UPDATE files SET valid_crc = ? WHERE client_id = ?`. -/
def setValidCrc (t : Tables) (clientId : Bytes) (flag : Bool) : Tables :=
  { t with files := t.files.map fun r =>
      if r.clientId = clientId then { r with validCrc := flag } else r }

/-- `DELETE FROM files WHERE file_name = ?`. -/
def deleteFile (t : Tables) (fileName : Text) : Tables :=
  { t with files := t.files.filter fun r => r.fileName ≠ fileName }

end Tables

namespace Platform

/-- The file `defensive.db`. -/
def database (site : Platform) : Location :=
  site.cwd ++ [['d', 'e', 'f', 'e', 'n', 's', 'i', 'v', 'e', '.', 'd', 'b']]

/-- The tables that sqlite finds. -/
def stored (site : Platform) (sqlite : Sqlite) (disk : FileTree) : Option Tables :=
  (disk.content site.database).bind sqlite.tables

/-- A statement that has changed the tables is written to the file. -/
def save (site : Platform) (s : Server) : Server :=
  match site.sqlite with
  | none => s
  | some sqlite =>
      let old := (s.disk.content site.database).getD []
      { s with disk := s.disk.setFile site.database (some (sqlite.file old s.db)) }

end Platform

namespace Sql

/-- `sqlite3.connect`, which makes an empty file if there is none, and the look at the
tables that a statement begins with. -/
def connect (site : Platform) : Py Unit := do
  tick
  match site.sqlite with
  | none => pure ()
  | some sqlite => do
      modifyServer fun s => { s with disk := s.disk.touch site.database }
      let s ← getServer
      let tables ← ofOption .databaseError (site.stored sqlite s.disk)
      setServer { s with db := tables }

def modifyTables (site : Platform) (f : Tables → Tables) : Py Unit :=
  modifyServer fun s => site.save { s with db := f s.db }

def setLastseenDate (site : Platform) (now : Nat) (clientId : Bytes) : Py Unit := do
  connect site
  modifyTables site (·.updateClients clientId fun r => { r with lastSeenDate := now })

def setValidCrc (site : Platform) (clientId : Bytes) (flag : Bool) : Py Unit := do
  connect site
  modifyTables site (·.setValidCrc clientId flag)

/-- Raises, before it commits, when no row was deleted. -/
def deleteFile (site : Platform) (fileName : Text) : Py Unit := do
  connect site
  let s ← getServer
  if s.db.files.any (·.fileName = fileName) then modifyTables site (·.deleteFile fileName)
  else raise .valueError

/-- The primary key of table clients is client_id. -/
def addClientDb (site : Platform) (newClient : Client) : Py Unit := do
  connect site
  let s ← getServer
  if s.db.clients.any (·.clientId = newClient.clientId) then raise .integrityError
  else modifyTables site fun t => { t with clients := t.clients ++ [newClient.toClientRow] }

/-- The primary key of table files is (client_id, file_name). -/
def addFileDb (site : Platform) (newFile : File) : Py Unit := do
  connect site
  let s ← getServer
  if s.db.files.any fun r => r.clientId = newFile.clientId ∧ r.fileName = newFile.fileName
  then raise .integrityError
  else modifyTables site fun t => { t with files := t.files ++ [newFile] }

def setAesKey (site : Platform) (aesKey clientId : Bytes) : Py Unit := do
  connect site
  modifyTables site (·.updateClients clientId fun r => { r with aesKey := aesKey })

def setPublicKey (site : Platform) (publicKey clientId : Bytes) : Py Unit := do
  connect site
  modifyTables site (·.updateClients clientId fun r => { r with publicKey := publicKey })

/-! On a site the database is no file. -/

theorem connect_apart (site : Site) : connect site = tick := by
  rw [connect, site.apart]
  exact bind_pure_unit

theorem modifyTables_apart (site : Site) (f : Tables → Tables) :
    modifyTables site f = modifyServer fun s => { s with db := f s.db } := by
  simp only [modifyTables, Platform.save, site.apart]

end Sql
end SecureTransfer
