import SecureTransfer.Service.Invariant

/-!
The handlers compute the service. On a well-formed server, when no file or sqlite
call fails, the part of a handler that follows its reads leaves the connection
alone, moves the server to the state the service gives, and then sends the answer
of the service, finishes silently or raises.
-/

open Octets (Text encodeUtf8 padTo toLittle)
open Effects Act

namespace SecureTransfer

def sendParts : List Bytes → Net Unit
  | [] => pure ()
  | part :: parts => do
      Conn.sendall part
      sendParts parts

def Message.send (m : Message) : Net Unit := do
  Answer.sendHeaderToClient m.header
  sendParts m.parts

/-- A command started in a calm world on connection `c` ends as the service says, on
connection `c'` unless the service rejected the request before reading on. -/
def Refines (m : Py Unit) (s : Server) (c c' : Conn) (r : Server × Reply) : Prop :=
  match r.2 with
  | .silent => m.run (calm s c) = (.done (), calm r.1 c')
  | .answer msg => m.run (calm s c) = (onConn msg.send).run (calm r.1 c')
  | .rejected => ∃ e, m.run (calm s c) = (.raised e, calm r.1 c')
  | .rejectedUnread => ∃ e, m.run (calm s c) = (.raised e, calm r.1 c)
  | .waits => m.run (calm s c) = (.blocked, calm r.1 c')

theorem Refines.bind {α : Type} {m : Py α} {f : α → Py Unit} {s t : Server} {c c' : Conn}
    {a : α} {r : Server × Reply} (hm : m.run (calm s c) = (.done a, calm t c))
    (hf : Refines (f a) t c c' r) : Refines (m >>= f) s c c' r := by
  obtain ⟨s', reply⟩ := r
  cases reply <;> simp only [Refines, bind_done hm] at hf ⊢ <;> exact hf

theorem Refines.bindRead {α : Type} {m : Py α} {f : α → Py Unit} {s : Server} {c c' : Conn}
    {a : α} {r : Server × Reply} (hm : m.run (calm s c) = (.done a, calm s c'))
    (hf : Refines (f a) s c' c' r) (hr : r.2 ≠ .rejectedUnread) :
    Refines (m >>= f) s c c' r := by
  obtain ⟨s', reply⟩ := r
  cases reply with
  | rejectedUnread => exact absurd rfl hr
  | silent | answer _ | rejected | waits =>
      simp only [Refines, bind_done hm] at hf ⊢
      exact hf

theorem Refines.raise (e : PyError) (s : Server) (c : Conn) :
    Refines (Act.raise e) s c c (s, .rejected) := ⟨e, rfl⟩

theorem Refines.raised {α : Type} {m : Py α} {f : α → Py Unit} {s t : Server} {c c' : Conn}
    {e : PyError} (hm : m.run (calm s c) = (.raised e, calm t c')) :
    Refines (m >>= f) s c c' (t, .rejected) := ⟨e, bind_raised hm⟩

theorem Refines.send {m : Net Unit} {msg : Message} (s : Server) (c : Conn)
    (h : m = msg.send) : Refines (onConn m) s c c (s, .answer msg) := by
  rw [h]
  rfl

/-! The calls the handlers are made of, in a calm world. -/

section
variable (s : Server) (c : Conn)

theorem tick_calm : tick.run (calm s c) = (.done (), calm s c) := rfl

theorem getServer_calm : getServer.run (calm s c) = (.done s, calm s c) := rfl

theorem modifyServer_calm (f : Server → Server) :
    (modifyServer f).run (calm s c) = (.done (), calm (f s) c) := rfl

theorem connect_calm (site : Site) :
    (Sql.connect site).run (calm s c) = (.done (), calm s c) := by
  rw [Sql.connect_apart]
  rfl

theorem modifyTables_calm (site : Site) (f : Tables → Tables) :
    (Sql.modifyTables site f).run (calm s c) = (.done (), calm { s with db := f s.db } c) := by
  rw [Sql.modifyTables_apart]
  rfl

theorem setLastseenDate_calm (site : Site) (now : Nat) (clientId : Bytes) :
    (Sql.setLastseenDate site now clientId).run (calm s c) = (.done (),
      calm { s with db := s.db.updateClients clientId fun r =>
        { r with lastSeenDate := now } } c) := by
  rw [Sql.setLastseenDate, bind_done (connect_calm s c site), modifyTables_calm]

theorem setValidCrc_calm (site : Site) (clientId : Bytes) (flag : Bool) :
    (Sql.setValidCrc site clientId flag).run (calm s c) =
      (.done (), calm { s with db := s.db.setValidCrc clientId flag } c) := by
  rw [Sql.setValidCrc, bind_done (connect_calm s c site), modifyTables_calm]

theorem setAesKey_calm (site : Site) (aesKey clientId : Bytes) :
    (Sql.setAesKey site aesKey clientId).run (calm s c) = (.done (),
      calm { s with db := s.db.updateClients clientId fun r => { r with aesKey := aesKey } }
        c) := by
  rw [Sql.setAesKey, bind_done (connect_calm s c site), modifyTables_calm]

theorem setPublicKey_calm (site : Site) (publicKey clientId : Bytes) :
    (Sql.setPublicKey site publicKey clientId).run (calm s c) = (.done (),
      calm { s with db := s.db.updateClients clientId fun r =>
        { r with publicKey := publicKey } } c) := by
  rw [Sql.setPublicKey, bind_done (connect_calm s c site), modifyTables_calm]

end

variable {s : Server} {i : Nat} {cl : Client}

theorem getClient_calm (c : Conn) (h : s.clientsList[i]? = some cl) :
    (getClient i).run (calm s c) = (.done cl, calm s c) := by
  rw [getClient, bind_done (getServer_calm s c), h]
  rfl

theorem onDisk_some {f : FileTree → Option FileTree} {disk : FileTree} (c : Conn)
    (h : f s.disk = some disk) :
    (onDisk f).run (calm s c) = (.done (), calm { s with disk := disk } c) := by
  rw [onDisk, bind_done (tick_calm s c), bind_done (getServer_calm s c), h]
  rfl

theorem onDisk_none {f : FileTree → Option FileTree} (c : Conn) (h : f s.disk = none) :
    (onDisk f).run (calm s c) = (.raised .osError, calm s c) := by
  rw [onDisk, bind_done (tick_calm s c), bind_done (getServer_calm s c), h]
  rfl

theorem readFile_calm (site : Site) (path : Text) (c : Conn) :
    (readFile site path).run (calm s c) =
      (ofOption .osError (s.disk.readFile site.cwd path)).run (calm s c) := by
  rw [readFile, bind_done (tick_calm s c), bind_done (getServer_calm s c)]

/-- Opening a file for writing fails exactly when `store` does; otherwise writing it
completes the `store`. -/
theorem openFile_writeFile {site : Site} {path : Text} {truncate : Bool} {content : Bytes}
    {disk : FileTree} (c : Conn)
    (h : s.disk.store site.cwd path truncate content = some disk) :
    ∃ opened : FileTree,
      (openFile site path truncate).run (calm s c) =
        (.done (), calm { s with disk := opened } c) ∧
      (writeFile site path content).run (calm { s with disk := opened } c) =
        (.done (), calm { s with disk := disk } c) := by
  rw [← FileTree.openWrite_append, Option.bind_eq_some_iff] at h
  obtain ⟨opened, hopen, happend⟩ := h
  exact ⟨opened, onDisk_some c hopen, onDisk_some c happend⟩

theorem openFile_none {site : Site} {path : Text} {truncate : Bool} {content : Bytes}
    (c : Conn) (h : s.disk.store site.cwd path truncate content = none) :
    (openFile site path truncate).run (calm s c) = (.raised .osError, calm s c) := by
  apply onDisk_none
  cases hl : s.disk.locate site.cwd path with
  | none => simp [FileTree.openWrite, hl]
  | some q =>
      cases hd : s.disk.isDir q with
      | true => simp [FileTree.openWrite, hl, hd]
      | false => simp [FileTree.store, hl, hd] at h

theorem lastSeen_calm {site : Site} (draws : Draws) (c : Conn) (hn : s.ids.Nodup)
    (h : s.clientsList[i]? = some cl) :
    (lastSeen site draws i).run (calm s c) = (.done (), calm (s.seen draws cl.clientId) c) := by
  rw [lastSeen, bind_done (getClient_calm c h), bind_done (setLastseenDate_calm s c site _ _),
    modifyServer_calm]
  congr 2
  exact Server.modifyClient_row hn h rfl rfl

theorem createSendAes_refines (site : Site) (draws : Draws) (code : Nat) (cl : Client)
    (c : Conn) (hn : s.ids.Nodup) (h : s.clientsList[i]? = some cl) :
    Refines (createSendAes site draws code i) s c c
      (sendNewAesKey site draws s code cl.clientId cl.publicKey) := by
  have hget : (s.modifyClient i fun x => { x with aesKey := draws.aesKey }).clientsList[i]? =
      some { cl with aesKey := draws.aesKey } := by
    simp [Server.modifyClient, h]
  have hkey : ({ s.modifyClient i (fun x => { x with aesKey := draws.aesKey }) with
      db := s.db.updateClients cl.clientId fun r => { r with aesKey := draws.aesKey } } :
      Server) = s.withAesKey cl.clientId draws.aesKey :=
    Server.modifyClient_row hn h rfl rfl
  apply Refines.bind (modifyServer_calm s c _)
  apply Refines.bind (getClient_calm c hget)
  apply Refines.bind (setAesKey_calm _ c site _ _)
  change Refines _ { s.modifyClient i (fun x => { x with aesKey := draws.aesKey }) with
      db := s.db.updateClients cl.clientId fun r => { r with aesKey := draws.aesKey } } c c _
  rw [hkey, sendNewAesKey, encryptByPublicKey]
  cases hi : site.importKey cl.publicKey with
  | none => exact Refines.raise _ _ c
  | some rsaKey =>
      cases he : site.oaepEncrypt rsaKey draws.seed draws.aesKey with
      | none =>
          simp only [ofOption_some, pure_bind, he, ofOption_none, raise_bind]
          simpa only [Option.bind_some, he] using Refines.raise _ _ c
      | some encrypted =>
          simp only [ofOption_some, pure_bind, he, Option.bind_some]
          apply Refines.send
          simp [Message.send, Message.aesKey, sendParts]

/-- Looking a client up by position finds the client the service finds. -/
theorem client?_of_findIdx? {clientId : Bytes}
    (h : s.clientsList.findIdx? (·.clientId = clientId) = some i) :
    ∃ cl, s.clientsList[i]? = some cl ∧ s.client? clientId = some cl ∧
      cl.clientId = clientId := by
  obtain ⟨cl, hget, hfind, hp⟩ := Keyed.findIdx?_some h
  exact ⟨cl, hget, hfind, by simpa using hp⟩

theorem named?_of_findIdx? {name : Text}
    (h : s.clientsList.findIdx? (·.clientName = name) = some i) :
    ∃ cl, s.clientsList[i]? = some cl ∧ s.named? name = some cl := by
  obtain ⟨cl, hget, hfind, -⟩ := Keyed.findIdx?_some h
  exact ⟨cl, hget, hfind⟩

theorem checkId_calm (a b : Bytes) (s : Server) (c : Conn) :
    (checkId a b).run (calm s c) =
      if a = b then (.done (), calm s c) else (.raised .valueError, calm s c) := by
  by_cases h : a = b <;> simp [checkId, h]

theorem reconnect_refines (site : Site) (draws : Draws) (clientId : Bytes) (name : Text)
    (s : Server) (c : Conn) (hn : s.ids.Nodup) :
    Refines (Request.reconnect site draws clientId name) s c c
      (serveReconnection site draws s clientId name) := by
  apply Refines.bind (getServer_calm s c)
  cases hi : s.clientsList.findIdx? (·.clientName = name) with
  | none =>
      have hnone : s.named? name = none := Keyed.findIdx?_none hi
      simp only [serveReconnection, hnone]
      apply Refines.send
      simp [Request.reconnectionFailed, Message.send, Message.reconnectionFailed, sendParts]
  | some i =>
      obtain ⟨cl, hget, hnamed⟩ := named?_of_findIdx? hi
      simp only [serveReconnection, hnamed]
      apply Refines.bind (getClient_calm c hget)
      by_cases hid : clientId = cl.clientId
      · rw [if_neg (by simpa using hid)]
        apply Refines.bind (a := ()) (by rw [checkId_calm, if_pos hid])
        subst hid
        apply Refines.bind (lastSeen_calm draws c hn hget)
        cases hkey : site.importKey cl.publicKey with
        | none =>
            apply Refines.send
            simp [Request.reconnectionFailed, Message.send, Message.reconnectionFailed,
              sendParts]
        | some _ =>
            exact createSendAes_refines site draws _ { cl with lastSeenDate := draws.now } c
              (by rwa [Server.ids_seen]) (Server.getElem?_seen hget)
      · rw [if_pos hid]
        exact Refines.raised (by rw [checkId_calm, if_neg hid])

theorem clientInit_some {site : Site} {draws : Draws} {name : Text} {disk : FileTree}
    (c : Conn) (h : ensureDir site (clientFolder name) s.disk = some disk) :
    (Client.init site draws name).run (calm s c) =
      (.done { clientId := draws.uuid, clientName := name, publicKey := [],
               lastSeenDate := draws.now, aesKey := [], filesList := [] },
        calm { s with disk := disk } c) := by
  rw [Client.init, bind_done (getServer_calm s c)]
  unfold ensureDir at h
  split at h
  · rename_i hexists
    obtain rfl := Option.some.inj h
    rw [whenever_neg (by simp [hexists])]
    rfl
  · rename_i hexists
    rw [whenever_pos (by simpa using hexists), makeDir, bind_done (onDisk_some c h)]
    rfl

theorem clientInit_none {site : Site} {draws : Draws} {name : Text} (c : Conn)
    (h : ensureDir site (clientFolder name) s.disk = none) :
    (Client.init site draws name).run (calm s c) = (.raised .osError, calm s c) := by
  rw [Client.init, bind_done (getServer_calm s c)]
  unfold ensureDir at h
  split at h
  · cases h
  · rename_i hexists
    rw [whenever_pos (by simpa using hexists), makeDir, bind_raised (onDisk_none c h)]

theorem addClientDb_calm {site : Site} (c : Conn)
    (h : cl.clientId ∉ s.db.clients.map (·.clientId)) :
    (Sql.addClientDb site cl).run (calm s c) = (.done (),
      calm { s with db := { s.db with clients := s.db.clients ++ [cl.toClientRow] } } c) := by
  have hkey : ¬ s.db.clients.any (·.clientId = cl.clientId) = true := by
    simpa using h
  rw [Sql.addClientDb, bind_done (connect_calm s c site), bind_done (getServer_calm s c),
    if_neg hkey, modifyTables_calm]

theorem register_refines (site : Site) (draws : Draws) (name : Text) (s : Server) (c : Conn)
    (hs : WellFormed s) (hfresh : draws.uuid ∉ s.ids) :
    Refines (Request.register site draws name) s c c (serveRegistration site draws s name) := by
  apply Refines.bind (getServer_calm s c)
  cases hi : s.clientsList.findIdx? (·.clientName = name) with
  | some i =>
      obtain ⟨cl, hget, hnamed⟩ := named?_of_findIdx? hi
      simp only [serveRegistration, hnamed]
      apply Refines.bind (lastSeen_calm draws c hs.idsDistinct hget)
      exact Refines.raise _ _ c
  | none =>
      have hnone : s.named? name = none := Keyed.findIdx?_none hi
      simp only [serveRegistration, hnone]
      cases hdir : ensureDir site (clientFolder name) s.disk with
      | none => exact Refines.raised (clientInit_none c hdir)
      | some disk =>
          apply Refines.bind (clientInit_some c hdir)
          apply Refines.bind (modifyServer_calm _ c _)
          apply Refines.bind (addClientDb_calm c (by rwa [← hs.rowIds] at hfresh))
          apply Refines.send
          simp [Message.send, Message.registrationDone, sendParts]

theorem sendNewAesKey_reply (site : Site) (draws : Draws) (s : Server) (code : Nat)
    (clientId publicKey : Bytes) :
    (sendNewAesKey site draws s code clientId publicKey).2 ≠ .rejectedUnread := by
  unfold sendNewAesKey
  split <;> simp

theorem takePublicKey_refines (site : Site) (draws : Draws) (clientId : Bytes) (name : Text)
    (s : Server) (c : Conn) (hn : s.ids.Nodup) :
    Refines (Request.takePublicKey site draws clientId name) s c
      ((Conn.recv General.publicKeySize).run c).2
      (servePublicKey site draws s clientId name ((Conn.recv General.publicKeySize).run c).1) := by
  apply Refines.bind (getServer_calm s c)
  cases hi : s.clientsList.findIdx? (·.clientName = name) with
  | none =>
      have hnone : s.named? name = none := Keyed.findIdx?_none hi
      simp only [servePublicKey, hnone]
      exact ⟨_, rfl⟩
  | some i =>
      obtain ⟨cl, hget, hnamed⟩ := named?_of_findIdx? hi
      simp only [servePublicKey, hnamed]
      apply Refines.bind (getClient_calm c hget)
      by_cases hid : clientId = cl.clientId
      · subst hid
        rw [if_neg (by simp)]
        apply Refines.bind (a := ()) (by rw [checkId_calm, if_pos rfl])
        obtain ⟨key, c', hrecv⟩ :
            ∃ key c', (Conn.recv General.publicKeySize).run c = (key, c') := ⟨_, _, rfl⟩
        have hread : (onConn (Conn.recv General.publicKeySize)).run (calm s c) =
            (key, calm s c') := by
          change (((Conn.recv General.publicKeySize).run c).1,
            calm s ((Conn.recv General.publicKeySize).run c).2) = _
          rw [hrecv]
        rw [hrecv]
        cases key with
        | raised e => exact Refines.raised hread
        | blocked => exact bind_blocked hread
        | done key =>
            apply Refines.bindRead hread
            · apply Refines.bind (modifyServer_calm s c' _)
              apply Refines.bind (setPublicKey_calm _ c' site _ _)
              have hkey : ({ s.modifyClient i (fun x => { x with publicKey := key }) with
                  db := s.db.updateClients cl.clientId fun r => { r with publicKey := key } } :
                  Server) = s.withPublicKey cl.clientId key :=
                Server.modifyClient_row hn hget rfl rfl
              change Refines _ { s.modifyClient i (fun x => { x with publicKey := key }) with
                  db := s.db.updateClients cl.clientId fun r => { r with publicKey := key } } _ _ _
              rw [hkey]
              have hget' : (s.withPublicKey cl.clientId key).clientsList[i]? =
                  some { cl with publicKey := key } := Server.getElem?_updateRow hget rfl
              have hn' : (s.withPublicKey cl.clientId key).ids.Nodup := by simpa using hn
              apply Refines.bind (lastSeen_calm draws c' hn' hget')
              exact createSendAes_refines site draws _
                { cl with publicKey := key, lastSeenDate := draws.now } c'
                (by simpa using hn) (Server.getElem?_seen hget')
            · exact sendNewAesKey_reply site draws _ _ _ _
      · rw [if_pos hid]
        exact ⟨_, bind_raised (by rw [checkId_calm, if_neg hid])⟩

theorem createDecryptedFile_some {site : Site} {path : Text} {aesKey plain : Bytes}
    {disk : FileTree} (c : Conn)
    (hread : (s.disk.readFile site.cwd path).bind (decryptContent site aesKey) = some plain)
    (hstore : s.disk.store site.cwd path true plain = some disk) :
    (createDecryptedFile site path aesKey).run (calm s c) =
      (.done plain, calm { s with disk := disk } c) := by
  obtain ⟨encrypted, henc, hdec⟩ := Option.bind_eq_some_iff.mp hread
  obtain ⟨opened, hopen, hwrite⟩ := openFile_writeFile (s := s) c hstore
  have hfile : (readFile site path).run (calm s c) = (.done encrypted, calm s c) := by
    rw [readFile_calm, henc]
    rfl
  rw [createDecryptedFile, bind_done hfile, hdec, ofOption_some, pure_bind, bind_done hopen,
    bind_done hwrite]
  rfl

theorem createDecryptedFile_none (site : Site) (path : Text) (aesKey : Bytes) (s : Server)
    (c : Conn) (h : ∀ plain, (s.disk.readFile site.cwd path).bind (decryptContent site aesKey) =
      some plain → s.disk.store site.cwd path true plain = none) :
    ∃ e, (createDecryptedFile site path aesKey).run (calm s c) = (.raised e, calm s c) := by
  unfold createDecryptedFile
  cases henc : s.disk.readFile site.cwd path with
  | none =>
      refine ⟨.osError, bind_raised ?_⟩
      rw [readFile_calm, henc]
      rfl
  | some encrypted =>
      have hfile : (readFile site path).run (calm s c) = (.done encrypted, calm s c) := by
        rw [readFile_calm, henc]
        rfl
      rw [bind_done hfile]
      cases hdec : decryptContent site aesKey encrypted with
      | none => exact ⟨_, rfl⟩
      | some plain =>
          have hstore := h plain (by rw [henc, Option.bind_some, hdec])
          rw [ofOption_some, pure_bind]
          exact ⟨_, bind_raised (openFile_none c hstore)⟩

theorem convertIntToByte_of_lt {n size : Nat} (h : n < 256 ^ size) :
    convertIntToByte n size = pure (toLittle size n) := by
  rw [convertIntToByte, if_pos h, ofOption_some]

/-- The end of `last_packet` sends one message. -/
theorem lastPacket_eq (site : Platform) (file : File) (p : Packet)
    (hsize : p.contentSize < 256 ^ General.contentSizeSize) :
    lastPacket site file cl p.contentSize p.origFileSize = (do
      let decryptedFileContent ← createDecryptedFile site file.path cl.aesKey
      require (p.origFileSize = decryptedFileContent.length) .valueError
      onConn (Message.fileReceived cl.clientId p.contentSize file.fileName
        (Cksum.memcrc decryptedFileContent)).send) := by
  rw [lastPacket]
  apply congrArg
  funext plain
  have hcrc : Cksum.memcrc plain < 256 ^ General.crcSize := Cksum.memcrc_lt plain
  simp [Message.send, Message.fileReceived, sendParts, convertIntToByte_of_lt hsize,
    convertIntToByte_of_lt hcrc]

theorem lastPacket_refines (site : Site) (file : File) (p : Packet) (s : Server) (c : Conn)
    (hsize : p.contentSize < 256 ^ General.contentSizeSize) :
    Refines (lastPacket site file cl p.contentSize p.origFileSize) s c c
      (finishUpload site s cl file p) := by
  rw [lastPacket_eq site file p hsize, finishUpload]
  cases hread : (s.disk.readFile site.cwd file.path).bind (decryptContent site cl.aesKey) with
  | none =>
      obtain ⟨e, he⟩ := createDecryptedFile_none site file.path cl.aesKey s c
        fun plain hp => by simp [hread] at hp
      exact ⟨e, bind_raised he⟩
  | some plain =>
      cases hstore : s.disk.store site.cwd file.path true plain with
      | none =>
          obtain ⟨e, he⟩ := createDecryptedFile_none site file.path cl.aesKey s c
            fun plain' hp => by
              obtain rfl := Option.some.inj (hread.symm.trans hp)
              exact hstore
          simp only [hstore]
          exact ⟨e, bind_raised he⟩
      | some disk =>
          simp only [hstore]
          apply Refines.bind (createDecryptedFile_some c hread hstore)
          by_cases horig : p.origFileSize = plain.length
          · rw [require_pos horig, pure_bind]
            simp only [if_pos horig]
            exact Refines.send _ c rfl
          · rw [require_neg horig]
            simp only [if_neg horig]
            exact Refines.raise _ _ c

theorem finish_refines (site : Site) (file : File) (p : Packet) (s : Server) (c : Conn)
    (hsize : p.contentSize < 256 ^ General.contentSizeSize) :
    Refines (whenever (p.packetNumber = p.totalPackets)
        (lastPacket site file cl p.contentSize p.origFileSize)) s c c
      (if p.packetNumber = p.totalPackets then finishUpload site s cl file p
        else (s, .silent)) := by
  by_cases hlast : p.packetNumber = p.totalPackets
  · rw [whenever_pos hlast, if_pos hlast]
    exact lastPacket_refines site file p s c hsize
  · rw [whenever_neg hlast, if_neg hlast]
    rfl

/-! The record of a file, found by its position, is the record the service finds. -/

theorem fileNamed_of_findIdx? {files : List File} {name : Text} {j : Nat}
    (h : files.findIdx? (·.fileName = name) = some j) :
    ∃ f, files[j]? = some f ∧ files.find? (·.fileName = name) = some f ∧ f.fileName = name := by
  obtain ⟨f, hget, hfind, hp⟩ := Keyed.findIdx?_some h
  exact ⟨f, hget, hfind, by simpa using hp⟩

theorem modifyFile_setValidCrc (hn : s.ids.Nodup) (hget : s.clientsList[i]? = some cl)
    (hfiles : (cl.filesList.map (·.fileName)).Nodup) {j : Nat} {f : File}
    (hj : cl.filesList[j]? = some f) (flag : Bool) :
    ({ s.modifyFile i j (fun f => { f with validCrc := flag }) with
        db := s.db.setValidCrc cl.clientId flag } : Server) =
      s.flagFile cl.clientId f.fileName flag := by
  have hmem : s.modifyFile i j (fun f => { f with validCrc := flag }) =
      s.updateFiles cl.clientId fun files => files.map fun x =>
        if x.fileName = f.fileName then { x with validCrc := flag } else x := by
    apply Server.modifyClient_files hn hget rfl
    rw [Keyed.modify_eq_map (fun x : File => x.fileName) hfiles hj]
  rw [hmem]
  rfl

theorem addFileDb_calm (site : Site) (file : File) (c : Conn)
    (h : ∀ r ∈ s.db.files, r.clientId = file.clientId → r.fileName ≠ file.fileName) :
    (Sql.addFileDb site file).run (calm s c) = (.done (),
      calm { s with db := { s.db with files := s.db.files ++ [file] } } c) := by
  have hkey : ¬ (s.db.files.any fun r =>
      r.clientId = file.clientId ∧ r.fileName = file.fileName) = true := by
    simpa using h
  rw [Sql.addFileDb, bind_done (connect_calm s c site), bind_done (getServer_calm s c),
    if_neg hkey, modifyTables_calm]

theorem modifyClient_addFile (hn : s.ids.Nodup) (hget : s.clientsList[i]? = some cl)
    (file : File) (hid : cl.clientId = file.clientId) :
    ({ s with db := { s.db with files := s.db.files ++ [file] } } : Server).modifyClient i
        (fun x => { x with filesList := x.filesList ++ [file] }) = s.addFile file := by
  have hmem : s.modifyClient i (fun x => { x with filesList := x.filesList ++ [file] }) =
      s.updateFiles file.clientId (· ++ [file]) :=
    Server.modifyClient_files hn hget hid rfl
  rw [Server.addFile, ← hmem]
  rfl

/-- A client without a record for a name has no row for it. -/
theorem WellFormed.no_row (hs : WellFormed s) (hcl : cl ∈ s.clientsList) {name : Text}
    (h : cl.filesList.find? (·.fileName = name) = none) :
    ∀ r ∈ s.db.files, r.clientId = cl.clientId → r.fileName ≠ name := by
  intro r hr hid hname
  obtain ⟨c', hc', hc'id, f, hf, hfname⟩ := hs.backed r hr
  obtain rfl := Keyed.eq_of_key_eq (fun x : Client => x.clientId) hs.idsDistinct hc' hcl
    (hc'id.trans hid)
  have := List.find?_eq_none.mp h f hf
  simp [hfname, hname] at this

theorem storePacket_refines (site : Site) (draws : Draws) (clientId : Bytes) (p : Packet)
    (s : Server) (c : Conn) (hs : WellFormed s)
    (hsize : p.contentSize < 256 ^ General.contentSizeSize) :
    Refines (Request.storePacket site draws clientId p) s c c
      (servePacket site draws s clientId p) := by
  apply Refines.bind (getServer_calm s c)
  cases hi : s.clientsList.findIdx? (·.clientId = clientId) with
  | none =>
      have hnone : s.client? clientId = none := Keyed.findIdx?_none hi
      simp only [servePacket, hnone]
      exact Refines.raise _ _ c
  | some i =>
      obtain ⟨cl, hget, hclient, rfl⟩ := client?_of_findIdx? hi
      have hcl := List.mem_of_getElem? hget
      simp only [servePacket, hclient]
      apply Refines.bind (getClient_calm c hget)
      cases hstore : s.disk.store site.cwd (filePath cl.clientName p.fileName)
          (p.packetNumber = 1) p.content with
      | none => exact Refines.raised (openFile_none c hstore)
      | some disk =>
          obtain ⟨opened, hopen, hwrite⟩ := openFile_writeFile c hstore
          apply Refines.bind hopen
          apply Refines.bind hwrite
          simp only
          have hget₀ : ({ s with disk := disk } : Server).clientsList[i]? = some cl := hget
          apply Refines.bind
            (lastSeen_calm (s := { s with disk := disk }) draws c hs.idsDistinct hget₀)
          generalize hs' : ({ s with disk := disk } : Server).seen draws cl.clientId = s'
          have hn : s'.ids.Nodup := by
            rw [← hs', Server.ids_seen]
            exact hs.idsDistinct
          have hget' : s'.clientsList[i]? = some { cl with lastSeenDate := draws.now } := by
            rw [← hs']
            exact Server.getElem?_seen hget₀
          have hrows : s'.db.files = s.db.files := by rw [← hs']; rfl
          cases hj : cl.filesList.findIdx? (·.fileName = p.fileName) with
          | some j =>
              obtain ⟨f, hf, hfind, hname⟩ := fileNamed_of_findIdx? hj
              simp only [recordPacket, hfind, hf, ofOption_some, pure_bind]
              apply Refines.bind (a := ()) _ (finish_refines site f p _ c hsize)
              by_cases hfirst : p.packetNumber = 1
              · rw [whenever_pos hfirst, if_pos hfirst, bind_done (modifyServer_calm _ c _),
                  setValidCrc_calm, ← hname]
                exact congrArg (fun t => (Outcome.done (), calm t c))
                  (modifyFile_setValidCrc hn hget' (hs.fileNamesDistinct cl hcl) hf false)
              · rw [whenever_neg hfirst, if_neg hfirst]
                rfl
          | none =>
              have hnone : cl.filesList.find? (·.fileName = p.fileName) = none :=
                Keyed.findIdx?_none hj
              by_cases hfirst : p.packetNumber = 1
              · simp only [recordPacket, hnone, if_pos hfirst, require_pos hfirst, pure_bind]
                have hadd := addFileDb_calm (s := s') site
                  ⟨cl.clientId, p.fileName, filePath cl.clientName p.fileName, false⟩ c
                  (by rw [hrows]; exact hs.no_row hcl hnone)
                apply Refines.bind hadd
                apply Refines.bind (modifyServer_calm _ c _)
                rw [modifyClient_addFile hn hget' _ rfl]
                exact finish_refines site _ p _ c hsize
              · simp only [recordPacket, hnone, if_neg hfirst, require_neg hfirst, raise_bind]
                exact Refines.raise _ _ c

theorem removeFile_none {site : Site} {path : Text} (c : Conn)
    (h : s.disk.remove site.cwd path = none) :
    (removeFile site path).run (calm s c) = (.raised .osError, calm s c) := onDisk_none c h

theorem deleteFile_some {site : Site} {t : Server} {name : Text} (c : Conn)
    (h : s.deleteRows name = some t) :
    (Sql.deleteFile site name).run (calm s c) = (.done (), calm t c) := by
  unfold Server.deleteRows at h
  split at h
  · rename_i hany
    obtain rfl := Option.some.inj h
    rw [Sql.deleteFile, bind_done (connect_calm s c site), bind_done (getServer_calm s c),
      if_pos hany, modifyTables_calm]
  · cases h

theorem deleteFile_none {site : Site} {name : Text} (c : Conn) (h : s.deleteRows name = none) :
    (Sql.deleteFile site name).run (calm s c) = (.raised .valueError, calm s c) := by
  unfold Server.deleteRows at h
  split at h
  · cases h
  · rename_i hany
    rw [Sql.deleteFile, bind_done (connect_calm s c site), bind_done (getServer_calm s c),
      if_neg hany]
    rfl

theorem thankYouAnswer_eq (clientId : Bytes) :
    thankYouAnswer clientId = (Message.thankYou clientId).send := by
  simp [thankYouAnswer, Message.send, Message.thankYou, sendParts]

theorem discard_refines (site : Site) (cl : Client) (f : File) (s : Server) (c : Conn)
    (hn : s.ids.Nodup)
    (hget : s.clientsList[i]? = some cl) (hfiles : (cl.filesList.map (·.fileName)).Nodup)
    {j : Nat} (hj : cl.filesList[j]? = some f) :
    Refines (do
        removeFile site f.path
        modifyServer (·.modifyClient i fun c => { c with filesList := c.filesList.eraseIdx j })
        Sql.deleteFile site f.fileName
        onConn (thankYouAnswer cl.clientId)) s c c
      (discardFile site s cl.clientId f) := by
  unfold discardFile
  cases hrem : s.disk.remove site.cwd f.path with
  | none => exact Refines.raised (removeFile_none c hrem)
  | some disk =>
      apply Refines.bind (onDisk_some c hrem)
      apply Refines.bind (modifyServer_calm _ c _)
      have hdrop : ({ s with disk := disk } : Server).modifyClient i
          (fun x => { x with filesList := x.filesList.eraseIdx j }) =
          ({ s with disk := disk } : Server).dropFile cl.clientId f.fileName := by
        refine Server.modifyClient_files (s := { s with disk := disk }) hn hget rfl ?_
        rw [Keyed.eraseIdx_eq_filter (fun x : File => x.fileName) hfiles hj]
      rw [hdrop]
      cases hdel : (({ s with disk := disk } : Server).dropFile cl.clientId f.fileName).deleteRows
          f.fileName with
      | none =>
          simp only [hdel]
          exact Refines.raised (deleteFile_none c hdel)
      | some t =>
          simp only [hdel]
          apply Refines.bind (deleteFile_some c hdel)
          exact Refines.send _ c (thankYouAnswer_eq _)

theorem crcVerdict_refines (site : Site) (draws : Draws) (clientId : Bytes) (code : Nat)
    (fileName : Text) (s : Server) (c : Conn) (hs : WellFormed s) :
    Refines (Request.crcVerdict site draws clientId code fileName) s c c
      (serveVerdict site draws s clientId code fileName) := by
  apply Refines.bind (getServer_calm s c)
  cases hi : s.clientsList.findIdx? (·.clientId = clientId) with
  | none =>
      have hnone : s.client? clientId = none := Keyed.findIdx?_none hi
      simp only [serveVerdict, hnone]
      exact Refines.raise _ _ c
  | some i =>
      obtain ⟨cl, hget, hclient, rfl⟩ := client?_of_findIdx? hi
      have hcl := List.mem_of_getElem? hget
      simp only [serveVerdict, hclient]
      apply Refines.bind (getClient_calm c hget)
      apply Refines.bind (lastSeen_calm draws c hs.idsDistinct hget)
      generalize hs' : s.seen draws cl.clientId = s'
      have hn : s'.ids.Nodup := by
        rw [← hs', Server.ids_seen]
        exact hs.idsDistinct
      have hget' : s'.clientsList[i]? = some { cl with lastSeenDate := draws.now } := by
        rw [← hs']
        exact Server.getElem?_seen hget
      cases hj : cl.filesList.findIdx? (·.fileName = fileName) with
      | none =>
          have hnone : cl.filesList.find? (·.fileName = fileName) = none := Keyed.findIdx?_none hj
          simp only [hnone]
          exact Refines.raise _ _ c
      | some j =>
          obtain ⟨f, hf, hfind, rfl⟩ := fileNamed_of_findIdx? hj
          simp only [hfind, hf, ofOption_some, pure_bind]
          cases hvalid : f.validCrc with
          | true => exact Refines.raise _ _ c
          | false =>
              rw [require_pos rfl, pure_bind, if_neg (by simp)]
              by_cases h900 : code = General.validCrcRequest900
              · have h902 : ¬ code = General.invalidCrc4thRequest902 := by rw [h900]; decide
                rw [whenever_pos h900, if_pos h900, whenever_neg h902, bind_assoc]
                apply Refines.bind (modifyServer_calm _ c _)
                rw [bind_assoc]
                apply Refines.bind (setValidCrc_calm _ c site _ _)
                have hflag : Server.flagFile s' cl.clientId f.fileName true = _ :=
                  (modifyFile_setValidCrc hn hget' (hs.fileNamesDistinct cl hcl) hf true).symm
                rw [hflag, bind_pure]
                exact Refines.send _ c (thankYouAnswer_eq _)
              · rw [whenever_neg h900, if_neg h900, pure_bind]
                by_cases h902 : code = General.invalidCrc4thRequest902
                · rw [whenever_pos h902, if_pos h902]
                  exact discard_refines site { cl with lastSeenDate := draws.now } f s' c hn hget'
                    (hs.fileNamesDistinct cl hcl) hf
                · rw [whenever_neg h902, if_neg h902]
                  rfl

end SecureTransfer
