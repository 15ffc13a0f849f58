import SecureTransfer.Library.Triples
import SecureTransfer.Service.Ledger
import SecureTransfer.Service.Replies
import SecureTransfer.Service.Runs

/-!
The server when file, sqlite and socket calls may fail at any time, and restarts come at any
time between two callbacks. Whatever fails, a callback makes entries in the ledger, and
answers 1600 only to a client that it has entered into the tables.
-/

open Octets (Text)
open Effects Act

namespace SecureTransfer

open Ledger (Step Steps)

def File.entry (f : File) : Entry := ⟨f.clientId, f.fileName, f.path⟩

def Client.holder (c : Client) : Holder := ⟨c.clientId, c.clientName, c.filesList.map (·.entry)⟩

def ClientRow.known (r : ClientRow) : Bytes × Text := (r.clientId, r.clientName)

def Server.ledger (s : Server) : Ledger where
  holders := s.clientsList.map (·.holder)
  rows := s.db.clients.map (·.known)
  entries := s.db.files.map (·.entry)

section
variable {s : Server}

theorem Server.ids_ledger : s.ledger.ids = s.ids := by
  rw [Ledger.ids, Server.ledger, List.map_map]
  rfl

theorem Server.names_ledger : s.ledger.names = s.names := by
  rw [Ledger.names, Server.ledger, List.map_map]
  rfl

theorem Server.getElem?_holders {i : Nat} {c : Client} (h : s.clientsList[i]? = some c) :
    s.ledger.holders[i]? = some c.holder := by
  rw [Server.ledger, List.getElem?_map, h]
  rfl

/-! Keys, dates and flags are not in the ledger. -/

theorem ledger_modifyClient {f : Client → Client} (hf : ∀ c, (f c).holder = c.holder)
    (client : Nat) : (s.modifyClient client f).ledger = s.ledger := by
  rw [Server.ledger, Server.modifyClient]
  simp only [Keyed.map_modify_self hf]
  rfl

theorem ledger_modifyFiles {f : List File → List File} {g : List Entry → List Entry}
    (hf : ∀ l, (f l).map File.entry = g (l.map File.entry)) (client : Nat) :
    (s.modifyClient client fun c => { c with filesList := f c.filesList }).ledger =
      s.ledger.modifyEntries client g := by
  have hholders : (s.clientsList.modify client fun c =>
      { c with filesList := f c.filesList }).map Client.holder =
      (s.clientsList.map Client.holder).modify client fun h =>
        { h with entries := g h.entries } := by
    apply Keyed.map_modify
    intro c
    rw [Client.holder, hf]
    rfl
  exact congrArg (fun holders => Ledger.mk holders _ _) hholders

theorem ledger_modifyFile {f : File → File} (hf : ∀ g, (f g).entry = g.entry)
    (client file : Nat) : (s.modifyFile client file f).ledger = s.ledger :=
  ledger_modifyClient (fun c => by
    rw [Client.holder]
    simp only [Keyed.map_modify_self hf]
    rfl) client

theorem ledger_updateClients {f : ClientRow → ClientRow} (hf : ∀ r, (f r).known = r.known)
    (clientId : Bytes) : Server.ledger { s with db := s.db.updateClients clientId f } =
      s.ledger := by
  rw [Server.ledger, Tables.updateClients]
  simp only [List.map_map]
  refine congrArg (fun rows => Ledger.mk _ rows _) (List.map_congr_left ?_)
  intro r _
  rw [Function.comp_apply]
  split
  · exact hf r
  · rfl

theorem ledger_setValidCrc (clientId : Bytes) (flag : Bool) :
    Server.ledger { s with db := s.db.setValidCrc clientId flag } = s.ledger := by
  rw [Server.ledger, Tables.setValidCrc]
  simp only [List.map_map]
  refine congrArg (Ledger.mk _ _) (List.map_congr_left ?_)
  intro r _
  rw [Function.comp_apply]
  split <;> rfl

theorem ledger_deleteFile (fileName : Text) :
    Server.ledger { s with db := s.db.deleteFile fileName } =
      { s.ledger with entries := s.ledger.entries.filter (·.fileName ≠ fileName) } := by
  rw [Server.ledger, Tables.deleteFile, Server.ledger]
  simp only [List.filter_map]
  rfl

end

/-! The answers of a connection. -/

/-- The connection has got answers like these. -/
def Conn.Gained (before : List Answer) (J : Answer → Prop) (c : Conn) : Prop :=
  ∃ l, c.answers = before ++ l ∧ ∀ x ∈ l, J x

namespace Conn.Gained

variable {before : List Answer} {J : Answer → Prop}

theorem of_answers {c c' : Conn} (h : c.Gained before J) (hsame : c'.answers = c.answers) :
    c'.Gained before J := by
  obtain ⟨l, hl, hJ⟩ := h
  exact ⟨l, hsame.trans hl, hJ⟩

theorem onlyReads {α : Type} {m : Net α} (hm : OnlyReads m) : Keeps (Conn.Gained before J) m :=
  fun c hc => hc.of_answers (hm c).answers

theorem sendall (data : Bytes) : Keeps (Conn.Gained before J) (Conn.sendall data) := by
  intro c hc
  cases h : c.sendsLeft with
  | none =>
      rw [Conn.sendall]
      simp only [h]
      exact hc.of_answers rfl
  | some n =>
      rw [Conn.sendall]
      cases n with
      | zero =>
          simp only [h]
          split
          · exact hc
          · split
            · exact hc
            · exact hc
      | succ n =>
          simp only [h]
          exact hc.of_answers rfl

theorem convertIntToByte (n size : Nat) :
    Keeps (Conn.Gained before J) (convertIntToByte n size) := .ofOption _ _

theorem sendHeader {x : Answer} (hx : J x) :
    Keeps (Conn.Gained before J) x.sendHeaderToClient := by
  refine .bind (convertIntToByte _ _) fun _ => .bind (sendall _) fun _ =>
    .bind (convertIntToByte _ _) fun _ => .bind (sendall _) fun _ =>
      .bind (convertIntToByte _ _) fun _ => .bind (sendall _) fun _ => ?_
  apply Keeps.modify
  intro c hc
  obtain ⟨l, hl, hJ⟩ := hc
  refine ⟨l ++ [x], ?_, ?_⟩
  · rw [← List.append_assoc, ← hl]
  · intro y hy
    obtain hy | hy := List.mem_append.mp hy
    · exact hJ y hy
    · exact List.mem_singleton.mp hy ▸ hx

theorem cleanBuffer : Keeps (Conn.Gained before J) cleanBuffer := by
  intro c hc
  rw [cleanBuffer_run]
  exact hc.of_answers rfl

/-- What the handlers of an exception send. -/
theorem reject {code : Nat} (hcode : J ⟨code, 0⟩) : Keeps (Conn.Gained before J) (reject code) :=
  .bind cleanBuffer fun _ => sendHeader hcode

end Conn.Gained

/-- What a callback is about: the values drawn for it, the names it may register, and the
answers its connection got before. -/
structure Task where
  site : Site
  draws : Draws
  asked : Text → Prop
  before : List Answer

namespace Task

/-- A 1600 is an answer to a client in the tables. -/
def Truthful (k : Task) (b : Ledger) (x : Answer) : Prop :=
  x.code = General.registrationDone1600 → ∃ name, k.asked name ∧ (k.draws.uuid, name) ∈ b.rows

/-- A server with this ledger, and its folders, in the middle of the callback. -/
structure At (k : Task) (b : Ledger) (w : World) : Prop where
  ledger : w.server.ledger = b
  hasTables : w.server.dbExists = true
  housed : Housed k.site w.server
  answers : w.conn.Gained k.before (k.Truthful b)

/-- Entries later. -/
def Past (k : Task) (b : Ledger) (w : World) : Prop := ∃ b', Steps b b' ∧ k.At b' w

variable {k : Task} {b b' : Ledger} {α β : Type}

theorem truthful_of_ne {x : Answer} (h : x.code ≠ General.registrationDone1600) :
    k.Truthful b x := fun he => absurd he h

theorem At.past {w : World} (h : k.At b w) : k.Past b w := ⟨b, .refl, h⟩

theorem Past.of_step {w : World} (hstep : Step b b') (h : k.Past b' w) : k.Past b w := by
  obtain ⟨b'', hsteps, hat⟩ := h
  exact ⟨b'', .head hstep hsteps, hat⟩

/-- An update of the server, with the rows of table clients that were there. -/
theorem At.update {w : World} {s : Server} (h : k.At b w) (hledger : s.ledger = b')
    (hrows : ∀ row ∈ b.rows, row ∈ b'.rows) (htables : s.dbExists = w.server.dbExists)
    (hhoused : Housed k.site s) : k.At b' { w with server := s } where
  ledger := hledger
  hasTables := htables.trans h.hasTables
  housed := hhoused
  answers := by
    obtain ⟨l, hl, htruthful⟩ := h.answers
    refine ⟨l, hl, fun x hx hcode => ?_⟩
    obtain ⟨name, hname, hrow⟩ := htruthful x hx hcode
    exact ⟨name, hname, hrows _ hrow⟩

/-- One that leaves the disk, and registers nobody. -/
theorem At.entries {w : World} {s : Server} (h : k.At b w) (hledger : s.ledger = b')
    (hrows : ∀ row ∈ b.rows, row ∈ b'.rows) (hnames : b'.names = b.names)
    (htables : s.dbExists = w.server.dbExists) (hdisk : s.disk = w.server.disk) :
    k.At b' { w with server := s } := by
  refine h.update hledger hrows htables (h.housed.mono (fun q hq => hdisk ▸ hq) ?_)
  intro name hname
  rw [← Server.names_ledger, hledger, hnames, ← h.ledger, Server.names_ledger] at hname
  exact .inl hname

/-! Commands that make no entry, whether they raise or not. -/

abbrev Stays (k : Task) (b : Ledger) (m : Py α) : Prop :=
  Triple (k.At b) m (fun _ => k.At b) (k.At b)

namespace Stays

theorem raise (e : PyError) : k.Stays b (Act.raise e : Py α) := Triple.raise fun _ h => h

theorem pure (a : α) : k.Stays b (Pure.pure a : Py α) := Triple.pure fun _ h => h

theorem ofOption (e : PyError) (o : Option α) : k.Stays b (Act.ofOption e o : Py α) :=
  Triple.ofOption (fun _ _ _ h => h) fun _ h => h

theorem require {c : Prop} [Decidable c] (e : PyError) : k.Stays b (Act.require c e : Py Unit) :=
  Triple.require (fun _ _ h => h) fun _ h => h

theorem whenever {c : Prop} [Decidable c] {m : Py Unit} (hm : k.Stays b m) :
    k.Stays b (Act.whenever c m) := Triple.whenever (fun _ => hm) fun _ _ h => h

theorem bind {m : Py α} {f : α → Py β} (hm : k.Stays b m) (hf : ∀ a, k.Stays b (f a)) :
    k.Stays b (m >>= f) := Triple.bind hm hf

end Stays

/-- A command chosen by looking at the server. -/
theorem getServer_triple {P E : World → Prop} {Q : α → World → Prop} {f : Server → Py α}
    (h : ∀ s, Triple (fun w => P w ∧ w.server = s) (f s) Q E) : Triple P (getServer >>= f) Q E :=
  fun w hw => h w.server w ⟨hw, rfl⟩

theorem getServer_stays {f : Server → Py α} (h : ∀ s, k.Stays b (f s)) :
    k.Stays b (getServer >>= f) := getServer_triple fun s => (h s).strengthen fun _ hw => hw.1

theorem tick_stays : k.Stays b tick := by
  intro w hw
  obtain ⟨s, c, faults⟩ := w
  cases faults with
  | nil => exact hw
  | cons fault faults => cases fault <;> exact ⟨hw.ledger, hw.hasTables, hw.housed, hw.answers⟩

theorem modifyServer_stays {f : Server → Server} (hledger : ∀ s, (f s).ledger = s.ledger)
    (htables : ∀ s, (f s).dbExists = s.dbExists) (hdisk : ∀ s, (f s).disk = s.disk) :
    k.Stays b (modifyServer f) :=
  Triple.modify fun _ hw => hw.entries ((hledger _).trans hw.ledger) (fun _ h => h) rfl (htables _)
    (hdisk _)

theorem modifyClient_stays (client : Nat) {f : Client → Client}
    (hf : ∀ c, (f c).holder = c.holder) : k.Stays b (modifyServer (·.modifyClient client f)) :=
  modifyServer_stays (fun _ => ledger_modifyClient hf client) (fun _ => rfl) fun _ => rfl

theorem connect_stays : k.Stays b (Sql.connect k.site) := by
  rw [Sql.connect_apart]
  exact tick_stays

theorem updateClients_stays (clientId : Bytes) {f : ClientRow → ClientRow}
    (hf : ∀ r, (f r).known = r.known) :
    k.Stays b (do Sql.connect k.site; Sql.modifyTables k.site (·.updateClients clientId f)) := by
  rw [Sql.modifyTables_apart]
  exact connect_stays.bind fun _ =>
    modifyServer_stays (fun _ => ledger_updateClients hf clientId) (fun _ => rfl) fun _ => rfl

theorem setValidCrc_stays (clientId : Bytes) (flag : Bool) :
    k.Stays b (Sql.setValidCrc k.site clientId flag) := by
  rw [Sql.setValidCrc, Sql.modifyTables_apart]
  exact connect_stays.bind fun _ =>
    modifyServer_stays (fun _ => ledger_setValidCrc clientId flag) (fun _ => rfl) fun _ => rfl

theorem onConn_stays {m : Net α} (hm : Keeps (Conn.Gained k.before (k.Truthful b)) m) :
    k.Stays b (onConn m) :=
  Triple.of_keeps fun w hw => ⟨hw.ledger, hw.hasTables, hw.housed, hm w.conn hw.answers⟩

theorem reading_stays {m : Net α} (hm : OnlyReads m) : k.Stays b (onConn m) :=
  onConn_stays (.onlyReads hm)

/-- A change of the disk that keeps its directories. -/
theorem onDisk_triple {f : FileTree → Option FileTree} {P : FileTree → Prop}
    (hf : ∀ t t', f t = some t' → ∀ q, t.isDir q → t'.isDir q)
    (hP : ∀ t t', f t = some t' → P t') :
    Triple (k.At b) (onDisk f) (fun _ w => k.At b w ∧ P w.server.disk) (k.At b) := by
  refine Triple.bind tick_stays fun _ => getServer_triple fun s => ?_
  refine Triple.bind (Q := fun disk w => (k.At b w ∧ w.server = s) ∧ f s.disk = some disk)
    (.ofOption (fun disk hdisk w hw => ⟨hw, hdisk⟩) fun _ hw => hw.1) fun disk => ?_
  apply Triple.modify
  intro w hw
  obtain ⟨⟨hat, rfl⟩, hdisk⟩ := hw
  refine ⟨?_, hP _ _ hdisk⟩
  exact hat.update (s := { w.server with disk := disk }) hat.ledger (fun _ h => h) rfl
    (hat.housed.mono (hf _ _ hdisk) fun _ hname => .inl hname)

theorem onDisk_stays {f : FileTree → Option FileTree}
    (hf : ∀ t t', f t = some t' → ∀ q, t.isDir q → t'.isDir q) : k.Stays b (onDisk f) :=
  (onDisk_triple (P := fun _ => True) hf fun _ _ _ => trivial).weaken fun _ _ h => h.1

theorem openFile_stays (path : Text) (truncate : Bool) :
    k.Stays b (openFile k.site path truncate) :=
  onDisk_stays fun _ _ h q hq => (congrFun (FileTree.openWrite_isDir h) q).trans hq

theorem writeFile_stays (path : Text) (content : Bytes) :
    k.Stays b (writeFile k.site path content) :=
  onDisk_stays fun _ _ h q hq => (congrFun (FileTree.append_isDir h) q).trans hq

theorem removeFile_stays (path : Text) : k.Stays b (removeFile k.site path) :=
  onDisk_stays fun _ _ h q hq => (congrFun (FileTree.remove_isDir h) q).trans hq

theorem createDecryptedFile_stays (path : Text) (aesKey : Bytes) :
    k.Stays b (createDecryptedFile k.site path aesKey) :=
  Stays.bind (tick_stays.bind fun _ => getServer_stays fun _ => Stays.ofOption _ _) fun _ =>
    Stays.bind (Stays.ofOption _ _) fun _ => Stays.bind (openFile_stays path true) fun _ =>
      Stays.bind (writeFile_stays path _) fun _ => Stays.pure _

/-- The client that is found is the holder at that position. -/
theorem getClient_triple {client : Nat} {f : Client → Py α} {Q : α → World → Prop}
    {E : World → Prop} (hE : ∀ w, k.At b w → E w)
    (h : ∀ c, b.holders[client]? = some c.holder → Triple (k.At b) (f c) Q E) :
    Triple (k.At b) (getClient client >>= f) Q E := by
  intro w hw
  have hrun : (getClient client).run w =
      (Act.ofOption .indexError w.server.clientsList[client]?).run w := rfl
  cases hc : w.server.clientsList[client]? with
  | none =>
      rw [hc] at hrun
      rw [bind_raised hrun]
      exact hE w hw
  | some c =>
      rw [hc] at hrun
      rw [bind_done hrun]
      exact h c (hw.ledger ▸ Server.getElem?_holders hc) w hw

theorem getClient_stays {client : Nat} {f : Client → Py α} (h : ∀ c, k.Stays b (f c)) :
    k.Stays b (getClient client >>= f) := getClient_triple (fun _ hw => hw) fun c _ => h c

theorem lastSeen_stays (draws : Draws) (client : Nat) :
    k.Stays b (lastSeen k.site draws client) := by
  refine getClient_stays fun c => ?_
  refine Stays.bind (updateClients_stays c.clientId fun _ => rfl) fun _ => ?_
  exact modifyClient_stays client fun _ => rfl

theorem createSendAes_stays (draws : Draws) {code : Nat}
    (hcode : code ≠ General.registrationDone1600) (client : Nat) :
    k.Stays b (createSendAes k.site draws code client) := by
  refine Stays.bind (modifyClient_stays client fun _ => rfl) fun _ => getClient_stays fun c => ?_
  refine Stays.bind (updateClients_stays c.clientId fun _ => rfl) fun _ => ?_
  refine Stays.bind (Stays.bind (Stays.ofOption _ _) fun _ => Stays.ofOption _ _) fun _ =>
    onConn_stays ?_
  exact .bind (.sendHeader (truthful_of_ne hcode)) fun _ => .bind (.sendall _) fun _ => .sendall _

theorem lastPacket_stays (file : File) (client : Client) (contentSize origFileSize : Nat) :
    k.Stays b (lastPacket k.site file client contentSize origFileSize) := by
  refine Stays.bind (createDecryptedFile_stays _ _) fun _ => Stays.bind (Stays.require _) fun _ =>
    onConn_stays ?_
  refine .bind (.sendHeader (truthful_of_ne (by decide))) fun _ => .bind (.sendall _) fun _ => ?_
  refine .bind (.convertIntToByte _ _) fun _ => .bind (.sendall _) fun _ => ?_
  exact .bind (.sendall _) fun _ => .bind (.convertIntToByte _ _) fun _ => .sendall _

theorem thankYouAnswer_stays (clientId : Bytes) : k.Stays b (onConn (thankYouAnswer clientId)) :=
  onConn_stays (.bind (.sendHeader (truthful_of_ne (by decide))) fun _ => .sendall _)

theorem reconnectionFailed_stays (clientId : Bytes) :
    k.Stays b (onConn (Request.reconnectionFailed clientId)) :=
  onConn_stays (.bind (.sendHeader (truthful_of_ne (by decide))) fun _ => .sendall _)

/-! Commands that make entries. -/

abbrev Moves (k : Task) (b : Ledger) (m : Py α) : Prop :=
  Triple (k.At b) m (fun _ => k.Past b) (k.Past b)

theorem Stays.moves {m : Py α} (hm : k.Stays b m) : k.Moves b m :=
  hm.mono (fun _ h => h) (fun _ _ h => h.past) fun _ h => h.past

theorem Stays.next {m : Py α} {f : α → Py β} (hm : k.Stays b m) (hf : ∀ a, k.Moves b (f a)) :
    k.Moves b (m >>= f) :=
  Triple.bind (hm.mono (fun _ h => h) (fun _ _ h => h) fun _ h => h.past) hf

/-- An entry that is made if its command finishes, and what follows it. -/
theorem Moves.entry_if {P : World → Prop} {allowed : Prop} {m : Py α} {f : α → Py β}
    (hstep : allowed → Step b b')
    (hm : Triple P m (fun _ w => k.At b' w ∧ allowed) (k.At b)) (hf : ∀ a, k.Moves b' (f a)) :
    Triple P (m >>= f) (fun _ => k.Past b) (k.Past b) :=
  Triple.bind (hm.mono (fun _ h => h) (fun _ _ h => h) fun _ h => h.past) fun a =>
    Triple.of_pure fun hallowed => (hf a).mono (fun _ h => h)
      (fun _ _ h => h.of_step (hstep hallowed)) fun _ h => h.of_step (hstep hallowed)

theorem Moves.entry {P : World → Prop} {m : Py α} {f : α → Py β} (hstep : Step b b')
    (hm : Triple P m (fun _ => k.At b') (k.At b)) (hf : ∀ a, k.Moves b' (f a)) :
    Triple P (m >>= f) (fun _ => k.Past b) (k.Past b) :=
  Moves.entry_if (fun _ => hstep) (hm.weaken fun _ _ h => ⟨h, trivial⟩) hf

theorem getServer_moves {f : Server → Py α} (h : ∀ s, k.Moves b (f s)) :
    k.Moves b (getServer >>= f) := getServer_triple fun s => (h s).strengthen fun _ hw => hw.1

theorem getClient_moves {client : Nat} {f : Client → Py α}
    (h : ∀ c, b.holders[client]? = some c.holder → k.Moves b (f c)) :
    k.Moves b (getClient client >>= f) := getClient_triple (fun _ hw => hw.past) h

theorem modifyEntries_triple {f : List File → List File} {g : List Entry → List Entry}
    (hf : ∀ l, (f l).map File.entry = g (l.map File.entry)) (client : Nat) :
    Triple (k.At b)
      (modifyServer (·.modifyClient client fun c => { c with filesList := f c.filesList }))
      (fun _ => k.At (b.modifyEntries client g)) (k.At b) :=
  Triple.modify fun _ hw => hw.entries ((ledger_modifyFiles hf client).trans (by rw [hw.ledger]))
    (fun _ h => h) (Ledger.names_modifyEntries client g) rfl rfl

/-- The new object, with its folder. -/
theorem clientInit_triple (name : Text) :
    Triple (k.At b) (Client.init k.site k.draws name)
      (fun c w => (k.At b w ∧ w.server.disk.Creatable k.site.cwd (clientFolder name)) ∧
        c = newClient k.draws name) (k.At b) := by
  refine getServer_triple fun s => ?_
  refine Triple.bind (Q := fun _ w => k.At b w ∧
    w.server.disk.Creatable k.site.cwd (clientFolder name)) (Triple.whenever ?_ ?_)
    fun _ => Triple.pure fun w hw => ⟨hw, rfl⟩
  · intro _
    have hmkdir : Triple (k.At b) (makeDir k.site (clientFolder name))
        (fun _ w => k.At b w ∧ w.server.disk.Creatable k.site.cwd (clientFolder name))
        (k.At b) := onDisk_triple
      (P := fun disk => disk.Creatable k.site.cwd (clientFolder name))
      (fun _ _ h => FileTree.mkdir_isDir h) fun _ _ h => FileTree.creatable_of_mkdir h
    exact hmkdir.strengthen fun _ hw => hw.1
  · intro hexists w hw
    refine ⟨hw.1, FileTree.creatable_of_pathExists (clientFolder_rdropWhile name) ?_⟩
    rw [hw.2]
    exact eq_true_of_ne_false hexists

theorem addClient_triple (name : Text) :
    Triple (fun w => k.At b w ∧ w.server.disk.Creatable k.site.cwd (clientFolder name))
      (modifyServer fun s => { s with clientsList := s.clientsList ++ [newClient k.draws name] })
      (fun _ => k.At { b with holders := b.holders ++ [⟨k.draws.uuid, name, []⟩] })
      (k.At b) := by
  apply Triple.modify
  intro w hw
  obtain ⟨hat, hfolder⟩ := hw
  refine hat.update ?_ (fun _ h => h) rfl (hat.housed.mono (fun _ hq => hq) ?_)
  · rw [← hat.ledger, Server.ledger, List.map_append]
    rfl
  · intro name' hname
    rw [Server.names, List.map_append] at hname
    obtain hname | hname := List.mem_append.mp hname
    · exact .inl hname
    · obtain rfl := List.mem_singleton.mp hname
      exact .inr hfolder

theorem addClientDb_triple {c : Client} :
    Triple (k.At b) (Sql.addClientDb k.site c)
      (fun _ w => k.At { b with rows := b.rows ++ [c.toClientRow.known] } w ∧
        c.clientId ∉ b.rows.map Prod.fst) (k.At b) := by
  refine Triple.bind connect_stays fun _ => getServer_triple fun s => ?_
  split
  · exact Triple.raise fun _ hw => hw.1
  · rename_i hnew
    rw [Sql.modifyTables_apart]
    apply Triple.modify
    intro w hw
    obtain ⟨hat, rfl⟩ := hw
    refine ⟨hat.entries ?_ (fun _ h => List.mem_append_left _ h) rfl rfl rfl, ?_⟩
    · rw [← hat.ledger, Server.ledger, List.map_append]
      rfl
    · rw [← hat.ledger, Server.ledger, List.map_map]
      intro hmem
      obtain ⟨row, hrow, hid⟩ := List.mem_map.mp hmem
      exact hnew (List.any_eq_true.mpr ⟨row, hrow, decide_eq_true hid⟩)

theorem addFileDb_triple {file : File} :
    Triple (k.At b) (Sql.addFileDb k.site file)
      (fun _ w => k.At { b with entries := b.entries ++ [file.entry] } w ∧
        file.entry.key ∉ b.entries.map Entry.key) (k.At b) := by
  refine Triple.bind connect_stays fun _ => getServer_triple fun s => ?_
  split
  · exact Triple.raise fun _ hw => hw.1
  · rename_i hnew
    rw [Sql.modifyTables_apart]
    apply Triple.modify
    intro w hw
    obtain ⟨hat, rfl⟩ := hw
    refine ⟨hat.entries ?_ (fun _ h => h) rfl rfl rfl, ?_⟩
    · rw [← hat.ledger, Server.ledger, List.map_append]
      rfl
    · rw [← hat.ledger, Server.ledger, List.map_map]
      intro hmem
      obtain ⟨row, hrow, hkey⟩ := List.mem_map.mp hmem
      refine hnew (List.any_eq_true.mpr ⟨row, hrow, ?_⟩)
      exact decide_eq_true ⟨congrArg Prod.fst hkey, congrArg Prod.snd hkey⟩

theorem deleteFile_triple (fileName : Text) :
    Triple (k.At b) (Sql.deleteFile k.site fileName)
      (fun _ => k.At { b with entries := b.entries.filter (·.fileName ≠ fileName) })
      (k.At b) := by
  refine Triple.bind connect_stays fun _ => getServer_triple fun s => ?_
  split
  · rw [Sql.modifyTables_apart]
    apply Triple.modify
    intro w hw
    obtain ⟨hat, rfl⟩ := hw
    exact hat.entries ((ledger_deleteFile fileName).trans (by rw [hat.ledger])) (fun _ h => h)
      rfl rfl rfl
  · exact Triple.raise fun _ hw => hw.1

/-! The handlers. -/

theorem register_moves {name : Text} (hasked : k.asked name) (hid : k.draws.uuid ∉ b.ids)
    (hfiles : k.draws.uuid ∉ b.entries.map (·.clientId)) :
    k.Moves b (Request.register k.site k.draws name) := by
  refine getServer_triple fun s => ?_
  split
  · rename_i client _
    refine Triple.strengthen (P := k.At b) (Stays.moves ?_) fun _ hw => hw.1
    exact Stays.bind (lastSeen_stays k.draws client) fun _ => Stays.raise _
  · rename_i hfind
    have hname : s.ledger = b → name ∉ b.names := by
      intro hledger hmem
      rw [← hledger, Server.names_ledger] at hmem
      obtain ⟨c, hc, rfl⟩ := List.mem_map.mp hmem
      simpa using List.findIdx?_eq_none_iff.mp hfind c hc
    have hknown : ∀ w, k.At b w ∧ w.server = s → k.At b w ∧ s.ledger = b := by
      intro w hw
      obtain ⟨hat, rfl⟩ := hw
      exact ⟨hat, hat.ledger⟩
    refine Triple.strengthen (Triple.of_pure fun hledger => ?_) hknown
    refine Triple.bind ((clientInit_triple name).mono (fun _ h => h) (fun _ _ h => h)
      fun _ h => h.past) fun c => Triple.of_pure fun hc => ?_
    subst hc
    -- first in memory, then in the tables; the answer is sent last
    refine Moves.entry (.enrol hid hfiles (hname hledger)) (addClient_triple name) fun _ => ?_
    refine Moves.entry_if (fun hnew => .enter (h := ⟨k.draws.uuid, name, []⟩)
      (List.mem_append_right _ (List.mem_singleton_self _)) hnew) addClientDb_triple fun _ => ?_
    refine Stays.moves (onConn_stays (.bind (.sendHeader ?_) fun _ => .sendall _))
    exact fun _ => ⟨name, hasked, List.mem_append_right _ (List.mem_singleton_self _)⟩

theorem checkId_stays (oldClientId newClientId : Bytes) :
    k.Stays b (checkId oldClientId newClientId) := Stays.require _

theorem reconnect_stays (draws : Draws) (clientId : Bytes) (name : Text) :
    k.Stays b (Request.reconnect k.site draws clientId name) := by
  refine getServer_stays fun s => ?_
  split
  · refine getClient_stays fun c => Stays.bind (checkId_stays _ _) fun _ =>
      Stays.bind (lastSeen_stays draws _) fun _ => ?_
    split
    · exact reconnectionFailed_stays _
    · exact createSendAes_stays draws (by decide) _
  · exact reconnectionFailed_stays _

theorem takePublicKey_stays (draws : Draws) (clientId : Bytes) (name : Text) :
    k.Stays b (Request.takePublicKey k.site draws clientId name) := by
  refine getServer_stays fun s => ?_
  split
  · rename_i client _
    refine getClient_stays fun c => Stays.bind (checkId_stays _ _) fun _ =>
      Stays.bind (reading_stays (.recv _)) fun publicKey => ?_
    refine Stays.bind (modifyClient_stays client fun _ => rfl) fun _ =>
      Stays.bind (updateClients_stays c.clientId fun _ => rfl) fun _ => ?_
    exact Stays.bind (lastSeen_stays draws _) fun _ => createSendAes_stays draws (by decide) _
  · exact Stays.raise _

theorem flagFile_stays (client file : Nat) (flag : Bool) :
    k.Stays b (modifyServer (·.modifyFile client file fun f => { f with validCrc := flag })) :=
  modifyServer_stays
    (fun _ => ledger_modifyFile (f := fun f => { f with validCrc := flag }) (fun _ => rfl) _ _)
    (fun _ => rfl) fun _ => rfl

theorem storePacket_moves (draws : Draws) (clientId : Bytes) (p : Packet) :
    k.Moves b (Request.storePacket k.site draws clientId p) := by
  refine getServer_moves fun s => ?_
  split
  · exact Stays.moves (Stays.raise _)
  · rename_i client _
    refine getClient_moves fun c hc => Stays.next (openFile_stays _ _) fun _ =>
      Stays.next (writeFile_stays _ _) fun _ => Stays.next (lastSeen_stays draws _) fun _ => ?_
    split
    · refine Stays.moves (Stays.bind (Stays.ofOption _ _) fun f =>
        Stays.bind (Stays.whenever ?_) fun _ => Stays.whenever (lastPacket_stays _ _ _ _))
      exact Stays.bind (flagFile_stays _ _ _) fun _ => setValidCrc_stays _ _
    · rename_i hfind
      have hnew : p.fileName ∉ c.holder.entries.map (·.fileName) := by
        intro hmem
        rw [Client.holder, List.map_map] at hmem
        obtain ⟨f, hf, hname⟩ := List.mem_map.mp hmem
        have hother := List.findIdx?_eq_none_iff.mp hfind f hf
        exact absurd hname (of_decide_eq_false hother)
      -- first in the tables, then in memory
      refine Stays.next (Stays.require _) fun _ =>
        Moves.entry_if (fun hkey => .note (List.mem_of_getElem? hc) hkey) addFileDb_triple
          fun _ => ?_
      refine Moves.entry (.record hc hnew)
        (modifyEntries_triple (f := (· ++ [⟨c.clientId, p.fileName,
            filePath c.clientName p.fileName, false⟩]))
          (g := (· ++ [c.holder.entry p.fileName])) (fun l => List.map_append) client) fun _ => ?_
      exact Stays.moves (Stays.whenever (lastPacket_stays _ _ _ _))

theorem crcVerdict_moves (draws : Draws) (clientId : Bytes) (code : Nat) (fileName : Text) :
    k.Moves b (Request.crcVerdict k.site draws clientId code fileName) := by
  refine getServer_moves fun s => ?_
  split
  · exact Stays.moves (Stays.raise _)
  · rename_i client _
    refine getClient_moves fun c hc => Stays.next (lastSeen_stays draws _) fun _ => ?_
    split
    · exact Stays.moves (Stays.raise _)
    · rename_i file _
      refine Stays.next (Stays.ofOption _ _) fun f => Stays.next (Stays.require _) fun _ =>
        Stays.next (Stays.whenever ?_) fun _ => Triple.whenever (fun _ => ?_) fun _ _ h => h.past
      · exact Stays.bind (flagFile_stays _ _ _) fun _ => Stays.bind (setValidCrc_stays _ _)
          fun _ => thankYouAnswer_stays _
      · refine Stays.next (removeFile_stays _) fun _ => Moves.entry .drop
          (modifyEntries_triple (f := (·.eraseIdx file)) (g := (·.eraseIdx file))
            (fun l => (List.eraseIdx_map _ _ _).symm) client) fun _ => ?_
        exact Moves.entry .delete (deleteFile_triple fileName) fun _ =>
          Stays.moves (thankYouAnswer_stays _)

/-! The callback. -/

/-- A command that reads, from a connection that is known. -/
theorem onConn_reads {m : Net α} (hm : OnlyReads m) (c : Conn) :
    Triple (fun w => k.At b w ∧ w.conn = c) (onConn m)
      (fun a w => (k.At b w ∧ w.conn = (m.run c).2) ∧ (m.run c).1 = .done a) (k.At b) := by
  intro w hw
  obtain ⟨hat, rfl⟩ := hw
  have hafter : k.At b { w with conn := (m.run w.conn).2 } :=
    ⟨hat.ledger, hat.hasTables, hat.housed, hat.answers.of_answers (hm w.conn).answers⟩
  have hrun : (onConn m).run w =
      ((m.run w.conn).1, { w with conn := (m.run w.conn).2 }) := rfl
  rw [hrun]
  cases (m.run w.conn).1 with
  | done a => exact ⟨⟨hafter, rfl⟩, rfl⟩
  | raised e => exact hafter
  | blocked => exact hafter

/-- The handlers of an exception answer wherever the callback has got to. -/
theorem reject_past {code : Nat} (hcode : code ≠ General.registrationDone1600) :
    Triple (k.Past b) (onConn (reject code)) (fun _ => k.Past b) (k.Past b) := by
  refine Triple.of_exists fun b' => ?_
  have hrejects : k.Stays b' (onConn (reject code)) :=
    onConn_stays (.reject (truthful_of_ne hcode))
  refine Triple.strengthen (Triple.of_pure fun hsteps : Steps b b' => ?_) fun _ hw => ⟨hw.2, hw.1⟩
  exact hrejects.mono (fun _ h => h) (fun _ _ h => ⟨b', hsteps, h⟩) fun _ h => ⟨b', hsteps, h⟩

theorem headerValidation_reads (r : Request) : OnlyReads r.headerValidation := by
  intro c
  rw [Request.headerValidation, Act.require]
  split <;> exact .refl c

section
variable (hid : k.draws.uuid ∉ b.ids) (hfiles : k.draws.uuid ∉ b.entries.map (·.clientId))
include hid hfiles

theorem dispatch_moves (r : Request) (c : Conn)
    (hasked : r.code = General.registrationRequest825 → ∀ name,
      ((recvText General.clientNameSize).run c).1 = .done name → k.asked name) :
    Triple (fun w => k.At b w ∧ w.conn = c) (dispatch k.site k.draws r)
      (fun _ => k.Past b) (k.Past b) := by
  rw [dispatch]
  split
  · rename_i hcode
    refine Triple.attempt (R := k.Past b) ?_ (fun _ => reject_past (by decide)) fun _ h => h
    refine Triple.bind ((onConn_reads (.recvText _) c).mono (fun _ h => h) (fun _ _ h => h)
      fun _ h => h.past) fun name => Triple.of_pure fun hname => ?_
    exact (register_moves (hasked hcode name hname) hid hfiles).strengthen fun _ hw => hw.1
  · refine Triple.strengthen (P := k.At b) ?_ fun _ hw => hw.1
    split
    · exact Stays.moves (Stays.bind (reading_stays (.recvText _)) fun _ => reconnect_stays _ _ _)
    split
    · exact Stays.moves (Stays.bind (reading_stays (.recvText _)) fun _ =>
        takePublicKey_stays _ _ _)
    split
    · exact Stays.next (reading_stays (.recvPacket _)) fun _ => storePacket_moves _ _ _
    split
    · exact Stays.next (reading_stays (.recvText _)) fun _ => crcVerdict_moves _ _ _ _
    · exact Stays.moves (Stays.raise _)

/-- Whatever fails, a callback makes entries, and registers no name but one that was asked. -/
theorem read_moves (c : Conn) (hasked : ∀ id name,
    (receive c).incoming = .request id (.registration name) → k.asked name) :
    Triple (fun w => k.At b w ∧ w.conn = c) (read k.site k.draws)
      (fun _ => k.Past b) (k.Past b) := by
  refine Triple.attempt (R := k.Past b) ?_ (fun _ => reject_past (by decide)) fun _ h => h
  refine Triple.bind ((onConn_reads .getHeader c).mono (fun _ h => h) (fun _ _ h => h)
    fun _ h => h.past) fun header => Triple.of_pure fun hheader => ?_
  cases header with
  | none =>
      refine Triple.strengthen (P := k.At b) (Stays.moves (onConn_stays ?_)) fun _ hw => hw.1
      exact .modify fun _ hc => hc.of_answers rfl
  | some r =>
      refine Triple.bind ((onConn_reads (headerValidation_reads r) _).mono (fun _ h => h)
        (fun _ _ h => h) fun _ h => h.past) fun _ => Triple.of_pure fun hvalid => ?_
      obtain ⟨hversion, hconn⟩ : r.version = General.version ∧
          (r.headerValidation.run (Request.getHeader.run c).2).2 =
            (Request.getHeader.run c).2 := by
        by_cases hversion : r.version = General.version
        · rw [Request.headerValidation, require_pos hversion]
          exact ⟨hversion, rfl⟩
        · rw [Request.headerValidation, require_neg hversion] at hvalid
          cases hvalid
      rw [hconn]
      refine dispatch_moves hid hfiles r _ fun hcode name hname => hasked r.clientId name ?_
      rw [receive]
      cases hrun : Request.getHeader.run c with
      | mk o c₁ =>
          rw [hrun] at hheader hname
          simp only at hheader hname
          subst hheader
          simp only [Reception.ofHeader, hversion, hcode, ne_eq, not_true_eq_false, if_false,
            if_true]
          cases htext : (recvText General.clientNameSize).run c₁ with
          | mk o c₂ =>
              rw [htext] at hname
              simp only at hname
              subst hname
              rfl

end
end Task

end SecureTransfer
