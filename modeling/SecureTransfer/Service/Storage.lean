import SecureTransfer.Service.Updates

/-!
The tables in a file of the working directory. As long as the paths that a callback opens
lead to no entry of that directory, where the server keeps its database, it does what it
does with the tables apart from the disk.
-/

open Octets (Text)
open Effects Act

namespace SecureTransfer

/-- The machine of a site, with the tables in a file of its working directory. -/
def Site.storing (site : Site) (q : Sqlite) : Platform :=
  { site.toPlatform with sqlite := some q }

/-- The path leads to no entry of the working directory, such as the database. -/
def Site.Away (site : Site) (disk : FileTree) (path : Text) : Prop :=
  ∀ p, disk.locate site.cwd path = some p → p.dropLast ≠ site.cwd

/-- The path leads to a file elsewhere. -/
def Site.Clear (site : Site) (disk : FileTree) (path : Text) : Prop :=
  ∃ p, disk.locate site.cwd path = some p ∧ p.dropLast ≠ site.cwd

/-- The database file holds the tables as they were last read or written, and every file
on record is elsewhere. -/
structure Stored (site : Site) (q : Sqlite) (s : Server) : Prop where
  image : ∃ image, s.disk.Holds site.database image ∧ q.tables image = some s.db
  records : ∀ c ∈ s.clientsList, ∀ f ∈ c.filesList, site.Clear s.disk f.path
  rows : ∀ f ∈ s.db.files, site.Clear s.disk f.path

/-- The server with its tables apart, and an empty file in their place. -/
def Server.aside (site : Site) (s : Server) : Server :=
  { s with disk := s.disk.setFile site.database (some []) }

def World.aside (site : Site) (w : World) : World := { w with server := w.server.aside site }

/-- The tables are in their file, and these paths too lead elsewhere. -/
structure Intact (site : Site) (q : Sqlite) (paths : List Text) (w : World) : Prop where
  stored : Stored site q w.server
  clear : ∀ path ∈ paths, site.Clear w.server.disk path

/-- With the tables in their file a command does what it does with the tables apart. -/
abbrev Mirrored (site : Site) (q : Sqlite) (paths : List Text) {α : Type} (m n : Py α)
    (w : World) : Prop := Simulates (World.aside site) (Intact site q paths) m n w

section
variable {site : Site} {q : Sqlite} {paths : List Text} {w : World}

theorem dropLast_database (site : Site) : site.database.dropLast = site.cwd :=
  List.dropLast_concat

theorem Site.Away.database {disk : FileTree} {path : Text} (h : site.Away disk path) :
    disk.locate site.cwd path ≠ some site.database := by
  intro hlocate
  exact h _ hlocate (dropLast_database site)

theorem Site.Clear.away {disk : FileTree} {path : Text} (h : site.Clear disk path) :
    site.Away disk path := by
  obtain ⟨p, hp, hne⟩ := h
  intro p' hp'
  obtain rfl := Option.some.inj (hp.symm.trans hp')
  exact hne

theorem Site.Clear.mono {disk disk' : FileTree} {path : Text} (h : site.Clear disk path)
    (hdirs : ∀ p, disk.isDir p → disk'.isDir p) : site.Clear disk' path := by
  obtain ⟨p, hp, hne⟩ := h
  exact ⟨p, FileTree.locate_mono hdirs hp, hne⟩

/-- What a command can leave behind: more directories, the database file, and records of
files elsewhere. -/
theorem Stored.update {s t : Server} {image : Bytes} (hs : Stored site q s)
    (hdirs : ∀ p, s.disk.isDir p → t.disk.isDir p)
    (hholds : t.disk.Holds site.database image) (htables : q.tables image = some t.db)
    (hrecords : ∀ c ∈ t.clientsList, ∀ f ∈ c.filesList, site.Clear t.disk f.path ∨
      ∃ c' ∈ s.clientsList, ∃ f' ∈ c'.filesList, f'.path = f.path)
    (hrows : ∀ f ∈ t.db.files, site.Clear t.disk f.path ∨
      ∃ f' ∈ s.db.files, f'.path = f.path) : Stored site q t := by
  refine ⟨⟨image, hholds, htables⟩, ?_, ?_⟩
  · intro c hc f hf
    obtain hclear | ⟨c', hc', f', hf', hpath⟩ := hrecords c hc f hf
    · exact hclear
    · exact hpath ▸ (hs.records c' hc' f' hf').mono hdirs
  · intro f hf
    obtain hclear | ⟨f', hf', hpath⟩ := hrows f hf
    · exact hclear
    · exact hpath ▸ (hs.rows f' hf').mono hdirs

theorem Intact.mono {paths' : List Text} (hw : Intact site q paths' w) (h : paths ⊆ paths') :
    Intact site q paths w := ⟨hw.stored, fun path hpath => hw.clear path (h hpath)⟩

/-- The paths on record for a client. -/
theorem Intact.observe (hw : Intact site q paths w) {c : Client} (hc : c ∈ w.server.clientsList) :
    Intact site q (c.filesList.map (·.path) ++ paths) w := by
  refine ⟨hw.stored, ?_⟩
  intro path hpath
  obtain hrecorded | hpath := List.mem_append.mp hpath
  · obtain ⟨f, hf, rfl⟩ := List.mem_map.mp hrecorded
    exact hw.stored.records c hc f hf
  · exact hw.clear path hpath

theorem Intact.congr {w' : World} (hw : Intact site q paths w) (hserver : w'.server = w.server) :
    Intact site q paths w' := ⟨hserver ▸ hw.stored, hserver ▸ hw.clear⟩

theorem Mirrored.mono {paths' : List Text} {α : Type} {m n : Py α}
    (h : Mirrored site q paths' m n w) (hsub : paths ⊆ paths') : Mirrored site q paths m n w :=
  ⟨h.1, h.2.mono hsub⟩

/-! The commands of which the handlers are made. -/

/-- A command chosen by looking at the clients. -/
theorem mirrored_getServer {α : Type} {f g : Server → Py α}
    (hg : ∀ s : Server, g (s.aside site) = g s)
    (h : Mirrored site q paths (f w.server) (g w.server) w) :
    Mirrored site q paths (getServer >>= f) (getServer >>= g) w := by
  rw [← hg] at h
  exact h

section
variable (hw : Intact site q paths w)
include hw

theorem mirrored_onConn {α : Type} (m : Net α) : Mirrored site q paths (onConn m) (onConn m) w :=
  ⟨rfl, hw.congr rfl⟩

theorem mirrored_tick : Mirrored site q paths tick tick w := by
  obtain ⟨s, c, faults⟩ := w
  cases faults with
  | nil => exact ⟨rfl, hw⟩
  | cons fault faults => cases fault <;> exact ⟨rfl, hw.congr rfl⟩

/-- A change of the objects in memory. -/
theorem mirrored_clients {f : List Client → List Client}
    (hrecords : ∀ c ∈ f w.server.clientsList, ∀ file ∈ c.filesList, file.path ∈ paths ∨
      ∃ c' ∈ w.server.clientsList, ∃ f' ∈ c'.filesList, f'.path = file.path) :
    Mirrored site q paths (modifyServer fun s => { s with clientsList := f s.clientsList })
      (modifyServer fun s => { s with clientsList := f s.clientsList }) w := by
  obtain ⟨image, himage, htables⟩ := hw.stored.image
  refine Simulates.modify rfl ⟨?_, hw.clear⟩
  refine hw.stored.update (fun _ h => h) himage htables ?_ fun f hf => .inr ⟨f, hf, rfl⟩
  intro c hc file hfile
  exact (hrecords c hc file hfile).imp (hw.clear _) id

theorem mirrored_modifyClient (client : Nat) {f : Client → Client}
    (hf : ∀ c, ∀ file ∈ (f c).filesList, file.path ∈ paths ∨
      ∃ f' ∈ c.filesList, f'.path = file.path) :
    Mirrored site q paths (modifyServer (·.modifyClient client f))
      (modifyServer (·.modifyClient client f)) w := by
  refine mirrored_clients (f := fun clients => clients.modify client f) hw ?_
  intro c hc file hfile
  obtain hmem | ⟨c', hc', rfl⟩ : c ∈ w.server.clientsList ∨
      ∃ c' ∈ w.server.clientsList, f c' = c := by
    obtain ⟨i, hi⟩ := List.mem_iff_getElem?.mp hc
    rw [List.getElem?_modify] at hi
    obtain ⟨c', hc', rfl⟩ := Option.map_eq_some_iff.mp hi
    split
    · exact .inr ⟨c', List.mem_of_getElem? hc', rfl⟩
    · exact .inl (List.mem_of_getElem? hc')
  · exact .inr ⟨c, hmem, file, hfile, rfl⟩
  · obtain hpath | ⟨f', hf', hpath⟩ := hf c' file hfile
    · exact .inl hpath
    · exact .inr ⟨c', hc', f', hf', hpath⟩

/-- A change that leaves the records of every client. -/
theorem mirrored_modifyRow (client : Nat) {f : Client → Client}
    (hf : ∀ c, (f c).filesList = c.filesList) :
    Mirrored site q paths (modifyServer (·.modifyClient client f))
      (modifyServer (·.modifyClient client f)) w := by
  refine mirrored_modifyClient hw client ?_
  intro c file hfile
  exact .inr ⟨file, hf c ▸ hfile, rfl⟩

theorem mirrored_getClient (client : Nat) :
    Mirrored site q paths (getClient client) (getClient client) w :=
  Simulates.ofOption hw PyError.indexError w.server.clientsList[client]?

/-- The look at the tables finds them as they are, so it changes nothing. -/
theorem mirrored_connect :
    Mirrored site q paths (Sql.connect (site.storing q)) (Sql.connect site) w := by
  obtain ⟨image, himage, htables⟩ := hw.stored.image
  rw [Sql.connect_apart]
  have hconnect : (Sql.connect (site.storing q)).run w = tick.run w := by
    have hlook : ∀ faults, ((do
        modifyServer fun s => { s with disk := s.disk.touch site.database }
        let s ← getServer
        let tables ← ofOption .databaseError ((site.storing q).stored q s.disk)
        setServer { s with db := tables }) : Py Unit).run { w with faults := faults } =
          (.done (), { w with faults := faults }) := by
      intro faults
      have htouch : w.server.disk.touch site.database = w.server.disk := by
        rw [FileTree.touch, if_pos (by simp [FileTree.occupied, himage.2])]
      have hcontent : w.server.disk.content site.database = some image := by
        rw [FileTree.content, himage.1, if_neg Bool.false_ne_true, himage.2]
      have hstored : (site.storing q).stored q w.server.disk = some w.server.db := by
        change (w.server.disk.content site.database).bind q.tables = _
        rw [hcontent]
        exact htables
      rw [run_bind, modifyServer, run_modify]
      simp only [htouch]
      change (ofOption .databaseError ((site.storing q).stored q w.server.disk) >>= fun tables =>
        setServer { w.server with db := tables }).run { w with faults := faults } = _
      rw [hstored]
      rfl
    obtain ⟨s, c, faults⟩ := w
    cases faults with
    | nil => exact hlook []
    | cons fault faults =>
        cases fault with
        | false => exact hlook faults
        | true => rfl
  rw [Mirrored, Simulates, hconnect]
  exact mirrored_tick hw

/-- What a statement writes to the file is read back. -/
theorem mirrored_modifyTables {f : Tables → Tables}
    (hf : ∀ row ∈ (f w.server.db).files, row.path ∈ paths ∨
      ∃ row' ∈ w.server.db.files, row'.path = row.path) :
    Mirrored site q paths (Sql.modifyTables (site.storing q) f) (Sql.modifyTables site f) w := by
  obtain ⟨image, himage, -⟩ := hw.stored.image
  rw [Sql.modifyTables_apart]
  have hclear : ∀ path ∈ paths, site.Clear ((site.storing q).save
      { w.server with db := f w.server.db }).disk path := fun path hpath =>
    (hw.clear path hpath).mono fun _ h => h
  refine Simulates.modify ?_ ⟨?_, hclear⟩
  · have hsave : ∀ content, ((w.server.disk.setFile site.database content).setFile site.database
        (some [])) = w.server.disk.setFile site.database (some []) := fun _ =>
      FileTree.setFile_setFile _ _ _ _
    simp only [World.aside, Server.aside, Platform.save, Site.storing]
    exact congrArg (fun disk => { w with server :=
      { w.server with db := f w.server.db, disk := disk } }) (hsave _).symm
  · refine hw.stored.update (fun _ h => h) ⟨himage.1, FileTree.setFile_file_self _ _ _⟩
      (q.tables_file _ _) (fun c hc file hfile => .inr ⟨c, hc, file, hfile, rfl⟩) ?_
    intro row hrow
    exact (hf row hrow).imp (hclear _) id

theorem mirrored_sql {f : Tables → Tables}
    (hf : ∀ t, ∀ row ∈ (f t).files, row.path ∈ paths ∨ ∃ row' ∈ t.files, row'.path = row.path) :
    Mirrored site q paths (do Sql.connect (site.storing q); Sql.modifyTables (site.storing q) f)
      (do Sql.connect site; Sql.modifyTables site f) w :=
  (mirrored_connect hw).bind fun _ _ _ hwt => mirrored_modifyTables hwt (hf _)

/-- A statement on table clients. -/
theorem mirrored_updateClients (clientId : Bytes) (f : ClientRow → ClientRow) :
    Mirrored site q paths
      (do Sql.connect (site.storing q)
          Sql.modifyTables (site.storing q) (·.updateClients clientId f))
      (do Sql.connect site; Sql.modifyTables site (·.updateClients clientId f)) w :=
  mirrored_sql hw fun _ row hrow => .inr ⟨row, hrow, rfl⟩

theorem mirrored_setValidCrc (clientId : Bytes) (flag : Bool) :
    Mirrored site q paths (Sql.setValidCrc (site.storing q) clientId flag)
      (Sql.setValidCrc site clientId flag) w := by
  refine mirrored_sql hw ?_
  intro t row hrow
  obtain ⟨row', hrow', rfl⟩ := List.mem_map.mp hrow
  refine .inr ⟨row', hrow', ?_⟩
  split <;> rfl

omit hw in
theorem tick_server {t : World} (h : tick.run w = (.done (), t)) : t.server = w.server := by
  obtain ⟨s, c, faults⟩ := w
  cases faults with
  | nil =>
      obtain rfl := (Prod.mk.inj h).2
      rfl
  | cons fault faults =>
      cases fault with
      | false =>
          obtain rfl := (Prod.mk.inj h).2
          rfl
      | true => cases (Prod.mk.inj h).1

/-- A file call that does not reach the database. -/
theorem mirrored_onDisk {f : FileTree → Option FileTree}
    (hview : f (w.server.aside site).disk =
      (f w.server.disk).map (·.setFile site.database (some [])))
    (hkept : ∀ disk image, f w.server.disk = some disk →
      w.server.disk.Holds site.database image → disk.Holds site.database image ∧
        ∀ p, w.server.disk.isDir p → disk.isDir p) :
    Mirrored site q paths (onDisk f) (onDisk f) w := by
  refine (mirrored_tick hw).bind fun _ t ht hwt => ?_
  have hserver := tick_server ht
  rw [← hserver] at hview hkept
  change Mirrored site q paths (ofOption .osError (f t.server.disk) >>= fun disk =>
      setServer { t.server with disk := disk })
    (ofOption .osError (f (t.server.aside site).disk) >>= fun disk =>
      setServer { t.server.aside site with disk := disk }) t
  rw [hview]
  cases hf : f t.server.disk with
  | none => exact Simulates.raise hwt _
  | some disk =>
      obtain ⟨image, himage, htables⟩ := hwt.stored.image
      obtain ⟨hholds, hdirs⟩ := hkept disk image hf himage
      refine ⟨rfl, ?_, fun path hpath => (hwt.clear path hpath).mono hdirs⟩
      exact hwt.stored.update hdirs hholds htables
        (fun c hc file hfile => .inr ⟨c, hc, file, hfile, rfl⟩)
        fun row hrow => .inr ⟨row, hrow, rfl⟩

section
variable {path : Text} (haway : site.Away w.server.disk path)
include haway

theorem mirrored_openFile (truncate : Bool) :
    Mirrored site q paths (openFile (site.storing q) path truncate)
      (openFile site path truncate) w := by
  refine mirrored_onDisk hw (FileTree.openWrite_setFile haway.database _ truncate) ?_
  intro disk image hopen himage
  refine ⟨himage.openWrite haway.database hopen, ?_⟩
  rw [FileTree.openWrite_isDir hopen]
  exact fun _ h => h

theorem mirrored_writeFile (content : Bytes) :
    Mirrored site q paths (writeFile (site.storing q) path content)
      (writeFile site path content) w := by
  refine mirrored_onDisk hw (FileTree.append_setFile haway.database _ content) ?_
  intro disk image hwrite himage
  refine ⟨himage.append haway.database hwrite, ?_⟩
  rw [FileTree.append_isDir hwrite]
  exact fun _ h => h

theorem mirrored_removeFile :
    Mirrored site q paths (removeFile (site.storing q) path) (removeFile site path) w := by
  refine mirrored_onDisk hw (FileTree.remove_setFile haway.database _) ?_
  intro disk image hremove himage
  refine ⟨himage.remove haway.database hremove, ?_⟩
  rw [FileTree.remove_isDir hremove]
  exact fun _ h => h

theorem mirrored_readFile :
    Mirrored site q paths (readFile (site.storing q) path) (readFile site path) w := by
  refine (mirrored_tick hw).bind fun _ t ht hwt => ?_
  have hserver := tick_server ht
  change Mirrored site q paths (ofOption .osError (t.server.disk.readFile site.cwd path))
    (ofOption .osError ((t.server.aside site).disk.readFile site.cwd path)) t
  have hread : (t.server.aside site).disk.readFile site.cwd path =
      t.server.disk.readFile site.cwd path := by
    rw [hserver]
    exact FileTree.readFile_setFile haway.database _
  rw [hread]
  exact Simulates.ofOption hwt _ _

end

/-- A directory is made where nothing is, so not over the database. -/
theorem mirrored_makeDir (path : Text) :
    Mirrored site q paths (makeDir (site.storing q) path) (makeDir site path) w := by
  obtain ⟨image, himage, -⟩ := hw.stored.image
  refine mirrored_onDisk hw (himage.mkdir_setFile _ site.cwd path) ?_
  intro disk image hmkdir himage
  exact ⟨himage.mkdir hmkdir, FileTree.mkdir_isDir hmkdir⟩

/-! The statements of sql.py that raise. -/

theorem mirrored_addClientDb (c : Client) :
    Mirrored site q paths (Sql.addClientDb (site.storing q) c) (Sql.addClientDb site c) w := by
  refine (mirrored_connect hw).bind fun _ t _ hwt => ?_
  change Mirrored site q paths (if t.server.db.clients.any _ then _ else _)
    (if t.server.db.clients.any _ then _ else _) t
  split
  · exact Simulates.raise hwt _
  · exact mirrored_modifyTables hwt fun row hrow => .inr ⟨row, hrow, rfl⟩

theorem mirrored_addFileDb {file : File} (hpath : file.path ∈ paths) :
    Mirrored site q paths (Sql.addFileDb (site.storing q) file) (Sql.addFileDb site file) w := by
  refine (mirrored_connect hw).bind fun _ t _ hwt => ?_
  change Mirrored site q paths (if t.server.db.files.any _ then _ else _)
    (if t.server.db.files.any _ then _ else _) t
  split
  · exact Simulates.raise hwt _
  · refine mirrored_modifyTables hwt ?_
    intro row hrow
    obtain hrow | hrow := List.mem_append.mp hrow
    · exact .inr ⟨row, hrow, rfl⟩
    · obtain rfl := List.mem_singleton.mp hrow
      exact .inl hpath

theorem mirrored_deleteFile (fileName : Text) :
    Mirrored site q paths (Sql.deleteFile (site.storing q) fileName)
      (Sql.deleteFile site fileName) w := by
  refine (mirrored_connect hw).bind fun _ t _ hwt => ?_
  change Mirrored site q paths (if t.server.db.files.any _ then _ else _)
    (if t.server.db.files.any _ then _ else _) t
  split
  · exact mirrored_modifyTables hwt fun row hrow => .inr ⟨row, (List.mem_filter.mp hrow).1, rfl⟩
  · exact Simulates.raise hwt _

/-! The parts of the handlers. -/

theorem mirrored_lastSeen (draws : Draws) (client : Nat) :
    Mirrored site q paths (lastSeen (site.storing q) draws client) (lastSeen site draws client) w :=
  (mirrored_getClient hw client).bind fun _ _ _ hwt =>
    (mirrored_updateClients hwt _ _).bind fun _ _ _ hwt =>
      mirrored_modifyRow hwt client fun _ => rfl

theorem mirrored_encryptByPublicKey (draws : Draws) (publicKey aesKey : Bytes) :
    Mirrored site q paths (encryptByPublicKey (site.storing q) draws publicKey aesKey)
      (encryptByPublicKey site draws publicKey aesKey) w :=
  (Simulates.ofOption hw PyError.valueError (site.importKey publicKey)).bind fun key _ _ hwt =>
    Simulates.ofOption hwt PyError.valueError (site.oaepEncrypt key draws.seed aesKey)

theorem mirrored_createSendAes (draws : Draws) (code client : Nat) :
    Mirrored site q paths (createSendAes (site.storing q) draws code client)
      (createSendAes site draws code client) w := by
  refine (mirrored_modifyRow (f := fun c => { c with aesKey := draws.aesKey }) hw client
    fun _ => rfl).bind fun _ t _ hwt => ?_
  refine (mirrored_getClient hwt client).bind fun c t _ hwt => ?_
  refine (mirrored_updateClients hwt c.clientId _).bind fun _ t _ hwt => ?_
  refine (mirrored_encryptByPublicKey hwt draws c.publicKey c.aesKey).bind fun _ t _ hwt => ?_
  exact mirrored_onConn hwt _

theorem mirrored_init (draws : Draws) (name : Text) :
    Mirrored site q paths (Client.init (site.storing q) draws name) (Client.init site draws name)
      w := by
  obtain ⟨image, himage, -⟩ := hw.stored.image
  have hexists : (w.server.aside site).disk.pathExists site.cwd (clientFolder name) =
      w.server.disk.pathExists site.cwd (clientFolder name) := himage.pathExists_setFile _ _ _
  change Mirrored site q paths
    (whenever (w.server.disk.pathExists site.cwd (clientFolder name) = false)
      (makeDir (site.storing q) (clientFolder name)) >>= fun _ => pure (newClient draws name))
    (whenever ((w.server.aside site).disk.pathExists site.cwd (clientFolder name) = false)
      (makeDir site (clientFolder name)) >>= fun _ => pure (newClient draws name)) w
  rw [hexists]
  exact (Simulates.whenever hw fun _ => mirrored_makeDir hw _).bind fun _ _ _ hwt =>
    Simulates.pure hwt _

theorem mirrored_createDecryptedFile {path : Text} (hpath : path ∈ paths) (aesKey : Bytes) :
    Mirrored site q paths (createDecryptedFile (site.storing q) path aesKey)
      (createDecryptedFile site path aesKey) w := by
  refine (mirrored_readFile hw (hw.clear path hpath).away).bind fun content t _ hwt => ?_
  refine (Simulates.ofOption hwt PyError.valueError (decryptContent site aesKey content)).bind
    fun plain t _ hwt => ?_
  refine (mirrored_openFile hwt (hwt.clear path hpath).away true).bind fun _ t _ hwt => ?_
  refine (mirrored_writeFile hwt (hwt.clear path hpath).away plain).bind fun _ t _ hwt => ?_
  exact Simulates.pure hwt plain

theorem mirrored_lastPacket {file : File} (hpath : file.path ∈ paths) (c : Client)
    (contentSize origFileSize : Nat) :
    Mirrored site q paths (lastPacket (site.storing q) file c contentSize origFileSize)
      (lastPacket site file c contentSize origFileSize) w := by
  refine (mirrored_createDecryptedFile hw hpath c.aesKey).bind fun plain t _ hwt => ?_
  refine (Simulates.require hwt PyError.valueError).bind fun _ t _ hwt => ?_
  exact mirrored_onConn hwt _

/-! The handlers. -/

omit hw in
theorem init_done {site : Platform} {draws : Draws} {name : Text} {c : Client} {t : World}
    (h : (Client.init site draws name).run w = (.done c, t)) : c = newClient draws name := by
  obtain ⟨_, u, -, h⟩ := bind_eq_done h
  obtain ⟨_, u, -, h⟩ := bind_eq_done h
  exact (Outcome.done.inj (Prod.mk.inj h).1).symm

theorem mirrored_register (draws : Draws) (name : Text) :
    Mirrored site q paths (Request.register (site.storing q) draws name)
      (Request.register site draws name) w := by
  refine mirrored_getServer (fun _ => rfl) ?_
  cases w.server.clientsList.findIdx? (·.clientName = name) with
  | some client => exact (mirrored_lastSeen hw draws client).bind fun _ _ _ hwt => .raise hwt _
  | none =>
      refine (mirrored_init hw draws name).bind fun c t hc hwt => ?_
      obtain rfl := init_done hc
      have hadd : Mirrored site q paths
          (modifyServer fun s => { s with clientsList := s.clientsList ++ [newClient draws name] })
          (modifyServer fun s => { s with clientsList := s.clientsList ++ [newClient draws name] })
          t := by
        refine mirrored_clients (f := fun clients => clients ++ [newClient draws name]) hwt ?_
        intro c hc file hfile
        obtain hc | hc := List.mem_append.mp hc
        · exact .inr ⟨c, hc, file, hfile, rfl⟩
        · obtain rfl := List.mem_singleton.mp hc
          cases hfile
      refine hadd.bind fun _ t _ hwt => ?_
      refine (mirrored_addClientDb hwt _).bind fun _ t _ hwt => ?_
      exact mirrored_onConn hwt _

theorem mirrored_reconnect (draws : Draws) (clientId : Bytes) (name : Text) :
    Mirrored site q paths (Request.reconnect (site.storing q) draws clientId name)
      (Request.reconnect site draws clientId name) w := by
  refine mirrored_getServer (fun _ => rfl) ?_
  cases w.server.clientsList.findIdx? (·.clientName = name) with
  | none => exact mirrored_onConn hw _
  | some client =>
      refine (mirrored_getClient hw client).bind fun c t _ hwt => ?_
      refine (Simulates.require hwt PyError.valueError).bind fun _ t _ hwt => ?_
      refine (mirrored_lastSeen hwt draws client).bind fun _ t _ hwt => ?_
      cases hkey : site.importKey c.publicKey with
      | none =>
          have hkey' : (site.storing q).importKey c.publicKey = none := hkey
          simp only [hkey']
          exact mirrored_onConn hwt _
      | some key =>
          have hkey' : (site.storing q).importKey c.publicKey = some key := hkey
          simp only [hkey']
          exact mirrored_createSendAes hwt draws _ client

theorem mirrored_takePublicKey (draws : Draws) (clientId : Bytes) (name : Text) :
    Mirrored site q paths (Request.takePublicKey (site.storing q) draws clientId name)
      (Request.takePublicKey site draws clientId name) w := by
  refine mirrored_getServer (fun _ => rfl) ?_
  cases w.server.clientsList.findIdx? (·.clientName = name) with
  | none => exact .raise hw _
  | some client =>
      refine (mirrored_getClient hw client).bind fun c t _ hwt => ?_
      refine (Simulates.require hwt PyError.valueError).bind fun _ t _ hwt => ?_
      refine (mirrored_onConn hwt _).bind fun publicKey t _ hwt => ?_
      refine (mirrored_modifyRow (f := fun c => { c with publicKey := publicKey }) hwt client
        fun _ => rfl).bind fun _ t _ hwt => ?_
      refine (mirrored_updateClients hwt c.clientId _).bind fun _ t _ hwt => ?_
      refine (mirrored_lastSeen hwt draws client).bind fun _ t _ hwt => ?_
      exact mirrored_createSendAes hwt draws _ client

/-- The flag of a record. -/
theorem mirrored_modifyFile (client file : Nat) (flag : Bool) :
    Mirrored site q paths
      (modifyServer (·.modifyFile client file fun f => { f with validCrc := flag }))
      (modifyServer (·.modifyFile client file fun f => { f with validCrc := flag })) w := by
  refine mirrored_modifyClient (f := fun c => { c with
    filesList := c.filesList.modify file fun f => { f with validCrc := flag } }) hw client ?_
  intro c f hf
  obtain ⟨i, hi⟩ := List.mem_iff_getElem?.mp hf
  rw [List.getElem?_modify] at hi
  obtain ⟨f', hf', rfl⟩ := Option.map_eq_some_iff.mp hi
  refine .inr ⟨f', List.mem_of_getElem? hf', ?_⟩
  split <;> rfl

/-- The end of `storePacket`, which finds or makes the record. -/
def Request.recordPart (site : Platform) (client : Nat) (c : Client) (p : Packet) : Py Unit :=
  match c.filesList.findIdx? (·.fileName = p.fileName) with
  | some file => do
      let f ← ofOption .indexError c.filesList[file]?
      whenever (p.packetNumber = 1) do
        modifyServer (·.modifyFile client file fun f => { f with validCrc := false })
        Sql.setValidCrc site c.clientId false
      whenever (p.packetNumber = p.totalPackets)
        (lastPacket site f c p.contentSize p.origFileSize)
  | none => do
      require (p.packetNumber = 1) .valueError
      let newFile : File := ⟨c.clientId, p.fileName, filePath c.clientName p.fileName, false⟩
      Sql.addFileDb site newFile
      modifyServer (·.modifyClient client fun c =>
        { c with filesList := c.filesList ++ [newFile] })
      whenever (p.packetNumber = p.totalPackets)
        (lastPacket site newFile c p.contentSize p.origFileSize)

/-- The paths of a packet: that of its client, away from the database. -/
def Packet.Away (site : Site) (s : Server) (clientId : Bytes) (p : Packet) : Prop :=
  ∀ c ∈ s.clientsList, c.clientId = clientId →
    site.Away s.disk (filePath c.clientName p.fileName)

omit hw in
theorem openFile_clear {path : Text} {truncate : Bool} {t : World}
    (haway : site.Away w.server.disk path)
    (h : (openFile (site.storing q) path truncate).run w = (.done (), t)) :
    site.Clear t.server.disk path := by
  obtain ⟨_, u, htick, h⟩ := bind_eq_done h
  have hserver := tick_server htick
  obtain ⟨disk, v, hopen, h⟩ : ∃ disk v, (ofOption PyError.osError
      (u.server.disk.openWrite site.cwd path truncate) : Py FileTree).run u = (.done disk, v) ∧
      (setServer { u.server with disk := disk }).run v = (.done (), t) := bind_eq_done h
  obtain ⟨hopen, rfl⟩ := ofOption_done hopen
  obtain rfl := (Prod.mk.inj h).2
  rw [hserver] at hopen
  obtain ⟨p, hp⟩ := FileTree.openWrite_locate hopen
  refine Site.Clear.mono ⟨p, hp, haway p hp⟩ ?_
  change ∀ p, w.server.disk.isDir p → disk.isDir p
  rw [FileTree.openWrite_isDir hopen]
  exact fun _ h => h

omit hw in
theorem getClient_done {client : Nat} {c : Client} {t : World}
    (h : (getClient client).run w = (.done c, t)) : c ∈ w.server.clientsList ∧
      w.server.clientsList[client]? = some c ∧ t = w := by
  obtain ⟨hget, ht⟩ := ofOption_done (o := w.server.clientsList[client]?) h
  exact ⟨List.mem_of_getElem? hget, hget, ht⟩

theorem mirrored_recordPart {client : Nat} {c : Client} {p : Packet}
    (hrecords : ∀ f ∈ c.filesList, f.path ∈ paths)
    (hpath : filePath c.clientName p.fileName ∈ paths) :
    Mirrored site q paths (Request.recordPart (site.storing q) client c p)
      (Request.recordPart site client c p) w := by
  rw [Mirrored, Request.recordPart, Request.recordPart]
  cases c.filesList.findIdx? (·.fileName = p.fileName) with
  | some file =>
      refine (Simulates.ofOption hw PyError.indexError _).bind fun f t hf hwt => ?_
      have hmem := List.mem_of_getElem? (ofOption_done hf).1
      have hflag : p.packetNumber = 1 → Mirrored site q paths _ _ t := fun _ =>
        (mirrored_modifyFile hwt client file false).bind fun _ _ _ hwt =>
          mirrored_setValidCrc hwt c.clientId false
      refine (Simulates.whenever hwt hflag).bind fun _ t _ hwt => ?_
      exact Simulates.whenever hwt fun _ => mirrored_lastPacket hwt (hrecords f hmem) c _ _
  | none =>
      refine (Simulates.require hw PyError.valueError).bind fun _ t _ hwt => ?_
      refine (mirrored_addFileDb hwt hpath).bind fun _ t _ hwt => ?_
      have hadd : Mirrored site q paths _ _ t := mirrored_modifyClient hwt client
        (f := fun c' => { c' with filesList := c'.filesList ++
          [⟨c.clientId, p.fileName, filePath c.clientName p.fileName, false⟩] }) ?_
      · refine hadd.bind fun _ t _ hwt => ?_
        exact Simulates.whenever hwt fun _ => mirrored_lastPacket hwt hpath c _ _
      · intro c' f hf
        obtain hf | hf := List.mem_append.mp hf
        · exact .inr ⟨f, hf, rfl⟩
        · obtain rfl := List.mem_singleton.mp hf
          exact .inl hpath

theorem mirrored_storePacket (draws : Draws) {clientId : Bytes} {p : Packet}
    (haway : p.Away site w.server clientId) :
    Mirrored site q paths (Request.storePacket (site.storing q) draws clientId p)
      (Request.storePacket site draws clientId p) w := by
  refine mirrored_getServer (fun _ => rfl) ?_
  cases hfound : w.server.clientsList.findIdx? (·.clientId = clientId) with
  | none => exact .raise hw _
  | some client =>
      obtain ⟨c₀, hget, -, hid⟩ := client?_of_findIdx? hfound
      refine (mirrored_getClient hw client).bind fun c t hrun hwt => ?_
      obtain ⟨hc, hget', rfl⟩ := getClient_done hrun
      obtain rfl : c₀ = c := Option.some.inj (hget.symm.trans hget')
      have haway := haway c₀ hc hid
      have hwt := hwt.observe hc
      refine Mirrored.mono ?_ (List.subset_append_right (c₀.filesList.map (·.path)) paths)
      refine (mirrored_openFile hwt haway (p.packetNumber = 1)).bind fun _ u hopen hwu => ?_
      have hwu : Intact site q (filePath c₀.clientName p.fileName ::
          (c₀.filesList.map (·.path) ++ paths)) u :=
        ⟨hwu.stored, List.forall_mem_cons.mpr ⟨openFile_clear haway hopen, hwu.clear⟩⟩
      refine Mirrored.mono ?_ (List.subset_cons_self (filePath c₀.clientName p.fileName) _)
      have hpath := hwu.clear _ List.mem_cons_self
      refine (mirrored_writeFile hwu hpath.away p.content).bind fun _ u _ hwu => ?_
      refine (mirrored_lastSeen hwu draws client).bind fun _ u _ hwu => ?_
      refine mirrored_recordPart hwu (fun f hf => ?_) List.mem_cons_self
      exact List.mem_cons_of_mem _ (List.mem_append_left _ (List.mem_map_of_mem hf))

theorem mirrored_crcVerdict (draws : Draws) (clientId : Bytes) (code : Nat) (fileName : Text) :
    Mirrored site q paths (Request.crcVerdict (site.storing q) draws clientId code fileName)
      (Request.crcVerdict site draws clientId code fileName) w := by
  refine mirrored_getServer (fun _ => rfl) ?_
  cases w.server.clientsList.findIdx? (·.clientId = clientId) with
  | none => exact .raise hw _
  | some client =>
      refine (mirrored_getClient hw client).bind fun c t hrun hwt => ?_
      obtain ⟨hc, -, rfl⟩ := getClient_done hrun
      have hwt := hwt.observe hc
      refine Mirrored.mono ?_ (List.subset_append_right (c.filesList.map (·.path)) paths)
      refine (mirrored_lastSeen hwt draws client).bind fun _ u _ hwu => ?_
      cases c.filesList.findIdx? (·.fileName = fileName) with
      | none => exact .raise hwu _
      | some file =>
          refine (Simulates.ofOption hwu PyError.indexError _).bind fun f u hf hwu => ?_
          have hmem := List.mem_of_getElem? (ofOption_done hf).1
          have hpath : f.path ∈ c.filesList.map (·.path) ++ paths :=
            List.mem_append_left _ (List.mem_map_of_mem hmem)
          refine (Simulates.require hwu PyError.valueError).bind fun _ u _ hwu => ?_
          have hvalid : code = General.validCrcRequest900 → Mirrored site q _ _ _ u := fun _ =>
            (mirrored_modifyFile hwu client file true).bind fun _ _ _ hwu =>
              (mirrored_setValidCrc hwu c.clientId true).bind fun _ _ _ hwu =>
                mirrored_onConn hwu (thankYouAnswer c.clientId)
          refine (Simulates.whenever hwu hvalid).bind fun _ u _ hwu => ?_
          refine Simulates.whenever hwu fun _ => ?_
          refine (mirrored_removeFile hwu (hwu.clear _ hpath).away).bind fun _ u _ hwu => ?_
          have herase : Mirrored site q _ _ _ u := mirrored_modifyClient hwu client
            (f := fun c => { c with filesList := c.filesList.eraseIdx file }) ?_
          · refine herase.bind fun _ u _ hwu => ?_
            refine (mirrored_deleteFile hwu fileName).bind fun _ u _ hwu => ?_
            exact mirrored_onConn hwu _
          · intro c' f' hf'
            exact .inr ⟨f', List.mem_of_mem_eraseIdx hf', rfl⟩

/-! The callback. -/

omit hw in
theorem onConn_done {α : Type} {m : Net α} {a : α} {t : World}
    (h : (onConn m).run w = (.done a, t)) :
    m.run w.conn = (.done a, t.conn) ∧ t.server = w.server := by
  obtain ⟨ho, rfl⟩ := Prod.mk.inj h
  exact ⟨Prod.ext ho rfl, rfl⟩

/-- A request whose handler reads its fields first. -/
theorem mirrored_reads {α : Type} (m : Net α) {f g : α → Py Unit}
    (hfg : ∀ a t, m.run w.conn = (.done a, t.conn) → t.server = w.server →
      Intact site q paths t → Mirrored site q paths (f a) (g a) t) :
    Mirrored site q paths (onConn m >>= f) (onConn m >>= g) w := by
  refine (mirrored_onConn hw m).bind fun a t hrun hwt => ?_
  obtain ⟨hm, hserver⟩ := onConn_done hrun
  exact hfg a t hm hserver hwt

theorem mirrored_dispatch (draws : Draws) (r : Request) (hversion : r.version = General.version)
    (haway : ∀ p, (Reception.ofHeader r w.conn).incoming = .request r.clientId (.packet p) →
      p.Away site w.server r.clientId) :
    Mirrored site q paths (dispatch (site.storing q) draws r) (dispatch site draws r) w := by
  rw [Reception.ofHeader, if_neg (by simpa using hversion)] at haway
  rw [Mirrored, dispatch, dispatch]
  split
  · refine Simulates.attempt ?_ fun e t hwt => mirrored_onConn hwt _
    exact mirrored_reads hw _ fun name t _ _ hwt => mirrored_register hwt draws name
  rename_i h825
  split
  · exact mirrored_reads hw _ fun name t _ _ hwt => mirrored_reconnect hwt draws r.clientId name
  rename_i h827
  split
  · exact mirrored_reads hw _ fun name t _ _ hwt =>
      mirrored_takePublicKey hwt draws r.clientId name
  rename_i h826
  split
  · rename_i h828
    rw [if_neg h825, if_neg h827, if_neg h826, if_pos h828] at haway
    refine mirrored_reads hw _ fun p t hm hserver hwt => ?_
    rw [hm] at haway
    refine mirrored_storePacket hwt draws ?_
    rw [hserver]
    exact haway p rfl
  split
  · exact mirrored_reads hw _ fun name t _ _ hwt =>
      mirrored_crcVerdict hwt draws r.clientId r.code name
  · exact .raise hw _

/-- A callback that leaves the database alone does what it does with the tables apart. -/
theorem mirrored_read (draws : Draws) (haway : ∀ id p,
      (receive w.conn).incoming = .request id (.packet p) → p.Away site w.server id) :
    Mirrored site q paths (read (site.storing q) draws) (read site draws) w := by
  refine Simulates.attempt ?_ fun e t hwt => mirrored_onConn hwt _
  refine mirrored_reads hw _ fun header t hm hserver hwt => ?_
  rw [receive, hm] at haway
  cases header with
  | none => exact mirrored_onConn hwt _
  | some r =>
      by_cases hversion : r.version = General.version
      · have hvalid : onConn r.headerValidation = pure () := by
          rw [Request.headerValidation, require_pos hversion]
          rfl
        simp only [hvalid, pure_bind]
        refine mirrored_dispatch hwt draws r hversion ?_
        rw [hserver]
        exact haway r.clientId
      · have hinvalid : onConn r.headerValidation = (raise .typeError : Py Unit) := by
          rw [Request.headerValidation, require_neg hversion]
          rfl
        simp only [hinvalid, raise_bind]
        exact .raise hwt _

end

end

end SecureTransfer
