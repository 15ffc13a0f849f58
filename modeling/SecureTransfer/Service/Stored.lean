import SecureTransfer.Library.Codes
import SecureTransfer.Service.Delivery
import SecureTransfer.Service.Storage

/-!
Runs of the server with its tables in a file of the working directory. As long as no packet
has a path to that directory, the run is, but for what that file holds, one of the server
with its tables apart.
-/

open Octets (Text)
open Effects Act
open Runs (System)

namespace SecureTransfer

/-- The server starts in a directory without a database, and makes one. -/
def storedRuns (site : Site) (q : Sqlite) : System Server Event where
  init s := ∃ s₀, Untouched site s₀ ∧ s₀.disk.occupied site.database = false ∧
    dataBaseHandle (site.storing q) s₀ = some s
  step s e t := Admissible s e ∧ step (site.storing q) s e = some t

/-- A packet that is received here has no path to the working directory. -/
def Conn.Away (site : Site) (s : Server) (c : Conn) : Prop :=
  ∀ id p, (receive c).incoming = .request id (.packet p) → p.Away site s id

def Event.Away (site : Site) (s : Server) (e : Event) : Prop :=
  ∀ id p, e.Asks id (.packet p) → p.Away site s id

def awayRuns (site : Site) (q : Sqlite) : System Server Event :=
  (storedRuns site q).guard (Event.Away site)

section
variable {site : Site} {q : Sqlite} {s : Server}

/-- A callback, whatever fails. -/
theorem read_aside (hs : Stored site q s) (draws : Draws) {c : Conn} (haway : c.Away site s)
    (faults : List Bool) :
    (read site draws).run ⟨s.aside site, c, faults⟩ =
        (((read (site.storing q) draws).run ⟨s, c, faults⟩).1,
          ((read (site.storing q) draws).run ⟨s, c, faults⟩).2.aside site) ∧
      Stored site q ((read (site.storing q) draws).run ⟨s, c, faults⟩).2.server := by
  have hkept : Intact site q [] ⟨s, c, faults⟩ := ⟨hs, fun _ h => nomatch h⟩
  obtain ⟨hrun, hstored⟩ := mirrored_read hkept draws haway
  exact ⟨hrun, hstored.stored⟩

/-! The start. -/

theorem ensureDir_setFile {disk : FileTree} {r : Location} {content : Bytes}
    (h : disk.Holds r content) (other : Bytes) (path : Text) :
    ensureDir site path (disk.setFile r (some other)) =
      (ensureDir site path disk).map (·.setFile r (some other)) := by
  rw [ensureDir, ensureDir, h.pathExists_setFile, h.mkdir_setFile]
  split <;> rfl

theorem ensureDir_holds {disk disk' : FileTree} {path : Text} {r : Location} {content : Bytes}
    (h : disk.Holds r content) (hdir : ensureDir site path disk = some disk') :
    disk'.Holds r content := by
  rw [ensureDir] at hdir
  split at hdir
  · exact Option.some.inj hdir ▸ h
  · exact h.mkdir hdir

theorem loadClients_storing (rows : List ClientRow) (disk : FileTree) :
    loadClients (site.storing q) rows disk = loadClients site rows disk := by
  induction rows generalizing disk with
  | nil => rfl
  | cons row rows ih =>
      simp only [loadClients, ih]
      rfl

theorem loadClients_holds {rows : List ClientRow} {disk disk' : FileTree} {r : Location}
    {content : Bytes} {clients : List Client} (h : disk.Holds r content)
    (hload : loadClients site rows disk = some (clients, disk')) : disk'.Holds r content := by
  induction rows generalizing disk clients with
  | nil =>
      obtain ⟨-, rfl⟩ := Prod.mk.inj (Option.some.inj hload)
      exact h
  | cons row rows ih =>
      simp only [loadClients] at hload
      split at hload
      · cases hload
      · rename_i disk₁ hdir
        obtain ⟨⟨clients₁, disk₂⟩, hrest, heq⟩ := Option.map_eq_some_iff.mp hload
        obtain ⟨-, rfl⟩ := Prod.mk.inj heq
        exact ih (ensureDir_holds h hdir) hrest

theorem loadClients_setFile (rows : List ClientRow) {disk : FileTree} {r : Location}
    {content : Bytes} (h : disk.Holds r content) (other : Bytes) :
    loadClients site rows (disk.setFile r (some other)) =
      (loadClients site rows disk).map fun p => (p.1, p.2.setFile r (some other)) := by
  induction rows generalizing disk with
  | nil => rfl
  | cons row rows ih =>
      simp only [loadClients, ensureDir_setFile h]
      cases hdir : ensureDir site (clientFolder row.clientName) disk with
      | none => rfl
      | some disk₁ =>
          simp only [Option.map_some, ih (ensureDir_holds h hdir), Option.map_map]
          rfl

theorem stored_eq {image : Bytes} (hholds : s.disk.Holds site.database image)
    (htables : q.tables image = some s.db) : (site.storing q).stored q s.disk = some s.db := by
  have hcontent : s.disk.content site.database = some image := by
    rw [FileTree.content, hholds.1, if_neg Bool.false_ne_true, hholds.2]
  change (s.disk.content site.database).bind q.tables = _
  rw [hcontent]
  exact htables

theorem openDatabase_stored {image : Bytes} (hexists : s.dbExists = true)
    (hholds : s.disk.Holds site.database image) (htables : q.tables image = some s.db) :
    openDatabase (site.storing q) s = some s := by
  have hoccupied : s.disk.occupied site.database = true := by
    simp [FileTree.occupied, hholds.2]
  have hsame : { s with dbExists := true, db := s.db } = s := by rw [← hexists]
  change (if s.disk.occupied site.database then
    ((site.storing q).stored q s.disk).map fun tables =>
      { s with dbExists := true, db := tables } else _) = _
  rw [if_pos hoccupied, stored_eq hholds htables, Option.map_some, hsame]

/-- A start with a database is one with the tables apart. -/
theorem start_aside {image : Bytes} (hexists : s.dbExists = true)
    (hholds : s.disk.Holds site.database image) (htables : q.tables image = some s.db)
    (hrows : ∀ f ∈ s.db.files, site.Clear s.disk f.path) :
    dataBaseHandle site (s.aside site) =
        (dataBaseHandle (site.storing q) s).map (·.aside site) ∧
      ∀ t, dataBaseHandle (site.storing q) s = some t → Stored site q t := by
  have hopen := openDatabase_stored hexists hholds htables
  have hopen' : openDatabase site (s.aside site) = some (s.aside site) := by
    have htables' : (s.aside site).dbExists = true := hexists
    simp only [openDatabase, site.apart, htables', if_true]
    rw [← htables']
  have hload' : loadClients site (s.aside site).db.clients (s.aside site).disk =
      (loadClients site s.db.clients s.disk).map fun p =>
        (p.1, p.2.setFile site.database (some [])) :=
    loadClients_setFile s.db.clients hholds []
  have hfolder : ∀ disk, ensureDir (site.storing q) General.folder disk =
      ensureDir site General.folder disk := fun _ => rfl
  simp only [dataBaseHandle, hopen, hopen', hload', loadClients_storing, hfolder]
  cases hclients : loadClients site s.db.clients s.disk with
  | none =>
      refine ⟨rfl, fun _ h => ?_⟩
      cases h
  | some p =>
      obtain ⟨clients, disk⟩ := p
      obtain ⟨rfl, hmono, -⟩ := loadClients_some hclients
      have hholds' := loadClients_holds hholds hclients
      simp only [Option.map_some, ensureDir_setFile hholds']
      cases hdir : ensureDir site General.folder disk with
      | none =>
          refine ⟨rfl, fun _ h => ?_⟩
          cases h
      | some disk' =>
          refine ⟨rfl, ?_⟩
          intro t ht
          obtain rfl := Option.some.inj ht
          have hclear : ∀ f ∈ s.db.files, site.Clear disk' f.path := fun f hf =>
            (hrows f hf).mono fun p hp => ensureDir_isDir hdir p (hmono p hp)
          refine ⟨⟨image, ensureDir_holds hholds' hdir, htables⟩, ?_, hclear⟩
          intro c hc f hf
          rw [foldl_loadFile, List.map_map] at hc
          obtain ⟨row, -, rfl⟩ := List.mem_map.mp hc
          exact hclear f (List.mem_filter.mp hf).1

/-- The first start makes the database. -/
theorem firstStart_aside {s₀ : Server} (h₀ : Untouched site s₀)
    (hfree : s₀.disk.occupied site.database = false)
    (h : dataBaseHandle (site.storing q) s₀ = some s) :
    Stored site q s ∧ ∃ s₁, Untouched site s₁ ∧ dataBaseHandle site s₁ = some (s.aside site) := by
  have hdir : s₀.disk.isDir site.database = false := (Bool.or_eq_false_iff.mp hfree).1
  -- the server with the new database, and one with something in its place
  let made : Server := { s₀ with
    dbExists := true
    db := .empty
    disk := s₀.disk.setFile site.database (some (q.file [] .empty)) }
  let placed : Server := { s₀ with disk := s₀.disk.setFile site.database (some []) }
  have hholds : made.disk.Holds site.database (q.file [] .empty) :=
    ⟨hdir, FileTree.setFile_file_self _ _ _⟩
  obtain ⟨haside, hstored⟩ := start_aside (s := made) rfl hholds (q.tables_file _ _)
    fun _ h => nomatch h
  have hmade : dataBaseHandle (site.storing q) s₀ = dataBaseHandle (site.storing q) made := by
    have hopen : openDatabase (site.storing q) s₀ = some made := by
      have hnone : ¬ s₀.disk.occupied (site.storing q).database = true :=
        (Bool.eq_false_iff (b := s₀.disk.occupied site.database)).mp hfree
      exact if_neg hnone
    have hopen' : openDatabase (site.storing q) made = some made :=
      openDatabase_stored rfl hholds (q.tables_file _ _)
    simp only [dataBaseHandle, hopen, hopen']
  have hplaced : dataBaseHandle site placed = dataBaseHandle site (made.aside site) := by
    have hexists : placed.dbExists = false := h₀.noTables
    have hdisk : (made.aside site).disk = placed.disk := FileTree.setFile_setFile _ _ _ _
    rw [dataBaseHandle_apart, dataBaseHandle_apart, hdisk, hexists]
    rfl
  rw [hmade] at h
  refine ⟨hstored s h, placed, ⟨h₀.noTables, h₀.rooted, h₀.noDirs, ?_⟩, ?_⟩
  · intro rest
    have hne : site.cwd ++ General.folder :: rest ≠ site.database := by
      intro he
      exact absurd (List.cons.inj (List.append_cancel_left he)).1 (by decide)
    exact (FileTree.setFile_file_of_ne _ _ hne).trans (h₀.noFiles rest)
  · rw [hplaced, haside, h]
    rfl

/-- A restart, in a state that is well-formed with the tables apart. -/
theorem restart_aside (hs : Stored site q s) (hw : WellFormed (s.aside site)) :
    dataBaseHandle site (s.aside site) =
        (dataBaseHandle (site.storing q) s).map (·.aside site) ∧
      ∀ t, dataBaseHandle (site.storing q) s = some t → Stored site q t := by
  obtain ⟨image, hholds, htables⟩ := hs.image
  have hexists : s.dbExists = true := hw.hasTables
  exact start_aside hexists hholds htables hs.rows

theorem awayStep_aside {e : Event} {t : Server}
    (hs : Stored site q s ∧ WellFormed (s.aside site))
    (h : (awayRuns site q).step s e t) :
    (Stored site q t ∧ WellFormed (t.aside site)) ∧
      (serverRuns site).step (s.aside site) e (t.aside site) := by
  obtain ⟨hs, hw⟩ := hs
  obtain ⟨⟨hadmissible, hstep⟩, haway⟩ := h
  have hboth : Stored site q t ∧ (serverRuns site).step (s.aside site) e (t.aside site) := by
    cases e with
    | callback draws c =>
        obtain ⟨hrun, hstored⟩ := read_aside hs draws haway []
        obtain rfl := Option.some.inj hstep
        refine ⟨hstored, hadmissible, ?_⟩
        rw [step, calm, hrun]
        rfl
    | restart =>
        obtain ⟨haside, hstored⟩ := restart_aside hs hw
        have hstart : dataBaseHandle (site.storing q) s = some t := hstep
        refine ⟨hstored t hstart, trivial, ?_⟩
        rw [step, haside, hstart]
        rfl
  exact ⟨⟨hboth.1, step_wellFormed hw hboth.2⟩, hboth.2⟩

/-- A run without packets for the working directory is one with the tables apart. -/
theorem awayRun_aside {es : List Event} {t : Server}
    (hs : Stored site q s ∧ WellFormed (s.aside site)) (h : (awayRuns site q).Run s es t) :
    (Stored site q t ∧ WellFormed (t.aside site)) ∧
      (serverRuns site).Run (s.aside site) es (t.aside site) := by
  obtain ⟨ht, hrun⟩ := h.through (T := serverRuns site) (f := Server.aside site)
    (g := id) (fun _ _ _ hs hstep => awayStep_aside hs hstep) hs
  rw [List.map_id] at hrun
  exact ⟨ht, hrun⟩

theorem awayInit_aside (h : (awayRuns site q).init s) :
    (Stored site q s ∧ WellFormed (s.aside site)) ∧ (serverRuns site).init (s.aside site) := by
  obtain ⟨s₀, h₀, hfree, hstart⟩ := h
  obtain ⟨hstored, s₁, h₁, hstart₁⟩ := firstStart_aside h₀ hfree hstart
  exact ⟨⟨hstored, start_wellFormed h₁ hstart₁⟩, s₁, h₁, hstart₁⟩

theorem awayReachable_aside (h : (awayRuns site q).Reachable s) :
    (Stored site q s ∧ WellFormed (s.aside site)) ∧ Reachable site (s.aside site) :=
  h.through (T := serverRuns site) (g := id)
    (fun _ _ _ hs hstep => awayStep_aside hs hstep) fun _ hinit => awayInit_aside hinit

/-- A request that is no packet. -/
theorem away_of_incoming {c : Conn} {id : Bytes} {body : Body}
    (hr : (receive c).incoming = .request id body) (hbody : ∀ p, body ≠ .packet p) :
    c.Away site s := by
  intro i p hasks
  exact absurd (Incoming.request.inj (hr.symm.trans hasks)).2 (hbody p)

theorem step_read {draws : Draws} {c : Conn} (hfresh : draws.uuid ∉ s.ids) :
    (storedRuns site q).step s (.callback draws c)
      ((read (site.storing q) draws).run (calm s c)).2.server := ⟨hfresh, rfl⟩

theorem Stored.found (hs : Stored site q s) : (site.storing q).stored q s.disk = some s.db := by
  obtain ⟨image, hholds, htables⟩ := hs.image
  exact stored_eq hholds htables

/-! Requests delivered one after another. -/

/-- The server after an event. -/
def Server.after (site : Platform) (e : Event) (s : Server) : Server := (step site s e).getD s

theorem step_after {draws : Draws} {c : Conn} (hfresh : draws.uuid ∉ s.ids) :
    (storedRuns site q).step s (.callback draws c)
      (s.after (site.storing q) (.callback draws c)) := ⟨hfresh, rfl⟩

theorem stored_served {draws : Draws} {c : Conn} (h : (storedRuns site q).Reachable s)
    (hfresh : draws.uuid ∉ s.ids) :
    (storedRuns site q).Reachable (s.after (site.storing q) (.callback draws c)) :=
  h.step (step_after hfresh)

theorem away_served {draws : Draws} {clientId : Bytes} {body : Body}
    (h : (awayRuns site q).Reachable s) (hfresh : draws.uuid ∉ s.ids)
    (hid : clientId.length = General.clientIdSize) (hfits : body.Fits)
    (haway : ∀ p, body = .packet p → p.Away site s clientId) :
    (awayRuns site q).Reachable
      (s.after (site.storing q) (.delivered draws clientId body)) := by
  refine h.step ⟨step_after hfresh, ?_⟩
  intro id p hasks
  obtain ⟨rfl, hbody⟩ := asks_delivered hid hfits draws hasks
  exact haway p hbody.symm

/-- A packet whose path is found to lead to a file elsewhere. -/
theorem away_of_locate {p : Packet} {clientId : Bytes} {r : Location}
    (h : ∀ c ∈ s.clientsList, c.clientId = clientId →
      s.disk.locate site.cwd (filePath c.clientName p.fileName) = some r)
    (hne : r.dropLast ≠ site.cwd) : p.Away site s clientId := by
  intro c hc hid q hq
  obtain rfl := Option.some.inj ((h c hc hid).symm.trans hq)
  exact hne

end

/-! Tables written one after the other. -/

def rowCode : Code ClientRow :=
  (Code.bytes.pair (Code.text.pair (Code.bytes.pair (Code.nat.pair Code.bytes)))).via
    (fun p => ⟨p.1, p.2.1, p.2.2.1, p.2.2.2.1, p.2.2.2.2⟩)
    (fun r => (r.clientId, r.clientName, r.publicKey, r.lastSeenDate, r.aesKey)) fun _ => rfl

def fileCode : Code File :=
  (Code.bytes.pair (Code.text.pair (Code.text.pair Code.flag))).via
    (fun p => ⟨p.1, p.2.1, p.2.2.1, p.2.2.2⟩)
    (fun f => (f.clientId, f.fileName, f.path, f.validCrc)) fun _ => rfl

def tablesCode : Code Tables :=
  (rowCode.list.pair fileCode.list).via (fun p => ⟨p.1, p.2⟩) (fun t => (t.clients, t.files))
    fun _ => rfl

def codedSqlite : Sqlite where
  tables := tablesCode.readAll
  file _ := tablesCode.write
  tables_file _ := tablesCode.readAll_write

/-- The server after its first start, which made the database. -/
def storedServer : Server :=
  { startedServer with
    disk := startedServer.disk.setFile bareSite.database (some (codedSqlite.file [] .empty)) }

theorem init_storedServer (cipher : BlockMode.BlockCipher) :
    (awayRuns (machine cipher) codedSqlite).init storedServer :=
  ⟨bareServer, untouched_bareServer cipher, rfl, rfl⟩

theorem away_storedServer : (awayRuns bareSite codedSqlite).Reachable storedServer :=
  ⟨storedServer, [], init_storedServer _, .nil _⟩

/-- One client is registered, in memory and in the database. -/
def storedClient : Server :=
  storedServer.after (bareSite.storing codedSqlite)
    (.delivered (sameDraws 1) (List.replicate 16 0) (.registration ['a']))

theorem away_storedClient : (awayRuns bareSite codedSqlite).Reachable storedClient :=
  away_served away_storedServer (by decide) (by decide) ⟨by decide, by decide⟩
    fun _ h => nomatch h

/-- With a second client `b`. -/
def storedClients : Server :=
  storedClient.after (bareSite.storing codedSqlite)
    (.delivered (sameDraws 2) (List.replicate 16 0) (.registration ['b']))

def secondClientId : Bytes := List.replicate 16 2

/-- Packet 1 of 2 of a file whose path leads to the database, with the image of one whose
tables are empty. -/
def overwritingPacket : Packet :=
  { openingPacket ['.', '.', '/', '.', '.', '/', 'd', 'e', 'f', 'e', 'n', 's', 'i', 'v', 'e',
      '.', 'd', 'b'] with content := codedSqlite.file [] .empty }

def overwriting (clientId : Bytes) : Event :=
  .delivered (sameDraws 3) clientId (.packet overwritingPacket)

theorem fits_overwriting : (Body.packet overwritingPacket).Fits :=
  Packet.fits_of_lt (by decide : 4112 < 256 ^ 4) (by decide : 4100 < 256 ^ 4)
    (by decide : 1 < 256 ^ 2) (by decide : 2 < 256 ^ 2) ⟨by decide, by decide⟩ (by decide)

theorem asks_overwriting {clientId id : Bytes} (hid : clientId.length = General.clientIdSize)
    {body : Body} (h : (overwriting clientId).Asks id body) : id = clientId :=
  (asks_delivered hid fits_overwriting (sameDraws 3) h).1

/-- The server after it. -/
abbrev Server.overwritten (s : Server) (site : Site) (clientId : Bytes) : Server :=
  s.after (site.storing codedSqlite) (overwriting clientId)

end SecureTransfer
