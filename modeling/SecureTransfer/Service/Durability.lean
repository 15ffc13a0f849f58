import SecureTransfer.Service.Damage
import SecureTransfer.Service.Reconnection

/-!
Runs in which any call may fail: callbacks on connections in any condition, with faults, and
restarts. A process that dies at a call is one whose call fails and that is restarted. The
books stay consistent, a start is never refused, and a registration that was answered is not
lost.
-/

open Octets (Text)
open Effects Act
open Relation (ReflTransGen)
open Runs (System)

namespace SecureTransfer

open Ledger (Step Steps)

inductive Turn where
  | callback (draws : Draws) (conn : Conn) (faults : List Bool)
  | restart

/-- No client has the uuid that is drawn, and no row of table files, which may be that of a
client who was never entered into table clients. -/
structure Draws.Fresh (draws : Draws) (s : Server) : Prop where
  client : draws.uuid ∉ s.ids
  file : draws.uuid ∉ s.db.files.map (·.clientId)

/-- After a callback. -/
def Server.afterRead (site : Platform) (draws : Draws) (conn : Conn) (faults : List Bool)
    (s : Server) : World := ((read site draws).run ⟨s, conn, faults⟩).2

/-- A turn of the server leads from one state to another. -/
def Turn.Leads (site : Platform) : Turn → Server → Server → Prop
  | .callback draws conn faults, s, t =>
      draws.Fresh s ∧ t = (s.afterRead site draws conn faults).server
  | .restart, s, t => dataBaseHandle site s = some t

def roughRuns (site : Site) : System Server Turn where
  init s := ∃ s₀, Untouched site s₀ ∧ dataBaseHandle site s₀ = some s
  step s e t := e.Leads site s t

/-- What a start needs, with books in order. -/
structure Sound (site : Site) (s : Server) : Prop where
  books : s.ledger.Consistent
  hasTables : s.dbExists = true
  housed : Housed site s

section
variable {site : Site} {s t : Server}

/-! A start reads the tables. -/

theorem holder_rebuilt (db : Tables) (row : ClientRow) :
    Client.holder { toClientRow := row, filesList := db.files.filter (·.clientId = row.clientId) } =
      ⟨row.clientId, row.clientName,
        (db.files.map File.entry).filter (·.clientId = row.clientId)⟩ := by
  rw [Client.holder, List.filter_map]
  rfl

theorem Restarted.ledger (h : Restarted site s t) (htables : s.dbExists = true) :
    t.ledger = s.ledger.reload := by
  have hdb : t.db = s.db := by rw [h.db, if_pos htables]
  have hholders : t.clientsList.map Client.holder = s.db.clients.map fun row =>
      ⟨row.clientId, row.clientName,
        (s.db.files.map File.entry).filter (·.clientId = row.clientId)⟩ := by
    rw [h.clientsList, rebuilt, hdb, List.map_map]
    exact List.map_congr_left fun row _ => holder_rebuilt s.db row
  have hreloaded : s.ledger.reload.holders = s.db.clients.map fun row =>
      ⟨row.clientId, row.clientName,
        (s.db.files.map File.entry).filter (·.clientId = row.clientId)⟩ := by
    rw [Ledger.reload, Server.ledger, List.map_map]
    rfl
  rw [Server.ledger, hholders, hdb, ← hreloaded]
  rfl

theorem Sound.restarted (hs : Sound site s) (h : Restarted site s t) : Sound site t := by
  have hledger := h.ledger hs.hasTables
  refine ⟨hledger ▸ hs.books.reload, h.dbExists, hs.housed.mono h.isDir ?_⟩
  intro name hname
  rw [← Server.names_ledger, hledger] at hname
  obtain ⟨holder, hholder, rfl⟩ := List.mem_map.mp hname
  obtain ⟨row, hrow, rfl⟩ := List.mem_map.mp hholder
  obtain ⟨h₀, hh₀, rfl⟩ := hs.books.rows row hrow
  have hmem : h₀.clientName ∈ s.ledger.names := List.mem_map_of_mem hh₀
  exact .inl (Server.names_ledger ▸ hmem)

theorem Sound.rowOf (hs : Sound site s) {row : ClientRow} (hrow : row ∈ s.db.clients) :
    ∃ c ∈ s.clientsList, c.clientId = row.clientId ∧ c.clientName = row.clientName := by
  obtain ⟨holder, hholder, hknown⟩ := hs.books.rows row.known (List.mem_map_of_mem hrow)
  obtain ⟨c, hc, rfl⟩ := List.mem_map.mp hholder
  exact ⟨c, hc, congrArg Prod.fst hknown, congrArg Prod.snd hknown⟩

theorem Sound.restart_some (hs : Sound site s) : ∃ t, dataBaseHandle site s = some t := by
  refine start_of_creatable hs.hasTables (hs.housed.rooted _ (List.prefix_refl _)) ?_
  intro row hrow
  obtain ⟨c, hc, -, hname⟩ := hs.rowOf hrow
  exact hname ▸ hs.housed.clients _ (List.mem_map_of_mem hc)

theorem Sound.owns (hs : Sound site s) {c : Client} (hc : c ∈ s.clientsList) : c.Owns := by
  intro f hf
  have hentry := hs.books.owned _ (List.mem_map_of_mem hc) _ (List.mem_map_of_mem hf)
  exact ⟨congrArg Entry.clientId hentry, congrArg Entry.path hentry⟩

theorem Sound.fileNames (hs : Sound site s) {c : Client} (hc : c ∈ s.clientsList) :
    (c.filesList.map (·.fileName)).Nodup := by
  have hnodup := hs.books.fileNames _ (List.mem_map_of_mem hc)
  rw [Client.holder, List.map_map] at hnodup
  exact hnodup

theorem start_sound {s₀ : Server} (h₀ : Untouched site s₀) (h : dataBaseHandle site s₀ = some s) :
    Sound site s := by
  obtain ⟨hclients, hdb, hexists, -⟩ := start_some h₀ h
  refine ⟨?_, hexists, start_housed h₀ h⟩
  have hledger : s.ledger = ⟨[], [], []⟩ := by rw [Server.ledger, hclients, hdb]; rfl
  rw [hledger]
  constructor <;> simp [Ledger.ids, Ledger.names]

/-! Callbacks and whole runs. -/

/-- A callback as a task that may register what its connection asks for. -/
def taskOf (site : Site) (draws : Draws) (conn : Conn) : Task where
  site := site
  draws := draws
  asked name := ∃ id, (receive conn).incoming = .request id (.registration name)
  before := conn.answers

theorem afterRead_past (hs : Sound site s) {draws : Draws} (hfresh : draws.Fresh s) (conn : Conn)
    (faults : List Bool) :
    (taskOf site draws conn).Past s.ledger (s.afterRead site draws conn faults) := by
  have hid : draws.uuid ∉ s.ledger.ids := by
    rw [Server.ids_ledger]
    exact hfresh.client
  have hfiles : draws.uuid ∉ s.ledger.entries.map (·.clientId) := by
    rw [Server.ledger, List.map_map]
    exact hfresh.file
  have hstart : (taskOf site draws conn).At s.ledger ⟨s, conn, faults⟩ :=
    ⟨rfl, hs.hasTables, hs.housed, [], (List.append_nil _).symm, fun _ hx => by cases hx⟩
  exact (Task.read_moves (k := taskOf site draws conn) hid hfiles conn
    fun id name hincoming => ⟨id, hincoming⟩).final ⟨hstart, rfl⟩

theorem afterRead_sound (hs : Sound site s) {draws : Draws} (hfresh : draws.Fresh s) (conn : Conn)
    (faults : List Bool) : Sound site (s.afterRead site draws conn faults).server := by
  obtain ⟨b, hsteps, hat⟩ := afterRead_past hs hfresh conn faults
  exact ⟨hat.ledger ▸ hsteps.consistent hs.books, hat.hasTables, hat.housed⟩

theorem roughStep_sound {e : Turn} (hs : Sound site s) (h : (roughRuns site).step s e t) :
    Sound site t := by
  cases e with
  | callback draws conn faults =>
      obtain ⟨hfresh, rfl⟩ := h
      exact afterRead_sound hs hfresh conn faults
  | restart => exact hs.restarted (dataBaseHandle_some h)

theorem rough_sound (hs : (roughRuns site).Reachable s) : Sound site s := by
  refine hs.invariant ?_ fun s e t hs hstep => roughStep_sound hs hstep
  intro s hinit
  obtain ⟨s₀, h₀, hstart⟩ := hinit
  exact start_sound h₀ hstart

/-- A row of table clients stays, whatever fails. -/
theorem roughStep_row {e : Turn} (hs : Sound site s) (h : (roughRuns site).step s e t)
    {row : Bytes × Text} (hrow : row ∈ s.ledger.rows) : row ∈ t.ledger.rows := by
  cases e with
  | callback draws conn faults =>
      obtain ⟨hfresh, rfl⟩ := h
      obtain ⟨b, hsteps, hat⟩ := afterRead_past hs hfresh conn faults
      exact hat.ledger ▸ hsteps.row_mem hrow
  | restart =>
      rw [(dataBaseHandle_some h).ledger hs.hasTables]
      exact hrow

theorem roughRun_row {es : List Turn} (hs : Sound site s) (h : (roughRuns site).Run s es t)
    {row : Bytes × Text} (hrow : row ∈ s.ledger.rows) : Sound site t ∧ row ∈ t.ledger.rows :=
  h.invariant (I := fun u => Sound site u ∧ row ∈ u.ledger.rows)
    (fun _ _ _ hu hstep => ⟨roughStep_sound hu.1 hstep, roughStep_row hu.1 hstep hu.2⟩)
    ⟨hs, hrow⟩

theorem registration_durable_apart (hs : (roughRuns site).Reachable s) {draws : Draws}
    (hfresh : draws.Fresh s) {conn : Conn} {faults : List Bool} {answers : List Answer}
    (hanswers : (s.afterRead site draws conn faults).conn.answers = conn.answers ++ answers)
    (hdone : General.registrationDone1600 ∈ answers.map (·.code)) :
    ∃ id name, (receive conn).incoming = .request id (.registration name) ∧
      ∀ es u, (roughRuns site).Run (s.afterRead site draws conn faults).server es u →
        (∃ row ∈ u.db.clients, row.clientId = draws.uuid ∧ row.clientName = name) ∧
          ∃ c, u.named? name = some c ∧ c.clientId = draws.uuid := by
  have hsound := rough_sound hs
  obtain ⟨b, hsteps, hat⟩ := afterRead_past hsound hfresh conn faults
  obtain ⟨l, hl, htruthful⟩ := hat.answers
  obtain rfl : answers = l := List.append_cancel_left (hanswers.symm.trans hl)
  obtain ⟨x, hx, hcode⟩ := List.mem_map.mp hdone
  obtain ⟨name, ⟨id, hincoming⟩, hrow⟩ := htruthful x hx hcode
  refine ⟨id, name, hincoming, fun es u hrun => ?_⟩
  have hrow₁ : (draws.uuid, name) ∈ (s.afterRead site draws conn faults).server.ledger.rows :=
    hat.ledger ▸ hrow
  obtain ⟨hu, hrowu⟩ := roughRun_row (afterRead_sound hsound hfresh conn faults) hrun hrow₁
  obtain ⟨row, hmem, hknown⟩ := List.mem_map.mp hrowu
  have hid : row.clientId = draws.uuid := congrArg Prod.fst hknown
  have hname : row.clientName = name := congrArg Prod.snd hknown
  refine ⟨⟨row, hmem, hid, hname⟩, ?_⟩
  obtain ⟨c, hc, hcid, hcname⟩ := hu.rowOf hmem
  have hnames : u.names.Nodup := Server.names_ledger ▸ hu.books.names
  have hfound := Keyed.find?_of_mem (fun c : Client => c.clientName) hnames hc
  exact ⟨c, (hcname.trans hname) ▸ hfound, hcid.trans hid⟩

end

/-! The tables in a file of the working directory. -/

def storedRoughRuns (site : Site) (q : Sqlite) : System Server Turn where
  init := (storedRuns site q).init
  step s e t := e.Leads (site.storing q) s t

/-- A packet that is received has no path to the working directory. -/
def Turn.Away (site : Site) (s : Server) : Turn → Prop
  | .callback _ conn _ => conn.Away site s
  | .restart => True

def awayRoughRuns (site : Site) (q : Sqlite) : System Server Turn :=
  (storedRoughRuns site q).guard (Turn.Away site)

section
variable {site : Site} {q : Sqlite} {s t : Server}

theorem afterRead_aside (hs : Stored site q s) (draws : Draws) {conn : Conn}
    (haway : conn.Away site s) (faults : List Bool) :
    (s.aside site).afterRead site draws conn faults =
        (s.afterRead (site.storing q) draws conn faults).aside site ∧
      Stored site q (s.afterRead (site.storing q) draws conn faults).server := by
  obtain ⟨hrun, hstored⟩ := read_aside hs draws haway faults
  exact ⟨congrArg Prod.snd hrun, hstored⟩

/-- A restart in a state that is sound with the tables apart. -/
theorem Sound.restart_aside (hw : Sound site (s.aside site)) (hs : Stored site q s) :
    dataBaseHandle site (s.aside site) =
        (dataBaseHandle (site.storing q) s).map (·.aside site) ∧
      ∀ t, dataBaseHandle (site.storing q) s = some t → Stored site q t := by
  obtain ⟨image, hholds, htables⟩ := hs.image
  exact start_aside hw.hasTables hholds htables hs.rows

theorem awayTurn_aside {e : Turn} (hs : Stored site q s ∧ Sound site (s.aside site))
    (h : (awayRoughRuns site q).step s e t) :
    (Stored site q t ∧ Sound site (t.aside site)) ∧
      (roughRuns site).step (s.aside site) e (t.aside site) := by
  obtain ⟨hstored, hsound⟩ := hs
  obtain ⟨hstep, haway⟩ := h
  have hboth : Stored site q t ∧ (roughRuns site).step (s.aside site) e (t.aside site) := by
    cases e with
    | callback draws conn faults =>
        obtain ⟨hfresh, rfl⟩ := hstep
        obtain ⟨haside, hkept⟩ := afterRead_aside hstored draws haway faults
        exact ⟨hkept, ⟨hfresh.client, hfresh.file⟩, congrArg World.server haside.symm⟩
    | restart =>
        obtain ⟨haside, hkept⟩ := hsound.restart_aside hstored
        have hstart : dataBaseHandle (site.storing q) s = some t := hstep
        refine ⟨hkept t hstart, ?_⟩
        exact haside.trans (congrArg (Option.map (·.aside site)) hstart)
  exact ⟨⟨hboth.1, roughStep_sound hsound hboth.2⟩, hboth.2⟩

theorem awayTurns_aside {es : List Turn} (hs : Stored site q s ∧ Sound site (s.aside site))
    (h : (awayRoughRuns site q).Run s es t) :
    Stored site q t ∧ (roughRuns site).Run (s.aside site) es (t.aside site) := by
  obtain ⟨ht, hrun⟩ := h.through (T := roughRuns site) (f := Server.aside site) (g := id)
    (I := fun u => Stored site q u ∧ Sound site (u.aside site))
    (fun _ _ _ hs hstep => awayTurn_aside hs hstep) hs
  rw [List.map_id] at hrun
  exact ⟨ht.1, hrun⟩

theorem roughReachable_aside (h : (awayRoughRuns site q).Reachable s) :
    (Stored site q s ∧ Sound site (s.aside site)) ∧ (roughRuns site).Reachable (s.aside site) := by
  refine h.through (T := roughRuns site) (f := Server.aside site) (g := id)
    (I := fun u => Stored site q u ∧ Sound site (u.aside site)) ?_ ?_
  · intro s e t hs hstep
    exact awayTurn_aside hs hstep
  · intro s hinit
    obtain ⟨⟨hstored, -⟩, hstart⟩ := awayInit_aside hinit
    obtain ⟨s₀, h₀, hhandle⟩ := hstart
    exact ⟨⟨hstored, start_sound h₀ hhandle⟩, s₀, h₀, hhandle⟩

end

theorem awayRough_stored : (awayRoughRuns bareSite codedSqlite).Reachable storedServer :=
  ⟨storedServer, [], init_storedServer _, .nil _⟩

theorem fresh_stored : (sameDraws 1).Fresh storedServer := ⟨by decide, by decide⟩

theorem away_registrationConn : registrationConn.Away bareSite storedServer :=
  away_of_incoming receive_registrationConn fun _ h => nomatch h

/-- A registration that was answered 1600 in a run without packets for the working directory is
in the tables and in memory ever after, whatever calls fail and however often the server is
restarted. -/
theorem registration_durable (site : Site) (q : Sqlite) (s : Server)
    (hs : (awayRoughRuns site q).Reachable s) (draws : Draws) (hfresh : draws.Fresh s)
    (conn : Conn) (haway : conn.Away site s) (faults : List Bool) (answers : List Answer)
    (hanswers : (s.afterRead (site.storing q) draws conn faults).conn.answers =
      conn.answers ++ answers)
    (hdone : General.registrationDone1600 ∈ answers.map (·.code)) :
    ∃ id name, (receive conn).incoming = .request id (.registration name) ∧
      ∀ es u, (awayRoughRuns site q).Run
          (s.afterRead (site.storing q) draws conn faults).server es u →
        (∃ row ∈ u.db.clients, row.clientId = draws.uuid ∧ row.clientName = name) ∧
          (site.storing q).stored q u.disk = some u.db ∧
          ∃ c, u.named? name = some c ∧ c.clientId = draws.uuid := by
  obtain ⟨hinv, hreach⟩ := roughReachable_aside hs
  obtain ⟨haside, -⟩ := afterRead_aside hinv.1 draws haway faults
  have hfresh' : draws.Fresh (s.aside site) := ⟨hfresh.client, hfresh.file⟩
  obtain ⟨id, name, hincoming, hlater⟩ := registration_durable_apart hreach hfresh'
    ((congrArg (·.conn.answers) haside).trans hanswers) hdone
  refine ⟨id, name, hincoming, fun es u hrun => ?_⟩
  have hstep : (awayRoughRuns site q).step s (.callback draws conn faults) _ :=
    ⟨⟨hfresh, rfl⟩, haway⟩
  obtain ⟨hstored, hrun'⟩ := awayTurns_aside (awayTurn_aside hinv hstep).1 hrun
  rw [haside] at hlater
  obtain ⟨hrow, hnamed⟩ := hlater es (u.aside site) hrun'
  exact ⟨hrow, hstored.found, hnamed⟩

theorem registration_durable_accepted :
    ∃ id name, (receive registrationConn).incoming = .request id (.registration name) ∧
      ∀ es u, (awayRoughRuns bareSite codedSqlite).Run
          (storedServer.afterRead (bareSite.storing codedSqlite) (sameDraws 1) registrationConn
            [false]).server es u →
        (∃ row ∈ u.db.clients, row.clientId = (sameDraws 1).uuid ∧ row.clientName = name) ∧
          (bareSite.storing codedSqlite).stored codedSqlite u.disk = some u.db ∧
          ∃ c, u.named? name = some c ∧ c.clientId = (sameDraws 1).uuid :=
  registration_durable bareSite codedSqlite storedServer awayRough_stored (sameDraws 1)
    fresh_stored registrationConn away_registrationConn [false]
    [⟨General.registrationDone1600, General.clientIdSize⟩] (by decide +kernel) (by decide)

end SecureTransfer
