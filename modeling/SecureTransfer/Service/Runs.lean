import SecureTransfer.Library.Runs
import SecureTransfer.Service.Updates

/-!
Runs of the server: it starts in a directory without its tables and its folder,
and then callbacks and restarts follow in any order. Every state of a run is
well-formed and has its folders, so a restart succeeds; it rebuilds the registry
and the file records from the tables.
-/

open Octets (Text)
open Effects Act
open Runs (System)

namespace SecureTransfer

/-- The first start: no database, nothing under the name of the folder, and the
working directory is there. -/
structure Untouched (site : Site) (s : Server) : Prop where
  noTables : s.dbExists = false
  rooted : ∀ q, q <+: site.cwd → s.disk.isDir q
  noDirs : ∀ rest, s.disk.isDir (site.cwd ++ General.folder :: rest) = false
  noFiles : ∀ rest, s.disk.file (site.cwd ++ General.folder :: rest) = none

/-- The uuid drawn for a callback is new. -/
def Admissible (s : Server) : Event → Prop
  | .callback draws _ => draws.uuid ∉ s.ids
  | .restart => True

def serverRuns (site : Site) : System Server Event where
  init s := ∃ s₀, Untouched site s₀ ∧ dataBaseHandle site s₀ = some s
  step s e t := Admissible s e ∧ step site s e = some t

abbrev Reachable (site : Site) : Server → Prop := (serverRuns site).Reachable

theorem step_callback (site : Site) (draws : Draws) {s : Server} (c : Conn)
    (hs : WellFormed s) (hfresh : draws.uuid ∉ s.ids) :
    step site s (.callback draws c) = some ((receive c).next site draws s) := by
  rw [step, read_calm site draws c hs hfresh]
  rfl

theorem next_wellFormed (site : Site) (draws : Draws) {s : Server} (r : Reception)
    (hs : WellFormed s) (hfresh : draws.uuid ∉ s.ids) : WellFormed (r.next site draws s) := by
  unfold Reception.next
  split
  · exact serve_wellFormed site draws hs hfresh _ _
  · exact hs

/-- A fact about well-formed servers that updates preserve, requests preserve. -/
theorem next_invariant {I : Server → Prop} (site : Site) (draws : Draws) {s : Server}
    (r : Reception) (hs : WellFormed s) (hfresh : draws.uuid ∉ s.ids)
    (hupdate : ∀ clientId body, r.incoming = .request clientId body → ∀ s t, WellFormed s →
      I s → Update site draws clientId body s t → I t)
    (h : I s) : I (r.next site draws s) := by
  unfold Reception.next
  split
  · rename_i clientId body hr
    have hboth := (serve_updates site draws hs hfresh clientId body).invariant
      (I := fun s => WellFormed s ∧ I s)
      (fun s t hst hupd => ⟨hupd.wellFormed hst.1, hupdate _ _ hr s t hst.1 hst.2 hupd⟩) ⟨hs, h⟩
    exact hboth.2
  · exact h

/-! Every client has its folder, or a path at which it can be made again. -/

theorem clientFolder_rdropWhile (name : Text) :
    (clientFolder name).rdropWhile (· == '/') ≠ [] := by
  rw [Ne, List.rdropWhile_eq_nil_iff]
  intro h
  have hfirst : 'c' ∈ clientFolder name := List.mem_append_left _ (by decide)
  simpa using h 'c' hfirst

structure Housed (site : Site) (s : Server) : Prop where
  rooted : ∀ q, q <+: site.cwd → s.disk.isDir q
  folder : s.disk.isDir (site.cwd ++ [General.folder])
  clients : ∀ name ∈ s.names, s.disk.Creatable site.cwd (clientFolder name)

theorem enter_folder (here : Location) :
    FileTree.enter here General.folder = here ++ [General.folder] :=
  FileTree.enter_proper (by decide) here

theorem locate_folder {site : Site} {disk : FileTree} (h : disk.isDir site.cwd) :
    disk.locate site.cwd General.folder = some (site.cwd ++ [General.folder]) := by
  have hsplit : General.folder.splitOn '/' = [General.folder] := by decide
  rw [FileTree.locate, if_neg (by decide), hsplit]
  simp only [FileTree.walk, h, if_true, enter_folder]

theorem ensureDir_isDir {site : Site} {path : Text} {disk disk' : FileTree}
    (h : ensureDir site path disk = some disk') (q : Location) (hq : disk.isDir q) :
    disk'.isDir q := by
  unfold ensureDir at h
  split at h
  · obtain rfl := Option.some.inj h
    exact hq
  · exact FileTree.mkdir_isDir h q hq

theorem ensureDir_file {site : Site} {path : Text} {disk disk' : FileTree}
    (h : ensureDir site path disk = some disk') : disk'.file = disk.file := by
  unfold ensureDir at h
  split at h
  · obtain rfl := Option.some.inj h
    rfl
  · exact FileTree.mkdir_file h

theorem ensureDir_creatable {site : Site} {path : Text} {disk disk' : FileTree}
    (hne : path.rdropWhile (· == '/') ≠ []) (h : ensureDir site path disk = some disk') :
    disk'.Creatable site.cwd path := by
  unfold ensureDir at h
  split at h
  · rename_i hexists
    obtain rfl := Option.some.inj h
    exact FileTree.creatable_of_pathExists hne hexists
  · exact FileTree.creatable_of_mkdir h

theorem ensureDir_of_creatable {site : Site} {path : Text} {disk : FileTree}
    (hne : path.rdropWhile (· == '/') ≠ []) (h : disk.Creatable site.cwd path) :
    ∃ disk', ensureDir site path disk = some disk' := by
  unfold ensureDir
  split
  · exact ⟨disk, rfl⟩
  · rename_i hexists
    exact FileTree.mkdir_of_creatable hne h (by simpa using hexists)

theorem Housed.mono {site : Site} {s t : Server} (hs : Housed site s)
    (hdir : ∀ q, s.disk.isDir q → t.disk.isDir q)
    (hnames : ∀ name ∈ t.names, name ∈ s.names ∨ t.disk.Creatable site.cwd (clientFolder name)) :
    Housed site t where
  rooted := fun q hq => hdir q (hs.rooted q hq)
  folder := hdir _ hs.folder
  clients := by
    intro name hname
    rcases hnames name hname with h | h
    · exact FileTree.creatable_mono hdir (hs.clients name h)
    · exact h

theorem Update.names {site : Site} {draws : Draws} {clientId : Bytes} {body : Body}
    {s t : Server} (h : Update site draws clientId body s t) : t.names = s.names ∨
      ∃ name, body = .registration name ∧ t.names = s.names ++ [name] := by
  cases h with
  | seen => exact .inl (Server.names_seen draws)
  | publicKey => exact .inl (Server.names_withPublicKey _)
  | aesKey => exact .inl (Server.names_withAesKey _)
  | write _ _ _ _ => exact .inl rfl
  | flag _ _ _ _ => exact .inl (Server.names_flagFile _ _)
  | record _ _ _ _ _ => exact .inl (Server.names_addFile _)
  | discard _ _ _ _ _ _ => exact .inl (Server.names_dropFile _)
  | register hbody _ _ _ =>
      exact .inr ⟨_, hbody, by simp [Server.names, Server.addClient, newClient]⟩

theorem Update.isDir {site : Site} {draws : Draws} {clientId : Bytes} {body : Body}
    {s t : Server} (h : Update site draws clientId body s t) (q : Location)
    (hq : s.disk.isDir q) : t.disk.isDir q := by
  cases h with
  | seen | publicKey | aesKey | flag _ _ _ _ | record _ _ _ _ _ => exact hq
  | write _ _ _ hstore => exact (congrFun (FileTree.store_isDir hstore) q).trans hq
  | discard _ _ _ _ _ hremove => exact (congrFun (FileTree.remove_isDir hremove) q).trans hq
  | register _ _ _ hdir => exact ensureDir_isDir hdir q hq

theorem Update.housed {site : Site} {draws : Draws} {clientId : Bytes} {body : Body}
    {s t : Server} (hs : Housed site s) (h : Update site draws clientId body s t) :
    Housed site t := by
  apply hs.mono h.isDir
  intro name hname
  cases h with
  | register _ _ _ hdir =>
      simp only [Server.names, Server.addClient, newClient, List.map_append, List.map_cons,
        List.map_nil, List.mem_append, List.mem_singleton] at hname
      rcases hname with hname | rfl
      · exact .inl hname
      · exact .inr (ensureDir_creatable (clientFolder_rdropWhile _) hdir)
  | seen => exact .inl (Server.names_seen draws ▸ hname)
  | publicKey => exact .inl (Server.names_withPublicKey _ ▸ hname)
  | aesKey => exact .inl (Server.names_withAesKey _ ▸ hname)
  | write _ _ _ _ => exact .inl hname
  | flag _ _ _ _ => exact .inl (Server.names_flagFile _ _ ▸ hname)
  | record _ _ _ _ _ => exact .inl (Server.names_addFile _ ▸ hname)
  | discard _ _ _ _ _ _ => exact .inl (Server.names_dropFile _ ▸ hname)

/-! The restart. -/

/-- On a site the database is no file of the disk. -/
theorem dataBaseHandle_apart (site : Site) (s : Server) : dataBaseHandle site s =
    let db : Tables := if s.dbExists then s.db else ⟨[], []⟩
    match loadClients site db.clients s.disk with
    | none => none
    | some (clients, disk) =>
        match ensureDir site General.folder disk with
        | none => none
        | some disk => some
            { clientsList := db.files.foldl loadFile clients, dbExists := true, db := db,
              disk := disk } := by
  simp only [dataBaseHandle, openDatabase, site.apart]
  rfl

/-- The clients with their file records as the tables hold them. -/
def rebuilt (db : Tables) : List Client :=
  db.clients.map fun row =>
    { toClientRow := row, filesList := db.files.filter (·.clientId = row.clientId) }

theorem foldl_loadFile (files : List File) (clients : List Client) :
    files.foldl loadFile clients = clients.map fun c =>
      { c with filesList := c.filesList ++ files.filter (·.clientId = c.clientId) } := by
  induction files generalizing clients with
  | nil => simp
  | cons file files ih =>
      rw [List.foldl_cons, ih, loadFile, List.map_map]
      apply List.map_congr_left
      intro c _
      simp only [Function.comp_apply]
      by_cases hid : c.clientId = file.clientId
      · rw [if_pos hid, List.filter_cons_of_pos (by simpa using hid.symm)]
        simp
      · rw [if_neg hid, List.filter_cons_of_neg (by simpa using fun he => hid he.symm)]

theorem loadClients_some {site : Site} {rows : List ClientRow} {disk disk' : FileTree}
    {clients : List Client} (h : loadClients site rows disk = some (clients, disk')) :
    clients = rows.map (fun row => { toClientRow := row, filesList := [] }) ∧
      (∀ q, disk.isDir q → disk'.isDir q) ∧ disk'.file = disk.file := by
  induction rows generalizing disk clients with
  | nil =>
      simp only [loadClients, Option.some.injEq, Prod.mk.injEq] at h
      obtain ⟨rfl, rfl⟩ := h
      exact ⟨rfl, fun _ hq => hq, rfl⟩
  | cons row rows ih =>
      simp only [loadClients] at h
      split at h
      · cases h
      · rename_i disk₁ hdir
        obtain ⟨⟨clients₁, disk₂⟩, hload, heq⟩ := Option.map_eq_some_iff.mp h
        simp only [Prod.mk.injEq] at heq
        obtain ⟨rfl, rfl⟩ := heq
        obtain ⟨rfl, hmono, hfile⟩ := ih hload
        refine ⟨rfl, fun q hq => hmono q (ensureDir_isDir hdir q hq), ?_⟩
        rw [hfile, ensureDir_file hdir]

theorem loadClients_of_pathExists {site : Site} (rows : List ClientRow) {disk : FileTree}
    (h : ∀ row ∈ rows, disk.pathExists site.cwd (clientFolder row.clientName)) :
    loadClients site rows disk =
      some (rows.map fun row => { toClientRow := row, filesList := [] }, disk) := by
  induction rows with
  | nil => rfl
  | cons row rows ih =>
      have hdir : ensureDir site (clientFolder row.clientName) disk = some disk :=
        if_pos (h row List.mem_cons_self)
      simp only [loadClients, hdir, ih fun r hr => h r (List.mem_cons_of_mem _ hr),
        Option.map_some, List.map_cons]

theorem loadClients_of_creatable {site : Site} (rows : List ClientRow) {disk : FileTree}
    (h : ∀ row ∈ rows, disk.Creatable site.cwd (clientFolder row.clientName)) :
    ∃ clients disk', loadClients site rows disk = some (clients, disk') := by
  induction rows generalizing disk with
  | nil => exact ⟨[], disk, rfl⟩
  | cons row rows ih =>
      obtain ⟨disk₁, hdir⟩ := ensureDir_of_creatable (clientFolder_rdropWhile row.clientName)
        (h row List.mem_cons_self)
      have hrest : ∀ r ∈ rows, disk₁.Creatable site.cwd (clientFolder r.clientName) :=
        fun r hr => FileTree.creatable_mono (ensureDir_isDir hdir) (h r (List.mem_cons_of_mem _ hr))
      obtain ⟨clients, disk₂, hload⟩ := ih hrest
      refine ⟨{ toClientRow := row, filesList := [] } :: clients, disk₂, ?_⟩
      simp only [loadClients, hdir, hload, Option.map_some]

/-- What a start leaves behind. -/
structure Restarted (site : Site) (s t : Server) : Prop where
  clientsList : t.clientsList = rebuilt t.db
  dbExists : t.dbExists = true
  db : t.db = if s.dbExists then s.db else ⟨[], []⟩
  isDir : ∀ q, s.disk.isDir q → t.disk.isDir q
  file : t.disk.file = s.disk.file
  folder : t.disk.Creatable site.cwd General.folder
  kept : (∀ row ∈ t.db.clients, s.disk.pathExists site.cwd (clientFolder row.clientName)) →
    s.disk.pathExists site.cwd General.folder → t.disk = s.disk

theorem dataBaseHandle_some {site : Site} {s t : Server} (h : dataBaseHandle site s = some t) :
    Restarted site s t := by
  rw [dataBaseHandle_apart] at h
  simp only at h
  split at h
  · cases h
  · rename_i clients disk hload
    split at h
    · cases h
    · rename_i disk' hdir
      obtain rfl := Option.some.inj h
      obtain ⟨rfl, hmono, hfile⟩ := loadClients_some hload
      refine ⟨?_, rfl, rfl, fun q hq => ensureDir_isDir hdir q (hmono q hq), ?_, ?_, ?_⟩
      · simp only [foldl_loadFile, List.map_map, rebuilt]
        apply List.map_congr_left
        intro row _
        simp
      · rw [← hfile, ← ensureDir_file hdir]
      · exact ensureDir_creatable (by decide) hdir
      · intro hrows hfolder
        rw [loadClients_of_pathExists _ hrows, Option.some.injEq, Prod.mk.injEq] at hload
        obtain ⟨-, rfl⟩ := hload
        rw [ensureDir, if_pos hfolder] at hdir
        exact (Option.some.inj hdir).symm

theorem nodup_fileNames {files : List File} {id : Bytes}
    (h : (files.map fun r => (r.clientId, r.fileName)).Nodup) :
    ((files.filter (·.clientId = id)).map (·.fileName)).Nodup := by
  have hsub := h.sublist ((List.filter_sublist (p := fun r => r.clientId = id)).map _)
  have hpair : (files.filter (·.clientId = id)).map (fun r => (r.clientId, r.fileName)) =
      ((files.filter (·.clientId = id)).map (·.fileName)).map (Prod.mk id) := by
    rw [List.map_map]
    apply List.map_congr_left
    intro r hr
    have hid : r.clientId = id := by simpa using (List.mem_filter.mp hr).2
    simp [hid]
  rw [hpair] at hsub
  exact hsub.of_map _

theorem Restarted.rows {site : Site} {s t : Server} (hs : WellFormed s)
    (h : Restarted site s t) :
    t.clientsList.map (·.toClientRow) = s.clientsList.map (·.toClientRow) := by
  rw [h.clientsList, rebuilt, List.map_map, h.db, if_pos hs.hasTables, hs.rows]
  exact List.map_id _

theorem Restarted.ids {site : Site} {s t : Server} (hs : WellFormed s)
    (h : Restarted site s t) : t.ids = s.ids := by
  have hrows := congrArg (List.map (·.clientId)) (h.rows hs)
  rw [List.map_map, List.map_map] at hrows
  exact hrows

theorem Restarted.names {site : Site} {s t : Server} (hs : WellFormed s)
    (h : Restarted site s t) : t.names = s.names := by
  have hrows := congrArg (List.map (·.clientName)) (h.rows hs)
  rw [List.map_map, List.map_map] at hrows
  exact hrows

theorem Restarted.wellFormed {site : Site} {s t : Server} (hs : WellFormed s)
    (h : Restarted site s t) : WellFormed t := by
  have hdb : t.db = s.db := by rw [h.db, if_pos hs.hasTables]
  have hmem : ∀ c ∈ t.clientsList, ∃ c₀ ∈ s.clientsList, c.toClientRow = c₀.toClientRow ∧
      c.filesList = s.db.files.filter (·.clientId = c₀.clientId) := by
    intro c hc
    rw [h.clientsList, rebuilt, hdb] at hc
    obtain ⟨row, hrow, rfl⟩ := List.mem_map.mp hc
    rw [hs.rows] at hrow
    obtain ⟨c₀, hc₀, rfl⟩ := List.mem_map.mp hrow
    exact ⟨c₀, hc₀, rfl, rfl⟩
  constructor
  · exact h.ids hs ▸ hs.idsDistinct
  · exact h.names hs ▸ hs.namesDistinct
  · rw [h.rows hs, hdb, hs.rows]
  · intro c hc f hf
    obtain ⟨c₀, hc₀, hrow, hfiles⟩ := hmem c hc
    rw [hfiles] at hf
    obtain ⟨hf, hid⟩ := List.mem_filter.mp hf
    have hid : f.clientId = c₀.clientId := by simpa using hid
    obtain ⟨c₁, hc₁, hc₁id, g, hg, hname, hpath⟩ := hs.backed f hf
    obtain rfl := Keyed.eq_of_key_eq (fun x : Client => x.clientId) hs.idsDistinct hc₁ hc₀
      (hc₁id.trans hid)
    rw [← hpath, (hs.owns c₁ hc₁ g hg).2, hname, hrow]
    exact ⟨hid, rfl⟩
  · intro c hc
    obtain ⟨c₀, _, -, hfiles⟩ := hmem c hc
    rw [hfiles]
    exact nodup_fileNames hs.rowKeysDistinct
  · rw [hdb]
    exact hs.rowKeysDistinct
  · intro row hrow
    rw [hdb] at hrow
    obtain ⟨c₀, hc₀, hid, -⟩ := hs.backed row hrow
    refine ⟨{ toClientRow := c₀.toClientRow,
              filesList := s.db.files.filter (·.clientId = c₀.clientId) }, ?_, hid, row, ?_,
      rfl, rfl⟩
    · rw [h.clientsList, rebuilt, hdb, hs.rows]
      exact List.mem_map.mpr ⟨c₀.toClientRow, List.mem_map_of_mem hc₀, rfl⟩
    · exact List.mem_filter.mpr ⟨hrow, by simpa using hid.symm⟩
  · exact h.dbExists

theorem Restarted.housed {site : Site} {s t : Server} (hs : WellFormed s) (hh : Housed site s)
    (h : Restarted site s t) : Housed site t :=
  hh.mono h.isDir fun _ hname => .inl (h.names hs ▸ hname)

/-- A start succeeds where the folders of the clients can be made. -/
theorem start_of_creatable {site : Site} {s : Server} (hexists : s.dbExists = true)
    (hcwd : s.disk.isDir site.cwd)
    (hclients : ∀ row ∈ s.db.clients,
      s.disk.Creatable site.cwd (clientFolder row.clientName)) :
    ∃ t, dataBaseHandle site s = some t := by
  obtain ⟨clients, disk, hload⟩ := loadClients_of_creatable s.db.clients hclients
  obtain ⟨-, hmono, -⟩ := loadClients_some hload
  have hfolder : disk.Creatable site.cwd General.folder := by
    refine ⟨site.cwd ++ [General.folder], ?_, fun h => absurd (by decide) h⟩
    exact locate_folder (hmono _ hcwd)
  obtain ⟨disk', hdir⟩ := ensureDir_of_creatable (by decide) hfolder
  have hstart : dataBaseHandle site s = some
      { clientsList := s.db.files.foldl loadFile clients, dbExists := true, db := s.db,
        disk := disk' } := by
    simp only [dataBaseHandle_apart, hexists, if_true, hload, hdir]
  exact ⟨_, hstart⟩

/-- A restart always succeeds. -/
theorem restart_some {site : Site} {s : Server} (hs : WellFormed s) (hh : Housed site s) :
    ∃ t, dataBaseHandle site s = some t := by
  refine start_of_creatable hs.hasTables (hh.rooted _ (List.prefix_refl _)) ?_
  intro row hrow
  rw [hs.rows] at hrow
  obtain ⟨c, hc, rfl⟩ := List.mem_map.mp hrow
  exact hh.clients _ (List.mem_map_of_mem hc)

/-! The first start. -/

theorem start_some {site : Site} {s₀ s : Server} (h₀ : Untouched site s₀)
    (h : dataBaseHandle site s₀ = some s) :
    s.clientsList = [] ∧ s.db = ⟨[], []⟩ ∧ s.dbExists = true ∧
      s.disk = { s₀.disk with
        isDir := Function.update s₀.disk.isDir (site.cwd ++ [General.folder]) true } := by
  have hlocate : s₀.disk.locate site.cwd General.folder = some (site.cwd ++ [General.folder]) :=
    locate_folder (h₀.rooted _ (List.prefix_refl _))
  have hfree : s₀.disk.occupied (site.cwd ++ [General.folder]) = false := by
    rw [FileTree.occupied, h₀.noDirs, h₀.noFiles]
    rfl
  have hmkdir : ensureDir site General.folder s₀.disk = some { s₀.disk with
      isDir := Function.update s₀.disk.isDir (site.cwd ++ [General.folder]) true } := by
    rw [ensureDir, FileTree.pathExists, hlocate]
    simp only [hfree, Bool.false_eq_true, if_false]
    exact FileTree.mkdir_eq_some.mpr ⟨_, hlocate, hfree, rfl⟩
  simp only [dataBaseHandle_apart, h₀.noTables, Bool.false_eq_true, if_false, loadClients, hmkdir,
    Option.some.injEq] at h
  rw [← h]
  exact ⟨rfl, rfl, rfl, rfl⟩

theorem start_wellFormed {site : Site} {s₀ s : Server} (h₀ : Untouched site s₀)
    (h : dataBaseHandle site s₀ = some s) : WellFormed s := by
  obtain ⟨hclients, hdb, hexists, -⟩ := start_some h₀ h
  constructor <;> simp [Server.ids, Server.names, Backed, hclients, hdb, hexists]

theorem start_housed {site : Site} {s₀ s : Server} (h₀ : Untouched site s₀)
    (h : dataBaseHandle site s₀ = some s) : Housed site s := by
  obtain ⟨hclients, -, -, hdisk⟩ := start_some h₀ h
  constructor
  · intro q hq
    rw [hdisk]
    by_cases he : q = site.cwd ++ [General.folder]
    · simp [he]
    · simpa [he] using h₀.rooted q hq
  · simp [hdisk]
  · simp [Server.names, hclients]

/-! What holds in every reachable state. -/

theorem step_invariant {I : Server → Prop} {site : Site} {s t : Server} {e : Event}
    (hs : WellFormed s) (h : (serverRuns site).step s e t)
    (hcallback : ∀ draws c, e = .callback draws c → draws.uuid ∉ s.ids →
      I ((receive c).next site draws s))
    (hrestart : e = .restart → ∀ t, Restarted site s t → I t) : I t := by
  obtain ⟨hadmissible, hstep⟩ := h
  cases e with
  | callback draws c =>
      rw [step_callback site draws c hs hadmissible] at hstep
      obtain rfl := Option.some.inj hstep
      exact hcallback draws c rfl hadmissible
  | restart => exact hrestart rfl t (dataBaseHandle_some hstep)

theorem step_wellFormed {site : Site} {s t : Server} {e : Event} (hs : WellFormed s)
    (h : (serverRuns site).step s e t) : WellFormed t :=
  step_invariant hs h (fun draws _ _ hfresh => next_wellFormed site draws _ hs hfresh)
    fun _ _ ht => ht.wellFormed hs

theorem step_housed {site : Site} {s t : Server} {e : Event} (hs : WellFormed s)
    (hh : Housed site s) (h : (serverRuns site).step s e t) : Housed site t :=
  step_invariant hs h
    (fun draws _ _ hfresh => next_invariant site draws _ hs hfresh
      (fun _ _ _ _ _ _ hhoused hupd => hupd.housed hhoused) hh)
    fun _ _ ht => ht.housed hs hh

theorem Reachable.wellFormed_housed {site : Site} {s : Server} (h : Reachable site s) :
    WellFormed s ∧ Housed site s := by
  refine System.Reachable.invariant (I := fun s => WellFormed s ∧ Housed site s) ?_ ?_ h
  · rintro s ⟨s₀, h₀, hstart⟩
    exact ⟨start_wellFormed h₀ hstart, start_housed h₀ hstart⟩
  · rintro s e t ⟨hs, hh⟩ hstep
    exact ⟨step_wellFormed hs hstep, step_housed hs hh hstep⟩

theorem Reachable.wellFormed {site : Site} {s : Server} (h : Reachable site s) :
    WellFormed s := (Reachable.wellFormed_housed h).1

theorem Reachable.housed {site : Site} {s : Server} (h : Reachable site s) : Housed site s :=
  (Reachable.wellFormed_housed h).2

end SecureTransfer
