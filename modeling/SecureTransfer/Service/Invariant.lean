import SecureTransfer.Service.Serve
import SecureTransfer.Library.Keyed

/-!
Well-formed servers: the registry in memory agrees with table clients and has
distinct ids and names, file records carry their owner and path and have distinct
names for each client, and every row of table files belongs to a record. Every
update of the service keeps these facts.
-/

open Octets (Text)
open Effects

namespace SecureTransfer

/-- Every row of table files has a record with its client id, file name and path. -/
def Backed (clients : List Client) (rows : List File) : Prop :=
  ∀ row ∈ rows, ∃ c ∈ clients, c.clientId = row.clientId ∧
    ∃ f ∈ c.filesList, f.fileName = row.fileName ∧ f.path = row.path

/-- The records of a client carry its id and the path its name gives. -/
def Client.Owns (c : Client) : Prop :=
  ∀ f ∈ c.filesList, f.clientId = c.clientId ∧ f.path = filePath c.clientName f.fileName

structure WellFormed (s : Server) : Prop where
  idsDistinct : s.ids.Nodup
  namesDistinct : s.names.Nodup
  rows : s.db.clients = s.clientsList.map (·.toClientRow)
  owns : ∀ c ∈ s.clientsList, c.Owns
  fileNamesDistinct : ∀ c ∈ s.clientsList, (c.filesList.map (·.fileName)).Nodup
  rowKeysDistinct : (s.db.files.map fun r => (r.clientId, r.fileName)).Nodup
  backed : Backed s.clientsList s.db.files
  hasTables : s.dbExists = true

theorem WellFormed.rowIds {s : Server} (hs : WellFormed s) :
    s.db.clients.map (·.clientId) = s.ids := by
  rw [hs.rows, List.map_map]
  rfl

namespace Server

variable {s : Server} {clientId : Bytes}

theorem client?_eq_some {c : Client} (h : s.client? clientId = some c) :
    c ∈ s.clientsList ∧ c.clientId = clientId :=
  ⟨List.mem_of_find?_eq_some h, by simpa using List.find?_some h⟩

theorem client?_of_mem (hn : s.ids.Nodup) {c : Client} (hc : c ∈ s.clientsList) :
    s.client? c.clientId = some c := Keyed.find?_of_mem (fun x : Client => x.clientId) hn hc

theorem named?_eq_some {name : Text} {c : Client} (h : s.named? name = some c) :
    c ∈ s.clientsList ∧ c.clientName = name :=
  ⟨List.mem_of_find?_eq_some h, by simpa using List.find?_some h⟩

/-! An update of one client keeps all the others, ids and names. -/

theorem ids_updateRow {f : ClientRow → ClientRow} (hf : ∀ r, (f r).clientId = r.clientId) :
    (s.updateRow clientId f).ids = s.ids := by
  simp only [ids, updateRow, List.map_map]
  apply List.map_congr_left
  intro c _
  simp only [Function.comp_apply]
  split
  · exact hf _
  · rfl

theorem ids_updateFiles {f : List File → List File} :
    (s.updateFiles clientId f).ids = s.ids := by
  simp only [ids, updateFiles, List.map_map]
  apply List.map_congr_left
  intro c _
  simp only [Function.comp_apply]
  split <;> rfl

theorem names_updateRow {f : ClientRow → ClientRow}
    (hf : ∀ r, (f r).clientName = r.clientName) : (s.updateRow clientId f).names = s.names := by
  simp only [names, updateRow, List.map_map]
  apply List.map_congr_left
  intro c _
  simp only [Function.comp_apply]
  split
  · exact hf _
  · rfl

theorem names_updateFiles {f : List File → List File} :
    (s.updateFiles clientId f).names = s.names := by
  simp only [names, updateFiles, List.map_map]
  apply List.map_congr_left
  intro c _
  simp only [Function.comp_apply]
  split <;> rfl

theorem mem_updateRow {f : ClientRow → ClientRow} {c' : Client} :
    c' ∈ (s.updateRow clientId f).clientsList ↔
      ∃ c ∈ s.clientsList,
        (if c.clientId = clientId then { c with toClientRow := f c.toClientRow } else c) = c' :=
  List.mem_map

theorem mem_updateFiles {f : List File → List File} {c' : Client} :
    c' ∈ (s.updateFiles clientId f).clientsList ↔
      ∃ c ∈ s.clientsList,
        (if c.clientId = clientId then { c with filesList := f c.filesList } else c) = c' :=
  List.mem_map

theorem mem_flagFile {fileName : Text} {flag : Bool} {c' : Client} :
    c' ∈ (s.flagFile clientId fileName flag).clientsList ↔
      ∃ c ∈ s.clientsList, (if c.clientId = clientId then
        { c with filesList := c.filesList.map fun f =>
            if f.fileName = fileName then { f with validCrc := flag } else f } else c) = c' :=
  List.mem_map

theorem mem_addFile {file : File} {c' : Client} :
    c' ∈ (s.addFile file).clientsList ↔ ∃ c ∈ s.clientsList,
      (if c.clientId = file.clientId then { c with filesList := c.filesList ++ [file] } else c) =
        c' :=
  List.mem_map

theorem getElem?_updateRow {f : ClientRow → ClientRow} {i : Nat} {c : Client}
    (h : s.clientsList[i]? = some c) (hc : c.clientId = clientId) :
    (s.updateRow clientId f).clientsList[i]? =
      some { c with toClientRow := f c.toClientRow } := by
  simp [updateRow, h, hc]

@[simp] theorem ids_seen (draws : Draws) : (s.seen draws clientId).ids = s.ids :=
  ids_updateRow fun _ => rfl

@[simp] theorem ids_withPublicKey (key : Bytes) :
    (s.withPublicKey clientId key).ids = s.ids := ids_updateRow fun _ => rfl

@[simp] theorem ids_withAesKey (key : Bytes) :
    (s.withAesKey clientId key).ids = s.ids := ids_updateRow fun _ => rfl

@[simp] theorem names_seen (draws : Draws) : (s.seen draws clientId).names = s.names :=
  names_updateRow fun _ => rfl

@[simp] theorem names_withPublicKey (key : Bytes) :
    (s.withPublicKey clientId key).names = s.names := names_updateRow fun _ => rfl

@[simp] theorem names_withAesKey (key : Bytes) :
    (s.withAesKey clientId key).names = s.names := names_updateRow fun _ => rfl

@[simp] theorem ids_flagFile (fileName : Text) (flag : Bool) :
    (s.flagFile clientId fileName flag).ids = s.ids := by
  change (s.updateFiles clientId _).ids = s.ids
  exact ids_updateFiles

@[simp] theorem ids_addFile (file : File) : (s.addFile file).ids = s.ids := by
  change (s.updateFiles file.clientId (· ++ [file])).ids = s.ids
  exact ids_updateFiles

@[simp] theorem ids_dropFile (fileName : Text) : (s.dropFile clientId fileName).ids = s.ids :=
  ids_updateFiles

@[simp] theorem names_flagFile (fileName : Text) (flag : Bool) :
    (s.flagFile clientId fileName flag).names = s.names := by
  change (s.updateFiles clientId _).names = s.names
  exact names_updateFiles

@[simp] theorem names_addFile (file : File) : (s.addFile file).names = s.names := by
  change (s.updateFiles file.clientId (· ++ [file])).names = s.names
  exact names_updateFiles

@[simp] theorem names_dropFile (fileName : Text) :
    (s.dropFile clientId fileName).names = s.names := names_updateFiles

theorem getElem?_seen {draws : Draws} {i : Nat} {c : Client}
    (h : s.clientsList[i]? = some c) :
    (s.seen draws c.clientId).clientsList[i]? = some { c with lastSeenDate := draws.now } :=
  getElem?_updateRow h rfl

theorem modifyClient_eq_map (hn : s.ids.Nodup) {i : Nat} {c : Client}
    (h : s.clientsList[i]? = some c) {f g : Client → Client} (hfg : f c = g c) :
    s.modifyClient i f =
      { s with clientsList := s.clientsList.map fun x =>
          if x.clientId = c.clientId then g x else x } := by
  rw [modifyClient, Keyed.modify_eq_map (fun x : Client => x.clientId) hn h]
  congr 1
  apply List.map_congr_left
  intro x hx
  split
  · rename_i he
    rw [Keyed.eq_of_key_eq (fun x : Client => x.clientId) hn hx (List.mem_of_getElem? h) he, hfg]
  · rfl

theorem modifyClient_row (hn : s.ids.Nodup) {i : Nat} {c : Client}
    (h : s.clientsList[i]? = some c) (hid : c.clientId = clientId)
    {g : Client → Client} {f : ClientRow → ClientRow}
    (hfg : g c = { c with toClientRow := f c.toClientRow }) :
    { s.modifyClient i g with db := s.db.updateClients clientId f } =
      s.updateRow clientId f := by
  rw [modifyClient_eq_map hn h (g := fun x => { x with toClientRow := f x.toClientRow }) hfg,
    hid]
  rfl

theorem modifyClient_files (hn : s.ids.Nodup) {i : Nat} {c : Client}
    (h : s.clientsList[i]? = some c) (hid : c.clientId = clientId)
    {g : Client → Client} {f : List File → List File}
    (hfg : g c = { c with filesList := f c.filesList }) :
    s.modifyClient i g = s.updateFiles clientId f := by
  rw [modifyClient_eq_map hn h (g := fun x => { x with filesList := f x.filesList }) hfg, hid]
  rfl

end Server

/-! Each update of the service keeps a server well-formed. -/

namespace WellFormed

variable {s : Server} {clientId : Bytes}

theorem withDisk (hs : WellFormed s) (disk : FileTree) :
    WellFormed { s with disk := disk } := ⟨hs.1, hs.2, hs.3, hs.4, hs.5, hs.6, hs.7, hs.8⟩

theorem updateRow (hs : WellFormed s) {f : ClientRow → ClientRow}
    (hid : ∀ r, (f r).clientId = r.clientId) (hname : ∀ r, (f r).clientName = r.clientName) :
    WellFormed (s.updateRow clientId f) where
  idsDistinct := by
    rw [Server.ids_updateRow hid]
    exact hs.idsDistinct
  namesDistinct := by
    rw [Server.names_updateRow hname]
    exact hs.namesDistinct
  rows := by
    simp only [Server.updateRow, Tables.updateClients, hs.rows, List.map_map]
    apply List.map_congr_left
    intro c _
    simp only [Function.comp_apply]
    split <;> rfl
  owns := by
    intro c' hc'
    obtain ⟨c, hc, rfl⟩ := Server.mem_updateRow.mp hc'
    split
    · intro g hg
      obtain ⟨hgid, hgpath⟩ := hs.owns c hc g hg
      exact ⟨hgid.trans (hid _).symm, by rw [hgpath, ← hname c.toClientRow]⟩
    · exact hs.owns c hc
  fileNamesDistinct := by
    intro c' hc'
    obtain ⟨c, hc, rfl⟩ := Server.mem_updateRow.mp hc'
    split <;> exact hs.fileNamesDistinct c hc
  rowKeysDistinct := hs.rowKeysDistinct
  backed := by
    intro row hrow
    obtain ⟨c, hc, hcid, hfile⟩ := hs.backed row hrow
    refine ⟨_, Server.mem_updateRow.mpr ⟨c, hc, rfl⟩, ?_, ?_⟩
    · split
      · exact (hid _).trans hcid
      · exact hcid
    · split <;> exact hfile
  hasTables := hs.hasTables

theorem seen (hs : WellFormed s) (draws : Draws) : WellFormed (s.seen draws clientId) :=
  hs.updateRow (fun _ => rfl) fun _ => rfl

theorem withPublicKey (hs : WellFormed s) (key : Bytes) :
    WellFormed (s.withPublicKey clientId key) :=
  hs.updateRow (fun _ => rfl) fun _ => rfl

theorem withAesKey (hs : WellFormed s) (key : Bytes) : WellFormed (s.withAesKey clientId key) :=
  hs.updateRow (fun _ => rfl) fun _ => rfl

/-- A change of the records of a client that keeps their owners and paths, and after
which its rows still have records. -/
theorem updateFiles (hs : WellFormed s) {f : List File → List File}
    (howns : ∀ c ∈ s.clientsList, c.clientId = clientId →
      ({ c with filesList := f c.filesList } : Client).Owns)
    (hnames : ∀ c ∈ s.clientsList, c.clientId = clientId →
      ((f c.filesList).map (·.fileName)).Nodup)
    (hbacked : ∀ c ∈ s.clientsList, c.clientId = clientId → ∀ row ∈ s.db.files,
      row.clientId = clientId → ∀ g ∈ c.filesList, g.fileName = row.fileName ∧ g.path = row.path →
        ∃ g ∈ f c.filesList, g.fileName = row.fileName ∧ g.path = row.path) :
    WellFormed (s.updateFiles clientId f) where
  idsDistinct := by
    rw [Server.ids_updateFiles]
    exact hs.idsDistinct
  namesDistinct := by
    rw [Server.names_updateFiles]
    exact hs.namesDistinct
  rows := by
    simp only [Server.updateFiles, hs.rows, List.map_map]
    apply List.map_congr_left
    intro c _
    simp only [Function.comp_apply]
    split <;> rfl
  owns := by
    intro c' hc'
    obtain ⟨c, hc, rfl⟩ := Server.mem_updateFiles.mp hc'
    split
    · rename_i hcid
      exact howns c hc hcid
    · exact hs.owns c hc
  fileNamesDistinct := by
    intro c' hc'
    obtain ⟨c, hc, rfl⟩ := Server.mem_updateFiles.mp hc'
    split
    · rename_i hcid
      exact hnames c hc hcid
    · exact hs.fileNamesDistinct c hc
  rowKeysDistinct := hs.rowKeysDistinct
  backed := by
    intro row hrow
    obtain ⟨c, hc, hcid, g, hg, hrowg⟩ := hs.backed row hrow
    refine ⟨_, Server.mem_updateFiles.mpr ⟨c, hc, rfl⟩, ?_, ?_⟩
    · split <;> exact hcid
    · split
      · rename_i he
        exact hbacked c hc he row hrow (hcid.symm.trans he) g hg hrowg
      · exact ⟨g, hg, hrowg⟩
  hasTables := hs.hasTables

/-- A change of table files that adds no key and no path. -/
theorem withRows (hs : WellFormed s) {rows : List File}
    (hkeys : (rows.map fun r => (r.clientId, r.fileName)).Nodup)
    (hbacked : Backed s.clientsList rows) :
    WellFormed { s with db := { s.db with files := rows } } :=
  ⟨hs.1, hs.2, hs.3, hs.4, hs.5, hkeys, hbacked, hs.8⟩

theorem setValidCrc (hs : WellFormed s) (flag : Bool) :
    WellFormed { s with db := s.db.setValidCrc clientId flag } := by
  apply hs.withRows
  · have hkeys : (s.db.setValidCrc clientId flag).files.map (fun r => (r.clientId, r.fileName)) =
        s.db.files.map fun r => (r.clientId, r.fileName) := by
      simp only [Tables.setValidCrc, List.map_map]
      apply List.map_congr_left
      intro r _
      simp only [Function.comp_apply]
      split <;> rfl
    exact hkeys ▸ hs.rowKeysDistinct
  · intro row hrow
    obtain ⟨r, hr, rfl⟩ := List.mem_map.mp hrow
    have := hs.backed r hr
    split <;> exact this

theorem flagFile (hs : WellFormed s) (fileName : Text) (flag : Bool) :
    WellFormed (s.flagFile clientId fileName flag) := by
  apply setValidCrc
  apply hs.updateFiles
  · intro c hc _ g hg
    obtain ⟨f, hf, rfl⟩ := List.mem_map.mp hg
    have := hs.owns c hc f hf
    split <;> exact this
  · intro c hc _
    have hnames : (c.filesList.map fun f =>
        if f.fileName = fileName then { f with validCrc := flag } else f).map (·.fileName) =
        c.filesList.map (·.fileName) := by
      rw [List.map_map]
      apply List.map_congr_left
      intro f _
      simp only [Function.comp_apply]
      split <;> rfl
    rw [hnames]
    exact hs.fileNamesDistinct c hc
  · intro c hc _ row _ _ g hg hrow
    refine ⟨_, List.mem_map.mpr ⟨g, hg, rfl⟩, ?_⟩
    split <;> exact hrow

theorem addClient (hs : WellFormed s) {c : Client} (hid : c.clientId ∉ s.ids)
    (hname : c.clientName ∉ s.names) (hfiles : c.filesList = []) :
    WellFormed (s.addClient c) where
  idsDistinct := by
    simp only [Server.ids, Server.addClient, List.map_append, List.map_cons, List.map_nil]
    exact List.nodup_append_comm.mp (List.nodup_cons.mpr ⟨hid, hs.idsDistinct⟩)
  namesDistinct := by
    simp only [Server.names, Server.addClient, List.map_append, List.map_cons, List.map_nil]
    exact List.nodup_append_comm.mp (List.nodup_cons.mpr ⟨hname, hs.namesDistinct⟩)
  rows := by simp [Server.addClient, hs.rows]
  owns := by
    intro c' hc'
    rcases List.mem_append.mp hc' with hc' | hc'
    · exact hs.owns c' hc'
    · obtain rfl := List.mem_singleton.mp hc'
      intro f hf
      simp [hfiles] at hf
  fileNamesDistinct := by
    intro c' hc'
    rcases List.mem_append.mp hc' with hc' | hc'
    · exact hs.fileNamesDistinct c' hc'
    · obtain rfl := List.mem_singleton.mp hc'
      simp [hfiles]
  rowKeysDistinct := hs.rowKeysDistinct
  backed := by
    intro row hrow
    obtain ⟨c', hc', h⟩ := hs.backed row hrow
    exact ⟨c', List.mem_append_left _ hc', h⟩
  hasTables := hs.hasTables

theorem addFile (hs : WellFormed s) {c : Client} (hc : c ∈ s.clientsList) {file : File}
    (hid : file.clientId = c.clientId) (hpath : file.path = filePath c.clientName file.fileName)
    (hnew : file.fileName ∉ c.filesList.map (·.fileName)) : WellFormed (s.addFile file) := by
  have hsame : ∀ c' ∈ s.clientsList, c'.clientId = file.clientId → c' = c := fun c' hc' he =>
    Keyed.eq_of_key_eq (fun x : Client => x.clientId) hs.idsDistinct hc' hc (he.trans hid)
  have hupdate : WellFormed (s.updateFiles file.clientId (· ++ [file])) := by
    apply hs.updateFiles
    · intro c' hc' he f hf
      obtain rfl := hsame c' hc' he
      rcases List.mem_append.mp hf with hf | hf
      · exact hs.owns c' hc' f hf
      · obtain rfl := List.mem_singleton.mp hf
        exact ⟨hid, hpath⟩
    · intro c' hc' he
      obtain rfl := hsame c' hc' he
      rw [List.map_append]
      exact List.nodup_append_comm.mp
        (List.nodup_cons.mpr ⟨hnew, hs.fileNamesDistinct c' hc'⟩)
    · intro c' _ _ row _ _ g hg hrow
      exact ⟨g, List.mem_append_left _ hg, hrow⟩
  apply hupdate.withRows
  · rw [List.map_append]
    refine List.nodup_append_comm.mp (List.nodup_cons.mpr ⟨?_, hs.rowKeysDistinct⟩)
    intro hmem
    obtain ⟨row, hrow, hkey⟩ := List.mem_map.mp hmem
    obtain ⟨c', hc', hcid, f, hf, hname, -⟩ := hs.backed row hrow
    simp only [Prod.mk.injEq] at hkey
    obtain rfl := hsame c' hc' (hcid.trans hkey.1)
    exact hnew (List.mem_map.mpr ⟨f, hf, hname.trans hkey.2⟩)
  · intro row hrow
    rcases List.mem_append.mp hrow with hrow | hrow
    · exact hupdate.backed row hrow
    · obtain rfl := List.mem_singleton.mp hrow
      refine ⟨_, Server.mem_updateFiles.mpr ⟨c, hc, rfl⟩, ?_⟩
      rw [if_pos hid.symm]
      exact ⟨hid.symm, row, List.mem_append_right _ List.mem_cons_self, rfl, rfl⟩

/-- Once its rows are gone, the record of a file can be dropped. -/
theorem dropFile (hs : WellFormed s) {fileName : Text}
    (hrows : ∀ row ∈ s.db.files, row.clientId = clientId → row.fileName ≠ fileName) :
    WellFormed (s.dropFile clientId fileName) := by
  apply hs.updateFiles
  · intro c hc _ f hf
    exact hs.owns c hc f (List.mem_of_mem_filter hf)
  · intro c hc _
    exact (hs.fileNamesDistinct c hc).sublist (List.filter_sublist.map _)
  · intro c _ _ row hrow hid g hg hname
    refine ⟨g, List.mem_filter.mpr ⟨hg, ?_⟩, hname⟩
    rw [hname.1]
    simpa using hrows row hrow hid

theorem deleteFile (hs : WellFormed s) (fileName : Text) :
    WellFormed { s with db := s.db.deleteFile fileName } := by
  apply hs.withRows
  · exact hs.rowKeysDistinct.sublist (List.filter_sublist.map _)
  · intro row hrow
    exact hs.backed row (List.mem_of_mem_filter hrow)

end WellFormed
end SecureTransfer
