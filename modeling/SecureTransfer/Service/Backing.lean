import SecureTransfer.Service.EndToEnd

/-!
The three places a file is kept in: every record has its file on disk, every row of
table files has its record, and the last of four failed checks leaves the file in none
of them.
-/

open Octets (Text)
open FileTree (Proper)
open Effects Act
open SecureTransfer.ClientSide (packetOf_fits)
open Runs (System)

namespace SecureTransfer

/-- Every record has its file. -/
def Stocked (site : Site) (s : Server) : Prop :=
  ∀ c ∈ s.clientsList, ∀ f ∈ c.filesList,
    (s.disk.file (site.place c.clientName f.fileName)).isSome

/-- The client that sends a packet has a file of its name. -/
def Written (site : Site) (clientId : Bytes) (body : Body) (s : Server) : Prop :=
  ∀ p, body = .packet p → ∀ c ∈ s.clientsList, c.clientId = clientId →
    (s.disk.file (site.place c.clientName p.fileName)).isSome

variable {site : Site} {draws : Draws} {s t : Server} {clientId : Bytes} {body : Body}

theorem isSome_setFile {disk : FileTree} {q r : Location} (content : Bytes)
    (h : (disk.file r).isSome) : ((disk.setFile q (some content)).file r).isSome := by
  by_cases hr : r = q
  · rw [hr, FileTree.setFile_file_self]
    rfl
  · rwa [FileTree.setFile_file_of_ne _ _ hr]

/-- Every client of the second server is one of the first, with no record more. -/
def FewerRecords (s t : Server) : Prop :=
  ∀ c' ∈ t.clientsList, ∃ c ∈ s.clientsList, c.clientId = c'.clientId ∧
    c.clientName = c'.clientName ∧
    ∀ f ∈ c'.filesList, f.fileName ∈ c.filesList.map (·.fileName)

theorem fewerRecords_updateRow {f : ClientRow → ClientRow}
    (hid : ∀ r, (f r).clientId = r.clientId) (hname : ∀ r, (f r).clientName = r.clientName) :
    FewerRecords s (s.updateRow clientId f) := by
  intro c' hc'
  obtain ⟨c, hc, rfl⟩ := Server.mem_updateRow.mp hc'
  refine ⟨c, hc, ?_⟩
  split
  · exact ⟨(hid _).symm, (hname _).symm, fun f hf => List.mem_map_of_mem hf⟩
  · exact ⟨rfl, rfl, fun f hf => List.mem_map_of_mem hf⟩

theorem fewerRecords_updateFiles {g : List File → List File}
    (hg : ∀ c ∈ s.clientsList, ∀ f ∈ g c.filesList, f.fileName ∈ c.filesList.map (·.fileName)) :
    FewerRecords s (s.updateFiles clientId g) := by
  intro c' hc'
  obtain ⟨c, hc, rfl⟩ := Server.mem_updateFiles.mp hc'
  refine ⟨c, hc, ?_⟩
  split
  · exact ⟨rfl, rfl, hg c hc⟩
  · exact ⟨rfl, rfl, fun f hf => List.mem_map_of_mem hf⟩

theorem Stocked.mono (h : Stocked site s) (hrecords : FewerRecords s t)
    (hdisk : ∀ q, (s.disk.file q).isSome → (t.disk.file q).isSome) : Stocked site t := by
  intro c' hc' f hf
  obtain ⟨c, hc, -, hname, hfiles⟩ := hrecords c' hc'
  obtain ⟨g, hg, hfile⟩ := List.mem_map.mp (hfiles f hf)
  rw [← hname, ← hfile]
  exact hdisk _ (h c hc g hg)

theorem Written.mono (h : Written site clientId body s) (hrecords : FewerRecords s t)
    (hdisk : ∀ q, (s.disk.file q).isSome → (t.disk.file q).isSome) :
    Written site clientId body t := by
  intro p hp c' hc' hid
  obtain ⟨c, hc, hcid, hname, -⟩ := hrecords c' hc'
  rw [← hname]
  exact hdisk _ (h p hp c hc (hcid.trans hid))

theorem fewerRecords_refl : FewerRecords s s :=
  fun c hc => ⟨c, hc, rfl, rfl, fun _ hf => List.mem_map_of_mem hf⟩

theorem fewerRecords_flagFile {fileName : Text} {flag : Bool} :
    FewerRecords s (s.flagFile clientId fileName flag) := by
  apply fewerRecords_updateFiles
  intro c hc f hf
  obtain ⟨g, hg, rfl⟩ := List.mem_map.mp hf
  refine List.mem_map.mpr ⟨g, hg, ?_⟩
  split <;> rfl

/-- A record is made only of a file that is written. -/
theorem Stocked.addFile (h : Stocked site s) {file : File}
    (hfile : ∀ c ∈ s.clientsList, c.clientId = file.clientId →
      (s.disk.file (site.place c.clientName file.fileName)).isSome) :
    Stocked site (s.addFile file) := by
  intro c' hc' f hf
  obtain ⟨c, hc, rfl⟩ := Server.mem_addFile.mp hc'
  split at hf
  · rename_i hown
    rw [if_pos hown]
    obtain hf | hf := List.mem_append.mp hf
    · exact h c hc f hf
    · obtain rfl := List.mem_singleton.mp hf
      exact hfile c hc hown
  · rename_i hother
    rw [if_neg hother]
    exact h c hc f hf

theorem Written.addFile (h : Written site clientId body s) (file : File) :
    Written site clientId body (s.addFile file) := by
  intro p hp c' hc' hid
  obtain ⟨c, hc, rfl⟩ := Server.mem_addFile.mp hc'
  split at hid
  · rename_i hown
    rw [if_pos hown]
    exact h p hp c hc hid
  · rename_i hother
    rw [if_neg hother]
    exact h p hp c hc hid

/-- A record goes together with its file. -/
theorem Stocked.discard (hs : WellFormed s) (h : Stocked site s) {c : Client}
    (hc : c ∈ s.clientsList) (fileName : Text) (db : Tables) :
    Stocked site (({ s with
      disk := s.disk.setFile (site.place c.clientName fileName) none, db := db } :
        Server).dropFile c.clientId fileName) := by
  intro c' hc' f hf
  obtain ⟨c₀, hc₀, rfl⟩ := Server.mem_updateFiles.mp hc'
  split at hf
  · rename_i hown
    obtain ⟨hf, hne⟩ := List.mem_filter.mp hf
    have hne : f.fileName ≠ fileName := by simpa using hne
    have hplace : site.place c₀.clientName f.fileName ≠ site.place c.clientName fileName :=
      fun he => hne (Site.place_inj.mp he).2
    rw [if_pos hown, ← h c₀ hc₀ f hf]
    exact congrArg Option.isSome (FileTree.setFile_file_of_ne _ _ hplace)
  · rename_i hother
    have hplace : site.place c₀.clientName f.fileName ≠ site.place c.clientName fileName := by
      intro he
      have heq := Keyed.eq_of_key_eq (fun x : Client => x.clientName) hs.namesDistinct hc₀ hc
        (Site.place_inj.mp he).1
      exact hother (congrArg (fun x : Client => x.clientId) heq)
    rw [if_neg hother, ← h c₀ hc₀ f hf]
    exact congrArg Option.isSome (FileTree.setFile_file_of_ne _ _ hplace)

theorem Stocked.register (hl : Layout site s) (h : Stocked site s) {name : Text}
    (hname : Proper name) {disk : FileTree}
    (hdir : ensureDir site (clientFolder name) s.disk = some disk) :
    Stocked site (({ s with disk := disk } : Server).addClient (newClient draws name)) := by
  have hfile := (hl.ensureDir_home hname hdir).1
  intro c hc f hf
  obtain hc | hc := List.mem_append.mp hc
  · rw [← h c hc f hf]
    exact congrArg Option.isSome (congrFun hfile _)
  · obtain rfl := List.mem_singleton.mp hc
    cases hf

/-- An update of the client that sent a request. -/
theorem Update.stocked (hs : WellFormed s) (hl : Layout site s) (hplain : body.Plain)
    (h : Stocked site s) (hw : Written site clientId body s)
    (hupd : Update site draws clientId body s t) :
    Stocked site t ∧ Written site clientId body t := by
  cases hupd with
  | @seen other =>
      have hfewer : FewerRecords s (s.seen draws other) :=
        fewerRecords_updateRow (fun _ => rfl) fun _ => rfl
      exact ⟨h.mono hfewer fun _ => id, hw.mono hfewer fun _ => id⟩
  | @publicKey name key hbody =>
      have hfewer : FewerRecords s (s.withPublicKey clientId key) :=
        fewerRecords_updateRow (fun _ => rfl) fun _ => rfl
      exact ⟨h.mono hfewer fun _ => id, hw.mono hfewer fun _ => id⟩
  | aesKey =>
      have hfewer : FewerRecords s (s.withAesKey clientId draws.aesKey) :=
        fewerRecords_updateRow (fun _ => rfl) fun _ => rfl
      exact ⟨h.mono hfewer fun _ => id, hw.mono hfewer fun _ => id⟩
  | write hc hid hbody hstore =>
      obtain ⟨q, -, -, rfl⟩ := FileTree.store_eq_some.mp hstore
      exact ⟨h.mono fewerRecords_refl fun _ => isSome_setFile _,
        hw.mono fewerRecords_refl fun _ => isSome_setFile _⟩
  | flag =>
      exact ⟨h.mono fewerRecords_flagFile fun _ => id, hw.mono fewerRecords_flagFile fun _ => id⟩
  | @record c p hc hid hbody hfirst hnew =>
      exact ⟨h.addFile fun c₀ hc₀ hown => hw p hbody c₀ hc₀ (hown.trans hid), hw.addFile _⟩
  | @discard c file disk hc hid hfile hbody hcrc hremove =>
      refine ⟨?_, fun p hp => by rw [hbody] at hp; cases hp⟩
      obtain ⟨q, old, hq, -, -, rfl⟩ := FileTree.remove_eq_some.mp hremove
      rw [hl.locate_file (List.mem_map_of_mem hc) (hl.files c hc file hfile)] at hq
      obtain rfl := Option.some.inj hq
      subst hid
      exact h.discard hs hc file.fileName _
  | @register name disk hbody hname hfresh hdir =>
      subst hbody
      exact ⟨h.register hl hplain hdir, fun p hp => by cases hp⟩

theorem Updates.stocked (hs : WellFormed s) (hl : Layout site s) (hplain : body.Plain)
    (h : Stocked site s) (hw : Written site clientId body s)
    (hupd : Updates site draws clientId body s t) : Stocked site t := by
  have hall := hupd.invariant
    (I := fun s => WellFormed s ∧ Layout site s ∧ Stocked site s ∧ Written site clientId body s)
    (fun s t hst hstep => ⟨hstep.wellFormed hst.1, hst.2.1.update hplain hstep,
      hstep.stocked hst.1 hst.2.1 hplain hst.2.2.1 hst.2.2.2⟩) ⟨hs, hl, h, hw⟩
  exact hall.2.2.1

/-- The file of a packet is written before it is recorded. -/
theorem serve_stocked (draws : Draws) (hs : WellFormed s) (hl : Layout site s)
    (hfresh : draws.uuid ∉ s.ids) (clientId : Bytes) {body : Body} (hplain : body.Plain)
    (h : Stocked site s) : Stocked site (serve site draws s clientId body).1 := by
  by_cases hpacket : ∃ p, body = .packet p
  · obtain ⟨p, rfl⟩ := hpacket
    obtain heq | ⟨c, hc, rfl, disk, hstore, hrest⟩ := servePacket_written site draws hs clientId p
    · rw [serve, heq]
      exact h
    · have hwrite : Update site draws c.clientId (.packet p) s { s with disk := disk } :=
        .write hc rfl rfl hstore
      rw [hl.store_eq (List.mem_map_of_mem hc) hplain] at hstore
      obtain rfl := Option.some.inj hstore
      refine Updates.stocked (hs.withDisk _) (hl.update hplain hwrite) hplain
        (h.mono fewerRecords_refl fun _ => isSome_setFile _) ?_ (.head .seen hrest)
      intro p' hp' c' hc' hid
      obtain rfl := Body.packet.inj hp'
      obtain rfl := Keyed.eq_of_key_eq (fun x : Client => x.clientId) hs.idsDistinct hc' hc hid
      exact Option.isSome_iff_exists.mpr ⟨_, FileTree.setFile_file_self _ _ _⟩
  · refine Updates.stocked hs hl hplain h ?_ (serve_updates site draws hs hfresh clientId body)
    exact fun p hp => absurd ⟨p, hp⟩ hpacket

theorem next_stocked {r : Reception} (hs : WellFormed s) (hl : Layout site s)
    (hfresh : draws.uuid ∉ s.ids) (hplain : ∀ id body, r.incoming = .request id body → body.Plain)
    (h : Stocked site s) : Stocked site (r.next site draws s) := by
  rw [Reception.next]
  split
  · rename_i clientId body hr
    exact serve_stocked draws hs hl hfresh clientId (hplain _ _ hr) h
  · exact h

/-- A restart brings back the records that have a row. -/
theorem Restarted.fewerRecords (hs : WellFormed s) (ht : Restarted site s t) :
    FewerRecords s t := by
  have hdb : t.db = s.db := by rw [ht.db, if_pos hs.hasTables]
  intro c' hc'
  rw [ht.clientsList, rebuilt, hdb, hs.rows] at hc'
  obtain ⟨row, hrow, rfl⟩ := List.mem_map.mp hc'
  obtain ⟨c, hc, rfl⟩ := List.mem_map.mp hrow
  refine ⟨c, hc, rfl, rfl, ?_⟩
  intro f hf
  obtain ⟨hf, hid⟩ := List.mem_filter.mp hf
  obtain ⟨c₁, hc₁, hc₁id, g, hg, hname, -⟩ := hs.backed f hf
  have hid : f.clientId = c.clientId := by simpa using hid
  obtain rfl := Keyed.eq_of_key_eq (fun x : Client => x.clientId) hs.idsDistinct hc₁ hc
    (hc₁id.trans hid)
  exact List.mem_map.mpr ⟨g, hg, hname⟩

theorem plain_stocked (h : (plainRuns site).Reachable s) : Stocked site s := by
  have hall : WellFormed s ∧ Layout site s ∧ Stocked site s := by
    refine System.Reachable.invariant
      (I := fun s => WellFormed s ∧ Layout site s ∧ Stocked site s) ?_ ?_ h
    · intro s hinit
      obtain ⟨s₀, h₀, hstart⟩ := hinit
      refine ⟨start_wellFormed h₀ hstart, .start h₀ hstart, ?_⟩
      intro c hc
      rw [(start_some h₀ hstart).1] at hc
      cases hc
    · intro s e t hst hstep
      obtain ⟨hs, hl, h⟩ := hst
      obtain ⟨hstep, hplain⟩ := hstep
      have hwl : WellFormed t ∧ Layout site t :=
        ⟨step_wellFormed hs hstep, step_layout hs hl hstep hplain⟩
      refine ⟨hwl.1, hwl.2, step_invariant hs hstep ?_ ?_⟩
      · intro draws c he hfresh
        subst he
        exact next_stocked hs hl hfresh hplain h
      · intro he t ht
        exact h.mono (ht.fewerRecords hs) fun q hq => by rwa [ht.file]
  exact hall.2.2

/-! Removing a recorded file does not fail. -/

theorem Stocked.readFile (hs : WellFormed s) (hl : Layout site s) (h : Stocked site s)
    {c : Client} (hc : c ∈ s.clientsList) {f : File} (hf : f ∈ c.filesList) :
    (s.disk.readFile site.cwd f.path).isSome := by
  rw [(hs.owns c hc f hf).2, hl.readFile_eq (List.mem_map_of_mem hc) (hl.files c hc f hf)]
  exact h c hc f hf

theorem Stocked.remove (hs : WellFormed s) (hl : Layout site s) (h : Stocked site s)
    {c : Client} (hc : c ∈ s.clientsList) {f : File} (hf : f ∈ c.filesList) :
    s.disk.remove site.cwd f.path =
      some (s.disk.setFile (site.place c.clientName f.fileName) none) := by
  obtain ⟨content, hcontent⟩ := Option.isSome_iff_exists.mp (h c hc f hf)
  rw [(hs.owns c hc f hf).2, FileTree.remove_eq_some]
  exact ⟨_, content, hl.locate_file (List.mem_map_of_mem hc) (hl.files c hc f hf), hl.flat _ _,
    hcontent, rfl⟩

/-- Nothing is left of a file of a client. -/
structure Forgotten (site : Site) (c : Client) (fileName : Text) (s : Server) : Prop where
  noRecord : ∀ c' ∈ s.clientsList, c'.clientId = c.clientId →
    fileName ∉ c'.filesList.map (·.fileName)
  noRow : ∀ row ∈ s.db.files, row.clientId = c.clientId → row.fileName ≠ fileName
  noFile : s.disk.pathExists site.cwd (filePath c.clientName fileName) = false

theorem serve_forgets (draws : Draws) (hs : WellFormed s) (hl : Layout site s)
    (h : Stocked site s) {c : Client} (hc : c ∈ s.clientsList) {f : File}
    (hf : f ∈ c.filesList) (hcrc : f.validCrc = false) :
    Forgotten site c f.fileName (serve site draws s c.clientId
      (.verdict General.invalidCrc4thRequest902 f.fileName)).1 := by
  have hfewer : FewerRecords s (s.seen draws c.clientId) :=
    fewerRecords_updateRow (fun _ => rfl) fun _ => rfl
  have hc' : { c with lastSeenDate := draws.now } ∈ (s.seen draws c.clientId).clientsList :=
    Server.mem_updateRow.mpr ⟨c, hc, if_pos rfl⟩
  have hfind := Keyed.find?_of_mem (fun f : File => f.fileName) (hs.fileNamesDistinct c hc) hf
  have hlayout : Layout site (s.seen draws c.clientId) := @Layout.update site s hl draws
    c.clientId (.verdict General.invalidCrc4thRequest902 f.fileName) _ trivial .seen
  have hserve : (serve site draws s c.clientId
      (.verdict General.invalidCrc4thRequest902 f.fileName)).1 =
      (discardFile site (s.seen draws c.clientId) c.clientId f).1 := by
    rw [serve, serveVerdict, Server.client?_of_mem hs.idsDistinct hc]
    simp only [hfind, hcrc, Bool.false_eq_true, if_false, if_true]
    rw [if_neg (by decide)]
  have hdisk : Stocked site (s.seen draws c.clientId) := h.mono hfewer fun _ => id
  have hremove := hdisk.remove (hs.seen draws) hlayout hc' hf
  rw [hserve, discardFile_removed site hremove]
  constructor
  · intro c₁ hc₁ hid hmem
    obtain ⟨c₀, hc₀, rfl⟩ := Server.mem_updateFiles.mp hc₁
    split at hid <;> rename_i hown
    · rw [if_pos hown] at hmem
      obtain ⟨g, hg, hname⟩ := List.mem_map.mp hmem
      have hne := (List.mem_filter.mp hg).2
      simp [hname] at hne
    · exact hown hid
  · intro row hrow hid
    simpa using (List.mem_filter.mp hrow).2
  · have hlocate : (s.disk.setFile (site.place c.clientName f.fileName) none).locate site.cwd
        (filePath c.clientName f.fileName) = some (site.place c.clientName f.fileName) := by
      rw [FileTree.locate_setFile]
      exact hl.locate_file (List.mem_map_of_mem hc) (hl.files c hc f hf)
    change (s.disk.setFile (site.place c.clientName f.fileName) none).pathExists site.cwd
      (filePath c.clientName f.fileName) = false
    simp only [FileTree.pathExists, hlocate, FileTree.occupied, FileTree.setFile_isDir, hl.flat,
      FileTree.setFile_file_self]
    rfl

/-- In every reachable state the records of a client have distinct names and each its file
on disk, and every row of table files has its record. So inserting the row of a file
without a record does not meet the primary key, removing a recorded file does not fail,
and after the last of four failed checks nothing is left of the file. -/
theorem files_backed (h : (plainRuns site).Reachable s) :
    (∀ c ∈ s.clientsList, (c.filesList.map (·.fileName)).Nodup ∧
      ∀ f ∈ c.filesList, (s.disk.readFile site.cwd f.path).isSome) ∧
    (∀ row ∈ s.db.files, ∃ c ∈ s.clientsList, c.clientId = row.clientId ∧
      ∃ f ∈ c.filesList, f.fileName = row.fileName) ∧
    (∀ c ∈ s.clientsList, ∀ fileName, fileName ∉ c.filesList.map (·.fileName) →
      ∀ path flag t conn, t.db.files = s.db.files →
        ((Sql.addFileDb site ⟨c.clientId, fileName, path, flag⟩).run (calm t conn)).1 =
          .done ()) ∧
    (∀ c ∈ s.clientsList, ∀ f ∈ c.filesList, ∀ t conn, t.disk = s.disk →
      ((removeFile site f.path).run (calm t conn)).1 = .done ()) ∧
    ∀ c ∈ s.clientsList, ∀ f ∈ c.filesList, f.validCrc = false → ∀ draws conn t,
      (receive conn).incoming =
        .request c.clientId (.verdict General.invalidCrc4thRequest902 f.fileName) →
      (serverRuns site).step s (.callback draws conn) t → Forgotten site c f.fileName t := by
  obtain ⟨hs, hl⟩ := plain_layout h
  have hstocked := plain_stocked h
  refine ⟨?_, ?_, ?_, ?_, ?_⟩
  · intro c hc
    exact ⟨hs.fileNamesDistinct c hc, fun f hf => hstocked.readFile hs hl hc hf⟩
  · intro row hrow
    obtain ⟨c, hc, hid, f, hf, hname, -⟩ := hs.backed row hrow
    exact ⟨c, hc, hid, f, hf, hname⟩
  · intro c hc fileName hnew path flag t conn hrows
    have hnone : c.filesList.find? (·.fileName = fileName) = none :=
      Keyed.find?_of_notMem (fun f : File => f.fileName) hnew
    rw [addFileDb_calm]
    rw [hrows]
    exact hs.no_row hc hnone
  · intro c hc f hf t conn hdisk
    have hremove := hstocked.remove hs hl hc hf
    rw [← hdisk] at hremove
    rw [removeFile, onDisk_some conn hremove]
  · intro c hc f hf hcrc draws conn t hr hstep
    obtain ⟨hfresh, hstep⟩ := hstep
    rw [step_callback site draws conn hs hfresh, Reception.next, hr] at hstep
    obtain rfl := Option.some.inj hstep
    exact serve_forgets draws hs hl hstocked hc hf hcrc

theorem reachable_uploadedServer : (plainRuns (machine letterCipher)).Reachable uploadedServer := by
  refine plain_served reachable_keyedServer (by decide) (by decide) ?_ ?_
  · exact packetOf_fits [97] (by decide) ⟨by decide, by decide⟩ (by decide)
  · exact (by decide : Proper ['f'])

def letterFile : File := ⟨letterId, ['f'], filePath ['a'] ['f'], false⟩

/-- The client after the upload. -/
def uploader : Client := { letterOwner with filesList := [letterFile] }

theorem clientsList_uploadedServer : uploadedServer.clientsList = [uploader] := rfl

theorem files_backed_letter : ∃ t,
    (serverRuns (machine letterCipher)).step uploadedServer
        (.delivered letterDraws letterId (.verdict General.invalidCrc4thRequest902 ['f'])) t ∧
      Forgotten (machine letterCipher) uploader ['f'] t := by
  have hfits : (Body.verdict General.invalidCrc4thRequest902 ['f']).Fits :=
    ⟨⟨by decide, by decide⟩, .inr (.inr rfl)⟩
  have hid : letterId.length = General.clientIdSize := rfl
  have hfresh : letterDraws.uuid ∉ uploadedServer.ids := by decide
  have hmem : uploader ∈ uploadedServer.clientsList := by
    rw [clientsList_uploadedServer]
    exact List.mem_cons_self
  have hstep := @step_delivered (machine letterCipher) _ _ _ _
    (plain_layout reachable_uploadedServer).1 hfresh hid hfits
  exact ⟨_, hstep, (files_backed reachable_uploadedServer).2.2.2.2 uploader hmem letterFile
    List.mem_cons_self rfl letterDraws _ _
    (congrArg Reception.incoming (receive_request hid hfits [] .accepted)) hstep⟩

end SecureTransfer
