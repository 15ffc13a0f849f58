import Mathlib.Logic.Relation
import SecureTransfer.Service.Receive

/-!
What a request can do to the server, said once: a few updates, each of the client
that sent the request or, for the last-seen date, of the client it names. Facts
that every update preserves are preserved by every request.
-/

open Octets (Text)
open Effects Act
open Relation (ReflTransGen)

namespace SecureTransfer

def newClient (draws : Draws) (name : Text) : Client :=
  { clientId := draws.uuid, clientName := name, publicKey := [], lastSeenDate := draws.now,
    aesKey := [], filesList := [] }

/-- The file a request is about. -/
def Body.fileName? : Body → Option Text
  | .packet p => some p.fileName
  | .verdict _ fileName => some fileName
  | _ => none

/-- A request that flags a file: its first packet, or the 900 for it. -/
inductive FlaggedBy (file : File) : Body → Bool → Prop where
  | first {p : Packet} (hname : p.fileName = file.fileName) (hfirst : p.packetNumber = 1) :
      FlaggedBy file (.packet p) false
  | valid (hcrc : file.validCrc = false) :
      FlaggedBy file (.verdict General.validCrcRequest900 file.fileName) true

inductive Update (site : Site) (draws : Draws) (clientId : Bytes) (body : Body) :
    Server → Server → Prop where
  | seen {s : Server} {id : Bytes} : Update site draws clientId body s (s.seen draws id)
  | publicKey {s : Server} {name : Text} {key : Bytes}
      (hbody : body = .publicKey name (.done key)) :
      Update site draws clientId body s (s.withPublicKey clientId key)
  | aesKey {s : Server} (hbody : body.fileName? = none) :
      Update site draws clientId body s (s.withAesKey clientId draws.aesKey)
  | write {s : Server} {c : Client} {p : Packet} {truncate : Bool} {content : Bytes}
      {disk : FileTree} (hc : c ∈ s.clientsList) (hid : c.clientId = clientId)
      (hbody : body = .packet p)
      (hstore : s.disk.store site.cwd (filePath c.clientName p.fileName) truncate content =
        some disk) :
      Update site draws clientId body s { s with disk := disk }
  | flag {s : Server} {c : Client} {file : File} {flag : Bool} (hc : c ∈ s.clientsList)
      (hid : c.clientId = clientId) (hfile : file ∈ c.filesList)
      (hby : FlaggedBy file body flag) :
      Update site draws clientId body s (s.flagFile clientId file.fileName flag)
  | record {s : Server} {c : Client} {p : Packet} (hc : c ∈ s.clientsList)
      (hid : c.clientId = clientId) (hbody : body = .packet p) (hfirst : p.packetNumber = 1)
      (hnew : p.fileName ∉ c.filesList.map (·.fileName)) :
      Update site draws clientId body s
        (s.addFile ⟨c.clientId, p.fileName, filePath c.clientName p.fileName, false⟩)
  | discard {s : Server} {c : Client} {file : File} {disk : FileTree}
      (hc : c ∈ s.clientsList) (hid : c.clientId = clientId) (hfile : file ∈ c.filesList)
      (hbody : body = .verdict General.invalidCrc4thRequest902 file.fileName)
      (hcrc : file.validCrc = false)
      (hremove : s.disk.remove site.cwd (filePath c.clientName file.fileName) = some disk) :
      Update site draws clientId body s
        (({ s with disk := disk, db := s.db.deleteFile file.fileName } : Server).dropFile clientId
          file.fileName)
  | register {s : Server} {name : Text} {disk : FileTree}
      (hbody : body = .registration name)
      (hname : name ∉ s.names) (hfresh : draws.uuid ∉ s.ids)
      (hdir : ensureDir site (clientFolder name) s.disk = some disk) :
      Update site draws clientId body s
        (({ s with disk := disk } : Server).addClient (newClient draws name))

abbrev Updates (site : Site) (draws : Draws) (clientId : Bytes) (body : Body) :
    Server → Server → Prop := ReflTransGen (Update site draws clientId body)

section
variable {site : Site} {draws : Draws} {clientId : Bytes} {body : Body} {s t : Server}

theorem Updates.invariant {I : Server → Prop}
    (hstep : ∀ s t, I s → Update site draws clientId body s t → I t)
    (h : Updates site draws clientId body s t) (hs : I s) : I t := by
  induction h with
  | refl => exact hs
  | tail _ hlast ih => exact hstep _ _ ih hlast

theorem Update.wellFormed (hs : WellFormed s) (h : Update site draws clientId body s t) :
    WellFormed t := by
  cases h with
  | seen => exact hs.seen draws
  | publicKey => exact hs.withPublicKey _
  | aesKey => exact hs.withAesKey _
  | write _ _ _ _ => exact hs.withDisk _
  | flag _ _ _ _ => exact hs.flagFile _ _
  | record hc _ _ _ hnew => exact hs.addFile hc rfl rfl hnew
  | @discard _ file disk _ _ _ _ _ _ =>
      have hrows : WellFormed { s with disk := disk, db := s.db.deleteFile file.fileName } :=
        (hs.withDisk disk).deleteFile file.fileName
      apply hrows.dropFile
      intro row hrow _
      simpa using (List.mem_filter.mp hrow).2
  | register _ hname hfresh _ => exact (hs.withDisk _).addClient hfresh hname rfl

theorem Updates.wellFormed (hs : WellFormed s) (h : Updates site draws clientId body s t) :
    WellFormed t := h.invariant (fun _ _ hs h => h.wellFormed hs) hs

theorem named?_none {name : Text} (h : s.named? name = none) :
    name ∉ s.names := by
  intro hmem
  obtain ⟨c, hc, hname⟩ := List.mem_map.mp hmem
  simpa [hname] using List.find?_eq_none.mp h c hc

theorem find?_fileName_none {files : List File} {name : Text}
    (h : files.find? (·.fileName = name) = none) : name ∉ files.map (·.fileName) := by
  intro hmem
  obtain ⟨f, hf, hname⟩ := List.mem_map.mp hmem
  simpa [hname] using List.find?_eq_none.mp h f hf

theorem find?_fileName_some {files : List File} {name : Text} {f : File}
    (h : files.find? (·.fileName = name) = some f) : f ∈ files ∧ f.fileName = name :=
  ⟨List.mem_of_find?_eq_some h, by simpa using List.find?_some h⟩

end

theorem Tables.deleteFile_eq_self {t : Tables} {fileName : Text}
    (h : ¬ t.files.any (·.fileName = fileName) = true) : t.deleteFile fileName = t := by
  have hfiles : (t.files.filter fun r => r.fileName ≠ fileName) = t.files := by
    rw [List.filter_eq_self]
    intro r hr
    simpa using fun he : r.fileName = fileName =>
      h (List.any_eq_true.mpr ⟨r, hr, by simpa using he⟩)
  rw [Tables.deleteFile, hfiles]

/-! Serving a request makes a sequence of updates. -/

section
variable (site : Site) (draws : Draws) {s : Server}

theorem serveRegistration_updates (hfresh : draws.uuid ∉ s.ids) (clientId : Bytes)
    (name : Text) : Updates site draws clientId (.registration name) s
      (serveRegistration site draws s name).1 := by
  unfold serveRegistration
  split
  · exact .single .seen
  · rename_i hnone
    split
    · exact .refl
    · rename_i hdir
      exact .single (.register rfl (named?_none hnone) hfresh hdir)

theorem sendNewAesKey_updates (code : Nat) (clientId publicKey : Bytes) {body : Body}
    (hbody : body.fileName? = none) : Updates site draws clientId body s
      (sendNewAesKey site draws s code clientId publicKey).1 := by
  unfold sendNewAesKey
  split <;> exact .single (.aesKey hbody)

theorem serveReconnection_updates (clientId : Bytes) (name : Text) :
    Updates site draws clientId (.reconnection name) s
      (serveReconnection site draws s clientId name).1 := by
  unfold serveReconnection
  split
  · exact .refl
  · split
    · exact .refl
    · simp only
      split
      · exact .single .seen
      · exact .head .seen (sendNewAesKey_updates site draws _ _ _ rfl)

theorem servePublicKey_updates (clientId : Bytes) (name : Text)
    (key : Outcome PyError Bytes) : Updates site draws clientId (.publicKey name key) s
      (servePublicKey site draws s clientId name key).1 := by
  unfold servePublicKey
  split
  · exact .refl
  · split
    · exact .refl
    · split
      · exact .refl
      · exact .refl
      · exact .head (.publicKey rfl) (.head .seen (sendNewAesKey_updates site draws _ _ _ rfl))

theorem finishUpload_updates {c c' : Client} (hc : c' ∈ s.clientsList)
    (hname : c'.clientName = c.clientName) {file : File} (p : Packet)
    (hpath : file.path = filePath c.clientName file.fileName)
    (hfile : file.fileName = p.fileName) :
    Updates site draws c'.clientId (.packet p) s (finishUpload site s c file p).1 := by
  unfold finishUpload
  split
  · exact .refl
  · split
    · exact .refl
    · rename_i hstore
      rw [hpath, ← hname, hfile] at hstore
      simp only
      split <;> exact .single (.write hc rfl rfl hstore)

/-- The record of a packet is made or reset for the client it belongs to, which has
the same names as `c`. -/
theorem recordPacket_updates {c c' : Client} (hc : c' ∈ s.clientsList)
    (hid : c'.clientId = c.clientId) (hname : c'.clientName = c.clientName)
    (hfiles : c'.filesList = c.filesList) (hs : WellFormed s) {p : Packet} {t : Server}
    {file : File} (h : recordPacket s c p = some (t, file)) :
    Updates site draws c.clientId (.packet p) s t ∧ file.fileName = p.fileName ∧
      file.path = filePath c.clientName file.fileName ∧
      ∃ c'' ∈ t.clientsList, c''.clientId = c.clientId ∧ c''.clientName = c.clientName := by
  unfold recordPacket at h
  split at h
  · rename_i f hf
    obtain ⟨hmem, hfname⟩ := find?_fileName_some hf
    simp only [Option.some.injEq, Prod.mk.injEq] at h
    obtain ⟨rfl, rfl⟩ := h
    have hpath : f.path = filePath c.clientName f.fileName := by
      rw [← hname]
      exact (hs.owns c' hc f (hfiles ▸ hmem)).2
    split
    · rename_i hfirst
      have hflag := @Update.flag site draws c.clientId _ s c' f _ hc hid (hfiles ▸ hmem)
        (.first hfname.symm hfirst)
      rw [hfname] at hflag
      refine ⟨.single hflag, hfname, hpath, _, Server.mem_flagFile.mpr ⟨c', hc, rfl⟩, ?_⟩
      rw [if_pos hid]
      exact ⟨hid, hname⟩
    · exact ⟨.refl, hfname, hpath, c', hc, hid, hname⟩
  · rename_i hnone
    split at h
    · rename_i hfirst
      simp only [Option.some.injEq, Prod.mk.injEq] at h
      obtain ⟨rfl, rfl⟩ := h
      refine ⟨?_, rfl, rfl, _, Server.mem_addFile.mpr ⟨c', hc, rfl⟩, ?_⟩
      · have hnew : p.fileName ∉ c'.filesList.map (·.fileName) := by
          rw [hfiles]
          exact find?_fileName_none hnone
        rw [← hid, ← hname]
        exact .single (.record hc rfl rfl hfirst hnew)
      · rw [if_pos hid]
        exact ⟨hid, hname⟩
    · cases h

/-- A packet changes nothing, or is written and what follows is done after that. -/
theorem servePacket_written (hs : WellFormed s) (clientId : Bytes) (p : Packet) :
    (servePacket site draws s clientId p).1 = s ∨
      ∃ c ∈ s.clientsList, c.clientId = clientId ∧ ∃ disk,
        s.disk.store site.cwd (filePath c.clientName p.fileName) (p.packetNumber = 1)
          p.content = some disk ∧
        Updates site draws clientId (.packet p)
          (({ s with disk := disk } : Server).seen draws clientId)
          (servePacket site draws s clientId p).1 := by
  rw [servePacket]
  split
  · exact .inl rfl
  · rename_i c hc
    obtain ⟨hmem, rfl⟩ := Server.client?_eq_some hc
    split
    · exact .inl rfl
    · rename_i disk hstore
      refine .inr ⟨c, hmem, rfl, disk, hstore, ?_⟩
      have hseen : WellFormed (({ s with disk := disk } : Server).seen draws c.clientId) :=
        (hs.withDisk disk).seen draws
      have hc' : { c with lastSeenDate := draws.now } ∈
          (({ s with disk := disk } : Server).seen draws c.clientId).clientsList :=
        Server.mem_updateRow.mpr ⟨c, hmem, if_pos rfl⟩
      simp only
      split
      · exact .refl
      · rename_i t file hrecord
        obtain ⟨hrec, hfname, hpath, c'', hc'', hid, hname⟩ :=
          recordPacket_updates site draws hc' rfl rfl rfl hseen hrecord
        split
        · refine hrec.trans ?_
          rw [← hid]
          exact finishUpload_updates site draws hc'' hname p hpath hfname
        · exact hrec

theorem servePacket_updates (hs : WellFormed s) (clientId : Bytes) (p : Packet) :
    Updates site draws clientId (.packet p) s (servePacket site draws s clientId p).1 := by
  obtain heq | ⟨c, hmem, rfl, disk, hstore, hrest⟩ := servePacket_written site draws hs clientId p
  · rw [heq]
  · exact .head (.write hmem rfl rfl hstore) (.head .seen hrest)

/-- The file, its record and the rows with its name are gone, also when there was no row to
delete and the request is rejected. -/
theorem discardFile_removed {clientId : Bytes} {file : File} {disk : FileTree}
    (hremove : s.disk.remove site.cwd file.path = some disk) :
    (discardFile site s clientId file).1 =
      ({ s with disk := disk, db := s.db.deleteFile file.fileName } : Server).dropFile clientId
        file.fileName := by
  simp only [discardFile, hremove]
  by_cases hany : s.db.files.any (·.fileName = file.fileName)
  · have hrows : (({ s with disk := disk } : Server).dropFile clientId
        file.fileName).deleteRows file.fileName = some
        (({ s with disk := disk, db := s.db.deleteFile file.fileName } : Server).dropFile
          clientId file.fileName) := if_pos hany
    simp only [hrows]
  · have hrows : (({ s with disk := disk } : Server).dropFile clientId
        file.fileName).deleteRows file.fileName = none := if_neg hany
    simp only [hrows, Tables.deleteFile_eq_self hany]

theorem discardFile_updates {c : Client} (hc : c ∈ s.clientsList) {file : File}
    (hfile : file ∈ c.filesList) (hpath : file.path = filePath c.clientName file.fileName)
    (hcrc : file.validCrc = false) :
    Updates site draws c.clientId (.verdict General.invalidCrc4thRequest902 file.fileName) s
      (discardFile site s c.clientId file).1 := by
  cases hremove : s.disk.remove site.cwd file.path with
  | none =>
      simp only [discardFile, hremove]
      exact .refl
  | some disk =>
      rw [discardFile_removed site hremove]
      rw [hpath] at hremove
      exact .single (.discard hc rfl hfile rfl hcrc hremove)

theorem serveVerdict_updates (hs : WellFormed s) (clientId : Bytes) (code : Nat)
    (fileName : Text) : Updates site draws clientId (.verdict code fileName) s
      (serveVerdict site draws s clientId code fileName).1 := by
  unfold serveVerdict
  split
  · exact .refl
  · rename_i c hc
    obtain ⟨hmem, rfl⟩ := Server.client?_eq_some hc
    have hc' : { c with lastSeenDate := draws.now } ∈ (s.seen draws c.clientId).clientsList :=
      Server.mem_updateRow.mpr ⟨c, hmem, if_pos rfl⟩
    have hseen : Updates site draws c.clientId (.verdict code fileName) s
        (s.seen draws c.clientId) := .single .seen
    simp only
    split
    · exact hseen
    · rename_i f hf
      obtain ⟨hfmem, rfl⟩ := find?_fileName_some hf
      split
      · exact hseen
      · rename_i hcrc
        have hcrc : f.validCrc = false := by simpa using hcrc
        split
        · rename_i hcode
          subst hcode
          exact hseen.tail (.flag hc' rfl hfmem (.valid hcrc))
        · split
          · rename_i hcode
            subst hcode
            exact hseen.trans (discardFile_updates site draws hc' hfmem
              (hs.owns c hmem f hfmem).2 hcrc)
          · exact hseen

theorem serve_updates (hs : WellFormed s) (hfresh : draws.uuid ∉ s.ids) (clientId : Bytes)
    (body : Body) : Updates site draws clientId body s (serve site draws s clientId body).1 := by
  cases body with
  | registration name => exact serveRegistration_updates site draws hfresh clientId name
  | reconnection name => exact serveReconnection_updates site draws clientId name
  | publicKey name key => exact servePublicKey_updates site draws clientId name key
  | packet p => exact servePacket_updates site draws hs clientId p
  | verdict code fileName => exact serveVerdict_updates site draws hs clientId code fileName

theorem serve_wellFormed (hs : WellFormed s) (hfresh : draws.uuid ∉ s.ids) (clientId : Bytes)
    (body : Body) : WellFormed (serve site draws s clientId body).1 :=
  (serve_updates site draws hs hfresh clientId body).wellFormed hs

end
end SecureTransfer
