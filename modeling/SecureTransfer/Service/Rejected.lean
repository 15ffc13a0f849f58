import SecureTransfer.Service.EndToEnd

/-!
What a packet leaves behind when it is answered with a 1607. The bytes are written before
the record is looked up, the record is made or reset before the file is decrypted, and the
decrypted bytes are written before their number is checked.
-/

open Octets (Text)
open Effects Act

namespace SecureTransfer

namespace Server

/-- The ids of the clients with their file records. -/
def fileRecords (s : Server) : List (Bytes × List File) :=
  s.clientsList.map fun c => (c.clientId, c.filesList)

end Server

/-- The same files on disk, records and rows. -/
structure Unchanged (s t : Server) : Prop where
  files : t.disk.file = s.disk.file
  records : t.fileRecords = s.fileRecords
  rows : t.db.files = s.db.files

theorem Unchanged.refl (s : Server) : Unchanged s s := ⟨rfl, rfl, rfl⟩

/-- The bytes at the path of a packet once it is written there. -/
def Packet.written (p : Packet) (old : Bytes) : Bytes :=
  (if p.packetNumber = 1 then [] else old) ++ p.content

/-- Where a packet is written, the bytes were there before and no flag is reset. -/
def Harmless (site : Site) (s : Server) (clientId : Bytes) (p : Packet) : Prop :=
  ∀ c q, s.client? clientId = some c →
    s.disk.locate site.cwd (filePath c.clientName p.fileName) = some q →
    s.disk.isDir q = false →
    ∃ old, s.disk.file q = some old ∧
      (p.fileName ∉ c.filesList.map (·.fileName) ∧ p.packetNumber ≠ 1 ∧ p.content = [] ∨
        ∃ file ∈ c.filesList, file.fileName = p.fileName ∧
          (decryptContent site c.aesKey (p.written old)).getD (p.written old) = old ∧
          (p.packetNumber = 1 → file.validCrc = false ∧
            ∀ row ∈ s.db.files, row.clientId = clientId → row.validCrc = false))

section
variable {s t : Server} {clientId : Bytes}

theorem fileRecords_updateFiles_iff {g : List File → List File} :
    (s.updateFiles clientId g).fileRecords = s.fileRecords ↔
      ∀ c ∈ s.clientsList, c.clientId = clientId → g c.filesList = c.filesList := by
  rw [Server.fileRecords, Server.fileRecords, Server.updateFiles, List.map_map,
    List.map_inj_left]
  refine forall_congr' fun c => forall_congr' fun _ => ?_
  simp only [Function.comp_apply]
  split
  · rename_i hid
    simp [hid]
  · rename_i hid
    simp [hid]

theorem fileRecords_seen (draws : Draws) : (s.seen draws clientId).fileRecords = s.fileRecords := by
  rw [Server.fileRecords, Server.fileRecords, Server.seen, Server.updateRow, List.map_map]
  apply List.map_congr_left
  intro c _
  simp only [Function.comp_apply]
  split <;> rfl

theorem map_unflag_iff {files : List File} (P : File → Prop) [DecidablePred P] :
    (files.map fun f => if P f then { f with validCrc := false } else f) = files ↔
      ∀ f ∈ files, P f → f.validCrc = false := by
  conv_lhs => rhs; rw [← List.map_id files]
  rw [List.map_inj_left]
  refine forall_congr' fun f => forall_congr' fun _ => ?_
  obtain ⟨id, name, path, flag⟩ := f
  simp only [id_eq]
  split
  · rename_i hP
    simp [hP, eq_comm]
  · rename_i hP
    simp [hP]

/-- Resetting a file changes nothing exactly when it is not flagged, and no row of its
client is. -/
theorem flagFile_unchanged_iff (hs : WellFormed s) {c : Client} (hc : c ∈ s.clientsList)
    {file : File} (hfile : file ∈ c.filesList) :
    (s.flagFile c.clientId file.fileName false).fileRecords = s.fileRecords ∧
        (s.flagFile c.clientId file.fileName false).db.files = s.db.files ↔
      file.validCrc = false ∧
        ∀ row ∈ s.db.files, row.clientId = c.clientId → row.validCrc = false := by
  have hrecords : (s.flagFile c.clientId file.fileName false).fileRecords =
      (s.updateFiles c.clientId fun files => files.map fun f =>
        if f.fileName = file.fileName then { f with validCrc := false } else f).fileRecords := rfl
  have hrows : (s.flagFile c.clientId file.fileName false).db.files = s.db.files.map fun r =>
      if r.clientId = c.clientId then { r with validCrc := false } else r := rfl
  rw [hrecords, hrows, fileRecords_updateFiles_iff, map_unflag_iff]
  refine and_congr ?_ Iff.rfl
  constructor
  · intro h
    exact (map_unflag_iff _).mp (h c hc rfl) file hfile rfl
  · intro h c' hc' hid
    obtain rfl := Keyed.eq_of_key_eq (fun x : Client => x.clientId) hs.idsDistinct hc' hc hid
    refine (map_unflag_iff _).mpr fun f hf hname => ?_
    rwa [Keyed.eq_of_key_eq (fun x : File => x.fileName) (hs.fileNamesDistinct c' hc) hf
      hfile hname]

theorem fileRecords_addFile_ne {c : Client} (hc : c ∈ s.clientsList) {file : File}
    (hid : c.clientId = file.clientId) : (s.addFile file).fileRecords ≠ s.fileRecords := by
  have hrecords : (s.addFile file).fileRecords =
      (s.updateFiles file.clientId (· ++ [file])).fileRecords := rfl
  rw [hrecords, Ne, fileRecords_updateFiles_iff]
  intro h
  simpa using congrArg List.length (h c hc hid)

end

section
variable (site : Site) (draws : Draws) {s : Server} {clientId : Bytes} {p : Packet}

/-- A last packet leaves what its path holds, decrypted if it can be. -/
theorem finishUpload_stored {c : Client} {file : File} {q : Location} {content : Bytes}
    (hq : s.disk.locate site.cwd file.path = some q) (hd : s.disk.isDir q = false)
    (hcontent : s.disk.file q = some content) :
    (finishUpload site s c file p).1 = { s with
      disk := s.disk.setFile q (some ((decryptContent site c.aesKey content).getD content)) } := by
  have hread : s.disk.readFile site.cwd file.path = some content :=
    FileTree.readFile_eq_some.mpr ⟨q, hq, hd, hcontent⟩
  simp only [finishUpload, hread, Option.bind_some]
  cases hplain : decryptContent site c.aesKey content with
  | none =>
      have hsame : s.disk.setFile q (some content) = s.disk := by
        rw [FileTree.setFile, ← hcontent, Function.update_eq_self]
      simp only [Option.getD_none, hsame]
  | some plain =>
      have hstore : s.disk.store site.cwd file.path true plain =
          some (s.disk.setFile q (some plain)) :=
        FileTree.store_eq_some.mpr ⟨q, hq, hd, rfl⟩
      simp only [hstore]
      split <;> rfl

/-- It is answered if the bytes decrypt to as many as it announces. -/
theorem finishUpload_answered_iff {c : Client} {file : File} {q : Location} {content : Bytes}
    (hq : s.disk.locate site.cwd file.path = some q) (hd : s.disk.isDir q = false)
    (hcontent : s.disk.file q = some content) {m : Message} :
    (finishUpload site s c file p).2 = .answer m ↔
      ∃ plain, decryptContent site c.aesKey content = some plain ∧
        p.origFileSize = plain.length ∧
        m = .fileReceived c.clientId p.contentSize file.fileName (Cksum.memcrc plain) := by
  have hread : s.disk.readFile site.cwd file.path = some content :=
    FileTree.readFile_eq_some.mpr ⟨q, hq, hd, hcontent⟩
  simp only [finishUpload, hread, Option.bind_some]
  cases decryptContent site c.aesKey content with
  | none => simp
  | some plain =>
      have hstore : s.disk.store site.cwd file.path true plain =
          some (s.disk.setFile q (some plain)) :=
        FileTree.store_eq_some.mpr ⟨q, hq, hd, rfl⟩
      simp only [hstore]
      split
      · rename_i hsize
        simp [hsize, eq_comm]
      · rename_i hsize
        simp [hsize]

/-- The server once a packet is written and its client seen. -/
def Server.wrote (s : Server) (draws : Draws) (clientId : Bytes) (q : Location) (p : Packet) :
    Server :=
  ({ s with
    disk := s.disk.setFile q (some (p.written ((s.disk.file q).getD []))) } : Server).seen draws
      clientId

theorem servePacket_eq {c : Client} {q : Location} (hc : s.client? clientId = some c)
    (hq : s.disk.locate site.cwd (filePath c.clientName p.fileName) = some q)
    (hd : s.disk.isDir q = false) :
    servePacket site draws s clientId p =
      match recordPacket (s.wrote draws clientId q p) c p with
      | none => (s.wrote draws clientId q p, .rejected)
      | some (t, file) =>
          if p.packetNumber = p.totalPackets then finishUpload site t c file p
          else (t, .silent) := by
  have hstore : s.disk.store site.cwd (filePath c.clientName p.fileName) (p.packetNumber = 1)
      p.content = some (s.disk.setFile q (some (p.written ((s.disk.file q).getD [])))) := by
    refine FileTree.store_eq_some.mpr ⟨q, hq, hd, ?_⟩
    simp only [decide_eq_true_eq, Packet.written]
  simp only [servePacket, hc, hstore]
  rfl

theorem servePacket_unwritable (h : ∀ c q, s.client? clientId = some c →
      s.disk.locate site.cwd (filePath c.clientName p.fileName) = some q → s.disk.isDir q ≠ false) :
    servePacket site draws s clientId p = (s, .rejected) := by
  rw [servePacket]
  split
  · rfl
  · rename_i c hc
    split
    · rfl
    · rename_i disk hstore
      obtain ⟨q, hq, hd, -⟩ := FileTree.store_eq_some.mp hstore
      exact absurd hd (h c q hc hq)

/-- What a packet leaves at its path once its record is found or made. -/
theorem servePacket_recorded {c : Client} {q : Location} {t : Server} {file : File}
    (hc : s.client? clientId = some c)
    (hq : s.disk.locate site.cwd (filePath c.clientName p.fileName) = some q)
    (hd : s.disk.isDir q = false)
    (hrecord : recordPacket (s.wrote draws clientId q p) c p = some (t, file))
    (hpath : file.path = filePath c.clientName p.fileName)
    (hdisk : t.disk = (s.wrote draws clientId q p).disk) :
    (servePacket site draws s clientId p).1 = { t with
      disk := s.disk.setFile q (some (if p.packetNumber = p.totalPackets then
        (decryptContent site c.aesKey (p.written ((s.disk.file q).getD []))).getD
          (p.written ((s.disk.file q).getD []))
        else p.written ((s.disk.file q).getD []))) } := by
  have hserve := servePacket_eq site draws hc hq hd
  simp only [hrecord] at hserve
  have hsetFile : t.disk = s.disk.setFile q (some (p.written ((s.disk.file q).getD []))) := hdisk
  rw [hserve]
  split
  · rw [@finishUpload_stored site _ _ _ _ q (p.written ((s.disk.file q).getD [])), hsetFile,
      FileTree.setFile_setFile]
    · rw [hsetFile, FileTree.locate_setFile, hpath, hq]
    · rw [hsetFile]
      exact hd
    · rw [hsetFile, FileTree.setFile_file_self]
  · rw [← hsetFile]

/-- A packet with a record is rejected only if it is the last one. -/
theorem last_of_rejected {c : Client} {q : Location} {t : Server} {file : File}
    (hc : s.client? clientId = some c)
    (hq : s.disk.locate site.cwd (filePath c.clientName p.fileName) = some q)
    (hd : s.disk.isDir q = false)
    (hrecord : recordPacket (s.wrote draws clientId q p) c p = some (t, file))
    (hrejected : (servePacket site draws s clientId p).2 = .rejected) :
    p.packetNumber = p.totalPackets := by
  have hserve := servePacket_eq site draws hc hq hd
  simp only [hrecord] at hserve
  rw [hserve] at hrejected
  split at hrejected
  · assumption
  · cases hrejected

/-- The file at `q` is what it was. -/
theorem setFile_unchanged_iff {disk : FileTree} {q : Location} {content : Bytes} :
    (disk.setFile q (some content)).file = disk.file ↔ disk.file q = some content :=
  Function.update_eq_self_iff.trans eq_comm

/-- What a packet does to the flags of a file that has a record. -/
theorem reset_unchanged_iff (q : Location) (hs : WellFormed s) {c : Client}
    (hc : c ∈ s.clientsList) (hid : c.clientId = clientId) {file : File}
    (hfile : file ∈ c.filesList) (hname : file.fileName = p.fileName) :
    (let t := s.wrote draws clientId q p
      let t := if p.packetNumber = 1 then t.flagFile c.clientId p.fileName false else t
      t.fileRecords = s.fileRecords ∧ t.db.files = s.db.files) ↔
      (p.packetNumber = 1 → file.validCrc = false ∧
        ∀ row ∈ s.db.files, row.clientId = clientId → row.validCrc = false) := by
  subst hid
  have hrecords : (s.wrote draws c.clientId q p).fileRecords = s.fileRecords :=
    fileRecords_seen draws
  have hrows : (s.wrote draws c.clientId q p).db.files = s.db.files := rfl
  by_cases hone : p.packetNumber = 1
  · have hc' : { c with lastSeenDate := draws.now } ∈ (s.wrote draws c.clientId q p).clientsList :=
      Server.mem_updateRow.mpr ⟨c, hc, if_pos rfl⟩
    have hwell : WellFormed (s.wrote draws c.clientId q p) := (hs.withDisk _).seen draws
    have hiff := flagFile_unchanged_iff hwell hc' hfile
    rw [hrecords, hrows, hname] at hiff
    simp only [hone, if_true, true_implies]
    exact hiff
  · simp only [hone, if_false, false_implies, iff_true]
    exact ⟨hrecords, hrows⟩

theorem harmless_iff {c : Client} {q : Location} (hc : s.client? clientId = some c)
    (hq : s.disk.locate site.cwd (filePath c.clientName p.fileName) = some q)
    (hd : s.disk.isDir q = false) :
    Harmless site s clientId p ↔ ∃ old, s.disk.file q = some old ∧
      (p.fileName ∉ c.filesList.map (·.fileName) ∧ p.packetNumber ≠ 1 ∧ p.content = [] ∨
        ∃ file ∈ c.filesList, file.fileName = p.fileName ∧
          (decryptContent site c.aesKey (p.written old)).getD (p.written old) = old ∧
          (p.packetNumber = 1 → file.validCrc = false ∧
            ∀ row ∈ s.db.files, row.clientId = clientId → row.validCrc = false)) := by
  constructor
  · intro h
    exact h c q hc hq hd
  · intro h c' q' hc' hq' _
    obtain rfl := Option.some.inj (hc'.symm.trans hc)
    obtain rfl := Option.some.inj (hq'.symm.trans hq)
    exact h

/-- A rejected packet of a file with a record is the last one. -/
theorem unchanged_iff_of_found (hs : WellFormed s) {c : Client} {q : Location} {file : File}
    (hc : s.client? clientId = some c)
    (hq : s.disk.locate site.cwd (filePath c.clientName p.fileName) = some q)
    (hd : s.disk.isDir q = false)
    (hfind : c.filesList.find? (·.fileName = p.fileName) = some file)
    (hrejected : (servePacket site draws s clientId p).2 = .rejected) :
    Unchanged s (servePacket site draws s clientId p).1 ↔ Harmless site s clientId p := by
  obtain ⟨hmem, hid⟩ := Server.client?_eq_some hc
  obtain ⟨hfile, hname⟩ := find?_fileName_some hfind
  have hpath : file.path = filePath c.clientName p.fileName := by
    rw [(hs.owns c hmem file hfile).2, hname]
  have hrecord := recordPacket_found (s := s.wrote draws clientId q p) hfind
  have hlast := last_of_rejected site draws hc hq hd hrecord hrejected
  have hflags := reset_unchanged_iff draws q hs hmem hid hfile hname
  rw [harmless_iff site hc hq hd,
    servePacket_recorded site draws hc hq hd hrecord hpath (by split <;> rfl), if_pos hlast]
  constructor
  · intro h
    have hstored := setFile_unchanged_iff.mp h.files
    obtain ⟨old, hold⟩ : ∃ old, s.disk.file q = some old := ⟨_, hstored⟩
    rw [hold, Option.getD_some, Option.some.injEq] at hstored
    exact ⟨old, hold, .inr ⟨file, hfile, hname, hstored.symm, hflags.mp ⟨h.records, h.rows⟩⟩⟩
  · intro h
    obtain ⟨old, hold, ⟨hnone, -⟩ | ⟨file', hfile', hname', hsame, hreset⟩⟩ := h
    · exact absurd (List.mem_map.mpr ⟨file, hfile, hname⟩) hnone
    · obtain rfl := Keyed.eq_of_key_eq (fun x : File => x.fileName)
        (hs.fileNamesDistinct c hmem) hfile' hfile (hname'.trans hname.symm)
      obtain ⟨hrec, hrow⟩ := hflags.mpr hreset
      refine ⟨setFile_unchanged_iff.mpr ?_, hrec, hrow⟩
      rw [hold, Option.getD_some, hsame]

/-- A packet numbered 1 makes the record of a new file. -/
theorem unchanged_iff_of_new {c : Client} {q : Location} (hc : s.client? clientId = some c)
    (hq : s.disk.locate site.cwd (filePath c.clientName p.fileName) = some q)
    (hd : s.disk.isDir q = false)
    (hfind : c.filesList.find? (·.fileName = p.fileName) = none) (hone : p.packetNumber = 1) :
    Unchanged s (servePacket site draws s clientId p).1 ↔ Harmless site s clientId p := by
  obtain ⟨hmem, hid⟩ := Server.client?_eq_some hc
  have hrecords : (s.wrote draws clientId q p).fileRecords = s.fileRecords :=
    fileRecords_seen draws
  have hrecord := recordPacket_new (s := s.wrote draws clientId q p) hfind hone
  rw [harmless_iff site hc hq hd, servePacket_recorded site draws hc hq hd hrecord rfl rfl]
  refine iff_of_false (fun h => ?_) ?_
  · have hc' : { c with lastSeenDate := draws.now } ∈ (s.wrote draws clientId q p).clientsList :=
      Server.mem_updateRow.mpr ⟨c, hmem, if_pos hid⟩
    exact fileRecords_addFile_ne hc' rfl (h.records.trans hrecords.symm)
  · intro h
    obtain ⟨old, -, ⟨-, hother, -⟩ | ⟨file, hfile, hname, -⟩⟩ := h
    · exact hother hone
    · exact find?_fileName_none hfind (List.mem_map.mpr ⟨file, hfile, hname⟩)

/-- Another packet of a file without a record is appended all the same. -/
theorem unchanged_iff_of_orphan {c : Client} {q : Location} (hc : s.client? clientId = some c)
    (hq : s.disk.locate site.cwd (filePath c.clientName p.fileName) = some q)
    (hd : s.disk.isDir q = false)
    (hfind : c.filesList.find? (·.fileName = p.fileName) = none) (hone : p.packetNumber ≠ 1) :
    Unchanged s (servePacket site draws s clientId p).1 ↔ Harmless site s clientId p := by
  have hnew := find?_fileName_none hfind
  have hrecords : (s.wrote draws clientId q p).fileRecords = s.fileRecords :=
    fileRecords_seen draws
  have hnone : recordPacket (s.wrote draws clientId q p) c p = none := by
    simp only [recordPacket, hfind, if_neg hone]
  have hwritten : ∀ old, p.written old = old ++ p.content := fun old => by
    rw [Packet.written, if_neg hone]
  rw [harmless_iff site hc hq hd, servePacket_eq site draws hc hq hd]
  simp only [hnone]
  constructor
  · intro h
    have hstored := setFile_unchanged_iff.mp h.files
    refine ⟨_, hstored, .inl ⟨hnew, hone, ?_⟩⟩
    rw [hwritten] at hstored
    cases hold : s.disk.file q with
    | none => rw [hold] at hstored; cases hstored
    | some old => simpa [hold] using hstored
  · intro h
    obtain ⟨old, hold, ⟨-, -, hempty⟩ | ⟨file, hfile, hname, -⟩⟩ := h
    · refine ⟨setFile_unchanged_iff.mpr ?_, hrecords, rfl⟩
      rw [hwritten, hold, hempty, Option.getD_some, List.append_nil]
    · exact absurd (List.mem_map.mpr ⟨file, hfile, hname⟩) hnew

theorem servePacket_unchanged_iff (hs : WellFormed s)
    (hrejected : (servePacket site draws s clientId p).2 = .rejected) :
    Unchanged s (servePacket site draws s clientId p).1 ↔ Harmless site s clientId p := by
  by_cases hwritable : ∃ c q, s.client? clientId = some c ∧
      s.disk.locate site.cwd (filePath c.clientName p.fileName) = some q ∧ s.disk.isDir q = false
  · obtain ⟨c, q, hc, hq, hd⟩ := hwritable
    cases hfind : c.filesList.find? (·.fileName = p.fileName) with
    | some file => exact unchanged_iff_of_found site draws hs hc hq hd hfind hrejected
    | none =>
        by_cases hone : p.packetNumber = 1
        · exact unchanged_iff_of_new site draws hc hq hd hfind hone
        · exact unchanged_iff_of_orphan site draws hc hq hd hfind hone
  · rw [servePacket_unwritable site draws fun c q hc hq hd => hwritable ⟨c, q, hc, hq, hd⟩]
    refine iff_of_true (.refl s) fun c q hc hq hd => absurd ⟨c, q, hc, hq, hd⟩ hwritable

/-- The callback found the header of an 828. -/
def Uploading (c : Conn) : Prop :=
  ∃ r c', Request.getHeader.run c = (.done (some r), c') ∧ r.code = General.sendFileRequest828

theorem Uploading.receive {c : Conn} (h : Uploading c) :
    (∃ clientId p conn, receive c = ⟨.request clientId (.packet p), conn, conn⟩) ∨
      ∀ clientId body, (receive c).incoming ≠ .request clientId body := by
  obtain ⟨r, c', hheader, hcode⟩ := h
  have h825 : ¬ r.code = General.registrationRequest825 := by rw [hcode]; decide
  have h827 : ¬ r.code = General.reconnectionRequest827 := by rw [hcode]; decide
  have h826 : ¬ r.code = General.sendPublicKeyRequest826 := by rw [hcode]; decide
  rw [receive_of_header hheader, Reception.ofHeader, if_neg h825, if_neg h827, if_neg h826]
  split
  · exact .inr fun _ _ => Incoming.noConfusion
  · obtain ⟨o, conn⟩ := (Request.recvPacket r.payloadSize).run c'
    cases o with
    | done p => exact .inl ⟨r.clientId, p, conn, rfl⟩
    | raised e => exact .inr fun _ _ => Incoming.noConfusion
    | blocked => exact .inr fun _ _ => Incoming.noConfusion

theorem uploading_request {clientId : Bytes} (hid : clientId.length = General.clientIdSize)
    (hfits : p.Fits) (rest : Bytes) (c : Conn) :
    Uploading (c.withAvail (requestBytes clientId (.packet p) ++ rest)) := by
  have hbody : (Body.packet p).Fits := hfits
  have hheader := getHeader_frame hid (Body.code_lt hbody) (Body.payload_lt hbody)
    ((Body.packet p).payload ++ rest) c
  rw [← List.append_assoc, ← requestBytes] at hheader
  exact ⟨_, _, hheader, rfl⟩

/-- A packet is read whole before it is served. -/
theorem servePacket_read : (servePacket site draws s clientId p).2 ≠ .rejectedUnread := by
  have hfinish : ∀ t c file, (finishUpload site t c file p).2 ≠ .rejectedUnread := by
    intro t c file
    rw [finishUpload]
    split
    · exact Reply.noConfusion
    · split
      · exact Reply.noConfusion
      · simp only
        split <;> exact Reply.noConfusion
  rw [servePacket]
  split
  · exact Reply.noConfusion
  · split
    · exact Reply.noConfusion
    · simp only
      split
      · exact Reply.noConfusion
      · split
        · exact hfinish _ _ _
        · exact Reply.noConfusion

/-- An 828 that is answered with a 1607 leaves files, records and rows as they were exactly
if it is harmless, whatever the state and the connection. On a site no path of the 828, or of
one before it, leads to the database. -/
theorem rejected_upload_unchanged_iff (hs : Reachable site s) (hfresh : draws.uuid ∉ s.ids)
    (c : Conn) (hupload : Uploading c)
    (hanswer : ((read site draws).run (calm s c)).2.conn.answers =
      c.answers ++ [⟨General.generalError1607, 0⟩]) :
    Unchanged s ((read site draws).run (calm s c)).2.server ↔
      ∀ clientId p, (receive c).incoming = .request clientId (.packet p) →
        Harmless site s clientId p := by
  have hwell := hs.wellFormed
  rw [read_server site draws hwell hfresh]
  obtain ⟨clientId, p, conn, hreceive⟩ | hsame := hupload.receive
  · have hconn := (receive_sameEnd c).2
    rw [hreceive] at hconn
    rw [read_calm site draws c hwell hfresh, hreceive, ← hconn.answers] at hanswer
    have hrejected : (serve site draws s clientId (.packet p)).2 = .rejected := by
      refine (rejected_of_answers ?_ hanswer).resolve_right (servePacket_read site draws)
      intro m hm
      obtain ⟨hcode, hfits⟩ := serve_answer hm
      refine ⟨hfits, ?_⟩
      rw [List.mem_singleton.mp hcode]
      decide
    have hiff := servePacket_unchanged_iff site draws hwell hrejected
    rw [hreceive]
    refine hiff.trans ⟨fun h id p' hr => ?_, fun h => h _ _ rfl⟩
    cases hr
    exact h
  · have hnext : (receive c).next site draws s = s := by
      rw [Reception.next]
      split
      · rename_i clientId body hr
        exact absurd hr (hsame clientId body)
      · rfl
    rw [hnext]
    exact iff_of_true (.refl s) fun clientId p hr => absurd hr (hsame clientId _)

end

/-- An 828 that arrives whole and is rejected is answered with a 1607. -/
theorem rejected_answers {site : Site} {draws : Draws} {s : Server} {clientId : Bytes} {p : Packet}
    (hs : WellFormed s) (hfresh : draws.uuid ∉ s.ids)
    (hid : clientId.length = General.clientIdSize) (hfits : p.Fits)
    (hrejected : (serve site draws s clientId (.packet p)).2 = .rejected) {c : Conn}
    (hc : c.sendsLeft = none) (rest : Bytes) :
    ((read site draws).run (calm s (c.withAvail
        (requestBytes clientId (.packet p) ++ rest)))).2.conn.answers =
      c.answers ++ [⟨General.generalError1607, 0⟩] := by
  have hbody : (Body.packet p).Fits := hfits
  have hreceive := congrArg Reception.incoming (receive_request hid hbody rest c)
  have hleft : (c.withAvail (requestBytes clientId (.packet p) ++ rest)).sendsLeft = none := hc
  refine (read_answers_iff site draws hs hfresh hleft).mpr ⟨failureMessage false, ?_, rfl⟩
  rw [message_request hreceive, hrejected]
  rfl

/-- Packet 2 of 2 of a file. -/
def laterPacket : Packet := { openingPacket ['f'] with packetNumber := 2 }

theorem fits_laterPacket : laterPacket.Fits :=
  Packet.fits_of_lt (by decide : 4112 < 256 ^ 4) (by decide : 4100 < 256 ^ 4)
    (by decide : 2 < 256 ^ 2) (by decide : 2 < 256 ^ 2) ⟨by decide, by decide⟩
    (by decide : 1 < 2 ^ 31)

/-- The 828 alone on a new connection. -/
def laterConn : Conn :=
  Conn.accepted.withAvail (requestBytes oneClientId (.packet laterPacket) ++ [])

theorem uploading_laterConn : Uploading laterConn :=
  uploading_request rfl fits_laterPacket [] .accepted

theorem receive_laterConn :
    (receive laterConn).incoming = .request oneClientId (.packet laterPacket) :=
  congrArg Reception.incoming
    (@receive_request _ (.packet laterPacket) rfl fits_laterPacket [] .accepted)

theorem laterConn_answers {s : Server} (hs : WellFormed s) (hfresh : (sameDraws 2).uuid ∉ s.ids)
    (hrejected : (serve bareSite (sameDraws 2) s oneClientId (.packet laterPacket)).2 = .rejected) :
    ((read bareSite (sameDraws 2)).run (calm s laterConn)).2.conn.answers =
      laterConn.answers ++ [⟨General.generalError1607, 0⟩] := by
  have hanswers : laterConn.answers = Conn.accepted.answers := rfl
  have hid : oneClientId.length = General.clientIdSize := rfl
  have hleft : Conn.accepted.sendsLeft = none := rfl
  have h := @rejected_answers bareSite (sameDraws 2) s oneClientId laterPacket hs hfresh hid
    fits_laterPacket hrejected Conn.accepted hleft []
  rw [hanswers, laterConn, h]

/-- Nobody is registered and the packet changes nothing. -/
theorem rejected_upload_unchanged_iff_unknown :
    Unchanged startedServer
        ((read bareSite (sameDraws 2)).run (calm startedServer laterConn)).2.server ↔
      ∀ clientId p, (receive laterConn).incoming = .request clientId (.packet p) →
        Harmless bareSite startedServer clientId p :=
  rejected_upload_unchanged_iff bareSite (sameDraws 2) reachable_startedServer (by decide)
    laterConn uploading_laterConn
    (laterConn_answers reachable_startedServer.wellFormed (by decide) rfl)

/-- The client has no record of the file, and the packet makes the file. -/
theorem rejected_upload_changes : ∃ s draws c, Reachable bareSite s ∧ draws.uuid ∉ s.ids ∧
    Uploading c ∧ ((read bareSite draws).run (calm s c)).2.conn.answers =
      c.answers ++ [⟨General.generalError1607, 0⟩] ∧
    s.disk.file [General.folder, ['a'], ['f']] = none ∧
    ((read bareSite draws).run (calm s c)).2.server.disk.file [General.folder, ['a'], ['f']] =
      some [0] := by
  have hw := reachable_oneClient.wellFormed
  have hfresh : (sameDraws 2).uuid ∉ oneClient.ids := by decide
  refine ⟨oneClient, sameDraws 2, laterConn, reachable_oneClient, hfresh, uploading_laterConn,
    laterConn_answers hw hfresh rfl, rfl, ?_⟩
  rw [read_server bareSite _ hw hfresh, Reception.next, receive_laterConn]
  rfl

end SecureTransfer
