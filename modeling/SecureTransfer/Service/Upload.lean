import SecureTransfer.Service.Belongings

/-!
What one packet does to the file it belongs to, and what the last one answers.
-/

open Octets (Text)
open FileTree (Proper)
open Effects Act

namespace SecureTransfer

variable {site : Site} {draws : Draws} {s t : Server}

/-- The client is registered with the same name and key. -/
def Present (owner : Client) (c : Client) : Prop :=
  c.clientId = owner.clientId ∧ c.clientName = owner.clientName ∧ c.aesKey = owner.aesKey

/-- The client has an unverified record of the file, and this content on disk. -/
def Uploaded (site : Site) (owner : Client) (fileName : Text) (content : Bytes) (s : Server) :
    Prop :=
  (∃ c ∈ s.clientsList, Present owner c ∧
    ∃ file ∈ c.filesList, file.fileName = fileName ∧ file.validCrc = false) ∧
  s.disk.file (site.place owner.clientName fileName) = some content

theorem holdings_of_mem (hs : WellFormed s) {c : Client} (hc : c ∈ s.clientsList) :
    s.holdings site c.clientId =
      some (c.undated, fun f => s.disk.file (site.place c.clientName f)) := by
  rw [Server.holdings, Server.client?_of_mem hs.idsDistinct hc]
  rfl

theorem mem_of_holdings {id : Bytes} {c : Client} {contents : Text → Option Bytes}
    (h : s.holdings site id = some (c, contents)) : ∃ c' ∈ s.clientsList, c'.clientId = id ∧
      c'.undated = c ∧ ∀ f, s.disk.file (site.place c.clientName f) = contents f := by
  obtain ⟨c', hc', heq⟩ := Option.map_eq_some_iff.mp h
  obtain ⟨hmem, hid⟩ := Server.client?_eq_some hc'
  simp only [Prod.mk.injEq] at heq
  obtain ⟨rfl, rfl⟩ := heq
  exact ⟨c', hmem, hid, rfl, fun _ => rfl⟩

theorem present_of_holdings (hs : WellFormed s) {owner c : Client} (hc : c ∈ s.clientsList)
    (hp : Present owner c) (h : t.holdings site owner.clientId = s.holdings site owner.clientId) :
    ∃ c' ∈ t.clientsList, Present owner c' ∧ c'.filesList = c.filesList ∧
      ∀ f, t.disk.file (site.place owner.clientName f) =
        s.disk.file (site.place owner.clientName f) := by
  rw [← hp.1, holdings_of_mem hs hc] at h
  obtain ⟨c', hc', hid, hu, hfiles⟩ := mem_of_holdings h
  have hfilesList : c'.undated.filesList = c.undated.filesList := by rw [hu]
  refine ⟨c', hc', ⟨hid.trans hp.1, ?_, ?_⟩, hfilesList, ?_⟩
  · have hname : c'.undated.clientName = c.undated.clientName := by rw [hu]
    exact Eq.trans hname hp.2.1
  · have hkey : c'.undated.aesKey = c.undated.aesKey := by rw [hu]
    exact Eq.trans hkey hp.2.2
  · rw [← hp.2.1]
    exact hfiles

theorem Uploaded.of_holdings (hs : WellFormed s) {owner : Client} {fileName : Text}
    {content : Bytes} (hup : Uploaded site owner fileName content s)
    (h : t.holdings site owner.clientId = s.holdings site owner.clientId) :
    Uploaded site owner fileName content t := by
  obtain ⟨⟨c, hc, hp, hfile⟩, hdisk⟩ := hup
  obtain ⟨c', hc', hp', hfiles, hsame⟩ := present_of_holdings hs hc hp h
  exact ⟨⟨c', hc', hp', hfiles ▸ hfile⟩, (hsame fileName).trans hdisk⟩

theorem recordPacket_found {c : Client} {p : Packet} {file : File}
    (h : c.filesList.find? (·.fileName = p.fileName) = some file) :
    recordPacket s c p =
      some (if p.packetNumber = 1 then s.flagFile c.clientId p.fileName false else s, file) := by
  simp only [recordPacket, h]

theorem recordPacket_new {c : Client} {p : Packet}
    (h : c.filesList.find? (·.fileName = p.fileName) = none) (hone : p.packetNumber = 1) :
    recordPacket s c p =
      some (s.addFile ⟨c.clientId, p.fileName, filePath c.clientName p.fileName, false⟩,
        ⟨c.clientId, p.fileName, filePath c.clientName p.fileName, false⟩) := by
  simp only [recordPacket, h, hone, if_true]

/-- A packet is recorded if it is the first one or has a record. -/
theorem recordPacket_eq_some {c : Client} {p : Packet} {r : Server × File}
    (hpaths : ∀ file ∈ c.filesList, file.path = filePath c.clientName file.fileName)
    (h : recordPacket s c p = some r) :
    (p.packetNumber = 1 ∨ p.fileName ∈ c.filesList.map (·.fileName)) ∧ r.1.disk = s.disk ∧
      r.2.fileName = p.fileName ∧ r.2.path = filePath c.clientName p.fileName := by
  cases hfind : c.filesList.find? (·.fileName = p.fileName) with
  | some file =>
      obtain ⟨hfile, hname⟩ := find?_fileName_some hfind
      rw [recordPacket_found hfind] at h
      obtain rfl := Option.some.inj h
      refine ⟨.inr (List.mem_map.mpr ⟨file, hfile, hname⟩), ?_, hname, hname ▸ hpaths file hfile⟩
      simp only
      split <;> rfl
  | none =>
      by_cases hone : p.packetNumber = 1
      · rw [recordPacket_new hfind hone] at h
        obtain rfl := Option.some.inj h
        exact ⟨.inl hone, rfl, rfl, rfl⟩
      · simp only [recordPacket, hfind, if_neg hone] at h
        cases h

theorem recordPacket_eq_none {c : Client} {p : Packet} (h : recordPacket s c p = none) :
    ¬ (p.packetNumber = 1 ∨ p.fileName ∈ c.filesList.map (·.fileName)) := by
  cases hfind : c.filesList.find? (·.fileName = p.fileName) with
  | some file =>
      rw [recordPacket_found hfind] at h
      cases h
  | none =>
      by_cases hone : p.packetNumber = 1
      · rw [recordPacket_new hfind hone] at h
        cases h
      · exact not_or.mpr ⟨hone, find?_fileName_none hfind⟩

/-- Recording a packet leaves an unverified record. -/
theorem recordPacket_unverified {owner c c' : Client} (hc' : c' ∈ s.clientsList)
    (hp : Present owner c') (hid : c'.clientId = c.clientId) (hfiles : c'.filesList = c.filesList)
    (hpaths : ∀ file ∈ c.filesList, file.path = filePath c.clientName file.fileName)
    {p : Packet} (hfirst : p.packetNumber = 1 ∨
      ∃ file ∈ c.filesList, file.fileName = p.fileName ∧ file.validCrc = false) :
    ∃ t file, recordPacket s c p = some (t, file) ∧ file.fileName = p.fileName ∧
      file.path = filePath c.clientName p.fileName ∧ t.disk = s.disk ∧
      ∃ c'' ∈ t.clientsList, Present owner c'' ∧
        ∃ f ∈ c''.filesList, f.fileName = p.fileName ∧ f.validCrc = false := by
  cases hfind : c.filesList.find? (·.fileName = p.fileName) with
  | some file =>
      obtain ⟨hmem, hname⟩ := find?_fileName_some hfind
      refine ⟨_, file, recordPacket_found hfind, hname, hname ▸ hpaths file hmem, ?_, ?_⟩
      · split <;> rfl
      by_cases hone : p.packetNumber = 1
      · rw [if_pos hone]
        refine ⟨_, Server.mem_flagFile.mpr ⟨c', hc', rfl⟩, ?_, ?_⟩
        · rw [if_pos hid]
          exact hp
        · rw [if_pos hid]
          refine ⟨_, List.mem_map.mpr ⟨file, hfiles ▸ hmem, rfl⟩, ?_⟩
          rw [if_pos hname]
          exact ⟨hname, rfl⟩
      · rw [if_neg hone]
        obtain ⟨f, hf, hfname, hcrc⟩ := hfirst.resolve_left hone
        exact ⟨c', hc', hp, f, hfiles ▸ hf, hfname, hcrc⟩
  | none =>
      have hone : p.packetNumber = 1 := by
        refine hfirst.resolve_right ?_
        rintro ⟨f, hf, hfname, -⟩
        exact find?_fileName_none hfind (List.mem_map.mpr ⟨f, hf, hfname⟩)
      refine ⟨_, _, recordPacket_new hfind hone, rfl, rfl, rfl, _,
        Server.mem_addFile.mpr ⟨c', hc', rfl⟩, ?_⟩
      rw [if_pos hid]
      exact ⟨hp, _, List.mem_append_right _ (List.mem_singleton_self _), rfl, rfl⟩

/-- A packet that is the first of its file, or follows others, is written behind them.
The state `t` is the one in which the last packet is finished. -/
theorem servePacket_stored (hs : WellFormed s) (hl : Layout site s) (draws : Draws)
    {owner c : Client} (hc : c ∈ s.clientsList) (hp : Present owner c) {p : Packet}
    (hproper : Proper p.fileName)
    {before : Bytes} (hbefore : p.packetNumber = 1 ∧ before = [] ∨
      Uploaded site owner p.fileName before s ∧ p.packetNumber ≠ 1) :
    ∃ t file, servePacket site draws s owner.clientId p =
        (if p.packetNumber = p.totalPackets then finishUpload site t c file p
          else (t, .silent)) ∧
      file.fileName = p.fileName ∧ file.path = filePath c.clientName p.fileName ∧
      t.disk = s.disk.setFile (site.place c.clientName p.fileName) (some (before ++ p.content)) ∧
      Uploaded site owner p.fileName (before ++ p.content) t := by
  have hname : c.clientName ∈ s.names := List.mem_map_of_mem hc
  have hwritten : (if decide (p.packetNumber = 1) = true then []
      else (s.disk.file (site.place c.clientName p.fileName)).getD []) = before := by
    rcases hbefore with ⟨hone, rfl⟩ | ⟨hup, hone⟩
    · rw [if_pos (by simpa using hone)]
    · rw [if_neg (by simpa using hone), hp.2.1, hup.2]
      rfl
  have hstore := hl.store_eq hname hproper (decide (p.packetNumber = 1)) p.content
  rw [hwritten] at hstore
  let disk := s.disk.setFile (site.place c.clientName p.fileName) (some (before ++ p.content))
  let s' : Server := ({ s with disk := disk } : Server).seen draws c.clientId
  have hc' : { c with lastSeenDate := draws.now } ∈ s'.clientsList :=
    Server.mem_updateRow.mpr ⟨c, hc, if_pos rfl⟩
  have hrecord : p.packetNumber = 1 ∨
      ∃ file ∈ c.filesList, file.fileName = p.fileName ∧ file.validCrc = false := by
    refine hbefore.imp And.left ?_
    rintro ⟨⟨⟨c₁, hc₁, hp₁, hfile⟩, -⟩, -⟩
    obtain rfl := Keyed.eq_of_key_eq (fun x : Client => x.clientId) hs.idsDistinct hc₁ hc
      (hp₁.1.trans hp.1.symm)
    exact hfile
  have hp' : Present owner { c with lastSeenDate := draws.now } := hp
  obtain ⟨t, file, hrec, hfname, hpath, hdisk, hclient⟩ :=
    recordPacket_unverified (c := c) hc' hp' rfl rfl
      (fun f hf => (hs.owns c hc f hf).2) hrecord
  refine ⟨t, file, ?_, hfname, hpath, hdisk, hclient, ?_⟩
  · rw [servePacket, ← hp.1, Server.client?_of_mem hs.idsDistinct hc]
    simp only [hstore]
    rw [show recordPacket (({ s with disk := disk } : Server).seen draws c.clientId) c p =
      some (t, file) from hrec]
  · rw [hdisk, ← hp.2.1]
    exact FileTree.setFile_file_self _ _ _

theorem decryptContent_cbcEncrypt {key : Bytes} (hkey : key.length = General.aesKeySize)
    (plain : Bytes) :
    decryptContent site key (BlockMode.cbcEncrypt site.cipher key plain) = some plain := by
  rw [decryptContent, aesKeyLengthOk, hkey]
  exact BlockMode.cbcDecrypt_cbcEncrypt site.cipher key plain

/-- The last packet of a file that is the ciphertext of `plain`. -/
theorem finishUpload_decrypts {c : Client} {file : File} {p : Packet} {q : Location}
    {disk : FileTree} {plain : Bytes} (hkey : c.aesKey.length = General.aesKeySize)
    (hlocate : disk.locate site.cwd file.path = some q) (hdir : disk.isDir q = false)
    (hdisk : t.disk = disk.setFile q (some (BlockMode.cbcEncrypt site.cipher c.aesKey plain)))
    (hsize : p.origFileSize = plain.length) :
    finishUpload site t c file p = ({ t with disk := disk.setFile q (some plain) },
      .answer (.fileReceived c.clientId p.contentSize file.fileName (Cksum.memcrc plain))) := by
  have hread : t.disk.readFile site.cwd file.path =
      some (BlockMode.cbcEncrypt site.cipher c.aesKey plain) := by
    rw [hdisk, FileTree.readFile_eq_some]
    exact ⟨q, by rw [FileTree.locate_setFile, hlocate], hdir, FileTree.setFile_file_self _ _ _⟩
  have hstore : t.disk.store site.cwd file.path true plain =
      some (disk.setFile q (some plain)) := by
    rw [hdisk, FileTree.store_eq_some]
    refine ⟨q, by rw [FileTree.locate_setFile, hlocate], hdir, ?_⟩
    rw [FileTree.setFile_setFile]
    rfl
  simp only [finishUpload, hread, Option.bind_some, decryptContent_cbcEncrypt hkey, hstore, hsize,
    if_true]

end SecureTransfer
