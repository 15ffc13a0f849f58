import SecureTransfer.Service.Runs

/-!
The file records in memory and the rows of table files as two maps from a client id and
a file name, and what each request does to them.
-/

open Octets (Text)
open Effects Act
open Runs (System)

namespace SecureTransfer

@[ext]
structure Books where
  record : Bytes → Text → Option File
  row : Bytes → Text → Option File

def File.flagged (flag : Bool) (f : File) : File := { f with validCrc := flag }

namespace Books

/-- A flag is set on one record and on all rows of the client. -/
def flag (b : Books) (id : Bytes) (fileName : Text) (flag : Bool) : Books where
  record i n := if i = id ∧ n = fileName then (b.record i n).map (File.flagged flag)
    else b.record i n
  row i n := if i = id then (b.row i n).map (File.flagged flag) else b.row i n

def add (b : Books) (file : File) : Books where
  record i n := if i = file.clientId ∧ n = file.fileName then some file else b.record i n
  row i n := if i = file.clientId ∧ n = file.fileName then some file else b.row i n

/-- One record is dropped and the rows of every client with its name. -/
def discard (b : Books) (id : Bytes) (fileName : Text) : Books where
  record i n := if i = id ∧ n = fileName then none else b.record i n
  row i n := if n = fileName then none else b.row i n

/-- What a restart makes of the books. -/
def restored (b : Books) : Books := ⟨b.row, b.row⟩

end Books

def Server.books (s : Server) : Books where
  record id fileName := (s.client? id).bind fun c => c.filesList.find? (·.fileName = fileName)
  row id fileName := s.db.files.find? fun r => (r.clientId, r.fileName) = (id, fileName)

section
variable {s : Server} {id : Bytes} {fileName : Text} {file : File}

theorem Server.books_record : s.books.record id fileName =
    (s.client? id).bind fun c => c.filesList.find? (·.fileName = fileName) := rfl

theorem WellFormed.record_iff (hs : WellFormed s) : s.books.record id fileName = some file ↔
    ∃ c ∈ s.clientsList, c.clientId = id ∧ file ∈ c.filesList ∧ file.fileName = fileName := by
  rw [Server.books_record, Option.bind_eq_some_iff]
  constructor
  · rintro ⟨c, hc, hfile⟩
    obtain ⟨hmem, hid⟩ := Server.client?_eq_some hc
    exact ⟨c, hmem, hid, find?_fileName_some hfile⟩
  · rintro ⟨c, hc, rfl, hfile, rfl⟩
    exact ⟨c, Server.client?_of_mem hs.idsDistinct hc,
      Keyed.find?_of_mem (fun f : File => f.fileName) (hs.fileNamesDistinct c hc) hfile⟩

theorem WellFormed.row_iff (hs : WellFormed s) : s.books.row id fileName = some file ↔
    file ∈ s.db.files ∧ file.clientId = id ∧ file.fileName = fileName := by
  constructor
  · intro h
    have hkey : (file.clientId, file.fileName) = (id, fileName) := by
      simpa using List.find?_some h
    exact ⟨List.mem_of_find?_eq_some h, Prod.mk.inj hkey⟩
  · rintro ⟨hmem, rfl, rfl⟩
    exact Keyed.find?_of_mem (fun f : File => (f.clientId, f.fileName)) hs.rowKeysDistinct hmem

end

/-! The updates of the service, on the books. -/

section
variable {s : Server} {id : Bytes}

theorem client?_updateRow {f : ClientRow → ClientRow} (hf : ∀ r, (f r).clientId = r.clientId)
    (clientId : Bytes) : (s.updateRow clientId f).client? id = (s.client? id).map fun c =>
      if c.clientId = clientId then { c with toClientRow := f c.toClientRow } else c := by
  refine Keyed.find?_map (fun c : Client => c.clientId) (fun c => ?_) s.clientsList id
  split
  · exact hf _
  · rfl

theorem client?_updateFiles {f : List File → List File} (clientId : Bytes) :
    (s.updateFiles clientId f).client? id = (s.client? id).map fun c =>
      if c.clientId = clientId then { c with filesList := f c.filesList } else c := by
  refine Keyed.find?_map (fun c : Client => c.clientId) (fun c => ?_) s.clientsList id
  split <;> rfl

theorem client?_updateRow_self {c : Client} {f : ClientRow → ClientRow}
    (hf : ∀ r, (f r).clientId = r.clientId) (h : s.client? id = some c) :
    (s.updateRow id f).client? id = some { c with toClientRow := f c.toClientRow } := by
  rw [client?_updateRow hf, h, Option.map_some, if_pos (Server.client?_eq_some h).2]

theorem client?_updateFiles_self {c : Client} {f : List File → List File}
    (h : s.client? id = some c) :
    (s.updateFiles id f).client? id = some { c with filesList := f c.filesList } := by
  rw [client?_updateFiles, h, Option.map_some, if_pos (Server.client?_eq_some h).2]

theorem books_updateRow {f : ClientRow → ClientRow} (hf : ∀ r, (f r).clientId = r.clientId)
    (clientId : Bytes) : (s.updateRow clientId f).books = s.books := by
  apply Books.ext
  · funext i n
    rw [Server.books_record, client?_updateRow hf, Option.bind_map]
    apply congrArg (Option.bind (s.client? i))
    funext c
    simp only [Function.comp_apply]
    split <;> rfl
  · rfl

/-- The records after a change to the records of one client. -/
theorem record_updateFiles {f : List File → List File} (clientId i : Bytes) (n : Text) :
    (s.updateFiles clientId f).books.record i n =
      if i = clientId then (s.client? i).bind fun c => (f c.filesList).find? (·.fileName = n)
      else s.books.record i n := by
  rw [Server.books_record, client?_updateFiles, Option.bind_map]
  cases hc : s.client? i with
  | none => simp [Server.books, hc]
  | some c =>
      obtain ⟨-, rfl⟩ := Server.client?_eq_some hc
      simp only [Option.bind_some, Function.comp_apply, Server.books, hc]
      split <;> rfl

theorem books_flagFile (clientId : Bytes) (fileName : Text) (flag : Bool) :
    (s.flagFile clientId fileName flag).books = s.books.flag clientId fileName flag := by
  apply Books.ext
  · funext i n
    refine (record_updateFiles clientId i n).trans ?_
    simp only [Books.flag]
    by_cases hi : i = clientId
    · rw [if_pos hi, Server.books_record]
      have hkeys : ∀ f : File,
          (if f.fileName = fileName then { f with validCrc := flag } else f).fileName =
            f.fileName := by
        intro f
        split <;> rfl
      cases hc : s.client? i with
      | none => simp
      | some c =>
          simp only [Option.bind_some]
          rw [Keyed.find?_map (fun f : File => f.fileName) hkeys]
          cases hf : c.filesList.find? (fun f => decide (f.fileName = n)) with
          | none => simp
          | some f =>
              obtain ⟨-, rfl⟩ := find?_fileName_some hf
              by_cases hn : f.fileName = fileName
              · rw [if_pos ⟨hi, hn⟩, Option.map_some, if_pos hn]
                rfl
              · rw [if_neg (fun h => hn h.2), Option.map_some, if_neg hn]
    · rw [if_neg hi, if_neg fun h => hi h.1]
  · funext i n
    have hkeys : ∀ r : File, (fun f : File => (f.clientId, f.fileName))
        (if r.clientId = clientId then { r with validCrc := flag } else r) =
          (r.clientId, r.fileName) := by
      intro r
      simp only
      split <;> rfl
    refine (Keyed.find?_map (fun f : File => (f.clientId, f.fileName)) hkeys s.db.files _).trans ?_
    simp only [Books.flag, Server.books]
    cases hr : s.db.files.find? (fun r => decide ((r.clientId, r.fileName) = (i, n))) with
    | none => simp
    | some r =>
        have hkey : (r.clientId, r.fileName) = (i, n) := by simpa using List.find?_some hr
        obtain ⟨rfl, rfl⟩ := Prod.mk.inj hkey
        simp only [Option.map_some]
        split <;> rfl

theorem books_addFile (hs : WellFormed s) {c : Client} (hc : c ∈ s.clientsList) {file : File}
    (hid : file.clientId = c.clientId) (hnew : file.fileName ∉ c.filesList.map (·.fileName)) :
    (s.addFile file).books = s.books.add file := by
  have hclient : s.client? file.clientId = some c := by
    rw [hid]
    exact Server.client?_of_mem hs.idsDistinct hc
  apply Books.ext
  · funext i n
    refine (record_updateFiles (f := (· ++ [file])) file.clientId i n).trans ?_
    simp only [Books.add]
    by_cases hi : i = file.clientId
    · subst hi
      rw [if_pos rfl, hclient, Option.bind_some, List.find?_append, Server.books_record, hclient,
        Option.bind_some]
      by_cases hn : n = file.fileName
      · subst hn
        rw [if_pos ⟨rfl, rfl⟩, Keyed.find?_of_notMem (fun f : File => f.fileName) hnew]
        simp
      · rw [if_neg fun h => hn h.2]
        simp [Ne.symm hn]
    · rw [if_neg hi, if_neg fun h => hi h.1]
  · funext i n
    change (s.db.files ++ [file]).find? _ = _
    simp only [Books.add, Server.books, List.find?_append]
    by_cases hkey : (file.clientId, file.fileName) = (i, n)
    · obtain ⟨rfl, rfl⟩ := Prod.mk.inj hkey
      have hnone : s.db.files.find?
          (fun r => decide ((r.clientId, r.fileName) = (file.clientId, file.fileName))) = none := by
        cases hrow : s.books.row file.clientId file.fileName with
        | none => exact hrow
        | some r =>
            obtain ⟨hmem, hrid, hrname⟩ := hs.row_iff.mp hrow
            obtain ⟨c', hc', hid', f, hf, hfname, -⟩ := hs.backed r hmem
            obtain rfl := Keyed.eq_of_key_eq (fun x : Client => x.clientId) hs.idsDistinct hc' hc
              (hid'.trans (hrid.trans hid))
            exact absurd (List.mem_map.mpr ⟨f, hf, hfname.trans hrname⟩) hnew
      rw [hnone, if_pos ⟨rfl, rfl⟩]
      simp
    · rw [if_neg fun h => hkey (Prod.ext h.1.symm h.2.symm)]
      simp only [List.find?_cons, hkey, decide_false, List.find?_nil, Option.or_none]

theorem books_discard (clientId : Bytes) (fileName : Text) :
    (({ s with db := s.db.deleteFile fileName } : Server).dropFile clientId fileName).books =
      s.books.discard clientId fileName := by
  apply Books.ext
  · funext i n
    refine (record_updateFiles clientId i n).trans ?_
    simp only [Books.discard]
    by_cases hi : i = clientId
    · rw [if_pos hi, Server.books_record]
      change (s.client? i).bind _ = _
      simp only [Keyed.find?_filter (fun f : File => f.fileName)]
      by_cases hn : n = fileName
      · rw [if_pos ⟨hi, hn⟩]
        simp [hn]
      · rw [if_neg fun h => hn h.2]
        simp [hn]
    · rw [if_neg hi, if_neg fun h => hi h.1]
      rfl
  · funext i n
    simp only [Books.discard]
    change (s.db.files.filter _).find? _ = if n = fileName then none else s.db.files.find? _
    rw [List.find?_filter]
    split
    · rename_i hn
      rw [List.find?_eq_none]
      intro r _
      rw [hn]
      simpa using fun hne _ => hne
    · rename_i hn
      apply congrArg (fun p => List.find? p s.db.files)
      funext r
      by_cases hr : r.fileName = n
      · simp [hr, hn]
      · simp [hr]

theorem books_addClient {c : Client} (hid : c.clientId ∉ s.ids)
    (hfiles : c.filesList = []) : (s.addClient c).books = s.books := by
  apply Books.ext
  · funext i n
    simp only [Server.books, Server.client?, Server.addClient, List.find?_append]
    by_cases hi : c.clientId = i
    · subst hi
      rw [Keyed.find?_of_notMem (fun c : Client => c.clientId) hid]
      simp [hfiles]
    · simp [hi]
  · rfl

end

/-! What a request does to the books. -/

/-- A request that sets the flag of a recorded file: its first packet, when it can be
written, or a 900 for it while it is not verified. -/
inductive SetsFlag (site : Site) (s : Server) (id : Bytes) : Body → Text → Bool → Prop where
  | first {c : Client} {p : Packet} {disk : FileTree} (hc : s.client? id = some c)
      (hrecorded : p.fileName ∈ c.filesList.map (·.fileName)) (hfirst : p.packetNumber = 1)
      (hstore : s.disk.store site.cwd (filePath c.clientName p.fileName) true p.content =
        some disk) :
      SetsFlag site s id (.packet p) p.fileName false
  | valid {fileName : Text} {file : File} (hrecord : s.books.record id fileName = some file)
      (hcrc : file.validCrc = false) :
      SetsFlag site s id (.verdict General.validCrcRequest900 fileName) fileName true

inductive Booked (site : Site) (s : Server) (id : Bytes) (body : Body) : Books → Prop where
  | same (hno : ∀ fileName flag, ¬ SetsFlag site s id body fileName flag) :
      Booked site s id body s.books
  | flagged {fileName : Text} {flag : Bool} (hflag : SetsFlag site s id body fileName flag) :
      Booked site s id body (s.books.flag id fileName flag)
  | recorded {c : Client} {p : Packet} (hbody : body = .packet p) (hfirst : p.packetNumber = 1)
      (hc : c ∈ s.clientsList) (hid : c.clientId = id)
      (hnew : s.books.record id p.fileName = none) :
      Booked site s id body
        (s.books.add ⟨id, p.fileName, filePath c.clientName p.fileName, false⟩)
  | discarded {fileName : Text} {file : File}
      (hbody : body = .verdict General.invalidCrc4thRequest902 fileName)
      (hrecord : s.books.record id fileName = some file) (hcrc : file.validCrc = false) :
      Booked site s id body (s.books.discard id fileName)

section
variable {site : Site} {s : Server} {id : Bytes} {body : Body}

theorem SetsFlag.fileName {fileName : Text} {flag : Bool}
    (h : SetsFlag site s id body fileName flag) : body.fileName? = some fileName := by
  cases h <;> rfl

theorem SetsFlag.recorded {fileName : Text} {flag : Bool}
    (h : SetsFlag site s id body fileName flag) : s.books.record id fileName ≠ none := by
  cases h with
  | first hc hrecorded =>
      rw [Server.books_record, hc, Option.bind_some]
      exact fun hnone => find?_fileName_none hnone hrecorded
  | valid hrecord =>
      rw [hrecord]
      exact Option.some_ne_none _

/-- A request sets one flag to one value. -/
theorem SetsFlag.unique {f g : Text} {a b : Bool} (h : SetsFlag site s id body f a)
    (h' : SetsFlag site s id body g b) : f = g ∧ a = b := by
  cases h with
  | first => cases h' with
    | first => exact ⟨rfl, rfl⟩
  | valid => cases h' with
    | valid => exact ⟨rfl, rfl⟩

theorem books_seen (draws : Draws) (clientId : Bytes) : (s.seen draws clientId).books = s.books :=
  books_updateRow (f := fun r => { r with lastSeenDate := draws.now }) (fun _ => rfl) clientId

theorem books_withAesKey (clientId key : Bytes) : (s.withAesKey clientId key).books = s.books :=
  books_updateRow (f := fun r => { r with aesKey := key }) (fun _ => rfl) clientId

theorem books_withPublicKey (clientId key : Bytes) :
    (s.withPublicKey clientId key).books = s.books :=
  books_updateRow (f := fun r => { r with publicKey := key }) (fun _ => rfl) clientId

theorem books_finishUpload (c : Client) (file : File) (p : Packet) :
    (finishUpload site s c file p).1.books = s.books := by
  rw [finishUpload]
  split
  · rfl
  split
  · rfl
  simp only
  split <;> rfl

variable (draws : Draws)

theorem books_serveRegistration (hfresh : draws.uuid ∉ s.ids) (name : Text) :
    (serveRegistration site draws s name).1.books = s.books := by
  rw [serveRegistration]
  split
  · exact books_seen draws _
  split
  · rfl
  · exact books_addClient hfresh rfl

theorem books_sendNewAesKey (code : Nat) (clientId publicKey : Bytes) :
    (sendNewAesKey site draws s code clientId publicKey).1.books = s.books := by
  rw [sendNewAesKey]
  split <;> exact books_withAesKey _ _

theorem books_serveReconnection (clientId : Bytes) (name : Text) :
    (serveReconnection site draws s clientId name).1.books = s.books := by
  rw [serveReconnection]
  split
  · rfl
  split
  · rfl
  simp only
  split
  · exact books_seen draws _
  · exact (books_sendNewAesKey draws _ _ _).trans (books_seen draws _)

theorem books_servePublicKey (clientId : Bytes) (name : Text) (key : Outcome PyError Bytes) :
    (servePublicKey site draws s clientId name key).1.books = s.books := by
  simp only [servePublicKey]
  split
  · rfl
  split
  · rfl
  split
  · rfl
  · rfl
  · exact (books_sendNewAesKey draws _ _ _).trans
      ((books_seen draws _).trans (books_withPublicKey _ _))

/-- The record of a packet is kept, flagged or made. -/
theorem books_recordPacket (hs : WellFormed s) {c c' : Client} (hc : c' ∈ s.clientsList)
    (hid : c'.clientId = c.clientId) (hfiles : c'.filesList = c.filesList) {p : Packet}
    {t : Server} {file : File} (h : recordPacket s c p = some (t, file)) :
    (p.packetNumber ≠ 1 ∧ t.books = s.books) ∨
    (p.packetNumber = 1 ∧ p.fileName ∈ c.filesList.map (·.fileName) ∧
      t.books = s.books.flag c.clientId p.fileName false) ∨
    (p.packetNumber = 1 ∧ p.fileName ∉ c.filesList.map (·.fileName) ∧
      t.books = s.books.add
        ⟨c.clientId, p.fileName, filePath c.clientName p.fileName, false⟩) := by
  rw [recordPacket] at h
  split at h
  · rename_i f hf
    obtain ⟨hmem, hfname⟩ := find?_fileName_some hf
    obtain ⟨rfl, -⟩ := Prod.mk.inj (Option.some.inj h)
    by_cases hfirst : p.packetNumber = 1
    · rw [if_pos hfirst]
      exact .inr (.inl ⟨hfirst, List.mem_map.mpr ⟨f, hmem, hfname⟩, books_flagFile _ _ _⟩)
    · rw [if_neg hfirst]
      exact .inl ⟨hfirst, rfl⟩
  · rename_i hnone
    split at h
    · rename_i hfirst
      obtain ⟨rfl, -⟩ := Prod.mk.inj (Option.some.inj h)
      have hnew := find?_fileName_none hnone
      have hnew' : p.fileName ∉ c'.filesList.map (·.fileName) := hfiles ▸ hnew
      exact .inr (.inr ⟨hfirst, hnew, books_addFile hs hc hid.symm hnew'⟩)
    · cases h

theorem booked_servePacket (hs : WellFormed s) (id : Bytes) (p : Packet) :
    Booked site s id (.packet p) (servePacket site draws s id p).1.books := by
  rw [servePacket]
  split
  · rename_i hnone
    refine .same fun _ _ h => ?_
    cases h with
    | first hc => rw [hnone] at hc; cases hc
  · rename_i c hc
    obtain ⟨hmem, rfl⟩ := Server.client?_eq_some hc
    split
    · rename_i hfail
      refine .same fun _ _ h => ?_
      cases h with
      | first hc' _ hfirst hstore =>
          rw [hc] at hc'
          obtain rfl := Option.some.inj hc'
          simp only [hfirst, decide_true, hstore] at hfail
          cases hfail
    · rename_i disk hstore
      have hbooks : (({ s with disk := disk } : Server).seen draws c.clientId).books = s.books :=
        books_seen draws _
      have hseen : WellFormed (({ s with disk := disk } : Server).seen draws c.clientId) :=
        (hs.withDisk disk).seen draws
      have hc' : { c with lastSeenDate := draws.now } ∈
          (({ s with disk := disk } : Server).seen draws c.clientId).clientsList :=
        Server.mem_updateRow.mpr ⟨c, hmem, if_pos rfl⟩
      have hnone : p.packetNumber ≠ 1 →
          ∀ fileName flag, ¬ SetsFlag site s c.clientId (.packet p) fileName flag := by
        intro hne fileName flag h
        cases h with
        | first _ _ hfirst => exact hne hfirst
      simp only
      split
      · rename_i hrecord
        rw [hbooks]
        refine .same (hnone ?_)
        intro hfirst
        rw [recordPacket] at hrecord
        split at hrecord
        · cases hrecord
        · rw [if_pos hfirst] at hrecord
          cases hrecord
      · rename_i t file hrecord
        have hfinal : (if p.packetNumber = p.totalPackets then finishUpload site t c file p
            else (t, Reply.silent)).1.books = t.books := by
          split
          · exact books_finishUpload c file p
          · rfl
        rw [hfinal]
        obtain ⟨hne, ht⟩ | ⟨hfirst, hold, ht⟩ | ⟨hfirst, hnew, ht⟩ :=
          books_recordPacket hseen hc' rfl rfl hrecord
        · rw [ht, hbooks]
          exact .same (hnone hne)
        · rw [ht, hbooks]
          rw [hfirst] at hstore
          exact .flagged (.first hc hold hfirst hstore)
        · rw [ht, hbooks]
          refine @Booked.recorded _ _ _ _ c p rfl hfirst hmem rfl ?_
          rw [Server.books_record, hc, Option.bind_some]
          exact Keyed.find?_of_notMem (fun f : File => f.fileName) hnew

theorem books_discardFile (clientId : Bytes) (file : File) :
    (discardFile site s clientId file).1.books = s.books ∨
      (discardFile site s clientId file).1.books = s.books.discard clientId file.fileName := by
  rw [discardFile]
  split
  · exact .inl rfl
  · rename_i disk _
    right
    have hdiscard := books_discard (s := { s with disk := disk }) clientId file.fileName
    by_cases hany : s.db.files.any (·.fileName = file.fileName)
    · have hrows : (({ s with disk := disk } : Server).dropFile clientId
          file.fileName).deleteRows file.fileName = some
          (({ s with disk := disk, db := s.db.deleteFile file.fileName } : Server).dropFile
            clientId file.fileName) := if_pos hany
      simp only [hrows]
      exact hdiscard
    · have hrows : (({ s with disk := disk } : Server).dropFile clientId
          file.fileName).deleteRows file.fileName = none := if_neg hany
      rw [Tables.deleteFile_eq_self hany] at hdiscard
      simp only [hrows]
      exact hdiscard

theorem booked_serveVerdict (id : Bytes) (code : Nat) (fileName : Text) :
    Booked site s id (.verdict code fileName)
      (serveVerdict site draws s id code fileName).1.books := by
  have hno : (code = General.validCrcRequest900 →
      ∀ file, s.books.record id fileName = some file → file.validCrc = true) →
      ∀ f flag, ¬ SetsFlag site s id (.verdict code fileName) f flag := by
    intro hrefused f flag h
    cases h with
    | valid hrecord hcrc => exact absurd (hrefused rfl _ hrecord) (by simp [hcrc])
  rw [serveVerdict]
  split
  · rename_i hnone
    refine .same (hno fun _ file hrecord => ?_)
    rw [Server.books_record, hnone] at hrecord
    cases hrecord
  · rename_i c hc
    have hrecords : s.books.record id fileName = c.filesList.find? (·.fileName = fileName) := by
      rw [Server.books_record, hc, Option.bind_some]
    rw [← hrecords]
    simp only
    split
    · rename_i hnone
      rw [books_seen]
      refine .same (hno fun _ file hrecord => ?_)
      rw [hnone] at hrecord
      cases hrecord
    · rename_i file hfile
      split
      · rename_i hcrc
        rw [books_seen]
        refine .same (hno fun _ file' hrecord => ?_)
        rw [hfile] at hrecord
        exact Option.some.inj hrecord ▸ hcrc
      · rename_i hcrc
        have hcrc : file.validCrc = false := by simpa using hcrc
        split
        · rename_i hcode
          subst hcode
          rw [books_flagFile, books_seen]
          exact .flagged (.valid hfile hcrc)
        · rename_i hcode
          have hsame := @Booked.same site s id (.verdict code fileName)
            (hno fun h => absurd h hcode)
          split
          · rename_i h902
            subst h902
            have hname : file.fileName = fileName := (find?_fileName_some (hrecords ▸ hfile)).2
            rcases @books_discardFile site (s.seen draws id) id file with h | h
            · rw [h, books_seen]
              exact hsame
            · rw [h, books_seen, hname]
              exact .discarded rfl hfile hcrc
          · rw [books_seen]
            exact hsame

theorem serve_books (hs : WellFormed s) (hfresh : draws.uuid ∉ s.ids) (id : Bytes) (body : Body) :
    Booked site s id body (serve site draws s id body).1.books := by
  cases body with
  | registration name =>
      rw [serve, books_serveRegistration draws hfresh]
      exact .same fun _ _ h => nomatch h
  | reconnection name =>
      rw [serve, books_serveReconnection]
      exact .same fun _ _ h => nomatch h
  | publicKey name key =>
      rw [serve, books_servePublicKey]
      exact .same fun _ _ h => nomatch h
  | packet p => exact booked_servePacket draws hs id p
  | verdict code fileName => exact booked_serveVerdict draws id code fileName

end

/-! The books over a step of a run. -/

/-- The request that a callback finds. -/
def Event.Asks (id : Bytes) (body : Body) : Event → Prop
  | .callback _ c => (receive c).incoming = .request id body
  | .restart => False

theorem Restarted.books {site : Site} {s t : Server} (hs : WellFormed s)
    (h : Restarted site s t) : t.books = s.books.restored := by
  have hdb : t.db = s.db := by rw [h.db, if_pos hs.hasTables]
  have ht := h.wellFormed hs
  have hrow : t.books.row = s.books.row := by
    funext i n
    simp only [Server.books, hdb]
  refine Books.ext ?_ hrow
  funext i n
  rw [Books.restored, ← hrow]
  apply Option.ext
  intro file
  rw [ht.record_iff, ht.row_iff]
  constructor
  · rintro ⟨c, hc, rfl, hfile, rfl⟩
    rw [h.clientsList] at hc
    obtain ⟨row, hrow, rfl⟩ := List.mem_map.mp hc
    obtain ⟨hmem, hid⟩ := List.mem_filter.mp hfile
    exact ⟨hmem, by simpa using hid, rfl⟩
  · rintro ⟨hmem, rfl, rfl⟩
    obtain ⟨c, hc, hid, -⟩ := ht.backed file hmem
    refine ⟨c, hc, hid, ?_, rfl⟩
    rw [h.clientsList] at hc
    obtain ⟨row, hrow, rfl⟩ := List.mem_map.mp hc
    exact List.mem_filter.mpr ⟨hmem, by simpa using hid.symm⟩

theorem step_books {site : Site} {s t : Server} {e : Event} (hs : WellFormed s)
    (h : (serverRuns site).step s e t) :
    (∃ id body, e.Asks id body ∧ Booked site s id body t.books) ∨
    ((∀ id body, ¬ e.Asks id body) ∧ (t.books = s.books ∨ e = .restart ∧
      t.books = s.books.restored)) := by
  refine step_invariant (I := fun t => (∃ id body, e.Asks id body ∧ Booked site s id body t.books) ∨
    ((∀ id body, ¬ e.Asks id body) ∧ (t.books = s.books ∨ e = .restart ∧
      t.books = s.books.restored))) hs h ?_ ?_
  · rintro draws c rfl hfresh
    rw [Reception.next]
    split
    · rename_i id body hr
      exact .inl ⟨id, body, hr, serve_books draws hs hfresh id body⟩
    · rename_i hr
      exact .inr ⟨hr, .inl rfl⟩
  · rintro rfl t ht
    exact .inr ⟨fun _ _ h => h, .inr ⟨rfl, ht.books hs⟩⟩

end SecureTransfer
