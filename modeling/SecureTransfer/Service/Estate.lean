import SecureTransfer.Service.Upload

/-!
What belongs to one client: its records, its rows and its files. A request of the client does
to them what it would do on a server of its own, but for the names of the others.
-/

open Octets (Text)
open FileTree (Proper)
open Runs (System)

namespace SecureTransfer

structure Estate where
  client : Client
  contents : Text → Option Bytes
  rows : List File

namespace Estate

variable (x : Estate)

def withPublicKey (key : Bytes) : Estate :=
  { x with client := { x.client with publicKey := key } }

def withAesKey (key : Bytes) : Estate := { x with client := { x.client with aesKey := key } }

def put (fileName : Text) (content : Option Bytes) : Estate :=
  { x with contents := Function.update x.contents fileName content }

/-- One record, and every row. -/
def flagFile (fileName : Text) (flag : Bool) : Estate :=
  { x with
    client := { x.client with
      filesList := x.client.filesList.map fun f =>
        if f.fileName = fileName then { f with validCrc := flag } else f }
    rows := x.rows.map fun r => { r with validCrc := flag } }

def addFile (file : File) : Estate :=
  { x with
    client := { x.client with filesList := x.client.filesList ++ [file] }
    rows := x.rows ++ [file] }

def dropFile (fileName : Text) : Estate :=
  { x with
    client := { x.client with
      filesList := x.client.filesList.filter fun f => f.fileName ≠ fileName }
    rows := x.rows.filter fun r => r.fileName ≠ fileName }

/-- Every record has a row. -/
def Kept : Prop := ∀ f ∈ x.client.filesList, ∃ r ∈ x.rows, r.fileName = f.fileName

section
variable (site : Site) (draws : Draws)

def sendNewAesKey (code : Nat) (publicKey : Bytes) : Estate × Reply :=
  let x := x.withAesKey draws.aesKey
  match (site.importKey publicKey).bind (site.oaepEncrypt · draws.seed draws.aesKey) with
  | none => (x, .rejected)
  | some encrypted => (x, .answer (.aesKey code x.client.clientId encrypted))

/-- The answer to a name of nobody is another one than that to the name of somebody else. -/
def reconnection (names : List Text) (name : Text) : Estate × Reply :=
  if name = x.client.clientName then
    match site.importKey x.client.publicKey with
    | none => (x, .answer (.reconnectionFailed x.client.clientId))
    | some _ =>
        x.sendNewAesKey site draws General.validReconnectionAes1605 x.client.publicKey
  else if name ∈ names then (x, .rejected)
  else (x, .answer (.reconnectionFailed x.client.clientId))

def publicKey (name : Text) (key : Effects.Outcome PyError Bytes) : Estate × Reply :=
  if name = x.client.clientName then
    match key with
    | .blocked => (x, .waits)
    | .raised _ => (x, .rejected)
    | .done key => (x.withPublicKey key).sendNewAesKey site draws General.gotPublicSendAes1602 key
  else (x, .rejectedUnread)

def finishUpload (p : Packet) : Estate × Reply :=
  match (x.contents p.fileName).bind (decryptContent site x.client.aesKey) with
  | none => (x, .rejected)
  | some plain =>
      let x := x.put p.fileName (some plain)
      if p.origFileSize = plain.length then
        (x, .answer (.fileReceived x.client.clientId p.contentSize p.fileName
          (Cksum.memcrc plain)))
      else (x, .rejected)

def recordPacket (p : Packet) : Option Estate :=
  match x.client.filesList.find? (·.fileName = p.fileName) with
  | some _ => some (if p.packetNumber = 1 then x.flagFile p.fileName false else x)
  | none =>
      if p.packetNumber = 1 then
        some (x.addFile
          ⟨x.client.clientId, p.fileName, filePath x.client.clientName p.fileName, false⟩)
      else none

def packet (p : Packet) : Estate × Reply :=
  let x := x.put p.fileName (some ((if p.packetNumber = 1 then []
    else (x.contents p.fileName).getD []) ++ p.content))
  match x.recordPacket p with
  | none => (x, .rejected)
  | some x => if p.packetNumber = p.totalPackets then x.finishUpload site p else (x, .silent)

def verdict (code : Nat) (fileName : Text) : Estate × Reply :=
  match x.client.filesList.find? (·.fileName = fileName) with
  | none => (x, .rejected)
  | some file =>
      if file.validCrc then (x, .rejected)
      else if code = General.validCrcRequest900 then
        (x.flagFile fileName true, .answer (.thankYou x.client.clientId))
      else if code = General.invalidCrc4thRequest902 then
        match x.contents fileName with
        | none => (x, .rejected)
        | some _ =>
            ((x.put fileName none).dropFile fileName, .answer (.thankYou x.client.clientId))
      else (x, .silent)

/-- A request of the client on a server with these names. -/
def serve (names : List Text) : Body → Estate × Reply
  | .registration name =>
      (x, if name ∈ names then .rejected else .answer (.registrationDone draws.uuid))
  | .reconnection name => x.reconnection site draws names name
  | .publicKey name key => x.publicKey site draws name key
  | .packet p => x.packet site p
  | .verdict code fileName => x.verdict code fileName

end
end Estate

/-- What belongs to the client with this id, but for the last-seen date. -/
def Server.estate (site : Site) (s : Server) (id : Bytes) : Option Estate :=
  (s.client? id).map fun c => ⟨c.undated, fun f => s.disk.file (site.place c.clientName f),
    s.db.files.filter (·.clientId = id)⟩

section
variable {site : Site} {draws : Draws} {s : Server} {id : Bytes} {c : Client}

/-! What each update of the service does to the estate of its client. -/

theorem estate_of_client? (h : s.client? id = some c) : s.estate site id =
    some ⟨c.undated, fun f => s.disk.file (site.place c.clientName f),
      s.db.files.filter (·.clientId = id)⟩ := by
  rw [Server.estate, h, Option.map_some]

theorem estate_seen (other : Bytes) : (s.seen draws other).estate site id = s.estate site id := by
  have hclient : (s.seen draws other).client? id = (s.client? id).map fun c =>
      if c.clientId = other then { c with lastSeenDate := draws.now } else c :=
    @client?_updateRow s id (fun r => { r with lastSeenDate := draws.now }) (fun _ => rfl) other
  rw [Server.estate, Server.estate, hclient, Option.map_map]
  congr 1
  funext c
  simp only [Function.comp_apply]
  split <;> rfl

theorem estate_withPublicKey (h : s.client? id = some c) (key : Bytes) :
    (s.withPublicKey id key).estate site id = (s.estate site id).map (·.withPublicKey key) := by
  have hclient : (s.withPublicKey id key).client? id = some { c with publicKey := key } :=
    client?_updateRow_self (fun _ => rfl) h
  rw [estate_of_client? h, Option.map_some, estate_of_client? hclient]
  rfl

theorem estate_withAesKey (h : s.client? id = some c) (key : Bytes) :
    (s.withAesKey id key).estate site id = (s.estate site id).map (·.withAesKey key) := by
  have hclient : (s.withAesKey id key).client? id = some { c with aesKey := key } :=
    client?_updateRow_self (fun _ => rfl) h
  rw [estate_of_client? h, Option.map_some, estate_of_client? hclient]
  rfl

theorem contents_setFile (disk : FileTree) (name fileName : Text) (content : Option Bytes) :
    (fun f => (disk.setFile (site.place name fileName) content).file (site.place name f)) =
      Function.update (fun f => disk.file (site.place name f)) fileName content := by
  funext f
  by_cases hf : f = fileName
  · rw [hf, FileTree.setFile_file_self, Function.update_self]
  · rw [Function.update_of_ne hf]
    exact FileTree.setFile_file_of_ne _ _ fun h => hf (Site.place_inj.mp h).2

theorem estate_setFile (h : s.client? id = some c) (fileName : Text) (content : Option Bytes) :
    ({ s with disk := s.disk.setFile (site.place c.clientName fileName) content } :
      Server).estate site id = (s.estate site id).map (·.put fileName content) := by
  have hclient : ({ s with disk := s.disk.setFile (site.place c.clientName fileName) content } :
      Server).client? id = some c := h
  rw [estate_of_client? h, Option.map_some, estate_of_client? hclient]
  simp only [contents_setFile]
  rfl

theorem rows_setValidCrc (t : Tables) (flag : Bool) :
    (t.setValidCrc id flag).files.filter (·.clientId = id) =
      (t.files.filter (·.clientId = id)).map fun r => { r with validCrc := flag } := by
  rw [Tables.setValidCrc, List.filter_map]
  have hkeep : ((fun r : File => decide (r.clientId = id)) ∘ fun r =>
      if r.clientId = id then { r with validCrc := flag } else r) =
        fun r => decide (r.clientId = id) := by
    funext r
    simp only [Function.comp_apply]
    split <;> rfl
  rw [hkeep]
  apply List.map_congr_left
  intro r hr
  have hid : r.clientId = id := by simpa using (List.mem_filter.mp hr).2
  rw [if_pos hid]

theorem estate_flagFile (h : s.client? id = some c) (fileName : Text) (flag : Bool) :
    (s.flagFile id fileName flag).estate site id =
      (s.estate site id).map (·.flagFile fileName flag) := by
  have hclient : (s.flagFile id fileName flag).client? id =
      some { c with filesList := c.filesList.map fun f =>
        if f.fileName = fileName then { f with validCrc := flag } else f } :=
    client?_updateFiles_self h
  rw [estate_of_client? h, Option.map_some, estate_of_client? hclient]
  simp only [Estate.flagFile, Server.flagFile, rows_setValidCrc]
  rfl

theorem estate_addFile (h : s.client? id = some c) {file : File} (hid : file.clientId = id) :
    (s.addFile file).estate site id = (s.estate site id).map (·.addFile file) := by
  subst hid
  have hclient : (s.addFile file).client? file.clientId =
      some { c with filesList := c.filesList ++ [file] } :=
    @client?_updateFiles_self s file.clientId c (· ++ [file]) h
  have hrows : (s.addFile file).db.files.filter (·.clientId = file.clientId) =
      s.db.files.filter (·.clientId = file.clientId) ++ [file] := by
    simp [Server.addFile, Server.updateFiles]
  rw [estate_of_client? h, Option.map_some, estate_of_client? hclient, hrows]
  rfl

/-- A file goes with its record and the rows of its name. -/
theorem estate_discard (h : s.client? id = some c) (fileName : Text) :
    (({ s with disk := s.disk.setFile (site.place c.clientName fileName) none,
               db := s.db.deleteFile fileName } : Server).dropFile id fileName).estate site id =
      (s.estate site id).map fun x => (x.put fileName none).dropFile fileName := by
  let t : Server := { s with
    disk := s.disk.setFile (site.place c.clientName fileName) none
    db := s.db.deleteFile fileName }
  have hclient : (t.dropFile id fileName).client? id =
      some { c with filesList := c.filesList.filter fun f => f.fileName ≠ fileName } :=
    @client?_updateFiles_self t id c _ h
  have hrows : (t.dropFile id fileName).db.files.filter (·.clientId = id) =
      (s.db.files.filter (·.clientId = id)).filter fun r => r.fileName ≠ fileName := by
    change (s.db.files.filter _).filter _ = _
    rw [List.filter_filter, List.filter_filter]
    apply List.filter_congr
    intro r _
    exact Bool.and_comm _ _
  have hcontents := @contents_setFile site s.disk c.clientName fileName none
  rw [estate_of_client? h, Option.map_some, estate_of_client? hclient, hrows]
  change some (Estate.mk _ (fun f => (s.disk.setFile _ none).file _) _) = _
  rw [hcontents]
  rfl

end

/-! A request of the client. -/

/-- The service gives the client this estate and this reply. -/
def Yields (site : Site) (id : Bytes) (r : Server × Reply) (y : Estate × Reply) : Prop :=
  r.1.estate site id = some y.1 ∧ r.2 = y.2

section
variable {site : Site} {s : Server} {id : Bytes} {x : Estate}

/-- What an estate says of the client. -/
theorem estate_eq_some : s.estate site id = some x ↔ ∃ c, s.client? id = some c ∧
    x = ⟨c.undated, fun f => s.disk.file (site.place c.clientName f),
      s.db.files.filter (·.clientId = id)⟩ := by
  rw [Server.estate, Option.map_eq_some_iff]
  constructor
  · intro h
    obtain ⟨c, hc, hx⟩ := h
    exact ⟨c, hc, hx.symm⟩
  · intro h
    obtain ⟨c, hc, hx⟩ := h
    exact ⟨c, hc, hx.symm⟩

variable (draws : Draws)

theorem sendNewAesKey_estate (hx : s.estate site id = some x) (code : Nat) (publicKey : Bytes) :
    Yields site id (sendNewAesKey site draws s code id publicKey)
      (x.sendNewAesKey site draws code publicKey) := by
  obtain ⟨c, hc, hxc⟩ := estate_eq_some.mp hx
  have hid : x.client.clientId = id := by
    rw [hxc]
    exact (Server.client?_eq_some hc).2
  have hkey : (s.withAesKey id draws.aesKey).estate site id = some (x.withAesKey draws.aesKey) := by
    rw [estate_withAesKey hc, hx, Option.map_some]
  simp only [sendNewAesKey, Estate.sendNewAesKey]
  cases (site.importKey publicKey).bind (site.oaepEncrypt · draws.seed draws.aesKey) with
  | none => exact ⟨hkey, rfl⟩
  | some encrypted =>
      refine ⟨hkey, ?_⟩
      simp only [Estate.withAesKey, hid]

/-- A name on the register is that of the client or of another one. -/
theorem named?_cases (hs : WellFormed s) {c : Client} (hc : s.client? id = some c) (name : Text) :
    name = c.clientName ∧ s.named? name = some c ∨
      name ≠ c.clientName ∧ (name ∈ s.names ∧ (∃ other, s.named? name = some other ∧
        id ≠ other.clientId) ∨ name ∉ s.names ∧ s.named? name = none) := by
  obtain ⟨hmem, hid⟩ := Server.client?_eq_some hc
  by_cases hname : name = c.clientName
  · subst hname
    exact .inl ⟨rfl, Keyed.find?_of_mem (fun x : Client => x.clientName) hs.namesDistinct hmem⟩
  · refine .inr ⟨hname, ?_⟩
    cases hnamed : s.named? name with
    | none => exact .inr ⟨named?_none hnamed, rfl⟩
    | some other =>
        obtain ⟨hother, rfl⟩ := Server.named?_eq_some hnamed
        refine .inl ⟨List.mem_map_of_mem hother, other, rfl, ?_⟩
        intro he
        have hsame := Keyed.eq_of_key_eq (fun x : Client => x.clientId) hs.idsDistinct hmem hother
          (hid.trans he)
        exact hname (congrArg (·.clientName) hsame).symm

theorem serveReconnection_estate (hs : WellFormed s) (hx : s.estate site id = some x)
    (name : Text) : Yields site id (serveReconnection site draws s id name)
      (x.reconnection site draws s.names name) := by
  obtain ⟨c, hc, hxc⟩ := estate_eq_some.mp hx
  have hid := (Server.client?_eq_some hc).2
  have hname : x.client.clientName = c.clientName := by rw [hxc]; rfl
  have hkey : x.client.publicKey = c.publicKey := by rw [hxc]; rfl
  have hxid : x.client.clientId = id := by rw [hxc]; exact hid
  simp only [serveReconnection, Estate.reconnection, hname, hkey, hxid]
  obtain ⟨rfl, hnamed⟩ | ⟨hne, ⟨hmem, other, hnamed, hother⟩ | ⟨hmem, hnamed⟩⟩ :=
    named?_cases hs hc name
  · have hseen : (s.seen draws id).estate site id = some x := (estate_seen id).trans hx
    have hown : ¬ id ≠ c.clientId := not_not_intro hid.symm
    simp only [hnamed, if_neg hown, if_true]
    cases site.importKey c.publicKey with
    | none => exact ⟨hseen, rfl⟩
    | some _ => exact sendNewAesKey_estate draws hseen _ _
  · simp only [hnamed, if_pos hother, if_neg hne, if_pos hmem]
    exact ⟨hx, rfl⟩
  · simp only [hnamed, if_neg hne, if_neg hmem]
    exact ⟨hx, rfl⟩

theorem servePublicKey_estate (hs : WellFormed s) (hx : s.estate site id = some x) (name : Text)
    (key : Effects.Outcome PyError Bytes) : Yields site id (servePublicKey site draws s id name key)
      (x.publicKey site draws name key) := by
  obtain ⟨c, hc, hxc⟩ := estate_eq_some.mp hx
  have hid := (Server.client?_eq_some hc).2
  have hname : x.client.clientName = c.clientName := by rw [hxc]; rfl
  simp only [servePublicKey, Estate.publicKey, hname]
  obtain ⟨rfl, hnamed⟩ | ⟨hne, ⟨hmem, other, hnamed, hother⟩ | ⟨hmem, hnamed⟩⟩ :=
    named?_cases hs hc name
  · have hown : ¬ id ≠ c.clientId := not_not_intro hid.symm
    simp only [hnamed, if_neg hown, if_true]
    cases key with
    | blocked => exact ⟨hx, rfl⟩
    | raised e => exact ⟨hx, rfl⟩
    | done key =>
        refine sendNewAesKey_estate draws ?_ _ _
        rw [estate_seen, estate_withPublicKey hc, hx, Option.map_some]
  · simp only [hnamed, if_pos hother, if_neg hne]
    exact ⟨hx, rfl⟩
  · simp only [hnamed, if_neg hne]
    exact ⟨hx, rfl⟩

theorem discardFile_estate (hs : WellFormed s) (hl : Layout site s)
    (hx : s.estate site id = some x) (hkept : x.Kept) {c : Client} (hc : s.client? id = some c)
    {file : File} (hfile : file ∈ c.filesList) :
    Yields site id (discardFile site s id file)
      (match x.contents file.fileName with
      | none => (x, .rejected)
      | some _ => ((x.put file.fileName none).dropFile file.fileName, .answer (.thankYou id))) := by
  obtain ⟨c', hc', hxc⟩ := estate_eq_some.mp hx
  obtain rfl := Option.some.inj (hc.symm.trans hc')
  obtain ⟨hmem, hid⟩ := Server.client?_eq_some hc
  have hlocate := hl.locate_file (List.mem_map_of_mem hmem) (hl.files c hmem file hfile)
  rw [← (hs.owns c hmem file hfile).2] at hlocate
  have hcontents : x.contents file.fileName =
      s.disk.file (site.place c.clientName file.fileName) := by rw [hxc]
  rw [hcontents]
  cases hcontent : s.disk.file (site.place c.clientName file.fileName) with
  | none =>
      have hremove : s.disk.remove site.cwd file.path = none := by
        rw [Option.eq_none_iff_forall_ne_some]
        intro disk hdisk
        obtain ⟨q, old, hq, -, hold, -⟩ := FileTree.remove_eq_some.mp hdisk
        obtain rfl := Option.some.inj (hlocate.symm.trans hq)
        rw [hcontent] at hold
        cases hold
      simp only [discardFile, hremove]
      exact ⟨hx, rfl⟩
  | some old =>
      have hremove : s.disk.remove site.cwd file.path =
          some (s.disk.setFile (site.place c.clientName file.fileName) none) :=
        FileTree.remove_eq_some.mpr ⟨_, old, hlocate, hl.flat _ _, hcontent, rfl⟩
      refine ⟨?_, ?_⟩
      · rw [discardFile_removed site hremove, estate_discard hc, hx, Option.map_some]
      · have hany : s.db.files.any (·.fileName = file.fileName) = true := by
          have hlisted : file ∈ x.client.filesList := by
            rw [hxc]
            exact hfile
          obtain ⟨r, hr, hname⟩ := hkept file hlisted
          rw [hxc] at hr
          refine List.any_eq_true.mpr ⟨r, (List.mem_filter.mp hr).1, ?_⟩
          simpa using hname
        have hrows : (({ s with
            disk := s.disk.setFile (site.place c.clientName file.fileName) none } :
              Server).dropFile id file.fileName).deleteRows file.fileName = some _ := if_pos hany
        simp only [discardFile, hremove, hrows]

theorem serveVerdict_estate (hs : WellFormed s) (hl : Layout site s)
    (hx : s.estate site id = some x) (hkept : x.Kept) (code : Nat) (fileName : Text) :
    Yields site id (serveVerdict site draws s id code fileName) (x.verdict code fileName) := by
  obtain ⟨c, hc, hxc⟩ := estate_eq_some.mp hx
  obtain ⟨hmem, hid⟩ := Server.client?_eq_some hc
  have hfiles : x.client.filesList = c.filesList := by
    rw [hxc]
    rfl
  have hxid : x.client.clientId = id := by
    rw [hxc]
    exact hid
  have hseen : (s.seen draws id).estate site id = some x := (estate_seen id).trans hx
  have hclient : (s.seen draws id).client? id = some { c with lastSeenDate := draws.now } :=
    client?_updateRow_self (fun _ => rfl) hc
  have hlayout : Layout site (s.seen draws id) :=
    hl.update (show (Body.verdict code fileName).Plain from trivial)
      (.seen : Update site draws id (.verdict code fileName) s _)
  simp only [serveVerdict, hc, Estate.verdict, hfiles, hxid]
  cases hfind : c.filesList.find? (·.fileName = fileName) with
  | none => exact ⟨hseen, rfl⟩
  | some file =>
      obtain ⟨hfile, rfl⟩ := find?_fileName_some hfind
      simp only
      by_cases hcrc : file.validCrc
      · simp only [if_pos hcrc]
        exact ⟨hseen, rfl⟩
      · simp only [if_neg hcrc]
        by_cases h900 : code = General.validCrcRequest900
        · simp only [if_pos h900]
          refine ⟨?_, rfl⟩
          rw [estate_flagFile hclient, hseen, Option.map_some]
        · simp only [if_neg h900]
          by_cases h902 : code = General.invalidCrc4thRequest902
          · simp only [if_pos h902]
            exact discardFile_estate (hs.seen draws) hlayout hseen hkept hclient hfile
          · simp only [if_neg h902]
            exact ⟨hseen, rfl⟩

/-- The last packet, when the path of the file leads to its place. -/
theorem finishUpload_estate (hx : s.estate site id = some x) {c : Client} (hid : c.clientId = id)
    (hkey : c.aesKey = x.client.aesKey) {file : File} {p : Packet}
    (hname : file.fileName = p.fileName)
    (hlocate : s.disk.locate site.cwd file.path =
      some (site.place x.client.clientName p.fileName))
    (hflat : s.disk.isDir (site.place x.client.clientName p.fileName) = false) :
    Yields site id (finishUpload site s c file p) (x.finishUpload site p) := by
  obtain ⟨c', hc', hxc⟩ := estate_eq_some.mp hx
  have hxname : x.client.clientName = c'.clientName := by
    rw [hxc]
    rfl
  have hxid : x.client.clientId = id := by
    rw [hxc]
    exact (Server.client?_eq_some hc').2
  have hcontents : s.disk.readFile site.cwd file.path = x.contents p.fileName := by
    simp only [FileTree.readFile, hlocate, hflat, Bool.false_eq_true, if_false]
    rw [hxname, hxc]
  simp only [finishUpload, Estate.finishUpload, hcontents, hkey]
  cases (x.contents p.fileName).bind (decryptContent site x.client.aesKey) with
  | none => exact ⟨hx, rfl⟩
  | some plain =>
      have hstore : s.disk.store site.cwd file.path true plain =
          some (s.disk.setFile (site.place x.client.clientName p.fileName) (some plain)) :=
        FileTree.store_eq_some.mpr ⟨_, hlocate, hflat, rfl⟩
      let place := site.place x.client.clientName p.fileName
      have hput : ({ s with disk := s.disk.setFile place (some plain) } : Server).estate site id =
          some (x.put p.fileName (some plain)) := by
        simp only [place, hxname]
        rw [estate_setFile hc', hx, Option.map_some]
      simp only [hstore]
      by_cases hsize : p.origFileSize = plain.length
      · simp only [if_pos hsize]
        refine ⟨hput, ?_⟩
        simp only [hid, hname, Estate.put, hxid]
      · simp only [if_neg hsize]
        exact ⟨hput, rfl⟩

/-- The record of a packet, on the server and in the estate. -/
theorem recordPacket_estate (hx : s.estate site id = some x) {c : Client}
    (hrow : c.toClientRow.undated = x.client.toClientRow)
    (hfiles : c.filesList = x.client.filesList)
    (howns : c.Owns) (p : Packet) :
    recordPacket s c p = none ∧ x.recordPacket p = none ∨
      ∃ t file y, recordPacket s c p = some (t, file) ∧ x.recordPacket p = some y ∧
        t.estate site id = some y ∧ t.disk = s.disk ∧
        y.client.toClientRow = x.client.toClientRow ∧ file.fileName = p.fileName ∧
        file.path = filePath c.clientName p.fileName := by
  obtain ⟨c', hc', hxc⟩ := estate_eq_some.mp hx
  have hxid : x.client.clientId = id := by
    rw [hxc]
    exact (Server.client?_eq_some hc').2
  have hid : c.clientId = id := by
    rw [← hxid, ← hrow]
    rfl
  have hcname : x.client.clientName = c.clientName := by
    rw [← hrow]
    rfl
  simp only [recordPacket, Estate.recordPacket, ← hfiles]
  cases hfind : c.filesList.find? (·.fileName = p.fileName) with
  | some file =>
      obtain ⟨hfile, hname⟩ := find?_fileName_some hfind
      have hpath : file.path = filePath c.clientName p.fileName := by
        rw [← hname]
        exact (howns file hfile).2
      refine .inr ⟨_, file, _, rfl, rfl, ?_, ?_, ?_, hname, hpath⟩
      · split
        · rw [hid, estate_flagFile hc', hx, Option.map_some]
        · exact hx
      · split <;> rfl
      · split <;> rfl
  | none =>
      by_cases hfirst : p.packetNumber = 1
      · simp only [if_pos hfirst]
        refine .inr ⟨_, _, _, rfl, rfl, ?_, rfl, rfl, rfl, rfl⟩
        rw [estate_addFile hc' hid, hx, Option.map_some, hxid, hid, hcname]
      · refine .inl ⟨if_neg hfirst, if_neg hfirst⟩

theorem servePacket_estate (hs : WellFormed s) (hl : Layout site s)
    (hx : s.estate site id = some x) {p : Packet} (hproper : Proper p.fileName) :
    Yields site id (servePacket site draws s id p) (x.packet site p) := by
  obtain ⟨c, hc, hxc⟩ := estate_eq_some.mp hx
  obtain ⟨hmem, hid⟩ := Server.client?_eq_some hc
  have hcname : c.clientName ∈ s.names := List.mem_map_of_mem hmem
  have hstore := hl.store_eq hcname hproper (decide (p.packetNumber = 1)) p.content
  have hlocate := hl.locate_file hcname hproper
  have hcontents : x.contents p.fileName = s.disk.file (site.place c.clientName p.fileName) := by
    rw [hxc]
  let content := (if p.packetNumber = 1 then []
    else (s.disk.file (site.place c.clientName p.fileName)).getD []) ++ p.content
  let t := ({ s with disk := s.disk.setFile (site.place c.clientName p.fileName) (some content) } :
    Server).seen draws id
  let y := x.put p.fileName (some content)
  have hput : t.estate site id = some y := by
    rw [estate_seen, estate_setFile hc, hx, Option.map_some]
  have hrow : c.toClientRow.undated = y.client.toClientRow := by
    simp only [y, Estate.put, hxc]
    rfl
  have hfiles : c.filesList = y.client.filesList := by
    simp only [y, Estate.put, hxc]
    rfl
  simp only [servePacket, hc, hstore, Estate.packet, hcontents, decide_eq_true_eq]
  obtain ⟨hnone, hnone'⟩ | ⟨u, file, z, hsome, hsome', hz, hdisk, hzrow, hname, hpath⟩ :=
    recordPacket_estate hput hrow hfiles (hs.owns c hmem) p
  · simp only [t, y, content] at hnone hnone'
    simp only [hnone, hnone']
    exact ⟨hput, rfl⟩
  · simp only [t, y, content] at hsome hsome'
    simp only [hsome, hsome']
    have hzname : z.client.clientName = c.clientName := by
      rw [hzrow, ← hrow]
      rfl
    have hzkey : c.aesKey = z.client.aesKey := by
      rw [hzrow, ← hrow]
      rfl
    by_cases hlast : p.packetNumber = p.totalPackets
    · simp only [if_pos hlast]
      refine finishUpload_estate hz hid hzkey hname ?_ ?_
      · rw [hpath, hdisk, hzname]
        exact (FileTree.locate_setFile ..).trans hlocate
      · rw [hdisk, hzname]
        exact hl.flat _ _
    · simp only [if_neg hlast]
      exact ⟨hz, rfl⟩

/-- The folder of a new client can be made. -/
theorem Layout.ensureDir_some (hl : Layout site s) {name : Text} (hname : Proper name) :
    ∃ disk, ensureDir site (clientFolder name) s.disk = some disk :=
  ensureDir_of_creatable (clientFolder_rdropWhile name)
    ⟨_, (FileTree.creatable_iff (clientFolder_rdropWhile name) _).mp (hl.locate_home hname)⟩

/-- Whoever registers, it is for somebody else. -/
theorem serveRegistration_estate (hl : Layout site s) (hx : s.estate site id = some x)
    {name : Text} (hname : Proper name) :
    Yields site id (serveRegistration site draws s name)
      (x, if name ∈ s.names then .rejected else .answer (.registrationDone draws.uuid)) := by
  obtain ⟨c, hc, hxc⟩ := estate_eq_some.mp hx
  rw [serveRegistration]
  cases hnamed : s.named? name with
  | some other =>
      obtain ⟨hmem, rfl⟩ := Server.named?_eq_some hnamed
      have hknown : other.clientName ∈ s.names := List.mem_map_of_mem hmem
      simp only [if_pos hknown]
      exact ⟨(estate_seen _).trans hx, rfl⟩
  | none =>
      obtain ⟨disk, hdir⟩ := hl.ensureDir_some hname
      have hunknown := named?_none hnamed
      simp only [hdir, if_neg hunknown]
      refine ⟨?_, rfl⟩
      have hclient : (({ s with disk := disk } : Server).addClient (newClient draws name)).client?
          id = some c := by
        rw [Server.client?, Server.addClient, List.find?_append]
        exact congrArg (fun o => Option.or o _) hc
      refine (estate_of_client? hclient).trans ?_
      rw [hxc]
      have hfile := ensureDir_file hdir
      simp only [Server.addClient, hfile]

/-- The service does with the estate what the estate says. -/
theorem serve_estate (hs : WellFormed s) (hl : Layout site s) (hx : s.estate site id = some x)
    (hkept : x.Kept) {body : Body} (hplain : body.Plain) :
    Yields site id (serve site draws s id body) (x.serve site draws s.names body) := by
  cases body with
  | registration name => exact serveRegistration_estate draws hl hx hplain
  | reconnection name => exact serveReconnection_estate draws hs hx name
  | publicKey name key => exact servePublicKey_estate draws hs hx name key
  | packet p => exact servePacket_estate draws hs hl hx hplain
  | verdict code fileName => exact serveVerdict_estate draws hs hl hx hkept code fileName

end

namespace Estate

variable {x : Estate}

/-- Two registers that agree on the name a request asks for. -/
theorem serve_names {site : Site} {draws : Draws} {names names' : List Text} {body : Body}
    (h : ∀ name, body = .registration name ∨ body = .reconnection name →
      (name ∈ names ↔ name ∈ names')) :
    x.serve site draws names body = x.serve site draws names' body := by
  cases body with
  | registration name => simp only [Estate.serve, h name (.inl rfl)]
  | reconnection name => simp only [Estate.serve, reconnection, h name (.inr rfl)]
  | publicKey name key => rfl
  | packet p => rfl
  | verdict code fileName => rfl

end Estate

end SecureTransfer
