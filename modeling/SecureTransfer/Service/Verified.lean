import SecureTransfer.Service.Backing
import SecureTransfer.Service.Flags
import SecureTransfer.Service.Identity
import SecureTransfer.Service.Rejected

/-!
The bytes of a file from its 1603 to its 900 and as long as it counts as verified. Nothing
checks that a 1603 came before a 900, and a packet other than the first changes the bytes of
a verified file and leaves its flag.
-/

open Octets (Text)
open Effects Act
open Runs (System)
open SecureTransfer.ClientSide (packetOf packetOf_fits)

namespace SecureTransfer

/-! What one step does to the bytes at a location. -/

/-- The bytes at the path of a packet of this client once it is handled. -/
def Packet.left (site : Site) (c : Client) (p : Packet) (old : Bytes) : Bytes :=
  if p.packetNumber = p.totalPackets ∧
      (p.packetNumber = 1 ∨ ∃ f ∈ c.filesList, f.fileName = p.fileName) then
    (decryptContent site c.aesKey (p.written old)).getD (p.written old)
  else p.written old

/-- A request that changes the bytes at a location: a packet that leaves others there, or a
902 that is accepted. -/
inductive Alters (site : Site) (s : Server) (q : Location) (id : Bytes) : Body → Prop where
  | packet {c : Client} {p : Packet} (hc : s.client? id = some c)
      (hq : s.disk.locate site.cwd (filePath c.clientName p.fileName) = some q)
      (hne : s.disk.file q ≠ some (p.left site c ((s.disk.file q).getD []))) :
      Alters site s q id (.packet p)
  | discard {c : Client} {file : File} (hc : s.client? id = some c) (hfile : file ∈ c.filesList)
      (hcrc : file.validCrc = false) (hq : s.disk.locate site.cwd file.path = some q) :
      Alters site s q id (.verdict General.invalidCrc4thRequest902 file.fileName)

def Event.Alters (site : Site) (s : Server) (q : Location) (e : Event) : Prop :=
  ∃ id body, e.Asks id body ∧ SecureTransfer.Alters site s q id body

section
variable {site : Site} {s t : Server} {clientId : Bytes} {q : Location} {content : Bytes}

theorem servePacket_disk (draws : Draws) {p : Packet} (hs : WellFormed s) {c : Client}
    (hc : s.client? clientId = some c)
    (hq : s.disk.locate site.cwd (filePath c.clientName p.fileName) = some q)
    (hd : s.disk.isDir q = false) :
    (servePacket site draws s clientId p).1.disk =
      s.disk.setFile q (some (p.left site c ((s.disk.file q).getD []))) := by
  obtain ⟨hmem, -⟩ := Server.client?_eq_some hc
  cases hfind : c.filesList.find? (·.fileName = p.fileName) with
  | some file =>
      obtain ⟨hfile, hname⟩ := find?_fileName_some hfind
      have hpath : file.path = filePath c.clientName p.fileName := by
        rw [(hs.owns c hmem file hfile).2, hname]
      have hrecorded : ∃ f ∈ c.filesList, f.fileName = p.fileName := ⟨file, hfile, hname⟩
      have hrecord := @recordPacket_found (s.wrote draws clientId q p) c p file hfind
      rw [servePacket_recorded site draws hc hq hd hrecord hpath (by split <;> rfl)]
      simp only [Packet.left, hrecorded, or_true, and_true]
  | none =>
      have hnew := mt List.mem_map.mpr (find?_fileName_none hfind)
      by_cases hone : p.packetNumber = 1
      · have hrecord := @recordPacket_new (s.wrote draws clientId q p) c p hfind hone
        rw [servePacket_recorded site draws hc hq hd hrecord rfl rfl]
        simp only [Packet.left, hone, true_or, and_true]
      · have hnone : recordPacket (s.wrote draws clientId q p) c p = none := by
          simp only [recordPacket, hfind, if_neg hone]
        rw [servePacket_eq site draws hc hq hd]
        simp only [hnone, Packet.left, hone, hnew, or_self, and_false, if_false]
        rfl

theorem servePacket_holds (draws : Draws) {p : Packet} (hs : WellFormed s)
    (h : s.disk.Holds q content) (hkeeps : ¬ Alters site s q clientId (.packet p)) :
    (servePacket site draws s clientId p).1.disk.Holds q content := by
  by_cases hwritable : ∃ c r, s.client? clientId = some c ∧
      s.disk.locate site.cwd (filePath c.clientName p.fileName) = some r ∧ s.disk.isDir r = false
  · obtain ⟨c, r, hc, hr, hd⟩ := hwritable
    rw [servePacket_disk draws hs hc hr hd]
    refine h.setFile ?_
    intro hsame
    subst hsame
    by_contra hne
    refine hkeeps (.packet hc hr ?_)
    rw [h.2] at hne ⊢
    exact Ne.symm hne
  · rw [servePacket_unwritable site draws fun c r hc hr hd => hwritable ⟨c, r, hc, hr, hd⟩]
    exact h

theorem serveVerdict_holds (draws : Draws) {code : Nat} {fileName : Text}
    (h : s.disk.Holds q content) (hkeeps : ¬ Alters site s q clientId (.verdict code fileName)) :
    (serveVerdict site draws s clientId code fileName).1.disk.Holds q content := by
  rw [serveVerdict]
  split
  · exact h
  · rename_i c hc
    simp only
    split
    · exact h
    · rename_i file hfind
      obtain ⟨hfile, hname⟩ := find?_fileName_some hfind
      split
      · exact h
      · rename_i hcrc
        split
        · exact h
        · split
          · rename_i hcode
            subst hcode hname
            cases hremove : (s.seen draws clientId).disk.remove site.cwd file.path with
            | none =>
                rw [discardFile, hremove]
                exact h
            | some disk =>
                rw [discardFile_removed site hremove]
                obtain ⟨r, old, hr, -, -, rfl⟩ := FileTree.remove_eq_some.mp hremove
                refine h.setFile fun hsame => ?_
                subst hsame
                exact absurd (.discard hc hfile (by simpa using hcrc) hr) hkeeps
          · exact h

theorem sendNewAesKey_disk (draws : Draws) (code : Nat) (key : Bytes) :
    (sendNewAesKey site draws s code clientId key).1.disk = s.disk := by
  rw [sendNewAesKey]
  split <;> rfl

theorem serve_holds (draws : Draws) {body : Body} (hs : WellFormed s)
    (h : s.disk.Holds q content) (hkeeps : ¬ Alters site s q clientId body) :
    (serve site draws s clientId body).1.disk.Holds q content := by
  cases body with
  | registration name =>
      rw [serve, serveRegistration]
      split
      · exact h
      · split
        · exact h
        · rename_i disk hdir
          exact ensureDir_holds h hdir
  | reconnection name =>
      rw [serve, serveReconnection]
      split
      · exact h
      · split
        · exact h
        · simp only
          split
          · exact h
          · rw [sendNewAesKey_disk]
            exact h
  | publicKey name key =>
      simp only [serve, servePublicKey]
      split
      · exact h
      · split
        · exact h
        · split
          · exact h
          · exact h
          · rw [sendNewAesKey_disk]
            exact h
  | packet p => exact servePacket_holds draws hs h hkeeps
  | verdict code fileName => exact serveVerdict_holds draws h hkeeps

theorem restart_holds (h : s.disk.Holds q content) (hstart : dataBaseHandle site s = some t) :
    t.disk.Holds q content := by
  simp only [dataBaseHandle_apart] at hstart
  split at hstart
  · cases hstart
  · rename_i clients disk hload
    split at hstart
    · cases hstart
    · rename_i disk' hdir
      obtain rfl := Option.some.inj hstart
      exact ensureDir_holds (loadClients_holds h hload) hdir

/-- The bytes at a location stay as long as no request alters them. -/
theorem step_holds {e : Event} (hs : WellFormed s) (hstep : (serverRuns site).step s e t)
    (h : s.disk.Holds q content) (hkeeps : ¬ e.Alters site s q) : t.disk.Holds q content := by
  obtain ⟨hadmissible, hstep⟩ := hstep
  cases e with
  | callback draws c =>
      rw [step_callback site draws c hs hadmissible] at hstep
      obtain rfl := Option.some.inj hstep
      rw [Reception.next]
      split
      · rename_i id body hr
        exact serve_holds draws hs h fun halters => hkeeps ⟨id, body, hr, halters⟩
      · exact h
  | restart => exact restart_holds h hstep

theorem step_isDir {e : Event} (hs : WellFormed s) (hstep : (serverRuns site).step s e t)
    (r : Location) (hr : s.disk.isDir r) : t.disk.isDir r := by
  apply step_invariant hs hstep
  · intro draws c _ hfresh
    exact next_invariant site draws _ hs hfresh
      (fun _ _ _ _ _ _ hdir hupd => hupd.isDir r hdir) hr
  · intro _ t ht
    exact ht.isDir r hr

/-- A client keeps its name. -/
theorem step_clientName {e : Event} (hs : WellFormed s) (hstep : (serverRuns site).step s e t)
    {c : Client} (hc : c ∈ s.clientsList) :
    ∃ c' ∈ t.clientsList, c'.clientId = c.clientId ∧ c'.clientName = c.clientName := by
  have ha : s.accounts c.clientId = some c.toClientRow.account :=
    hs.accounts_iff.mpr ⟨c, hc, rfl, rfl⟩
  have hnamed : ∀ {a : Account}, t.accounts c.clientId = some a → a.clientName = c.clientName →
      ∃ c' ∈ t.clientsList, c'.clientId = c.clientId ∧ c'.clientName = c.clientName := by
    intro a hta hname
    obtain ⟨c', hc', hid, rfl⟩ := (step_wellFormed hs hstep).accounts_iff.mp hta
    exact ⟨c', hc', hid, hname⟩
  obtain ⟨draws, conn, id, body, rfl, -, hexchange⟩ | ⟨-, hsame⟩ := step_accounts hs hstep
  · by_cases hid : c.clientId = id
    · subst hid
      generalize t.accounts = accounts at hexchange hnamed
      generalize (serve site draws s c.clientId body).2 = reply at hexchange
      cases hexchange with
      | kept _ _ => exact hnamed ha rfl
      | registered _ _ hfresh =>
          have hne : c.clientId ≠ draws.uuid := fun he => hfresh (he ▸ List.mem_map_of_mem hc)
          exact hnamed ((Function.update_of_ne hne _ _).trans ha) rfl
      | rekeyed haccount _ =>
          rw [ha] at haccount
          obtain rfl := Option.some.inj haccount
          exact hnamed (Function.update_self _ _ _) rfl
    · exact hnamed (hexchange.foreign hstep.1 hid ha) rfl
  · exact hnamed (hsame ▸ ha) rfl

end

/-! The 1603 for a file, and what follows it. -/

/-- An event with the server that handles it. -/
structure Handled where
  server : Server
  event : Event

/-- Runs with all events so far. -/
def loggedRuns (site : Site) : System (Server × List Handled) Event where
  init p := (serverRuns site).init p.1 ∧ p.2 = []
  step p e q := (serverRuns site).step p.1 e q.1 ∧ q.2 = p.2 ++ [⟨p.1, e⟩]

/-- A last packet of a file at `q` whose bytes decrypt to `plain`, and whose 1603 with the
checksum of `plain` was sent. -/
inductive Announced (site : Site) (h : Handled) (id : Bytes) (fileName : Text) (q : Location)
    (plain : Bytes) : Prop where
  | intro {draws : Draws} {conn : Conn} {c : Client} {p : Packet}
      (hevent : h.event = .callback draws conn)
      (hasks : (receive conn).incoming = .request id (.packet p)) (hname : p.fileName = fileName)
      (hc : h.server.client? id = some c)
      (hq : h.server.disk.locate site.cwd (filePath c.clientName fileName) = some q)
      (hplain : decryptContent site c.aesKey (p.written ((h.server.disk.file q).getD [])) =
        some plain)
      (hanswer : (receive conn).message site draws h.server =
        some (.fileReceived id p.contentSize fileName (Cksum.memcrc plain)))
      (hsent : ((read site draws).run (calm h.server conn)).2.conn.sent = conn.sent ++
        (Message.fileReceived id p.contentSize fileName (Cksum.memcrc plain)).bytes)

/-- The path leads to a file with these bytes. -/
def Reads (site : Site) (s : Server) (path : Text) (q : Location) (plain : Bytes) : Prop :=
  s.disk.locate site.cwd path = some q ∧ s.disk.Holds q plain

/-- A 1603 for the file was sent and a 900 for it followed, and the file has had the bytes of
that 1603 ever since; later ones were for the same bytes. -/
inductive Verified (site : Site) (s : Server) (log : List Handled) (c : Client) (file : File) :
    Prop where
  | intro (before between after : List Handled) (announcement verdict : Handled) {q : Location}
      {plain : Bytes} (hlog : log = before ++ announcement :: (between ++ verdict :: after))
      (hannounced : Announced site announcement c.clientId file.fileName q plain)
      (hverdict : verdict.event.Asks c.clientId
        (.verdict General.validCrcRequest900 file.fileName))
      (hsince : ∀ h ∈ between ++ verdict :: after, Reads site h.server file.path q plain)
      (hlater : ∀ h ∈ between ++ verdict :: after, ∀ r new,
        Announced site h c.clientId file.fileName r new → new = plain)
      (hnow : Reads site s file.path q plain)

/-- A 900 that is accepted comes after a 1603 for its file with no change to its bytes in
between; the bytes of a verified file are changed by its own first packet alone; and at a
restart every row that is flagged is a record. -/
structure Checked (site : Site) (s : Server) (log : List Handled) (e : Event) : Prop where
  announced : ∀ id fileName file, e.Asks id (.verdict General.validCrcRequest900 fileName) →
    s.books.record id fileName = some file → file.validCrc = false →
      ∃ before announcement after q plain, log = before ++ announcement :: after ∧
        Announced site announcement id fileName q plain ∧
        ∀ h ∈ after, ¬ h.event.Alters site h.server q
  spared : ∀ c ∈ s.clientsList, ∀ file ∈ c.filesList, file.validCrc = true →
    ∀ q, s.disk.locate site.cwd file.path = some q → e.Alters site s q →
      ∃ p, e.Asks c.clientId (.packet p) ∧ p.fileName = file.fileName ∧ p.packetNumber = 1
  restored : e = .restart → ∀ row ∈ s.db.files, row.validCrc = true →
    ∃ c ∈ s.clientsList, c.clientId = row.clientId ∧ row ∈ c.filesList

def checkedRuns (site : Site) : System (Server × List Handled) Event :=
  (loggedRuns site).guard fun p e => Checked site p.1 p.2 e

section
variable {site : Site} {s t : Server} {id : Bytes} {fileName path : Text} {q : Location}
  {plain : Bytes}

theorem Reads.readFile (h : Reads site s path q plain) :
    s.disk.readFile site.cwd path = some plain :=
  FileTree.readFile_eq_some.mpr ⟨q, h.1, h.2.1, h.2.2⟩

theorem Reads.step {e : Event} (h : Reads site s path q plain) (hs : WellFormed s)
    (hstep : (serverRuns site).step s e t) (hkeeps : ¬ e.Alters site s q) :
    Reads site t path q plain :=
  ⟨FileTree.locate_mono (step_isDir hs hstep) h.1, step_holds hs hstep h.2 hkeeps⟩

/-- A packet that is answered is written and is the last one. -/
theorem servePacket_answered (draws : Draws) {p : Packet} {m : Message} {c : Client}
    (hc : s.client? id = some c)
    (hq : s.disk.locate site.cwd (filePath c.clientName p.fileName) = some q)
    (hanswer : (servePacket site draws s id p).2 = .answer m) (old : Bytes) :
    s.disk.isDir q = false ∧ p.left site c old =
      (decryptContent site c.aesKey (p.written old)).getD (p.written old) := by
  have hd : s.disk.isDir q = false := by
    cases hd : s.disk.isDir q with
    | false => rfl
    | true =>
        have hstore : s.disk.store site.cwd (filePath c.clientName p.fileName)
            (p.packetNumber = 1) p.content = none := by
          simp only [FileTree.store, hq, hd, if_true]
        simp only [servePacket, hc, hstore] at hanswer
        cases hanswer
  refine ⟨hd, if_pos ?_⟩
  rw [servePacket_eq site draws hc hq hd] at hanswer
  split at hanswer
  · cases hanswer
  · rename_i u file hrecord
    split at hanswer
    · rename_i hlast
      refine ⟨hlast, ?_⟩
      rw [recordPacket] at hrecord
      split at hrecord
      · rename_i file hfind
        obtain ⟨hfile, hname⟩ := find?_fileName_some hfind
        exact .inr ⟨file, hfile, hname⟩
      · split at hrecord
        · exact .inl ‹_›
        · cases hrecord
    · cases hanswer

/-- The file holds the bytes of its 1603. -/
theorem Announced.reads {h : Handled} (ha : Announced site h id fileName q plain)
    (hs : WellFormed h.server) (hstep : (serverRuns site).step h.server h.event t) :
    ∃ c ∈ t.clientsList, c.clientId = id ∧
      Reads site t (filePath c.clientName fileName) q plain := by
  obtain ⟨s, e⟩ := h
  obtain ⟨he, hasks, hname, hc, hq, hplain, hanswer, -⟩ := ha
  subst he hname
  obtain ⟨hmem, hid⟩ := Server.client?_eq_some hc
  obtain ⟨c', hc', hid', hname'⟩ := step_clientName hs hstep hmem
  refine ⟨c', hc', hid'.trans hid, ?_⟩
  rw [hname']
  refine ⟨FileTree.locate_mono (step_isDir hs hstep) hq, ?_⟩
  have hserver := hstep.2
  rw [step_callback site _ _ hs hstep.1, Reception.next, hasks] at hserver
  obtain rfl := Option.some.inj hserver
  rw [message_request hasks] at hanswer
  split at hanswer
  · cases hanswer
  · cases hanswer
  · rename_i m hreply
    obtain ⟨hd, hleft⟩ := servePacket_answered _ hc hq hreply ((s.disk.file q).getD [])
    rw [hplain] at hleft
    simp only [serve, servePacket_disk _ hs hc hq hd, hleft]
    exact ⟨hd, FileTree.setFile_file_self _ _ _⟩
  · cases hanswer
  · cases hanswer

theorem announced_unique {e : Event} (hs : WellFormed s) (hstep : (serverRuns site).step s e t)
    {c : Client} (hc : c ∈ t.clientsList)
    (hreads : Reads site t (filePath c.clientName fileName) q plain) (r : Location) (new : Bytes)
    (ha : Announced site ⟨s, e⟩ c.clientId fileName r new) : new = plain := by
  obtain ⟨c₁, hc₁, hid, hnew⟩ := ha.reads hs hstep
  obtain rfl := Keyed.eq_of_key_eq (fun x : Client => x.clientId)
    (step_wellFormed hs hstep).idsDistinct hc₁ hc hid
  obtain rfl := Option.some.inj (hnew.1.symm.trans hreads.1)
  exact Option.some.inj (hnew.2.2.symm.trans hreads.2.2)

theorem Event.Asks.unique {e : Event} {id id' : Bytes} {body body' : Body}
    (h : e.Asks id body) (h' : e.Asks id' body') : id' = id ∧ body' = body := by
  cases e with
  | callback draws c =>
      have heq := h'.symm.trans h
      exact ⟨(Incoming.request.inj heq).1, (Incoming.request.inj heq).2⟩
  | restart => exact h.elim

/-- Nothing has changed the bytes of a 1603 since. -/
def Followed (site : Site) (s : Server) (log : List Handled) : Prop :=
  ∀ before announcement after id fileName q plain, log = before ++ announcement :: after →
    Announced site announcement id fileName q plain →
    (∀ h ∈ after, ¬ h.event.Alters site h.server q) →
    ∃ c ∈ s.clientsList, c.clientId = id ∧ Reads site s (filePath c.clientName fileName) q plain ∧
      ∀ h ∈ after, Reads site h.server (filePath c.clientName fileName) q plain ∧
        ∀ r new, Announced site h id fileName r new → new = plain

theorem Followed.step {log : List Handled} {e : Event} (h : Followed site s log)
    (hs : WellFormed s) (hstep : (serverRuns site).step s e t) :
    Followed site t (log ++ [⟨s, e⟩]) := by
  intro before announcement after id fileName q plain hlog hannounced hkept
  -- The 1603 is sent by this very step, or the step comes after it.
  obtain rfl | ⟨after, last, rfl⟩ := List.eq_nil_or_concat' after
  · obtain ⟨-, hlast⟩ := List.append_inj' hlog rfl
    obtain rfl := (List.cons.inj hlast).1
    obtain ⟨c, hc, hid, hreads⟩ := hannounced.reads hs hstep
    exact ⟨c, hc, hid, hreads, fun h hh => nomatch hh⟩
  · rw [← List.cons_append, ← List.append_assoc] at hlog
    obtain ⟨hold, hlast⟩ := List.append_inj' hlog rfl
    obtain rfl := (List.cons.inj hlast).1
    obtain ⟨c, hc, hid, hreads, hsince⟩ := h before announcement after id fileName q plain hold
      hannounced fun h hh => hkept h (List.mem_append_left _ hh)
    obtain ⟨c', hc', hid', hname⟩ := step_clientName hs hstep hc
    have hnow := hkept ⟨s, e⟩ (List.mem_append_right _ List.mem_cons_self)
    have hreads' := hreads.step hs hstep hnow
    rw [← hname] at hreads hreads' hsince
    rw [← hid, ← hid'] at hsince ⊢
    refine ⟨c', hc', rfl, hreads', ?_⟩
    intro h hh
    obtain hh | hh := List.mem_append.mp hh
    · exact hsince h hh
    · obtain rfl := List.mem_singleton.mp hh
      exact ⟨hreads, announced_unique hs hstep hc' hreads'⟩

theorem Verified.step {log : List Handled} {e : Event} {c c' : Client} {file : File}
    (h : Verified site s log c file) (hid : c'.clientId = c.clientId) (hs : WellFormed s)
    (hstep : (serverRuns site).step s e t) (hc' : c' ∈ t.clientsList) (hfile : file ∈ c'.filesList)
    (hkeeps : ∀ q plain, Reads site s file.path q plain → ¬ e.Alters site s q) :
    Verified site t (log ++ [⟨s, e⟩]) c' file := by
  obtain ⟨before, between, after, announcement, verdict, hlog, hannounced, hverdict, hsince,
    hlater, hnow⟩ := h
  rw [← hid] at hannounced hverdict hlater
  have hnext := hnow.step hs hstep (hkeeps _ _ hnow)
  refine .intro before between (after ++ [⟨s, e⟩]) announcement verdict ?_ hannounced hverdict ?_
    ?_ hnext
  · rw [hlog, List.append_assoc, List.cons_append, List.append_assoc, List.cons_append]
  · intro h hh
    rw [← List.cons_append, ← List.append_assoc] at hh
    obtain hh | hh := List.mem_append.mp hh
    · exact hsince h hh
    · obtain rfl := List.mem_singleton.mp hh
      exact hnow
  · intro h hh
    rw [← List.cons_append, ← List.append_assoc] at hh
    obtain hh | hh := List.mem_append.mp hh
    · exact hlater h hh
    · obtain rfl := List.mem_singleton.mp hh
      rw [((step_wellFormed hs hstep).owns c' hc' file hfile).2] at hnext
      exact announced_unique hs hstep hc' hnext

/-- A 900 that is accepted under the condition. -/
theorem verified_of_verdict {log : List Handled} {e : Event} {c : Client} {file : File}
    (hfollowed : Followed site s log) (hs : WellFormed s) (hstep : (serverRuns site).step s e t)
    (hchecked : Checked site s log e) (hc : c ∈ s.clientsList) (hfile : file ∈ c.filesList)
    (hcrc : file.validCrc = false)
    (hasks : e.Asks c.clientId (.verdict General.validCrcRequest900 file.fileName)) {c' : Client}
    (hc' : c' ∈ t.clientsList) (hid : c'.clientId = c.clientId) {file' : File}
    (hfile' : file' ∈ c'.filesList) (hname : file'.fileName = file.fileName)
    (hpath : file'.path = file.path) : Verified site t (log ++ [⟨s, e⟩]) c' file' := by
  have hrecord := hs.record_iff.mpr ⟨c, hc, rfl, hfile, rfl⟩
  obtain ⟨before, announcement, after, q, plain, hlog, hannounced, hkept⟩ :=
    hchecked.announced _ _ file hasks hrecord hcrc
  obtain ⟨c₁, hc₁, hid₁, hnow, hsince⟩ := hfollowed _ _ _ _ _ _ _ hlog hannounced hkept
  obtain rfl := Keyed.eq_of_key_eq (fun x : Client => x.clientId) hs.idsDistinct hc₁ hc hid₁
  have hplace : file'.path = filePath c₁.clientName file.fileName :=
    hpath.trans (hs.owns c₁ hc file hfile).2
  have hkeeps : ¬ e.Alters site s q := by
    intro halters
    obtain ⟨id, body, hasks', halters⟩ := halters
    obtain ⟨-, rfl⟩ := hasks.unique hasks'
    cases halters
  rw [← hplace] at hnow hsince
  rw [← hid, ← hname] at hannounced hsince hasks
  have hnext := hnow.step hs hstep hkeeps
  refine .intro before after [] announcement ⟨s, e⟩ ?_ hannounced hasks ?_ ?_ hnext
  · rw [hlog, List.append_assoc, List.cons_append]
  · intro h hh
    obtain hh | hh := List.mem_append.mp hh
    · exact (hsince h hh).1
    · obtain rfl := List.mem_singleton.mp hh
      exact hnow
  · intro h hh
    obtain hh | hh := List.mem_append.mp hh
    · exact (hsince h hh).2
    · obtain rfl := List.mem_singleton.mp hh
      rw [((step_wellFormed hs hstep).owns c' hc' file' hfile').2] at hnext
      exact announced_unique hs hstep hc' hnext

/-- The first packet of a file that can be written sets its flag to false. -/
theorem setsFlag_of_first {c : Client} {file : File} {p : Packet} (hs : WellFormed s)
    (hc : c ∈ s.clientsList) (hfile : file ∈ c.filesList) (hreads : Reads site s file.path q plain)
    (hname : p.fileName = file.fileName) (hfirst : p.packetNumber = 1) :
    SetsFlag site s c.clientId (.packet p) file.fileName false := by
  have hpath : file.path = filePath c.clientName p.fileName := by
    rw [(hs.owns c hc file hfile).2, hname]
  have hstore : s.disk.store site.cwd (filePath c.clientName p.fileName) true p.content =
      some (s.disk.setFile q (some ([] ++ p.content))) :=
    FileTree.store_eq_some.mpr ⟨q, hpath ▸ hreads.1, hreads.2.1, rfl⟩
  rw [← hname]
  refine .first (Server.client?_of_mem hs.idsDistinct hc) ?_ hfirst hstore
  exact List.mem_map.mpr ⟨file, hfile, hname.symm⟩

/-- All files that count as verified are. -/
def AllVerified (site : Site) (s : Server) (log : List Handled) : Prop :=
  ∀ c ∈ s.clientsList, ∀ file ∈ c.filesList, file.validCrc = true → Verified site s log c file

/-- A record that counts as verified after a request did so before, and the request was not
its first packet; or the request was a 900 for it. -/
theorem Booked.verified {id id' : Bytes} {body : Body} {b : Books} {fileName : Text} {file : File}
    (h : Booked site s id body b) (hrecord : b.record id' fileName = some file)
    (hcrc : file.validCrc = true) :
    (s.books.record id' fileName = some file ∧
      (id' = id → ¬ SetsFlag site s id body fileName false)) ∨
    (id' = id ∧ body = .verdict General.validCrcRequest900 fileName ∧
      ∃ old, s.books.record id fileName = some old ∧ old.validCrc = false ∧
        old.flagged true = file) := by
  cases h with
  | same hno => exact .inl ⟨hrecord, fun _ => hno _ _⟩
  | @flagged fileName' flag hflag =>
      simp only [Books.flag] at hrecord
      split at hrecord
      · rename_i hkey
        obtain ⟨rfl, rfl⟩ := hkey
        obtain ⟨old, hold, hfile⟩ := Option.map_eq_some_iff.mp hrecord
        have hflagged : flag = true := by
          rw [← hfile] at hcrc
          exact hcrc
        subst hflagged
        cases hflag with
        | @valid _ file₀ hrecord₀ hcrc₀ =>
            obtain rfl := Option.some.inj (hold.symm.trans hrecord₀)
            exact .inr ⟨rfl, rfl, old, hold, hcrc₀, hfile⟩
      · rename_i hkey
        refine .inl ⟨hrecord, fun hid hfirst => ?_⟩
        exact hkey ⟨hid, (hfirst.unique hflag).1⟩
  | @recorded c p hbody hfirst hc hid hnew =>
      simp only [Books.add] at hrecord
      split at hrecord
      · obtain rfl := Option.some.inj hrecord
        cases hcrc
      · rename_i hkey
        refine .inl ⟨hrecord, fun hid' hflag => ?_⟩
        have hname := hflag.fileName
        rw [hbody] at hname
        exact hkey ⟨hid', (Option.some.inj hname).symm⟩
  | discarded hbody _ _ =>
      simp only [Books.discard] at hrecord
      split at hrecord
      · cases hrecord
      · refine .inl ⟨hrecord, fun _ hflag => ?_⟩
        rw [hbody] at hflag
        cases hflag

/-- A record that was there, flagged, and whose first packet this is not. -/
theorem AllVerified.carried {log : List Handled} {e : Event} (hs : WellFormed s)
    (h : AllVerified site s log) (hstep : (serverRuns site).step s e t)
    (hchecked : Checked site s log e) {c : Client} (hc : c ∈ t.clientsList) {file : File}
    (hfile : file ∈ c.filesList) (hcrc : file.validCrc = true)
    (hold : s.books.record c.clientId file.fileName = some file)
    (hnot : ∀ p, e.Asks c.clientId (.packet p) →
      ¬ SetsFlag site s c.clientId (.packet p) file.fileName false) :
    Verified site t (log ++ [⟨s, e⟩]) c file := by
  obtain ⟨c₀, hc₀, hid, hmem, -⟩ := hs.record_iff.mp hold
  refine (h c₀ hc₀ file hmem hcrc).step hid.symm hs hstep hc hfile fun q plain hreads halters => ?_
  obtain ⟨p, hasks, hname, hfirst⟩ := hchecked.spared c₀ hc₀ file hmem hcrc q hreads.1 halters
  rw [← hid] at hnot
  exact hnot p hasks (setsFlag_of_first hs hc₀ hmem hreads hname hfirst)

/-- A step that meets the condition. -/
theorem step_allVerified {log : List Handled} {e : Event} (hs : WellFormed s)
    (hfollowed : Followed site s log) (h : AllVerified site s log)
    (hstep : (serverRuns site).step s e t) (hchecked : Checked site s log e) :
    AllVerified site t (log ++ [⟨s, e⟩]) := by
  intro c' hc' file hfile hcrc
  have hrecord : t.books.record c'.clientId file.fileName = some file :=
    (step_wellFormed hs hstep).record_iff.mpr ⟨c', hc', rfl, hfile, rfl⟩
  obtain ⟨id, body, hasks, hbooked⟩ | ⟨hnone, hsame | ⟨he, hrestored⟩⟩ := step_books hs hstep
  · obtain ⟨hold, hnot⟩ | ⟨hid, hbody, old, hold, hcrc₀, hflagged⟩ := hbooked.verified hrecord hcrc
    · refine h.carried hs hstep hchecked hc' hfile hcrc hold fun p hasks' hflag => ?_
      obtain ⟨hid, hbody⟩ := hasks.unique hasks'
      rw [hid, hbody] at hflag
      exact hnot hid hflag
    · obtain ⟨c, hc, hcid, hmem, hname⟩ := hs.record_iff.mp hold
      rw [hbody, ← hcid, ← hname] at hasks
      exact verified_of_verdict hfollowed hs hstep hchecked hc hmem hcrc₀ hasks hc'
        (hid.trans hcid.symm) hfile hname.symm (hflagged ▸ rfl)
  · rw [hsame] at hrecord
    exact h.carried hs hstep hchecked hc' hfile hcrc hrecord fun p hasks =>
      absurd hasks (hnone _ _)
  · rw [hrestored] at hrecord
    obtain ⟨hrow, hid, -⟩ := hs.row_iff.mp hrecord
    obtain ⟨c, hc, hcid, hmem⟩ := hchecked.restored he file hrow hcrc
    have hold : s.books.record c'.clientId file.fileName = some file :=
      hs.record_iff.mpr ⟨c, hc, hcid.trans hid, hmem, rfl⟩
    exact h.carried hs hstep hchecked hc' hfile hcrc hold fun p hasks => absurd hasks (hnone _ _)

theorem allVerified_of_checked {p : Server × List Handled}
    (h : (checkedRuns site).Reachable p) :
    WellFormed p.1 ∧ Followed site p.1 p.2 ∧ AllVerified site p.1 p.2 := by
  refine System.Reachable.invariant
    (I := fun p => WellFormed p.1 ∧ Followed site p.1 p.2 ∧ AllVerified site p.1 p.2) ?_ ?_ h
  · intro p hinit
    obtain ⟨⟨s₀, h₀, hstart⟩, hlog⟩ := hinit
    obtain ⟨hclients, -⟩ := start_some h₀ hstart
    refine ⟨start_wellFormed h₀ hstart, ?_, ?_⟩
    · intro before announcement after id fileName q plain hsplit
      rw [hlog] at hsplit
      cases List.append_eq_nil_iff.mp hsplit.symm |>.2
    · intro c hc
      rw [hclients] at hc
      cases hc
  · intro p e p' hp hstep
    obtain ⟨hs, hfollowed, hverified⟩ := hp
    obtain ⟨⟨hserver, hlog⟩, hchecked⟩ := hstep
    rw [hlog]
    exact ⟨step_wellFormed hs hserver, hfollowed.step hs hserver,
      step_allVerified hs hfollowed hverified hserver hchecked⟩

end

/-- In runs whose steps meet the condition, a file that counts as verified was announced with
a 1603, a 900 for it followed, and its bytes on disk have been the ones announced since; all
later 1603 for it announced the same bytes. No packet is taken to have a path to the database,
which on a site is apart from the disk. -/
theorem verified_is_checked (site : Site) (s : Server) (log : List Handled)
    (h : (checkedRuns site).Reachable (s, log)) :
    ∀ c ∈ s.clientsList, ∀ file ∈ c.filesList, file.validCrc = true →
      ∃ before announcement between verdict after q plain,
        log = before ++ announcement :: (between ++ verdict :: after) ∧
        Announced site announcement c.clientId file.fileName q plain ∧
        verdict.event.Asks c.clientId (.verdict General.validCrcRequest900 file.fileName) ∧
        (∀ h ∈ between ++ verdict :: after,
          h.server.disk.readFile site.cwd file.path = some plain ∧
          ∀ r new, Announced site h c.clientId file.fileName r new → new = plain) ∧
        s.disk.readFile site.cwd file.path = some plain := by
  intro c hc file hfile hcrc
  obtain ⟨before, between, after, announcement, verdict, hlog, hannounced, hverdict, hsince,
    hlater, hnow⟩ := (allVerified_of_checked h).2.2 c hc file hfile hcrc
  exact ⟨before, announcement, between, verdict, after, _, _, hlog, hannounced, hverdict,
    fun h hh => ⟨(hsince h hh).readFile, hlater h hh⟩, hnow.readFile⟩

/-! Requests delivered one after another. -/

section
variable {site : Site} {draws : Draws} {s : Server} {log : List Handled} {clientId : Bytes}
  {body : Body}

theorem logged_served {G : Server × List Handled → Event → Prop}
    (h : ((loggedRuns site).guard G).Reachable (s, log)) (hs : WellFormed s)
    (hfresh : draws.uuid ∉ s.ids) (hid : clientId.length = General.clientIdSize)
    (hfits : body.Fits) (hG : G (s, log) (.delivered draws clientId body)) :
    ((loggedRuns site).guard G).Reachable
      ((serve site draws s clientId body).1, log ++ [⟨s, .delivered draws clientId body⟩]) :=
  System.Reachable.step h ⟨⟨step_delivered hs hfresh hid hfits, rfl⟩, hG⟩

theorem announced_of_served {c : Client} {p : Packet} {q : Location} {plain : Bytes}
    (hs : WellFormed s) (hfresh : draws.uuid ∉ s.ids)
    (hid : clientId.length = General.clientIdSize) (hfits : (Body.packet p).Fits)
    (hc : s.client? clientId = some c)
    (hq : s.disk.locate site.cwd (filePath c.clientName p.fileName) = some q)
    (hplain : decryptContent site c.aesKey (p.written ((s.disk.file q).getD [])) = some plain)
    (hreply : (serve site draws s clientId (.packet p)).2 =
      .answer (.fileReceived clientId p.contentSize p.fileName (Cksum.memcrc plain))) :
    Announced site ⟨s, .delivered draws clientId (.packet p)⟩ clientId p.fileName q plain := by
  have hasks := congrArg Reception.incoming (receive_request hid hfits [] .accepted)
  have hanswer := @message_request site draws s _ _ _ hasks
  simp only [hreply] at hanswer
  have hleft : (Conn.accepted.withAvail (requestBytes clientId (.packet p) ++ [])).sendsLeft =
      none := rfl
  have hsent := read_sent site draws hs hfresh hleft
  rw [hanswer, Option.elim_some] at hsent
  exact .intro rfl hasks rfl hc hq hplain hanswer hsent

/-- Only a packet that is answered announces a file. -/
theorem Announced.served (hid : clientId.length = General.clientIdSize) (hfits : body.Fits)
    {id : Bytes} {fileName : Text} {q : Location} {plain : Bytes}
    (h : Announced site ⟨s, .delivered draws clientId body⟩ id fileName q plain) :
    (∃ p, body = .packet p) ∧ ∃ m, (serve site draws s clientId body).2 = .answer m := by
  obtain ⟨hevent, hasks, -, -, -, -, hanswer, -⟩ := h
  obtain ⟨rfl, rfl⟩ := Event.callback.inj hevent
  have hsame := asks_delivered hid hfits draws hasks
  rw [message_request hasks] at hanswer
  rw [← hsame.1, ← hsame.2]
  refine ⟨⟨_, rfl⟩, ?_⟩
  split at hanswer
  · cases hanswer
  · cases hanswer
  · exact ⟨_, ‹_›⟩
  · cases hanswer
  · cases hanswer

/-- As long as nothing is verified all requests but a 900 meet the condition. -/
theorem checked_unverified (hid : clientId.length = General.clientIdSize) (hfits : body.Fits)
    (hnone : ∀ c ∈ s.clientsList, ∀ file ∈ c.filesList, file.validCrc = false)
    (hbody : ∀ fileName, body ≠ .verdict General.validCrcRequest900 fileName) :
    Checked site s log (.delivered draws clientId body) where
  announced := by
    intro id fileName file hasks
    exact absurd (asks_delivered hid hfits draws hasks).2.symm (hbody fileName)
  spared := by
    intro c hc file hfile hcrc
    rw [hnone c hc file hfile] at hcrc
    cases hcrc
  restored := fun h => nomatch h

end

/-- The run that makes `x` a verified file. -/
def unannouncedLog : List Handled :=
  [⟨startedServer, .delivered (sameDraws 1) (List.replicate 16 0) (.registration ['a'])⟩,
    ⟨oneClient, .delivered (sameDraws 2) oneClientId (.packet (openingPacket ['x']))⟩,
    ⟨begunX, .delivered (sameDraws 2) oneClientId (.verdict General.validCrcRequest900 ['x'])⟩]

/-- A file whose upload is not complete becomes a verified one, and there was no 1603. -/
theorem verified_unannounced : ∃ p, (loggedRuns bareSite).Reachable p ∧
    ∃ c ∈ p.1.clientsList, ∃ file ∈ c.filesList, file.validCrc = true ∧
      ∀ h ∈ p.2, ∀ id fileName q plain, ¬ Announced bareSite h id fileName q plain := by
  have hregistration : (Body.registration ['a']).Fits := ⟨by decide, by decide⟩
  have hverdict : (Body.verdict General.validCrcRequest900 ['x']).Fits :=
    ⟨⟨by decide, by decide⟩, .inl rfl⟩
  have hbegun : Reachable bareSite begunX :=
    reachable_oneClient.served (by decide) (by decide) fits_openingX
  have h₀ : ((loggedRuns bareSite).guard fun _ _ => True).Reachable (startedServer, []) :=
    ⟨_, [], ⟨init_startedServer _, rfl⟩, .nil _⟩
  have h₁ : ((loggedRuns bareSite).guard fun _ _ => True).Reachable
      (oneClient, unannouncedLog.take 1) :=
    logged_served h₀ reachable_startedServer.wellFormed (by decide) (by decide)
      hregistration trivial
  have h₂ : ((loggedRuns bareSite).guard fun _ _ => True).Reachable
      (begunX, unannouncedLog.take 2) :=
    logged_served h₁ reachable_oneClient.wellFormed (by decide) (by decide) fits_openingX trivial
  have h₃ : ((loggedRuns bareSite).guard fun _ _ => True).Reachable (verifiedX, unannouncedLog) :=
    logged_served h₂ hbegun.wellFormed (by decide) (by decide) hverdict trivial
  refine ⟨_, h₃.of_guard, _, List.mem_cons_self, _, List.mem_cons_self, rfl, ?_⟩
  intro h hh id fileName q plain hannounced
  simp only [unannouncedLog, List.mem_cons, List.not_mem_nil, or_false] at hh
  obtain rfl | rfl | rfl := hh
  · obtain ⟨⟨p, hp⟩, -⟩ := hannounced.served (by decide) hregistration
    cases hp
  · obtain ⟨-, m, hm⟩ := hannounced.served (by decide) fits_openingX
    cases hm
  · obtain ⟨⟨p, hp⟩, -⟩ := hannounced.served (by decide) hverdict
    cases hp

/-! The file of the client `a` is uploaded and verified. -/

/-- The server after the 900. -/
def verifiedServer : Server :=
  (serve (machine letterCipher) letterDraws uploadedServer letterId
    (.verdict General.validCrcRequest900 ['f'])).1

/-- The upload with the server it finds. -/
def letterUpload : Handled :=
  ⟨keyedServer, .delivered letterDraws letterId (.packet (packetOf letterCiphertext [97] ['f'] 0))⟩

def announcedLog : List Handled :=
  [⟨startedServer, .delivered (sameDraws 1) (List.replicate 16 0) (.registration ['a'])⟩,
    ⟨registeredServer, .delivered letterDraws letterId
      (.publicKey ['a'] (.done (List.replicate 160 0)))⟩, letterUpload]

theorem fits_letter : (Body.packet (packetOf letterCiphertext [97] ['f'] 0)).Fits :=
  packetOf_fits [97] (by decide) ⟨by decide, by decide⟩ (by decide)

theorem announced_letter : Announced (machine letterCipher) letterUpload letterId ['f']
    [General.folder, ['a'], ['f']] [97] := by
  have hs := (plain_layout reachable_keyedServer).1
  have hfresh : letterDraws.uuid ∉ keyedServer.ids := by decide
  have hkey : letterKey.length = General.aesKeySize := rfl
  have hid : letterId.length = General.clientIdSize := rfl
  have hplain := @decryptContent_cbcEncrypt (machine letterCipher) letterKey hkey [97]
  have hcipher : BlockMode.cbcEncrypt (machine letterCipher).cipher letterKey [97] =
      letterCiphertext := cbcEncrypt_letter
  rw [hcipher] at hplain
  exact announced_of_served (c := letterOwner) hs hfresh hid fits_letter rfl rfl hplain rfl

theorem checked_verifiedServer : (checkedRuns (machine letterCipher)).Reachable
    (verifiedServer, announcedLog ++ [⟨uploadedServer, .delivered letterDraws letterId
      (.verdict General.validCrcRequest900 ['f'])⟩]) := by
  have hregistration : (Body.registration ['a']).Fits := ⟨by decide, by decide⟩
  have hexchange : (Body.publicKey ['a'] (.done (List.replicate 160 0))).Fits :=
    ⟨⟨by decide, by decide⟩, _, rfl, rfl⟩
  have hverdict : (Body.verdict General.validCrcRequest900 ['f']).Fits :=
    ⟨⟨by decide, by decide⟩, .inl rfl⟩
  have hnone : (List.replicate 16 (0 : UInt8)).length = General.clientIdSize := rfl
  have hid : letterId.length = General.clientIdSize := rfl
  have h₀ : (checkedRuns (machine letterCipher)).Reachable (startedServer, []) :=
    ⟨_, [], ⟨init_startedServer _, rfl⟩, .nil _⟩
  have hw₀ := (allVerified_of_checked h₀).1
  have h₁ : (checkedRuns (machine letterCipher)).Reachable
      (registeredServer, announcedLog.take 1) :=
    logged_served h₀ hw₀ (by decide) hnone hregistration
      (checked_unverified hnone hregistration (fun _ hc => nomatch hc) fun _ h => nomatch h)
  have hw₁ := (allVerified_of_checked h₁).1
  have h₂ : (checkedRuns (machine letterCipher)).Reachable (keyedServer, announcedLog.take 2) :=
    logged_served h₁ hw₁ (by decide) hid hexchange
      (checked_unverified hid hexchange (by decide) fun _ h => nomatch h)
  have hw₂ := (allVerified_of_checked h₂).1
  have h₃ : (checkedRuns (machine letterCipher)).Reachable (uploadedServer, announcedLog) :=
    logged_served h₂ hw₂ (by decide) hid fits_letter
      (checked_unverified hid fits_letter (by decide) fun _ h => nomatch h)
  have hw₃ := (allVerified_of_checked h₃).1
  refine logged_served h₃ hw₃ (by decide) hid hverdict ⟨?_, ?_, fun h => nomatch h⟩
  · intro id fileName file hasks _ _
    obtain ⟨rfl, hbody⟩ := asks_delivered hid hverdict letterDraws hasks
    obtain rfl := (Body.verdict.inj hbody).2
    exact ⟨announcedLog.take 2, letterUpload, [], _, _, rfl, announced_letter,
      fun h hh => nomatch hh⟩
  · intro c hc file hfile hcrc
    rw [clientsList_uploadedServer] at hc
    obtain rfl := List.mem_singleton.mp hc
    obtain rfl := List.mem_singleton.mp hfile
    cases hcrc

def verifiedFile : File := { letterFile with validCrc := true }

def verifiedClient : Client := { uploader with filesList := [verifiedFile] }

theorem clientsList_verifiedServer : verifiedServer.clientsList = [verifiedClient] := rfl

theorem verified_is_checked_letter : ∃ q plain,
    (∃ h ∈ announcedLog ++ [⟨uploadedServer, .delivered letterDraws letterId
        (.verdict General.validCrcRequest900 ['f'])⟩],
      Announced (machine letterCipher) h letterId ['f'] q plain) ∧
    verifiedServer.disk.readFile [] verifiedFile.path = some plain := by
  have hmem : verifiedClient ∈ verifiedServer.clientsList := by
    rw [clientsList_verifiedServer]
    exact List.mem_cons_self
  obtain ⟨before, announcement, between, verdict, after, q, plain, hlog, hannounced, -, -, hread⟩ :=
    verified_is_checked (machine letterCipher) _ _ checked_verifiedServer verifiedClient hmem
      verifiedFile List.mem_cons_self rfl
  refine ⟨q, plain, ⟨announcement, ?_, hannounced⟩, hread⟩
  rw [hlog]
  exact List.mem_append_right _ List.mem_cons_self

end SecureTransfer
