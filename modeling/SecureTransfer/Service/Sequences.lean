import SecureTransfer.Service.Faults
import SecureTransfer.Service.Verified

/-!
Sequences of packets of one file. What becomes of a packet is decided by its own number:
number 1 truncates the file, any other is appended, and the one that is its own total has
the file decrypted. Nothing links a packet to the one before it, so a 1603 says that the
slices since the last packet numbered 1 decrypt to a file of the size that the last one
announces, and no more.
-/

open Octets (Text)
open Effects Act
open Runs (System)

namespace SecureTransfer

/-- What the server has of a file: whether there is a record, and the bytes at the path. -/
structure Progress where
  recorded : Bool
  stored : Bytes

def Progress.next (site : Site) (key : Bytes) (x : Progress) (p : Packet) : Progress where
  recorded := x.recorded || decide (p.packetNumber = 1)
  stored :=
    if p.packetNumber = p.totalPackets ∧ (p.packetNumber = 1 ∨ x.recorded) then
      (decryptContent site key (p.written x.stored)).getD (p.written x.stored)
    else p.written x.stored

/-- The file of a client is at `q` and has come so far. -/
structure Tracks (site : Site) (owner : Client) (fileName : Text) (q : Location) (x : Progress)
    (s : Server) : Prop where
  wellFormed : WellFormed s
  client : ∃ c, s.client? owner.clientId = some c ∧ c.clientName = owner.clientName ∧
    c.aesKey = owner.aesKey ∧ (fileName ∈ c.filesList.map (·.fileName) ↔ x.recorded = true)
  located : s.disk.locate site.cwd (filePath owner.clientName fileName) = some q
  notDir : s.disk.isDir q = false
  stored : (s.disk.file q).getD [] = x.stored

section
variable {site : Site} {s : Server} {clientId : Bytes} {q : Location}

/-- What a packet does to its client. -/
theorem servePacket_client (draws : Draws) {p : Packet} {c : Client}
    (hc : s.client? clientId = some c)
    (hpaths : ∀ file ∈ c.filesList, file.path = filePath c.clientName file.fileName)
    (hq : s.disk.locate site.cwd (filePath c.clientName p.fileName) = some q)
    (hd : s.disk.isDir q = false) :
    ∃ c', (servePacket site draws s clientId p).1.client? clientId = some c' ∧
      c'.clientName = c.clientName ∧ c'.aesKey = c.aesKey ∧
      (p.fileName ∈ c'.filesList.map (·.fileName) ↔
        p.fileName ∈ c.filesList.map (·.fileName) ∨ p.packetNumber = 1) := by
  obtain ⟨hmem, rfl⟩ := Server.client?_eq_some hc
  let t : Server := s.wrote draws c.clientId q p
  have ht : t.client? c.clientId = some { c with lastSeenDate := draws.now } :=
    client?_updateRow_self (fun _ => rfl) hc
  cases hfind : c.filesList.find? (·.fileName = p.fileName) with
  | some file =>
      obtain ⟨hfile, hname⟩ := find?_fileName_some hfind
      have hpath : file.path = filePath c.clientName p.fileName := hname ▸ hpaths file hfile
      have hrecorded : p.fileName ∈ c.filesList.map (·.fileName) :=
        List.mem_map.mpr ⟨file, hfile, hname⟩
      have hrecord := @recordPacket_found t c p file hfind
      rw [servePacket_recorded site draws hc hq hd hrecord hpath (by split <;> rfl)]
      by_cases hone : p.packetNumber = 1
      · simp only [if_pos hone]
        refine ⟨_, client?_updateFiles_self ht, rfl, rfl, ?_⟩
        have hnames : (c.filesList.map fun f =>
            if f.fileName = p.fileName then { f with validCrc := false } else f).map
              (·.fileName) = c.filesList.map (·.fileName) := by
          rw [List.map_map]
          refine List.map_congr_left fun f _ => ?_
          simp only [Function.comp_apply]
          split <;> rfl
        simp only [hnames, hrecorded, true_or]
      · simp only [if_neg hone]
        exact ⟨_, ht, rfl, rfl, by simp only [hrecorded, true_or]⟩
  | none =>
      have hnew := find?_fileName_none hfind
      by_cases hone : p.packetNumber = 1
      · have hrecord := @recordPacket_new t c p hfind hone
        let file : File := ⟨c.clientId, p.fileName, filePath c.clientName p.fileName, false⟩
        have hadded : (t.addFile file).client? c.clientId =
            some { c with lastSeenDate := draws.now, filesList := c.filesList ++ [file] } :=
          @client?_updateFiles_self t c.clientId _ (· ++ [file]) ht
        rw [servePacket_recorded site draws hc hq hd hrecord rfl rfl]
        refine ⟨_, hadded, rfl, rfl, ?_⟩
        simp [hone, file]
      · have hnone : recordPacket t c p = none := by
          simp only [recordPacket, hfind, if_neg hone]
        rw [servePacket_eq site draws hc hq hd]
        simp only [t] at hnone
        simp only [hnone]
        exact ⟨_, ht, rfl, rfl, by simp only [hone, or_false]⟩

end

namespace Tracks

variable {site : Site} {s : Server} {owner : Client} {fileName : Text} {q : Location}
  {x : Progress} {p : Packet}

theorem next (h : Tracks site owner fileName q x s) {draws : Draws}
    (hfresh : draws.uuid ∉ s.ids) (hname : p.fileName = fileName) :
    Tracks site owner fileName q (x.next site owner.aesKey p)
      (servePacket site draws s owner.clientId p).1 := by
  subst hname
  obtain ⟨c, hc, hcname, hkey, hrecorded⟩ := h.client
  obtain ⟨hmem, -⟩ := Server.client?_eq_some hc
  have hq : s.disk.locate site.cwd (filePath c.clientName p.fileName) = some q :=
    hcname ▸ h.located
  have hdisk := servePacket_disk draws h.wellFormed hc hq h.notDir
  obtain ⟨c', hc', hcname', hkey', hrecorded'⟩ := servePacket_client draws hc
    (fun file hfile => (h.wellFormed.owns c hmem file hfile).2) hq h.notDir
  refine
    { wellFormed := serve_wellFormed site draws h.wellFormed hfresh owner.clientId (.packet p)
      client := ⟨c', hc', hcname'.trans hcname, hkey'.trans hkey, ?_⟩
      located := ?_
      notDir := ?_
      stored := ?_ }
  · simp only [Progress.next, Bool.or_eq_true, decide_eq_true_eq, hrecorded', hrecorded]
  · rw [hdisk, FileTree.locate_setFile]
    exact h.located
  · rw [hdisk]
    exact h.notDir
  · rw [hdisk, FileTree.setFile_file_self, h.stored]
    simp only [Option.getD_some, Packet.left, ← List.mem_map, Progress.next, hkey, hrecorded]

/-- The packets that are answered with a 1603. -/
theorem answered_iff (h : Tracks site owner fileName q x s) (draws : Draws)
    (hname : p.fileName = fileName) {m : Message} :
    (servePacket site draws s owner.clientId p).2 = .answer m ↔
      p.packetNumber = p.totalPackets ∧ (p.packetNumber = 1 ∨ x.recorded = true) ∧
      ∃ plain, decryptContent site owner.aesKey (p.written x.stored) = some plain ∧
        p.origFileSize = plain.length ∧
        m = .fileReceived owner.clientId p.contentSize fileName (Cksum.memcrc plain) := by
  subst hname
  obtain ⟨c, hc, hcname, hkey, hrecorded⟩ := h.client
  obtain ⟨hmem, hid⟩ := Server.client?_eq_some hc
  have hq : s.disk.locate site.cwd (filePath c.clientName p.fileName) = some q :=
    hcname ▸ h.located
  have hpaths : ∀ file ∈ c.filesList, file.path = filePath c.clientName file.fileName :=
    fun file hfile => (h.wellFormed.owns c hmem file hfile).2
  have hserve := servePacket_eq site draws hc hq h.notDir
  rw [← hrecorded, ← hkey, ← hid]
  cases hrecord : recordPacket (s.wrote draws owner.clientId q p) c p with
  | none =>
      simp only [hrecord] at hserve
      rw [hid, hserve]
      constructor
      · intro hanswer
        cases hanswer
      · intro hplain
        obtain ⟨-, hfirst, -⟩ := hplain
        exact absurd hfirst (recordPacket_eq_none hrecord)
  | some r =>
      obtain ⟨t, file⟩ := r
      obtain ⟨hfirst, hdisk, hfile, hpath⟩ := recordPacket_eq_some hpaths hrecord
      simp only at hdisk hfile hpath
      have hbytes : t.disk = s.disk.setFile q (some (p.written x.stored)) := by
        rw [hdisk, ← h.stored]
        rfl
      have hlocated : t.disk.locate site.cwd file.path = some q := by
        rw [hbytes, FileTree.locate_setFile, hpath, hq]
      have hnotDir : t.disk.isDir q = false := by
        rw [hbytes]
        exact h.notDir
      have hcontent : t.disk.file q = some (p.written x.stored) := by
        rw [hbytes, FileTree.setFile_file_self]
      simp only [hrecord] at hserve
      rw [hid, hserve, ← hid, ← hfile]
      by_cases hlast : p.packetNumber = p.totalPackets
      · rw [if_pos hlast, finishUpload_answered_iff site hlocated hnotDir hcontent]
        rw [hfile]
        simp only [hlast, hlast ▸ hfirst, true_and]
      · rw [if_neg hlast]
        simp [hlast]

end Tracks

/-! Runs of packets. -/

/-- Runs in which one client sends packets of one file, with the packets so far. -/
def packetRuns (site : Site) (clientId : Bytes) (fileName : Text) :
    System (Server × List Packet) Event where
  init u := Reachable site u.1 ∧ u.2 = []
  step u e v := (serverRuns site).step u.1 e v.1 ∧
    ∃ p, e.Asks clientId (.packet p) ∧ p.fileName = fileName ∧ v.2 = u.2 ++ [p]

section
variable {site : Site} {clientId : Bytes} {fileName : Text} {u v : Server × List Packet}
  {es : List Event}

theorem packetRuns_step {e : Event} (hs : WellFormed u.1)
    (h : (packetRuns site clientId fileName).step u e v) :
    ∃ draws p, draws.uuid ∉ u.1.ids ∧ p.fileName = fileName ∧
      v.1 = (servePacket site draws u.1 clientId p).1 ∧ v.2 = u.2 ++ [p] := by
  obtain ⟨hstep, p, hasks, hname, hpackets⟩ := h
  cases e with
  | callback draws c =>
      obtain ⟨hfresh, hstep⟩ := hstep
      rw [step_callback site draws c hs hfresh, Reception.next, hasks] at hstep
      exact ⟨draws, p, hfresh, hname, (Option.some.inj hstep).symm, hpackets⟩
  | restart => exact hasks.elim

/-- Packets of a file that cannot be written leave the server as it is. -/
theorem run_unwritable (hs : WellFormed u.1)
    (h : ∀ c q, u.1.client? clientId = some c →
      u.1.disk.locate site.cwd (filePath c.clientName fileName) = some q →
      u.1.disk.isDir q ≠ false)
    (hrun : (packetRuns site clientId fileName).Run u es v) : v.1 = u.1 := by
  refine hrun.invariant (I := fun w => w.1 = u.1) ?_ rfl
  intro w e w' hw hstep
  rw [← hw] at hs h ⊢
  obtain ⟨draws, p, -, hname, hserver, -⟩ := packetRuns_step hs hstep
  subst hname
  rw [hserver, servePacket_unwritable site draws h]

/-- Packets of a file that can be written, one after the other. -/
theorem Tracks.run {owner : Client} {q : Location} {x : Progress}
    (h : Tracks site owner fileName q x u.1)
    (hrun : (packetRuns site owner.clientId fileName).Run u es v) :
    ∃ ps, v.2 = u.2 ++ ps ∧
      Tracks site owner fileName q (ps.foldl (Progress.next site owner.aesKey) x) v.1 := by
  refine hrun.invariant (I := fun w => ∃ ps, w.2 = u.2 ++ ps ∧
    Tracks site owner fileName q (ps.foldl (Progress.next site owner.aesKey) x) w.1) ?_ ?_
  · intro w e w' hw hstep
    obtain ⟨ps, hpackets, htracks⟩ := hw
    obtain ⟨draws, p, hfresh, hname, hserver, hnext⟩ := packetRuns_step htracks.wellFormed hstep
    refine ⟨ps ++ [p], ?_, ?_⟩
    · rw [hnext, hpackets, List.append_assoc]
    · rw [hserver, List.foldl_append]
      exact htracks.next hfresh hname
  · exact ⟨[], (List.append_nil _).symm, h⟩

end

/-! The bytes that a packet finds. -/

/-- The bytes at the path after a packet that has a record. -/
def Packet.kept (site : Site) (key old : Bytes) (p : Packet) : Bytes :=
  if p.packetNumber = p.totalPackets then
    (decryptContent site key (p.written old)).getD (p.written old)
  else p.written old

/-- The bytes at the path once the slice of the last of these packets is written, from the
bytes before the first one. -/
def assembled (site : Site) (key : Bytes) : Bytes → List Packet → Bytes
  | old, [] => old
  | old, [p] => p.written old
  | old, p :: p' :: ps => assembled site key (p.kept site key old) (p' :: ps)

section
variable (site : Site) (key : Bytes)

theorem assembled_concat (ps : List Packet) (p : Packet) (old : Bytes) :
    assembled site key old (ps ++ [p]) = p.written (ps.foldl (Packet.kept site key) old) := by
  induction ps generalizing old with
  | nil => rfl
  | cons p' ps ih =>
      rw [List.foldl_cons, ← ih]
      cases ps with
      | nil => rfl
      | cons _ _ => rfl

/-- Slices that are appended. -/
theorem assembled_appended (ps : List Packet) (old : Bytes)
    (hlater : ∀ p ∈ ps, p.packetNumber ≠ 1)
    (hopen : ∀ p ∈ ps.dropLast, p.packetNumber ≠ p.totalPackets) :
    assembled site key old ps = old ++ ps.flatMap (·.content) := by
  induction ps generalizing old with
  | nil => simp [assembled]
  | cons p ps ih =>
      have hwritten : p.written old = old ++ p.content := by
        rw [Packet.written, if_neg (hlater p List.mem_cons_self)]
      cases ps with
      | nil => simp [assembled, hwritten]
      | cons p' ps =>
          have hkept : p.kept site key old = old ++ p.content := by
            rw [Packet.kept, if_neg (hopen p List.mem_cons_self), hwritten]
          rw [assembled, hkept, ih _ (fun x hx => hlater x (List.mem_cons_of_mem _ hx))
            fun x hx => hopen x (List.mem_cons_of_mem _ hx)]
          simp

/-- From a packet numbered 1 on, what was there before does not matter. -/
theorem assembled_first {first : Packet} (hfirst : first.packetNumber = 1) (rest : List Packet)
    (old old' : Bytes) :
    assembled site key old (first :: rest) = assembled site key old' (first :: rest) := by
  have hwritten : first.written old = first.written old' := by
    simp only [Packet.written, if_pos hfirst]
  cases rest with
  | nil => exact hwritten
  | cons _ _ => simp only [assembled, Packet.kept, hwritten]

theorem assembled_since {first : Packet} (hfirst : first.packetNumber = 1) {rest : List Packet}
    (hlater : ∀ p ∈ rest, p.packetNumber ≠ 1)
    (hopen : ∀ p ∈ (first :: rest).dropLast, p.packetNumber ≠ p.totalPackets) :
    assembled site key [] (first :: rest) = (first :: rest).flatMap (·.content) := by
  have hwritten : first.written [] = first.content := by
    simp only [Packet.written, if_pos hfirst, List.nil_append]
  cases rest with
  | nil => simp [assembled, hwritten]
  | cons p ps =>
      have hkept : first.kept site key [] = first.content := by
        rw [Packet.kept, if_neg (hopen first List.mem_cons_self), hwritten]
      rw [assembled, hkept, assembled_appended site key _ _ hlater
        fun x hx => hopen x (List.mem_cons_of_mem _ hx)]
      rfl

/-- While there is a record, what is stored is what is kept of each packet. -/
theorem foldl_next_recorded {x : Progress} (hx : x.recorded = true) (ps : List Packet) :
    ps.foldl (Progress.next site key) x =
      ⟨true, ps.foldl (Packet.kept site key) x.stored⟩ := by
  induction ps generalizing x with
  | nil => simp [← hx]
  | cons p ps ih =>
      have hrecorded : (x.next site key p).recorded = true := by simp [Progress.next, hx]
      have hstored : (x.next site key p).stored = p.kept site key x.stored := by
        simp [Progress.next, Packet.kept, hx]
      rw [List.foldl_cons, ih hrecorded, hstored, List.foldl_cons]

theorem next_first {x : Progress} {p : Packet} (hp : p.packetNumber = 1) :
    x.next site key p = ⟨true, p.kept site key x.stored⟩ := by
  simp [Progress.next, Packet.kept, hp]

/-- Without a packet numbered 1 no record is made. -/
theorem foldl_next_unrecorded {x : Progress} (ps : List Packet)
    (hnone : ∀ p ∈ ps, p.packetNumber ≠ 1) :
    (ps.foldl (Progress.next site key) x).recorded = x.recorded := by
  induction ps generalizing x with
  | nil => rfl
  | cons p ps ih =>
      rw [List.foldl_cons, ih fun y hy => hnone y (List.mem_cons_of_mem _ hy)]
      simp [Progress.next, hnone p List.mem_cons_self]

/-- The last packet numbered 1. -/
theorem exists_last_first {ps : List Packet} (h : ∃ p ∈ ps, p.packetNumber = 1) :
    ∃ before first rest, ps = before ++ first :: rest ∧ first.packetNumber = 1 ∧
      ∀ p ∈ rest, p.packetNumber ≠ 1 := by
  induction ps with
  | nil =>
      obtain ⟨p, hp, -⟩ := h
      cases hp
  | cons p ps ih =>
      by_cases hlater : ∃ p' ∈ ps, p'.packetNumber = 1
      · obtain ⟨before, first, rest, rfl, hfirst, hrest⟩ := ih hlater
        exact ⟨p :: before, first, rest, rfl, hfirst, hrest⟩
      · obtain ⟨p', hp', hone⟩ := h
        obtain rfl | hmem := List.mem_cons.mp hp'
        · exact ⟨[], p', ps, rfl, hone, fun x hx hx' => hlater ⟨x, hx, hx'⟩⟩
        · exact absurd ⟨p', hmem, hone⟩ hlater

/-- What a packet with a record finds and writes, from the last packet numbered 1 on. -/
theorem written_of_first (x : Progress) {ps before rest : List Packet} {p first : Packet}
    (hall : ps ++ [p] = before ++ first :: rest) (hfirst : first.packetNumber = 1) :
    p.written (ps.foldl (Progress.next site key) x).stored =
      assembled site key [] (first :: rest) := by
  obtain rfl | ⟨mid, last, rfl⟩ := List.eq_nil_or_concat' rest
  · obtain ⟨rfl, hlast⟩ := List.append_inj' hall rfl
    obtain rfl := List.singleton_inj.mp hlast
    rw [assembled, Packet.written, Packet.written, if_pos hfirst, if_pos hfirst]
  · rw [← List.cons_append, ← List.append_assoc] at hall
    obtain ⟨rfl, hlast⟩ := List.append_inj' hall rfl
    obtain rfl := List.singleton_inj.mp hlast
    have hstored := assembled_concat site key (first :: mid) p
      (before.foldl (Progress.next site key) x).stored
    rw [List.foldl_append, List.foldl_cons, next_first site key hfirst,
      foldl_next_recorded site key rfl]
    exact hstored.symm.trans (assembled_first site key hfirst (mid ++ [p]) _ _)

theorem written_of_none {x : Progress} (hx : x.recorded = true) (ps : List Packet) (p : Packet) :
    p.written (ps.foldl (Progress.next site key) x).stored =
      assembled site key x.stored (ps ++ [p]) := by
  rw [foldl_next_recorded site key hx, assembled_concat]

end

/-- A 1603 answers a packet that is its own total. The slices since the last packet numbered 1
decrypt to as many bytes as that packet announces; a packet among them that is its own total
leaves what it decrypts to. Where there is no packet numbered 1, the file had a record before,
and the slices follow what was stored. No packet is taken to have a path to the database, whose
rows a restart would read. -/
theorem acknowledged_uploads (site : Site) (clientId : Bytes) (fileName : Text) {s₀ s : Server}
    {ps : List Packet} {es : List Event} (hs : Reachable site s₀)
    (hrun : (packetRuns site clientId fileName).Run (s₀, []) es (s, ps)) {draws : Draws}
    (hfresh : draws.uuid ∉ s.ids) {conn : Conn} {p : Packet}
    (hasks : (receive conn).incoming = .request clientId (.packet p))
    (hname : p.fileName = fileName) {a : Answer}
    (hsent : ((read site draws).run (calm s conn)).2.conn.answers = conn.answers ++ [a])
    (hcode : a.code = General.fileReceivedCrc1603) :
    ∃ c plain, s₀.client? clientId = some c ∧ p.packetNumber = p.totalPackets ∧
      plain.length = p.origFileSize ∧
      ((∃ before first rest, ps ++ [p] = before ++ first :: rest ∧ first.packetNumber = 1 ∧
          (∀ x ∈ rest, x.packetNumber ≠ 1) ∧
          decryptContent site c.aesKey (assembled site c.aesKey [] (first :: rest)) =
            some plain ∧
          ((∀ x ∈ (first :: rest).dropLast, x.packetNumber ≠ x.totalPackets) →
            decryptContent site c.aesKey ((first :: rest).flatMap (·.content)) = some plain ∧
            ((first :: rest).flatMap (·.content)).length = (plain.length / 16 + 1) * 16)) ∨
        (∀ x ∈ ps ++ [p], x.packetNumber ≠ 1) ∧
          fileName ∈ c.filesList.map (·.fileName) ∧ ∃ q,
            s₀.disk.locate site.cwd (filePath c.clientName fileName) = some q ∧
            decryptContent site c.aesKey
              (assembled site c.aesKey ((s₀.disk.file q).getD []) (ps ++ [p])) = some plain) := by
  subst hname
  have hw : WellFormed s := by
    refine (hrun.invariant (I := fun u => WellFormed u.1) ?_ hs.wellFormed : WellFormed s)
    intro u e v hu hstep
    exact step_wellFormed hu hstep.1
  -- the packet is answered by the service
  obtain ⟨m, hreply, -⟩ | hfailed := read_answers_cases site draws hw hfresh hasks hsent
  swap
  · rw [hfailed] at hcode
    cases hcode
  have hanswer : (servePacket site draws s clientId p).2 = .answer m := hreply
  by_cases hwritable : ∃ c q, s₀.client? clientId = some c ∧
      s₀.disk.locate site.cwd (filePath c.clientName p.fileName) = some q ∧
      s₀.disk.isDir q = false
  · obtain ⟨c, q, hc, hq, hd⟩ := hwritable
    obtain ⟨-, rfl⟩ := Server.client?_eq_some hc
    have hstart : Tracks site c p.fileName q
        ⟨decide (p.fileName ∈ c.filesList.map (·.fileName)), (s₀.disk.file q).getD []⟩ s₀ :=
      { wellFormed := hs.wellFormed
        client := ⟨c, hc, rfl, rfl, decide_eq_true_iff.symm⟩
        located := hq
        notDir := hd
        stored := rfl }
    obtain ⟨ps', hps, htracks⟩ := hstart.run hrun
    obtain rfl : ps = ps' := hps
    obtain ⟨hlast, hrecorded, plain, hplain, hsize, -⟩ :=
      (htracks.answered_iff draws rfl).mp hanswer
    refine ⟨c, plain, hc, hlast, hsize.symm, ?_⟩
    by_cases hone : ∃ x ∈ ps ++ [p], x.packetNumber = 1
    · obtain ⟨before, first, rest, hall, hfirst, hrest⟩ := exists_last_first hone
      rw [written_of_first site c.aesKey _ hall hfirst] at hplain
      refine .inl ⟨before, first, rest, hall, hfirst, hrest, hplain, fun hopen => ?_⟩
      rw [assembled_since site c.aesKey hfirst hrest hopen] at hplain
      refine ⟨hplain, ?_⟩
      rw [decryptContent] at hplain
      split at hplain
      · exact BlockMode.length_of_cbcDecrypt hplain
      · cases hplain
    · have hnone : ∀ x ∈ ps ++ [p], x.packetNumber ≠ 1 := fun x hx hx' => hone ⟨x, hx, hx'⟩
      have hold := hrecorded.resolve_left (hnone p (List.mem_append_right _ List.mem_cons_self))
      rw [foldl_next_unrecorded site c.aesKey ps fun x hx =>
        hnone x (List.mem_append_left _ hx)] at hold
      rw [written_of_none site c.aesKey hold] at hplain
      exact .inr ⟨hnone, of_decide_eq_true hold, q, hq, hplain⟩
  · have hunwritable : ∀ c q, s₀.client? clientId = some c →
        s₀.disk.locate site.cwd (filePath c.clientName p.fileName) = some q →
        s₀.disk.isDir q ≠ false := fun c q hc hq hd => hwritable ⟨c, q, hc, hq, hd⟩
    have hsame : s = s₀ := run_unwritable hs.wellFormed hunwritable hrun
    rw [hsame] at hanswer
    rw [servePacket_unwritable site draws hunwritable] at hanswer
    cases hanswer

/-! A client that leaves out packets and says something else in each of the others. -/

/-- The first half of a ciphertext, as packet 1 of 7 of a file of five bytes. -/
def gapFirst : Packet :=
  { contentSize := 1, origFileSize := 5, packetNumber := 1, totalPackets := 7,
    fileName := ['f'], content := letterCiphertext.take 8 }

/-- The second half, as packet 3 of 3 of a file of one byte. -/
def gapLast : Packet :=
  { contentSize := 2, origFileSize := 1, packetNumber := 3, totalPackets := 3,
    fileName := ['f'], content := letterCiphertext.drop 8 }

theorem fits_gapFirst : (Body.packet gapFirst).Fits :=
  Packet.fits_of_lt (by decide : 1 < 256 ^ 4) (by decide : 5 < 256 ^ 4) (by decide : 1 < 256 ^ 2)
    (by decide : 7 < 256 ^ 2) ⟨by decide, by decide⟩ (by decide)

theorem fits_gapLast : (Body.packet gapLast).Fits :=
  Packet.fits_of_lt (by decide : 2 < 256 ^ 4) (by decide : 1 < 256 ^ 4) (by decide : 3 < 256 ^ 2)
    (by decide : 3 < 256 ^ 2) ⟨by decide, by decide⟩ (by decide)

/-- The server after the first of them. -/
def gapServer : Server :=
  (serve (machine letterCipher) letterDraws keyedServer letterId (.packet gapFirst)).1

def gapConn : Conn := Conn.accepted.withAvail (requestBytes letterId (.packet gapLast) ++ [])

theorem run_gap : (packetRuns (machine letterCipher) letterId ['f']).Run (keyedServer, [])
    [.delivered letterDraws letterId (.packet gapFirst)] (gapServer, [gapFirst]) := by
  have hasks := congrArg Reception.incoming
    (receive_request (rfl : letterId.length = General.clientIdSize) fits_gapFirst [] .accepted)
  refine .cons ⟨?_, gapFirst, hasks, rfl, rfl⟩ (.nil _)
  exact step_delivered (plain_layout reachable_keyedServer).1 (by decide) rfl fits_gapFirst

theorem answered_gap : (servePacket (machine letterCipher) letterDraws gapServer letterId
    gapLast).2 = .answer (.fileReceived letterId 2 ['f'] (Cksum.memcrc [97])) := by
  have hstart : Tracks (machine letterCipher) letterOwner ['f'] [General.folder, ['a'], ['f']]
      ⟨false, []⟩ keyedServer :=
    { wellFormed := (plain_layout reachable_keyedServer).1
      client := ⟨letterOwner, rfl, rfl, rfl, by decide⟩
      located := rfl
      notDir := rfl
      stored := rfl }
  have hfresh : letterDraws.uuid ∉ keyedServer.ids := by decide
  have hnext := hstart.next (p := gapFirst) hfresh rfl
  have hkey : letterKey.length = General.aesKeySize := rfl
  have hplain := @decryptContent_cbcEncrypt (machine letterCipher) letterKey hkey [97]
  have hcipher : BlockMode.cbcEncrypt (machine letterCipher).cipher letterKey [97] =
      letterCiphertext := cbcEncrypt_letter
  rw [hcipher] at hplain
  exact (hnext.answered_iff letterDraws rfl).mpr ⟨rfl, .inr rfl, [97], hplain, rfl, rfl⟩

theorem asks_gap : (receive gapConn).incoming = .request letterId (.packet gapLast) :=
  congrArg Reception.incoming
    (receive_request (rfl : letterId.length = General.clientIdSize) fits_gapLast [] .accepted)

theorem wellFormed_gapServer : WellFormed gapServer :=
  serve_wellFormed _ _ (plain_layout reachable_keyedServer).1 (by decide) _ _

theorem sent_gap : ((read (machine letterCipher) letterDraws).run
      (calm gapServer gapConn)).2.conn.answers = gapConn.answers ++ [crcAnswer] := by
  have hfresh : letterDraws.uuid ∉ gapServer.ids := by decide
  rw [read_answers _ _ wellFormed_gapServer hfresh rfl, message_request asks_gap]
  simp only [serve, answered_gap]
  rfl

/-- Packets 1 of 7 and 3 of 3, with other sizes, are answered with a 1603. -/
theorem gap_acknowledged : Reachable (machine letterCipher) keyedServer ∧
    (packetRuns (machine letterCipher) letterId ['f']).Run (keyedServer, [])
      [.delivered letterDraws letterId (.packet gapFirst)] (gapServer, [gapFirst]) ∧
    (receive gapConn).incoming = .request letterId (.packet gapLast) ∧
    (∃ a, ((read (machine letterCipher) letterDraws).run
        (calm gapServer gapConn)).2.conn.answers = gapConn.answers ++ [a] ∧
      a.code = General.fileReceivedCrc1603) ∧
    [gapFirst, gapLast].map (·.packetNumber) ≠
      (List.range gapLast.totalPackets).map (· + 1) ∧
    gapFirst.totalPackets ≠ gapLast.totalPackets ∧
    gapFirst.contentSize ≠ gapLast.contentSize ∧
    gapFirst.origFileSize ≠ gapLast.origFileSize ∧
    ([gapFirst, gapLast].flatMap (·.content)).length ≠ gapLast.contentSize :=
  ⟨reachable_keyedServer.of_guard, run_gap, asks_gap, ⟨_, sent_gap, rfl⟩, by decide, by decide,
    by decide, by decide, by decide⟩

theorem acknowledged_uploads_gap : ∃ (c : Client) (plain : Bytes),
    keyedServer.client? letterId = some c ∧ gapLast.packetNumber = gapLast.totalPackets ∧
      plain.length = gapLast.origFileSize := by
  obtain ⟨c, plain, hc, hlast, hsize, -⟩ := acknowledged_uploads (machine letterCipher) letterId
    ['f'] reachable_keyedServer.of_guard run_gap (by decide : letterDraws.uuid ∉ gapServer.ids)
    asks_gap rfl sent_gap rfl
  exact ⟨c, plain, hc, hlast, hsize⟩

end SecureTransfer
