import SecureTransfer.Client.Sizes
import SecureTransfer.Service.Upload

/-!
A file from the loop of `send_file` to the disk of the server, with requests of other
clients between its packets.
-/

open Octets (Text encodeUtf8)
open FileTree (Proper)
open Effects Act
open Runs (System)
open Dialogue (Prog)
open SecureTransfer.ClientSide (packetCount packetMaxSize packetOf slice maxCiphertext packetOf_fits
  lt_packetCount_iff take_append_slice)

namespace SecureTransfer

/-! Ids and stored keys have their sizes. -/

def Client.Sized (c : Client) : Prop :=
  c.clientId.length = General.clientIdSize ∧
    (c.aesKey = [] ∨ c.aesKey.length = General.aesKeySize)

def Sized (s : Server) : Prop := ∀ c ∈ s.clientsList, c.Sized

section
variable {site : Site} {s t : Server}

theorem sized_updateRow (h : Sized s) {clientId : Bytes} {f : ClientRow → ClientRow}
    (hid : ∀ r, (f r).clientId = r.clientId)
    (hkey : ∀ r, (f r).aesKey = r.aesKey ∨ (f r).aesKey.length = General.aesKeySize) :
    Sized (s.updateRow clientId f) := by
  intro c' hc'
  obtain ⟨c, hc, rfl⟩ := Server.mem_updateRow.mp hc'
  split
  · refine ⟨(congrArg List.length (hid c.toClientRow)).trans (h c hc).1, ?_⟩
    rcases hkey c.toClientRow with hsame | hnew
    · exact hsame ▸ (h c hc).2
    · exact .inr hnew
  · exact h c hc

theorem sized_updateFiles (h : Sized s) {clientId : Bytes} (f : List File → List File) :
    Sized (s.updateFiles clientId f) := by
  intro c' hc'
  obtain ⟨c, hc, rfl⟩ := Server.mem_updateFiles.mp hc'
  split <;> exact h c hc

theorem Update.sized (h : Sized s) {draws : Draws} {clientId : Bytes} {body : Body}
    (hupd : Update site draws clientId body s t) : Sized t := by
  cases hupd with
  | seen | publicKey => exact sized_updateRow h (fun _ => rfl) fun _ => .inl rfl
  | aesKey => exact sized_updateRow h (fun _ => rfl) fun _ => .inr draws.length_aesKey
  | write _ _ _ _ => exact h
  | @flag c file flag _ _ _ _ =>
      exact sized_updateFiles h (List.map fun f =>
        if f.fileName = file.fileName then { f with validCrc := flag } else f)
  | @record c p _ _ _ _ _ =>
      exact sized_updateFiles h
        (· ++ [⟨c.clientId, p.fileName, filePath c.clientName p.fileName, false⟩])
  | @discard c file disk _ _ _ _ _ _ =>
      exact sized_updateFiles h (List.filter fun f => f.fileName ≠ file.fileName)
  | register _ _ _ _ =>
      intro c hc
      rcases List.mem_append.mp hc with hc | hc
      · exact h c hc
      · obtain rfl := List.mem_singleton.mp hc
        exact ⟨draws.length_uuid, .inl rfl⟩

theorem Restarted.sized (hs : WellFormed s) (h : Sized s) (ht : Restarted site s t) :
    Sized t := by
  intro c hc
  rw [ht.clientsList, rebuilt, ht.db, if_pos hs.hasTables, hs.rows] at hc
  obtain ⟨row, hrow, rfl⟩ := List.mem_map.mp hc
  obtain ⟨c₀, hc₀, rfl⟩ := List.mem_map.mp hrow
  exact h c₀ hc₀

theorem Reachable.sized (h : Reachable site s) : Sized s := by
  have hboth : WellFormed s ∧ Sized s := by
    refine System.Reachable.invariant (I := fun s => WellFormed s ∧ Sized s) ?_ ?_ h
    · rintro s ⟨s₀, h₀, hstart⟩
      refine ⟨start_wellFormed h₀ hstart, ?_⟩
      intro c hc
      rw [(start_some h₀ hstart).1] at hc
      cases hc
    · rintro s e t ⟨hs, hsized⟩ hstep
      refine ⟨step_wellFormed hs hstep, step_invariant hs hstep ?_ ?_⟩
      · rintro draws c rfl hfresh
        exact next_invariant site draws _ hs hfresh (fun _ _ _ _ _ _ hk hupd => hupd.sized hk)
          hsized
      · rintro rfl t ht
        exact ht.sized hs hsized
  exact hboth.2

end

/-! The packets of one client among requests of others. -/

/-- What a callback sends on its connection. -/
def callbackSends (site : Site) (draws : Draws) (s : Server) (c : Conn) : Bytes :=
  ((read site draws).run (calm s c)).2.conn.sent.drop c.sent.length

/-- `Uploads site id s packets outs t`: from `s` to `t` the callbacks find these packets
of client `id`, in order, and any plain requests of others; `outs` is what is sent for
each of the packets. -/
inductive Uploads (site : Site) (id : Bytes) :
    Server → List Bytes → List Bytes → Server → Prop where
  | done (s : Server) : Uploads site id s [] [] s
  | packet {s t u : Server} {draws : Draws} {c : Conn} {data rest : Bytes}
      {packets outs : List Bytes} (hfresh : draws.uuid ∉ s.ids) (hstays : c.sendsLeft = none)
      (hstep : step site s (.callback draws (c.withAvail (data ++ rest))) = some t)
      (tail : Uploads site id t packets outs u) :
      Uploads site id s (data :: packets)
        (callbackSends site draws s (c.withAvail (data ++ rest)) :: outs) u
  | other {s t u : Server} {draws : Draws} {c : Conn} {packets outs : List Bytes}
      (hfresh : draws.uuid ∉ s.ids) (hplain : (Event.callback draws c).Plain)
      (hforeign : ∀ body, (receive c).incoming ≠ .request id body)
      (hstep : step site s (.callback draws c) = some t)
      (tail : Uploads site id t packets outs u) : Uploads site id s packets outs u

section
variable {site : Site} {s : Server}

theorem callbackSends_eq (hs : WellFormed s) {draws : Draws} (hfresh : draws.uuid ∉ s.ids)
    {c : Conn} (hc : c.sendsLeft = none) :
    callbackSends site draws s c = ((receive c).message site draws s).elim [] Message.bytes := by
  rw [callbackSends, read_sent site draws hs hfresh hc, List.drop_left' rfl]

/-- A request that is not rejected is answered with what the service answers. -/
theorem callbackSends_request (hs : WellFormed s) {draws : Draws} (hfresh : draws.uuid ∉ s.ids)
    {c : Conn} (hc : c.sendsLeft = none) {id : Bytes} {body : Body}
    (hid : id.length = General.clientIdSize) (hfits : body.Fits) (rest : Bytes)
    {o : Option Message} (hreply : (serve site draws s id body).2 = o.elim .silent .answer) :
    callbackSends site draws s (c.withAvail (requestBytes id body ++ rest)) =
      o.elim [] Message.bytes := by
  have hstays : (c.withAvail (requestBytes id body ++ rest)).sendsLeft = none := hc
  rw [callbackSends_eq hs hfresh hstays, receive_request hid hfits rest c]
  cases o <;> simp only [Reception.message, hreply, Option.elim]

/-- How far an upload has come after `k` of its packets. -/
def Phase (site : Site) (owner : Client) (fileName : Text) (encrypted plain : Bytes) (k : Nat)
    (s : Server) : Prop :=
  if k = packetCount encrypted.length then Uploaded site owner fileName plain s
  else if k = 0 then ∃ c ∈ s.clientsList, Present owner c
  else Uploaded site owner fileName (encrypted.take (packetMaxSize * k)) s

variable {owner : Client} {fileName : Text} {encrypted plain : Bytes}

theorem Phase.present {k : Nat} (h : Phase site owner fileName encrypted plain k s) :
    ∃ c ∈ s.clientsList, Present owner c := by
  rw [Phase] at h
  split at h
  · obtain ⟨⟨c, hc, hp, -⟩, -⟩ := h
    exact ⟨c, hc, hp⟩
  split at h
  · exact h
  · obtain ⟨⟨c, hc, hp, -⟩, -⟩ := h
    exact ⟨c, hc, hp⟩

theorem Phase.of_holdings (hs : WellFormed s) {t : Server} {k : Nat}
    (hk : Phase site owner fileName encrypted plain k s)
    (h : t.holdings site owner.clientId = s.holdings site owner.clientId) :
    Phase site owner fileName encrypted plain k t := by
  by_cases hlast : k = packetCount encrypted.length
  · rw [Phase, if_pos hlast] at hk ⊢
    exact hk.of_holdings hs h
  by_cases hzero : k = 0
  · rw [Phase, if_neg hlast, if_pos hzero] at hk ⊢
    obtain ⟨c, hc, hp⟩ := hk
    obtain ⟨c', hc', hp', -⟩ := present_of_holdings hs hc hp h
    exact ⟨c', hc', hp'⟩
  · rw [Phase, if_neg hlast, if_neg hzero] at hk ⊢
    exact hk.of_holdings hs h

/-- The answer to the packets of an upload: a 1603 to the last one. -/
def uploadAnswer (owner : Client) (fileName : Text) (encrypted plain : Bytes) (k : Nat) :
    Option Message :=
  if k + 1 = packetCount encrypted.length then
    some (.fileReceived owner.clientId encrypted.length fileName (Cksum.memcrc plain))
  else none

/-- Packet `k + 1` after `k` packets. -/
theorem serve_packetOf (hs : WellFormed s) (hl : Layout site s) (draws : Draws)
    (hproper : Proper fileName) (hkey : owner.aesKey.length = General.aesKeySize)
    (hencrypted : encrypted = BlockMode.cbcEncrypt site.cipher owner.aesKey plain)
    (hsize : plain.length < 2 ^ 32) {k : Nat} (hk : k < packetCount encrypted.length)
    (hphase : Phase site owner fileName encrypted plain k s) :
    Phase site owner fileName encrypted plain (k + 1)
        (serve site draws s owner.clientId (.packet (packetOf encrypted plain fileName k))).1 ∧
      (serve site draws s owner.clientId (.packet (packetOf encrypted plain fileName k))).2 =
        (uploadAnswer owner fileName encrypted plain k).elim .silent .answer := by
  obtain ⟨c, hc, hp⟩ := hphase.present
  have hbefore : (packetOf encrypted plain fileName k).packetNumber = 1 ∧
        encrypted.take (packetMaxSize * k) = [] ∨
      Uploaded site owner fileName (encrypted.take (packetMaxSize * k)) s ∧
        (packetOf encrypted plain fileName k).packetNumber ≠ 1 := by
    by_cases hzero : k = 0
    · subst hzero
      exact .inl ⟨rfl, List.take_zero⟩
    · rw [Phase, if_neg (Nat.ne_of_lt hk), if_neg hzero] at hphase
      exact .inr ⟨hphase, fun h => hzero (Nat.succ.inj h)⟩
  obtain ⟨t, file, hserve, hfname, hpath, hdisk, hup⟩ :=
    servePacket_stored hs hl draws hc hp hproper hbefore
  have hcontent : encrypted.take (packetMaxSize * k) ++
      (packetOf encrypted plain fileName k).content =
      encrypted.take (packetMaxSize * (k + 1)) := take_append_slice encrypted k
  rw [hcontent] at hdisk hup
  change Phase site owner fileName encrypted plain (k + 1)
      (servePacket site draws s owner.clientId (packetOf encrypted plain fileName k)).1 ∧
    (servePacket site draws s owner.clientId (packetOf encrypted plain fileName k)).2 = _
  rw [hserve, uploadAnswer, Phase]
  by_cases hlast : k + 1 = packetCount encrypted.length
  · have hall : encrypted.take (packetMaxSize * (k + 1)) =
        BlockMode.cbcEncrypt site.cipher c.aesKey plain := by
      rw [hp.2.2, ← hencrypted]
      apply List.take_of_length_le
      have := mt lt_packetCount_iff.mpr (Nat.not_lt.mpr (Nat.le_of_eq hlast.symm))
      omega
    rw [hall] at hdisk
    have hlocate : s.disk.locate site.cwd file.path =
        some (site.place c.clientName fileName) := by
      rw [hpath]
      exact hl.locate_file (List.mem_map_of_mem hc) hproper
    have hfinish := finishUpload_decrypts (p := packetOf encrypted plain fileName k)
      (hp.2.2 ▸ hkey) hlocate (hl.flat _ _) hdisk (Nat.mod_eq_of_lt hsize)
    have hnumbers : (packetOf encrypted plain fileName k).packetNumber =
        (packetOf encrypted plain fileName k).totalPackets := hlast
    rw [if_pos hlast, if_pos hlast, if_pos hnumbers, hfinish, hp.1, hfname]
    exact ⟨⟨hup.1, by rw [← hp.2.1]; exact FileTree.setFile_file_self _ _ _⟩, rfl⟩
  · have hnumbers : (packetOf encrypted plain fileName k).packetNumber ≠
        (packetOf encrypted plain fileName k).totalPackets := hlast
    rw [if_neg hlast, if_neg (Nat.succ_ne_zero k), if_neg hnumbers, if_neg hlast]
    exact ⟨hup, rfl⟩

/-- The rest of an upload, whatever others do meanwhile. -/
theorem uploads_rest (hproper : Proper fileName) (hfits : NameFits General.fileNameSize fileName)
    (hid : owner.clientId.length = General.clientIdSize)
    (hkey : owner.aesKey.length = General.aesKeySize)
    (hencrypted : encrypted = BlockMode.cbcEncrypt site.cipher owner.aesKey plain)
    (hsize : encrypted.length ≤ maxCiphertext) (hplain : plain.length < 2 ^ 32) {u : Server}
    {packets outs : List Bytes} (hrun : Uploads site owner.clientId s packets outs u) (left : Nat)
    {k : Nat} (hk : k + left = packetCount encrypted.length)
    (hpackets : packets = (List.range' k left).map fun i =>
      requestBytes owner.clientId (.packet (packetOf encrypted plain fileName i)))
    (hs : WellFormed s) (hl : Layout site s)
    (hphase : Phase site owner fileName encrypted plain k s) :
    outs = (List.range' k left).map (fun i =>
        (uploadAnswer owner fileName encrypted plain i).elim [] Message.bytes) ∧
      Uploaded site owner fileName plain u ∧ WellFormed u ∧ Layout site u := by
  induction hrun generalizing left k with
  | done s =>
      cases left with
      | zero =>
          rw [Nat.add_zero] at hk
          rw [Phase, if_pos hk] at hphase
          exact ⟨rfl, hphase, hs, hl⟩
      | succ left => cases hpackets
  | @packet s t u draws c data rest packets outs hfresh hstays hstep tail ih =>
      cases left with
      | zero => cases hpackets
      | succ left =>
          have hlt : k < packetCount encrypted.length := by omega
          rw [List.range'_succ, List.map_cons, List.cons.injEq] at hpackets
          obtain ⟨rfl, hpackets⟩ := hpackets
          have hpfits : (Body.packet (packetOf encrypted plain fileName k)).Fits :=
            packetOf_fits plain hsize hfits hlt
          rw [step_request hs hfresh hid hpfits rest c] at hstep
          obtain rfl := Option.some.inj hstep
          obtain ⟨hnext, hreply⟩ := serve_packetOf hs hl draws hproper hkey hencrypted hplain hlt
            hphase
          have hplain' : (Body.packet (packetOf encrypted plain fileName k)).Plain := hproper
          have hupdates := serve_updates site draws hs hfresh owner.clientId
            (.packet (packetOf encrypted plain fileName k))
          have hlnext := (hupdates.invariant (I := fun s => Layout site s)
            (fun _ _ hl hupd => hl.update hplain' hupd) hl)
          obtain ⟨houts, hrest⟩ := ih left (by omega) hpackets (hupdates.wellFormed hs) hlnext hnext
          refine ⟨?_, hrest⟩
          rw [callbackSends_request hs hfresh hstays hid hpfits rest hreply, houts,
            List.range'_succ, List.map_cons]
  | @other s t u draws c packets outs hfresh hplain' hforeign hstep tail ih =>
      rw [step_callback site draws c hs hfresh] at hstep
      obtain rfl := Option.some.inj hstep
      obtain ⟨c₀, hc₀, hp⟩ := hphase.present
      have hmem : owner.clientId ∈ s.ids := hp.1 ▸ List.mem_map_of_mem hc₀
      obtain ⟨hholds, -⟩ := next_holdings hs hl hfresh hplain' hforeign hmem
      exact ih left hk hpackets (next_wellFormed site draws _ hs hfresh)
        (next_layout hs hl hfresh hplain') (hphase.of_holdings hs hholds)

end

open SecureTransfer.ClientSide (uploadPackets)

/-- Nothing for the packets, and a 1603 for the last one. -/
theorem uploadAnswers_eq {kit : ClientSide.Toolkit} {owner : Client}
    {fileName : Text} {encrypted plain : Bytes} (h : packetCount encrypted.length ≠ 0) :
    (List.range' 0 (packetCount encrypted.length)).map (fun i =>
        (uploadAnswer owner fileName encrypted plain i).elim [] Message.bytes) =
      List.replicate (packetCount encrypted.length - 1) [] ++
        [(Message.fileReceived owner.clientId encrypted.length fileName
          (ClientCksum.memcrc kit.longWidth plain)).bytes] := by
  obtain ⟨n, hn⟩ := Nat.exists_eq_succ_of_ne_zero h
  rw [ClientCksum.memcrc_eq kit.longWidth_ge, hn, Nat.succ_sub_one, Nat.succ_eq_add_one,
    List.range'_1_concat, List.map_append]
  congr 1
  · rw [List.eq_replicate_iff]
    refine ⟨by rw [List.length_map, List.length_range'], ?_⟩
    intro out hout
    obtain ⟨i, hi, rfl⟩ := List.mem_map.mp hout
    have hlt : i + 1 ≠ packetCount encrypted.length := by
      have := List.mem_range'_1.mp hi
      omega
    rw [uploadAnswer, if_neg hlt]
    rfl
  · have hlast : 0 + n + 1 = packetCount encrypted.length := by omega
    rw [List.map_singleton, uploadAnswer, if_pos hlast]
    rfl

/-- A file of which the loop of `send_file` sends the packets arrives as it is: whatever
the server held of it before and whatever others request between the packets, nothing is
sent for a packet but the last, for which a 1603 is sent with the size of the ciphertext,
the padded name and the checksum the client computes; then the file holds the content,
and the client has one record of it, not verified. -/
theorem upload_delivers (site : Site) (s : Server) (hs : (plainRuns site).Reachable s)
    (owner : Client) (howner : owner ∈ s.clientsList) (hset : owner.aesKey ≠ [])
    (kit : ClientSide.Toolkit) (hcipher : kit.cipher = site.cipher) (client : ClientSide.Client)
    (hid : client.clientId = owner.clientId) (fileName : Text)
    (hname : client.fileName = encodeUtf8 fileName) (hproper : Proper fileName)
    (hfits : NameFits 254 fileName)
    (hdecrypt : kit.rsaDecrypt client.privKey client.encryptedAes = some owner.aesKey)
    (plain : Bytes)
    (hsize : (BlockMode.cbcEncrypt site.cipher owner.aesKey plain).length ≤ maxCiphertext)
    (tries : Nat) (request : ClientSide.Request) (hrequest : request.Empty) (outs : List Bytes)
    (u : Server)
    (hrun : Uploads site owner.clientId s (uploadPackets kit client tries request plain) outs u) :
    outs = List.replicate (outs.length - 1) [] ++
        [(Message.fileReceived owner.clientId
          (BlockMode.cbcEncrypt site.cipher owner.aesKey plain).length fileName
          (ClientCksum.memcrc kit.longWidth plain)).bytes] ∧
      outs.length = (uploadPackets kit client tries request plain).length ∧
      u.disk.readFile site.cwd (filePath owner.clientName fileName) = some plain ∧
      ∃ c ∈ u.clientsList, c.clientId = owner.clientId ∧
        c.filesList.filter (·.fileName = fileName) =
          [⟨owner.clientId, fileName, filePath owner.clientName fileName, false⟩] := by
  obtain ⟨hw, hl⟩ := plain_layout hs
  have hreach : Reachable site s := System.Reachable.of_guard hs
  obtain ⟨hlen, hkey⟩ := hreach.sized owner howner
  have hkey : owner.aesKey.length = General.aesKeySize := hkey.resolve_left hset
  have hfield : NameFits General.fileNameSize fileName := ClientSide.NameFits.mono hfits (by decide)
  have hpackets := ClientSide.uploadPackets_eq kit (hid ▸ hlen) hname hfield hdecrypt hkey
    (hcipher ▸ hsize) tries hrequest
  rw [hcipher, hid, ClientSide.packetsOf, List.map_map, List.range_eq_range'] at hpackets
  have hplain : plain.length < 2 ^ 32 := by
    rw [BlockMode.length_cbcEncrypt] at hsize
    simp only [maxCiphertext, packetMaxSize] at hsize
    omega
  have hcount : packetCount (BlockMode.cbcEncrypt site.cipher owner.aesKey plain).length ≠ 0 := by
    rw [BlockMode.length_cbcEncrypt]
    simp only [packetCount, packetMaxSize]
    omega
  have hstart : Phase site owner fileName (BlockMode.cbcEncrypt site.cipher owner.aesKey plain)
      plain 0 s := by
    rw [Phase, if_neg hcount.symm, if_pos rfl]
    exact ⟨owner, howner, rfl, rfl, rfl⟩
  obtain ⟨houts, ⟨⟨c, hc, hp, file, hfile, hfname, hcrc⟩, hdisk⟩, hwu, hlu⟩ :=
    uploads_rest hproper hfield hlen hkey rfl hsize hplain hrun _ (Nat.zero_add _) hpackets hw hl
      hstart
  refine ⟨?_, ?_, ?_, c, hc, hp.1, ?_⟩
  · rw [houts, List.length_map, List.length_range']
    exact uploadAnswers_eq hcount
  · rw [houts, hpackets, List.length_map, List.length_map]
  · rw [← hp.2.1, hlu.readFile_eq (List.mem_map_of_mem hc) hproper, hp.2.1]
    exact hdisk
  · obtain ⟨hfid, hpath⟩ := hwu.owns c hc file hfile
    have hfilter := Keyed.filter_of_mem (fun f : File => f.fileName)
      (hwu.fileNamesDistinct c hc) hfile
    have hrecord : file =
        ⟨owner.clientId, fileName, filePath owner.clientName fileName, false⟩ := by
      rw [← hp.1, ← hp.2.1, ← hfname, ← hfid, ← hpath, ← hcrc]
    rw [hfname] at hfilter
    rw [hfilter, ← hrecord]

/-! A run of it: a client `a` with a key uploads the one byte 61 as `f`. The cipher does
with that byte, padded, what AES does under this key. -/

def letterKey : Bytes := List.replicate 32 1

def letterBlock : Bytes := 97 :: List.replicate 15 15

def letterCiphertext : Bytes :=
  [0xe3, 0x28, 0x10, 0xd7, 0x7b, 0x7d, 0xc4, 0x9f, 0x13, 0x8e, 0x93, 0x25, 0x82, 0x1d, 0xc3, 0xe0]

def letterCipher : BlockMode.BlockCipher :=
  BlockMode.swapCipher letterKey letterBlock letterCiphertext rfl rfl

def letterId : Bytes := List.replicate 16 1

def letterDraws : Draws := { sameDraws 2 with aesKey := letterKey, length_aesKey := rfl }

/-- The client in the list of the server. -/
def letterOwner : Client := ⟨⟨letterId, ['a'], List.replicate 160 0, 0, letterKey⟩, []⟩

/-- The server when the client has registered, then when it has a key. -/
def registeredServer : Server :=
  (serve (machine letterCipher) (sameDraws 1) startedServer (List.replicate 16 0)
    (.registration ['a'])).1

def keyedServer : Server :=
  (serve (machine letterCipher) letterDraws registeredServer letterId
    (.publicKey ['a'] (.done (List.replicate 160 0)))).1

example : keyedServer.clientsList = [letterOwner] := rfl

def letterKit : ClientSide.Toolkit :=
  { ClientSide.bareKit with rsaDecrypt := fun _ _ => some letterKey, cipher := letterCipher }

def letterClient : ClientSide.Client :=
  { ClientSide.Client.new with clientId := letterId, fileName := [102] }

theorem reachable_keyedServer : (plainRuns (machine letterCipher)).Reachable keyedServer := by
  have h₀ : (plainRuns (machine letterCipher)).Reachable startedServer :=
    ⟨startedServer, [], init_startedServer letterCipher, .nil _⟩
  have h₁ : (plainRuns (machine letterCipher)).Reachable registeredServer := by
    refine plain_served h₀ (by decide) (by decide) ?_ ?_
    · exact ⟨by decide, by decide⟩
    · exact (by decide : Proper ['a'])
  refine plain_served h₁ (by decide) (by decide) ?_ trivial
  exact ⟨⟨by decide, by decide⟩, _, rfl, rfl⟩

theorem cbcEncrypt_letter :
    BlockMode.cbcEncrypt letterCipher letterKey [97] = letterCiphertext := by
  decide

/-- The one packet of the upload. -/
theorem uploadPackets_letter :
    uploadPackets letterKit letterClient 3 ClientSide.Request.new [97] =
      [requestBytes letterId (.packet (packetOf letterCiphertext [97] ['f'] 0))] := by
  have hname : letterClient.fileName = encodeUtf8 ['f'] := by decide
  have hfits : NameFits General.fileNameSize ['f'] := ⟨by decide, by decide⟩
  have hdecrypt : letterKit.rsaDecrypt letterClient.privKey letterClient.encryptedAes =
      some letterKey := rfl
  have hcipher : BlockMode.cbcEncrypt letterKit.cipher letterKey [97] = letterCiphertext :=
    cbcEncrypt_letter
  have hsize : (BlockMode.cbcEncrypt letterKit.cipher letterKey [97]).length ≤ maxCiphertext := by
    rw [hcipher]
    decide
  rw [ClientSide.uploadPackets_eq letterKit rfl hname hfits hdecrypt rfl hsize 3 ⟨rfl, rfl⟩,
    hcipher]
  rfl

/-- The server after it. -/
def uploadedServer : Server :=
  (serve (machine letterCipher) letterDraws keyedServer letterId
    (.packet (packetOf letterCiphertext [97] ['f'] 0))).1

theorem upload_delivers_letter : ∃ outs,
    Uploads (machine letterCipher) letterId keyedServer
        (uploadPackets letterKit letterClient 3 ClientSide.Request.new [97]) outs uploadedServer ∧
      uploadedServer.disk.readFile [] (filePath ['a'] ['f']) = some [97] := by
  have hfits : (Body.packet (packetOf letterCiphertext [97] ['f'] 0)).Fits :=
    packetOf_fits [97] (by decide) ⟨by decide, by decide⟩ (by decide)
  have hfresh : letterDraws.uuid ∉ keyedServer.ids := by decide
  have hlength : letterId.length = General.clientIdSize := rfl
  have hstep := @step_request (machine letterCipher) _ _ _ _ (plain_layout reachable_keyedServer).1
    hfresh hlength hfits [] .accepted
  have hrun : Uploads (machine letterCipher) letterId keyedServer
      [requestBytes letterId (.packet (packetOf letterCiphertext [97] ['f'] 0))] [_]
      uploadedServer := .packet hfresh rfl hstep (.done _)
  rw [← uploadPackets_letter] at hrun
  refine ⟨_, hrun, ?_⟩
  have hsize : (BlockMode.cbcEncrypt (machine letterCipher).cipher letterOwner.aesKey [97]).length ≤
      maxCiphertext := by
    rw [BlockMode.length_cbcEncrypt]
    decide
  exact (upload_delivers (machine letterCipher) keyedServer reachable_keyedServer letterOwner
    List.mem_cons_self (by decide) letterKit rfl letterClient rfl ['f'] (by decide) (by decide)
    ⟨by decide, by decide⟩ rfl [97] hsize 3 ClientSide.Request.new ⟨rfl, rfl⟩ _ _ hrun).2.2.1

end SecureTransfer
