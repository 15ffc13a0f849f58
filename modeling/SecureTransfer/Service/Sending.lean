import SecureTransfer.Service.Visits
import SecureTransfer.Service.Estate
import SecureTransfer.Service.Answers

/-!
A client that holds an AES key sends its file, among whatever else reaches the server. What
the server holds of the client changes by these requests alone, so the four functions from
`send_file` to `the_end` come to their end, with the file stored and its record verified.
-/

open Octets (Text encodeUtf8)
open FileTree (Proper)
open Dialogue
open Relation (ReflTransGen)
open SecureTransfer.ClientSide (Files Toolkit packetCount packetMaxSize packetOf maxCiphertext slice
  packetOf_fits take_append_slice lt_packetCount_iff)

namespace SecureTransfer

/-- A server in order, and what it holds of a client: the record but for its date, and the
contents of the files in its folder. -/
structure Has (site : Site) (s : Server) (owner : Client) (contents : Text → Option Bytes) :
    Prop where
  wellFormed : WellFormed s
  layout : Layout site s
  holdings : s.holdings site owner.clientId = some (owner, contents)

section
variable {site : Site} {s t : Server} {owner : Client} {contents : Text → Option Bytes}

theorem Has.estate (h : Has site s owner contents) : s.estate site owner.clientId =
    some ⟨owner, contents, s.db.files.filter (·.clientId = owner.clientId)⟩ := by
  obtain ⟨c, hc, heq⟩ := Option.map_eq_some_iff.mp h.holdings
  obtain ⟨howner, hcontents⟩ := Prod.mk.inj heq
  rw [estate_of_client? hc, howner, hcontents]

theorem Has.of_estate (hs : WellFormed t) (hl : Layout site t) {x : Estate}
    (hx : t.estate site owner.clientId = some x) (hid : x.client.clientId = owner.clientId) :
    Has site t x.client x.contents := by
  refine ⟨hs, hl, ?_⟩
  obtain ⟨c, hc, rfl⟩ := estate_eq_some.mp hx
  rw [hid, Server.holdings, hc]
  rfl

/-- Others leave it. -/
theorem Has.others {name : Text} {wire : Bytes → Bytes → Prop} (h : Has site s owner contents)
    (howner : owner.clientName = name) (hothers : (service site name wire).others s t) :
    Has site t owner contents := by
  obtain ⟨draws, c, hfresh, hplain, hcourteous, rfl⟩ := hothers
  obtain ⟨c', hc', hid, hundated, -⟩ := mem_of_holdings h.holdings
  have hname : c'.clientName = name := by
    rw [← howner, ← hundated]
    rfl
  have hforeign : ∀ body, (receive c).incoming ≠ .request owner.clientId body := fun body hasks =>
    (hcourteous _ body hasks).1 c' hc' hname hid
  have hmem : owner.clientId ∈ s.ids := hid ▸ List.mem_map_of_mem hc'
  obtain ⟨hholds, -⟩ := next_holdings h.wellFormed h.layout hfresh hplain hforeign hmem
  exact ⟨next_wellFormed site draws _ h.wellFormed hfresh,
    next_layout h.wellFormed h.layout hfresh hplain, hholds.trans h.holdings⟩

/-- The client asks with the id it has. -/
theorem Has.asked {name : Text} (h : Has site s owner contents) (howner : owner.clientName = name)
    {body : Body} (hbody : body.isRegistration = false) : Asked name s owner.clientId body := by
  obtain ⟨c, hc, hid, hundated, -⟩ := mem_of_holdings h.holdings
  refine .inr ⟨hbody, c, hc, ?_, hid⟩
  rw [← howner, ← hundated]
  rfl

/-- A request of the client itself. -/
theorem Has.served (h : Has site s owner contents) {draws : Draws} (hfresh : draws.uuid ∉ s.ids)
    {body : Body} (hplain : body.Plain) {y : Estate × Reply}
    (hy : Yields site owner.clientId (serve site draws s owner.clientId body) y)
    (hid : y.1.client.clientId = owner.clientId) :
    Has site (serve site draws s owner.clientId body).1 y.1.client y.1.contents ∧
      (serve site draws s owner.clientId body).2 = y.2 := by
  have hupdates := serve_updates site draws h.wellFormed hfresh owner.clientId body
  exact ⟨.of_estate (hupdates.wellFormed h.wellFormed)
    (hupdates.invariant (fun _ _ hl hupd => hl.update hplain hupd) h.layout) hy.1 hid, hy.2⟩

end

/-! A request to the service, among those of others. -/

theorem elim_answer_not_rejected (o : Option Message) :
    ¬ (o.elim Reply.silent Reply.answer = .rejected ∨
      o.elim Reply.silent Reply.answer = .rejectedUnread) := by
  cases o with
  | none => exact not_or.mpr ⟨Reply.noConfusion, Reply.noConfusion⟩
  | some m => exact not_or.mpr ⟨Reply.noConfusion, Reply.noConfusion⟩

theorem elim_answer_inj {o o' : Option Message}
    (h : o.elim Reply.silent Reply.answer = o'.elim Reply.silent Reply.answer) : o = o' := by
  cases o with
  | none =>
      cases o' with
      | none => rfl
      | some m => cases h
  | some m =>
      cases o' with
      | none => cases h
      | some m' => exact congrArg some (Reply.answer.inj h)

section
variable (site : Site) (kit : Toolkit) (name : Text) (wire : Bytes → Bytes → Prop)
  (gone : Files → Server → Prop) {α : Type} (post : α → Files → Server → Prop)

/-- The client can go on with this reply: it reads the answer, or it waits and is told of the
failure. -/
def Suits (next : ClientSide.Prog α) (f : Files) (registration : Bool) (t : Server)
    (reply : Reply) : Prop :=
  (∃ o : Option Message, reply = o.elim .silent .answer ∧
    Completes (service site name wire) (machineOf site kit) gone post next f t
      (o.elim [] Message.bytes)) ∨
  (reply = .rejected ∨ reply = .rejectedUnread) ∧ next.Listens ∧
    Completes (service site name wire) (machineOf site kit) gone post next f t
      (failureMessage registration).bytes

end

/-- A wire that delivers requests as they are, but for packets. -/
def Dependable (wire : Bytes → Bytes → Prop) : Prop :=
  ∀ id body data, id.length = General.clientIdSize → body.Fits → (∀ p, body ≠ .packet p) →
    wire (requestBytes id body) data → data = requestBytes id body

theorem dependable_eq : Dependable Eq := fun _ _ _ _ _ _ h => h.symm

section
variable {site : Site} {kit : Toolkit} {name : Text} {wire : Bytes → Bytes → Prop}
  {gone : Files → Server → Prop} {α : Type} {post : α → Files → Server → Prop}

theorem others_star {I : Server → Prop}
    (hothers : ∀ s t, I s → (service site name wire).others s t → I t) {s t : Server} (hs : I s)
    (h : ReflTransGen (service site name wire).others s t) : I t := by
  induction h with
  | refl => exact hs
  | tail _ hlast ih => exact hothers _ _ ih hlast

/-- The client goes on with what the service makes of any request that may arrive, in any state
that the others leave. -/
theorem completes_exchange {I : Server → Prop} {B : Body → Prop}
    (hothers : ∀ s t, I s → (service site name wire).others s t → I t) {s : Server} (hs : I s)
    {data id : Bytes} (hid : id.length = General.clientIdSize)
    (hwire : ∀ data', wire data data' → ∃ body, B body ∧ data' = requestBytes id body)
    (hbody : ∀ body, B body → body.Fits ∧ body.Plain ∧ ∀ t, I t → Asked name t id body)
    {next : ClientSide.Prog α} {f : Files} (hpatient : next.Patient (machineOf site kit) f)
    (hserve : ∀ (t : Server) (draws : Draws) (body : Body), I t → draws.uuid ∉ t.ids →
      (0 : UInt8) ∉ draws.uuid → B body →
      Suits site kit name wire gone post next f body.isRegistration (serve site draws t id body).1
        (serve site draws t id body).2) :
    Completes (service site name wire) (machineOf site kit) gone post (.send data next) f s [] := by
  have harrived : ∀ {data' id' : Bytes} {body' : Body}, wire data data' →
      id'.length = General.clientIdSize → body'.Fits → data' = requestBytes id' body' →
        id' = id ∧ B body' := by
    intro data' id' body' hdata hid' hfits' hbytes
    obtain ⟨body, hB, heq⟩ := hwire data' hdata
    obtain ⟨rfl, rfl, -⟩ := requestBytes_append_inj hid' hfits' hid (hbody body hB).1
      (congrArg (· ++ []) (hbytes.symm.trans heq))
    exact ⟨rfl, hB⟩
  refine .send hpatient ?_ ?_ ?_ ?_
  · intro data' s₁ hdata hstar
    obtain ⟨body, hB, rfl⟩ := hwire data' hdata
    obtain ⟨hfits, hplain, hasked⟩ := hbody body hB
    exact ⟨id, body, hid, hfits, hplain, hasked _ (others_star hothers hs hstar), rfl⟩
  · intro data' s₁ s₂ reply hdata hstar hhandles
    obtain ⟨draws, id', body, hfresh, hnul, hid', hfits, hbytes, rfl, o, ho, rfl⟩ := hhandles
    obtain ⟨rfl, hB⟩ := harrived hdata hid' hfits hbytes
    obtain ⟨o', ho', hnext⟩ | ⟨hrejected, -, -⟩ :=
      hserve s₁ draws body (others_star hothers hs hstar) hfresh hnul hB
    · obtain rfl := elim_answer_inj (ho.symm.trans ho')
      exact hnext
    · exact absurd (ho ▸ hrejected) (elim_answer_not_rejected o)
  all_goals
    intro data' s₁ s₂ reply hdata hstar hrefuses
    obtain ⟨draws, id', body, hfresh, hnul, hid', hfits, hbytes, rfl, hrefused, rfl⟩ := hrefuses
    obtain ⟨rfl, hB⟩ := harrived hdata hid' hfits hbytes
    obtain ⟨o, ho, -⟩ | ⟨-, hlistens, hnext⟩ :=
      hserve s₁ draws body (others_star hothers hs hstar) hfresh hnul hB
    · exact absurd (ho ▸ hrefused) (elim_answer_not_rejected o)
    · first | exact hlistens | exact hnext

/-- A request that arrives as it is and is not refused. -/
theorem completes_request {I : Server → Prop}
    (hothers : ∀ s t, I s → (service site name wire).others s t → I t) {s : Server} (hs : I s)
    {id : Bytes} {body : Body} (hid : id.length = General.clientIdSize) (hfits : body.Fits)
    (hplain : body.Plain)
    (hwire : ∀ data, wire (requestBytes id body) data → data = requestBytes id body)
    (hasked : ∀ t, I t → Asked name t id body) {next : ClientSide.Prog α} {f : Files}
    (hpatient : next.Patient (machineOf site kit) f)
    (hserve : ∀ (t : Server) (draws : Draws), I t → draws.uuid ∉ t.ids → (0 : UInt8) ∉ draws.uuid →
      ∃ o : Option Message, (serve site draws t id body).2 = o.elim .silent .answer ∧
        Completes (service site name wire) (machineOf site kit) gone post next f
          (serve site draws t id body).1 (o.elim [] Message.bytes)) :
    Completes (service site name wire) (machineOf site kit) gone post
      (.send (requestBytes id body) next) f s [] := by
  refine completes_exchange (B := fun body' => body' = body) hothers hs hid
    (fun data hdata => ⟨body, rfl, hwire data hdata⟩) ?_ hpatient ?_
  · intro body' hsame
    subst hsame
    exact ⟨hfits, hplain, hasked⟩
  · intro t draws body' ht hfresh hnul hsame
    subst hsame
    exact .inl (hserve t draws ht hfresh hnul)

end

/-! What the server holds while a file is sent. -/

/-- The record of a file that is being sent, made if there is none. -/
def Client.opened (c : Client) (fileName : Text) : Client :=
  { c with
    filesList := match c.filesList.find? (·.fileName = fileName) with
      | some _ => c.filesList.map fun f =>
          if f.fileName = fileName then { f with validCrc := false } else f
      | none => c.filesList ++ [⟨c.clientId, fileName, filePath c.clientName fileName, false⟩] }

def Client.verified (c : Client) (fileName : Text) : Client :=
  { c with
    filesList := c.filesList.map fun f =>
      if f.fileName = fileName then { f with validCrc := true } else f }

/-- The records when the upload of the file has been verified. -/
def Client.recorded (c : Client) (fileName : Text) : Client :=
  { c with
    filesList := match c.filesList.find? (·.fileName = fileName) with
      | some _ => c.filesList.map fun f =>
          if f.fileName = fileName then { f with validCrc := true } else f
      | none => c.filesList ++ [⟨c.clientId, fileName, filePath c.clientName fileName, true⟩] }

/-- The client after `k` of the packets. -/
def Client.during (c : Client) (fileName : Text) (k : Nat) : Client :=
  if k = 0 then c else c.opened fileName

/-- Packet `k + 1` of a file with this content in place of its own. -/
def packetWith (encrypted plain : Bytes) (fileName : Text) (k : Nat) (content : Bytes) : Packet :=
  { packetOf encrypted plain fileName k with content := content }

/-- The contents after `k` of the packets, which have brought these bytes. -/
def uploading (contents : Text → Option Bytes) (fileName : Text) (k : Nat) (bytes : Bytes) :
    Text → Option Bytes :=
  if k = 0 then contents else Function.update contents fileName (some bytes)

/-- What the server stores when the last packet has come, and its reply. -/
def received (site : Site) (owner : Client) (fileName : Text) (size length : Nat) (bytes : Bytes) :
    Bytes × Reply :=
  match decryptContent site owner.aesKey bytes with
  | none => (bytes, .rejected)
  | some content => (content, if length = content.length then
      .answer (.fileReceived owner.clientId size fileName (Cksum.memcrc content)) else .rejected)

section
variable {site : Site} {owner : Client} {contents : Text → Option Bytes} {fileName : Text}
  {encrypted plain : Bytes}

theorem Client.find?_opened (c : Client) (fileName : Text) : ∃ file,
    (c.opened fileName).filesList.find? (·.fileName = fileName) = some file ∧
      file.validCrc = false := by
  cases hfind : c.filesList.find? (·.fileName = fileName) with
  | none =>
      refine ⟨⟨c.clientId, fileName, filePath c.clientName fileName, false⟩, ?_, rfl⟩
      simp only [Client.opened, hfind, List.find?_append, Option.none_or]
      simp
  | some file =>
      refine ⟨{ file with validCrc := false }, ?_, rfl⟩
      have hname : file.fileName = fileName := (find?_fileName_some hfind).2
      have hsame : ((fun f : File => decide (f.fileName = fileName)) ∘ fun f : File =>
          if f.fileName = fileName then { f with validCrc := false } else f) =
          fun f => decide (f.fileName = fileName) := by
        funext f
        simp only [Function.comp_apply]
        split
        · rfl
        · rfl
      simp only [Client.opened, hfind, List.find?_map, hsame, Option.map_some, if_pos hname]

theorem Client.verified_opened (c : Client) (fileName : Text) :
    (c.opened fileName).verified fileName = c.recorded fileName := by
  cases hfind : c.filesList.find? (·.fileName = fileName) with
  | none =>
      have hothers : c.filesList.map (fun f =>
          if f.fileName = fileName then { f with validCrc := true } else f) = c.filesList := by
        refine (List.map_congr_left fun f hf => if_neg fun hname => ?_).trans (List.map_id _)
        exact List.find?_eq_none.mp hfind f hf (decide_eq_true hname)
      simp only [Client.verified, Client.opened, Client.recorded, hfind, List.map_append]
      rw [hothers]
      simp
  | some file =>
      simp only [Client.verified, Client.opened, Client.recorded, hfind, List.map_map]
      congr 1
      refine List.map_congr_left fun f _ => ?_
      by_cases hname : f.fileName = fileName
      · simp [hname]
      · simp [hname]

theorem Client.during_row (c : Client) (fileName : Text) (k : Nat) :
    (c.during fileName k).toClientRow = c.toClientRow := by
  rw [Client.during]
  split <;> rfl

/-- The record of a packet. -/
theorem Estate.recordPacket_during {x : Estate} {p : Packet} {k : Nat}
    (hclient : x.client = owner.during p.fileName k) (hnumber : p.packetNumber = k + 1) :
    ∃ y, x.recordPacket p = some y ∧ y.client = owner.opened p.fileName ∧
      y.contents = x.contents := by
  obtain ⟨c, contents, rows⟩ := x
  simp only at hclient
  subst hclient
  by_cases hk : k = 0
  · subst hk
    have hduring : owner.during p.fileName 0 = owner := rfl
    rw [hduring]
    simp only [Estate.recordPacket, hnumber]
    cases hfind : owner.filesList.find? (·.fileName = p.fileName) with
    | none =>
        refine ⟨_, rfl, ?_, rfl⟩
        simp only [Estate.addFile, Client.opened, hfind]
    | some file =>
        refine ⟨_, rfl, ?_, rfl⟩
        simp only [Estate.flagFile, Client.opened, hfind, if_true]
  · have hduring : owner.during p.fileName k = owner.opened p.fileName := if_neg hk
    have hnot : p.packetNumber ≠ 1 := by omega
    obtain ⟨file, hfind, -⟩ := owner.find?_opened p.fileName
    rw [hduring]
    simp only [Estate.recordPacket, hfind, if_neg hnot]
    exact ⟨_, rfl, rfl, rfl⟩

theorem received_cbcEncrypt (hkey : owner.aesKey.length = General.aesKeySize) (size : Nat) :
    received site owner fileName size plain.length
        (BlockMode.cbcEncrypt site.cipher owner.aesKey plain) =
      (plain, .answer (.fileReceived owner.clientId size fileName (Cksum.memcrc plain))) := by
  simp only [received, decryptContent_cbcEncrypt hkey plain, if_true]

/-- The last step of an upload. -/
theorem Estate.finishUpload_received {y : Estate} {p : Packet} {bytes : Bytes}
    (hclient : y.client = owner.opened p.fileName)
    (hcontents : y.contents = Function.update contents p.fileName (some bytes)) :
    let r := received site owner p.fileName p.contentSize p.origFileSize bytes
    (y.finishUpload site p).1.client = owner.opened p.fileName ∧
      (y.finishUpload site p).1.contents = Function.update contents p.fileName (some r.1) ∧
      (y.finishUpload site p).2 = r.2 := by
  have hkey : y.client.aesKey = owner.aesKey := by rw [hclient]; rfl
  have hid : y.client.clientId = owner.clientId := by rw [hclient]; rfl
  have hstored : y.contents p.fileName = some bytes := by rw [hcontents, Function.update_self]
  simp only [Estate.finishUpload, received, hstored, hkey, Option.bind_some]
  cases decryptContent site owner.aesKey bytes with
  | none => exact ⟨hclient, hcontents, rfl⟩
  | some content =>
      have hput : Function.update y.contents p.fileName (some content) =
          Function.update contents p.fileName (some content) := by
        rw [hcontents, Function.update_idem]
      by_cases hlength : p.origFileSize = content.length
      · simp only [if_pos hlength]
        exact ⟨hclient, hput, by rw [← hid]; rfl⟩
      · simp only [if_neg hlength]
        exact ⟨hclient, hput, trivial⟩

/-- Packet `k + 1` of a file, when it arrives with this content. -/
theorem Estate.packet_arrived {x : Estate} {k : Nat} {before content : Bytes}
    (hbefore : k = 0 → before = []) (hclient : x.client = owner.during fileName k)
    (hcontents : x.contents = uploading contents fileName k before) :
    let p := packetWith encrypted plain fileName k content
    ∃ y : Estate, y.client = owner.opened fileName ∧
      y.contents = Function.update contents fileName (some (before ++ content)) ∧
      x.packet site p = if k + 1 = packetCount encrypted.length then y.finishUpload site p
        else (y, .silent) := by
  intro p
  have hwritten : (if k + 1 = 1 then [] else (x.contents fileName).getD []) ++ content =
      before ++ content := by
    by_cases hk : k = 0
    · rw [if_pos (by omega), hbefore hk]
    · rw [if_neg (by omega), hcontents, uploading, if_neg hk, Function.update_self,
        Option.getD_some]
  have hput : Function.update x.contents fileName (some (before ++ content)) =
      Function.update contents fileName (some (before ++ content)) := by
    rw [hcontents, uploading]
    split
    · rfl
    · exact Function.update_idem _ _ _
  obtain ⟨y, hrecord, hyclient, hycontents⟩ := Estate.recordPacket_during
    (x := x.put fileName (some (before ++ content))) (p := p) (k := k) hclient rfl
  refine ⟨y, hyclient, hycontents.trans hput, ?_⟩
  have hname : p.fileName = fileName := rfl
  have hnumber : p.packetNumber = k + 1 := rfl
  have htotal : p.totalPackets = packetCount encrypted.length := rfl
  have hcontent : p.content = content := rfl
  simp only [Estate.packet, hname, hnumber, hcontent, hwritten, hrecord, htotal]

/-- The verdict on a file whose checksum agreed. -/
theorem serveVerdict_valid {s : Server} {draws : Draws} {id : Bytes} {x : Estate} {file : File}
    (hx : s.estate site id = some x)
    (hfind : x.client.filesList.find? (·.fileName = fileName) = some file)
    (hcrc : file.validCrc = false) :
    Yields site id (serveVerdict site draws s id General.validCrcRequest900 fileName)
      (x.flagFile fileName true, .answer (.thankYou id)) := by
  obtain ⟨c, hc, hxc⟩ := estate_eq_some.mp hx
  have hfiles : x.client.filesList = c.filesList := by
    rw [hxc]
    rfl
  have hseen : (s.seen draws id).estate site id = some x := (estate_seen id).trans hx
  have hclient : (s.seen draws id).client? id = some { c with lastSeenDate := draws.now } :=
    client?_updateRow_self (fun _ => rfl) hc
  have hunverified : ¬ file.validCrc = true := by rw [hcrc]; exact Bool.noConfusion
  rw [hfiles] at hfind
  simp only [serveVerdict, hc, hfind, if_neg hunverified, if_true]
  refine ⟨?_, rfl⟩
  rw [estate_flagFile hclient, hseen, Option.map_some]

end

/-! The client. -/

/-- `send_file` from where it waits for the answer to the last packet. -/
def ClientSide.afterPackets (kit : Toolkit) (client : ClientSide.Client) (tries size : Nat)
    (request : ClientSide.Request) : ClientSide.Prog Unit := do
  let (finishCode, request, finishRequest) ←
    ClientSide.crcChecking kit client request size ClientSide.Request.new
  if finishCode = ClientSide.wrongCrcTryAgain901 ∨ finishCode = ClientSide.tryAgain then
    ClientSide.sendFile kit client tries request.clearPayload
  else ClientSide.theEnd client ClientSide.maxTries finishRequest

/-- A client object with all that `send_file` needs. -/
structure Ready (site : Site) (kit : Toolkit) (owner : Client) (fileName : Text) (plain : Bytes)
    (client : ClientSide.Client) (files : Files) : Prop where
  cipher : kit.cipher = site.cipher
  clientId : client.clientId = owner.clientId
  length_clientId : owner.clientId.length = General.clientIdSize
  clientId_nul : (0 : UInt8) ∉ owner.clientId
  fileName_eq : client.fileName = encodeUtf8 fileName
  proper : Proper fileName
  fits : NameFits 254 fileName
  decrypts : kit.rsaDecrypt client.privKey client.encryptedAes = some owner.aesKey
  length_aesKey : owner.aesKey.length = General.aesKeySize
  file : files client.pathToFile = some plain
  size : (BlockMode.cbcEncrypt site.cipher owner.aesKey plain).length ≤ maxCiphertext

theorem packetWith_fits {encrypted plain content : Bytes} {fileName : Text} {k : Nat}
    (h : (packetOf encrypted plain fileName k).Fits)
    (hlength : content.length = (slice encrypted k).length) :
    (Body.packet (packetWith encrypted plain fileName k content)).Fits :=
  { h with
    content := by
      have hcontent := h.content
      rw [List.length_append] at hcontent ⊢
      exact hlength.symm ▸ hcontent }

/-- What the packets may have brought when some of them have come over this wire. -/
structure Carries (wire : Bytes → Bytes → Prop) (id encrypted plain : Bytes) (fileName : Text)
    (G : Nat → Bytes → Prop) : Prop where
  start : ∀ bytes, G 0 bytes ↔ bytes = []
  next : ∀ k before data, k < packetCount encrypted.length → G k before →
    wire (requestBytes id (.packet (packetOf encrypted plain fileName k))) data →
      ∃ content, content.length = (slice encrypted k).length ∧ G (k + 1) (before ++ content) ∧
        data = requestBytes id (.packet (packetWith encrypted plain fileName k content))

theorem carries_eq (id encrypted plain : Bytes) (fileName : Text) :
    Carries Eq id encrypted plain fileName
      fun k bytes => bytes = encrypted.take (packetMaxSize * k) where
  start bytes := by rw [Nat.mul_zero, List.take_zero]
  next k before data _ hbefore hdata :=
    ⟨slice encrypted k, rfl, hbefore ▸ take_append_slice encrypted k, hdata.symm⟩

section
variable {site : Site} {kit : Toolkit} {name : Text} {wire : Bytes → Bytes → Prop}
  {gone : Files → Server → Prop} {owner : Client} {contents : Text → Option Bytes}
  {fileName : Text} {encrypted plain : Bytes} {client : ClientSide.Client} {f : Files} {s : Server}

theorem Ready.plain_lt (h : Ready site kit owner fileName plain client f) :
    plain.length < 2 ^ 32 := by
  have hsize := h.size
  rw [BlockMode.length_cbcEncrypt] at hsize
  simp only [maxCiphertext, packetMaxSize] at hsize
  omega

section
variable {α : Type} {post : α → Files → Server → Prop} {next : ClientSide.Prog α}
  {G : Nat → Bytes → Prop} (hready : Ready site kit owner fileName plain client f)
  (hname : owner.clientName = name)
  (hencrypted : encrypted = BlockMode.cbcEncrypt site.cipher owner.aesKey plain)
  (hcarries : Carries wire owner.clientId encrypted plain fileName G)
  (hpatient : next.Patient (machineOf site kit) f)
include hready hname hencrypted hcarries hpatient

/-- Packet `k + 1` and what follows it. -/
theorem completes_packet {k : Nat} (hk : k < packetCount encrypted.length) {before : Bytes}
    (hbefore : G k before)
    (hmore : k + 1 ≠ packetCount encrypted.length → ∀ t bytes, G (k + 1) bytes →
      Has site t (owner.opened fileName) (uploading contents fileName (k + 1) bytes) →
        Completes (service site name wire) (machineOf site kit) gone post next f t [])
    (hlast : k + 1 = packetCount encrypted.length → ∀ t bytes, G (k + 1) bytes →
      Has site t (owner.opened fileName) (Function.update contents fileName
        (some (received site owner fileName encrypted.length plain.length bytes).1)) →
      Suits site kit name wire gone post next f false t
        (received site owner fileName encrypted.length plain.length bytes).2)
    (hs : Has site s (owner.during fileName k) (uploading contents fileName k before)) :
    Completes (service site name wire) (machineOf site kit) gone post
      (.send (requestBytes owner.clientId (.packet (packetOf encrypted plain fileName k))) next)
      f s [] := by
  have hrow := owner.during_row fileName k
  have hid : (owner.during fileName k).clientId = owner.clientId := by rw [hrow]
  have hnamed : (owner.during fileName k).clientName = name := by rw [hrow, hname]
  have hfits : (packetOf encrypted plain fileName k).Fits :=
    packetOf_fits plain (hencrypted ▸ hready.size)
      (ClientSide.NameFits.mono hready.fits (by decide)) hk
  have hempty : k = 0 → before = [] := by
    intro hzero
    subst hzero
    exact (hcarries.start before).mp hbefore
  refine completes_exchange (I := fun t => Has site t (owner.during fileName k)
      (uploading contents fileName k before))
    (B := fun body => ∃ content, content.length = (slice encrypted k).length ∧
      G (k + 1) (before ++ content) ∧
      body = .packet (packetWith encrypted plain fileName k content))
    (fun _ _ ht hothers => ht.others hnamed hothers) hs hready.length_clientId ?_ ?_ hpatient ?_
  · intro data hdata
    obtain ⟨content, hlength, hnext, hbytes⟩ := hcarries.next k before data hk hbefore hdata
    exact ⟨_, ⟨content, hlength, hnext, rfl⟩, hbytes⟩
  · intro body hbody
    obtain ⟨content, hlength, -, rfl⟩ := hbody
    exact ⟨packetWith_fits hfits hlength, hready.proper, fun t ht => hid ▸ ht.asked hnamed rfl⟩
  · intro t draws body ht hfresh _ hbody
    obtain ⟨content, -, hnext, rfl⟩ := hbody
    have hplain : (Body.packet (packetWith encrypted plain fileName k content)).Plain :=
      hready.proper
    have hx := ht.estate
    rw [hid] at hx
    have hyields := @servePacket_estate site t owner.clientId _ draws
      ht.wellFormed ht.layout hx (packetWith encrypted plain fileName k content) hready.proper
    obtain ⟨y, hyclient, hycontents, hpacket⟩ := @Estate.packet_arrived site owner contents fileName
      encrypted plain ⟨owner.during fileName k, uploading contents fileName k before,
        t.db.files.filter (·.clientId = owner.clientId)⟩ k before content hempty rfl rfl
    rw [hpacket] at hyields
    by_cases hk' : k + 1 = packetCount encrypted.length
    · rw [if_pos hk'] at hyields
      have hlength : (packetWith encrypted plain fileName k content).origFileSize = plain.length :=
        Nat.mod_eq_of_lt hready.plain_lt
      have hreceived := @Estate.finishUpload_received site owner contents y
        (packetWith encrypted plain fileName k content) _ hyclient hycontents
      rw [hlength] at hreceived
      obtain ⟨hclient, hcontents, hreply⟩ := hreceived
      obtain ⟨hnow, hanswer⟩ := ht.served hfresh hplain (hid ▸ hyields)
        (by rw [hclient, hid]; rfl)
      rw [hid, hclient, hcontents] at hnow
      rw [hid, hreply] at hanswer
      have hsuits := hlast hk' _ _ hnext hnow
      rw [hanswer]
      exact hsuits
    · rw [if_neg hk'] at hyields
      obtain ⟨hnow, hanswer⟩ := ht.served hfresh hplain (hid ▸ hyields)
        (by rw [hyclient, hid]; rfl)
      rw [hid, hyclient, hycontents] at hnow
      rw [hid] at hanswer
      refine .inl ⟨none, hanswer, hmore hk' _ _ hnext ?_⟩
      rw [uploading, if_neg (Nat.succ_ne_zero k)]
      exact hnow

/-- The packets from number `k + 1` on, and what follows the last one. -/
theorem completes_packets
    (hlast : ∀ t bytes, G (packetCount encrypted.length) bytes →
      Has site t (owner.opened fileName) (Function.update contents fileName
        (some (received site owner fileName encrypted.length plain.length bytes).1)) →
      Suits site kit name wire gone post next f false t
        (received site owner fileName encrypted.length plain.length bytes).2) (left : Nat) {k : Nat}
    (hk : k + (left + 1) = packetCount encrypted.length) {before : Bytes} (hbefore : G k before)
    (hs : Has site s (owner.during fileName k) (uploading contents fileName k before)) :
    Completes (service site name wire) (machineOf site kit) gone post
      (Prog.sendAll ((List.range' k (left + 1)).map fun i =>
        requestBytes owner.clientId (.packet (packetOf encrypted plain fileName i))) next)
      f s [] := by
  induction left generalizing k s before with
  | zero =>
      refine completes_packet hready hname hencrypted hcarries hpatient (by omega) hbefore
        (fun hmore => absurd hk hmore) (fun _ t bytes hbytes ht => hlast t bytes ?_ ht) hs
      rw [← hk]
      exact hbytes
  | succ left ih =>
      refine completes_packet hready hname hencrypted hcarries hpatient.sendAll (by omega) hbefore
        (fun _ t bytes hbytes ht => ih (by omega) hbytes ht) (fun hend => ?_) hs
      omega

end

theorem Ready.reading_fileReceived (hready : Ready site kit owner fileName plain client f)
    {size : Nat} (hsize : size < 2 ^ 31) (content : Bytes) (request : ClientSide.Request) :
    (ClientSide.crcChecking kit client request size ClientSide.Request.new).reading
        (Message.fileReceived owner.clientId size fileName (Cksum.memcrc content)).bytes =
      (ClientSide.finishChecking client request ClientSide.Request.new (Cksum.memcrc content),
        []) := by
  have hlength : client.fileName.length ≤ 254 := hready.fileName_eq ▸ hready.fits.1
  have hnul : (0 : UInt8) ∉ client.fileName :=
    hready.fileName_eq ▸ Octets.nul_not_mem_encodeUtf8 hready.fits.2
  have hreading := ClientSide.reading_fileReceived kit
    (hready.clientId ▸ hready.length_clientId) (hready.clientId ▸ hready.clientId_nul)
    hready.fileName_eq hlength hnul request ClientSide.Request.new hsize
    (Cksum.memcrc_lt content) []
  rw [List.append_nil, hready.clientId] at hreading
  exact hreading

/-- The verdict and `the_end`. -/
theorem completes_verdict (hwire : Dependable wire)
    (hready : Ready site kit owner fileName plain client f) (hname : owner.clientName = name)
    (tries : Nat) (finish : ClientSide.Request) (hs : Has site s (owner.opened fileName) contents) :
    Completes (service site name wire) (machineOf site kit) gone
      (fun _ f' t => f' = f ∧ Has site t (owner.recorded fileName) contents)
      (.send (requestBytes owner.clientId (.verdict General.validCrcRequest900 fileName))
        (ClientSide.theEnd client (tries + 1) finish)) f s [] := by
  have hfits : (Body.verdict General.validCrcRequest900 fileName).Fits :=
    ⟨ClientSide.NameFits.mono hready.fits (by decide), .inl rfl⟩
  refine completes_request (I := fun t => Has site t (owner.opened fileName) contents)
    (fun _ _ ht hothers => ht.others hname hothers) hs hready.length_clientId hfits trivial
    (fun _ => hwire _ _ _ hready.length_clientId hfits fun _ => Body.noConfusion)
    (fun t ht => ht.asked hname rfl) (.recv (by decide)) fun t draws ht hfresh _ => ?_
  obtain ⟨file, hfind, hcrc⟩ := owner.find?_opened fileName
  have hplain : (Body.verdict General.validCrcRequest900 fileName).Plain := trivial
  obtain ⟨hnow, hanswer⟩ :=
    ht.served hfresh hplain (serveVerdict_valid ht.estate hfind hcrc) rfl
  have hrecorded : Has site (serve site draws t owner.clientId
      (.verdict General.validCrcRequest900 fileName)).1 (owner.recorded fileName) contents :=
    owner.verified_opened fileName ▸ hnow
  refine ⟨some (.thankYou owner.clientId), hanswer, ?_⟩
  have hid : client.clientId.length = ClientSide.clientIdSize :=
    hready.clientId ▸ hready.length_clientId
  have hreading := ClientSide.reading_thankYou hid (hready.clientId ▸ hready.clientId_nul) tries
    finish []
  rw [List.append_nil, hready.clientId] at hreading
  exact .of_reading hreading (.ret ⟨rfl, hrecorded⟩)

/-- What `crc_checking` sends when it has read the checksum. -/
theorem finishChecking_sends {α : Type} (hready : Ready site kit owner fileName plain client f)
    (crc : Nat) (request : ClientSide.Request)
    (k : Nat × ClientSide.Request × ClientSide.Request → ClientSide.Prog α) :
    let request' := if client.crcValue ≠ crc then request.addFailure else request
    let code := if client.crcValue ≠ crc then
      if request'.numOfFailures = ClientSide.maxTries then ClientSide.wrongCrc4th902
      else ClientSide.wrongCrcTryAgain901 else ClientSide.validCrc900
    ∃ finish : ClientSide.Request, finish.numOfFailures = 0 ∧
      finish.massage = requestBytes owner.clientId (.verdict code fileName) ∧
      (ClientSide.finishChecking client request ClientSide.Request.new crc >>= k) =
        .send finish.massage (k (code, request', finish)) := by
  intro request' code
  have hcode : code < 256 ^ ClientSide.codeSize := by
    simp only [code]
    split
    · split <;> decide
    · decide
  have hbody : (Body.verdict code fileName).code = code := rfl
  have hmassage := ClientSide.massage_name (r := ClientSide.Request.new) ⟨rfl, rfl⟩
    (ClientSide.setClientID_of_length (hready.clientId ▸ hready.length_clientId) _) hcode hbody rfl
    (ClientSide.NameFits.mono hready.fits (by decide))
  rw [hready.clientId, ← hready.fileName_eq] at hmassage
  refine ⟨_, rfl, hmassage, ?_⟩
  simp only [ClientSide.finishChecking, hready.clientId, bind_assoc]
  rfl

/-- `send_file` when it has read the file. -/
theorem Ready.loaded (hready : Ready site kit owner fileName plain client f)
    (hencrypted : encrypted = BlockMode.cbcEncrypt site.cipher owner.aesKey plain) (tries : Nat)
    {request : ClientSide.Request} (hrequest : request.Empty) :
    ∃ r' : ClientSide.Request, r'.clearPayload.Empty ∧ r'.numOfFailures = request.numOfFailures ∧
      ∃ left, 0 + (left + 1) = packetCount encrypted.length ∧
        ClientSide.afterLoading (some plain)
            (ClientSide.sendFile kit client (tries + 1) request) =
          Prog.sendAll ((List.range' 0 (left + 1)).map fun i =>
            requestBytes owner.clientId (.packet (packetOf encrypted plain fileName i)))
            (ClientSide.afterPackets kit { client with
              crcValue := ClientCksum.memcrc kit.longWidth plain } tries encrypted.length r') := by
  subst hencrypted
  have hwhole : plain.take (plain.length % 2 ^ 32) = plain := by
    rw [Nat.mod_eq_of_lt hready.plain_lt, List.take_length]
  have hsize := hready.size
  have hint : ClientSide.int32 (BlockMode.cbcEncrypt site.cipher owner.aesKey plain).length =
      (BlockMode.cbcEncrypt site.cipher owner.aesKey plain).length := by
    simp only [maxCiphertext, packetMaxSize] at hsize
    exact ClientSide.int32_of_lt (by omega) (by omega)
  have heq := ClientSide.afterLoading_sendFile kit plain hready.decrypts hready.length_aesKey tries
    request
  simp only [hwhole, hready.cipher] at heq
  have hsender : Ready site kit owner fileName plain
      { client with crcValue := ClientCksum.memcrc kit.longWidth plain } f := { hready with }
  obtain ⟨r', hr', hfailures, hloop⟩ := ClientSide.sendAllPackets_eq plain hsender.fileName_eq
    (ClientSide.NameFits.mono hready.fits (by decide)) hsize
    (hrequest.ready (hready.clientId ▸ hready.length_clientId))
  have hsome : 0 < packetCount (BlockMode.cbcEncrypt site.cipher owner.aesKey plain).length := by
    rw [lt_packetCount_iff, BlockMode.length_cbcEncrypt]
    omega
  obtain ⟨left, hleft⟩ := Nat.exists_eq_add_of_lt hsome
  rw [Nat.zero_add] at hleft
  have hpackets : (ClientSide.packetsOf (BlockMode.cbcEncrypt site.cipher owner.aesKey plain) plain
      fileName).map (fun p => requestBytes client.clientId (.packet p)) =
      (List.range' 0 (left + 1)).map fun i => requestBytes owner.clientId (.packet
        (packetOf (BlockMode.cbcEncrypt site.cipher owner.aesKey plain) plain fileName i)) := by
    rw [ClientSide.packetsOf, List.map_map, List.range_eq_range', hleft, hready.clientId]
    rfl
  refine ⟨r', ⟨hr'.version, rfl⟩, hfailures, left, (Nat.zero_add _).trans hleft.symm, ?_⟩
  rw [heq, ClientSide.calculateTotalPackets_eq hsize, pure_bind, hloop, hpackets,
    Prog.sendAll_bind, Prog.ret_bind, hint]
  rfl

/-- The machine gives `send_file` the file. -/
theorem Ready.loads (hready : Ready site kit owner fileName plain client f) (tries : Nat)
    (request : ClientSide.Request) : ∃ next : Option Bytes → ClientSide.Prog Unit,
      ClientSide.sendFile kit client (tries + 1) request = .query (.load client.pathToFile) next ∧
      ∀ r f', machineOf site kit f (.load client.pathToFile) r f' → f' = f ∧ next r =
        ClientSide.afterLoading (some plain)
          (ClientSide.sendFile kit client (tries + 1) request) := by
  refine ⟨fun content => ClientSide.afterLoading content
    (ClientSide.sendFile kit client (tries + 1) request), rfl, fun r f' hr => ?_⟩
  obtain ⟨keys, -, hperform⟩ := hr
  obtain ⟨rfl, rfl⟩ := Prod.mk.inj hperform
  exact ⟨rfl, by rw [hready.file]⟩

/-- `send_file` up to the answer to the last packet, whatever the packets have brought. -/
theorem completes_upload {post : Unit → Files → Server → Prop} {G : Nat → Bytes → Prop}
    (hready : Ready site kit owner fileName plain client f) (hname : owner.clientName = name)
    (hencrypted : encrypted = BlockMode.cbcEncrypt site.cipher owner.aesKey plain)
    (hcarries : Carries wire owner.clientId encrypted plain fileName G) (tries : Nat)
    {request : ClientSide.Request} (hrequest : request.Empty)
    (hchecks : ∀ r' : ClientSide.Request, r'.clearPayload.Empty →
      r'.numOfFailures = request.numOfFailures →
      ∀ t bytes, G (packetCount encrypted.length) bytes →
        Has site t (owner.opened fileName) (Function.update contents fileName
          (some (received site owner fileName encrypted.length plain.length bytes).1)) →
        Suits site kit name wire gone post
          (ClientSide.afterPackets kit { client with
            crcValue := ClientCksum.memcrc kit.longWidth plain } tries encrypted.length r') f
          false t
          (received site owner fileName encrypted.length plain.length bytes).2)
    (hs : Has site s owner contents) :
    Completes (service site name wire) (machineOf site kit) gone post
      (ClientSide.sendFile kit client (tries + 1) request) f s [] := by
  obtain ⟨next, hquery, hnext⟩ := hready.loads tries request
  obtain ⟨r', hr', hfailures, left, hleft, hpackets⟩ := hready.loaded hencrypted tries hrequest
  rw [hquery]
  refine .query fun r f' hr => ?_
  obtain ⟨rfl, hloaded⟩ := hnext r f' hr
  rw [hloaded, hpackets]
  exact completes_packets hready hname hencrypted hcarries (.recv (by decide))
    (hchecks r' hr' hfailures) left hleft ((hcarries.start []).mpr rfl) hs

/-- The answer to the last packet, if its checksum is that of the file, and what follows it. -/
theorem completes_checking (hwire : Dependable wire)
    (hready : Ready site kit owner fileName plain client f) (hname : owner.clientName = name)
    {content : Bytes} (hcrc : client.crcValue = Cksum.memcrc content) {size : Nat}
    (hsize : size < 2 ^ 31) (tries : Nat) (request : ClientSide.Request)
    (hs : Has site s (owner.opened fileName) contents) :
    Completes (service site name wire) (machineOf site kit) gone
      (fun _ f' t => f' = f ∧ Has site t (owner.recorded fileName) contents)
      (ClientSide.afterPackets kit client tries size request) f s
      (Message.fileReceived owner.clientId size fileName (Cksum.memcrc content)).bytes := by
  refine .of_reading_bind (hready.reading_fileReceived hsize content request) ?_
  obtain ⟨finish, -, hmassage, hfinish⟩ := finishChecking_sends hready (Cksum.memcrc content)
    request fun result =>
      if result.1 = ClientSide.wrongCrcTryAgain901 ∨ result.1 = ClientSide.tryAgain then
        ClientSide.sendFile kit client tries result.2.1.clearPayload
      else ClientSide.theEnd client ClientSide.maxTries result.2.2
  have hsame : ¬ client.crcValue ≠ Cksum.memcrc content := not_not_intro hcrc
  simp only [if_neg hsame] at hmassage hfinish
  rw [hfinish, hmassage]
  exact completes_verdict hwire hready hname 3 finish hs

/-- `send_file`. -/
theorem completes_sendFile (hready : Ready site kit owner fileName plain client f)
    (hname : owner.clientName = name) (tries : Nat) {request : ClientSide.Request}
    (hrequest : request.Empty) (hs : Has site s owner contents) :
    Completes (service site name Eq) (machineOf site kit) gone
      (fun _ f' t => f' = f ∧ Has site t (owner.recorded fileName)
        (Function.update contents fileName (some plain)))
      (ClientSide.sendFile kit client (tries + 1) request) f s [] := by
  refine completes_upload hready hname rfl (carries_eq _ _ _ _) tries hrequest
    (fun r' _ _ t bytes hbytes ht => ?_) hs
  have hwhole : bytes = BlockMode.cbcEncrypt site.cipher owner.aesKey plain := by
    rw [hbytes]
    apply List.take_of_length_le
    have := mt lt_packetCount_iff.mpr (Nat.lt_irrefl (packetCount
      (BlockMode.cbcEncrypt site.cipher owner.aesKey plain).length))
    omega
  have hlength : (BlockMode.cbcEncrypt site.cipher owner.aesKey plain).length < 2 ^ 31 := by
    have hsize := hready.size
    simp only [maxCiphertext, packetMaxSize] at hsize
    omega
  rw [hwhole, received_cbcEncrypt hready.length_aesKey] at ht ⊢
  have hsender : Ready site kit owner fileName plain
      { client with crcValue := ClientCksum.memcrc kit.longWidth plain } f := { hready with }
  exact .inl ⟨some _, rfl, completes_checking dependable_eq hsender hname
    (ClientCksum.memcrc_eq kit.longWidth_ge plain) hlength tries r' ht⟩

end

end SecureTransfer
