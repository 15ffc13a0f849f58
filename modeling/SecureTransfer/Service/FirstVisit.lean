import SecureTransfer.Service.Return
import SecureTransfer.Service.Sending

/-!
The first visit of a client: it registers, hands over its public key, takes the AES key and
sends its file. Whatever others do meanwhile, and in whatever order the client, the callbacks
for it and the others go on, it comes to its end, and then the server holds the file.
-/

open Octets (Text encodeUtf8)
open FileTree (Proper)
open Dialogue
open SecureTransfer.ClientSide (Files Toolkit Query KeyPair maxCiphertext)

namespace SecureTransfer

/-! The machine of the client. -/

section
variable {site : Site} {kit : Toolkit} {P : Peer Server UInt8} {gone : Files → Server → Prop}
  {α : Type}
  {post : α → Files → Server → Prop} {f : Files} {s : Server} {unread : Bytes}

theorem completes_load {path : Bytes} {k : Option Bytes → ClientSide.Prog α}
    (h : Completes P (machineOf site kit) gone post (k (f path)) f s unread) :
    Completes P (machineOf site kit) gone post (ClientSide.ask (.load path) >>= k) f s
      unread := by
  refine .query fun r f' hr => ?_
  obtain ⟨keys, -, hperform⟩ := hr
  obtain ⟨rfl, rfl⟩ := Prod.mk.inj hperform
  exact h

theorem completes_save {path content : Bytes} {k : Unit → ClientSide.Prog α}
    (h : Completes P (machineOf site kit) gone post (k ())
      (Function.update f path (some content)) s unread) :
    Completes P (machineOf site kit) gone post (ClientSide.ask (.save path content) >>= k) f s
      unread := by
  refine .query fun r f' hr => ?_
  obtain ⟨keys, -, hperform⟩ := hr
  obtain ⟨-, rfl⟩ := Prod.mk.inj hperform
  exact h

theorem completes_connect {address port : Bytes} {k : Unit → ClientSide.Prog α}
    (h : Completes P (machineOf site kit) gone post (k ()) f s unread) :
    Completes P (machineOf site kit) gone post (ClientSide.ask (.connect address port) >>= k) f s
      unread := by
  refine .query fun r f' hr => ?_
  obtain ⟨keys, -, hperform⟩ := hr
  obtain ⟨-, rfl⟩ := Prod.mk.inj hperform
  exact h

theorem completes_generateKeys {k : KeyPair → ClientSide.Prog α}
    (h : ∀ keys, Works site kit keys →
      Completes P (machineOf site kit) gone post (k keys) f s unread) :
    Completes P (machineOf site kit) gone post (ClientSide.ask .generateKeys >>= k) f s
      unread := by
  refine .query fun r f' hr => ?_
  obtain ⟨keys, hkeys, hperform⟩ := hr
  obtain ⟨rfl, rfl⟩ := Prod.mk.inj hperform
  exact h keys hkeys

theorem completes_handled {client : ClientSide.Client} {tries : Nat}
    {request finish : ClientSide.Request} {body : Body} {e : ClientSide.Exchange}
    (he : ClientSide.Handled kit client tries request finish body e)
    {post : e.Result → Files → Server → Prop}
    (h : Completes P (machineOf site kit) gone post e.next f s []) :
    Completes P (machineOf site kit) gone post e.reader f s e.answer.bytes := by
  have hreading := he.reading []
  rw [List.append_nil] at hreading
  exact .of_reading hreading h

end

/-- A client's name, the file it is to send and where it finds it. -/
structure Errand (site : Site) (kit : Toolkit) where
  name : Text
  fileName : Text
  path : Bytes
  plain : Bytes
  cipher : kit.cipher = site.cipher
  name_proper : Proper name
  name_fits : NameFits ClientSide.nameOfClientMaxSize name
  fileName_proper : Proper fileName
  fileName_fits : NameFits 254 fileName
  findFileName_eq : ClientSide.findFileName path = encodeUtf8 fileName
  path_ne : path ≠ ClientSide.meInfo ∧ path ≠ ClientSide.privKeyFile
  name_line : (10 : UInt8) ∉ encodeUtf8 name
  length_plain : (plain.length / 16 + 1) * 16 ≤ maxCiphertext

/-- The files that tell the client of its errand. -/
structure Errand.Given {site : Site} {kit : Toolkit} (z : Errand site kit) (files : Files) :
    Prop where
  transfer : ∃ content, files ClientSide.transferInfo = some content ∧
    (ClientSide.linesOf content).getD 1 [] = encodeUtf8 z.name ∧
    (ClientSide.linesOf content).getD 2 [] = z.path
  file : files z.path = some z.plain

/-- The client object when it has read `transfer.info`. -/
structure Errand.Told {site : Site} {kit : Toolkit} (z : Errand site kit)
    (client : ClientSide.Client) : Prop where
  nameClient : client.nameClient = encodeUtf8 z.name
  fileName : client.fileName = encodeUtf8 z.fileName
  pathToFile : client.pathToFile = z.path

/-- The client holds the private key of this record, and its id. -/
structure Acquainted (site : Site) (kit : Toolkit) (keys : KeyPair) (owner : Client)
    (contents : Text → Option Bytes) (files : Files) (s : Server) : Prop where
  works : Works site kit keys
  publicKey : owner.publicKey = keys.publicKey
  length_clientId : owner.clientId.length = General.clientIdSize
  clientId_nul : (0 : UInt8) ∉ owner.clientId
  kept : ClientSide.Kept kit keys.privateKey (encodeUtf8 owner.clientName) owner.clientId files
  has : Has site s owner contents

/-- The files after an exchange of keys. -/
def keptFiles (kit : Toolkit) (privateKey name id : Bytes) (files : Files) : Files :=
  Function.update (Function.update files ClientSide.meInfo
    (some (ClientSide.meInfoContent kit name privateKey id)))
    ClientSide.privKeyFile (some (kit.base64Encode privateKey ++ [10]))

theorem kept_keptFiles (kit : Toolkit) (privateKey name id : Bytes) (files : Files) :
    ClientSide.Kept kit privateKey name id (keptFiles kit privateKey name id files) where
  meInfo := by
    have hne : ClientSide.meInfo ≠ ClientSide.privKeyFile := by decide
    rw [keptFiles, Function.update_of_ne hne, Function.update_self]
    rfl
  privKey := Function.update_self _ _ _

theorem keptFiles_of_ne {kit : Toolkit} {privateKey name id path : Bytes} {files : Files}
    (h : path ≠ ClientSide.meInfo ∧ path ≠ ClientSide.privKeyFile) :
    keptFiles kit privateKey name id files path = files path := by
  rw [keptFiles, Function.update_of_ne h.2, Function.update_of_ne h.1]

/-! A server on which a name is free. -/

structure Free (site : Site) (name : Text) (s : Server) : Prop where
  wellFormed : WellFormed s
  layout : Layout site s
  free : name ∉ s.names

section
variable {site : Site} {name : Text} {s t : Server}

theorem Free.others {wire : Bytes → Bytes → Prop} (h : Free site name s)
    (hothers : (service site name wire).others s t) : Free site name t := by
  obtain ⟨draws, c, hfresh, hplain, hcourteous, rfl⟩ := hothers
  refine ⟨next_wellFormed site draws _ h.wellFormed hfresh,
    next_layout h.wellFormed h.layout hfresh hplain, ?_⟩
  refine next_invariant (I := fun t => name ∉ t.names) site draws _ h.wellFormed hfresh ?_ h.free
  intro clientId body hr s' t' _ hs' hupd
  obtain hsame | ⟨other, rfl, hnames⟩ := hupd.names
  · rw [hsame]
    exact hs'
  · have hne : name ≠ other := by
      intro he
      subst he
      exact h.free ((hcourteous _ _ hr).2 rfl)
    rw [hnames]
    intro hmem
    obtain hmem | hmem := List.mem_append.mp hmem
    · exact hs' hmem
    · exact hne (List.mem_singleton.mp hmem)

/-- The registration of a free name. -/
theorem Free.registers (h : Free site name s) (hproper : Proper name) {draws : Draws}
    (hfresh : draws.uuid ∉ s.ids) (id : Bytes) :
    (serve site draws s id (.registration name)).2 = .answer (.registrationDone draws.uuid) ∧
      ∃ contents, Has site (serve site draws s id (.registration name)).1
        (newClient draws name).undated contents := by
  have hnone : s.named? name = none := by
    refine List.find?_eq_none.mpr fun c hc hname => h.free ?_
    exact of_decide_eq_true hname ▸ List.mem_map_of_mem hc
  obtain ⟨disk, hdir⟩ := h.layout.ensureDir_some hproper
  have hserve : serve site draws s id (.registration name) =
      (({ s with disk := disk } : Server).addClient (newClient draws name),
        .answer (.registrationDone draws.uuid)) := by
    simp only [serve, serveRegistration, hnone, hdir]
    rfl
  have hupdates := serve_updates site draws h.wellFormed hfresh id (.registration name)
  have hs := hupdates.wellFormed h.wellFormed
  have hplain : (Body.registration name).Plain := hproper
  have hl := hupdates.invariant (I := fun s => Layout site s)
    (fun _ _ hl hupd => hl.update hplain hupd) h.layout
  rw [hserve] at hs hl ⊢
  have hmem : newClient draws name ∈
      (({ s with disk := disk } : Server).addClient (newClient draws name)).clientsList :=
    List.mem_append_right _ (List.mem_singleton.mpr rfl)
  have hholds := @holdings_of_mem site _ hs _ hmem
  exact ⟨rfl, fun f => disk.file (site.place name f), hs, hl, hholds⟩

end

/-! The exchange of keys. -/

section
variable {site : Site} {kit : Toolkit} {wire : Bytes → Bytes → Prop}
  {gone : Files → Server → Prop} {owner : Client}
  {contents : Text → Option Bytes} {client : ClientSide.Client} {f : Files} {s : Server}

/-- The client with these keys, when the server has sent it an AES key. -/
structure Exchanged (site : Site) (kit : Toolkit) (owner : Client) (contents : Text → Option Bytes)
    (keys : KeyPair) (client : ClientSide.Client) (t : Server) : Prop where
  works : Works site kit keys
  privKey : client.privKey = keys.privateKey
  aesKey : ∃ aesKey, kit.rsaDecrypt client.privKey client.encryptedAes = some aesKey ∧
    aesKey.length = General.aesKeySize ∧
    Has site t { owner with publicKey := keys.publicKey, aesKey := aesKey } contents

theorem Works.encrypts {keys : KeyPair} (h : Works site kit keys) (draws : Draws) :
    ∃ encrypted, (site.importKey keys.publicKey).bind
        (site.oaepEncrypt · draws.seed draws.aesKey) = some encrypted ∧
      encrypted.length < 2 ^ 31 - 16 ∧
      kit.rsaDecrypt keys.privateKey encrypted = some draws.aesKey := by
  obtain ⟨k, himport, hdecrypts⟩ := h.decrypts
  obtain ⟨encrypted, hencrypt, hlength, hdecrypt⟩ := hdecrypts draws.seed draws.aesKey
    draws.length_aesKey
  refine ⟨encrypted, ?_, hlength, hdecrypt⟩
  rw [himport]
  exact hencrypt

/-- The key of the client is taken, and an AES key goes back. -/
theorem Works.taken {keys : KeyPair} (h : Works site kit keys) (draws : Draws) (x : Estate) :
    ∃ encrypted, x.publicKey site draws x.client.clientName (.done keys.publicKey) =
        ((x.withPublicKey keys.publicKey).withAesKey draws.aesKey,
          .answer (.aesKey General.gotPublicSendAes1602 x.client.clientId encrypted)) ∧
      encrypted.length < 2 ^ 31 - 16 ∧
      kit.rsaDecrypt keys.privateKey encrypted = some draws.aesKey := by
  obtain ⟨encrypted, hencrypted, hlength, hdecrypt⟩ := h.encrypts draws
  refine ⟨encrypted, ?_, hlength, hdecrypt⟩
  simp only [Estate.publicKey, Estate.sendNewAesKey, hencrypted, if_true]
  rfl

/-- So it is when the server has the key already. -/
theorem Works.reconnects {keys : KeyPair} (h : Works site kit keys) {x : Estate}
    (hkey : x.client.publicKey = keys.publicKey) (draws : Draws) (names : List Text) :
    ∃ encrypted, x.reconnection site draws names x.client.clientName =
        (x.withAesKey draws.aesKey,
          .answer (.aesKey General.validReconnectionAes1605 x.client.clientId encrypted)) ∧
      encrypted.length < 2 ^ 31 - 16 ∧
      kit.rsaDecrypt keys.privateKey encrypted = some draws.aesKey := by
  obtain ⟨encrypted, hencrypted, hlength, hdecrypt⟩ := h.encrypts draws
  obtain ⟨k, himport, -⟩ := h.decrypts
  refine ⟨encrypted, ?_, hlength, hdecrypt⟩
  rw [← hkey] at hencrypted himport
  rw [himport] at hencrypted
  simp only [Estate.reconnection, Estate.sendNewAesKey, himport, hencrypted, if_true]
  rfl

theorem completes_sendPublicKeyGetAes (hwire : Dependable wire)
    (hclient : client.clientId = owner.clientId)
    (hid : owner.clientId.length = General.clientIdSize) (hnul : (0 : UInt8) ∉ owner.clientId)
    (hname : client.nameClient = encodeUtf8 owner.clientName)
    (hfits : NameFits ClientSide.nameOfClientSize owner.clientName) (tries : Nat)
    {request : ClientSide.Request} (hrequest : request.Empty) (hs : Has site s owner contents) :
    Completes (service site owner.clientName wire) (machineOf site kit) gone
      (fun client' f' t => ∃ keys,
        f' = keptFiles kit keys.privateKey client.nameClient client.clientId f ∧
        (∃ encryptedAes, client' =
          { client with privKey := keys.privateKey, encryptedAes := encryptedAes }) ∧
        Exchanged site kit owner contents keys client' t)
      (ClientSide.sendPublicKeyGetAes kit client (tries + 1) request) f s [] := by
  rw [(ClientSide.waits kit client tries request).sendPublicKeyGetAes]
  refine completes_generateKeys fun keys hkeys => completes_save (completes_save ?_)
  have hfitsKey : (Body.publicKey owner.clientName (.done keys.publicKey)).Fits :=
    ⟨hfits, _, rfl, hkeys.length_publicKey⟩
  have hplain : (Body.publicKey owner.clientName (.done keys.publicKey)).Plain := trivial
  let client₁ : ClientSide.Client := { client with privKey := keys.privateKey }
  let request₁ := ((((request.setClientID client.clientId).setCode
    ClientSide.sendPublicKey826).setPayloadSize (ClientSide.nameOfClientSize +
      ClientSide.int32 keys.publicKey.length)).appendStringPayload client.nameClient
        ClientSide.nameOfClientSize).appendStringPayload keys.publicKey keys.publicKey.length
  have hmassage : request₁.massage =
      requestBytes owner.clientId (.publicKey owner.clientName (.done keys.publicKey)) :=
    hclient ▸ ClientSide.massage_publicKey hrequest hname hfits (hclient ▸ hid)
      hkeys.length_publicKey
  change Completes _ _ _ _
    (.send request₁.massage (ClientSide.publicKeyAnswer kit client₁ tries request₁))
    (keptFiles kit keys.privateKey client.nameClient client.clientId f) s []
  rw [hmassage]
  refine completes_request (I := fun t => Has site t owner contents)
    (fun _ _ ht hothers => ht.others rfl hothers) hs hid hfitsKey hplain
    (fun _ => hwire _ _ _ hid hfitsKey fun _ => Body.noConfusion)
    (fun t ht => ht.asked rfl rfl) (.recv (by decide)) fun t draws ht hfresh _ => ?_
  obtain ⟨encrypted, hx, hlength, hdecrypt⟩ := hkeys.taken draws
    ⟨owner, contents, t.db.files.filter (·.clientId = owner.clientId)⟩
  have hyields := servePublicKey_estate draws ht.wellFormed ht.estate owner.clientName
    (.done keys.publicKey)
  rw [hx] at hyields
  obtain ⟨hnow, hanswer⟩ := ht.served hfresh hplain hyields rfl
  refine ⟨some _, hanswer, ?_⟩
  have hhandled := @ClientSide.Handled.keyTaken kit client₁ tries request₁ .new owner.clientName
    (.done keys.publicKey) encrypted (hclient ▸ hid) (hclient ▸ hnul) hlength
  have hmessage : Message.aesKey General.gotPublicSendAes1602 owner.clientId encrypted =
      .aesKey General.gotPublicSendAes1602 client₁.clientId encrypted := by rw [← hclient]
  rw [Option.elim_some, hmessage]
  exact completes_handled hhandled (.ret ⟨keys, rfl, ⟨encrypted, rfl⟩, hkeys, rfl, draws.aesKey,
    hdecrypt, draws.length_aesKey, hnow⟩)

end

/-! The visit. -/

section
variable {site : Site} {kit : Toolkit} {gone : Files → Server → Prop} {z : Errand site kit}
  {client : ClientSide.Client} {f : Files} {s : Server}

theorem completes_readTransfer {P : Peer Server UInt8} {α : Type} {post : α → Files → Server → Prop}
    (hgiven : z.Given f) {k : ClientSide.Client → ClientSide.Prog α}
    (h : ∀ client, z.Told client → Completes P (machineOf site kit) gone post (k client) f s []) :
    Completes P (machineOf site kit) gone post (ClientSide.readTransfer >>= k) f s [] := by
  obtain ⟨content, hcontent, hname, hpath⟩ := hgiven.transfer
  have hfits : (encodeUtf8 z.name).length ≤ ClientSide.nameOfClientMaxSize := z.name_fits.1
  have hlength : (encodeUtf8 z.fileName).length ≤ 254 := z.fileName_fits.1
  have hnot : (encodeUtf8 z.fileName).length ≠ ClientSide.fileNameSize := by
    have : ClientSide.fileNameSize = 255 := rfl
    omega
  have huptoNul : Octets.uptoNul (encodeUtf8 z.fileName) = encodeUtf8 z.fileName :=
    Octets.uptoNul_of_not_mem (Octets.nul_not_mem_encodeUtf8 z.fileName_fits.2)
  have hlt : (Octets.uptoNul (encodeUtf8 z.fileName)).length < ClientSide.nameOfFileSize := by
    have : ClientSide.nameOfFileSize = 255 := rfl
    rw [huptoNul]
    omega
  simp only [ClientSide.readTransfer, bind_assoc]
  refine completes_load ?_
  simp only [hcontent, ClientSide.orExit, pure_bind, hname, hpath, z.findFileName_eq]
  rw [ClientSide.unlessExit_bind_pos hfits, ClientSide.unlessExit_bind_pos hnot,
    ClientSide.Client.setFileName]
  simp only [bind_assoc]
  rw [ClientSide.unlessExit_bind_pos hlt, pure_bind]
  exact completes_connect (h _ ⟨rfl, huptoNul, rfl⟩)

/-- With a key the client can send its file. -/
theorem Errand.Told.ready (hclient : z.Told client) {owner : Client}
    (hid : client.clientId = owner.clientId)
    (hlength : owner.clientId.length = General.clientIdSize) (hnul : (0 : UInt8) ∉ owner.clientId)
    (hdecrypts : kit.rsaDecrypt client.privKey client.encryptedAes = some owner.aesKey)
    (hkey : owner.aesKey.length = General.aesKeySize) (hfile : f z.path = some z.plain) :
    Ready site kit owner z.fileName z.plain client f where
  cipher := z.cipher
  clientId := hid
  length_clientId := hlength
  clientId_nul := hnul
  fileName_eq := hclient.fileName
  proper := z.fileName_proper
  fits := z.fileName_fits
  decrypts := hdecrypts
  length_aesKey := hkey
  file := hclient.pathToFile ▸ hfile
  size := by
    rw [BlockMode.length_cbcEncrypt]
    exact z.length_plain

/-- The upload of the file completes over this wire, for any client that is ready for it. -/
def Errand.Uploads (z : Errand site kit) (wire : Bytes → Bytes → Prop)
    (ends gone : Client → (Text → Option Bytes) → Server → Prop) : Prop :=
  ∀ {owner : Client} {contents : Text → Option Bytes} {client : ClientSide.Client} {f : Files}
    {s : Server}, Ready site kit owner z.fileName z.plain client f → owner.clientName = z.name →
      Has site s owner contents →
        Completes (service site z.name wire) (machineOf site kit)
          (fun f' t => f' = f ∧ gone owner contents t)
          (fun _ f' t => f' = f ∧ ends owner contents t)
          (ClientSide.sendFile kit client ClientSide.maxTries .new) f s []

/-- The client has registered and handed over its key, and what then is holds of it. -/
def Errand.Enrolled (z : Errand site kit)
    (what : Client → (Text → Option Bytes) → Server → Prop) (f f' : Files) (t : Server) : Prop :=
  ∃ (keys : KeyPair) (id aesKey : Bytes) (contents : Text → Option Bytes),
    f' = keptFiles kit keys.privateKey (encodeUtf8 z.name) id f ∧ Works site kit keys ∧
      id.length = General.clientIdSize ∧ (0 : UInt8) ∉ id ∧
      what ⟨⟨id, z.name, keys.publicKey, 0, aesKey⟩, []⟩ contents t

section
variable {wire : Bytes → Bytes → Prop}
  {ends exits : Client → (Text → Option Bytes) → Server → Prop} (hwire : Dependable wire)
  (hupload : z.Uploads wire ends exits)
include hwire hupload

theorem completes_registering (hclient : z.Told client) (hfile : f z.path = some z.plain)
    (tries : Nat) {request : ClientSide.Request} (hrequest : request.Empty)
    (hs : Free site z.name s) :
    Completes (service site z.name wire) (machineOf site kit) (z.Enrolled exits f)
      (fun _ => z.Enrolled ends f)
      (ClientSide.registering kit client (tries + 1) request) f s [] := by
  let zeroId : Bytes := List.replicate General.clientIdSize 0
  have hfits : NameFits ClientSide.nameOfClientSize z.name :=
    ClientSide.NameFits.mono z.name_fits (by decide)
  have hbody : (Body.registration z.name).Fits := hfits
  have hplain : (Body.registration z.name).Plain := z.name_proper
  let request₁ := (((request.setClientID (List.replicate 32 0)).setCode
    ClientSide.registering825).setPayloadSize ClientSide.nameOfClientSize).appendStringPayload
      client.nameClient ClientSide.nameOfClientSize
  have hmassage : request₁.massage = requestBytes zeroId (.registration z.name) := by
    simp only [request₁, hclient.nameClient]
    exact ClientSide.massage_name hrequest (ClientSide.setClientID_fake request) (by decide) rfl rfl
      hfits
  have hzeroId : zeroId.length = General.clientIdSize := List.length_replicate ..
  rw [(ClientSide.waits kit client tries request).registering]
  change Completes _ _ _ _
    (.send request₁.massage (ClientSide.registeringAnswer kit client tries request₁)) f s []
  rw [hmassage]
  refine completes_request (I := fun t => Free site z.name t)
    (fun _ _ ht hothers => ht.others hothers) hs hzeroId hbody hplain
    (fun _ => hwire _ _ _ hzeroId hbody fun _ => Body.noConfusion)
    (fun t _ => .inl ⟨rfl, rfl⟩) (.recv (by decide)) fun t draws ht hfresh hnul => ?_
  obtain ⟨hanswer, contents, hnow⟩ := ht.registers z.name_proper hfresh zeroId
  refine ⟨some _, hanswer, ?_⟩
  refine completes_handled (@ClientSide.Handled.registered kit client tries request₁ .new z.name
    draws.uuid draws.length_uuid) ?_
  let owner := (newClient draws z.name).undated
  have hkeys := @completes_sendPublicKeyGetAes site kit wire (z.Enrolled exits f) owner contents
    { client with clientId := draws.uuid } f _ hwire rfl draws.length_uuid hnul hclient.nameClient
    hfits 3 ClientSide.Request.new ⟨rfl, rfl⟩ hnow
  refine hkeys.bind fun client' f' t' hexchanged => ?_
  obtain ⟨keys, rfl, ⟨encryptedAes, rfl⟩, hworks, -, aesKey, hdecrypt, hlength, hhas⟩ := hexchanged
  have htold : z.Told { client with
      clientId := draws.uuid, privKey := keys.privateKey, encryptedAes := encryptedAes } :=
    ⟨hclient.nameClient, hclient.fileName, hclient.pathToFile⟩
  have hready := @Errand.Told.ready site kit z _
    (keptFiles kit keys.privateKey client.nameClient draws.uuid f) htold
    { owner with publicKey := keys.publicKey, aesKey := aesKey } rfl draws.length_uuid hnul hdecrypt
    hlength ((keptFiles_of_ne z.path_ne).trans hfile)
  rw [hclient.nameClient] at hready ⊢
  refine (hupload hready rfl hhas).mono_gone (fun f' t'' hgone => ?_) (fun _ f' t'' hdone => ?_)
  · obtain ⟨rfl, hexits⟩ := hgone
    exact ⟨keys, draws.uuid, aesKey, contents, rfl, hworks, draws.length_uuid, hnul, hexits⟩
  · obtain ⟨rfl, hends⟩ := hdone
    exact ⟨keys, draws.uuid, aesKey, contents, rfl, hworks, draws.length_uuid, hnul, hends⟩

theorem completes_main_enrolled (hgiven : z.Given f) (habsent : f ClientSide.meInfo = none)
    (hs : Free site z.name s) :
    Completes (service site z.name wire) (machineOf site kit) (z.Enrolled exits f)
      (fun _ => z.Enrolled ends f) (ClientSide.main kit) f s [] := by
  refine completes_readTransfer hgiven fun client hclient => completes_load ?_
  simp only [habsent, Option.isSome_none, Bool.false_eq_true, if_false]
  exact completes_registering hwire hupload hclient hgiven.file 3 ⟨rfl, rfl⟩ hs

end

/-- The server has the file and a verified record of it. -/
def Errand.Delivered (z : Errand site kit) (owner : Client) (contents : Text → Option Bytes)
    (t : Server) : Prop :=
  Has site t (owner.recorded z.fileName) (Function.update contents z.fileName (some z.plain))

theorem Errand.uploads_eq (z : Errand site kit) : z.Uploads Eq z.Delivered fun _ _ _ => False :=
  fun hready hname hs => (completes_sendFile hready hname 3 ⟨rfl, rfl⟩ hs).mono_gone
    (fun _ _ hgone => ⟨hgone.elim, hgone⟩) fun _ _ _ hdone => hdone

/-- The client has registered, and the server has its file and a verified record of it. -/
def Errand.Registered (z : Errand site kit) (f f' : Files) (t : Server) : Prop :=
  ∃ keys id aesKey contents, f' = keptFiles kit keys.privateKey (encodeUtf8 z.name) id f ∧
    Acquainted site kit keys ⟨⟨id, z.name, keys.publicKey, 0, aesKey⟩,
      [⟨id, z.fileName, filePath z.name z.fileName, true⟩]⟩
      (Function.update contents z.fileName (some z.plain)) f' t

theorem Errand.Enrolled.registered {f' : Files} {t : Server} (h : z.Enrolled z.Delivered f f' t) :
    z.Registered f f' t := by
  obtain ⟨keys, id, aesKey, contents, rfl, hworks, hid, hnul, hhas⟩ := h
  exact ⟨keys, id, aesKey, contents, rfl, hworks, rfl, hid, hnul, kept_keptFiles .., hhas⟩

theorem Acquainted.others {keys : KeyPair} {owner : Client} {contents : Text → Option Bytes}
    {name : Text} {t : Server} (h : Acquainted site kit keys owner contents f s)
    (howner : owner.clientName = name) (hothers : (service site name Eq).others s t) :
    Acquainted site kit keys owner contents f t :=
  { h with has := h.has.others howner hothers }

theorem Errand.Registered.others {f' : Files} {t : Server} (h : z.Registered f f' s)
    (hothers : (service site z.name Eq).others s t) : z.Registered f f' t := by
  obtain ⟨keys, id, aesKey, contents, hfiles, hacquainted⟩ := h
  exact ⟨keys, id, aesKey, contents, hfiles, hacquainted.others rfl hothers⟩

theorem completes_main_first (hgiven : z.Given f) (habsent : f ClientSide.meInfo = none)
    (hs : Free site z.name s) :
    Completes (service site z.name Eq) (machineOf site kit) gone
      (fun _ f' t => z.Registered f f' t) (ClientSide.main kit) f s [] := by
  refine (completes_main_enrolled dependable_eq z.uploads_eq hgiven habsent hs).mono_gone
    (fun f' t hgone => ?_) fun _ _ _ hdone => hdone.registered
  obtain ⟨-, -, -, -, -, -, -, -, hnever⟩ := hgone
  exact hnever.elim

/-- The client starts, with these files, on an open connection. -/
structure Visit.Starts (site : Site) (kit : Toolkit) (socket : Nat) (f : Files) (x : Visit) :
    Prop where
  prog : x.prog = ClientSide.main kit
  files : x.files = f
  taken : x.taken = 0
  conn : x.loop.conns[socket]? = some .accepted
  server : (plainRuns site).Reachable x.loop.server

theorem Visit.Starts.guided {socket : Nat} {x : Visit} (h : x.Starts site kit socket f)
    {name : Text} {wire : Bytes → Bytes → Prop} {post : Unit → Files → Server → Prop}
    (hmain : Completes (service site name wire) (machineOf site kit) gone post
      (ClientSide.main kit) f x.loop.server []) :
    x.Guided site kit name wire socket gone post := by
  obtain ⟨hs, hl⟩ := plain_layout h.server
  exact ⟨⟨ClientSide.main kit, f, [], x.loop.server, []⟩, ⟨h.prog.symm, h.files.symm, rfl,
    .accepted, h.conn, ⟨rfl, rfl, rfl, rfl, rfl⟩, (List.drop_nil).symm, h.taken ▸ Nat.zero_le _⟩,
    hs, hl, hmain⟩

/-- A client that has not been there before, under a name that is free. -/
theorem first_visit_delivers (site : Site) (kit : Toolkit) (z : Errand site kit) (socket : Nat)
    (f : Files) (hgiven : z.Given f) (habsent : f ClientSide.meInfo = none) :
    ComesTo site kit z.name Eq socket
      (fun x => x.Starts site kit socket f ∧ z.name ∉ x.loop.server.names) (z.Registered f) := by
  refine comesTo_of_guided (fun _ s t h => h.others) fun x hx => ?_
  obtain ⟨hs, hl⟩ := plain_layout hx.1.server
  exact hx.1.guided (completes_main_first hgiven habsent ⟨hs, hl, hx.2⟩)

end

/-! RSA and AES of the sample: what they make of the sample key and of the file with the one
byte 61 is what the libraries make of them. -/

def letterSite : Site := { rsaSite with cipher := letterCipher }

def letterTools : Toolkit := { rsaKit with cipher := letterCipher }

theorem works_rsaKeys : Works letterSite letterTools rsaKeys where
  length_publicKey := length_rsaPublicKey
  decrypts := by
    refine ⟨(), if_pos rfl, fun seed aesKey hlength => ?_⟩
    have hle : aesKey.length ≤ 86 := hlength ▸ (by decide)
    obtain ⟨encrypted, hencrypt, hshort⟩ : ∃ encrypted, rsaEncrypt seed aesKey = some encrypted ∧
        encrypted.length ≤ 128 := by
      rw [rsaEncrypt, if_pos hle]
      split
      · exact ⟨_, rfl, Nat.le_of_eq length_rsaCiphertext⟩
      · refine ⟨_, rfl, ?_⟩
        rw [List.length_cons]
        omega
    exact ⟨encrypted, hencrypt, by omega, rsaDecrypt_encrypt hencrypt⟩

/-- A name that a client may have. -/
def GoodName (name : Text) : Prop :=
  Proper name ∧ NameFits ClientSide.nameOfClientMaxSize name ∧ (10 : UInt8) ∉ encodeUtf8 name

theorem goodName_a : GoodName ['a'] := ⟨by decide, ⟨by decide, by decide⟩, by decide⟩

theorem findFileName_f : ClientSide.findFileName [102] = encodeUtf8 ['f'] := by decide

theorem letterFile_fits : Proper ['f'] ∧ NameFits 254 ['f'] ∧
    ([102] ≠ ClientSide.meInfo ∧ [102] ≠ ClientSide.privKeyFile) ∧
    (([97] : Bytes).length / 16 + 1) * 16 ≤ maxCiphertext :=
  ⟨by decide, ⟨by decide, by decide⟩, by decide, by decide⟩

/-- Client `name` sends the file `f`. -/
def letterErrand (name : Text) (h : GoodName name) : Errand letterSite letterTools where
  name := name
  fileName := ['f']
  path := [102]
  plain := [97]
  cipher := rfl
  name_proper := h.1
  name_fits := h.2.1
  fileName_proper := letterFile_fits.1
  fileName_fits := letterFile_fits.2.1
  findFileName_eq := findFileName_f
  path_ne := letterFile_fits.2.2.1
  name_line := h.2.2
  length_plain := letterFile_fits.2.2.2

/-- `transfer.info` with an address, the name and the path, and the file. -/
def letterFiles (name : Text) : Files := fun path =>
  if path = ClientSide.transferInfo then some ([49, 58, 50, 10] ++ encodeUtf8 name ++ [10, 102])
  else if path = [102] then some [97] else none

def errandOfA : Errand letterSite letterTools :=
  letterErrand ['a'] goodName_a

theorem given_letterFiles : errandOfA.Given (letterFiles ['a']) where
  transfer := ⟨_, rfl, by decide, by decide⟩
  file := rfl

theorem reachable_letterSite : (plainRuns letterSite).Reachable startedServer := by
  refine ⟨startedServer, [], ?_, .nil _⟩
  exact ⟨bareServer, ⟨rfl, (untouched_bareServer letterCipher).rooted, fun _ => rfl, fun _ => rfl⟩,
    rfl⟩

theorem first_visit_delivers_letter : Works letterSite letterTools rsaKeys ∧
    (∃ x : Visit, x.Starts letterSite letterTools 0 (letterFiles ['a']) ∧
      errandOfA.name ∉ x.loop.server.names) ∧
    ComesTo letterSite letterTools ['a'] Eq 0
      (fun x => x.Starts letterSite letterTools 0 (letterFiles ['a']) ∧
        ['a'] ∉ x.loop.server.names) (errandOfA.Registered (letterFiles ['a'])) :=
  ⟨works_rsaKeys,
    ⟨⟨ClientSide.main letterTools, letterFiles ['a'], ⟨startedServer, [.accepted]⟩, 0⟩,
      ⟨rfl, rfl, rfl, rfl, reachable_letterSite⟩, by decide⟩,
    first_visit_delivers letterSite letterTools errandOfA 0 (letterFiles ['a'])
      given_letterFiles rfl⟩

end SecureTransfer
