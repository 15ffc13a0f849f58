import SecureTransfer.Service.FirstVisit

/-!
Any later visit of a client: it reads back its id and its private key, takes a new AES key and
sends another file.
-/

open Octets (Text encodeUtf8)
open FileTree (Proper)
open Dialogue
open SecureTransfer.ClientSide (Files Toolkit KeyPair)

namespace SecureTransfer

section
variable {site : Site} {kit : Toolkit} {gone : Files → Server → Prop} {keys : KeyPair}
  {owner : Client} {contents : Text → Option Bytes} {z : Errand site kit}
  {client : ClientSide.Client} {f : Files} {s : Server}

theorem completes_readPrivKey {P : Peer Server UInt8} {α : Type} {post : α → Files → Server → Prop}
    {nameBytes id : Bytes} (hkept : ClientSide.Kept kit keys.privateKey nameBytes id f)
    (hbase64 : kit.base64Decode ((kit.base64Encode keys.privateKey).filter (· ≠ 10)) =
      keys.privateKey) {k : Bytes → ClientSide.Prog α}
    (h : Completes P (machineOf site kit) mayExit post (k keys.privateKey) f s []) :
    Completes P (machineOf site kit) mayExit post (ClientSide.readPrivKey kit >>= k) f s [] := by
  have hdecode : kit.base64Decode
      (ClientSide.linesOf (kit.base64Encode keys.privateKey ++ [10])).flatten =
        keys.privateKey := by
    rw [ClientSide.flatten_linesOf, List.filter_append, List.filter_cons_of_neg (by decide),
      List.filter_nil, List.append_nil, hbase64]
  simp only [ClientSide.readPrivKey, bind_assoc]
  refine completes_load ?_
  simp only [hkept.privKey, ClientSide.orExit, pure_bind, hdecode]
  exact h

/-- The client has a new AES key, and what then is holds of it. -/
def Resumed (owner : Client) (contents : Text → Option Bytes)
    (what : Client → (Text → Option Bytes) → Server → Prop) (f f' : Files) (t : Server) : Prop :=
  f' = f ∧ ∃ aesKey, what { owner with aesKey := aesKey } contents t

section
variable {wire : Bytes → Bytes → Prop}
  {ends exits : Client → (Text → Option Bytes) → Server → Prop} (hwire : Dependable wire)
  (hupload : z.Uploads wire ends exits) (howner : owner.clientName = z.name)
  (hbase64 : kit.base64Decode ((kit.base64Encode keys.privateKey).filter (· ≠ 10)) =
    keys.privateKey)
include hwire hupload howner hbase64

theorem completes_reconnection (hclient : z.Told client) (hfile : f z.path = some z.plain)
    (tries : Nat) {request : ClientSide.Request} (hrequest : request.Empty)
    (hs : Acquainted site kit keys owner contents f s) :
    Completes (service site z.name wire) (machineOf site kit) (Resumed owner contents exits f)
      (fun result f' t => result.1 = ClientSide.validReconnect1605 ∧
        Resumed owner contents ends f f' t)
      (ClientSide.reconnection kit client (tries + 1) request) f s [] := by
  have hfits : NameFits ClientSide.nameOfClientSize z.name :=
    ClientSide.NameFits.mono z.name_fits (by decide)
  have hbody : (Body.reconnection z.name).Fits := hfits
  have hplain : (Body.reconnection z.name).Plain := trivial
  have hlines := @ClientSide.linesOf_meInfoContent kit _ z.name_line keys.privateKey owner.clientId
  have hmeInfo : f ClientSide.meInfo =
      some (ClientSide.meInfoContent kit (encodeUtf8 z.name) keys.privateKey owner.clientId) := by
    rw [← howner]
    exact hs.kept.meInfo
  rw [(ClientSide.waits kit client tries request).reconnection]
  refine completes_readPrivKey hs.kept hbase64 (completes_load ?_)
  simp only [hmeInfo, Option.getD_some, hlines, List.getD_cons_zero, List.getD_cons_succ,
    ClientSide.convertHexToBytes_hex, ClientSide.Client.setClientID, bind_assoc]
  rw [ClientSide.unlessExit_bind_pos hclient.nameClient,
    ClientSide.unlessExit_bind_pos hs.length_clientId, pure_bind]
  let client₁ : ClientSide.Client :=
    { client with privKey := keys.privateKey, clientId := owner.clientId }
  let request₁ := (((request.setClientID owner.clientId).setCode
    ClientSide.reconnect827).setPayloadSize ClientSide.nameOfClientSize).appendStringPayload
      client.nameClient ClientSide.nameOfClientSize
  have hmassage : request₁.massage = requestBytes owner.clientId (.reconnection z.name) := by
    simp only [request₁, hclient.nameClient]
    exact ClientSide.massage_name hrequest
      (ClientSide.setClientID_of_length hs.length_clientId request) (by decide) rfl rfl hfits
  change Completes _ _ _ _
    (.send request₁.massage (ClientSide.reconnectionAnswer kit client₁ tries request₁)) f s []
  rw [hmassage]
  refine completes_request (I := fun t => Has site t owner contents)
    (fun _ _ ht hothers => ht.others howner hothers) hs.has hs.length_clientId hbody hplain
    (fun _ => hwire _ _ _ hs.length_clientId hbody fun _ => Body.noConfusion)
    (fun t ht => ht.asked howner rfl) (.recv (by decide)) fun t draws ht hfresh _ => ?_
  obtain ⟨encrypted, hx, hlength, hdecrypt⟩ := hs.works.reconnects hs.publicKey draws t.names
    (x := ⟨owner, contents, t.db.files.filter (·.clientId = owner.clientId)⟩)
  have hyields := serveReconnection_estate draws ht.wellFormed ht.estate owner.clientName
  rw [hx] at hyields
  obtain ⟨hnow, hanswer⟩ := ht.served hfresh hplain (howner ▸ hyields) rfl
  refine ⟨some _, hanswer, ?_⟩
  refine completes_handled (@ClientSide.Handled.reconnected kit client₁ tries request₁ .new z.name
    encrypted hs.length_clientId hs.clientId_nul hlength) ?_
  have htold : z.Told { client₁ with encryptedAes := encrypted } :=
    ⟨hclient.nameClient, hclient.fileName, hclient.pathToFile⟩
  have hready := @Errand.Told.ready site kit z _ f htold { owner with aesKey := draws.aesKey } rfl
    hs.length_clientId hs.clientId_nul hdecrypt draws.length_aesKey hfile
  refine Completes.bind ((hupload hready howner hnow).mono_gone (fun f' t' hgone => ?_)
    fun _ _ _ hdone => hdone) fun _ f' t' hdone => ?_
  · exact ⟨hgone.1, draws.aesKey, hgone.2⟩
  · exact .ret ⟨rfl, hdone.1, draws.aesKey, hdone.2⟩

theorem completes_main_resumed (hgiven : z.Given f)
    (hs : Acquainted site kit keys owner contents f s) :
    Completes (service site z.name wire) (machineOf site kit) (Resumed owner contents exits f)
      (fun _ => Resumed owner contents ends f) (ClientSide.main kit) f s [] := by
  refine completes_readTransfer hgiven fun client hclient => completes_load ?_
  simp only [hs.kept.meInfo, Option.isSome_some, if_true]
  refine (completes_reconnection hwire hupload howner hbase64 hclient hgiven.file 3 ⟨rfl, rfl⟩
    hs).bind fun result f' t hresult => ?_
  have hnot : ¬ result.1 = ClientSide.invalidReconnect1606 := by
    rw [hresult.1]
    decide
  simp only [hnot, if_false]
  exact .ret hresult.2

end

/-- The client has returned: the server has its file and a verified record of it, besides what
it had before. -/
def Errand.Returned (z : Errand site kit) (keys : KeyPair) (owner : Client)
    (contents : Text → Option Bytes) (f f' : Files) (t : Server) : Prop :=
  f' = f ∧ ∃ aesKey, Acquainted site kit keys
    (({ owner with aesKey := aesKey } : Client).recorded z.fileName)
    (Function.update contents z.fileName (some z.plain)) f t

theorem Errand.Returned.others {f' : Files} {t : Server} (h : z.Returned keys owner contents f f' s)
    (howner : owner.clientName = z.name) (hothers : (service site z.name Eq).others s t) :
    z.Returned keys owner contents f f' t := by
  obtain ⟨hfiles, aesKey, hacquainted⟩ := h
  exact ⟨hfiles, aesKey, hacquainted.others howner hothers⟩

theorem completes_main_later (hgiven : z.Given f) (howner : owner.clientName = z.name)
    (hbase64 : kit.base64Decode ((kit.base64Encode keys.privateKey).filter (· ≠ 10)) =
      keys.privateKey) (hs : Acquainted site kit keys owner contents f s) :
    Completes (service site z.name Eq) (machineOf site kit) gone
      (fun _ => z.Returned keys owner contents f) (ClientSide.main kit) f s [] := by
  refine (completes_main_resumed dependable_eq z.uploads_eq howner hbase64 hgiven hs).mono_gone
    (fun f' t hgone => ?_) fun _ f' t hdone => ?_
  · obtain ⟨-, -, hnever⟩ := hgone
    exact hnever.elim
  · obtain ⟨hfiles, aesKey, hhas⟩ := hdone
    exact ⟨hfiles, aesKey, { hs with has := hhas }⟩

end

/-- A client that still has what it wrote when it was registered. -/
theorem later_visit_delivers (site : Site) (kit : Toolkit) (z : Errand site kit) (socket : Nat)
    (keys : KeyPair) (hbase64 : kit.base64Decode
      ((kit.base64Encode keys.privateKey).filter (· ≠ 10)) = keys.privateKey) (owner : Client)
    (howner : owner.clientName = z.name) (contents : Text → Option Bytes) (f : Files)
    (hgiven : z.Given f) :
    ComesTo site kit z.name Eq socket
      (fun x => x.Starts site kit socket f ∧
        Acquainted site kit keys owner contents f x.loop.server)
      (z.Returned keys owner contents f) :=
  comesTo_of_guided (fun _ _ _ h hothers => h.others howner hothers) fun _ hx =>
    hx.1.guided (completes_main_later hgiven howner hbase64 hx.2)

/-! A client `a` after its first exchange of keys. -/

def newcomerServer : Server :=
  (serve letterSite (sameDraws 1) startedServer (List.replicate 16 0) (.registration ['a'])).1

def knownServer : Server :=
  (serve letterSite rsaDraws newcomerServer oneClientId
    (.publicKey ['a'] (.done rsaPublicKey))).1

def knownClient : Client := ⟨⟨oneClientId, ['a'], rsaPublicKey, 0, List.replicate 32 1⟩, []⟩

def knownFiles : Files :=
  keptFiles letterTools rsaPrivateKey [97] oneClientId (letterFiles ['a'])

theorem reachable_newcomerServer : (plainRuns letterSite).Reachable newcomerServer := by
  refine plain_served reachable_letterSite (by decide) (by decide) ?_ ?_
  · exact ⟨by decide, by decide⟩
  · exact (by decide : Proper ['a'])

theorem reachable_knownServer : (plainRuns letterSite).Reachable knownServer :=
  plain_served reachable_newcomerServer (by decide) rfl (fits_publicKey length_rsaPublicKey) trivial

theorem acquainted_knownServer : ∃ contents,
    Acquainted letterSite letterTools rsaKeys knownClient contents knownFiles knownServer := by
  obtain ⟨hs, hl⟩ := plain_layout reachable_letterSite
  have hfree : Free letterSite ['a'] startedServer := ⟨hs, hl, by decide⟩
  have hfresh : (sameDraws 1).uuid ∉ startedServer.ids := by decide
  obtain ⟨-, contents, hhas⟩ := hfree.registers (by decide) hfresh (List.replicate 16 0)
  let rows := newcomerServer.db.files.filter (·.clientId = oneClientId)
  obtain ⟨encrypted, hx, -⟩ := works_rsaKeys.taken rsaDraws
    ⟨(newClient (sameDraws 1) ['a']).undated, contents, rows⟩
  have hyields := servePublicKey_estate rsaDraws hhas.wellFormed hhas.estate ['a']
    (.done rsaPublicKey)
  have hplain : (Body.publicKey ['a'] (.done rsaPublicKey)).Plain := trivial
  have hfresh' : rsaDraws.uuid ∉ newcomerServer.ids := by decide
  obtain ⟨hnow, -⟩ := hhas.served hfresh' hplain (hx ▸ hyields) rfl
  exact ⟨contents, works_rsaKeys, rfl, rfl, by decide, kept_keptFiles .., hnow⟩

theorem given_knownFiles : errandOfA.Given knownFiles where
  transfer := by
    obtain ⟨content, hcontent, hlines⟩ := given_letterFiles.transfer
    exact ⟨content, (keptFiles_of_ne (by decide)).trans hcontent, hlines⟩
  file := (keptFiles_of_ne (by decide)).trans given_letterFiles.file

theorem later_visit_delivers_letter : ∃ contents,
    (∃ x : Visit, x.Starts letterSite letterTools 0 knownFiles ∧
      Acquainted letterSite letterTools rsaKeys knownClient contents knownFiles x.loop.server) ∧
    ComesTo letterSite letterTools ['a'] Eq 0
      (fun x => x.Starts letterSite letterTools 0 knownFiles ∧
        Acquainted letterSite letterTools rsaKeys knownClient contents knownFiles x.loop.server)
      (errandOfA.Returned rsaKeys knownClient contents knownFiles) := by
  obtain ⟨contents, hacquainted⟩ := acquainted_knownServer
  refine ⟨contents, ⟨⟨ClientSide.main letterTools, knownFiles, ⟨knownServer, [.accepted]⟩, 0⟩,
    ⟨rfl, rfl, rfl, rfl, reachable_knownServer⟩, hacquainted⟩, ?_⟩
  exact later_visit_delivers letterSite letterTools errandOfA 0 rsaKeys base64_rsa knownClient rfl
    contents knownFiles given_knownFiles

end SecureTransfer
