import SecureTransfer.Client.Files
import SecureTransfer.Service.Identity
import SecureTransfer.Service.KeyExchange

/-!
The reconnection of a client whose exchange of keys was completed. The name, the id and
the public key that the server then has for it stay until the next 826 with its id, as long
as no packet reaches the database, and the client reads back what it wrote.
-/

open Octets (Text encodeUtf8)
open Effects Act
open Runs (System)
open SecureTransfer.ClientSide (KeyPair Files Local Kept untilRead)

namespace SecureTransfer

section
variable {site : Site} {s t : Server} {e : Event} {id : Bytes} {draws : Draws}

/-- Only an 826 with its id changes the name or the public key of a client. -/
theorem Exchange.keepsKey {clientId : Bytes} {body : Body} {accounts : Accounts} {reply : Reply}
    (h : Exchange site draws s clientId body accounts reply) (hfresh : draws.uuid ∉ s.ids)
    (hno : clientId = id → ∀ name key, body ≠ .publicKey name key) {a : Account}
    (ha : s.accounts id = some a) :
    ∃ aesKey, accounts id = some { a with aesKey := aesKey } := by
  by_cases hid : id = clientId
  · subst hid
    cases h with
    | kept _ _ => exact ⟨a.aesKey, ha⟩
    | registered _ _ _ =>
        obtain ⟨c, hc, -⟩ := Option.map_eq_some_iff.mp ha
        obtain ⟨hmem, rfl⟩ := Server.client?_eq_some hc
        have hne : c.clientId ≠ draws.uuid := by
          intro he
          exact hfresh (he ▸ List.mem_map_of_mem hmem)
        exact ⟨a.aesKey, (Function.update_of_ne hne _ _).trans ha⟩
    | @rekeyed a' key code haccount hoffer =>
        obtain rfl := Option.some.inj (haccount.symm.trans ha)
        cases hoffer with
        | publicKey => exact absurd rfl (hno rfl _ _)
        | reconnection _ => exact ⟨draws.aesKey, Function.update_self _ _ _⟩
  · exact ⟨a.aesKey, h.foreign hfresh hid ha⟩

theorem step_keepsKey (hs : WellFormed s) (hstep : (serverRuns site).step s e t)
    (hno : ∀ name key, ¬ e.Asks id (.publicKey name key)) {a : Account}
    (ha : s.accounts id = some a) :
    ∃ aesKey, t.accounts id = some { a with aesKey := aesKey } := by
  obtain ⟨draws, c, clientId, body, rfl, hr, hexchange⟩ | ⟨-, ht⟩ := step_accounts hs hstep
  · refine hexchange.keepsKey hstep.1 ?_ ha
    rintro rfl name key rfl
    exact hno name key hr
  · rw [ht]
    exact ⟨a.aesKey, ha⟩

theorem run_keepsKey {es : List Event} (hs : WellFormed s) (hrun : (serverRuns site).Run s es t)
    (hno : ∀ e ∈ es, ∀ name key, ¬ e.Asks id (.publicKey name key)) {a : Account}
    (ha : s.accounts id = some a) :
    ∃ aesKey, t.accounts id = some { a with aesKey := aesKey } := by
  induction hrun generalizing a with
  | nil s => exact ⟨a.aesKey, ha⟩
  | cons head _ ih =>
      obtain ⟨aesKey, hmid⟩ := step_keepsKey hs head (hno _ List.mem_cons_self) ha
      have hrest := ih (step_wellFormed hs head) (fun e he => hno e (List.mem_cons_of_mem _ he))
        hmid
      exact hrest

/-- An 826 that is answered 1602 leaves the name and the key that it carries. -/
theorem serve_publicKey_answered (hs : WellFormed s) (hfresh : draws.uuid ∉ s.ids) {name : Text}
    {key : Bytes} {m : Message}
    (hreply : (serve site draws s id (.publicKey name (.done key))).2 = .answer m)
    (hcode : m.header.code = General.gotPublicSendAes1602) :
    (serve site draws s id (.publicKey name (.done key))).1.accounts id =
        some ⟨name, key, draws.aesKey⟩ ∧
      encryptedKey site draws key ≠ none := by
  have hexchange := @serve_accounts site draws s hs hfresh id (.publicKey name (.done key))
  rw [hreply] at hexchange
  generalize
    (serve site draws s id (.publicKey name (.done key))).1.accounts = accounts at hexchange ⊢
  generalize hr : Reply.answer m = reply at hexchange
  cases hexchange with
  | kept _ hno => exact absurd (.inl hcode) (hno m hr.symm)
  | registered hbody _ _ => cases hbody
  | @rekeyed a key' code haccount hoffer =>
      cases hencrypted : encryptedKey site draws key' with
      | none =>
          rw [hencrypted] at hr
          cases hr
      | some encrypted =>
          cases hoffer with
          | publicKey =>
              refine ⟨Function.update_self _ _ _, ?_⟩
              rw [hencrypted]
              exact Option.some_ne_none _

/-- An 827 of a client whose key can be used. -/
theorem serve_reconnects (hs : WellFormed s) (hfresh : draws.uuid ∉ s.ids) {name : Text}
    {key aesKey : Bytes} (ha : s.accounts id = some ⟨name, key, aesKey⟩) {k : site.PublicKey}
    {encrypted : Bytes} (himport : site.importKey key = some k)
    (hencrypt : site.oaepEncrypt k draws.seed draws.aesKey = some encrypted) :
    (serve site draws s id (.reconnection name)).2 =
        .answer (.aesKey General.validReconnectionAes1605 id encrypted) ∧
      (serve site draws s id (.reconnection name)).1.accounts id =
        some ⟨name, key, draws.aesKey⟩ := by
  have hexchange := @serve_accounts site draws s hs hfresh id (.reconnection name)
  generalize (serve site draws s id (.reconnection name)).1.accounts = accounts at hexchange ⊢
  generalize (serve site draws s id (.reconnection name)).2 = reply at hexchange ⊢
  cases hexchange with
  | kept hno _ => exact absurd (.reconnection himport) (hno _ _ _ ha)
  | registered hbody _ _ => cases hbody
  | @rekeyed a key' code haccount hoffer =>
      obtain rfl := Option.some.inj (haccount.symm.trans ha)
      have hencrypted : encryptedKey site draws key = some encrypted := by
        rw [encryptedKey, himport]
        exact hencrypt
      cases hoffer with
      | reconnection _ =>
          refine ⟨?_, Function.update_self _ _ _⟩
          simp only [hencrypted]

/-- The AES key of the one entry of a client in memory, and in table clients. -/
structure HoldsKey (t : Server) (id aesKey : Bytes) : Prop where
  records : (t.clientsList.filter (·.clientId = id)).map (fun c => c.aesKey) = [aesKey]
  rows : (t.db.clients.filter (·.clientId = id)).map (·.aesKey) = [aesKey]

theorem holdsKey_of_accounts (ht : WellFormed t) {a : Account} (ha : t.accounts id = some a) :
    HoldsKey t id a.aesKey := by
  obtain ⟨c, hc, rfl, rfl⟩ := ht.accounts_iff.mp ha
  have hrow : c.toClientRow ∈ t.db.clients := by
    rw [ht.rows]
    exact List.mem_map_of_mem hc
  have hrows : (t.db.clients.map (·.clientId)).Nodup := by
    rw [ht.rowIds]
    exact ht.idsDistinct
  have hlist := Keyed.filter_of_mem (fun x : Client => x.clientId) ht.idsDistinct hc
  have htable := Keyed.filter_of_mem (fun r : ClientRow => r.clientId) hrows hrow
  exact ⟨congrArg (List.map fun c : Client => c.aesKey) hlist,
    congrArg (List.map (·.aesKey)) htable⟩

/-! The two callbacks. -/

theorem read_publicKey_answered (hs : WellFormed s) (hfresh : draws.uuid ∉ s.ids) {c : Conn}
    (hc : c.sendsLeft = none) {name : Text} {key : Bytes}
    (hr : (receive c).incoming = .request id (.publicKey name (.done key))) {size : Nat}
    (hanswered : ((read site draws).run (calm s c)).2.conn.answers =
      c.answers ++ [⟨General.gotPublicSendAes1602, size⟩]) :
    WellFormed ((read site draws).run (calm s c)).2.server ∧
      ((read site draws).run (calm s c)).2.server.accounts id = some ⟨name, key, draws.aesKey⟩ ∧
      encryptedKey site draws key ≠ none := by
  obtain ⟨m, hm, hheader⟩ := (read_answers_iff site draws hs hfresh hc).mp hanswered
  have hcode : m.header.code = General.gotPublicSendAes1602 := congrArg Answer.code hheader
  have hserver : ((read site draws).run (calm s c)).2.server =
      (serve site draws s id (.publicKey name (.done key))).1 := by
    rw [read_server site draws hs hfresh, Reception.next, hr]
  have hreply : (serve site draws s id (.publicKey name (.done key))).2 = .answer m := by
    generalize receive c = r at hr hm
    obtain ⟨incoming, unread, conn⟩ := r
    obtain rfl : incoming = _ := hr
    rcases message_code hm with ⟨hreply, -⟩ | ⟨rfl, -⟩
    · exact hreply
    · cases hcode
  rw [hserver]
  exact ⟨serve_wellFormed site draws hs hfresh id _,
    serve_publicKey_answered hs hfresh hreply hcode⟩

theorem read_reconnects (hs : WellFormed s) (hfresh : draws.uuid ∉ s.ids) {c : Conn}
    (hc : c.sendsLeft = none) {name : Text} {key aesKey : Bytes}
    (hr : (receive c).incoming = .request id (.reconnection name))
    (ha : s.accounts id = some ⟨name, key, aesKey⟩) {k : site.PublicKey} {encrypted : Bytes}
    (himport : site.importKey key = some k)
    (hencrypt : site.oaepEncrypt k draws.seed draws.aesKey = some encrypted) :
    ((read site draws).run (calm s c)).2.conn.sent =
        c.sent ++ (Message.aesKey General.validReconnectionAes1605 id encrypted).bytes ∧
      HoldsKey ((read site draws).run (calm s c)).2.server id draws.aesKey := by
  obtain ⟨hreply, hafter⟩ := serve_reconnects hs hfresh ha himport hencrypt
  have hserver : ((read site draws).run (calm s c)).2.server =
      (serve site draws s id (.reconnection name)).1 := by
    rw [read_server site draws hs hfresh, Reception.next, hr]
  constructor
  · rw [read_sent site draws hs hfresh hc, message_request hr, hreply]
    rfl
  · rw [hserver]
    exact holdsKey_of_accounts (serve_wellFormed site draws hs hfresh id _) hafter

end

/-- The run of `send_public_key_get_aes` up to the answer, and that of `reconnection`. -/
abbrev exchangeRun (kit : ClientSide.Toolkit) (keys : KeyPair) (client : ClientSide.Client)
    (tries : Nat) (request : ClientSide.Request) : Files → Local ClientSide.Client :=
  untilRead keys (ClientSide.sendPublicKeyGetAes kit client (tries + 1) request)

abbrev reconnectionRun (kit : ClientSide.Toolkit) (keys : KeyPair) (client : ClientSide.Client)
    (tries : Nat) (request : ClientSide.Request) :
    Files → Local (Nat × ClientSide.Client × ClientSide.Request) :=
  untilRead keys (ClientSide.reconnection kit client (tries + 1) request)

/-- What a client has sent has arrived, and then the rest. -/
def Conn.carrying (sent : List Bytes) (rest : Bytes) (c : Conn) : Conn :=
  c.withAvail (sent.flatten ++ rest)

/-- With the tables apart: after an 826 that was answered 1602 and before the next one, an 827
is answered 1605. -/
theorem reconnection_apart {site : Site} {publicKey : Bytes}
    (hlengths : ∀ k seed seed' plain plain', plain.length = plain'.length →
      site.oaepEncrypt k seed plain ≠ none → site.oaepEncrypt k seed' plain' ≠ none)
    {s : Server} (hs : WellFormed s) {draws : Draws} (hfresh : draws.uuid ∉ s.ids) {c : Conn}
    (hc : c.sendsLeft = none) {id : Bytes} {name : Text}
    (hr : (receive c).incoming = .request id (.publicKey name (.done publicKey))) {size : Nat}
    (hanswered : ((read site draws).run (calm s c)).2.conn.answers =
      c.answers ++ [⟨General.gotPublicSendAes1602, size⟩])
    {es : List Event} {t : Server}
    (hrun : (serverRuns site).Run ((read site draws).run (calm s c)).2.server es t)
    (hlater : ∀ e ∈ es, ∀ name key, ¬ e.Asks id (.publicKey name key))
    {draws' : Draws} (hfresh' : draws'.uuid ∉ t.ids) {c' : Conn} (hc' : c'.sendsLeft = none)
    (hr' : (receive c').incoming = .request id (.reconnection name)) :
    ∃ k encrypted, site.importKey publicKey = some k ∧
      site.oaepEncrypt k draws'.seed draws'.aesKey = some encrypted ∧
      ((read site draws').run (calm t c')).2.conn.sent =
        c'.sent ++ (Message.aesKey General.validReconnectionAes1605 id encrypted).bytes ∧
      HoldsKey ((read site draws').run (calm t c')).2.server id draws'.aesKey := by
  obtain ⟨hwt, haccount, hsome⟩ := read_publicKey_answered hs hfresh hc hr hanswered
  obtain ⟨encrypted₀, hencrypted₀⟩ := Option.ne_none_iff_exists'.mp hsome
  obtain ⟨k, himport, hencrypt₀⟩ := Option.bind_eq_some_iff.mp hencrypted₀
  obtain ⟨aesKey, hkeeps⟩ := run_keepsKey hwt hrun hlater haccount
  have hlength : draws.aesKey.length = draws'.aesKey.length :=
    draws.length_aesKey.trans draws'.length_aesKey.symm
  obtain ⟨encrypted, hencrypt⟩ := Option.ne_none_iff_exists'.mp
    (hlengths k draws.seed draws'.seed _ _ hlength (hencrypt₀ ▸ Option.some_ne_none _))
  have hwu := hrun.invariant (fun _ _ _ hw hstep => step_wellFormed hw hstep) hwt
  obtain ⟨hanswer, hholds⟩ := read_reconnects hwu hfresh' hc' hr' hkeeps himport hencrypt
  exact ⟨k, encrypted, himport, hencrypt, hanswer, hholds⟩

section
variable {kit : ClientSide.Toolkit} {keys : KeyPair} {client : ClientSide.Client} {name : Text}
  {request : ClientSide.Request}

/-- The client sends its name and its public key, and writes down its identity. -/
theorem sent_exchange (hclient : client.nameClient = encodeUtf8 name)
    (hid : client.clientId.length = ClientSide.clientIdSize)
    (hfits : NameFits ClientSide.nameOfClientSize name)
    (hpublic : keys.publicKey.length = General.publicKeySize) (hrequest : request.Empty)
    (tries : Nat) (files : Files) :
    (exchangeRun kit keys client tries request files).sent =
      [requestBytes client.clientId (.publicKey name (.done keys.publicKey))] :=
  (@ClientSide.untilRead_sendPublicKeyGetAes kit keys client name request hid hclient hfits hpublic
    hrequest tries files).1

/-- With these files it later sends the same name and id, and reads back its private key. -/
theorem sent_reconnection
    (hbase64 : kit.base64Decode ((kit.base64Encode keys.privateKey).filter (· ≠ 10)) =
      keys.privateKey)
    (hpublic : keys.publicKey.length = General.publicKeySize)
    (hfits : NameFits ClientSide.nameOfClientSize name) (hline : (10 : UInt8) ∉ encodeUtf8 name)
    (hclient : client.nameClient = encodeUtf8 name)
    (hid : client.clientId.length = ClientSide.clientIdSize)
    (hrequest : request.Empty) (tries : Nat) (files : Files)
    {client' : ClientSide.Client} (hclient' : client'.nameClient = client.nameClient)
    (keys' : KeyPair) {request' : ClientSide.Request} (hrequest' : request'.Empty) (tries' : Nat)
    {files' : Files} (hfiles' : ∀ path, path = ClientSide.meInfo ∨ path = ClientSide.privKeyFile →
      files' path = (exchangeRun kit keys client tries request files).files path) :
    (reconnectionRun kit keys' client' tries' request' files').sent =
        [requestBytes client.clientId (.reconnection name)] ∧
      (untilRead keys' (ClientSide.readPrivKey kit) files').rest = .ret keys.privateKey := by
  have hkept := (@ClientSide.untilRead_sendPublicKeyGetAes kit keys client name request hid
    hclient hfits hpublic hrequest tries files).2
  have hkept' : Kept kit keys.privateKey client'.nameClient client.clientId files' := by
    rw [hclient']
    exact ⟨(hfiles' _ (.inl rfl)).trans hkept.meInfo, (hfiles' _ (.inr rfl)).trans hkept.privKey⟩
  have hline' : (10 : UInt8) ∉ client'.nameClient := by
    rw [hclient', hclient]
    exact hline
  refine ⟨@ClientSide.untilRead_reconnection kit keys' client' name request' files' _ _
    hkept' hid (hclient'.trans hclient) hfits hline' hrequest' tries', ?_⟩
  rw [@ClientSide.untilRead_readPrivKey kit keys' files' _ _ _ hkept' hbase64]

end

/-- After an 826 that was answered 1602, and whatever requests and restarts follow but
another 826 with that id and packets for the working directory, an 827 with the name and the
id that the client reads back is answered 1605: with the id, and with the AES key that the
server then stores for it, encrypted under the public key whose private key the client reads
back. -/
theorem reconnection_completes (site : Site) (q : Sqlite) (kit : ClientSide.Toolkit)
    (keys : KeyPair)
    (hpair : ∀ k seed plain encrypted, site.importKey keys.publicKey = some k →
      site.oaepEncrypt k seed plain = some encrypted →
        kit.rsaDecrypt keys.privateKey encrypted = some plain)
    (hlengths : ∀ k seed seed' plain plain', plain.length = plain'.length →
      site.oaepEncrypt k seed plain ≠ none → site.oaepEncrypt k seed' plain' ≠ none)
    (hbase64 : kit.base64Decode ((kit.base64Encode keys.privateKey).filter (· ≠ 10)) =
      keys.privateKey)
    (hpublic : keys.publicKey.length = General.publicKeySize) (name : Text)
    (hname : NameFits ClientSide.nameOfClientMaxSize name) (hline : (10 : UInt8) ∉ encodeUtf8 name)
    (client : ClientSide.Client) (hclient : client.nameClient = encodeUtf8 name)
    (hid : client.clientId.length = ClientSide.clientIdSize) (request : ClientSide.Request)
    (hrequest : request.Empty) (tries : Nat) (files : Files) (s : Server)
    (hs : (awayRuns site q).Reachable s)
    (draws : Draws) (hfresh : draws.uuid ∉ s.ids) (c : Conn) (hc : c.sendsLeft = none)
    (rest : Bytes) (size : Nat)
    (hanswered : ((read (site.storing q) draws).run (calm s (c.carrying
        (exchangeRun kit keys client tries request files).sent rest))).2.conn.answers =
      c.answers ++ [⟨General.gotPublicSendAes1602, size⟩])
    (es : List Event) (t : Server)
    (hrun : (awayRuns site q).Run ((read (site.storing q) draws).run (calm s (c.carrying
        (exchangeRun kit keys client tries request files).sent rest))).2.server es t)
    (hlater : ∀ e ∈ es, ∀ name key, ¬ e.Asks client.clientId (.publicKey name key))
    (client' : ClientSide.Client) (hclient' : client'.nameClient = client.nameClient)
    (keys' : KeyPair) (request' : ClientSide.Request) (hrequest' : request'.Empty) (tries' : Nat)
    (files' : Files) (hfiles' : ∀ path, path = ClientSide.meInfo ∨ path = ClientSide.privKeyFile →
      files' path = (exchangeRun kit keys client tries request files).files path)
    (draws' : Draws) (hfresh' : draws'.uuid ∉ t.ids) (c' : Conn) (hc' : c'.sendsLeft = none)
    (rest' : Bytes) :
    (reconnectionRun kit keys' client' tries' request' files').sent =
        [requestBytes client.clientId (.reconnection name)] ∧
      (untilRead keys' (ClientSide.readPrivKey kit) files').rest = .ret keys.privateKey ∧
      ∃ k encrypted, site.importKey keys.publicKey = some k ∧
        site.oaepEncrypt k draws'.seed draws'.aesKey = some encrypted ∧
        ((read (site.storing q) draws').run (calm t (c'.carrying
          (reconnectionRun kit keys' client' tries' request' files').sent rest'))).2.conn.sent =
        c'.sent ++
          (Message.aesKey General.validReconnectionAes1605 client.clientId encrypted).bytes ∧
        kit.rsaDecrypt keys.privateKey encrypted = some draws'.aesKey ∧
        HoldsKey ((read (site.storing q) draws').run (calm t (c'.carrying
          (reconnectionRun kit keys' client' tries' request' files').sent rest'))).2.server
          client.clientId draws'.aesKey := by
  have hfits : NameFits ClientSide.nameOfClientSize name :=
    ClientSide.NameFits.mono hname (by decide)
  have hsent := @sent_exchange kit keys _ _ _ hclient hid hfits hpublic hrequest tries files
  obtain ⟨hsent', hread⟩ := sent_reconnection hbase64 hpublic hfits hline hclient hid hrequest tries
    files hclient' keys' hrequest' tries' hfiles'
  have hexchanged := congrArg Reception.incoming (@receive_request client.clientId
    (.publicKey name (.done keys.publicKey)) hid ⟨hfits, _, rfl, hpublic⟩ rest c)
  have hreturned := congrArg Reception.incoming (@receive_request client.clientId
    (.reconnection name) hid hfits rest' c')
  simp only [hsent, Conn.carrying, List.flatten_singleton] at hanswered hrun
  simp only [hsent', hread, Conn.carrying, List.flatten_singleton, true_and]
  -- the two callbacks and the run between them, with the tables apart
  obtain ⟨haside, hreach⟩ := awayReachable_aside hs
  have hstep := awayStep_aside haside ⟨step_read hfresh, away_of_incoming hexchanged nofun⟩
  obtain ⟨⟨hstored, -⟩, hrun⟩ := awayRun_aside hstep.1 hrun
  obtain ⟨hfirst, -⟩ := read_aside haside.1 draws (away_of_incoming hexchanged nofun) []
  obtain ⟨hsecond, -⟩ := read_aside hstored draws' (away_of_incoming hreturned nofun) []
  rw [← calm] at hfirst hsecond
  obtain ⟨k, encrypted, himport, hencrypt, hanswer, hholds⟩ :=
    @reconnection_apart site keys.publicKey hlengths (s.aside site) haside.2 draws hfresh
      (c.withAvail (requestBytes client.clientId (.publicKey name (.done keys.publicKey)) ++ rest))
      hc client.clientId name hexchanged size (by rw [hfirst]; exact hanswered) es (t.aside site)
      (by rw [hfirst]; exact hrun) hlater draws' hfresh'
      (c'.withAvail (requestBytes client.clientId (.reconnection name) ++ rest')) hc' hreturned
  rw [hsecond] at hanswer hholds
  exact ⟨k, encrypted, himport, hencrypt, hanswer, hpair k _ _ _ himport hencrypt,
    hholds.records, hholds.rows⟩

/-! A client `a` with the RSA key of the exchange above, over a restart of the server. -/

/-- The private key of `rsaPublicKey`. -/
@[irreducible] def rsaPrivateKey : Bytes := bytesOf [
  0x3082027402010030, 0x0d06092a864886f7, 0x0d01010105000482, 0x025e3082025a0201,
  0x0002818100a9e494, 0x8183fcb660592a1c, 0x5b063b325fea2078, 0xb53ff5b5b6e5ae2f,
  0x04b3e2e3170e57b9, 0x3bb3504e3ef8c202, 0x8778a5b872d3531c, 0xdce7bd202a64c0bc,
  0xa662afa1b2147ed5, 0xcd145015b11fdd76, 0x2c6facb6f5cefb3c, 0x09ea84226d151e21,
  0x76b0d45a3c5a3fd6, 0x05d75862d4d25443, 0x6edba8198dedbe56, 0x79f726a247225692,
  0xac8e7d89b7020111, 0x0281804ff318b56b, 0x49bf3c6631ef39e4, 0xd0902d22e21aafa5,
  0xa0cdfbb761071145, 0x97f26533ed0bdfdb, 0xe98e3bc05b4c7bfc, 0x8a38ae8190860d9a,
  0x3ae1f5d50f67d5d4, 0x166a34eae4794ac3, 0x31e9e677d0d0c14a, 0xc4149a374c9d63d7,
  0xa15e7abca6624aab, 0x7d0d896ae25a885f, 0x57c63059d52ce3ff, 0xebd3915bc9fe29ac,
  0x57265bc4d6a651af, 0x249771024100d7ea, 0xbfc5632bcd8b93c8, 0x16c7229e4a7f0bea,
  0x7d8bc58893828eed, 0xf235b1b6f3178be2, 0xde68d11a9504089a, 0x8ba3d20b7d6b935f,
  0x5f0797d86e3541bc, 0xa5a07861a5d90241, 0x00c96e9448d25a37, 0x1bcd79a3ca8e2dc0,
  0xaf0d8df009fac4a6, 0x25b54e9e6252b3aa, 0x60cb3bf73b3ba348, 0xaa0ad4b86689c77a,
  0x8d7751bb59d11502, 0x8ede51cb9e81ee22, 0x0f02403f8147764a, 0x582d65499533e037,
  0x5bbb8ec744f7bfb2, 0x9194cc0beba19752, 0x62fc341a158cb56a, 0xad771f4dd31a0301,
  0x8ae8a72b58492059, 0xd63e882264a92f32, 0x7712a90241008e2f, 0xf033674ebd7d0983,
  0x0a34a098c43f54dc, 0xa97074c70bde61dd, 0x2481a3ca1de9f8df, 0x08de84734259e987,
  0x18c0d9b9fc279f84, 0xfcb7dee1a773e839, 0xbce85bb727190240, 0x296d8866379507a9,
  0xb926343107a2096c, 0x3bc40eda10c6f9aa, 0x570be60422e46e46, 0xb1e1c1744fd0283f,
  0xcbd0ea25d5875cd5, 0x94bfe81872af79f6, 0x1a827a7333eed5ec]

/-- The same in base 64, in lines of 72 characters. -/
@[irreducible] def rsaPrivateText : Bytes := bytesOf [
  0x4d49494364414942, 0x4144414e42676b71, 0x686b694739773042, 0x4151454641415343,
  0x416c347767674a61, 0x41674541416f4742, 0x414b6e6b6c494744, 0x2f4c5a6757536f63,
  0x577759374d6c2f71, 0x0a49486931502f57, 0x31747557754c7753, 0x7a34754d58446c65,
  0x354f374e51546a37, 0x3477674b48654b57, 0x3463744e54484e7a, 0x6e765341715a4d43,
  0x38706d4b766f6249, 0x556674584e464641, 0x560a73522f646469, 0x7876724c62317a76,
  0x733843657145496d, 0x305648694632734e, 0x526150466f2f3167, 0x585857474c55306c,
  0x52446274756f4759, 0x3374766c5a353979, 0x616952794a576b71, 0x794f0a66596d3341,
  0x674552416f474154, 0x2f4d597457744a76, 0x7a786d4d65383535, 0x4e43514c534c6947,
  0x712b6c6f4d333774, 0x3245484555575838, 0x6d557a3751766632, 0x2b6d4f4f38426254,
  0x4876380a696a6975, 0x675a4347445a6f36, 0x3466585644326656, 0x31425a714e4f726b,
  0x655572444d656e6d, 0x6439445177557245, 0x464a6f33544a316a, 0x313646656572796d,
  0x596b71726651324a, 0x61754a610a694639, 0x58786a425a31537a, 0x6a2f2b76546b5676,
  0x4a2f696d7356795a, 0x62784e616d556138, 0x6b6c334543515144, 0x5836722f46597976,
  0x4e69355049467363, 0x696e6b702f432b70, 0x39693857490a6b34, 0x4b4f376649317362,
  0x627a46347669336d, 0x6a5247705545434a, 0x714c6f39494c6657, 0x7554583138486c39,
  0x68754e5547387061, 0x42345961585a416b, 0x454179573655534e, 0x4a614e78764e0a65,
  0x61504b6a69334172, 0x77324e38416e3678, 0x4b596c7455366559, 0x6c4b7a716d444c4f,
  0x2f63374f364e4971, 0x6772557547614a78, 0x33714e6431473757, 0x644556416f376555,
  0x637565676534690a, 0x44774a4150344648, 0x646b70594c57564a, 0x6c5450674e317537,
  0x6a73644539372b79, 0x6b5a544d432b7568, 0x6c314a692f445161, 0x4659793161713133,
  0x4830335447674d42, 0x6975696e4b31684a, 0x0a49466e57506f67, 0x695a4b6b764d6e63,
  0x5371514a42414934, 0x7638444e6e547231, 0x3943594d4b4e4b43, 0x5978443955334b6c,
  0x77644d634c336d48, 0x644a49476a796833, 0x702b4e3849336f52, 0x7a0a516c6e706878,
  0x6a4132626e384a35, 0x2b452f4c66653461, 0x647a36446d383646, 0x75334a786b435143,
  0x6c74694759336c51, 0x6570755359304d51, 0x6569435777377841, 0x3761454d6235716c,
  0x634c0a3567516935, 0x4735477365484264, 0x452f514b442f4c30, 0x4f6f6c3159646331,
  0x5a532f3642687972, 0x336e32476f4a3663, 0x7a50753165773d0a]

/-- What `rsaEncrypt` makes is decrypted. -/
def rsaDecrypt (privateKey encrypted : Bytes) : Option Bytes :=
  if privateKey ≠ rsaPrivateKey then none
  else if encrypted = rsaCiphertext then some (List.replicate 32 1)
  else if encrypted.head? = some 1 then some encrypted.tail else none

def rsaKit : ClientSide.Toolkit :=
  { ClientSide.bareKit with
    rsaDecrypt := rsaDecrypt
    base64Encode := fun key => if key = rsaPrivateKey then rsaPrivateText else key
    base64Decode := fun text =>
      if text = rsaPrivateText.filter (· ≠ 10) then rsaPrivateKey else text }

def rsaKeys : KeyPair := ⟨rsaPrivateKey, rsaPublicKey⟩

def rsaClient : ClientSide.Client :=
  { ClientSide.Client.new with nameClient := [97], clientId := oneClientId }

theorem head_rsaCiphertext : rsaCiphertext.head? = some 0x90 := by
  rw [rsaCiphertext]
  rfl

theorem length_rsaCiphertext : rsaCiphertext.length = 128 := by
  rw [rsaCiphertext, length_bytesOf]
  rfl

theorem rsaDecrypt_encrypt {seed plain encrypted : Bytes}
    (h : rsaEncrypt seed plain = some encrypted) :
    rsaDecrypt rsaPrivateKey encrypted = some plain := by
  rw [rsaEncrypt] at h
  rw [rsaDecrypt, if_neg (not_not_intro rfl)]
  split at h
  · rename_i hsample
    obtain rfl := Option.some.inj h
    rw [if_pos rfl, hsample.2]
  split at h
  · obtain rfl := Option.some.inj h
    have hne : 1 :: plain ≠ rsaCiphertext := by
      intro he
      have hhead := head_rsaCiphertext
      rw [← he] at hhead
      cases hhead
    have hhead : (1 :: plain).head? = some (1 : UInt8) := rfl
    rw [if_neg hne, if_pos hhead]
    rfl
  · cases h

theorem rsaEncrypt_lengths {seed seed' plain plain' : Bytes} (hlen : plain.length = plain'.length)
    (h : rsaEncrypt seed plain ≠ none) : rsaEncrypt seed' plain' ≠ none := by
  have hle : plain.length ≤ 86 := by
    rw [rsaEncrypt] at h
    split at h
    · rename_i hsample
      rw [hsample.2, List.length_replicate]
      omega
    split at h
    · assumption
    · exact absurd rfl h
  rw [rsaEncrypt]
  split
  · exact Option.some_ne_none _
  · rw [if_pos (hlen ▸ hle)]
    exact Option.some_ne_none _

theorem base64_rsa : rsaKit.base64Decode ((rsaKit.base64Encode rsaPrivateKey).filter (· ≠ 10)) =
    rsaPrivateKey := by
  have hencode : rsaKit.base64Encode rsaPrivateKey = rsaPrivateText := if_pos rfl
  rw [hencode]
  exact if_pos rfl

/-- What the client sends for the exchange, and on its return. -/
abbrev rsaExchange : Local ClientSide.Client :=
  exchangeRun rsaKit rsaKeys rsaClient 3 .new fun _ => none

abbrev rsaReturn : Local (Nat × ClientSide.Client × ClientSide.Request) :=
  reconnectionRun rsaKit rsaKeys rsaClient 3 .new rsaExchange.files

theorem fits_rsaName : NameFits ClientSide.nameOfClientSize ['a'] := ⟨by decide, by decide⟩

theorem sent_rsaExchange : rsaExchange.sent =
    [requestBytes oneClientId (.publicKey ['a'] (.done rsaPublicKey))] :=
  @sent_exchange rsaKit rsaKeys rsaClient _ _ rfl rfl fits_rsaName length_rsaPublicKey
    ⟨rfl, rfl⟩ 3 _

theorem sent_rsaReturn : rsaReturn.sent = [requestBytes oneClientId (.reconnection ['a'])] :=
  (@sent_reconnection rsaKit rsaKeys rsaClient _ _ base64_rsa length_rsaPublicKey fits_rsaName
    (by decide) rfl rfl ⟨rfl, rfl⟩ 3 _ _ rfl rsaKeys _ ⟨rfl, rfl⟩ 3 _ fun _ _ => rfl).1

/-- The 826 is answered 1602, and leaves the server as it is after the exchange. -/
theorem answered_rsaExchange : ((read (rsaSite.storing codedSqlite) rsaDraws).run
    (calm registeredForKey (Conn.accepted.carrying rsaExchange.sent []))).2.conn.answers =
      Conn.accepted.answers ++ [⟨General.gotPublicSendAes1602, 16 + 128⟩] := by
  rw [sent_rsaExchange, Conn.carrying, List.flatten_singleton]
  decide +kernel

theorem server_rsaExchange : ((read (rsaSite.storing codedSqlite) rsaDraws).run
    (calm registeredForKey (Conn.accepted.carrying rsaExchange.sent []))).2.server =
      exchangedServer := by
  rw [sent_rsaExchange, Conn.carrying, List.flatten_singleton, exchangedServer, Server.after,
    Event.delivered, step, Option.getD_some]

theorem reconnection_completes_rsa :
    ∃ t, dataBaseHandle (rsaSite.storing codedSqlite) exchangedServer = some t ∧
      ∃ encrypted, ((read (rsaSite.storing codedSqlite) rsaDraws).run
          (calm t (Conn.accepted.carrying rsaReturn.sent []))).2.conn.sent =
        (Message.aesKey General.validReconnectionAes1605 oneClientId encrypted).bytes ∧
      rsaKit.rsaDecrypt rsaPrivateKey encrypted = some rsaDraws.aesKey := by
  have hreach := away_of_encryptable registered_reachable
  have hanswered := answered_rsaExchange
  obtain ⟨hfresh, hrestarted⟩ : rsaDraws.uuid ∉ registeredForKey.ids ∧
      (dataBaseHandle (rsaSite.storing codedSqlite) exchangedServer).map (fun t => t.ids) =
        some [oneClientId] := by
    decide +kernel
  obtain ⟨t, ht, hids⟩ := Option.map_eq_some_iff.mp hrestarted
  have hrun : (awayRuns rsaSite codedSqlite).Run ((read (rsaSite.storing codedSqlite) rsaDraws).run
      (calm registeredForKey (Conn.accepted.carrying rsaExchange.sent []))).2.server
      [.restart] t := by
    rw [server_rsaExchange]
    exact .cons ⟨⟨trivial, ht⟩, fun _ _ h => h.elim⟩ (.nil t)
  have hfresh' : rsaDraws.uuid ∉ t.ids := by
    rw [hids]
    decide
  have hlater : ∀ e ∈ [Event.restart], ∀ name key,
      ¬ e.Asks rsaClient.clientId (.publicKey name key) := by
    intro e he _ _ hasks
    obtain rfl := List.mem_singleton.mp he
    exact hasks
  rw [rsaReturn, rsaExchange]
  rw [rsaExchange] at hanswered hrun
  obtain ⟨-, -, k, encrypted, -, -, hanswer, hdecrypt, -⟩ := reconnection_completes rsaSite
    codedSqlite rsaKit rsaKeys (fun _ _ _ _ _ hencrypt => rsaDecrypt_encrypt hencrypt)
    (fun _ _ _ _ _ hlen hsome => rsaEncrypt_lengths hlen hsome) base64_rsa length_rsaPublicKey
    ['a'] ⟨by decide, by decide⟩ (by decide) rsaClient rfl rfl .new ⟨rfl, rfl⟩ 3 (fun _ => none)
    registeredForKey hreach rsaDraws hfresh .accepted rfl [] (16 + 128) hanswered
    [.restart] t hrun hlater rsaClient rfl rsaKeys .new ⟨rfl, rfl⟩ 3 _ (fun _ _ => rfl) rsaDraws
    hfresh' .accepted rfl []
  exact ⟨t, ht, encrypted, hanswer, hdecrypt⟩

/-- With a packet for the database and a restart in between the client is refused. -/
theorem reconnection_overwritten : ∃ s t, (storedRuns rsaSite codedSqlite).Reachable s ∧
    ((read (rsaSite.storing codedSqlite) rsaDraws).run
      (calm s (Conn.accepted.carrying rsaExchange.sent []))).2.conn.answers =
        Conn.accepted.answers ++ [⟨General.gotPublicSendAes1602, 16 + 128⟩] ∧
    (storedRuns rsaSite codedSqlite).Run ((read (rsaSite.storing codedSqlite) rsaDraws).run
      (calm s (Conn.accepted.carrying rsaExchange.sent []))).2.server
      [overwriting oneClientId, .restart] t ∧
    (∀ e ∈ [overwriting oneClientId, .restart], ∀ name key,
      ¬ e.Asks rsaClient.clientId (.publicKey name key)) ∧
    ((read (rsaSite.storing codedSqlite) rsaDraws).run
      (calm t (Conn.accepted.carrying rsaReturn.sent []))).2.conn.answers =
        [⟨General.reconnectionFailed1606, General.clientIdSize⟩] := by
  have hreach := (away_of_encryptable registered_reachable).of_guard
  obtain ⟨hfresh, hrestarted⟩ : (sameDraws 3).uuid ∉ exchangedServer.ids ∧
      (dataBaseHandle (rsaSite.storing codedSqlite)
        (exchangedServer.overwritten rsaSite oneClientId)).map (fun t =>
          ((read (rsaSite.storing codedSqlite) rsaDraws).run (calm t (Conn.accepted.withAvail
            (requestBytes oneClientId (.reconnection ['a']))))).2.conn.answers) =
        some [⟨General.reconnectionFailed1606, General.clientIdSize⟩] := by
    decide +kernel
  obtain ⟨t, ht, hrefused⟩ := Option.map_eq_some_iff.mp hrestarted
  refine ⟨registeredForKey, t, hreach, answered_rsaExchange, ?_, ?_, ?_⟩
  · rw [server_rsaExchange]
    exact .cons (step_after hfresh) (.cons ⟨trivial, ht⟩ (.nil t))
  · intro e he name key hasks
    obtain rfl | he := List.mem_cons.mp he
    · exact absurd (asks_delivered rfl fits_overwriting _ hasks).2 nofun
    · obtain rfl := List.mem_singleton.mp he
      exact hasks
  · rw [sent_rsaReturn, Conn.carrying, List.flatten_singleton, List.append_nil]
    exact hrefused

end SecureTransfer
