import SecureTransfer.Service.Accounts
import SecureTransfer.Service.Stored

/-!
The AES keys the server stores and the answers that carried them. A new AES key is stored
before the public key it is to be encrypted with is known to work, so the stored key is
the one the client was given as long as every such encryption succeeds and no packet
reaches the database.
-/

open Octets (Text)
open Effects Act
open Runs (System)

namespace SecureTransfer

/-- What is sent while an event is handled, if the peer stays. -/
def answerTo (site : Site) (s : Server) : Event → Option Message
  | .callback draws c => (receive c).message site draws s
  | .restart => none

/-- Runs with all answers sent so far, in which sends succeed, with the tables apart. -/
def apartAnswers (site : Site) : System (Server × List Message) Event where
  init p := (serverRuns site).init p.1 ∧ p.2 = []
  step p e q := (serverRuns site).step p.1 e q.1 ∧ q.2 = p.2 ++ (answerTo site p.1 e).toList ∧
    ∀ draws c, e = .callback draws c → c.sendsLeft = none

/-- The same with a database that no packet reaches. -/
def answerRuns (site : Site) (q : Sqlite) : System (Server × List Message) Event where
  init p := (awayRuns site q).init p.1 ∧ p.2 = []
  step p e r := (awayRuns site q).step p.1 e r.1 ∧
    r.2 = p.2 ++ (answerTo site (p.1.aside site) e).toList ∧
    ∀ draws c, e = .callback draws c → c.sendsLeft = none

/-- The last 1602 or 1605 sent to a client. -/
def lastKeyAnswer (answers : List Message) (id : Bytes) : Option Message :=
  (answers.filter fun m => IsKeyCode m.header.code ∧ m.parts.head? = some id).getLast?

/-- No AES key, or the one in the last key answer, encrypted under this public key. -/
def KeySent (site : Site) (answers : List Message) (id : Bytes) (a : Account) : Prop :=
  a.aesKey = [] ∨ ∃ code k seed encrypted, site.importKey a.publicKey = some k ∧
    site.oaepEncrypt k seed a.aesKey = some encrypted ∧
    lastKeyAnswer answers id = some (.aesKey code id encrypted)

/-- Whenever a new AES key is to be stored, the public key it goes under can be imported
and encrypts it. -/
def Encryptable (site : Site) (s : Server) (e : Event) : Prop :=
  ∀ draws c id body a key code, e = .callback draws c →
    (receive c).incoming = .request id body → s.accounts id = some a →
      Offers site a body key code → encryptedKey site draws key ≠ none

section
variable {site : Site} {s : Server} {answers : List Message} {id : Bytes}

theorem lastKeyAnswer_concat (m : Message) : lastKeyAnswer (answers ++ [m]) id =
    if IsKeyCode m.header.code ∧ m.parts.head? = some id then some m
    else lastKeyAnswer answers id := by
  rw [lastKeyAnswer, List.filter_append]
  by_cases h : IsKeyCode m.header.code ∧ m.parts.head? = some id
  · rw [if_pos h, List.filter_cons_of_pos (by simpa using h), List.filter_nil,
      List.getLast?_concat]
  · rw [if_neg h, List.filter_cons_of_neg (by simpa using h), List.filter_nil, List.append_nil]
    rfl

/-- Answers that are no key answers leave the last one. -/
theorem lastKeyAnswer_append {o : Option Message}
    (h : ∀ m, o = some m → ¬ IsKeyCode m.header.code) :
    lastKeyAnswer (answers ++ o.toList) id = lastKeyAnswer answers id := by
  cases o with
  | none => rw [Option.toList_none, List.append_nil]
  | some m =>
      rw [Option.toList_some, lastKeyAnswer_concat, if_neg fun hm => h m rfl hm.1]

theorem failureMessage_isKeyCode (registration : Bool) :
    ¬ IsKeyCode (failureMessage registration).header.code := by
  cases registration <;> rintro (h | h) <;> cases h

/-- The answer to a request whose reply is no key answer is none either. -/
theorem message_isKeyCode {draws : Draws} {r : Reception} {body : Body}
    (hr : r.incoming = .request id body)
    (hreply : ∀ m, (serve site draws s id body).2 = .answer m → ¬ IsKeyCode m.header.code) :
    ∀ m, r.message site draws s = some m → ¬ IsKeyCode m.header.code := by
  intro m hm
  rw [message_request hr] at hm
  cases h : (serve site draws s id body).2 with
  | silent | waits => simp [h] at hm
  | answer m' =>
      simp only [h, Option.some.injEq] at hm
      exact hm ▸ hreply m' h
  | rejected | rejectedUnread =>
      simp only [h, Option.some.injEq] at hm
      exact hm ▸ failureMessage_isKeyCode _

/-- What is no request is answered with no key. -/
theorem answerTo_isKeyCode {e : Event} (hnone : ∀ id body, ¬ e.Asks id body) :
    ∀ m, answerTo site s e = some m → ¬ IsKeyCode m.header.code := by
  intro m hm
  cases e with
  | restart => cases hm
  | callback draws c =>
      rw [answerTo, Reception.message] at hm
      split at hm
      · cases hm
      · cases hm
      · obtain rfl := Option.some.inj hm
        exact failureMessage_isKeyCode _
      · rename_i id body hr
        exact absurd hr (hnone id body)

/-- What holds of all accounts. -/
def AllSent (site : Site) (p : Server × List Message) : Prop :=
  ∀ id a, p.1.accounts id = some a → KeySent site p.2 id a

/-- A step in which the new key can be encrypted. -/
theorem step_allSent {p q : Server × List Message} {e : Event} (hw : WellFormed p.1)
    (h : AllSent site p) (hstep : (apartAnswers site).step p e q) (hcan : Encryptable site p.1 e) :
    AllSent site q := by
  obtain ⟨hserver, hanswers, -⟩ := hstep
  intro i a ha
  rw [hanswers]
  obtain ⟨draws, c, id, body, rfl, hr, hexchange⟩ | ⟨hnone, hsame⟩ := step_accounts hw hserver
  · have hmessage : answerTo site p.1 (.callback draws c) = _ := message_request hr
    have hkept := @message_isKeyCode site p.1 id draws (receive c) body hr
    generalize hreply : (serve site draws p.1 id body).2 = reply at hexchange hkept hmessage
    generalize q.1.accounts = accounts at ha hexchange
    cases hexchange with
    | kept _ hno =>
        rw [answerTo, KeySent, lastKeyAnswer_append (hkept hno)]
        exact h i a ha
    | registered hbody hname hfresh =>
        have hdone : ∀ m, answerTo site p.1 (.callback draws c) = some m →
            ¬ IsKeyCode m.header.code := by
          intro m hm
          rw [hmessage] at hm
          obtain rfl := Option.some.inj hm
          rintro (h | h) <;> cases h
        rw [KeySent, lastKeyAnswer_append hdone]
        by_cases hi : i = draws.uuid
        · subst hi
          rw [Function.update_self] at ha
          obtain rfl := Option.some.inj ha
          exact .inl rfl
        · rw [Function.update_of_ne hi] at ha
          exact h i a ha
    | @rekeyed a₀ key code haccount hoffer =>
        cases hencrypted : encryptedKey site draws key with
        | none => exact absurd hencrypted (hcan draws c id body a₀ key code rfl hr haccount hoffer)
        | some encrypted =>
            simp only [hencrypted] at hmessage
            rw [hmessage, Option.toList_some, KeySent, lastKeyAnswer_concat]
            by_cases hi : i = id
            · subst hi
              rw [Function.update_self] at ha
              obtain rfl := Option.some.inj ha
              obtain ⟨k, himport, hencrypt⟩ := Option.bind_eq_some_iff.mp hencrypted
              exact .inr ⟨code, k, draws.seed, encrypted, himport, hencrypt,
                if_pos ⟨hoffer.isKeyCode, rfl⟩⟩
            · rw [Function.update_of_ne hi] at ha
              have hother : ¬ (IsKeyCode (Message.aesKey code id encrypted).header.code ∧
                  (Message.aesKey code id encrypted).parts.head? = some i) :=
                fun hm => hi (Option.some.inj hm.2).symm
              rw [if_neg hother]
              exact h i a ha
  · rw [KeySent, lastKeyAnswer_append (answerTo_isKeyCode hnone)]
    rw [hsame] at ha
    exact h i a ha

/-- An 826 or 827 that is answered with an error leaves all keys. -/
theorem step_refused {t : Server} {draws : Draws} {c : Conn} (hw : WellFormed s)
    (hstep : (serverRuns site).step s (.callback draws c) t)
    (hcan : Encryptable site s (.callback draws c)) {body : Body}
    (hr : (receive c).incoming = .request id body) (hbody : body.isRegistration = false)
    {m : Message} (hm : answerTo site s (.callback draws c) = some m)
    (hcode : ¬ IsKeyCode m.header.code) : t.accounts = s.accounts := by
  obtain ⟨draws, c, id, body', he, hr', hexchange⟩ | ⟨-, hsame⟩ := step_accounts hw hstep
  · obtain ⟨rfl, rfl⟩ := Event.callback.inj he
    obtain ⟨rfl, rfl⟩ := Incoming.request.inj (hr.symm.trans hr')
    have hmessage : answerTo site s (.callback draws c) = _ := message_request hr
    generalize hreply : (serve site draws s id body).2 = reply at hexchange hmessage
    generalize t.accounts = accounts at hexchange
    cases hexchange with
    | kept _ _ => rfl
    | registered hregister _ _ =>
        subst hregister
        cases hbody
    | @rekeyed a key code haccount hoffer =>
        cases hencrypted : encryptedKey site draws key with
        | none => exact absurd hencrypted (hcan draws c id body a key code rfl hr haccount hoffer)
        | some encrypted =>
            simp only [hencrypted] at hmessage
            rw [hmessage] at hm
            obtain rfl := Option.some.inj hm
            exact absurd hoffer.isKeyCode hcode
  · exact hsame

end

theorem allSent_of_encryptable {site : Site} {p : Server × List Message}
    (h : ((apartAnswers site).guard fun p e => Encryptable site p.1 e).Reachable p) :
    WellFormed p.1 ∧ AllSent site p := by
  refine System.Reachable.invariant (I := fun p => WellFormed p.1 ∧ AllSent site p) ?_ ?_ h
  · rintro p ⟨⟨s₀, h₀, hstart⟩, -⟩
    refine ⟨start_wellFormed h₀ hstart, ?_⟩
    intro i a ha
    obtain ⟨hclients, -⟩ := start_some h₀ hstart
    simp [Server.accounts, Server.client?, hclients] at ha
  · rintro p e q ⟨hw, hsent⟩ ⟨hstep, hcan⟩
    exact ⟨step_wellFormed hw hstep.1, step_allSent hw hsent hstep hcan⟩

/-- With the tables apart. -/
theorem keySent_apart {site : Site} {p : Server × List Message} (hw : WellFormed p.1)
    (hsent : AllSent site p) :
    (∀ c ∈ p.1.clientsList, KeySent site p.2 c.clientId c.toClientRow.account) ∧
    (∀ row ∈ p.1.db.clients, KeySent site p.2 row.clientId row.account) ∧
    ∀ draws c t, (serverRuns site).step p.1 (.callback draws c) t →
      Encryptable site p.1 (.callback draws c) →
      ∀ id name, ((receive c).incoming = .request id (.reconnection name) ∨
        ∃ key, (receive c).incoming = .request id (.publicKey name key)) →
      ∀ m, answerTo site p.1 (.callback draws c) = some m →
        m.header.code = General.generalError1607 ∨
          m.header.code = General.reconnectionFailed1606 →
        (∀ c ∈ p.1.clientsList, ∃ c' ∈ t.clientsList, c'.clientId = c.clientId ∧
          c'.toClientRow.account = c.toClientRow.account) ∧
        ∀ row ∈ p.1.db.clients, ∃ row' ∈ t.db.clients, row'.clientId = row.clientId ∧
          row'.account = row.account := by
  refine ⟨?_, ?_, ?_⟩
  · intro c hc
    exact hsent _ _ (hw.accounts_iff.mpr ⟨c, hc, rfl, rfl⟩)
  · intro row hrow
    exact hsent _ _ (hw.accounts_iff_row.mpr ⟨row, hrow, rfl, rfl⟩)
  · intro draws c t hstep hcan id name hrequest m hm hcode
    have hnokey : ¬ IsKeyCode m.header.code := by
      rintro (h | h) <;> rw [h] at hcode <;> exact absurd hcode (by decide)
    have hsame : t.accounts = p.1.accounts := by
      rcases hrequest with hr | ⟨key, hr⟩
      · exact step_refused hw hstep hcan hr rfl hm hnokey
      · exact step_refused hw hstep hcan hr rfl hm hnokey
    have hwt := step_wellFormed hw hstep
    constructor
    · intro c hc
      refine hwt.accounts_iff.mp ?_
      rw [hsame]
      exact hw.accounts_iff.mpr ⟨c, hc, rfl, rfl⟩
    · intro row hrow
      refine hwt.accounts_iff_row.mp ?_
      rw [hsame]
      exact hw.accounts_iff_row.mpr ⟨row, hrow, rfl, rfl⟩

/-- Runs in which every new AES key can be encrypted for its client. -/
def encryptableRuns (site : Site) (q : Sqlite) : System (Server × List Message) Event :=
  (answerRuns site q).guard fun p e => Encryptable site p.1 e

theorem encryptable_aside {site : Site} {q : Sqlite} {p : Server × List Message}
    (h : (encryptableRuns site q).Reachable p) :
    (Stored site q p.1 ∧ WellFormed (p.1.aside site)) ∧
      ((apartAnswers site).guard fun p e => Encryptable site p.1 e).Reachable
        (p.1.aside site, p.2) := by
  refine h.through (I := fun p => Stored site q p.1 ∧ WellFormed (p.1.aside site))
    (f := fun p => (p.1.aside site, p.2)) (g := id) ?_ ?_
  · intro p e r hp hstep
    obtain ⟨⟨hstep, hlog, hstays⟩, hcan⟩ := hstep
    obtain ⟨hr, haside⟩ := awayStep_aside hp hstep
    exact ⟨hr, ⟨haside, hlog, hstays⟩, hcan⟩
  · intro p hinit
    obtain ⟨hstart, hempty⟩ := hinit
    obtain ⟨hp, haside⟩ := awayInit_aside hstart
    exact ⟨hp, haside, hempty⟩

/-- In runs whose new AES keys can be encrypted and whose packets have no path to the working
directory, the AES key of a client, in memory and in table clients, is empty or the one of the
last 1602 or 1605 sent to it; and an 826 or 827 that is answered with an error leaves all names
and keys. The answers on record are the bytes that are sent. -/
theorem stored_key_was_sent (site : Site) (q : Sqlite) (p : Server × List Message)
    (hp : (encryptableRuns site q).Reachable p) :
    (∀ c ∈ p.1.clientsList, KeySent site p.2 c.clientId c.toClientRow.account) ∧
    (∀ row ∈ p.1.db.clients, KeySent site p.2 row.clientId row.account) ∧
    (site.storing q).stored q p.1.disk = some p.1.db ∧
    ∀ draws c t, (awayRuns site q).step p.1 (.callback draws c) t → c.sendsLeft = none →
      ((read (site.storing q) draws).run (calm p.1 c)).2.conn.sent =
        c.sent ++ (answerTo site (p.1.aside site) (.callback draws c)).elim [] Message.bytes ∧
      (Encryptable site p.1 (.callback draws c) →
      ∀ id name, ((receive c).incoming = .request id (.reconnection name) ∨
        ∃ key, (receive c).incoming = .request id (.publicKey name key)) →
      ∀ m, answerTo site (p.1.aside site) (.callback draws c) = some m →
        m.header.code = General.generalError1607 ∨
          m.header.code = General.reconnectionFailed1606 →
        (∀ c ∈ p.1.clientsList, ∃ c' ∈ t.clientsList, c'.clientId = c.clientId ∧
          c'.toClientRow.account = c.toClientRow.account) ∧
        ∀ row ∈ p.1.db.clients, ∃ row' ∈ t.db.clients, row'.clientId = row.clientId ∧
          row'.account = row.account) := by
  obtain ⟨haside, hreach⟩ := encryptable_aside hp
  obtain ⟨hw, hsent⟩ := allSent_of_encryptable hreach
  obtain ⟨hclients, hrows, herrors⟩ := keySent_apart hw hsent
  refine ⟨hclients, hrows, haside.1.found, ?_⟩
  intro draws c t hstep hstays
  obtain ⟨hrun, -⟩ := read_aside haside.1 draws hstep.2 []
  obtain ⟨-, hstep'⟩ := awayStep_aside haside hstep
  constructor
  · have hsent := @read_sent site draws _ c hw hstep'.1 hstays
    rw [calm, hrun] at hsent
    exact hsent
  · intro hcan id name hrequest m hm hcode
    exact herrors draws c (t.aside site) hstep' hcan id name hrequest m hm hcode

/-! Requests delivered one after another. -/

theorem answers_served {site : Site} {q : Sqlite} {G : Server × List Message → Event → Prop}
    {s : Server} {answers : List Message}
    (h : ((answerRuns site q).guard G).Reachable (s, answers)) {draws : Draws}
    (hfresh : draws.uuid ∉ s.ids) {clientId : Bytes} {body : Body}
    (hid : clientId.length = General.clientIdSize) (hfits : body.Fits)
    (hbody : ∀ p, body ≠ .packet p) (hG : G (s, answers) (.delivered draws clientId body)) :
    ((answerRuns site q).guard G).Reachable
      (s.after (site.storing q) (.delivered draws clientId body),
        answers ++ (answerTo site (s.aside site) (.delivered draws clientId body)).toList) := by
  refine System.Reachable.step h ⟨⟨⟨step_after hfresh, ?_⟩, rfl, ?_⟩, hG⟩
  · intro id packet hasks
    exact absurd (asks_delivered hid hfits draws hasks).2.symm (hbody packet)
  · intro draws' c he
    obtain ⟨-, rfl⟩ := Event.callback.inj he
    rfl

/-! An RSA key of 1024 bits, and what OAEP makes with it of the key of 32 bytes 01 and the
seed of 20 bytes 00. -/

def bytesOf (words : List Nat) : Bytes := words.flatMap fun w => (Octets.toLittle 8 w).reverse

theorem length_bytesOf (words : List Nat) : (bytesOf words).length = 8 * words.length := by
  induction words with
  | nil => rfl
  | cons w words ih =>
      rw [bytesOf, List.flatMap_cons, List.length_append, List.length_reverse,
        Octets.length_toLittle, List.length_cons]
      rw [bytesOf] at ih
      omega

@[irreducible] def rsaPublicKey : Bytes := bytesOf [
  0x30819d300d06092a, 0x864886f70d010101, 0x050003818b003081, 0x8702818100a9e494,
  0x8183fcb660592a1c, 0x5b063b325fea2078, 0xb53ff5b5b6e5ae2f, 0x04b3e2e3170e57b9,
  0x3bb3504e3ef8c202, 0x8778a5b872d3531c, 0xdce7bd202a64c0bc, 0xa662afa1b2147ed5,
  0xcd145015b11fdd76, 0x2c6facb6f5cefb3c, 0x09ea84226d151e21, 0x76b0d45a3c5a3fd6,
  0x05d75862d4d25443, 0x6edba8198dedbe56, 0x79f726a247225692, 0xac8e7d89b7020111]

@[irreducible] def rsaCiphertext : Bytes := bytesOf [
  0x902d022b533c2f07, 0xa506faeab852ac1d, 0x35eec3ce19636cea, 0xe3b2099c6149dbfd,
  0xfb4ba5e5de754063, 0x958751888a1f3e06, 0xa745370c1cb4f5c2, 0xadc7c48dd64278ea,
  0xf4bdddb4ba90eb0f, 0xc770c91b7c01faab, 0x1ea297a0d1945a25, 0x8d3c1547ff1ab39f,
  0x51073622ceef6a4e, 0x977d783a47fc93fa, 0x0ec7dc8b5a06198b, 0xb92538f0feac119d]

/-- Other keys and seeds are encrypted in a simpler way. -/
def rsaEncrypt (seed plain : Bytes) : Option Bytes :=
  if seed = List.replicate 20 0 ∧ plain = List.replicate 32 1 then some rsaCiphertext
  else if plain.length ≤ 86 then some (1 :: plain) else none

def rsaSite : Site :=
  { machine BlockMode.idCipher with
    PublicKey := Unit
    importKey := fun key => if key = rsaPublicKey then some () else none
    oaepEncrypt := fun _ seed plain => rsaEncrypt seed plain
    length_oaepEncrypt := by
      intro _ seed plain cipher h
      rw [rsaEncrypt] at h
      split at h
      · obtain rfl := Option.some.inj h
        have hlen : rsaCiphertext.length = 128 := by
          rw [rsaCiphertext, length_bytesOf]
          rfl
        omega
      split at h
      · rename_i hle
        obtain rfl := Option.some.inj h
        rw [List.length_cons]
        omega
      · cases h }

def rsaDraws : Draws := ⟨List.replicate 16 2, List.replicate 32 1, List.replicate 20 0, 0, rfl, rfl⟩

theorem init_storedRsa : (awayRuns rsaSite codedSqlite).init storedServer :=
  ⟨bareServer, ⟨rfl, (untouched_bareServer BlockMode.idCipher).rooted, fun _ => rfl, fun _ => rfl⟩,
    rfl, rfl⟩

/-- The server after the registration of a client `a`, and after the key it sends. -/
def registeredForKey : Server :=
  storedServer.after (rsaSite.storing codedSqlite)
    (.delivered (sameDraws 1) (List.replicate 16 0) (.registration ['a']))

def exchangedServer : Server :=
  registeredForKey.after (rsaSite.storing codedSqlite)
    (.delivered rsaDraws oneClientId (.publicKey ['a'] (.done rsaPublicKey)))

theorem fits_publicKey {key : Bytes} (h : key.length = General.publicKeySize) :
    (Body.publicKey ['a'] (.done key)).Fits := ⟨⟨by decide, by decide⟩, key, rfl, h⟩

theorem length_rsaPublicKey : rsaPublicKey.length = General.publicKeySize := by
  rw [rsaPublicKey, length_bytesOf]
  rfl

/-- The answers up to then. -/
def exchangedAnswers : List Message :=
  [.registrationDone oneClientId,
    .aesKey General.gotPublicSendAes1602 oneClientId rsaCiphertext]

/-- No request of a client without an account offers a key. -/
theorem encryptable_of_none {site : Site} {draws : Draws} {s : Server} {clientId : Bytes}
    {body : Body} (hid : clientId.length = General.clientIdSize) (hfits : body.Fits)
    (h : ∀ a key code, s.accounts clientId = some a → Offers site a body key code →
      encryptedKey site draws key ≠ none) :
    Encryptable site s (.delivered draws clientId body) := by
  intro draws' c id body' a key code he hr ha hoffer
  obtain ⟨rfl, rfl⟩ := Event.callback.inj he
  obtain ⟨rfl, rfl⟩ := asks_delivered hid hfits draws hr
  exact h a key code ha hoffer

theorem encryptedKey_rsa : encryptedKey rsaSite rsaDraws rsaPublicKey = some rsaCiphertext := by
  have himport : rsaSite.importKey rsaPublicKey = some () := by
    change (if rsaPublicKey = rsaPublicKey then some () else none) = some ()
    rw [if_pos rfl]
  have hencrypt : rsaEncrypt rsaDraws.seed rsaDraws.aesKey = some rsaCiphertext := by
    rw [rsaEncrypt, if_pos ⟨rfl, rfl⟩]
  rw [encryptedKey, himport]
  exact hencrypt

/-- What the two requests are answered, and the key that is kept. -/
theorem answered_exchange :
    answerTo rsaSite (storedServer.aside rsaSite)
        (.delivered (sameDraws 1) (List.replicate 16 0) (.registration ['a'])) =
          some (.registrationDone oneClientId) ∧
      rsaDraws.uuid ∉ registeredForKey.ids ∧
      answerTo rsaSite (registeredForKey.aside rsaSite)
        (.delivered rsaDraws oneClientId (.publicKey ['a'] (.done rsaPublicKey))) =
          some (.aesKey General.gotPublicSendAes1602 oneClientId rsaCiphertext) ∧
      exchangedServer.clientsList.map (·.aesKey) = [rsaDraws.aesKey] := by
  decide +kernel

theorem registered_reachable : (encryptableRuns rsaSite codedSqlite).Reachable
    (registeredForKey, [.registrationDone oneClientId]) := by
  have h₀ : (encryptableRuns rsaSite codedSqlite).Reachable (storedServer, []) :=
    ⟨(storedServer, []), [], ⟨init_storedRsa, rfl⟩, .nil _⟩
  have hname : (Body.registration ['a']).Fits := ⟨by decide, by decide⟩
  have hzero : (List.replicate 16 0 : Bytes).length = General.clientIdSize := rfl
  have hfresh : (sameDraws 1).uuid ∉ storedServer.ids := by decide
  have h₁ := answers_served h₀ hfresh hzero hname nofun
    (encryptable_of_none hzero hname fun _ _ _ h => nomatch h)
  rw [answered_exchange.1] at h₁
  exact h₁

theorem away_of_encryptable {site : Site} {q : Sqlite} {s : Server} {answers : List Message}
    (h : (encryptableRuns site q).Reachable (s, answers)) : (awayRuns site q).Reachable s := by
  have hanswers : (answerRuns site q).Reachable (s, answers) := h.of_guard
  refine (hanswers.through (I := fun _ => True) (f := Prod.fst) (g := id) ?_ ?_).2
  · intro p e r _ hstep
    exact ⟨trivial, hstep.1⟩
  · intro p hinit
    exact ⟨trivial, hinit.1⟩

theorem exchanged_reachable :
    (encryptableRuns rsaSite codedSqlite).Reachable (exchangedServer, exchangedAnswers) := by
  have hkey := fits_publicKey length_rsaPublicKey
  have hid : oneClientId.length = General.clientIdSize := rfl
  have hcan : Encryptable rsaSite (registeredForKey, [Message.registrationDone oneClientId]).1
      (.delivered rsaDraws oneClientId (.publicKey ['a'] (.done rsaPublicKey))) := by
    refine encryptable_of_none hid hkey fun a key code _ hoffer => ?_
    rw [hoffer.key_eq rfl, encryptedKey_rsa]
    exact Option.some_ne_none _
  obtain ⟨-, hfresh, hanswer, -⟩ := answered_exchange
  have h₂ := answers_served registered_reachable hfresh hid hkey nofun hcan
  rw [hanswer] at h₂
  exact h₂

theorem stored_key_was_sent_exchanged :
    (encryptableRuns rsaSite codedSqlite).Reachable (exchangedServer, exchangedAnswers) ∧
    exchangedServer.clientsList.map (·.aesKey) = [rsaDraws.aesKey] ∧
    ∀ c ∈ exchangedServer.clientsList,
      KeySent rsaSite exchangedAnswers c.clientId c.toClientRow.account :=
  ⟨exchanged_reachable, answered_exchange.2.2.2,
    (stored_key_was_sent rsaSite codedSqlite (exchangedServer, exchangedAnswers)
      exchanged_reachable).1⟩

/-- After an 826 with a malformed key the server holds an AES key that it never sent. -/
theorem stored_key_not_sent : ∃ p, (answerRuns bareSite codedSqlite).Reachable p ∧
    ∃ c ∈ p.1.clientsList, ¬ KeySent bareSite p.2 c.clientId c.toClientRow.account := by
  have h₀ : ((answerRuns bareSite codedSqlite).guard fun _ _ => True).Reachable
      (storedServer, []) :=
    ⟨(storedServer, []), [], ⟨init_storedServer _, rfl⟩, .nil _⟩
  have hname : (Body.registration ['a']).Fits := ⟨by decide, by decide⟩
  have hkey : (Body.publicKey ['a'] (.done (List.replicate 160 0))).Fits := fits_publicKey rfl
  have hzero : (List.replicate 16 0 : Bytes).length = General.clientIdSize := rfl
  have hid : oneClientId.length = General.clientIdSize := rfl
  have hfresh₀ : (sameDraws 1).uuid ∉ storedServer.ids := by decide
  have h₁ := answers_served h₀ hfresh₀ hzero hname nofun trivial
  obtain ⟨hfresh, hmem⟩ : (sameDraws 2).uuid ∉ storedClient.ids ∧
      (⟨⟨oneClientId, ['a'], List.replicate 160 0, 0, List.replicate 32 2⟩, []⟩ : Client) ∈
        (storedClient.after (bareSite.storing codedSqlite) (.delivered (sameDraws 2)
          oneClientId (.publicKey ['a'] (.done (List.replicate 160 0))))).clientsList := by
    decide +kernel
  have h₂ := answers_served h₁ hfresh hid hkey nofun trivial
  refine ⟨_, System.Reachable.of_guard h₂, _, hmem, ?_⟩
  intro hsent
  obtain hempty | ⟨code, k, seed, encrypted, himport, -⟩ := hsent
  · cases hempty
  · cases himport

end SecureTransfer
