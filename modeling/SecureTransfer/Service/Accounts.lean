import SecureTransfer.Service.Books
import SecureTransfer.Service.Replies

/-!
Names and keys of the clients as one map from ids, and what each request does to it and
answers.
-/

open Octets (Text)
open Effects Act
open Runs (System)

namespace SecureTransfer

structure Account where
  clientName : Text
  publicKey : Bytes
  aesKey : Bytes
deriving DecidableEq, Repr

def ClientRow.account (r : ClientRow) : Account := ⟨r.clientName, r.publicKey, r.aesKey⟩

abbrev Accounts := Bytes → Option Account

def Server.accounts (s : Server) : Accounts :=
  fun id => (s.client? id).map fun c => c.toClientRow.account

section
variable {s : Server} {id : Bytes}

theorem WellFormed.accounts_iff (hs : WellFormed s) {a : Account} : s.accounts id = some a ↔
    ∃ c ∈ s.clientsList, c.clientId = id ∧ c.toClientRow.account = a := by
  rw [Server.accounts, Option.map_eq_some_iff]
  constructor
  · rintro ⟨c, hc, ha⟩
    obtain ⟨hmem, hid⟩ := Server.client?_eq_some hc
    exact ⟨c, hmem, hid, ha⟩
  · rintro ⟨c, hc, rfl, ha⟩
    exact ⟨c, Server.client?_of_mem hs.idsDistinct hc, ha⟩

/-- Table clients holds the same accounts. -/
theorem WellFormed.accounts_iff_row (hs : WellFormed s) {a : Account} : s.accounts id = some a ↔
    ∃ row ∈ s.db.clients, row.clientId = id ∧ row.account = a := by
  rw [hs.accounts_iff, hs.rows]
  constructor
  · rintro ⟨c, hc, h⟩
    exact ⟨c.toClientRow, List.mem_map_of_mem hc, h⟩
  · rintro ⟨row, hrow, h⟩
    obtain ⟨c, hc, rfl⟩ := List.mem_map.mp hrow
    exact ⟨c, hc, h⟩

theorem WellFormed.accounts_named (hs : WellFormed s) {name : Text} {c : Client}
    (h : s.named? name = some c) :
    s.accounts c.clientId = some c.toClientRow.account ∧ c.clientName = name := by
  obtain ⟨hc, hname⟩ := Server.named?_eq_some h
  exact ⟨hs.accounts_iff.mpr ⟨c, hc, rfl, rfl⟩, hname⟩

/-! The updates of the service, on the accounts. -/

theorem accounts_updateRow {f : ClientRow → ClientRow} (hf : ∀ r, (f r).clientId = r.clientId)
    (g : Account → Account) (hg : ∀ r, (f r).account = g r.account) (clientId : Bytes) :
    (s.updateRow clientId f).accounts =
      fun i => if i = clientId then (s.accounts i).map g else s.accounts i := by
  funext i
  rw [Server.accounts, client?_updateRow hf, Option.map_map, Server.accounts, Option.map_map]
  cases hc : s.client? i with
  | none => simp
  | some c =>
      obtain ⟨-, rfl⟩ := Server.client?_eq_some hc
      simp only [Option.map_some, Function.comp_apply]
      split
      · exact congrArg some (hg _)
      · rfl

theorem accounts_updateFiles {f : List File → List File} (clientId : Bytes) :
    (s.updateFiles clientId f).accounts = s.accounts := by
  funext i
  rw [Server.accounts, client?_updateFiles, Option.map_map]
  cases hc : s.client? i with
  | none => simp [Server.accounts, hc]
  | some c =>
      simp only [Option.map_some, Function.comp_apply, Server.accounts, hc]
      split <;> rfl

theorem accounts_seen (draws : Draws) (clientId : Bytes) :
    (s.seen draws clientId).accounts = s.accounts := by
  refine (accounts_updateRow (f := fun r => { r with lastSeenDate := draws.now }) (fun _ => rfl) id
    (fun _ => rfl) clientId).trans ?_
  funext i
  simp

theorem accounts_withPublicKey (clientId key : Bytes) :
    (s.withPublicKey clientId key).accounts = fun i => if i = clientId then
      (s.accounts i).map fun a => { a with publicKey := key } else s.accounts i :=
  accounts_updateRow (f := fun r => { r with publicKey := key }) (fun _ => rfl) _ (fun _ => rfl)
    clientId

theorem accounts_withAesKey (clientId key : Bytes) :
    (s.withAesKey clientId key).accounts = fun i => if i = clientId then
      (s.accounts i).map fun a => { a with aesKey := key } else s.accounts i :=
  accounts_updateRow (f := fun r => { r with aesKey := key }) (fun _ => rfl) _ (fun _ => rfl)
    clientId

theorem accounts_flagFile (clientId : Bytes) (fileName : Text) (flag : Bool) :
    (s.flagFile clientId fileName flag).accounts = s.accounts :=
  accounts_updateFiles (f := List.map fun f =>
    if f.fileName = fileName then { f with validCrc := flag } else f) clientId

theorem accounts_addFile (file : File) : (s.addFile file).accounts = s.accounts :=
  accounts_updateFiles (f := (· ++ [file])) file.clientId

theorem accounts_dropFile (clientId : Bytes) (fileName : Text) :
    (s.dropFile clientId fileName).accounts = s.accounts := accounts_updateFiles clientId

theorem accounts_addClient {c : Client} (hid : c.clientId ∉ s.ids) :
    (s.addClient c).accounts = Function.update s.accounts c.clientId c.toClientRow.account := by
  funext i
  simp only [Server.accounts, Server.client?, Server.addClient, List.find?_append]
  by_cases hi : i = c.clientId
  · subst hi
    rw [Keyed.find?_of_notMem (fun c : Client => c.clientId) hid]
    simp
  · rw [Function.update_of_ne hi, Server.accounts]
    simp [Ne.symm hi, Server.client?]

end

/-! What a request does to the accounts. -/

/-- A request that asks for a new AES key under this public key. -/
inductive Offers (site : Site) (a : Account) : Body → Bytes → Nat → Prop where
  | publicKey {key : Bytes} :
      Offers site a (.publicKey a.clientName (.done key)) key General.gotPublicSendAes1602
  | reconnection {k : site.PublicKey} (himport : site.importKey a.publicKey = some k) :
      Offers site a (.reconnection a.clientName) a.publicKey General.validReconnectionAes1605

def IsKeyCode (code : Nat) : Prop :=
  code = General.gotPublicSendAes1602 ∨ code = General.validReconnectionAes1605

instance (code : Nat) : Decidable (IsKeyCode code) := inferInstanceAs (Decidable (_ ∨ _))

theorem Offers.isKeyCode {site : Site} {a : Account} {body : Body} {key : Bytes} {code : Nat}
    (h : Offers site a body key code) : IsKeyCode code := by
  cases h with
  | publicKey => exact .inl rfl
  | reconnection _ => exact .inr rfl

theorem Offers.key_eq {site : Site} {a : Account} {body : Body} {key key' : Bytes} {code : Nat}
    {name : Text} (h : Offers site a body key code)
    (hbody : body = .publicKey name (.done key')) : key = key' := by
  cases h with
  | publicKey =>
      cases hbody
      rfl
  | reconnection _ => cases hbody

/-- The AES key, encrypted under a public key. -/
def encryptedKey (site : Site) (draws : Draws) (key : Bytes) : Option Bytes :=
  (site.importKey key).bind (site.oaepEncrypt · draws.seed draws.aesKey)

inductive Exchange (site : Site) (draws : Draws) (s : Server) (id : Bytes) (body : Body) :
    Accounts → Reply → Prop where
  | kept {reply : Reply}
      (hno : ∀ a key code, s.accounts id = some a → ¬ Offers site a body key code)
      (hreply : ∀ m, reply = .answer m → ¬ IsKeyCode m.header.code) :
      Exchange site draws s id body s.accounts reply
  | registered {name : Text} (hbody : body = .registration name) (hname : name ∉ s.names)
      (hfresh : draws.uuid ∉ s.ids) :
      Exchange site draws s id body (Function.update s.accounts draws.uuid (some ⟨name, [], []⟩))
        (.answer (.registrationDone draws.uuid))
  | rekeyed {a : Account} {key : Bytes} {code : Nat} (haccount : s.accounts id = some a)
      (hoffer : Offers site a body key code) :
      Exchange site draws s id body
        (Function.update s.accounts id (some ⟨a.clientName, key, draws.aesKey⟩))
        (match encryptedKey site draws key with
          | some encrypted => .answer (.aesKey code id encrypted)
          | none => .rejected)

section
variable {site : Site} {draws : Draws} {s : Server} {id : Bytes}

/-- A request about a file changes no account. -/
theorem Update.accounts {body : Body} {t u : Server} (hbody : body.fileName? ≠ none)
    (h : Update site draws id body t u) : u.accounts = t.accounts := by
  cases h with
  | seen => exact accounts_seen draws _
  | publicKey hkey => exact absurd (congrArg Body.fileName? hkey) hbody
  | aesKey hnone => exact absurd hnone hbody
  | write _ _ _ _ => rfl
  | flag _ _ _ _ => exact accounts_flagFile _ _ _
  | record _ _ _ _ _ => exact accounts_addFile _
  | @discard c file disk _ _ _ _ _ _ =>
      exact accounts_dropFile (s := { t with disk := disk, db := t.db.deleteFile file.fileName })
        id file.fileName
  | register hregister _ _ _ => exact absurd (congrArg Body.fileName? hregister) hbody

/-- Such a request is not answered with a key. -/
theorem exchange_file (hs : WellFormed s) (hfresh : draws.uuid ∉ s.ids) {body : Body}
    (hbody : body.fileName? ≠ none) : Exchange site draws s id body
      (serve site draws s id body).1.accounts (serve site draws s id body).2 := by
  have haccounts : (serve site draws s id body).1.accounts = s.accounts :=
    (serve_updates site draws hs hfresh id body).invariant (I := fun t => t.accounts = s.accounts)
      (fun _ _ ht hupd => (hupd.accounts hbody).trans ht) rfl
  rw [haccounts]
  refine .kept ?_ ?_
  · intro a key code _ hoffer
    cases hoffer <;> exact hbody rfl
  · intro m hm hkey
    have hmem := (serve_answer hm).1
    cases body with
    | registration | reconnection | publicKey => exact hbody rfl
    | packet | verdict =>
        rw [Body.codes, List.mem_singleton] at hmem
        rcases hkey with h | h <;> exact absurd (hmem.symm.trans h) (by decide)

/-- The client named in a request is the one whose id it carries. -/
theorem WellFormed.offers_iff (hs : WellFormed s) {name : Text} {c : Client}
    (hc : s.named? name = some c) {a : Account} (ha : s.accounts id = some a) :
    a.clientName = name → id = c.clientId ∧ a = c.toClientRow.account := by
  rintro rfl
  obtain ⟨c', hc', rfl, rfl⟩ := hs.accounts_iff.mp ha
  obtain ⟨hmem, hname⟩ := Server.named?_eq_some hc
  obtain rfl := Keyed.eq_of_key_eq (fun x : Client => x.clientName) hs.namesDistinct hc' hmem
    hname.symm
  exact ⟨rfl, rfl⟩

theorem accounts_names {name : Text} (hnone : s.named? name = none) {a : Account}
    (ha : s.accounts id = some a) : a.clientName ≠ name := by
  obtain ⟨c, hc, rfl⟩ := Option.map_eq_some_iff.mp ha
  rintro rfl
  exact named?_none hnone (List.mem_map_of_mem (Server.client?_eq_some hc).1)

theorem exchange_registration (hfresh : draws.uuid ∉ s.ids) (name : Text) :
    Exchange site draws s id (.registration name) (serveRegistration site draws s name).1.accounts
      (serveRegistration site draws s name).2 := by
  rw [serveRegistration]
  split
  · rw [accounts_seen]
    exact .kept (fun _ _ _ _ h => by cases h) fun _ h => by cases h
  · rename_i hnone
    split
    · exact .kept (fun _ _ _ _ h => by cases h) fun _ h => by cases h
    · rename_i disk _
      have haccounts := accounts_addClient (s := { s with disk := disk })
        (c := newClient draws name) hfresh
      simp only
      change Exchange site draws s id _
        (({ s with disk := disk } : Server).addClient (newClient draws name)).accounts _
      rw [haccounts]
      exact .registered rfl (named?_none hnone) hfresh

/-- A new AES key for a client whose account is known. -/
theorem exchange_newKey {body : Body} {a : Account} (haccount : s.accounts id = some a)
    {key : Bytes} {code : Nat} (hoffer : Offers site a body key code) {t : Server}
    (ht : t.accounts = Function.update s.accounts id (some { a with publicKey := key })) :
    Exchange site draws s id body (sendNewAesKey site draws t code id key).1.accounts
      (sendNewAesKey site draws t code id key).2 := by
  have haccounts : (t.withAesKey id draws.aesKey).accounts =
      Function.update s.accounts id (some ⟨a.clientName, key, draws.aesKey⟩) := by
    rw [accounts_withAesKey, ht]
    funext i
    by_cases hi : i = id
    · subst hi
      simp
    · simp [hi]
  have hexchange := @Exchange.rekeyed site draws s id body a key code haccount hoffer
  have hencrypted : (site.importKey key).bind (site.oaepEncrypt · draws.seed draws.aesKey) =
      encryptedKey site draws key := rfl
  simp only [sendNewAesKey, hencrypted]
  cases hencrypt : encryptedKey site draws key with
  | none =>
      simp only [hencrypt] at hexchange
      simp only [haccounts]
      exact hexchange
  | some encrypted =>
      simp only [hencrypt] at hexchange
      simp only [haccounts]
      exact hexchange

theorem exchange_reconnection (hs : WellFormed s) (name : Text) :
    Exchange site draws s id (.reconnection name)
      (serveReconnection site draws s id name).1.accounts
      (serveReconnection site draws s id name).2 := by
  have hfailed : ∀ m, Reply.answer (.reconnectionFailed id) = .answer m →
      ¬ IsKeyCode m.header.code := by
    intro m hm h
    obtain rfl := Reply.answer.inj hm
    rcases h with h | h <;> cases h
  rw [serveReconnection]
  split
  · rename_i hnone
    refine .kept ?_ hfailed
    intro a key code ha hoffer
    cases hoffer with
    | reconnection _ => exact accounts_names hnone ha rfl
  · rename_i c hc
    obtain ⟨haccount, hname⟩ := hs.accounts_named hc
    split
    · rename_i hne
      refine .kept ?_ fun _ h => by cases h
      intro a key code ha hoffer
      cases hoffer with
      | reconnection _ => exact hne (hs.offers_iff hc ha rfl).1
    · rename_i hid
      obtain rfl := not_not.mp hid
      simp only
      split
      · rename_i hkey
        rw [accounts_seen]
        refine .kept ?_ hfailed
        intro a key code ha hoffer
        cases hoffer with
        | reconnection himport =>
            obtain ⟨-, rfl⟩ := hs.offers_iff hc ha rfl
            rw [ClientRow.account, hkey] at himport
            cases himport
      · rename_i k hkey
        have hoffer : Offers site c.toClientRow.account (.reconnection name) c.publicKey
            General.validReconnectionAes1605 := hname ▸ .reconnection hkey
        refine exchange_newKey haccount hoffer ?_
        rw [accounts_seen]
        exact (Function.update_eq_self_iff.mpr haccount.symm).symm

theorem exchange_publicKey (hs : WellFormed s) (name : Text) (key : Outcome PyError Bytes) :
    Exchange site draws s id (.publicKey name key)
      (servePublicKey site draws s id name key).1.accounts
      (servePublicKey site draws s id name key).2 := by
  simp only [servePublicKey]
  split
  · rename_i hnone
    refine .kept ?_ fun _ h => by cases h
    intro a key code ha hoffer
    cases hoffer with
    | publicKey => exact accounts_names hnone ha rfl
  · rename_i c hc
    obtain ⟨haccount, hname⟩ := hs.accounts_named hc
    split
    · rename_i hne
      refine .kept ?_ fun _ h => by cases h
      intro a key code ha hoffer
      cases hoffer with
      | publicKey => exact hne (hs.offers_iff hc ha rfl).1
    · rename_i hid
      obtain rfl := not_not.mp hid
      split
      · exact .kept (fun _ _ _ _ h => by cases h) fun _ h => by cases h
      · exact .kept (fun _ _ _ _ h => by cases h) fun _ h => by cases h
      · rename_i key
        have hoffer : Offers site c.toClientRow.account (.publicKey name (.done key)) key
            General.gotPublicSendAes1602 := hname ▸ .publicKey
        refine exchange_newKey haccount hoffer ?_
        rw [accounts_seen, accounts_withPublicKey]
        funext i
        by_cases hi : i = c.clientId
        · subst hi
          simp [haccount]
        · simp [hi]

theorem serve_accounts (hs : WellFormed s) (hfresh : draws.uuid ∉ s.ids) (id : Bytes)
    (body : Body) : Exchange site draws s id body (serve site draws s id body).1.accounts
      (serve site draws s id body).2 := by
  cases body with
  | registration name => exact exchange_registration hfresh name
  | reconnection name => exact exchange_reconnection hs name
  | publicKey name key => exact exchange_publicKey hs name key
  | packet p => exact exchange_file hs hfresh (by simp [Body.fileName?])
  | verdict code fileName => exact exchange_file hs hfresh (by simp [Body.fileName?])

end

theorem Restarted.accounts {site : Site} {s t : Server} (hs : WellFormed s)
    (h : Restarted site s t) : t.accounts = s.accounts := by
  have hdb : t.db = s.db := by rw [h.db, if_pos hs.hasTables]
  funext i
  apply Option.ext
  intro a
  rw [(h.wellFormed hs).accounts_iff_row, hs.accounts_iff_row, hdb]

/-- The accounts over a step of a run. -/
theorem step_accounts {site : Site} {s t : Server} {e : Event} (hs : WellFormed s)
    (h : (serverRuns site).step s e t) :
    (∃ draws c id body, e = .callback draws c ∧ (receive c).incoming = .request id body ∧
      Exchange site draws s id body t.accounts (serve site draws s id body).2) ∨
    ((∀ id body, ¬ e.Asks id body) ∧ t.accounts = s.accounts) := by
  refine step_invariant (I := fun t => (∃ draws c id body, e = .callback draws c ∧
    (receive c).incoming = .request id body ∧
      Exchange site draws s id body t.accounts (serve site draws s id body).2) ∨
    ((∀ id body, ¬ e.Asks id body) ∧ t.accounts = s.accounts)) hs h ?_ ?_
  · rintro draws c rfl hfresh
    rw [Reception.next]
    split
    · rename_i id body hr
      exact .inl ⟨draws, c, id, body, rfl, hr, serve_accounts hs hfresh id body⟩
    · rename_i hr
      exact .inr ⟨hr, rfl⟩
  · rintro rfl t ht
    exact .inr ⟨fun _ _ h => h, ht.accounts hs⟩

end SecureTransfer
