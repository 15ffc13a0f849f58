import SecureTransfer.Service.Accounts
import SecureTransfer.Service.Registry

/-!
The name, the id and the keys of a client over runs in which no request carries its id and
no packet reaches the database.
-/

open Octets (Text)
open Runs (System)

namespace SecureTransfer

section
variable {site : Site} {s t : Server} {e : Event} {id : Bytes}

/-- A request that carries another id leaves the account. -/
theorem Exchange.foreign {draws : Draws} {clientId : Bytes} {body : Body} {accounts : Accounts}
    {reply : Reply} (h : Exchange site draws s clientId body accounts reply)
    (hfresh : draws.uuid ∉ s.ids) (hne : id ≠ clientId) {a : Account}
    (ha : s.accounts id = some a) : accounts id = some a := by
  cases h with
  | kept _ _ => exact ha
  | registered _ _ _ =>
      obtain ⟨c, hc, -⟩ := Option.map_eq_some_iff.mp ha
      obtain ⟨hmem, rfl⟩ := Server.client?_eq_some hc
      have hid : c.clientId ≠ draws.uuid := by
        intro he
        exact hfresh (he ▸ List.mem_map_of_mem hmem)
      rw [Function.update_of_ne hid]
      exact ha
  | rekeyed _ _ =>
      rw [Function.update_of_ne hne]
      exact ha

theorem step_foreign (hs : WellFormed s) (hstep : (serverRuns site).step s e t)
    (hforeign : ∀ body, ¬ e.Asks id body) {a : Account} (ha : s.accounts id = some a) :
    t.accounts id = some a := by
  obtain ⟨draws, c, clientId, body, rfl, hr, hexchange⟩ | ⟨-, ht⟩ := step_accounts hs hstep
  · have hne : id ≠ clientId := by
      rintro rfl
      exact hforeign body hr
    exact hexchange.foreign hstep.1 hne ha
  · rw [ht]
    exact ha

theorem run_foreign {es : List Event} (hs : WellFormed s) (hrun : (serverRuns site).Run s es t)
    (hforeign : ∀ e ∈ es, ∀ body, ¬ e.Asks id body) {a : Account}
    (ha : s.accounts id = some a) : t.accounts id = some a := by
  induction hrun with
  | nil s => exact ha
  | cons head _ ih =>
      exact ih (step_wellFormed hs head) (fun e he => hforeign e (List.mem_cons_of_mem _ he))
        (step_foreign hs head (hforeign _ List.mem_cons_self) ha)

/-! Requests that name a client. -/

/-- An 827 or 826 that carries another id than the client it names changes nothing. -/
theorem serve_named_foreign {draws : Draws} {c : Client} (hs : WellFormed s)
    (hc : c ∈ s.clientsList) (hne : id ≠ c.clientId) {body : Body}
    (hbody : body = .reconnection c.clientName ∨ ∃ key, body = .publicKey c.clientName key) :
    (serve site draws s id body).1 = s := by
  have hnamed : s.named? c.clientName = some c :=
    Keyed.find?_of_mem (fun x : Client => x.clientName) hs.namesDistinct hc
  rcases hbody with rfl | ⟨key, rfl⟩
  · simp only [serve, serveReconnection, hnamed, if_pos hne]
  · simp only [serve, servePublicKey, hnamed, if_pos hne]

theorem serve_registered {draws : Draws} {c : Client} (hs : WellFormed s)
    (hc : c ∈ s.clientsList) :
    (serve site draws s id (.registration c.clientName)).1 = s.seen draws c.clientId := by
  have hnamed : s.named? c.clientName = some c :=
    Keyed.find?_of_mem (fun x : Client => x.clientName) hs.namesDistinct hc
  simp only [serve, serveRegistration, hnamed]

/-- The one entry of a client in memory, and in table clients. -/
theorem identity_of_accounts (hs : WellFormed s) {c : Client} {t : Server} (ht : WellFormed t)
    (hc : c ∈ s.clientsList) (h : t.accounts c.clientId = s.accounts c.clientId) :
    (t.clientsList.filter (·.clientId = c.clientId)).map (fun c => c.toClientRow.identity) =
        [c.toClientRow.identity] ∧
      (t.db.clients.filter (·.clientId = c.clientId)).map ClientRow.identity =
        [c.toClientRow.identity] := by
  have haccount : t.accounts c.clientId = some c.toClientRow.account := by
    rw [h]
    exact hs.accounts_iff.mpr ⟨c, hc, rfl, rfl⟩
  obtain ⟨c', hc', hid, haccount⟩ := ht.accounts_iff.mp haccount
  have hidentity : c'.toClientRow.identity = c.toClientRow.identity := by
    simp only [ClientRow.account, Account.mk.injEq] at haccount
    simp only [ClientRow.identity, hid, haccount]
  constructor
  · rw [← hid, Keyed.filter_of_mem (fun x : Client => x.clientId) ht.idsDistinct hc',
      List.map_singleton, hidentity]
  · have hrow : c'.toClientRow ∈ t.db.clients := by
      rw [ht.rows]
      exact List.mem_map_of_mem hc'
    have hrows : (t.db.clients.map (·.clientId)).Nodup := by
      rw [ht.rowIds]
      exact ht.idsDistinct
    rw [← hid]
    exact (congrArg (List.map ClientRow.identity)
      (Keyed.filter_of_mem (fun r : ClientRow => r.clientId) hrows hrow)).trans
        (congrArg (fun i => [i]) hidentity)

end

/-- The identity of a client with the tables apart. -/
theorem identity_apart (site : Site) (s : Server) (hs : Reachable site s) (A : Client)
    (hA : A ∈ s.clientsList) :
    (∀ es t, (serverRuns site).Run s es t → (∀ e ∈ es, ∀ body, ¬ e.Asks A.clientId body) →
      (t.clientsList.filter (·.clientId = A.clientId)).map (fun c => c.toClientRow.identity) =
          [A.toClientRow.identity] ∧
        (t.db.clients.filter (·.clientId = A.clientId)).map ClientRow.identity =
          [A.toClientRow.identity]) ∧
    ∀ draws c t id body, (serverRuns site).step s (.callback draws c) t →
      (receive c).incoming = .request id body →
      (id ≠ A.clientId → (body = .reconnection A.clientName ∨
        ∃ key, body = .publicKey A.clientName key) → t = s) ∧
      (body = .registration A.clientName → t = s.seen draws A.clientId) := by
  have hw := hs.wellFormed
  constructor
  · intro es t hrun hforeign
    have hreach : Reachable site t := System.Reachable.run hs hrun
    have haccount := hw.accounts_iff.mpr ⟨A, hA, rfl, rfl⟩
    refine identity_of_accounts hw hreach.wellFormed hA ?_
    rw [run_foreign hw hrun hforeign haccount, haccount]
  · rintro draws c t id body ⟨hfresh, hstep⟩ hr
    rw [step_callback site draws c hw hfresh, Reception.next, hr] at hstep
    obtain rfl := Option.some.inj hstep
    refine ⟨fun hne hbody => serve_named_foreign hw hA hne hbody, ?_⟩
    rintro rfl
    exact serve_registered hw hA

/-- Whatever others request, and however often the server is restarted, a client keeps its
one entry with its id, name and keys, in memory and in table clients, which the database file
holds. An 827 or 826 that names it with another id changes nothing, an 825 with its name the
last-seen date. No packet has a path to the working directory. -/
theorem identity_kept (site : Site) (q : Sqlite) (s : Server)
    (hs : (awayRuns site q).Reachable s) (A : Client) (hA : A ∈ s.clientsList) :
    (∀ es t, (awayRuns site q).Run s es t → (∀ e ∈ es, ∀ body, ¬ e.Asks A.clientId body) →
      (t.clientsList.filter (·.clientId = A.clientId)).map (fun c => c.toClientRow.identity) =
          [A.toClientRow.identity] ∧
        (t.db.clients.filter (·.clientId = A.clientId)).map ClientRow.identity =
          [A.toClientRow.identity] ∧
        (site.storing q).stored q t.disk = some t.db) ∧
    ∀ draws c t id body, (storedRuns site q).step s (.callback draws c) t →
      (receive c).incoming = .request id body →
      (id ≠ A.clientId → (body = .reconnection A.clientName ∨
        ∃ key, body = .publicKey A.clientName key) → t.aside site = s.aside site) ∧
      (body = .registration A.clientName →
        t.aside site = (s.seen draws A.clientId).aside site) := by
  obtain ⟨haside, hreach⟩ := awayReachable_aside hs
  obtain ⟨hruns, hsteps⟩ := identity_apart site _ hreach A hA
  constructor
  · intro es t hrun hforeign
    obtain ⟨⟨hstored, -⟩, hrun⟩ := awayRun_aside haside hrun
    obtain ⟨hrecords, hrows⟩ := hruns es _ hrun hforeign
    exact ⟨hrecords, hrows, hstored.found⟩
  · intro draws c t id body hstep hr
    have hnone : (∀ p, body ≠ .packet p) →
        (serverRuns site).step (s.aside site) (.callback draws c) (t.aside site) := by
      intro hbody
      exact (awayStep_aside haside ⟨hstep, away_of_incoming hr hbody⟩).2
    constructor
    · intro hne hbody
      refine (hsteps draws c _ id body (hnone ?_) hr).1 hne hbody
      obtain rfl | ⟨key, rfl⟩ := hbody <;> exact nofun
    · intro hbody
      subst hbody
      exact (hsteps draws c _ id _ (hnone nofun) hr).2 rfl

theorem identity_kept_oneClient : ∃ t, dataBaseHandle (bareSite.storing codedSqlite) storedClient =
      some t ∧
    (t.clientsList.filter (·.clientId = oneClientId)).map (fun c => c.toClientRow.identity) =
      [(oneClientId, ['a'], [], [])] := by
  obtain ⟨hstart, hmem⟩ :
      (dataBaseHandle (bareSite.storing codedSqlite) storedClient).isSome = true ∧
        (⟨⟨oneClientId, ['a'], [], 0, []⟩, []⟩ : Client) ∈ storedClient.clientsList := by
    decide +kernel
  obtain ⟨t, ht⟩ := Option.isSome_iff_exists.mp hstart
  have hrun : (awayRuns bareSite codedSqlite).Run storedClient [.restart] t :=
    .cons ⟨⟨trivial, ht⟩, fun _ _ h => h.elim⟩ (.nil t)
  refine ⟨t, ht, ((identity_kept bareSite codedSqlite storedClient away_storedClient _ hmem).1
    _ t hrun ?_).1⟩
  intro e he body hasks
  obtain rfl := List.mem_singleton.mp he
  exact hasks

/-- Client `b` overwrites the database, and after a restart nothing is left of `a`. -/
theorem identity_overwritten : ∃ s A es t, (storedRuns bareSite codedSqlite).Reachable s ∧
    A ∈ s.clientsList ∧ (storedRuns bareSite codedSqlite).Run s es t ∧
    (∀ e ∈ es, ∀ body, ¬ e.Asks A.clientId body) ∧
    t.clientsList = [] ∧ t.db.clients = [] := by
  obtain ⟨hfirst, hsecond, hmem, hrestarted⟩ : (sameDraws 2).uuid ∉ storedClient.ids ∧
      (sameDraws 3).uuid ∉ storedClients.ids ∧
      (⟨⟨oneClientId, ['a'], [], 0, []⟩, []⟩ : Client) ∈ storedClients.clientsList ∧
      (dataBaseHandle (bareSite.storing codedSqlite)
        (storedClients.overwritten bareSite secondClientId)).map
          (fun t => (t.clientsList, t.db.clients)) = some ([], []) := by
    decide +kernel
  have hreach : (storedRuns bareSite codedSqlite).Reachable storedClients :=
    stored_served away_storedClient.of_guard hfirst
  obtain ⟨t, ht, hempty⟩ := Option.map_eq_some_iff.mp hrestarted
  obtain ⟨hclients, hrows⟩ := Prod.mk.inj hempty
  have hrun : (storedRuns bareSite codedSqlite).Run storedClients
      [overwriting secondClientId, .restart] t :=
    .cons (step_after hsecond) (.cons ⟨trivial, ht⟩ (.nil t))
  refine ⟨storedClients, ⟨⟨oneClientId, ['a'], [], 0, []⟩, []⟩, _, t, hreach, hmem, hrun, ?_,
    hclients, hrows⟩
  intro e he body hasks
  obtain rfl | he := List.mem_cons.mp he
  · exact absurd (asks_overwriting (by decide) hasks) (by decide)
  · obtain rfl := List.mem_singleton.mp he
    exact hasks

end SecureTransfer
