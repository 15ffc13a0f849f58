import SecureTransfer.Service.Replies
import SecureTransfer.Service.Stored

/-!
The registry of clients, kept in memory and in table clients. The two copies agree as
long as no packet reaches the database, a restart rebuilds the one from the other, and a
refused registration touches dates alone.
-/

open Octets (Text)
open Effects Act

namespace SecureTransfer

/-- What the registry holds about a client, but for the last-seen date. -/
def ClientRow.identity (r : ClientRow) : Bytes × Text × Bytes × Bytes :=
  (r.clientId, r.clientName, r.publicKey, r.aesKey)

theorem Server.undated_seen (s : Server) (draws : Draws) (clientId : Bytes) :
    (s.seen draws clientId).clientsList.map Client.undated = s.clientsList.map Client.undated ∧
      (s.seen draws clientId).db.clients.map ClientRow.undated =
        s.db.clients.map ClientRow.undated := by
  constructor
  · simp only [Server.seen, Server.updateRow, List.map_map]
    apply List.map_congr_left
    intro c _
    simp only [Function.comp_apply]
    split <;> rfl
  · simp only [Server.seen, Server.updateRow, Tables.updateClients, List.map_map]
    apply List.map_congr_left
    intro r _
    simp only [Function.comp_apply]
    split <;> rfl

/-- A registration that is not accepted changes dates alone. -/
theorem serveRegistration_rejected {site : Site} {draws : Draws} {s : Server} {name : Text}
    (h : (serveRegistration site draws s name).2 = .rejected) :
    (serveRegistration site draws s name).1.clientsList.map Client.undated =
        s.clientsList.map Client.undated ∧
      (serveRegistration site draws s name).1.db.clients.map ClientRow.undated =
        s.db.clients.map ClientRow.undated := by
  unfold serveRegistration at h ⊢
  split at h
  · exact s.undated_seen draws _
  · split at h
    · exact ⟨rfl, rfl⟩
    · cases h

theorem registrationFailed_not_mem (body : Body) :
    General.registrationFailed1601 ∉ body.codes := by
  cases body <;> simp only [Body.codes] <;> decide

theorem serveRegistration_read {site : Site} {draws : Draws} {s : Server} {name : Text} :
    (serveRegistration site draws s name).2 ≠ .rejectedUnread := by
  unfold serveRegistration
  split
  · simp
  · split <;> simp

/-- Only a registration that is not accepted is answered with 1601. -/
theorem next_of_1601 {site : Site} {draws : Draws} {s : Server} {r : Reception}
    {m : Message} (h : r.message site draws s = some m)
    (hcode : m.header.code = General.registrationFailed1601) :
    (r.next site draws s).clientsList.map Client.undated = s.clientsList.map Client.undated ∧
      (r.next site draws s).db.clients.map ClientRow.undated =
        s.db.clients.map ClientRow.undated := by
  obtain ⟨incoming, unread, conn⟩ := r
  cases incoming with
  | ended | waits => cases h
  | malformed registration => exact ⟨rfl, rfl⟩
  | request clientId body =>
      rcases message_code h with ⟨-, hmem⟩ | ⟨rfl, hreply⟩
      · rw [hcode] at hmem
        exact absurd hmem (registrationFailed_not_mem body)
      · cases body with
        | registration name =>
            rcases hreply with hreply | hreply
            · exact serveRegistration_rejected hreply
            · exact absurd hreply serveRegistration_read
        | reconnection _ | publicKey _ _ | packet _ | verdict _ _ => cases hcode

/-- The registry with the tables apart. -/
theorem registry_apart (site : Site) (s : Server) (hs : Reachable site s) :
    s.names.Nodup ∧ s.ids.Nodup ∧
      s.db.clients.map ClientRow.identity =
        s.clientsList.map (fun c => c.toClientRow.identity) ∧
      (∃ t, dataBaseHandle site s = some t ∧
        t.clientsList.map (fun c => c.toClientRow.identity) =
          s.clientsList.map (fun c => c.toClientRow.identity)) ∧
      ∀ (draws : Draws) (c : Conn), draws.uuid ∉ s.ids → c.sendsLeft = none →
        ((read site draws).run (calm s c)).2.conn.answers =
          c.answers ++ [⟨General.registrationFailed1601, 0⟩] →
        ((read site draws).run (calm s c)).2.server.clientsList.map Client.undated =
            s.clientsList.map Client.undated ∧
          ((read site draws).run (calm s c)).2.server.db.clients.map ClientRow.undated =
            s.db.clients.map ClientRow.undated := by
  have hw := hs.wellFormed
  refine ⟨hw.namesDistinct, hw.idsDistinct, ?_, ?_, ?_⟩
  · rw [hw.rows, List.map_map]
    rfl
  · obtain ⟨t, ht⟩ := restart_some hw hs.housed
    refine ⟨t, ht, ?_⟩
    have hdb := (dataBaseHandle_some ht).db
    rw [if_pos hw.hasTables] at hdb
    have hrows := ((dataBaseHandle_some ht).wellFormed hw).rows
    rw [hdb, hw.rows] at hrows
    have := congrArg (List.map ClientRow.identity) hrows
    rw [List.map_map, List.map_map] at this
    exact this.symm
  · intro draws c hfresh hc hanswers
    rw [read_calm site draws c hw hfresh] at hanswers ⊢
    have htold := (finish_told site draws s hc).1
    simp only [calm] at hanswers
    rw [htold, List.append_cancel_left_eq] at hanswers
    cases hm : (receive c).message site draws s with
    | none => simp [hm] at hanswers
    | some m =>
        simp only [hm, Option.map_some, Option.toList_some, List.cons.injEq, and_true] at hanswers
        exact next_of_1601 hm (by rw [hanswers])

/-- The registry in every run without packets for the working directory: names and ids are
distinct, table clients, as the database file holds it, has the rows of the client list, a
restart rebuilds it, and a request that is answered with 1601 changes last-seen dates alone. -/
theorem registry_agrees (site : Site) (q : Sqlite) (s : Server)
    (hs : (awayRuns site q).Reachable s) :
    s.names.Nodup ∧ s.ids.Nodup ∧ (site.storing q).stored q s.disk = some s.db ∧
      s.db.clients.map ClientRow.identity =
        s.clientsList.map (fun c => c.toClientRow.identity) ∧
      (∃ t, dataBaseHandle (site.storing q) s = some t ∧
        t.clientsList.map (fun c => c.toClientRow.identity) =
          s.clientsList.map (fun c => c.toClientRow.identity)) ∧
      ∀ (draws : Draws) (c : Conn), draws.uuid ∉ s.ids → c.sendsLeft = none → c.Away site s →
        ((read (site.storing q) draws).run (calm s c)).2.conn.answers =
          c.answers ++ [⟨General.registrationFailed1601, 0⟩] →
        ((read (site.storing q) draws).run (calm s c)).2.server.clientsList.map Client.undated =
            s.clientsList.map Client.undated ∧
          ((read (site.storing q) draws).run (calm s c)).2.server.db.clients.map
              ClientRow.undated =
            s.db.clients.map ClientRow.undated := by
  obtain ⟨⟨hstored, hw⟩, hreach⟩ := awayReachable_aside hs
  obtain ⟨hnames, hids, hrows, ⟨t, ht, hrebuilt⟩, hrefused⟩ := registry_apart site _ hreach
  refine ⟨hnames, hids, hstored.found, hrows, ?_, ?_⟩
  · rw [(restart_aside hstored hw).1, Option.map_eq_some_iff] at ht
    obtain ⟨t', ht', rfl⟩ := ht
    exact ⟨t', ht', hrebuilt⟩
  · intro draws c hfresh hc haway hanswers
    obtain ⟨hrun, -⟩ := read_aside hstored draws haway []
    have hafter := hrefused draws c hfresh hc
    rw [calm, hrun] at hafter
    exact hafter hanswers

theorem registry_agrees_oneClient :
    storedClient.clientsList.map (fun c => c.toClientRow.identity) =
        [(List.replicate 16 1, ['a'], [], [])] ∧
      (bareSite.storing codedSqlite).stored codedSqlite storedClient.disk = some storedClient.db ∧
      ∃ t, dataBaseHandle (bareSite.storing codedSqlite) storedClient = some t ∧
        t.clientsList.map (fun c => c.toClientRow.identity) =
          storedClient.clientsList.map (fun c => c.toClientRow.identity) :=
  have h := registry_agrees bareSite codedSqlite storedClient away_storedClient
  ⟨by decide +kernel, h.2.2.1, h.2.2.2.2.1⟩

/-- After one packet with a path to the database no row is left of the client, and a restart
serves nobody. -/
theorem registry_overwritten : ∃ s, (storedRuns bareSite codedSqlite).Reachable s ∧
    (bareSite.storing codedSqlite).stored codedSqlite s.disk = some s.db ∧
    s.clientsList.map (·.clientName) = [['a']] ∧ s.db.clients = [] ∧
    ∃ t, dataBaseHandle (bareSite.storing codedSqlite) s = some t ∧ t.clientsList = [] := by
  obtain ⟨hfresh, hstored, hnames, hrows, hrestarted⟩ : (sameDraws 3).uuid ∉ storedClient.ids ∧
      (bareSite.storing codedSqlite).stored codedSqlite
        (storedClient.overwritten bareSite oneClientId).disk =
          some (storedClient.overwritten bareSite oneClientId).db ∧
      (storedClient.overwritten bareSite oneClientId).clientsList.map (·.clientName) = [['a']] ∧
      (storedClient.overwritten bareSite oneClientId).db.clients = [] ∧
      (dataBaseHandle (bareSite.storing codedSqlite)
        (storedClient.overwritten bareSite oneClientId)).map (·.clientsList) = some [] := by
    decide +kernel
  have hreach : (storedRuns bareSite codedSqlite).Reachable
      (storedClient.overwritten bareSite oneClientId) :=
    stored_served away_storedClient.of_guard hfresh
  exact ⟨_, hreach, hstored, hnames, hrows, Option.map_eq_some_iff.mp hrestarted⟩

end SecureTransfer
