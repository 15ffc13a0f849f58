import SecureTransfer.Service.Replies
import SecureTransfer.Service.Stored

/-!
The registration after a refused reconnection. An 827 is refused with 1606 for an unknown
name and for a stored key that cannot be imported; the client then registers under its
name, and the server accepts that in the first case alone.
-/

open Octets (Text)
open FileTree (Proper)
open Effects Act

namespace SecureTransfer

section
variable {site : Site} {draws : Draws} {s : Server}

/-- The folder of a client with a proper name is there or can be made. -/
theorem ensureDir_client (hh : Housed site s) {name : Text} (hproper : Proper name) :
    ∃ disk, ensureDir site (clientFolder name) s.disk = some disk := by
  have hne := clientFolder_rdropWhile name
  have hlocate : s.disk.locate site.cwd (clientFolder name) = some (site.home name) :=
    FileTree.locate_two proper_folder hproper (hh.rooted _ (List.prefix_refl _)) hh.folder
  exact ensureDir_of_creatable hne ⟨_, (FileTree.creatable_iff hne _).mp hlocate⟩

/-- A registration succeeds exactly for a new name. -/
theorem serveRegistration_reply (hh : Housed site s) {name : Text} (hproper : Proper name) :
    (serveRegistration site draws s name).2 =
      if name ∈ s.names then .rejected else .answer (.registrationDone draws.uuid) := by
  rw [serveRegistration]
  cases hname : s.named? name with
  | none =>
      obtain ⟨disk, hdisk⟩ := ensureDir_client hh hproper
      rw [if_neg (named?_none hname)]
      simp only [hdisk]
  | some c =>
      obtain ⟨hc, rfl⟩ := Server.named?_eq_some hname
      have hmem : c.clientName ∈ s.names := List.mem_map_of_mem hc
      rw [if_pos hmem]

/-- A new AES key is answered as the stored public key encrypts it. -/
theorem sendNewAesKey_encrypted {code : Nat} {clientId publicKey : Bytes} {m : Message}
    (h : (sendNewAesKey site draws s code clientId publicKey).2 = .answer m) :
    ∃ key encrypted, site.importKey publicKey = some key ∧
      site.oaepEncrypt key draws.seed draws.aesKey = some encrypted ∧
      m = .aesKey code clientId encrypted := by
  rw [sendNewAesKey] at h
  split at h
  · cases h
  · rename_i encrypted hsome
    obtain ⟨key, hkey, hencrypt⟩ := Option.bind_eq_some_iff.mp hsome
    exact ⟨key, encrypted, hkey, hencrypt, (Reply.answer.inj h).symm⟩

/-- What a 1606 means for a registered name. -/
theorem serveReconnection_refused {clientId : Bytes} {name : Text} {m : Message}
    (h : (serveReconnection site draws s clientId name).2 = .answer m)
    (hcode : m.header.code = General.reconnectionFailed1606) (hname : name ∈ s.names) :
    ∃ c ∈ s.clientsList, c.clientName = name ∧ c.clientId = clientId ∧
      site.importKey c.publicKey = none := by
  rw [serveReconnection] at h
  split at h
  · rename_i hnone
    exact absurd hname (named?_none hnone)
  · rename_i c hfound
    obtain ⟨hc, hcname⟩ := Server.named?_eq_some hfound
    split at h
    · cases h
    · rename_i hid
      simp only at h
      split at h
      · rename_i hkey
        exact ⟨c, hc, hcname, (not_not.mp hid).symm, hkey⟩
      · obtain ⟨key, encrypted, -, -, rfl⟩ := sendNewAesKey_encrypted h
        cases hcode

/-- An 827 registers nobody. -/
theorem serveReconnection_names (hs : WellFormed s) (hh : Housed site s)
    (hfresh : draws.uuid ∉ s.ids) (clientId : Bytes) (name : Text) :
    (serve site draws s clientId (.reconnection name)).1.names = s.names ∧
      Housed site (serve site draws s clientId (.reconnection name)).1 := by
  refine (serve_updates site draws hs hfresh clientId (.reconnection name)).invariant
    (I := fun t => t.names = s.names ∧ Housed site t) ?_ ⟨rfl, hh⟩
  rintro t u ⟨hnames, hht⟩ hupd
  refine ⟨?_, hupd.housed hht⟩
  rcases hupd.names with h | ⟨name, hbody, -⟩
  · exact h.trans hnames
  · cases hbody

end

/-- The registration after a refusal with the tables apart. -/
theorem registration_apart (site : Site) (s : Server) (hs : Reachable site s)
    (draws : Draws) (hfresh : draws.uuid ∉ s.ids) (c : Conn) (hc : c.sendsLeft = none)
    (clientId : Bytes) (name : Text) (hproper : Proper name)
    (hrequest : (receive c).incoming = .request clientId (.reconnection name))
    (hrefused : ((read site draws).run (calm s c)).2.conn.answers =
      c.answers ++ [⟨General.reconnectionFailed1606, General.clientIdSize⟩])
    (draws' : Draws) (hfresh' : draws'.uuid ∉ ((read site draws).run (calm s c)).2.server.ids)
    (c' : Conn) (hc' : c'.sendsLeft = none) (clientId' : Bytes)
    (hrequest' : (receive c').incoming = .request clientId' (.registration name)) :
    (((read site draws').run
        (calm ((read site draws).run (calm s c)).2.server c')).2.conn.answers =
          c'.answers ++ [⟨General.registrationDone1600, General.clientIdSize⟩] ↔
        name ∉ s.names) ∧
      (name ∈ s.names →
        ((read site draws').run
          (calm ((read site draws).run (calm s c)).2.server c')).2.conn.answers =
            c'.answers ++ [⟨General.registrationFailed1601, 0⟩] ∧
        ∃ client ∈ s.clientsList, client.clientName = name ∧ client.clientId = clientId ∧
          site.importKey client.publicKey = none) := by
  have hw := hs.wellFormed
  have hserver : ((read site draws).run (calm s c)).2.server =
      (serve site draws s clientId (.reconnection name)).1 := by
    rw [read_server site draws hw hfresh, Reception.next, hrequest]
  rw [hserver] at hfresh' ⊢
  obtain ⟨hnames, hhoused⟩ := serveReconnection_names hw hs.housed hfresh clientId name
  have hwt := serve_wellFormed site draws hw hfresh clientId (.reconnection name)
  generalize
    (serve site draws s clientId (.reconnection name)).1 = t at hfresh' hnames hhoused hwt ⊢
  have hmessage : (receive c').message site draws' t = some (if name ∈ s.names
      then failureMessage true else .registrationDone draws'.uuid) := by
    simp only [Reception.message, hrequest', serve, serveRegistration_reply hhoused hproper, hnames]
    by_cases hname : name ∈ s.names
    · simp only [hname, if_true]
      rfl
    · simp only [hname, if_false]
  rw [read_answers site draws' hwt hfresh' hc', hmessage]
  constructor
  · by_cases hname : name ∈ s.names
    · simp [hname, failureMessage]
    · simp [hname, Message.registrationDone]
  · intro hname
    refine ⟨by rw [if_pos hname]; rfl, ?_⟩
    obtain ⟨m, hm, hheader⟩ := (read_answers_iff site draws hw hfresh hc).mp hrefused
    generalize receive c = r at hrequest hm
    obtain ⟨incoming, unread, conn⟩ := r
    obtain rfl : incoming = _ := hrequest
    rcases message_code hm with ⟨hreply, -⟩ | ⟨rfl, -⟩
    · exact serveReconnection_refused hreply (by rw [hheader]) hname
    · cases hheader

/-- After an 827 that is answered 1606, in a run without packets for the working directory, an
825 with the same name and nothing in between is answered 1600 exactly if no client is
registered under the name. Otherwise it is answered 1601: that client is the one that asked,
and its stored key is malformed. -/
theorem registration_after_refusal_iff (site : Site) (q : Sqlite) (s : Server)
    (hs : (awayRuns site q).Reachable s)
    (draws : Draws) (hfresh : draws.uuid ∉ s.ids) (c : Conn) (hc : c.sendsLeft = none)
    (clientId : Bytes) (name : Text) (hproper : Proper name)
    (hrequest : (receive c).incoming = .request clientId (.reconnection name))
    (hrefused : ((read (site.storing q) draws).run (calm s c)).2.conn.answers =
      c.answers ++ [⟨General.reconnectionFailed1606, General.clientIdSize⟩])
    (draws' : Draws)
    (hfresh' : draws'.uuid ∉ ((read (site.storing q) draws).run (calm s c)).2.server.ids)
    (c' : Conn) (hc' : c'.sendsLeft = none) (clientId' : Bytes)
    (hrequest' : (receive c').incoming = .request clientId' (.registration name)) :
    (((read (site.storing q) draws').run
        (calm ((read (site.storing q) draws).run (calm s c)).2.server c')).2.conn.answers =
          c'.answers ++ [⟨General.registrationDone1600, General.clientIdSize⟩] ↔
        name ∉ s.names) ∧
      (name ∈ s.names →
        ((read (site.storing q) draws').run
          (calm ((read (site.storing q) draws).run (calm s c)).2.server c')).2.conn.answers =
            c'.answers ++ [⟨General.registrationFailed1601, 0⟩] ∧
        ∃ client ∈ s.clientsList, client.clientName = name ∧ client.clientId = clientId ∧
          site.importKey client.publicKey = none) := by
  obtain ⟨⟨hstored, -⟩, hreach⟩ := awayReachable_aside hs
  obtain ⟨hfirst, hafter⟩ := read_aside hstored draws (away_of_incoming hrequest nofun) []
  obtain ⟨hsecond, -⟩ := read_aside hafter draws' (away_of_incoming hrequest' nofun) []
  rw [← calm] at hfirst hafter hsecond
  have hregistered := registration_apart site (s.aside site) hreach draws hfresh c hc clientId name
    hproper hrequest (by rw [hfirst]; exact hrefused) draws' (by rw [hfirst]; exact hfresh') c' hc'
    clientId' hrequest'
  rw [hfirst] at hregistered
  rw [World.aside, hsecond] at hregistered
  exact hregistered

/-! A client `a` that asks to reconnect before it has registered, and one that registered
and never sent a key. -/

def reconnectionConn : Conn :=
  Conn.accepted.withAvail (requestBytes oneClientId (.reconnection ['a']) ++ [])

def registrationConn : Conn :=
  Conn.accepted.withAvail (requestBytes (List.replicate 16 0) (.registration ['a']) ++ [])

theorem fits_a : NameFits General.clientNameSize ['a'] := ⟨by decide, by decide⟩

theorem receive_reconnectionConn :
    (receive reconnectionConn).incoming = .request oneClientId (.reconnection ['a']) :=
  congrArg Reception.incoming (@receive_request _ (.reconnection ['a']) rfl fits_a [] .accepted)

theorem receive_registrationConn :
    (receive registrationConn).incoming = .request (List.replicate 16 0) (.registration ['a']) :=
  congrArg Reception.incoming (@receive_request _ (.registration ['a']) rfl fits_a [] .accepted)

theorem registration_after_refusal_unknown :
    ((read (bareSite.storing codedSqlite) (sameDraws 2)).run
      (calm ((read (bareSite.storing codedSqlite) (sameDraws 2)).run
        (calm storedServer reconnectionConn)).2.server registrationConn)).2.conn.answers =
      [⟨General.registrationDone1600, General.clientIdSize⟩] := by
  obtain ⟨hrefused, hfresh⟩ : ((read (bareSite.storing codedSqlite) (sameDraws 2)).run
      (calm storedServer reconnectionConn)).2.conn.answers =
        reconnectionConn.answers ++ [⟨General.reconnectionFailed1606, General.clientIdSize⟩] ∧
      (sameDraws 2).uuid ∉ ((read (bareSite.storing codedSqlite) (sameDraws 2)).run
        (calm storedServer reconnectionConn)).2.server.ids := by
    decide +kernel
  exact (registration_after_refusal_iff bareSite codedSqlite storedServer away_storedServer
    (sameDraws 2) (by decide) reconnectionConn rfl oneClientId ['a'] (by decide)
    receive_reconnectionConn hrefused (sameDraws 2) hfresh registrationConn rfl
    (List.replicate 16 0) receive_registrationConn).1.mpr (by decide)

/-- A client with an unusable key is refused, and then so is its registration. -/
theorem registration_after_refusal_fails : (awayRuns bareSite codedSqlite).Reachable storedClient ∧
    ((read (bareSite.storing codedSqlite) (sameDraws 2)).run
      (calm storedClient reconnectionConn)).2.conn.answers =
        [⟨General.reconnectionFailed1606, General.clientIdSize⟩] ∧
    ((read (bareSite.storing codedSqlite) (sameDraws 2)).run
      (calm ((read (bareSite.storing codedSqlite) (sameDraws 2)).run
        (calm storedClient reconnectionConn)).2.server registrationConn)).2.conn.answers =
      [⟨General.registrationFailed1601, 0⟩] :=
  ⟨away_storedClient, by decide +kernel⟩

end SecureTransfer
