import SecureTransfer.Service.Estate

/-!
Two runs of the server, of which the second one lacks the requests of one client. Requests of
others do not reach what belongs to a client, except that `delete_file` deletes the rows of
every client with a file name.
-/

open Octets (Text toLittle)
open FileTree (Proper)
open Effects Act
open Runs (System)

namespace SecureTransfer

/-- The id in the header of a request, as far as it was sent. -/
def Event.idSent : Event → Option Bytes
  | .callback _ c =>
      match (Conn.recv General.clientIdSize).run c with
      | (.done clientId, _) => some clientId
      | _ => none
  | .restart => none

abbrev Event.Carries (id : Bytes) (e : Event) : Prop := e.idSent = some id

/-- The client has an unverified record of the file. -/
def Server.Accepts (s : Server) (id : Bytes) (fileName : Text) : Prop :=
  ∃ c ∈ s.clientsList, c.clientId = id ∧
    ∃ f ∈ c.filesList, f.fileName = fileName ∧ f.validCrc = false

/-- No 902 of another client is accepted for a file of which this one has a row. -/
def Spares (id : Bytes) (s : Server) (e : Event) : Prop :=
  ∀ other fileName, e.Asks other (.verdict General.invalidCrc4thRequest902 fileName) →
    other ≠ id → s.Accepts other fileName →
      ∀ row ∈ s.db.files, row.clientId = id → row.fileName ≠ fileName

/-- Every record of the client has a row. -/
def Server.Tabled (s : Server) (id : Bytes) : Prop :=
  ∀ n f, s.books.record id n = some f → ∃ row, s.books.row id n = some row

/-- The connection after a request that carries an id, with all that was sent on it. -/
def hears (site : Site) (id : Bytes) (s : Server) : Event → List Conn
  | .callback draws c =>
      if Event.Carries id (.callback draws c) then [((read site draws).run (calm s c)).2.conn]
      else []
  | .restart => []

def heard (site : Site) (id : Bytes) : Server → List Event → List Conn
  | _, [] => []
  | s, e :: es =>
      hears site id s e ++
        match step site s e with
        | none => []
        | some t => heard site id t es

/-- Both servers spare the client, and a name it asks for is on both registers or on none. -/
def Apart (skipped id : Bytes) (p : Server × Server) (e : Event) : Prop :=
  Spares id p.1 e ∧ (¬ e.Carries skipped → Spares id p.2 e) ∧
    ∀ name, e.Asks id (.registration name) ∨ e.Asks id (.reconnection name) →
      (name ∈ p.1.names ↔ name ∈ p.2.names)

section
variable {site : Site} {s t : Server} {id : Bytes} {e : Event} {x : Estate}

/-! The header of a request that is received. -/

theorem ofRead_request {α : Type} {clientId id : Bytes} {registration : Bool} {f : α → Body}
    {body : Body} {r : Outcome PyError α × Conn}
    (h : (Reception.ofRead clientId registration f r).incoming = .request id body) :
    id = clientId := by
  obtain ⟨o, c⟩ := r
  cases o with
  | done a => exact (Incoming.request.inj h).1.symm
  | raised e => cases h
  | blocked => cases h

theorem ofHeader_request {r : Request} {c : Conn} {body : Body}
    (h : (Reception.ofHeader r c).incoming = .request id body) : id = r.clientId := by
  rw [Reception.ofHeader] at h
  repeat' split at h
  · cases h
  · exact ofRead_request h
  · exact ofRead_request h
  · rcases hm : (recvText General.clientNameSize).run c with ⟨o, c'⟩
    rw [hm] at h
    cases o with
    | done name => exact (Incoming.request.inj h).1.symm
    | raised e => cases h
    | blocked => cases h
  · exact ofRead_request h
  · exact ofRead_request h
  · cases h

theorem Event.Asks.carries {body : Body} (h : e.Asks id body) : e.Carries id := by
  cases e with
  | restart => exact h.elim
  | callback draws c =>
      simp only [Event.Asks, receive] at h
      split at h
      · cases h
      · rename_i r c' hheader
        obtain ⟨clientId, c₁, hrecv, hrest⟩ := bind_eq_done hheader
        have hsent : Event.Carries clientId (.callback draws c) := by
          simp only [Event.Carries, Event.idSent, hrecv]
        split at hrest
        · cases hrest
        · obtain ⟨version, c₂, -, hrest⟩ := bind_eq_done hrest
          obtain ⟨code, c₃, -, hrest⟩ := bind_eq_done hrest
          obtain ⟨payloadSize, c₄, -, hrest⟩ := bind_eq_done hrest
          cases hrest
          rw [ofHeader_request h]
          exact hsent
      · cases h
      · cases h

/-- A request is carried by the id it is received with. -/
theorem Event.Asks.eq_of_carries {other : Bytes} {body : Body} (h : e.Asks other body)
    (hid : e.Carries id) : other = id := Option.some.inj (h.carries.symm.trans hid)

/-! The rows of a client that is spared. -/

theorem step_tabled (hs : WellFormed s) (h : s.Tabled id) (hspares : Spares id s e)
    (hstep : (serverRuns site).step s e t) : t.Tabled id := by
  obtain ⟨other, body, hasks, hbooked⟩ | ⟨-, hsame | ⟨-, hrestored⟩⟩ := step_books hs hstep
  · intro n f hf
    generalize t.books = books at hbooked hf ⊢
    cases hbooked with
    | same _ => exact h n f hf
    | @flagged fileName flag hflag =>
        have hold : ∃ f, s.books.record id n = some f := by
          simp only [Books.flag] at hf
          split at hf
          · obtain ⟨f, hf, -⟩ := Option.map_eq_some_iff.mp hf
            exact ⟨f, hf⟩
          · exact ⟨f, hf⟩
        obtain ⟨f, hf⟩ := hold
        obtain ⟨row, hrow⟩ := h n f hf
        simp only [Books.flag, hrow]
        split
        · exact ⟨_, rfl⟩
        · exact ⟨_, rfl⟩
    | @recorded c p _ _ _ _ _ =>
        simp only [Books.add] at hf ⊢
        split at hf
        · rename_i hkey
          exact ⟨_, if_pos hkey⟩
        · rename_i hkey
          simp only [if_neg hkey]
          exact h n f hf
    | @discarded fileName file hbody hrecord hcrc =>
        subst hbody
        simp only [Books.discard] at hf ⊢
        split at hf
        · cases hf
        · rename_i hkey
          obtain ⟨row, hrow⟩ := h n f hf
          by_cases hn : n = fileName
          · -- the row would be one that is not spared
            subst hn
            have hother : other ≠ id := fun he => hkey ⟨he.symm, rfl⟩
            obtain ⟨c, hc, hcid, hmem, hname⟩ := hs.record_iff.mp hrecord
            obtain ⟨hrowmem, hrowid, hrowname⟩ := hs.row_iff.mp hrow
            exact absurd hrowname (hspares other n hasks hother
              ⟨c, hc, hcid, file, hmem, hname, hcrc⟩ row hrowmem hrowid)
          · exact ⟨row, (if_neg hn).trans hrow⟩
  · rw [Server.Tabled, hsame]
    exact h
  · rw [Server.Tabled, hrestored]
    exact fun n f hf => ⟨f, hf⟩

theorem kept_of_tabled (hs : WellFormed s) (h : s.Tabled id) (hx : s.estate site id = some x) :
    x.Kept := by
  obtain ⟨c, hc, rfl⟩ := estate_eq_some.mp hx
  obtain ⟨hmem, hid⟩ := Server.client?_eq_some hc
  intro f hf
  obtain ⟨row, hrow⟩ := h _ f (hs.record_iff.mpr ⟨c, hmem, hid, hf, rfl⟩)
  obtain ⟨hrow, hrowid, hname⟩ := hs.row_iff.mp hrow
  exact ⟨row, List.mem_filter.mpr ⟨hrow, by simpa using hrowid⟩, hname⟩

/-! The step of one server. -/

theorem serveVerdict_ignored {draws : Draws} {other : Bytes} {code : Nat} {fileName : Text}
    (h : ¬ s.Accepts other fileName) :
    (serveVerdict site draws s other code fileName).1 = s ∨
      (serveVerdict site draws s other code fileName).1 = s.seen draws other := by
  rw [serveVerdict]
  split
  · exact .inl rfl
  · rename_i c hc
    obtain ⟨hmem, hid⟩ := Server.client?_eq_some hc
    right
    split
    · rfl
    · rename_i file hfile
      obtain ⟨hfile, hname⟩ := find?_fileName_some hfile
      split
      · rfl
      · rename_i hcrc
        exact absurd ⟨c, hmem, hid, file, hfile, hname, by simpa using hcrc⟩ h

/-- The rows of a client are left alone unless a 902 deletes them by their name. -/
theorem Update.rows {draws : Draws} {other : Bytes} {body : Body}
    (h : Update site draws other body s t) (hne : other ≠ id)
    (hspared : ∀ fileName, body = .verdict General.invalidCrc4thRequest902 fileName →
      ∀ row ∈ s.db.files.filter (·.clientId = id), row.fileName ≠ fileName) :
    t.db.files.filter (·.clientId = id) = s.db.files.filter (·.clientId = id) := by
  cases h with
  | seen => rfl
  | publicKey _ => rfl
  | aesKey _ => rfl
  | write _ _ _ _ => rfl
  | @flag c file flag _ _ _ _ =>
      change ((s.db.setValidCrc other flag).files.filter _) = _
      rw [Tables.setValidCrc, List.filter_map]
      have hkeep : ((fun r : File => decide (r.clientId = id)) ∘ fun r =>
          if r.clientId = other then { r with validCrc := flag } else r) =
            fun r => decide (r.clientId = id) := by
        funext r
        simp only [Function.comp_apply]
        split <;> rfl
      rw [hkeep]
      refine (List.map_congr_left ?_).trans (List.map_id _)
      intro r hr
      have hid : r.clientId = id := by simpa using (List.mem_filter.mp hr).2
      rw [if_neg fun he => hne (he.symm.trans hid)]
      rfl
  | @record c p _ hid _ _ _ =>
      have hforeign : decide (c.clientId = id) = false := by
        rw [hid]
        simpa using hne
      change (s.db.files ++ [_]).filter _ = _
      rw [List.filter_append]
      simp [hforeign]
  | @discard c file disk _ _ _ hbody _ _ =>
      change (s.db.files.filter _).filter _ = _
      rw [List.filter_comm, List.filter_eq_self]
      intro row hrow
      simpa using hspared file.fileName hbody row hrow
  | register _ _ _ _ => rfl

theorem serve_rows {draws : Draws} (hs : WellFormed s) (hfresh : draws.uuid ∉ s.ids)
    {other : Bytes} {body : Body} (hne : other ≠ id)
    (hspared : ∀ fileName, body = .verdict General.invalidCrc4thRequest902 fileName →
      s.Accepts other fileName → ∀ row ∈ s.db.files, row.clientId = id →
        row.fileName ≠ fileName) :
    (serve site draws s other body).1.db.files.filter (·.clientId = id) =
      s.db.files.filter (·.clientId = id) := by
  by_cases hignored : ∃ fileName, body = .verdict General.invalidCrc4thRequest902 fileName ∧
      ¬ s.Accepts other fileName
  · obtain ⟨fileName, rfl, hnot⟩ := hignored
    rw [serve]
    obtain hsame | hseen := @serveVerdict_ignored site s draws other _ _ hnot
    · rw [hsame]
    · rw [hseen]
      rfl
  · have hrows : ∀ fileName, body = .verdict General.invalidCrc4thRequest902 fileName →
        ∀ row ∈ s.db.files.filter (·.clientId = id), row.fileName ≠ fileName := by
      intro fileName hbody row hrow
      obtain ⟨hmem, hid⟩ := List.mem_filter.mp hrow
      have haccepts : s.Accepts other fileName :=
        Classical.not_not.mp fun hnot => hignored ⟨fileName, hbody, hnot⟩
      exact hspared fileName hbody haccepts row hmem (by simpa using hid)
    refine (serve_updates site draws hs hfresh other body).invariant
      (I := fun t => t.db.files.filter (·.clientId = id) =
        s.db.files.filter (·.clientId = id)) ?_ rfl
    intro t u ht hupd
    refine (hupd.rows hne ?_).trans ht
    rw [ht]
    exact hrows

theorem estate_of_holdings (hholdings : t.holdings site id = s.holdings site id)
    (hrows : t.db.files.filter (·.clientId = id) = s.db.files.filter (·.clientId = id)) :
    t.estate site id = s.estate site id := by
  have heq : ∀ u : Server, u.estate site id = (u.holdings site id).map fun h =>
      ⟨h.1, h.2, u.db.files.filter (·.clientId = id)⟩ := by
    intro u
    rw [Server.estate, Server.holdings, Option.map_map]
    rfl
  rw [heq, heq, hholdings, hrows]

/-- What becomes of an estate at an event. -/
def Estate.next (site : Site) (x : Estate) (names : List Text) : Event → Estate
  | .callback draws c =>
      match (receive c).incoming with
      | .request clientId body =>
          if clientId = x.client.clientId then (x.serve site draws names body).1 else x
      | _ => x
  | .restart => { x with client := { x.client with filesList := x.rows } }

theorem Restarted.estate (hs : WellFormed s) (ht : Restarted site s t)
    (hx : s.estate site id = some x) :
    t.estate site id = some { x with client := { x.client with filesList := x.rows } } := by
  obtain ⟨c, hc, rfl⟩ := estate_eq_some.mp hx
  have hdb : t.db = s.db := by rw [ht.db, if_pos hs.hasTables]
  have hlist : t.clientsList = s.clientsList.map fun c =>
      { c with filesList := s.db.files.filter (·.clientId = c.clientId) } := by
    rw [ht.clientsList, rebuilt, hdb, hs.rows, List.map_map]
    rfl
  have hclient : t.client? id =
      some { c with filesList := s.db.files.filter (·.clientId = c.clientId) } := by
    have hmap := Keyed.find?_map (fun c : Client => c.clientId) (g := fun c =>
      { c with filesList := s.db.files.filter (·.clientId = c.clientId) }) (fun _ => rfl)
      s.clientsList id
    rw [Server.client?, hlist, hmap]
    exact congrArg (Option.map _) hc
  rw [estate_of_client? hclient, hdb, ht.file, (Server.client?_eq_some hc).2]
  rfl

theorem step_estate (hs : WellFormed s) (hl : Layout site s) (htabled : s.Tabled id)
    (hspares : Spares id s e) (hplain : e.Plain) (hx : s.estate site id = some x)
    (hstep : (serverRuns site).step s e t) : t.estate site id = some (x.next site s.names e) := by
  have hkept := kept_of_tabled hs htabled hx
  obtain ⟨c, hc, hxc⟩ := estate_eq_some.mp hx
  obtain ⟨hmem, hid⟩ := Server.client?_eq_some hc
  have hxid : x.client.clientId = id := by
    rw [hxc]
    exact hid
  refine step_invariant
    (I := fun t => t.estate site id = some (x.next site s.names e)) hs hstep ?_ ?_
  · intro draws conn he hfresh
    subst he
    simp only [Estate.next, Reception.next, hxid]
    cases hincoming : (receive conn).incoming with
    | ended => exact hx
    | waits => exact hx
    | malformed registration => exact hx
    | request other body =>
        simp only
        have hbody := hplain other body hincoming
        by_cases hother : other = id
        · subst hother
          rw [if_pos rfl]
          exact (serve_estate draws hs hl hx hkept hbody).1
        · rw [if_neg hother]
          have hrows := @serve_rows site s id draws hs hfresh other body hother fun fileName hb =>
            hspares other fileName (hb ▸ hincoming) hother
          have hids : id ∈ s.ids := hid ▸ List.mem_map_of_mem hmem
          have hforeign : ∀ body', (receive conn).incoming ≠ .request id body' := by
            intro body' hr
            exact hother (Incoming.request.inj (hincoming.symm.trans hr)).1
          have hholdings := (next_holdings hs hl hfresh hplain hforeign hids).1
          rw [Reception.next, hincoming] at hholdings
          exact (estate_of_holdings hholdings hrows).trans hx
  · intro he t ht
    subst he
    exact ht.estate hs hx

theorem Estate.next_of_not_asks (hid : x.client.clientId = id) {names : List Text}
    (hasks : ∀ body, ¬ e.Asks id body) (hrestart : e ≠ .restart) : x.next site names e = x := by
  cases e with
  | restart => exact absurd rfl hrestart
  | callback draws c =>
      simp only [Estate.next]
      split
      · rename_i other body hincoming
        rw [if_neg]
        intro he
        exact hasks body (he.trans hid ▸ hincoming)
      · rfl

theorem Estate.next_names (hid : x.client.clientId = id) {names names' : List Text}
    (h : ∀ name, e.Asks id (.registration name) ∨ e.Asks id (.reconnection name) →
      (name ∈ names ↔ name ∈ names')) : x.next site names e = x.next site names' e := by
  cases e with
  | restart => rfl
  | callback draws c =>
      simp only [Estate.next]
      split
      · rename_i other body hincoming
        split
        · rename_i he
          refine congrArg Prod.fst (Estate.serve_names fun name hbody => h name ?_)
          have hasks : Event.Asks id body (.callback draws c) := he.trans hid ▸ hincoming
          obtain rfl | rfl := hbody
          · exact .inl hasks
          · exact .inr hasks
        · rfl
      · rfl

end

/-! Two runs. -/

/-- A server of a plain run, and what belongs to the client on it. -/
structure Settled (site : Site) (id : Bytes) (x : Estate) (s : Server) : Prop where
  wellFormed : WellFormed s
  layout : Layout site s
  tabled : s.Tabled id
  estate : s.estate site id = some x

section
variable {site : Site} {s s' t : Server} {id skipped : Bytes} {e : Event} {x : Estate}

theorem Settled.clientId (h : Settled site id x s) : x.client.clientId = id := by
  obtain ⟨c, hc, rfl⟩ := estate_eq_some.mp h.estate
  exact (Server.client?_eq_some hc).2

theorem Settled.step (h : Settled site id x s) (hspares : Spares id s e)
    (hstep : (plainRuns site).step s e t) : Settled site id (x.next site s.names e) t where
  wellFormed := step_wellFormed h.wellFormed hstep.1
  layout := step_layout h.wellFormed h.layout hstep.1 hstep.2
  tabled := step_tabled h.wellFormed h.tabled hspares hstep.1
  estate := step_estate h.wellFormed h.layout h.tabled hspares hstep.2 h.estate hstep.1

/-- A request of the client is answered by what belongs to it. -/
theorem hears_eq (h : Settled site id x s) (h' : Settled site id x s')
    (hstep : (plainRuns site).step s e t) {t' : Server} (hstep' : (plainRuns site).step s' e t')
    (hnames : ∀ name, e.Asks id (.registration name) ∨ e.Asks id (.reconnection name) →
      (name ∈ s.names ↔ name ∈ s'.names)) : hears site id s e = hears site id s' e := by
  cases e with
  | restart => rfl
  | callback draws c =>
      simp only [hears]
      by_cases hcarries : Event.Carries id (.callback draws c)
      · have hfresh : draws.uuid ∉ s.ids := hstep.1.1
        have hfresh' : draws.uuid ∉ s'.ids := hstep'.1.1
        rw [if_pos hcarries, if_pos hcarries, read_calm site draws c h.wellFormed hfresh,
          read_calm site draws c h'.wellFormed hfresh']
        have hfinish : (receive c).finish site draws s = (receive c).finish site draws s' := by
          simp only [Reception.finish]
          cases hincoming : (receive c).incoming with
          | ended => rfl
          | waits => rfl
          | malformed registration => rfl
          | request other body =>
              have hasks : Event.Asks other body (.callback draws c) := hincoming
              obtain rfl := hasks.eq_of_carries hcarries
              have hplain := hstep.2 other body hincoming
              have hserve := (serve_estate draws h.wellFormed h.layout h.estate
                (kept_of_tabled h.wellFormed h.tabled h.estate) hplain).2
              have hserve' := (serve_estate draws h'.wellFormed h'.layout h'.estate
                (kept_of_tabled h'.wellFormed h'.tabled h'.estate) hplain).2
              have hsame : x.serve site draws s.names body = x.serve site draws s'.names body := by
                refine Estate.serve_names fun name hbody => hnames name ?_
                obtain rfl | rfl := hbody
                · exact .inl hasks
                · exact .inr hasks
              simp only [hserve, hserve', hsame]
        simp only [hfinish, calm]
      · rw [if_neg hcarries, if_neg hcarries]

/-- A request of another client is not one of this client. -/
theorem hears_skipped (hne : skipped ≠ id) (hcarries : e.Carries skipped) :
    hears site id s e = [] := by
  cases e with
  | restart => rfl
  | callback draws c =>
      refine if_neg fun h => hne ?_
      exact Option.some.inj (hcarries.symm.trans h)

theorem settled_of_spared (hs : ((plainRuns site).guard (Spares id)).Reachable s)
    (hid : id ∈ s.ids) : ∃ x, Settled site id x s := by
  have hall : WellFormed s ∧ Layout site s ∧ s.Tabled id := by
    refine System.Reachable.invariant
      (I := fun s => WellFormed s ∧ Layout site s ∧ s.Tabled id) ?_ ?_ hs
    · intro s hinit
      obtain ⟨s₀, h₀, hstart⟩ := hinit
      refine ⟨start_wellFormed h₀ hstart, .start h₀ hstart, ?_⟩
      intro n f hf
      obtain ⟨c, hc, -⟩ := (start_wellFormed h₀ hstart).record_iff.mp hf
      rw [(start_some h₀ hstart).1] at hc
      cases hc
    · intro s e t h hstep
      obtain ⟨hw, hl, ht⟩ := h
      obtain ⟨⟨hstep, hplain⟩, hspares⟩ := hstep
      exact ⟨step_wellFormed hw hstep, step_layout hw hl hstep hplain,
        step_tabled hw ht hspares hstep⟩
  obtain ⟨hw, hl, ht⟩ := hall
  obtain ⟨c, hc, rfl⟩ := List.mem_map.mp hid
  exact ⟨_, hw, hl, ht, estate_of_client? (Server.client?_of_mem hw.idsDistinct hc)⟩

/-- Next to each other the two runs give the client the same estate and the same answers. -/
theorem settled_beside (hne : skipped ≠ id) {p q : Server × Server} {es : List Event}
    (hrun : (((plainRuns site).beside (Event.Carries skipped)).guard (Apart skipped id)).Run p es q)
    (h : Settled site id x p.1) (h' : Settled site id x p.2) :
    (∃ y, Settled site id y q.1 ∧ Settled site id y q.2) ∧
      heard site id p.1 es =
        heard site id p.2 (es.filter fun e => ¬ Event.Carries skipped e) := by
  induction hrun generalizing x with
  | nil p => exact ⟨⟨x, h, h'⟩, rfl⟩
  | @cons p p' q e es head _ ih =>
      obtain ⟨⟨hstep, hskip, hboth⟩, hspares, hspares', hnames⟩ := head
      have hnext := h.step hspares hstep
      by_cases he : e.Carries skipped
      · -- the second run stays where it is, and for the client so does the first
        have hasks : ∀ body, ¬ e.Asks id body := fun body hasks =>
          hne (Option.some.inj (he.symm.trans hasks.carries))
        have hrestart : e ≠ .restart := by
          intro hr
          subst hr
          cases he
        rw [Estate.next_of_not_asks h.clientId hasks hrestart] at hnext
        rw [← hskip he] at h' ⊢
        obtain ⟨hsettled, hheard⟩ := ih hnext h'
        refine ⟨hsettled, ?_⟩
        rw [List.filter_cons_of_neg (by simpa using he), ← hheard, heard, hears_skipped hne he,
          hstep.1.2]
        rfl
      · have hstep' := hboth he
        have hnext' := h'.step (hspares' he) hstep'
        rw [← Estate.next_names h.clientId hnames] at hnext'
        obtain ⟨hsettled, hheard⟩ := ih hnext hnext'
        refine ⟨hsettled, ?_⟩
        rw [List.filter_cons_of_pos (by simpa using he), heard, heard, hstep.1.2, hstep'.1.2,
          hears_eq h h' hstep hstep' hnames]
        simp only [hheard]

end

/-- Leaving out the requests that carry another id changes neither what belongs to a client nor
what it is answered, in runs in which no 902 of others deletes a row of the client. -/
theorem estate_apart (site : Site) (skipped id : Bytes) (hne : skipped ≠ id) (s : Server)
    (hs : ((plainRuns site).guard (Spares id)).Reachable s) (hid : id ∈ s.ids) (es : List Event)
    (t t' : Server) (hrun : (((plainRuns site).beside (Event.Carries skipped)).guard
      (Apart skipped id)).Run (s, s) es (t, t')) :
    (plainRuns site).Run s es t ∧
    (plainRuns site).Run s (es.filter fun e => ¬ Event.Carries skipped e) t' ∧
    t.estate site id = t'.estate site id ∧
    heard site id s es = heard site id s (es.filter fun e => ¬ Event.Carries skipped e) := by
  obtain ⟨x, h⟩ := settled_of_spared hs hid
  obtain ⟨⟨y, hy, hy'⟩, hheard⟩ := settled_beside hne hrun h h
  obtain ⟨hfirst, hsecond⟩ := hrun.of_guard.of_beside
  exact ⟨hfirst, hsecond, hy.estate.trans hy'.estate.symm, hheard⟩

/-! Runs of the clients `a` and `b`, who both have a file `f`. -/

def otherClientId : Bytes := List.replicate 16 2

def twoClients : Server :=
  (serve bareSite (sameDraws 2) oneClient (List.replicate 16 0) (.registration ['b'])).1

section
variable {site : Site} {draws : Draws} {s : Server} {clientId id : Bytes} {body : Body}

theorem idSent_delivered (hid : clientId.length = General.clientIdSize) :
    (Event.delivered draws clientId body).idSent = some clientId := by
  have hrecv := recv_of_length hid (toLittle General.versionSize General.version ++
    (toLittle General.codeSize body.code ++
      (toLittle General.payloadSizeSize body.payload.length ++ body.payload))) .accepted
  simp only [Event.delivered, Event.idSent, requestBytes, frame, List.append_assoc, List.append_nil]
  rw [hrecv]

theorem plain_delivered (hs : WellFormed s) (hfresh : draws.uuid ∉ s.ids)
    (hid : clientId.length = General.clientIdSize) (hfits : body.Fits) (hplain : body.Plain) :
    (plainRuns site).step s (.delivered draws clientId body)
      (serve site draws s clientId body).1 := by
  refine ⟨step_delivered hs hfresh hid hfits, fun id body' hasks => ?_⟩
  obtain ⟨rfl, rfl⟩ := asks_delivered hid hfits draws hasks
  exact hplain

/-- Requests other than a 902 spare everybody. -/
theorem spares_delivered (hid : clientId.length = General.clientIdSize) (hfits : body.Fits)
    (hbody : ∀ n, body ≠ .verdict General.invalidCrc4thRequest902 n) :
    Spares id s (.delivered draws clientId body) := by
  intro other n hasks
  obtain ⟨-, rfl⟩ := asks_delivered hid hfits draws hasks
  exact absurd rfl (hbody n)

theorem apart_packet {skipped : Bytes} {p : Server × Server} {q : Packet}
    (hid : clientId.length = General.clientIdSize) (hfits : (Body.packet q).Fits) :
    Apart skipped id p (.delivered draws clientId (.packet q)) := by
  have hspares : ∀ s, Spares id s (.delivered draws clientId (.packet q)) := fun s =>
    spares_delivered hid hfits fun _ h => nomatch h
  refine ⟨hspares _, fun _ => hspares _, fun name h => ?_⟩
  obtain h | h := h
  · cases (asks_delivered hid hfits draws h).2
  · cases (asks_delivered hid hfits draws h).2

end

theorem spared_twoClients :
    ((plainRuns bareSite).guard (Spares otherClientId)).Reachable twoClients := by
  have hregistration : ∀ name n : Text, Body.registration name ≠
      .verdict General.invalidCrc4thRequest902 n := fun _ _ h => nomatch h
  have ha : Proper ['a'] := by decide
  have hb : Proper ['b'] := by decide
  have h₀ : ((plainRuns bareSite).guard (Spares otherClientId)).Reachable startedServer :=
    ⟨startedServer, [], init_startedServer _, .nil _⟩
  have h₁ : ((plainRuns bareSite).guard (Spares otherClientId)).Reachable oneClient :=
    h₀.step ⟨plain_delivered reachable_startedServer.wellFormed (by decide) (by decide)
      ⟨by decide, by decide⟩ ha, spares_delivered (by decide) ⟨by decide, by decide⟩
        (hregistration _)⟩
  exact h₁.step ⟨plain_delivered reachable_oneClient.wellFormed (by decide) (by decide)
    ⟨by decide, by decide⟩ hb, spares_delivered (by decide) ⟨by decide, by decide⟩
      (hregistration _)⟩

/-- Packet 1 of `f` for `b`, and for `a`. -/
def uploadB : Event := .delivered (sameDraws 3) otherClientId (.packet (openingPacket ['f']))

def uploadA : Event := .delivered (sameDraws 3) oneClientId (.packet (openingPacket ['f']))

def startedB : Server :=
  (serve bareSite (sameDraws 3) twoClients otherClientId (.packet (openingPacket ['f']))).1

def startedBoth : Server :=
  (serve bareSite (sameDraws 3) startedB oneClientId (.packet (openingPacket ['f']))).1

/-- The last 902 of `a` for its file, and the server after it. -/
def discardA : Event :=
  .delivered (sameDraws 3) oneClientId (.verdict General.invalidCrc4thRequest902 ['f'])

def discardedA : Server :=
  (serve bareSite (sameDraws 3) startedBoth oneClientId
    (.verdict General.invalidCrc4thRequest902 ['f'])).1

theorem fits_openingF : (Body.packet (openingPacket ['f'])).Fits :=
  fits_openingPacket ⟨by decide, by decide⟩

theorem fits_discardF : (Body.verdict General.invalidCrc4thRequest902 ['f']).Fits :=
  ⟨⟨by decide, by decide⟩, .inr (.inr rfl)⟩

theorem proper_f : Proper ['f'] := by decide

theorem idSent_uploadB : uploadB.idSent = some otherClientId := idSent_delivered rfl

theorem idSent_uploadA : uploadA.idSent = some oneClientId := idSent_delivered rfl

theorem not_carries_uploadB : ¬ Event.Carries oneClientId uploadB := by
  rw [Event.Carries, idSent_uploadB]
  decide

theorem step_uploadB : (plainRuns bareSite).step twoClients uploadB startedB :=
  plain_delivered (plain_layout spared_twoClients.of_guard).1 (by decide) rfl fits_openingF proper_f

theorem reachable_startedB : (plainRuns bareSite).Reachable startedB :=
  spared_twoClients.of_guard.step step_uploadB

theorem step_uploadA : (plainRuns bareSite).step startedB uploadA startedBoth :=
  plain_delivered (plain_layout reachable_startedB).1 (by decide) rfl fits_openingF proper_f

theorem step_discardA : (plainRuns bareSite).step startedBoth discardA discardedA :=
  plain_delivered (plain_layout (reachable_startedB.step step_uploadA)).1 (by decide) rfl
    fits_discardF trivial

theorem estate_apart_uploads :
    startedBoth.estate bareSite otherClientId = startedB.estate bareSite otherClientId := by
  have hskip : uploadA.Carries oneClientId := idSent_uploadA
  have hfirst : (((plainRuns bareSite).beside (Event.Carries oneClientId)).guard
      (Apart oneClientId otherClientId)).step (twoClients, twoClients) uploadB
        (startedB, startedB) :=
    ⟨⟨step_uploadB, fun h => absurd h not_carries_uploadB, fun _ => step_uploadB⟩,
      apart_packet rfl fits_openingF⟩
  have hsecond : (((plainRuns bareSite).beside (Event.Carries oneClientId)).guard
      (Apart oneClientId otherClientId)).step (startedB, startedB) uploadA
        (startedBoth, startedB) :=
    ⟨⟨step_uploadA, fun _ => rfl, fun h => absurd hskip h⟩, apart_packet rfl fits_openingF⟩
  exact (estate_apart bareSite oneClientId otherClientId (by decide) twoClients spared_twoClients
    (by decide) [uploadB, uploadA] startedBoth startedB
    (.cons hfirst (.cons hsecond (.nil _)))).2.2.1

/-- The 902 of `a` deletes the row of `b`. -/
theorem row_lost : ∃ s es t t', (plainRuns bareSite).Reachable s ∧ oneClientId ∈ s.ids ∧
    otherClientId ∈ s.ids ∧ (plainRuns bareSite).Run s es t ∧
    (plainRuns bareSite).Run s (es.filter fun e => ¬ Event.Carries oneClientId e) t' ∧
    t.estate bareSite otherClientId ≠ t'.estate bareSite otherClientId := by
  refine ⟨twoClients, [uploadB, uploadA, discardA], discardedA, startedB,
    spared_twoClients.of_guard, by decide, by decide,
    .cons step_uploadB (.cons step_uploadA (.cons step_discardA (.nil _))), ?_, ?_⟩
  · have hA : uploadA.Carries oneClientId := idSent_uploadA
    have hdiscard : discardA.Carries oneClientId := idSent_delivered rfl
    have hfilter : [uploadB, uploadA, discardA].filter (fun e => ¬ Event.Carries oneClientId e) =
        [uploadB] := by
      simp [hA, hdiscard, not_carries_uploadB]
    rw [hfilter]
    exact .cons step_uploadB (.nil _)
  · intro h
    have hrows := congrArg (Option.map Estate.rows) h
    have hlost : (discardedA.estate bareSite otherClientId).map Estate.rows = some [] := rfl
    have hthere : (startedB.estate bareSite otherClientId).map Estate.rows =
        some [⟨otherClientId, ['f'], filePath ['b'] ['f'], false⟩] := rfl
    rw [hlost, hthere] at hrows
    cases hrows

end SecureTransfer
