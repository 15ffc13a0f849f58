import SecureTransfer.Service.Stored

/-!
What a restart restores. `set_valid_crc` sets the flag on every row of a client and the
handlers set it on one record, so the rows agree with the records as long as the other
rows of the client already have the flag that is set, and no packet reaches the database.
-/

open Octets (Text)
open Runs (System)

namespace SecureTransfer

namespace Books

/-- Every row is a record. -/
def Agree (b : Books) : Prop := ∀ id n row, b.row id n = some row → b.record id n = some row

variable {b : Books}

theorem agree_flag_iff (h : b.Agree) (id : Bytes) (fileName : Text) (flag : Bool) :
    (b.flag id fileName flag).Agree ↔
      ∀ n row, b.row id n = some row → n ≠ fileName → row.validCrc = flag := by
  constructor
  · intro hagree n row hrow hne
    have hflagged : (b.flag id fileName flag).row id n = some (row.flagged flag) := by
      simp only [Books.flag, if_true, hrow, Option.map_some]
    have hrecord := hagree id n _ hflagged
    simp only [Books.flag, hne, and_false, if_false, h id n row hrow, Option.some.injEq] at hrecord
    exact congrArg File.validCrc hrecord
  · intro hsteady i n row' hrow
    simp only [Books.flag] at hrow ⊢
    split at hrow
    · rename_i hi
      obtain ⟨row, hold, rfl⟩ := Option.map_eq_some_iff.mp hrow
      rw [h i n row hold]
      by_cases hn : n = fileName
      · rw [if_pos ⟨hi, hn⟩]
        rfl
      · subst hi
        rw [if_neg fun h => hn h.2, File.flagged, ← hsteady n row hold hn]
    · rename_i hi
      rw [if_neg fun h => hi h.1]
      exact h i n row' hrow

theorem Agree.add (h : b.Agree) (file : File) : (b.add file).Agree := by
  intro i n row hrow
  simp only [Books.add] at hrow ⊢
  split at hrow
  · rename_i hkey
    rw [if_pos hkey, hrow]
  · rename_i hkey
    rw [if_neg hkey]
    exact h i n row hrow

theorem Agree.discard (h : b.Agree) (id : Bytes) (fileName : Text) :
    (b.discard id fileName).Agree := by
  intro i n row hrow
  simp only [Books.discard] at hrow ⊢
  split at hrow
  · cases hrow
  · rename_i hn
    rw [if_neg fun h => hn h.2]
    exact h i n row hrow

theorem agree_restored (b : Books) : b.restored.Agree := fun _ _ _ h => h

end Books

/-- A flag is set only to the value that all other rows of the client have. -/
def Steady (site : Site) (s : Server) (e : Event) : Prop :=
  ∀ id body fileName flag, e.Asks id body → SetsFlag site s id body fileName flag →
    ∀ row ∈ s.db.files, row.clientId = id → row.fileName ≠ fileName → row.validCrc = flag

section
variable {site : Site} {s t : Server} {e : Event}

theorem WellFormed.agree_iff (hs : WellFormed s) : s.books.Agree ↔
    ∀ row ∈ s.db.files, ∃ c ∈ s.clientsList, c.clientId = row.clientId ∧ row ∈ c.filesList := by
  constructor
  · intro h row hrow
    obtain ⟨c, hc, hid, hfile, -⟩ :=
      hs.record_iff.mp (h _ _ row (hs.row_iff.mpr ⟨hrow, rfl, rfl⟩))
    exact ⟨c, hc, hid, hfile⟩
  · intro h i n row hrow
    obtain ⟨hmem, rfl, rfl⟩ := hs.row_iff.mp hrow
    obtain ⟨c, hc, hid, hfile⟩ := h row hmem
    exact hs.record_iff.mpr ⟨c, hc, hid, hfile, rfl⟩

/-- A step keeps the agreement exactly when it is steady. -/
theorem step_agree_iff (hs : WellFormed s) (h : s.books.Agree)
    (hstep : (serverRuns site).step s e t) : t.books.Agree ↔ Steady site s e := by
  obtain ⟨id, body, hasks, hbooked⟩ | ⟨hnone, hsame⟩ := step_books hs hstep
  · have honly : ∀ id' body', e.Asks id' body' → id' = id ∧ body' = body := by
      intro id' body' hasks'
      cases e with
      | callback draws c =>
          have heq := hasks'.symm.trans hasks
          exact ⟨(Incoming.request.inj heq).1, (Incoming.request.inj heq).2⟩
      | restart => exact hasks'.elim
    have hvacuous : (∀ fileName flag, ¬ SetsFlag site s id body fileName flag) →
        Steady site s e := by
      intro hno id' body' fileName flag hasks' hflag
      obtain ⟨rfl, rfl⟩ := honly id' body' hasks'
      exact absurd hflag (hno fileName flag)
    generalize t.books = b at hbooked
    cases hbooked with
    | same hno => exact ⟨fun _ => hvacuous hno, fun _ => h⟩
    | @flagged fileName flag hflag =>
        rw [Books.agree_flag_iff h]
        constructor
        · intro hrows id' body' fileName' flag' hasks' hflag' row hrow hid hne
          obtain ⟨rfl, rfl⟩ := honly id' body' hasks'
          obtain ⟨rfl, rfl⟩ := hflag.unique hflag'
          exact hrows row.fileName row (hs.row_iff.mpr ⟨hrow, hid, rfl⟩) hne
        · intro hsteady n row hrow hne
          obtain ⟨hmem, hid, rfl⟩ := hs.row_iff.mp hrow
          exact hsteady id body fileName flag hasks hflag row hmem hid hne
    | recorded hbody hfirst hc hid hnew =>
        refine ⟨fun _ => hvacuous ?_, fun _ => h.add _⟩
        subst hbody
        intro fileName flag hflag
        have hname := Option.some.inj hflag.fileName
        exact hflag.recorded (hname ▸ hnew)
    | discarded hbody hrecord hcrc =>
        refine ⟨fun _ => hvacuous ?_, fun _ => h.discard _ _⟩
        subst hbody
        intro fileName flag hflag
        cases hflag
  · have hsteady : Steady site s e := fun id body _ _ hasks => absurd hasks (hnone id body)
    refine ⟨fun _ => hsteady, fun _ => ?_⟩
    rcases hsame with ht | ⟨-, ht⟩
    · exact ht ▸ h
    · exact ht ▸ Books.agree_restored _

/-- A step changes no flag of a file that its request is not about. -/
theorem step_flags (hs : WellFormed s) (h : s.books.Agree) (hstep : (serverRuns site).step s e t)
    {id : Bytes} {fileName : Text} {f f' : File} (hf : s.books.record id fileName = some f)
    (hf' : t.books.record id fileName = some f') (hne : f'.validCrc ≠ f.validCrc) :
    ∃ body, e.Asks id body ∧ body.fileName? = some fileName := by
  have hsame : s.books.record id fileName ≠ t.books.record id fileName := by
    rw [hf, hf']
    intro he
    exact hne (congrArg File.validCrc (Option.some.inj he)).symm
  obtain ⟨i, body, hasks, hbooked⟩ | ⟨-, ht | ⟨-, ht⟩⟩ := step_books hs hstep
  · generalize t.books = b at hbooked hf' hsame
    cases hbooked with
    | same hno => exact absurd rfl hsame
    | @flagged n flag hflag =>
        by_cases hkey : id = i ∧ fileName = n
        · obtain ⟨rfl, rfl⟩ := hkey
          exact ⟨body, hasks, hflag.fileName⟩
        · exact absurd (if_neg hkey).symm hsame
    | @recorded c p hbody hfirst hc hid hnew =>
        by_cases hkey : id = i ∧ fileName = p.fileName
        · obtain ⟨rfl, rfl⟩ := hkey
          rw [hnew] at hf
          cases hf
        · exact absurd (if_neg hkey).symm hsame
    | @discarded n file hbody hrecord hcrc =>
        by_cases hkey : id = i ∧ fileName = n
        · rw [Books.discard] at hf'
          simp only [hkey, and_self, if_true] at hf'
          cases hf'
        · exact absurd (if_neg hkey).symm hsame
  · exact absurd (congrArg (fun b : Books => b.record id fileName) ht).symm hsame
  · rw [ht] at hf' hsame
    exact absurd ((h id fileName f' hf').trans hf'.symm) hsame

/-- In a steady run the rows agree with the records. -/
theorem agree_of_steady {s : Server} (hs : ((serverRuns site).guard (Steady site)).Reachable s) :
    WellFormed s ∧ s.books.Agree := by
  refine System.Reachable.invariant (I := fun s => WellFormed s ∧ s.books.Agree) ?_ ?_ hs
  · rintro s ⟨s₀, h₀, hstart⟩
    refine ⟨start_wellFormed h₀ hstart, ?_⟩
    intro i n row hrow
    obtain ⟨-, hdb, -⟩ := start_some h₀ hstart
    simp [Server.books, hdb] at hrow
  · rintro s e t ⟨hw, hagree⟩ ⟨hstep, hsteady⟩
    exact ⟨step_wellFormed hw hstep, (step_agree_iff hw hagree hstep).mpr hsteady⟩

end

/-- What a restart restores with the tables apart. -/
theorem flags_apart (site : Site) (s : Server)
    (hs : ((serverRuns site).guard (Steady site)).Reachable s) :
    (∀ row ∈ s.db.files, ∃ c ∈ s.clientsList, c.clientId = row.clientId ∧
      ∃ f ∈ c.filesList, f.fileName = row.fileName ∧ f.path = row.path ∧
        f.validCrc = row.validCrc) ∧
    (∀ t, dataBaseHandle site s = some t → ∀ c' ∈ t.clientsList, ∀ f ∈ c'.filesList,
      ∃ c ∈ s.clientsList, c.clientId = c'.clientId ∧ f ∈ c.filesList) ∧
    ∀ e t, (serverRuns site).step s e t →
      ((∀ row ∈ t.db.files, ∃ c ∈ t.clientsList, c.clientId = row.clientId ∧
        row ∈ c.filesList) ↔ Steady site s e) ∧
      ∀ c ∈ s.clientsList, ∀ f ∈ c.filesList, ∀ c' ∈ t.clientsList, c'.clientId = c.clientId →
        ∀ f' ∈ c'.filesList, f'.fileName = f.fileName → f'.validCrc ≠ f.validCrc →
          ∃ body, e.Asks c.clientId body ∧ body.fileName? = some f.fileName := by
  obtain ⟨hw, hagree⟩ := agree_of_steady hs
  refine ⟨?_, ?_, ?_⟩
  · intro row hrow
    obtain ⟨c, hc, hid, hfile⟩ := hw.agree_iff.mp hagree row hrow
    exact ⟨c, hc, hid, row, hfile, rfl, rfl, rfl⟩
  · intro t ht c' hc' f hf
    have hrestarted := dataBaseHandle_some ht
    have hrecord := (hrestarted.wellFormed hw).record_iff.mpr ⟨c', hc', rfl, hf, rfl⟩
    rw [hrestarted.books hw] at hrecord
    obtain ⟨c, hc, hid, hfile, -⟩ := hw.record_iff.mp (hagree _ _ f hrecord)
    exact ⟨c, hc, hid, hfile⟩
  · intro e t hstep
    have hwt := step_wellFormed hw hstep
    refine ⟨hwt.agree_iff.symm.trans (step_agree_iff hw hagree hstep), ?_⟩
    intro c hc f hf c' hc' hid f' hf' hname hne
    exact step_flags hw hagree hstep (hw.record_iff.mpr ⟨c, hc, rfl, hf, rfl⟩)
      (hwt.record_iff.mpr ⟨c', hc', hid, hf', hname⟩) hne

/-! The same with a database that no packet reaches. -/

/-- Whether a file can be written does not depend on what files hold. -/
theorem SetsFlag.aside {site : Site} {s : Server} {id : Bytes} {body : Body} {fileName : Text}
    {flag : Bool} (h : SetsFlag site s id body fileName flag) :
    SetsFlag site (s.aside site) id body fileName flag := by
  cases h with
  | first hc hrecorded hfirst hstore =>
      obtain ⟨r, hr, hdir, -⟩ := FileTree.store_eq_some.mp hstore
      exact .first hc hrecorded hfirst (FileTree.store_eq_some.mpr
        ⟨r, (FileTree.locate_setFile _ _ _ _ _).trans hr, hdir, rfl⟩)
  | valid hrecord hcrc => exact .valid hrecord hcrc

theorem SetsFlag.of_aside {site : Site} {s : Server} {id : Bytes} {body : Body} {fileName : Text}
    {flag : Bool} (h : SetsFlag site (s.aside site) id body fileName flag) :
    SetsFlag site s id body fileName flag := by
  cases h with
  | first hc hrecorded hfirst hstore =>
      obtain ⟨r, hr, hdir, -⟩ := FileTree.store_eq_some.mp hstore
      exact .first hc hrecorded hfirst (FileTree.store_eq_some.mpr
        ⟨r, (FileTree.locate_setFile _ _ _ _ _).symm.trans hr, hdir, rfl⟩)
  | valid hrecord hcrc => exact .valid hrecord hcrc

theorem steady_aside_iff {site : Site} {s : Server} {e : Event} :
    Steady site (s.aside site) e ↔ Steady site s e :=
  ⟨fun h id body fileName flag hasks hflag => h id body fileName flag hasks hflag.aside,
    fun h id body fileName flag hasks hflag => h id body fileName flag hasks hflag.of_aside⟩

def steadyRuns (site : Site) (q : Sqlite) : System Server Event :=
  (awayRuns site q).guard (Steady site)

theorem steadyReachable_aside {site : Site} {q : Sqlite} {s : Server}
    (h : (steadyRuns site q).Reachable s) :
    (Stored site q s ∧ WellFormed (s.aside site)) ∧
      ((serverRuns site).guard (Steady site)).Reachable (s.aside site) := by
  refine h.through (T := (serverRuns site).guard (Steady site)) (f := Server.aside site) (g := id)
    (I := fun u => Stored site q u ∧ WellFormed (u.aside site)) ?_ ?_
  · intro s e t hs hstep
    obtain ⟨ht, haside⟩ := awayStep_aside hs hstep.1
    exact ⟨ht, haside, steady_aside_iff.mpr hstep.2⟩
  · intro s hinit
    exact awayInit_aside hinit

/-- In a run whose steps are steady, and whose packets have no path to the working directory,
every row of table files, as the database holds it, is a record in memory, so a restart
restores the flags as they were, and the flag of a file changes at requests about that file
alone. The first step that is not steady breaks the agreement. -/
theorem flags_survive_restart (site : Site) (q : Sqlite) (s : Server)
    (hs : (steadyRuns site q).Reachable s) :
    (∀ row ∈ s.db.files, ∃ c ∈ s.clientsList, c.clientId = row.clientId ∧
      ∃ f ∈ c.filesList, f.fileName = row.fileName ∧ f.path = row.path ∧
        f.validCrc = row.validCrc) ∧
    (site.storing q).stored q s.disk = some s.db ∧
    (∀ t, dataBaseHandle (site.storing q) s = some t → ∀ c' ∈ t.clientsList, ∀ f ∈ c'.filesList,
      ∃ c ∈ s.clientsList, c.clientId = c'.clientId ∧ f ∈ c.filesList) ∧
    ∀ e t, (awayRuns site q).step s e t →
      ((∀ row ∈ t.db.files, ∃ c ∈ t.clientsList, c.clientId = row.clientId ∧
        row ∈ c.filesList) ↔ Steady site s e) ∧
      ∀ c ∈ s.clientsList, ∀ f ∈ c.filesList, ∀ c' ∈ t.clientsList, c'.clientId = c.clientId →
        ∀ f' ∈ c'.filesList, f'.fileName = f.fileName → f'.validCrc ≠ f.validCrc →
          ∃ body, e.Asks c.clientId body ∧ body.fileName? = some f.fileName := by
  obtain ⟨haside, hreach⟩ := steadyReachable_aside hs
  obtain ⟨hrows, hrestored, hsteps⟩ := flags_apart site (s.aside site) hreach
  refine ⟨hrows, haside.1.found, ?_, ?_⟩
  · intro t ht
    refine hrestored (t.aside site) ?_
    rw [(restart_aside haside.1 haside.2).1, ht]
    rfl
  · intro e t hstep
    obtain ⟨hagree, hflags⟩ := hsteps e (t.aside site) (awayStep_aside haside hstep).2
    exact ⟨hagree.trans steady_aside_iff, hflags⟩

/-- A request to a client whose rows are all of the file it is about is steady. -/
theorem steady_served {site : Site} {q : Sqlite} {draws : Draws} {s : Server} {clientId : Bytes}
    {body : Body} (h : (steadyRuns site q).Reachable s) (hfresh : draws.uuid ∉ s.ids)
    (hid : clientId.length = General.clientIdSize) (hfits : body.Fits)
    (haway : ∀ p, body = .packet p → p.Away site s clientId)
    (honly : ∀ row ∈ s.db.files, body.fileName? = some row.fileName) :
    (steadyRuns site q).Reachable
      (s.after (site.storing q) (.delivered draws clientId body)) := by
  refine h.step ⟨⟨step_after hfresh, ?_⟩, ?_⟩
  · intro id p hasks
    obtain ⟨rfl, hbody⟩ := asks_delivered hid hfits draws hasks
    exact haway p hbody.symm
  · intro id body' fileName flag hasks hflag row hrow _ hne
    obtain ⟨rfl, rfl⟩ := asks_delivered hid hfits draws hasks
    have hname := hflag.fileName
    rw [honly row hrow] at hname
    exact absurd (Option.some.inj hname) hne

/-! Runs of one client with the files `x` and `y`. -/

/-- The server after packet 1 of `x`, and after a 900 for it. -/
def begunX : Server :=
  (serve bareSite (sameDraws 2) oneClient oneClientId (.packet (openingPacket ['x']))).1

def verifiedX : Server :=
  (serve bareSite (sameDraws 2) begunX oneClientId
    (.verdict General.validCrcRequest900 ['x'])).1

theorem fits_openingX : (Body.packet (openingPacket ['x'])).Fits :=
  fits_openingPacket ⟨by decide, by decide⟩

/-- The same server with a database. -/
def storedX : Server :=
  storedClient.after (bareSite.storing codedSqlite)
    (.delivered (sameDraws 2) oneClientId (.packet (openingPacket ['x'])))

def storedVerifiedX : Server :=
  storedX.after (bareSite.storing codedSqlite)
    (.delivered (sameDraws 2) oneClientId (.verdict General.validCrcRequest900 ['x']))

theorem steady_storedX : (steadyRuns bareSite codedSqlite).Reachable storedX := by
  have h₀ : (steadyRuns bareSite codedSqlite).Reachable storedServer :=
    ⟨storedServer, [], init_storedServer _, .nil _⟩
  have h₁ : (steadyRuns bareSite codedSqlite).Reachable storedClient :=
    steady_served h₀ (by decide) (by decide) ⟨by decide, by decide⟩ (fun _ h => nomatch h)
      fun _ hrow => nomatch hrow
  obtain ⟨hfresh, hlocate, hrows⟩ : (sameDraws 2).uuid ∉ storedClient.ids ∧
      (∀ c ∈ storedClient.clientsList, c.clientId = oneClientId →
        storedClient.disk.locate bareSite.cwd (filePath c.clientName ['x']) =
          some [General.folder, ['a'], ['x']]) ∧
      ∀ row ∈ storedClient.db.files, ['x'] = row.fileName := by
    decide +kernel
  refine steady_served h₁ hfresh (by decide) fits_openingX ?_
    fun row hrow => congrArg some (hrows row hrow)
  intro p hp
  obtain rfl := Body.packet.inj hp
  exact away_of_locate hlocate (by decide)

theorem flags_survive_restart_verifiedX :
    storedVerifiedX.db.files.map (·.validCrc) = [true] ∧
    ∀ row ∈ storedVerifiedX.db.files, ∃ c ∈ storedVerifiedX.clientsList,
      c.clientId = row.clientId ∧ ∃ f ∈ c.filesList, f.fileName = row.fileName ∧
        f.path = row.path ∧ f.validCrc = row.validCrc := by
  obtain ⟨hfresh, hrows, hflags⟩ : (sameDraws 2).uuid ∉ storedX.ids ∧
      (∀ row ∈ storedX.db.files, ['x'] = row.fileName) ∧
      storedVerifiedX.db.files.map (·.validCrc) = [true] := by
    decide +kernel
  have hsteady : (steadyRuns bareSite codedSqlite).Reachable storedVerifiedX :=
    steady_served steady_storedX hfresh (by decide) ⟨⟨by decide, by decide⟩, .inl rfl⟩
      (fun _ h => nomatch h) fun row hrow => congrArg some (hrows row hrow)
  exact ⟨hflags, (flags_survive_restart bareSite codedSqlite _ hsteady).1⟩

/-- The server after packet 1 of `x`, packet 1 of `y` and a 900 for `x`. -/
def storedXY : Server :=
  storedX.after (bareSite.storing codedSqlite)
    (.delivered (sameDraws 2) oneClientId (.packet (openingPacket ['y'])))

def verifiedXOfTwo : Server :=
  storedXY.after (bareSite.storing codedSqlite)
    (.delivered (sameDraws 2) oneClientId (.verdict General.validCrcRequest900 ['x']))

/-- The row of `y` is flagged with that of `x`, its record is not; a restart takes `y`
for verified. -/
theorem flags_drift : ∃ s, (storedRuns bareSite codedSqlite).Reachable s ∧
    (∃ row ∈ s.db.files, ¬ ∃ c ∈ s.clientsList, c.clientId = row.clientId ∧
      ∃ f ∈ c.filesList, f.fileName = row.fileName ∧ f.path = row.path ∧
        f.validCrc = row.validCrc) ∧
    ∃ t, dataBaseHandle (bareSite.storing codedSqlite) s = some t ∧
      s.clientsList.map (fun c => c.filesList.map (·.validCrc)) = [[true, false]] ∧
      t.clientsList.map (fun c => c.filesList.map (·.validCrc)) = [[true, true]] := by
  have hreach : (storedRuns bareSite codedSqlite).Reachable storedX :=
    steady_storedX.of_guard.of_guard
  obtain ⟨hfresh, hfresh', hdrift, hkept, hrestarted⟩ : (sameDraws 2).uuid ∉ storedX.ids ∧
      (sameDraws 2).uuid ∉ storedXY.ids ∧
      (∃ row ∈ verifiedXOfTwo.db.files, ¬ ∃ c ∈ verifiedXOfTwo.clientsList,
        c.clientId = row.clientId ∧ ∃ f ∈ c.filesList, f.fileName = row.fileName ∧
          f.path = row.path ∧ f.validCrc = row.validCrc) ∧
      verifiedXOfTwo.clientsList.map (fun c => c.filesList.map (·.validCrc)) =
        [[true, false]] ∧
      (dataBaseHandle (bareSite.storing codedSqlite) verifiedXOfTwo).map
        (fun t => t.clientsList.map fun c => c.filesList.map (·.validCrc)) =
          some [[true, true]] := by
    decide +kernel
  obtain ⟨t, ht, hflags⟩ := Option.map_eq_some_iff.mp hrestarted
  exact ⟨verifiedXOfTwo, stored_served (stored_served hreach hfresh) hfresh', hdrift, t, ht,
    hkept, hflags⟩

end SecureTransfer
