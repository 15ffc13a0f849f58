import SecureTransfer.Service.Verified
import SecureTransfer.Service.Interference

/-!
Where the files of the clients are. No name is checked, so a path leads where its components
lead: a file is in the folder of its client exactly if the name comes back to the folder
whenever it has left it, and the folders of others are out of its way.
-/

open Octets (Text)
open FileTree (Proper Inside Relative reduce resolve)
open Runs (System)

namespace SecureTransfer

/-- A file name without detours. -/
def reduced (fileName : Text) : Relative := reduce (fileName.splitOn '/')

/-- Every component of the file name is the name of a directory entry. -/
def ProperPath (fileName : Text) : Prop := ∀ component ∈ fileName.splitOn '/', Proper component

instance (fileName : Text) : Decidable (ProperPath fileName) :=
  inferInstanceAs (Decidable (∀ component ∈ fileName.splitOn '/', Proper component))

/-- Where the components of a client's folder lead. -/
def Site.folderOf (site : Site) (clientName : Text) : Location :=
  resolve site.cwd ((clientFolder clientName).splitOn '/')

namespace Server

/-- The file that is opened or removed under a path of the client. -/
def opens (site : Site) (s : Server) (clientName fileName : Text) : Option Location :=
  (s.disk.locate site.cwd (filePath clientName fileName)).filter fun q => !s.disk.isDir q

/-- The folder of a client, as the directories are. -/
def folder? (site : Site) (s : Server) (clientName : Text) : Option Location :=
  s.disk.locate site.cwd (clientFolder clientName)

/-- In the folder of the client, and out of those of the others. -/
def Placed (site : Site) (s : Server) (c : Client) (q : Location) : Prop :=
  (∃ home, s.folder? site c.clientName = some home ∧ Inside home q) ∧
  ∀ other ∈ s.clientsList, other ≠ c → ∀ home, s.folder? site other.clientName = some home →
    ¬ home <+: q

/-- The name comes back to the folder of the client if it leaves it. That folder is not in the
folder of another client, and no such folder is in it along the rest of the name. -/
def Homely (site : Site) (s : Server) (c : Client) (fileName : Text) : Prop :=
  (reduced fileName).Returns (site.folderOf c.clientName) ∧
  ∀ other ∈ s.clientsList, other ≠ c →
    ¬ site.folderOf other.clientName <+: site.folderOf c.clientName ∧
    ∀ rest, site.folderOf other.clientName = site.folderOf c.clientName ++ rest →
      ¬ rest <+: (reduced fileName).beyond (site.folderOf c.clientName)

/-- A request about a file of a client that has its path lead to the location. -/
def Names (site : Site) (s : Server) (e : Event) (q : Location) : Prop :=
  ∃ c ∈ s.clientsList, ∃ body fileName, e.Asks c.clientId body ∧
    body.fileName? = some fileName ∧ s.opens site c.clientName fileName = some q

end Server

/-- Requests whose file names are all homely. -/
def homelyRuns (site : Site) : System Server Event :=
  (serverRuns site).guard fun s e => ∀ c ∈ s.clientsList, ∀ body fileName,
    e.Asks c.clientId body → body.fileName? = some fileName → s.Homely site c fileName

section
variable {site : Site} {s t : Server} {name name' fileName fileName' : Text} {q : Location}

theorem opens_eq_some : s.opens site name fileName = some q ↔
    s.disk.locate site.cwd (filePath name fileName) = some q ∧ s.disk.isDir q = false := by
  rw [Server.opens, Option.filter_eq_some_iff, Bool.not_eq_true']

theorem locate_folderOf {home : Location} (h : s.folder? site name = some home) :
    home = site.folderOf name := by
  have hhead : (clientFolder name).head? ≠ some '/' := FileTree.head?_of_proper proper_folder _
  rw [Server.folder?, FileTree.locate, if_neg hhead] at h
  exact FileTree.walk_eq_resolve h

theorem Housed.folder? (h : Housed site s) (hname : name ∈ s.names) :
    s.folder? site name = some (site.folderOf name) := by
  obtain ⟨q, hq⟩ := h.clients name hname
  have hlocate := (FileTree.creatable_iff (clientFolder_rdropWhile name) q).mpr hq
  rw [Server.folder?, hlocate, locate_folderOf hlocate]

/-- A file is looked up in the folder of its client, which is a directory. -/
theorem opens_below (h : s.opens site name fileName = some q) :
    s.disk.isDir (site.folderOf name) ∧ q = (reduced fileName).follow (site.folderOf name) := by
  obtain ⟨hlocate, -⟩ := opens_eq_some.mp h
  have hpath : filePath name fileName = clientFolder name ++ '/' :: fileName := by
    simp only [filePath, clientFolder, List.append_assoc, List.cons_append]
  have hne : clientFolder name ≠ [] := by
    rw [clientFolder]
    exact List.append_ne_nil_of_right_ne_nil _ (List.cons_ne_nil _ _)
  rw [hpath, FileTree.locate_append_slash _ _ hne, Option.bind_eq_some_iff] at hlocate
  obtain ⟨home, hhome, hwalk⟩ := hlocate
  obtain rfl := locate_folderOf hhome
  refine ⟨FileTree.isDir_of_walk (List.splitOn_ne_nil _ _) hwalk, ?_⟩
  rw [FileTree.walk_eq_resolve hwalk, FileTree.resolve_eq]
  rfl

theorem opens_inside_iff (h : s.opens site name fileName = some q) :
    Inside (site.folderOf name) q ↔ (reduced fileName).Returns (site.folderOf name) := by
  obtain ⟨hdir, hq⟩ := opens_below h
  have hne : q ≠ site.folderOf name := by
    intro heq
    have hfile := (opens_eq_some.mp h).2
    rw [heq, hdir] at hfile
    cases hfile
  rw [Inside, and_iff_left hne, hq]
  exact Relative.prefix_follow_iff

/-- What is above a place is above the folder, or in it and on the way. -/
theorem prefix_append_iff {home other rest : Location} : other <+: home ++ rest ↔
    other <+: home ∨ ∃ way, other = home ++ way ∧ way <+: rest := by
  constructor
  · intro h
    obtain hshort | hlong := List.prefix_or_prefix_of_prefix h (List.prefix_append home rest)
    · exact .inl hshort
    · obtain ⟨way, rfl⟩ := hlong
      exact .inr ⟨way, rfl, (List.prefix_append_right_inj home).mp h⟩
  · intro h
    obtain hshort | ⟨way, rfl, hway⟩ := h
    · exact hshort.trans (List.prefix_append home rest)
    · exact (List.prefix_append_right_inj home).mpr hway

theorem placed_iff (hh : Housed site s) {c : Client} (hc : c ∈ s.clientsList)
    (h : s.opens site c.clientName fileName = some q) :
    s.Placed site c q ↔ s.Homely site c fileName := by
  have hfolder : ∀ other ∈ s.clientsList, s.folder? site other.clientName =
      some (site.folderOf other.clientName) := fun other ho => hh.folder? (List.mem_map_of_mem ho)
  have hinside : (∃ home, s.folder? site c.clientName = some home ∧ Inside home q) ↔
      (reduced fileName).Returns (site.folderOf c.clientName) := by
    rw [← opens_inside_iff h, hfolder c hc]
    simp
  rw [Server.Placed, Server.Homely, hinside]
  refine and_congr_right fun hreturns => ?_
  have hq : q = site.folderOf c.clientName ++
      (reduced fileName).beyond (site.folderOf c.clientName) := by
    rw [(opens_below h).2]
    exact hreturns.follow_eq
  refine forall_congr' fun other => forall_congr' fun ho => imp_congr_right fun _ => ?_
  rw [hfolder other ho]
  simp only [Option.some.injEq, forall_eq', hq, prefix_append_iff, not_or, not_exists, not_and]

/-- Two names of one client lead to one file if they leave the same in its folder. -/
theorem opens_same_iff {q' : Location} (h : s.opens site name fileName = some q)
    (h' : s.opens site name fileName' = some q')
    (hreturns : (reduced fileName).Returns (site.folderOf name))
    (hreturns' : (reduced fileName').Returns (site.folderOf name)) : q = q' ↔
      (reduced fileName).beyond (site.folderOf name) =
        (reduced fileName').beyond (site.folderOf name) := by
  rw [(opens_below h).2, (opens_below h').2, hreturns.follow_eq, hreturns'.follow_eq]
  exact List.append_right_inj _

/-! Names that are single components, and paths of such. -/

theorem ProperPath.reduced_eq (h : ProperPath fileName) :
    reduced fileName = ⟨0, fileName.splitOn '/'⟩ := FileTree.reduce_proper h

theorem folderOf_proper (hname : Proper name) : site.folderOf name = site.home name := by
  have hsplit : (clientFolder name).splitOn '/' = [General.folder, name] := by
    rw [clientFolder, FileTree.splitOn_proper_slash proper_folder, FileTree.splitOn_proper hname]
  rw [Site.folderOf, hsplit]
  simp only [resolve, List.foldl_cons, List.foldl_nil, FileTree.enter_proper proper_folder,
    FileTree.enter_proper hname, List.append_assoc, Site.home, List.singleton_append]

/-- A name that never leaves the folder is homely if the client names are single components. -/
theorem homely_of_proper (hs : WellFormed s) (hnames : ∀ n ∈ s.names, Proper n) {c : Client}
    (hc : c ∈ s.clientsList) (hups : (reduced fileName).ups = 0) : s.Homely site c fileName := by
  refine ⟨Relative.returns_of_ups hups _, fun other ho hne => ?_⟩
  have hdiffer : site.home other.clientName ≠ site.home c.clientName := fun heq =>
    hne (Keyed.eq_of_key_eq (fun x : Client => x.clientName) hs.namesDistinct ho hc
      (Site.home_inj.mp heq))
  have hlength : (site.home other.clientName).length = (site.home c.clientName).length := by
    simp only [Site.home, List.length_append, List.length_cons, List.length_nil]
  rw [folderOf_proper (hnames _ (List.mem_map_of_mem ho)),
    folderOf_proper (hnames _ (List.mem_map_of_mem hc))]
  refine ⟨fun habove => hdiffer (habove.eq_of_length hlength), fun rest hrest _ => ?_⟩
  have habove : site.home c.clientName <+: site.home other.clientName := by
    rw [hrest]
    exact List.prefix_append _ _
  exact hdiffer (habove.eq_of_length hlength.symm).symm

/-! What a step changes on the disk. -/

/-- The directories and accounts are those before the request, and it has changed no file but
the one that it names. -/
def Touched (site : Site) (s : Server) (id : Bytes) (body : Body) (t : Server) : Prop :=
  (body.fileName? ≠ none → t.disk.isDir = s.disk.isDir ∧ t.accounts = s.accounts) ∧
  ∀ q, t.disk.file q ≠ s.disk.file q → ∃ c ∈ s.clientsList, ∃ fileName, c.clientId = id ∧
    body.fileName? = some fileName ∧ s.opens site c.clientName fileName = some q

theorem Touched.named {id : Bytes} {body : Body} (hs : WellFormed s) (ht : WellFormed t)
    (h : Touched site s id body t) (hname : body.fileName? = some fileName) {c : Client}
    (hc : c ∈ t.clientsList) (hid : c.clientId = id)
    (hlocate : t.disk.locate site.cwd (filePath c.clientName fileName) = some q)
    (hdir : t.disk.isDir q = false) :
    ∃ c ∈ s.clientsList, ∃ fileName, c.clientId = id ∧
      body.fileName? = some fileName ∧ s.opens site c.clientName fileName = some q := by
  obtain ⟨hisDir, haccounts⟩ := h.1 (by rw [hname]; exact Option.some_ne_none _)
  have haccount : s.accounts id = some c.toClientRow.account :=
    haccounts ▸ ht.accounts_iff.mpr ⟨c, hc, hid, rfl⟩
  obtain ⟨c₀, hc₀, hid₀, hsame⟩ := hs.accounts_iff.mp haccount
  have hclientName : c₀.clientName = c.clientName := congrArg Account.clientName hsame
  refine ⟨c₀, hc₀, fileName, hid₀, hname, opens_eq_some.mpr ⟨?_, ?_⟩⟩
  · rw [hclientName, ← hlocate]
    exact FileTree.locate_congr hisDir.symm _ _
  · rw [← hisDir]
    exact hdir

theorem Update.touched {draws : Draws} {id : Bytes} {body : Body} {u : Server}
    (hs : WellFormed s) (ht : WellFormed t) (h : Touched site s id body t)
    (hupd : Update site draws id body t u) : Touched site s id body u := by
  have haccounts : body.fileName? ≠ none → u.accounts = s.accounts := fun hbody =>
    (hupd.accounts hbody).trans (h.1 hbody).2
  cases hupd with
  | seen | publicKey | aesKey | flag | record =>
      exact ⟨fun hbody => ⟨(h.1 hbody).1, haccounts hbody⟩, h.2⟩
  | @write c p truncate content disk hc hid hbody hstore =>
      obtain ⟨r, hlocate, hdir, rfl⟩ := FileTree.store_eq_some.mp hstore
      refine ⟨fun hbody => ⟨(h.1 hbody).1, haccounts hbody⟩, fun q hq => ?_⟩
      by_cases hr : q = r
      · subst hr
        exact h.named hs ht (congrArg Body.fileName? hbody) hc hid hlocate hdir
      · exact h.2 q fun hold => hq ((FileTree.setFile_file_of_ne _ _ hr).trans hold)
  | @discard c file disk hc hid hfile hbody hcrc hremove =>
      obtain ⟨r, old, hlocate, hdir, -, rfl⟩ := FileTree.remove_eq_some.mp hremove
      refine ⟨fun hbody => ⟨(h.1 hbody).1, haccounts hbody⟩, fun q hq => ?_⟩
      by_cases hr : q = r
      · subst hr
        exact h.named hs ht (congrArg Body.fileName? hbody) hc hid hlocate hdir
      · exact h.2 q fun hold => hq ((FileTree.setFile_file_of_ne _ _ hr).trans hold)
  | register hbody _ _ hdir =>
      refine ⟨fun hfile => absurd (congrArg Body.fileName? hbody) hfile, fun q hq => h.2 q ?_⟩
      intro hold
      exact hq ((congrFun (ensureDir_file hdir) q).trans hold)

theorem step_touched {e : Event} (hs : WellFormed s) (hstep : (serverRuns site).step s e t)
    (hq : t.disk.file q ≠ s.disk.file q) : s.Names site e q := by
  revert hq
  apply step_invariant (I := fun t => t.disk.file q ≠ s.disk.file q → s.Names site e q) hs hstep
  · intro draws c he hfresh hq
    subst he
    cases hincoming : (receive c).incoming with
    | request id body =>
        have htouched : Touched site s id body ((receive c).next site draws s) :=
          next_invariant site draws _ hs hfresh
            (fun id' body' hr t u ht hI hupd => by
              rw [hincoming] at hr
              obtain ⟨rfl, rfl⟩ := Incoming.request.inj hr
              exact hupd.touched hs ht hI) ⟨fun _ => ⟨rfl, rfl⟩, fun q hq => absurd rfl hq⟩
        obtain ⟨c', hc', fileName, rfl, hname, hopens⟩ := htouched.2 q hq
        exact ⟨c', hc', body, fileName, hincoming, hname, hopens⟩
    | ended | waits | malformed =>
        have hsame : (receive c).next site draws s = s := by
          simp only [Reception.next, hincoming]
        exact absurd (by rw [hsame]) hq
  · intro _ t ht hq
    exact absurd (by rw [ht.file]) hq

theorem run_clientName {es : List Event} (hrun : (serverRuns site).Run s es t)
    (hs : WellFormed s) {c : Client} (hc : c ∈ s.clientsList) :
    ∃ c' ∈ t.clientsList, c'.clientId = c.clientId ∧ c'.clientName = c.clientName := by
  have hboth : WellFormed t ∧
      ∃ c' ∈ t.clientsList, c'.clientId = c.clientId ∧ c'.clientName = c.clientName := by
    refine hrun.invariant (I := fun t => WellFormed t ∧
      ∃ c' ∈ t.clientsList, c'.clientId = c.clientId ∧ c'.clientName = c.clientName) ?_
      ⟨hs, c, hc, rfl, rfl⟩
    intro t e u ht hstep
    obtain ⟨hwell, c', hc', hid, hname⟩ := ht
    obtain ⟨c'', hc'', hid', hname'⟩ := step_clientName hwell hstep hc'
    exact ⟨step_wellFormed hwell hstep, c'', hc'', hid'.trans hid, hname'.trans hname⟩
  exact hboth.2

/-- What homely requests change is in the folders of the clients that asked. -/
theorem homely_run {es : List Event} (hrun : (homelyRuns site).Run s es t)
    (hs : WellFormed s) (hh : Housed site s) (hq : t.disk.file q ≠ s.disk.file q) :
    ∃ c ∈ t.clientsList, Inside (site.folderOf c.clientName) q ∧
      ∃ e ∈ es, ∃ body, e.Asks c.clientId body ∧ body.fileName? ≠ none := by
  induction hrun with
  | nil => exact absurd rfl hq
  | @cons s u t e es head tail ih =>
      have hwell := step_wellFormed hs head.1
      by_cases hfirst : u.disk.file q = s.disk.file q
      · obtain ⟨c, hc, hinside, e', he', hasks⟩ :=
          ih hwell (step_housed hs hh head.1) (by rwa [hfirst])
        exact ⟨c, hc, hinside, e', List.mem_cons_of_mem _ he', hasks⟩
      · obtain ⟨c, hc, body, fileName, hasks, hname, hopens⟩ := step_touched hs head.1 hfirst
        have hhomely := head.2 c hc body fileName hasks hname
        obtain ⟨c₁, hc₁, hid₁, hname₁⟩ := step_clientName hs head.1 hc
        obtain ⟨c₂, hc₂, hid₂, hname₂⟩ := run_clientName tail.of_guard hwell hc₁
        refine ⟨c₂, hc₂, ?_, e, List.mem_cons_self, body, ?_, ?_⟩
        · rw [hname₂, hname₁]
          exact (opens_inside_iff hopens).mpr hhomely.1
        · rw [hid₂, hid₁]
          exact hasks
        · rw [hname]
          exact Option.some_ne_none fileName

/-- Two files of clients are where they belong, and are not the same, exactly if their names
are homely and, for one client, leave different names in the folder. No step changes a file
that it does not name, and runs of homely requests change files in the folders of those who
ask. Names are homely that never leave the folder of a client whose name, like those of all
clients, is a single component. No path is taken to lead to the database, which is no file of
these disks. -/
theorem files_in_folders (site : Site) {s : Server} (hs : Reachable site s) :
    (∀ c ∈ s.clientsList, ∀ c' ∈ s.clientsList, ∀ fileName fileName' q q',
      s.opens site c.clientName fileName = some q →
      s.opens site c'.clientName fileName' = some q' →
        ((s.Placed site c q ∧ s.Placed site c' q' ∧ ((c, fileName) ≠ (c', fileName') → q ≠ q')) ↔
          s.Homely site c fileName ∧ s.Homely site c' fileName' ∧
          (c = c' → fileName ≠ fileName' →
            (reduced fileName).beyond (site.folderOf c.clientName) ≠
              (reduced fileName').beyond (site.folderOf c.clientName)))) ∧
    (∀ e t, (serverRuns site).step s e t → ∀ q, t.disk.file q ≠ s.disk.file q →
      s.Names site e q) ∧
    (∀ es t, (homelyRuns site).Run s es t → ∀ q, t.disk.file q ≠ s.disk.file q →
      ∃ c ∈ t.clientsList, Inside (site.folderOf c.clientName) q ∧
        ∃ e ∈ es, ∃ body, e.Asks c.clientId body ∧ body.fileName? ≠ none) ∧
    ((∀ name ∈ s.names, Proper name) → ∀ c ∈ s.clientsList,
      (∀ fileName, (reduced fileName).ups = 0 → s.Homely site c fileName) ∧
      ∀ fileName, ProperPath fileName → (reduced fileName).ups = 0 ∧
        (reduced fileName).beyond (site.folderOf c.clientName) = fileName.splitOn '/') := by
  obtain ⟨hwell, hhoused⟩ := hs.wellFormed_housed
  refine ⟨?_, fun e t hstep q hq => step_touched hwell hstep hq,
    fun es t hrun q hq => homely_run hrun hwell hhoused hq, ?_⟩
  · intro c hc c' hc' fileName fileName' q q' hopens hopens'
    rw [placed_iff hhoused hc hopens, placed_iff hhoused hc' hopens']
    refine and_congr_right fun hhomely => and_congr_right fun hhomely' => ?_
    by_cases hclient : c = c'
    · subst hclient
      have hsame := opens_same_iff hopens hopens' hhomely.1 hhomely'.1
      simp only [ne_eq, Prod.mk.injEq, true_and, forall_const, hsame]
    · have hdiffer : q ≠ q' := by
        intro heq
        obtain ⟨home', hhome', hinside, -⟩ := ((placed_iff hhoused hc' hopens').mpr hhomely').1
        have hout := ((placed_iff hhoused hc hopens).mpr hhomely).2 c' hc' (Ne.symm hclient)
          home' hhome'
        exact hout (heq ▸ hinside)
      exact ⟨fun _ heq => absurd heq hclient, fun _ _ => hdiffer⟩
  · intro hnames c hc
    refine ⟨fun fileName hups => homely_of_proper hwell hnames hc hups, fun fileName hproper => ?_⟩
    have hreduced := hproper.reduced_eq
    have hups : (reduced fileName).ups = 0 := by rw [hreduced]
    refine ⟨hups, ?_⟩
    rw [Relative.beyond_of_ups hups, hreduced]

end

/-! Client `a` names a file of client `b`, with both on the server. -/

def elsewhere : Text := ['.', '.', '/', 'b', '/', 'f']

def overwritten : Server :=
  (serve bareSite (sameDraws 3) twoClients oneClientId (.packet (openingPacket elsewhere))).1

theorem reachable_twoClients : Reachable bareSite twoClients :=
  reachable_oneClient.served (by decide) (by decide) ⟨by decide, by decide⟩

theorem fits_elsewhere : (Body.packet (openingPacket elsewhere)).Fits :=
  fits_openingPacket ⟨by decide, by decide⟩

/-- The 828 of `a` writes a file in the folder of `b`, at the path of a file of `b`. -/
theorem folder_left : ∃ s e t, Reachable bareSite s ∧ (serverRuns bareSite).step s e t ∧
    ∃ c ∈ s.clientsList, ∃ c' ∈ s.clientsList, c ≠ c' ∧
      e.Asks c.clientId (.packet (openingPacket elsewhere)) ∧
      ∃ q, s.opens bareSite c.clientName elsewhere = some q ∧
        s.opens bareSite c'.clientName ['f'] = some q ∧
        s.folder? bareSite c'.clientName = some (bareSite.home ['b']) ∧
        Inside (bareSite.home ['b']) q ∧ ¬ s.Placed bareSite c q ∧
        s.disk.file q = none ∧ t.disk.file q = some [0] := by
  have hid : oneClientId.length = General.clientIdSize := rfl
  have hasks : (Event.delivered (sameDraws 3) oneClientId
      (.packet (openingPacket elsewhere))).Asks oneClientId
        (.packet (openingPacket elsewhere)) := by
    simp only [Event.Asks, Event.delivered, receive_request hid fits_elsewhere]
  refine ⟨twoClients, _, overwritten, reachable_twoClients,
    step_delivered reachable_twoClients.wellFormed (by decide) hid fits_elsewhere,
    newClient (sameDraws 1) ['a'], List.mem_cons_self, newClient (sameDraws 2) ['b'],
    List.mem_cons_of_mem _ List.mem_cons_self, by decide, hasks, bareSite.home ['b'] ++ [['f']],
    rfl, rfl, rfl, by decide, ?_, rfl, rfl⟩
  intro hplaced
  exact hplaced.2 (newClient (sameDraws 2) ['b']) (List.mem_cons_of_mem _ List.mem_cons_self)
    (by decide) (bareSite.home ['b']) rfl (List.prefix_append _ _)

theorem files_in_folders_one : ∃ c ∈ oneClient.clientsList, ∃ q q',
    oneClient.opens bareSite c.clientName ['f'] = some q ∧
    oneClient.opens bareSite c.clientName ['g'] = some q' ∧ oneClient.Placed bareSite c q ∧
    oneClient.Placed bareSite c q' ∧ q ≠ q' := by
  obtain ⟨hplaced, -, -, hproper⟩ := files_in_folders bareSite reachable_oneClient
  refine ⟨newClient (sameDraws 1) ['a'], List.mem_cons_self, bareSite.place ['a'] ['f'],
    bareSite.place ['a'] ['g'], rfl, rfl, ?_⟩
  generalize howner : newClient (sameDraws 1) ['a'] = owner
  have howns : owner ∈ oneClient.clientsList := howner ▸ List.mem_cons_self
  have hf : oneClient.opens bareSite owner.clientName ['f'] =
      some (bareSite.place ['a'] ['f']) := by
    rw [← howner]
    rfl
  have hg : oneClient.opens bareSite owner.clientName ['g'] =
      some (bareSite.place ['a'] ['g']) := by
    rw [← howner]
    rfl
  obtain ⟨hhomely, hbeyond⟩ := hproper (by decide) owner howns
  obtain ⟨hups, hf'⟩ := hbeyond ['f'] (by decide)
  obtain ⟨hups', hg'⟩ := hbeyond ['g'] (by decide)
  have hboth := (hplaced owner howns owner howns ['f'] ['g'] _ _ hf hg).mpr
    ⟨hhomely _ hups, hhomely _ hups', fun _ _ => by rw [hf', hg']; decide⟩
  exact ⟨hboth.1, hboth.2.1, hboth.2.2 fun heq => absurd (Prod.mk.inj heq).2 (by decide)⟩

end SecureTransfer
