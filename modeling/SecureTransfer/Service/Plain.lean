import SecureTransfer.Service.Runs

/-!
Runs in which every name is one component of a path: the folder of a client is a
directory next to those of the others, and its files are directly in it.
-/

open Octets (Text)
open FileTree (Proper)
open Runs (System)

namespace SecureTransfer

/-- A new client and an uploaded file have proper names. -/
def Body.Plain : Body → Prop
  | .registration name => Proper name
  | .packet p => Proper p.fileName
  | _ => True

def Event.Plain : Event → Prop
  | .callback _ c => ∀ id body, (receive c).incoming = .request id body → body.Plain
  | .restart => True

def plainRuns (site : Site) : System Server Event :=
  (serverRuns site).guard fun _ e => e.Plain

namespace Site

variable (site : Site)

def home (name : Text) : Location := site.cwd ++ [General.folder, name]

def place (name fileName : Text) : Location := site.cwd ++ [General.folder, name, fileName]

variable {site}

theorem home_inj {a b : Text} : site.home a = site.home b ↔ a = b := by
  simp [home]

theorem place_inj {a b f g : Text} : site.place a f = site.place b g ↔ a = b ∧ f = g := by
  simp [place]

theorem place_ne_home {a b f : Text} : site.place a f ≠ site.home b := by
  intro h
  have := congrArg List.length h
  simp [place, home] at this

end Site

/-- The disk as plain names leave it. -/
structure Layout (site : Site) (s : Server) : Prop where
  housed : Housed site s
  names : ∀ name ∈ s.names, Proper name
  files : ∀ c ∈ s.clientsList, ∀ f ∈ c.filesList, Proper f.fileName
  homes : ∀ name ∈ s.names, s.disk.isDir (site.home name)
  flat : ∀ name fileName, s.disk.isDir (site.place name fileName) = false
  foldersOnly : ∀ name, s.disk.file (site.home name) = none

theorem proper_folder : Proper General.folder := by decide

namespace Layout

variable {site : Site} {s : Server}

theorem locate_file (h : Layout site s) {name fileName : Text} (hname : name ∈ s.names)
    (hfile : Proper fileName) :
    s.disk.locate site.cwd (filePath name fileName) = some (site.place name fileName) :=
  FileTree.locate_three proper_folder (h.names name hname) hfile
    (h.housed.rooted _ (List.prefix_refl _)) h.housed.folder (h.homes name hname)

theorem locate_home (h : Layout site s) {name : Text} (hname : Proper name) :
    s.disk.locate site.cwd (clientFolder name) = some (site.home name) :=
  FileTree.locate_two proper_folder hname (h.housed.rooted _ (List.prefix_refl _)) h.housed.folder

theorem store_eq (h : Layout site s) {name fileName : Text} (hname : name ∈ s.names)
    (hfile : Proper fileName) (truncate : Bool) (content : Bytes) :
    s.disk.store site.cwd (filePath name fileName) truncate content =
      some (s.disk.setFile (site.place name fileName)
        (some ((if truncate then [] else (s.disk.file (site.place name fileName)).getD []) ++
          content))) :=
  FileTree.store_eq_some.mpr ⟨_, h.locate_file hname hfile, h.flat _ _, rfl⟩

theorem readFile_eq (h : Layout site s) {name fileName : Text} (hname : name ∈ s.names)
    (hfile : Proper fileName) : s.disk.readFile site.cwd (filePath name fileName) =
      s.disk.file (site.place name fileName) := by
  rw [FileTree.readFile, h.locate_file hname hfile]
  simp only [h.flat, Bool.false_eq_true, if_false]

/-- Making the folder of a client whose name is proper changes nothing else. -/
theorem ensureDir_home (h : Layout site s) {name : Text} (hname : Proper name)
    {disk : FileTree} (hdir : ensureDir site (clientFolder name) s.disk = some disk) :
    disk.file = s.disk.file ∧ disk.isDir (site.home name) ∧
      ∀ q, q ≠ site.home name → disk.isDir q = s.disk.isDir q := by
  have hlocate := h.locate_home hname
  have htrim : (clientFolder name).rdropWhile (· == '/') = clientFolder name := by
    have h := FileTree.rdropWhile_proper hname (General.folder ++ ['/'])
    rwa [List.append_assoc] at h
  rw [ensureDir] at hdir
  split at hdir
  · rename_i hexists
    obtain rfl := Option.some.inj hdir
    refine ⟨rfl, ?_, fun _ _ => rfl⟩
    rw [FileTree.pathExists, hlocate] at hexists
    simpa [FileTree.occupied, h.foldersOnly] using hexists
  · obtain ⟨q, hq, -, rfl⟩ := FileTree.mkdir_eq_some.mp hdir
    rw [htrim, hlocate] at hq
    obtain rfl := Option.some.inj hq
    exact ⟨rfl, by simp, fun q hne => by simp [hne]⟩

/-- Files come and go in the folders, and nothing else changes. -/
theorem mono (h : Layout site s) {t : Server} (hhoused : Housed site t)
    (hdir : t.disk.isDir = s.disk.isDir) (hnames : t.names = s.names)
    (hfiles : ∀ c ∈ t.clientsList, ∀ f ∈ c.filesList, Proper f.fileName)
    (hfolders : ∀ name, t.disk.file (site.home name) = s.disk.file (site.home name)) :
    Layout site t where
  housed := hhoused
  names := hnames ▸ h.names
  files := hfiles
  homes := by
    rw [hdir, hnames]
    exact h.homes
  flat := by
    rw [hdir]
    exact h.flat
  foldersOnly := fun name => (hfolders name).trans (h.foldersOnly name)

theorem files_updateRow (h : Layout site s) {clientId : Bytes} {f : ClientRow → ClientRow} :
    ∀ c ∈ (s.updateRow clientId f).clientsList, ∀ file ∈ c.filesList, Proper file.fileName := by
  intro c' hc'
  obtain ⟨c, hc, rfl⟩ := Server.mem_updateRow.mp hc'
  split <;> exact h.files c hc

theorem files_updateFiles (h : Layout site s) {clientId : Bytes} {f : List File → List File}
    (hf : ∀ c ∈ s.clientsList, ∀ file ∈ f c.filesList, Proper file.fileName) :
    ∀ c ∈ (s.updateFiles clientId f).clientsList, ∀ file ∈ c.filesList, Proper file.fileName := by
  intro c' hc'
  obtain ⟨c, hc, rfl⟩ := Server.mem_updateFiles.mp hc'
  split
  · exact hf c hc
  · exact h.files c hc

theorem update (h : Layout site s) {draws : Draws} {clientId : Bytes} {body : Body} {t : Server}
    (hplain : body.Plain) (hupd : Update site draws clientId body s t) : Layout site t := by
  have hhoused := hupd.housed h.housed
  cases hupd with
  | seen =>
      exact h.mono hhoused rfl (Server.names_seen draws) h.files_updateRow fun _ => rfl
  | publicKey =>
      exact h.mono hhoused rfl (Server.names_withPublicKey _) h.files_updateRow fun _ => rfl
  | aesKey =>
      exact h.mono hhoused rfl (Server.names_withAesKey _) h.files_updateRow fun _ => rfl
  | write hc hid hbody hstore =>
      subst hbody
      rw [h.store_eq (List.mem_map_of_mem hc) hplain] at hstore
      obtain rfl := Option.some.inj hstore
      exact h.mono hhoused rfl rfl h.files fun name =>
        FileTree.setFile_file_of_ne _ _ Site.place_ne_home.symm
  | flag hc hid hfile hby =>
      refine h.mono hhoused rfl (Server.names_flagFile _ _) (h.files_updateFiles ?_) fun _ => rfl
      intro c hc g hg
      obtain ⟨f, hf, rfl⟩ := List.mem_map.mp hg
      split <;> exact h.files c hc f hf
  | @record c p hc hid hbody hfirst hnew =>
      subst hbody
      let file : File := ⟨c.clientId, p.fileName, filePath c.clientName p.fileName, false⟩
      have hfiles : ∀ c' ∈ s.clientsList, ∀ g ∈ c'.filesList ++ [file], Proper g.fileName := by
        intro c' hc' g hg
        rcases List.mem_append.mp hg with hg | hg
        · exact h.files c' hc' g hg
        · obtain rfl := List.mem_singleton.mp hg
          exact hplain
      exact h.mono hhoused rfl (Server.names_addFile _)
        (@files_updateFiles _ _ h c.clientId (· ++ [file]) hfiles) fun _ => rfl
  | @discard c file disk hc hid hfile hbody hcrc hremove =>
      obtain ⟨q, old, hq, -, -, rfl⟩ := FileTree.remove_eq_some.mp hremove
      rw [h.locate_file (List.mem_map_of_mem hc) (h.files c hc file hfile)] at hq
      obtain rfl := Option.some.inj hq
      refine h.mono hhoused rfl (Server.names_dropFile _) (h.files_updateFiles ?_) fun name =>
        FileTree.setFile_file_of_ne _ _ Site.place_ne_home.symm
      intro c hc g hg
      exact h.files c hc g (List.mem_of_mem_filter hg)
  | @register name disk hbody hname hfresh hdir =>
      subst hbody
      obtain ⟨hfile, hhome, hother⟩ := h.ensureDir_home hplain hdir
      have hnames : (({ s with disk := disk } : Server).addClient
          (newClient draws name)).names = s.names ++ [name] := by
        simp [Server.names, Server.addClient, newClient]
      constructor
      · exact hhoused
      · intro n hn
        rw [hnames] at hn
        rcases List.mem_append.mp hn with hn | hn
        · exact h.names n hn
        · obtain rfl := List.mem_singleton.mp hn
          exact hplain
      · intro c hc
        rcases List.mem_append.mp hc with hc | hc
        · exact h.files c hc
        · obtain rfl := List.mem_singleton.mp hc
          intro f hf
          cases hf
      · intro n hn
        rw [hnames] at hn
        rcases List.mem_append.mp hn with hn | hn
        · exact ensureDir_isDir hdir _ (h.homes n hn)
        · obtain rfl := List.mem_singleton.mp hn
          exact hhome
      · intro n f
        exact (hother _ Site.place_ne_home).trans (h.flat n f)
      · intro n
        exact (congrFun hfile _).trans (h.foldersOnly n)

theorem restarted (h : Layout site s) (hs : WellFormed s) {t : Server}
    (ht : Restarted site s t) : Layout site t := by
  have hdb : t.db = s.db := by rw [ht.db, if_pos hs.hasTables]
  have hdisk : t.disk = s.disk := by
    apply ht.kept
    · intro row hrow
      rw [hdb, hs.rows] at hrow
      obtain ⟨c, hc, rfl⟩ := List.mem_map.mp hrow
      have hname : c.clientName ∈ s.names := List.mem_map_of_mem hc
      rw [FileTree.pathExists, h.locate_home (h.names _ hname)]
      simp [FileTree.occupied, h.homes _ hname]
    · rw [FileTree.pathExists, locate_folder (h.housed.rooted _ (List.prefix_refl _))]
      simp [FileTree.occupied, h.housed.folder]
  refine h.mono (ht.housed hs h.housed) (by rw [hdisk]) (ht.names hs) ?_ fun _ => by rw [hdisk]
  intro c hc f hf
  rw [ht.clientsList, rebuilt, hdb] at hc
  obtain ⟨row, hrow, rfl⟩ := List.mem_map.mp hc
  obtain ⟨c', hc', -, g, hg, hname, -⟩ := hs.backed f (List.mem_filter.mp hf).1
  rw [← hname]
  exact h.files c' hc' g hg

theorem start {s₀ : Server} (h₀ : Untouched site s₀) (h : dataBaseHandle site s₀ = some s) :
    Layout site s := by
  have hhoused := start_housed h₀ h
  obtain ⟨hclients, -, -, hdisk⟩ := start_some h₀ h
  constructor
  · exact hhoused
  · simp [Server.names, hclients]
  · simp [hclients]
  · simp [Server.names, hclients]
  · intro name fileName
    have hne : site.place name fileName ≠ site.cwd ++ [General.folder] := by simp [Site.place]
    simp only [hdisk, Function.update_of_ne hne]
    exact h₀.noDirs [name, fileName]
  · intro name
    rw [hdisk]
    exact h₀.noFiles [name]

end Layout

/-- Plain requests keep the layout. -/
theorem next_layout {site : Site} {draws : Draws} {s : Server} (hs : WellFormed s)
    (h : Layout site s) (hfresh : draws.uuid ∉ s.ids) {r : Reception}
    (hplain : ∀ id body, r.incoming = .request id body → body.Plain) :
    Layout site (r.next site draws s) :=
  next_invariant site draws r hs hfresh
    (fun id body hr _ _ _ hlayout hupd => hlayout.update (hplain id body hr) hupd) h

theorem step_layout {site : Site} {s t : Server} {e : Event} (hs : WellFormed s)
    (h : Layout site s) (hstep : (serverRuns site).step s e t) (hplain : e.Plain) :
    Layout site t := by
  apply step_invariant hs hstep
  · intro draws c he hfresh
    subst he
    exact next_layout hs h hfresh hplain
  · intro _ t ht
    exact h.restarted hs ht

theorem plain_layout {site : Site} {s : Server} (h : (plainRuns site).Reachable s) :
    WellFormed s ∧ Layout site s := by
  refine System.Reachable.invariant (I := fun s => WellFormed s ∧ Layout site s) ?_ ?_ h
  · intro s hinit
    obtain ⟨s₀, h₀, hstart⟩ := hinit
    exact ⟨start_wellFormed h₀ hstart, .start h₀ hstart⟩
  · intro s e t hst hstep
    exact ⟨step_wellFormed hst.1 hstep.1, step_layout hst.1 hst.2 hstep.1 hstep.2⟩

end SecureTransfer
