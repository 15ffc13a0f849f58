import SecureTransfer.Service.Plain
import SecureTransfer.Service.Delivery

/-!
What belongs to a client, in memory and in its folder, stays as it is while requests
of others are served.
-/

open Octets (Text)
open FileTree (Proper)
open Runs (System)

namespace SecureTransfer

/-- The client with its records, and the contents of its files by name. -/
def Server.holdings (site : Site) (s : Server) (id : Bytes) :
    Option (Client × (Text → Option Bytes)) :=
  (s.client? id).map fun c => (c.undated, fun f => s.disk.file (site.place c.clientName f))

section
variable {site : Site} {s t : Server} {id : Bytes}

/-- A change that leaves the client and its folder alone. -/
theorem holdings_congr {g : Client → Client} (hclient : t.client? id = (s.client? id).map g)
    (hundated : ∀ c ∈ s.clientsList, c.clientId = id → (g c).undated = c.undated)
    (hdisk : ∀ c ∈ s.clientsList, c.clientId = id → ∀ f,
      t.disk.file (site.place c.clientName f) = s.disk.file (site.place c.clientName f)) :
    t.holdings site id = s.holdings site id := by
  rw [Server.holdings, Server.holdings, hclient, Option.map_map]
  cases hc : s.client? id with
  | none => rfl
  | some c =>
      obtain ⟨hmem, hid⟩ := Server.client?_eq_some hc
      have hu := hundated c hmem hid
      have hname : (g c).clientName = c.clientName := by
        change (g c).undated.clientName = c.undated.clientName
        rw [hu]
      simp only [Option.map_some, Function.comp_apply, hu, hname]
      congr 2
      funext f
      exact hdisk c hmem hid f

theorem holdings_updateRow {clientId : Bytes} {f : ClientRow → ClientRow}
    (hid : ∀ r, (f r).clientId = r.clientId)
    (hf : ∀ r, clientId = id → (f r).undated = r.undated) :
    (s.updateRow clientId f).holdings site id = s.holdings site id := by
  refine holdings_congr (Keyed.find?_map (fun c : Client => c.clientId) ?_ _ id) ?_
    fun _ _ _ _ => rfl
  · intro c
    split
    · exact hid _
    · rfl
  · intro c _ hc
    split
    · rename_i he
      rw [Client.undated, hf _ (he.symm.trans hc)]
      rfl
    · rfl

theorem holdings_updateFiles {clientId : Bytes} {f : List File → List File}
    (hne : clientId ≠ id) : (s.updateFiles clientId f).holdings site id = s.holdings site id := by
  refine holdings_congr (Keyed.find?_map (fun c : Client => c.clientId) ?_ _ id) ?_
    fun _ _ _ _ => rfl
  · intro c
    split <;> rfl
  · intro c _ hc
    rw [if_neg fun he => hne (he.symm.trans hc)]

/-- A change of a file in the folder of another client. -/
theorem holdings_setFile (hs : WellFormed s) {c : Client} (hc : c ∈ s.clientsList)
    (hne : c.clientId ≠ id) (fileName : Text) (content : Option Bytes) :
    ({ s with disk := s.disk.setFile (site.place c.clientName fileName) content } :
      Server).holdings site id = s.holdings site id := by
  refine holdings_congr (g := fun c => c) Option.map_id'.symm (fun _ _ _ => rfl) ?_
  intro c' hc' hid f
  apply FileTree.setFile_file_of_ne
  rw [Ne, Site.place_inj, not_and]
  intro hname
  obtain rfl := Keyed.eq_of_key_eq (fun x : Client => x.clientName) hs.namesDistinct hc' hc hname
  exact absurd hid hne

theorem Update.mem_ids {draws : Draws} {clientId : Bytes} {body : Body}
    (h : Update site draws clientId body s t) (hid : id ∈ s.ids) : id ∈ t.ids := by
  cases h with
  | seen => rwa [Server.ids_seen]
  | publicKey => rwa [Server.ids_withPublicKey]
  | aesKey => rwa [Server.ids_withAesKey]
  | write _ _ _ _ => exact hid
  | flag _ _ _ _ => rwa [Server.ids_flagFile]
  | record _ _ _ _ _ => rwa [Server.ids_addFile]
  | discard _ _ _ _ _ _ => rwa [Server.ids_dropFile]
  | register _ _ _ _ =>
      rw [Server.ids, Server.addClient, List.map_append]
      exact List.mem_append_left _ hid

/-- A request of one client leaves what belongs to another. -/
theorem Update.holdings (hs : WellFormed s) (hl : Layout site s) {draws : Draws}
    {clientId : Bytes} {body : Body} (hplain : body.Plain)
    (h : Update site draws clientId body s t) (hne : clientId ≠ id) (hid : id ∈ s.ids) :
    t.holdings site id = s.holdings site id := by
  cases h with
  | seen => exact holdings_updateRow (fun _ => rfl) fun _ _ => rfl
  | publicKey => exact holdings_updateRow (fun _ => rfl) fun _ he => absurd he hne
  | aesKey => exact holdings_updateRow (fun _ => rfl) fun _ he => absurd he hne
  | write hc hcid hbody hstore =>
      subst hbody
      rw [hl.store_eq (List.mem_map_of_mem hc) hplain] at hstore
      obtain rfl := Option.some.inj hstore
      exact holdings_setFile hs hc (hcid ▸ hne) _ _
  | flag hc hcid hfile hby => exact holdings_updateFiles hne
  | @record c p hc hcid hbody hfirst hnew =>
      have h : (s.updateFiles c.clientId
          (· ++ [⟨c.clientId, p.fileName, filePath c.clientName p.fileName, false⟩])).holdings
            site id = s.holdings site id := holdings_updateFiles (hcid ▸ hne)
      exact h
  | @discard c file disk hc hcid hfile hbody hcrc hremove =>
      obtain ⟨q, old, hq, -, -, rfl⟩ := FileTree.remove_eq_some.mp hremove
      rw [hl.locate_file (List.mem_map_of_mem hc) (hl.files c hc file hfile)] at hq
      obtain rfl := Option.some.inj hq
      exact (holdings_updateFiles hne).trans (holdings_setFile hs hc (hcid ▸ hne) _ _)
  | register hbody hname hfresh hdir =>
      subst hbody
      obtain ⟨hfile, -⟩ := hl.ensureDir_home hplain hdir
      refine holdings_congr (g := fun c => c) ?_ (fun _ _ _ => rfl)
        fun c _ _ f => congrFun hfile _
      rw [Option.map_id']
      obtain ⟨c, hc, rfl⟩ := List.mem_map.mp hid
      have hfind := Server.client?_of_mem hs.idsDistinct hc
      rw [hfind, Server.client?, Server.addClient, List.find?_append]
      exact congrArg (fun o => Option.or o _) hfind

end

/-- The callback for anything but a request of this client leaves what belongs to it. -/
theorem next_holdings {site : Site} {draws : Draws} {s : Server} (hs : WellFormed s)
    (hl : Layout site s) (hfresh : draws.uuid ∉ s.ids) {r : Reception} {id : Bytes}
    (hplain : ∀ clientId body, r.incoming = .request clientId body → body.Plain)
    (hforeign : ∀ body, r.incoming ≠ .request id body) (hid : id ∈ s.ids) :
    (r.next site draws s).holdings site id = s.holdings site id ∧
      id ∈ (r.next site draws s).ids := by
  have h : Layout site (r.next site draws s) ∧ id ∈ (r.next site draws s).ids ∧
      (r.next site draws s).holdings site id = s.holdings site id := by
    refine next_invariant (I := fun t => Layout site t ∧ id ∈ t.ids ∧
      t.holdings site id = s.holdings site id) site draws r hs hfresh ?_ ⟨hl, hid, rfl⟩
    rintro clientId body hr t u ht ⟨hlt, hidt, hholds⟩ hupd
    have hne : clientId ≠ id := by
      rintro rfl
      exact hforeign body hr
    exact ⟨hlt.update (hplain _ _ hr) hupd, hupd.mem_ids hidt,
      (hupd.holdings ht hlt (hplain _ _ hr) hne hidt).trans hholds⟩
  exact ⟨h.2.2, h.2.1⟩

end SecureTransfer
