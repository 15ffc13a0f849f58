import SecureTransfer.Service.Network

/-!
A visit over a line that garbles packets: their contents arrive changed, in the same length. The
client compares checksums and tries again, up to four times. Whatever arrives, it comes to its
end or gives up, and a verified record is left only of a file with the length and the checksum
of its own.
-/

open Octets (Text encodeUtf8)
open FileTree (Proper)
open Dialogue
open SecureTransfer.ClientSide (Files Toolkit packetCount packetMaxSize packetOf maxCiphertext slice
  packetOf_fits)

namespace SecureTransfer

def Garbles (data data' : Bytes) : Prop :=
  data' = data ∨ ∃ (id : Bytes) (p : Packet) (content : Bytes),
    id.length = General.clientIdSize ∧ p.Fits ∧ content.length = p.content.length ∧
      data = requestBytes id (.packet p) ∧
      data' = requestBytes id (.packet { p with content := content })

theorem dependable_garbles : Dependable Garbles := by
  intro id body data hid hfits hnot hgarbles
  obtain hsame | ⟨id', p, content, hid', hp, -, hbytes, -⟩ := hgarbles
  · exact hsame
  · have hpacket : (Body.packet p).Fits := hp
    obtain ⟨-, hbody, -⟩ := requestBytes_append_inj hid hfits hid' hpacket
      (congrArg (· ++ []) hbytes)
    exact absurd hbody (hnot p)

/-! The records of a client that tries again, and of one that has failed. -/

def Client.dropped (c : Client) (fileName : Text) : Client :=
  { c with filesList := c.filesList.filter fun f => f.fileName ≠ fileName }

theorem Client.unverified_opened (c : Client) (fileName : Text) {f : File}
    (hf : f ∈ (c.opened fileName).filesList) (hname : f.fileName = fileName) :
    f.validCrc = false := by
  simp only [Client.opened] at hf
  split at hf
  · obtain ⟨g, -, rfl⟩ := List.mem_map.mp hf
    split at hname
    · rename_i hg
      rw [if_pos hg]
    · rename_i hg
      exact absurd hname hg
  · rename_i hfind
    obtain hf | hf := List.mem_append.mp hf
    · exact absurd (decide_eq_true hname) (List.find?_eq_none.mp hfind f hf)
    · rw [List.mem_singleton.mp hf]

theorem Client.opened_opened (c : Client) (fileName : Text) :
    (c.opened fileName).opened fileName = c.opened fileName := by
  obtain ⟨file, hfind, -⟩ := c.find?_opened fileName
  have hsame : (c.opened fileName).filesList.map (fun f =>
      if f.fileName = fileName then { f with validCrc := false } else f) =
      (c.opened fileName).filesList := by
    refine (List.map_congr_left fun f hf => ?_).trans (List.map_id _)
    by_cases hname : f.fileName = fileName
    · rw [if_pos hname, ← c.unverified_opened fileName hf hname]
      rfl
    · rw [if_neg hname]
      rfl
  rw [Client.opened, hfind]
  simp only [hsame]

theorem Client.recorded_opened (c : Client) (fileName : Text) :
    (c.opened fileName).recorded fileName = c.recorded fileName := by
  rw [← c.verified_opened fileName, ← (c.opened fileName).verified_opened fileName, c.opened_opened]

theorem Client.dropped_opened (c : Client) (fileName : Text) :
    (c.opened fileName).dropped fileName = c.dropped fileName := by
  cases hfind : c.filesList.find? (·.fileName = fileName) with
  | none =>
      simp only [Client.dropped, Client.opened, hfind, List.filter_append]
      simp
  | some file =>
      have hkeep : ((fun f : File => decide (f.fileName ≠ fileName)) ∘ fun f : File =>
          if f.fileName = fileName then { f with validCrc := false } else f) =
          fun f => decide (f.fileName ≠ fileName) := by
        funext f
        simp only [Function.comp_apply]
        split
        · rfl
        · rfl
      simp only [Client.dropped, Client.opened, hfind, List.filter_map, hkeep]
      congr 1
      refine (List.map_congr_left fun f hf => ?_).trans (List.map_id _)
      have hname : f.fileName ≠ fileName := of_decide_eq_true (List.mem_filter.mp hf).2
      rw [if_neg hname]
      rfl

theorem Client.find?_dropped (c : Client) (fileName : Text) :
    (c.dropped fileName).filesList.find? (·.fileName = fileName) = none := by
  refine List.find?_eq_none.mpr fun f hf hname => ?_
  exact of_decide_eq_true (List.mem_filter.mp hf).2 (of_decide_eq_true hname)

/-! The verdicts on a file that does not agree. -/

section
variable {site : Site} {s : Server} {draws : Draws} {id : Bytes} {x : Estate} {fileName : Text}
  {file : File}

theorem serveVerdict_invalid (hx : s.estate site id = some x)
    (hfind : x.client.filesList.find? (·.fileName = fileName) = some file)
    (hcrc : file.validCrc = false) :
    Yields site id (serveVerdict site draws s id General.invalidCrcRequest901 fileName)
      (x, .silent) := by
  obtain ⟨c, hc, hxc⟩ := estate_eq_some.mp hx
  have hfiles : x.client.filesList = c.filesList := by
    rw [hxc]
    rfl
  have hunverified : ¬ file.validCrc = true := by rw [hcrc]; exact Bool.noConfusion
  have hnot900 : ¬ General.invalidCrcRequest901 = General.validCrcRequest900 := by decide
  have hnot902 : ¬ General.invalidCrcRequest901 = General.invalidCrc4thRequest902 := by decide
  rw [hfiles] at hfind
  simp only [serveVerdict, hc, hfind, if_neg hunverified, if_neg hnot900, if_neg hnot902]
  exact ⟨(estate_seen id).trans hx, rfl⟩

theorem serveVerdict_missing (hx : s.estate site id = some x)
    (hfind : x.client.filesList.find? (·.fileName = fileName) = none) (code : Nat) :
    Yields site id (serveVerdict site draws s id code fileName) (x, .rejected) := by
  obtain ⟨c, hc, hxc⟩ := estate_eq_some.mp hx
  have hfiles : x.client.filesList = c.filesList := by
    rw [hxc]
    rfl
  rw [hfiles] at hfind
  simp only [serveVerdict, hc, hfind]
  exact ⟨(estate_seen id).trans hx, rfl⟩

/-- The file and its record are gone, also if others have taken its row before and the request
is rejected. -/
theorem serveVerdict_4th (hs : WellFormed s) (hl : Layout site s) (hx : s.estate site id = some x)
    (hfind : x.client.filesList.find? (·.fileName = fileName) = some file)
    (hcrc : file.validCrc = false) {content : Bytes}
    (hcontent : x.contents fileName = some content) :
    ∃ reply, Yields site id
        (serveVerdict site draws s id General.invalidCrc4thRequest902 fileName)
        ((x.put fileName none).dropFile fileName, reply) ∧
      (reply = .answer (.thankYou id) ∨ reply = .rejected) := by
  obtain ⟨c, hc, hxc⟩ := estate_eq_some.mp hx
  obtain ⟨hmem, hid⟩ := Server.client?_eq_some hc
  have hfiles : x.client.filesList = c.filesList := by
    rw [hxc]
    rfl
  rw [hfiles] at hfind
  obtain ⟨hfile, rfl⟩ := find?_fileName_some hfind
  have hseen : (s.seen draws id).estate site id = some x := (estate_seen id).trans hx
  have hclient : (s.seen draws id).client? id = some { c with lastSeenDate := draws.now } :=
    client?_updateRow_self (fun _ => rfl) hc
  have hlocate := hl.locate_file (List.mem_map_of_mem hmem) (hl.files c hmem file hfile)
  rw [← (hs.owns c hmem file hfile).2] at hlocate
  have hold : s.disk.file (site.place c.clientName file.fileName) = some content := by
    rw [← hcontent, hxc]
  have hremove : (s.seen draws id).disk.remove site.cwd file.path =
      some ((s.seen draws id).disk.setFile (site.place c.clientName file.fileName) none) :=
    FileTree.remove_eq_some.mpr ⟨_, content, hlocate, hl.flat _ _, hold, rfl⟩
  have hunverified : ¬ file.validCrc = true := by rw [hcrc]; exact Bool.noConfusion
  have hnot900 : ¬ General.invalidCrc4thRequest902 = General.validCrcRequest900 := by decide
  have hserve : serveVerdict site draws s id General.invalidCrc4thRequest902 file.fileName =
      discardFile site (s.seen draws id) id file := by
    simp only [serveVerdict, hc, hfind, if_neg hunverified, if_neg hnot900, if_true]
  rw [hserve]
  refine ⟨_, ⟨?_, rfl⟩, ?_⟩
  · have hdiscard := @estate_discard site (s.seen draws id) id _ hclient file.fileName
    rw [discardFile_removed site hremove]
    rw [hseen, Option.map_some] at hdiscard
    exact hdiscard
  · simp only [discardFile, hremove]
    split
    · exact .inr rfl
    · exact .inl rfl

end

/-! The client. -/

section
variable {site : Site} {kit : Toolkit} {name : Text} {gone : Files → Server → Prop}
  {owner : Client} {contents : Text → Option Bytes} {fileName : Text} {plain encrypted : Bytes}
  {client : ClientSide.Client} {f : Files} {s : Server}

theorem Ready.opened (h : Ready site kit owner fileName plain client f) :
    Ready site kit (owner.opened fileName) fileName plain client f := { h with }

theorem Ready.verdict_fits (h : Ready site kit owner fileName plain client f) :
    (Body.verdict General.invalidCrc4thRequest902 fileName).Fits :=
  ⟨ClientSide.NameFits.mono h.fits (by decide), .inr (.inr rfl)⟩

/-- What comes of the packets is as long as they are. -/
theorem Ready.carries_garbles (hready : Ready site kit owner fileName plain client f)
    (hencrypted : encrypted = BlockMode.cbcEncrypt site.cipher owner.aesKey plain) :
    Carries Garbles owner.clientId encrypted plain fileName fun k bytes => k = 0 → bytes = [] where
  start bytes := ⟨fun h => h rfl, fun h _ => h⟩
  next k before data hk _ hgarbles := by
    have hlater : ∀ content : Bytes, k + 1 = 0 → before ++ content = [] :=
      fun _ h => absurd h (Nat.succ_ne_zero k)
    have hfits : (Body.packet (packetOf encrypted plain fileName k)).Fits :=
      packetOf_fits plain (hencrypted ▸ hready.size)
        (ClientSide.NameFits.mono hready.fits (by decide)) hk
    obtain rfl | ⟨id, p, content, hid, hp, hlength, hbytes, rfl⟩ := hgarbles
    · exact ⟨slice encrypted k, rfl, hlater _, rfl⟩
    · have hpacket : (Body.packet p).Fits := hp
      obtain ⟨rfl, hbody, -⟩ := requestBytes_append_inj hready.length_clientId hfits hid hpacket
        (congrArg (· ++ []) hbytes)
      obtain rfl := Body.packet.inj hbody
      exact ⟨content, hlength, hlater _, rfl⟩

/-- With the file in place `send_file` sends and then waits. -/
theorem Ready.patient (hready : Ready site kit owner fileName plain client f) (tries : Nat)
    {request : ClientSide.Request} (hrequest : request.Empty) :
    (ClientSide.sendFile kit client (tries + 1) request).Patient (machineOf site kit) f := by
  obtain ⟨next, hquery, hnext⟩ := hready.loads tries request
  obtain ⟨r', -, -, left, -, hpackets⟩ := hready.loaded rfl tries hrequest
  rw [hquery]
  refine .query fun r f' hr => ?_
  obtain ⟨rfl, hloaded⟩ := hnext r f' hr
  rw [hloaded, hpackets]
  exact Prog.Patient.sendAll (.recv (by decide))

/-- The request to delete the file is refused when its record is gone, until the client gives
up. -/
theorem completes_theEnd_refused {post : Unit → Files → Server → Prop}
    (hready : Ready site kit owner fileName plain client f) (hname : owner.clientName = name)
    (hgone : ∀ t, Has site t (owner.dropped fileName) contents → gone f t) (tries : Nat)
    {finish : ClientSide.Request}
    (hfailures : finish.numOfFailures + (tries + 1) = ClientSide.maxTries)
    (hmassage : finish.massage = requestBytes owner.clientId
      (.verdict General.invalidCrc4thRequest902 fileName))
    (hs : Has site s (owner.dropped fileName) contents) :
    Completes (service site name Garbles) (machineOf site kit) gone post
      (ClientSide.theEnd client (tries + 1) finish) f s (failureMessage false).bytes := by
  induction tries generalizing finish s with
  | zero =>
      refine completes_handled (@ClientSide.Handled.verdictFailed kit client 0 .new finish
        General.invalidCrc4thRequest902 fileName) ?_
      have hlast : ¬ finish.addFailure.numOfFailures ≠ ClientSide.maxTries :=
        not_not_intro hfailures
      simp only [ClientSide.generalErrorHandle, bind_assoc]
      rw [ClientSide.unlessExit_bind_neg hlast]
      exact .exit (hgone s hs)
  | succ tries ih =>
      refine completes_handled (@ClientSide.Handled.verdictFailed kit client (tries + 1) .new finish
        General.invalidCrc4thRequest902 fileName) ?_
      have hmore : finish.addFailure.numOfFailures ≠ ClientSide.maxTries := by
        simp only [ClientSide.Request.addFailure]
        omega
      simp only [ClientSide.generalErrorHandle, bind_assoc]
      rw [ClientSide.unlessExit_bind_pos hmore]
      have hsent : finish.addFailure.massage = requestBytes owner.clientId
        (.verdict General.invalidCrc4thRequest902 fileName) := hmassage
      change Completes _ _ _ _ (.send finish.addFailure.massage
        (ClientSide.theEnd client (tries + 1) finish.addFailure)) f s []
      rw [hsent]
      refine completes_exchange (I := fun t => Has site t (owner.dropped fileName) contents)
        (B := fun body => body = .verdict General.invalidCrc4thRequest902 fileName)
        (fun _ _ ht hothers => ht.others hname hothers) hs hready.length_clientId
        (fun data hdata => ⟨_, rfl, dependable_garbles _ _ _ hready.length_clientId
          hready.verdict_fits (fun _ => Body.noConfusion) hdata⟩) ?_ (.recv (by decide)) ?_
      · intro body hbody
        subst hbody
        exact ⟨hready.verdict_fits, trivial, fun t ht => ht.asked hname rfl⟩
      · intro t draws body ht hfresh _ hbody
        subst hbody
        have hplain : (Body.verdict General.invalidCrc4thRequest902 fileName).Plain := trivial
        obtain ⟨hnow, hanswer⟩ := ht.served hfresh hplain
          (serveVerdict_missing ht.estate (owner.find?_dropped fileName) _) rfl
        exact .inr ⟨.inl hanswer, ⟨_, _, by decide, rfl⟩, ih (by
          simp only [ClientSide.Request.addFailure]
          omega) hsent hnow⟩

/-- The request to delete the file, and `the_end`. -/
theorem completes_withdrawal (hready : Ready site kit owner fileName plain client f)
    (hname : owner.clientName = name) {content : Bytes}
    (hcontent : contents fileName = some content)
    (hgone : ∀ t, Has site t (owner.dropped fileName) (Function.update contents fileName none) →
      gone f t) {finish : ClientSide.Request} (hfailures : finish.numOfFailures = 0)
    (hmassage : finish.massage = requestBytes owner.clientId
      (.verdict General.invalidCrc4thRequest902 fileName))
    (hs : Has site s (owner.opened fileName) contents) :
    Completes (service site name Garbles) (machineOf site kit) gone
      (fun _ f' t => f' = f ∧
        Has site t (owner.dropped fileName) (Function.update contents fileName none))
      (.send finish.massage (ClientSide.theEnd client ClientSide.maxTries finish)) f s [] := by
  rw [hmassage]
  refine completes_exchange (I := fun t => Has site t (owner.opened fileName) contents)
    (B := fun body => body = .verdict General.invalidCrc4thRequest902 fileName)
    (fun _ _ ht hothers => ht.others hname hothers) hs hready.length_clientId
    (fun data hdata => ⟨_, rfl, dependable_garbles _ _ _ hready.length_clientId
      hready.verdict_fits (fun _ => Body.noConfusion) hdata⟩) ?_ (.recv (by decide)) ?_
  · intro body hbody
    subst hbody
    exact ⟨hready.verdict_fits, trivial, fun t ht => ht.asked hname rfl⟩
  · intro t draws body ht hfresh _ hbody
    subst hbody
    have hplain : (Body.verdict General.invalidCrc4thRequest902 fileName).Plain := trivial
    obtain ⟨file, hfind, hcrc⟩ := owner.find?_opened fileName
    obtain ⟨reply, hyields, hreply⟩ := @serveVerdict_4th site t draws owner.clientId _ fileName
      file ht.wellFormed ht.layout ht.estate hfind hcrc _ hcontent
    obtain ⟨hnow, hanswer⟩ := ht.served hfresh hplain hyields rfl
    have hdropped : Has site (serve site draws t owner.clientId
        (.verdict General.invalidCrc4thRequest902 fileName)).1 (owner.dropped fileName)
        (Function.update contents fileName none) := owner.dropped_opened fileName ▸ hnow
    obtain rfl | rfl := hreply
    · have hid : client.clientId.length = ClientSide.clientIdSize :=
        hready.clientId ▸ hready.length_clientId
      have hreading := ClientSide.reading_thankYou hid (hready.clientId ▸ hready.clientId_nul) 3
        finish []
      rw [List.append_nil, hready.clientId] at hreading
      exact .inl ⟨some (.thankYou owner.clientId), hanswer, .of_reading hreading
        (.ret ⟨rfl, hdropped⟩)⟩
    · exact .inr ⟨.inl hanswer, ⟨_, _, by decide, rfl⟩,
        completes_theEnd_refused hready hname hgone 3 (by rw [hfailures]) hmassage hdropped⟩

/-! One attempt after another. -/

/-- The file and its record are gone. -/
def Withdrawn (site : Site) (fileName : Text) (owner : Client) (contents : Text → Option Bytes)
    (t : Server) : Prop :=
  Has site t (owner.dropped fileName) (Function.update contents fileName none)

/-- The checksums agree, and the record says so; or the file is gone. -/
def Resolved (site : Site) (fileName : Text) (plain : Bytes) (owner : Client)
    (contents : Text → Option Bytes) (t : Server) : Prop :=
  (∃ content, content.length = plain.length ∧ Cksum.memcrc content = Cksum.memcrc plain ∧
    Has site t (owner.recorded fileName) (Function.update contents fileName (some content))) ∨
  Withdrawn site fileName owner contents t

/-- The record does not say that the checksums agree; or the file is gone. -/
def Abandoned (site : Site) (fileName : Text) (owner : Client) (contents : Text → Option Bytes)
    (t : Server) : Prop :=
  (∃ content, Has site t (owner.opened fileName)
    (Function.update contents fileName (some content))) ∨
  Withdrawn site fileName owner contents t

/-! A failed attempt makes no difference to how the next ones may end. -/

section
variable {t : Server} {content : Bytes}

theorem Withdrawn.of_opened (h : Withdrawn site fileName (owner.opened fileName)
    (Function.update contents fileName (some content)) t) :
    Withdrawn site fileName owner contents t := by
  rw [Withdrawn, owner.dropped_opened, Function.update_idem] at h
  exact h

theorem Resolved.of_opened (h : Resolved site fileName plain (owner.opened fileName)
    (Function.update contents fileName (some content)) t) :
    Resolved site fileName plain owner contents t := by
  obtain ⟨content', hlength, hcrc, hhas⟩ | hgone := h
  · rw [owner.recorded_opened, Function.update_idem] at hhas
    exact .inl ⟨content', hlength, hcrc, hhas⟩
  · exact .inr hgone.of_opened

theorem Abandoned.of_opened (h : Abandoned site fileName (owner.opened fileName)
    (Function.update contents fileName (some content)) t) :
    Abandoned site fileName owner contents t := by
  obtain ⟨content', hhas⟩ | hgone := h
  · rw [owner.opened_opened, Function.update_idem] at hhas
    exact .inl ⟨content', hhas⟩
  · exact .inr hgone.of_opened

end

/-- This program comes to a resolution or gives up. -/
abbrev Attempts (site : Site) (kit : Toolkit) (name fileName : Text) (plain : Bytes)
    (owner : Client) (contents : Text → Option Bytes) (f : Files) (p : ClientSide.Prog Unit)
    (s : Server) (unread : Bytes) : Prop :=
  Completes (service site name Garbles) (machineOf site kit)
    (fun f' t => f' = f ∧ Abandoned site fileName owner contents t)
    (fun _ f' t => f' = f ∧ Resolved site fileName plain owner contents t) p f s unread

section
variable {tries size : Nat} {request : ClientSide.Request}
  (hready : Ready site kit owner fileName plain client f) (hname : owner.clientName = name)
  (hrequest : request.clearPayload.Empty)
  (hfailures : request.numOfFailures + (tries + 1) = ClientSide.maxTries)
  (hagain : ∀ {r : ClientSide.Request} {t : Server} {content : Bytes}, r.Empty → 0 < tries →
    r.numOfFailures + tries = ClientSide.maxTries →
    Has site t (owner.opened fileName) (Function.update contents fileName (some content)) →
      Attempts site kit name fileName plain owner contents f
        (ClientSide.sendFile kit client tries r) t [])
include hrequest hfailures hagain

/-- The server could not decrypt what has come, or it has another length. -/
theorem attempts_refused {t : Server} {content : Bytes}
    (ht : Has site t (owner.opened fileName) (Function.update contents fileName (some content))) :
    Attempts site kit name fileName plain owner contents f
      (ClientSide.afterPackets kit client tries size request) t (failureMessage false).bytes := by
  have hreading := (@ClientSide.Handled.packetFailed kit client tries request .new
    (packetOf [] [] fileName 0) size).reading []
  rw [List.append_nil] at hreading
  refine .of_reading_bind hreading ?_
  simp only [ClientSide.generalErrorHandle, bind_assoc, pure_bind]
  cases tries with
  | zero =>
      have hlast : ¬ request.addFailure.numOfFailures ≠ ClientSide.maxTries :=
        not_not_intro hfailures
      rw [ClientSide.unlessExit_bind_neg hlast]
      exact .exit ⟨rfl, .inl ⟨content, ht⟩⟩
  | succ tries =>
      have hmore : request.addFailure.numOfFailures ≠ ClientSide.maxTries := by
        simp only [ClientSide.Request.addFailure]
        omega
      rw [ClientSide.unlessExit_bind_pos hmore]
      simp only [or_true, if_true]
      refine hagain ⟨hrequest.1, rfl⟩ (Nat.succ_pos tries) ?_ ht
      simp only [ClientSide.Request.clearPayload, ClientSide.Request.addFailure]
      omega

include hready hname

/-- The server has decrypted something of the right length. -/
theorem attempts_answered (hcrc : client.crcValue = Cksum.memcrc plain) (hsize : size < 2 ^ 31)
    {t : Server} {content : Bytes} (hlength : content.length = plain.length)
    (ht : Has site t (owner.opened fileName) (Function.update contents fileName (some content))) :
    Attempts site kit name fileName plain owner contents f
      (ClientSide.afterPackets kit client tries size request) t
      (Message.fileReceived owner.clientId size fileName (Cksum.memcrc content)).bytes := by
  by_cases hsame : Cksum.memcrc content = Cksum.memcrc plain
  · refine (completes_checking dependable_garbles hready hname (hcrc.trans hsame.symm) hsize tries
      request ht).mono fun _ f' t hdone => ?_
    exact ⟨hdone.1, .inl ⟨content, hlength, hsame, hdone.2⟩⟩
  refine .of_reading_bind (hready.reading_fileReceived hsize content request) ?_
  obtain ⟨finish, hnone, hmassage, hfinish⟩ := finishChecking_sends hready (Cksum.memcrc content)
    request fun result =>
      if result.1 = ClientSide.wrongCrcTryAgain901 ∨ result.1 = ClientSide.tryAgain then
        ClientSide.sendFile kit client tries result.2.1.clearPayload
      else ClientSide.theEnd client ClientSide.maxTries result.2.2
  have hwrong : client.crcValue ≠ Cksum.memcrc content := fun h => hsame (h.symm.trans hcrc)
  simp only [if_pos hwrong] at hmassage hfinish
  rw [hfinish]
  cases tries with
  | zero =>
      have hlast : request.addFailure.numOfFailures = ClientSide.maxTries := hfailures
      have hnot : ¬ (ClientSide.wrongCrc4th902 = ClientSide.wrongCrcTryAgain901 ∨
        ClientSide.wrongCrc4th902 = ClientSide.tryAgain) := by decide
      simp only [if_pos hlast] at hmassage ⊢
      rw [if_neg hnot]
      have hwithdrawn : ∀ t, Has site t (owner.dropped fileName) (Function.update
          (Function.update contents fileName (some content)) fileName none) →
          Withdrawn site fileName owner contents t := by
        intro t hhas
        rw [Function.update_idem] at hhas
        exact hhas
      refine (completes_withdrawal hready hname (Function.update_self _ _ _) (fun t hgone => ?_)
        hnone hmassage ht).mono fun _ f' t hdone => ?_
      · exact ⟨rfl, .inr (hwithdrawn t hgone)⟩
      · exact ⟨hdone.1, .inr (hwithdrawn t hdone.2)⟩
  | succ tries =>
      have hmore : request.addFailure.numOfFailures ≠ ClientSide.maxTries := by
        simp only [ClientSide.Request.addFailure]
        omega
      have hempty : request.addFailure.clearPayload.Empty := ⟨hrequest.1, rfl⟩
      have hfits : (Body.verdict General.invalidCrcRequest901 fileName).Fits :=
        ⟨ClientSide.NameFits.mono hready.fits (by decide), .inr (.inl rfl)⟩
      have hplain : (Body.verdict General.invalidCrcRequest901 fileName).Plain := trivial
      simp only [if_neg hmore, true_or, if_true] at hmassage ⊢
      rw [hmassage]
      refine completes_request (I := fun t => Has site t (owner.opened fileName)
          (Function.update contents fileName (some content)))
        (fun _ _ ht hothers => ht.others hname hothers) ht hready.length_clientId hfits hplain
        (fun data => dependable_garbles _ _ _ hready.length_clientId hfits fun _ =>
          Body.noConfusion)
        (fun t ht => ht.asked hname rfl) (hready.patient tries hempty)
        fun t draws ht hfresh _ => ?_
      obtain ⟨file, hfind, hcrc⟩ := owner.find?_opened fileName
      obtain ⟨hnow, hanswer⟩ :=
        ht.served hfresh hplain (serveVerdict_invalid ht.estate hfind hcrc) rfl
      refine ⟨none, hanswer, hagain hempty (Nat.succ_pos tries) ?_ hnow⟩
      simp only [ClientSide.Request.clearPayload, ClientSide.Request.addFailure]
      omega

end

/-- An attempt, if the next ones come to their end. -/
theorem attempts_once {tries : Nat} {request : ClientSide.Request}
    (hready : Ready site kit owner fileName plain client f) (hname : owner.clientName = name)
    (hrequest : request.Empty)
    (hfailures : request.numOfFailures + (tries + 1) = ClientSide.maxTries)
    (hagain : ∀ {r : ClientSide.Request} {t : Server} {content : Bytes}, r.Empty → 0 < tries →
      r.numOfFailures + tries = ClientSide.maxTries →
      Has site t (owner.opened fileName) (Function.update contents fileName (some content)) →
        Attempts site kit name fileName plain owner contents f
          (ClientSide.sendFile kit { client with
            crcValue := ClientCksum.memcrc kit.longWidth plain } tries r) t [])
    (hs : Has site s owner contents) :
    Attempts site kit name fileName plain owner contents f
      (ClientSide.sendFile kit client (tries + 1) request) s [] := by
  generalize hencrypted : BlockMode.cbcEncrypt site.cipher owner.aesKey plain = encrypted
  have hsender : Ready site kit owner fileName plain
      { client with crcValue := ClientCksum.memcrc kit.longWidth plain } f := { hready with }
  have hlength : encrypted.length < 2 ^ 31 := by
    have hsize := hready.size
    rw [hencrypted] at hsize
    simp only [maxCiphertext, packetMaxSize] at hsize
    omega
  refine completes_upload hready hname hencrypted.symm (hready.carries_garbles hencrypted.symm)
    tries hrequest (fun r' hr' hsame t bytes _ ht => ?_) hs
  rw [← hsame] at hfailures
  have hlistens : (ClientSide.afterPackets kit { client with
      crcValue := ClientCksum.memcrc kit.longWidth plain } tries encrypted.length r').Listens :=
    ⟨_, _, by decide, rfl⟩
  simp only [received] at ht ⊢
  cases hdecrypt : decryptContent site owner.aesKey bytes with
  | none =>
      simp only [hdecrypt] at ht ⊢
      exact .inr ⟨.inl rfl, hlistens, attempts_refused hr' hfailures hagain ht⟩
  | some content =>
      simp only [hdecrypt] at ht ⊢
      by_cases hsize : plain.length = content.length
      · rw [if_pos hsize]
        exact .inl ⟨some _, rfl, attempts_answered hsender hname hr' hfailures hagain
          (ClientCksum.memcrc_eq kit.longWidth_ge plain) hlength hsize.symm ht⟩
      · rw [if_neg hsize]
        exact .inr ⟨.inl rfl, hlistens, attempts_refused hr' hfailures hagain ht⟩

/-- `send_file`, with what is left of its tries. -/
theorem attempts_sendFile (tries : Nat) {request : ClientSide.Request}
    (hready : Ready site kit owner fileName plain client f) (hname : owner.clientName = name)
    (hrequest : request.Empty)
    (hfailures : request.numOfFailures + (tries + 1) = ClientSide.maxTries)
    (hs : Has site s owner contents) :
    Attempts site kit name fileName plain owner contents f
      (ClientSide.sendFile kit client (tries + 1) request) s [] := by
  induction tries generalizing owner contents client s request with
  | zero =>
      exact attempts_once hready hname hrequest hfailures
        (fun _ hmore => absurd hmore (Nat.lt_irrefl 0)) hs
  | succ tries ih =>
      refine attempts_once hready hname hrequest hfailures (fun hr _ hleft ht => ?_) hs
      have hsender : Ready site kit (owner.opened fileName) fileName plain
          { client with crcValue := ClientCksum.memcrc kit.longWidth plain } f := { hready with }
      refine (ih hsender hname hr hleft ht).mono_gone (fun f' t hgone => ?_) fun _ f' t hdone => ?_
      · exact ⟨hgone.1, hgone.2.of_opened⟩
      · exact ⟨hdone.1, hdone.2.of_opened⟩

end

theorem Errand.uploads_garbles {site : Site} {kit : Toolkit} (z : Errand site kit) :
    z.Uploads Garbles (Resolved site z.fileName z.plain) (Abandoned site z.fileName) :=
  fun hready hname hs => attempts_sendFile 3 hready hname ⟨rfl, rfl⟩ rfl hs

/-! The visit. -/

section
variable {site : Site} {name fileName : Text} {plain : Bytes} {owner : Client}
  {contents : Text → Option Bytes} {s t : Server} {wire : Bytes → Bytes → Prop}
  (howner : owner.clientName = name) (hothers : (service site name wire).others s t)
include howner hothers

theorem Withdrawn.others (h : Withdrawn site fileName owner contents s) :
    Withdrawn site fileName owner contents t := Has.others h howner hothers

theorem Resolved.others (h : Resolved site fileName plain owner contents s) :
    Resolved site fileName plain owner contents t := by
  obtain ⟨content, hlength, hcrc, hhas⟩ | hgone := h
  · exact .inl ⟨content, hlength, hcrc, hhas.others howner hothers⟩
  · exact .inr (hgone.others howner hothers)

theorem Abandoned.others (h : Abandoned site fileName owner contents s) :
    Abandoned site fileName owner contents t := by
  obtain ⟨content, hhas⟩ | hgone := h
  · exact .inl ⟨content, hhas.others howner hothers⟩
  · exact .inr (hgone.others howner hothers)

end

section
variable {site : Site} (m : Member site) (what : Client → (Text → Option Bytes) → Server → Prop)

/-- The client has got its AES key, and this holds of what it is to the server. -/
def Member.After (f : Files) (t : Server) : Prop :=
  match m.stage with
  | .first => m.errand.Enrolled what m.files f t
  | .later _ owner contents => owner.clientName = m.errand.name ∧
      Resumed owner contents what m.files f t

variable {m what}

theorem Member.After.others {f : Files} {s t : Server} (h : m.After what f s)
    (hwhat : ∀ owner contents, owner.clientName = m.errand.name → what owner contents s →
      what owner contents t) : m.After what f t := by
  rw [Member.After] at h ⊢
  split at h
  · obtain ⟨keys, id, aesKey, contents, hfiles, hworks, hid, hnul, hholds⟩ := h
    exact ⟨keys, id, aesKey, contents, hfiles, hworks, hid, hnul, hwhat _ _ rfl hholds⟩
  · obtain ⟨howner, hfiles, aesKey, hholds⟩ := h
    exact ⟨howner, hfiles, aesKey, hwhat _ _ howner hholds⟩

theorem completes_garbled {s : Server} (h : m.Begins s) (hs : WellFormed s) (hl : Layout site s) :
    Completes (service site m.errand.name Garbles) (machineOf site m.kit)
      (m.After (Abandoned site m.errand.fileName))
      (fun _ => m.After (Resolved site m.errand.fileName m.errand.plain))
      (ClientSide.main m.kit) m.files s [] := by
  rw [Member.Begins] at h
  split at h
  · rename_i hstage
    refine (completes_main_enrolled dependable_garbles m.errand.uploads_garbles m.given h.1
      ⟨hs, hl, h.2⟩).mono_gone (fun f t hgone => ?_) fun _ f t hdone => ?_
    · rw [Member.After, hstage]
      exact hgone
    · rw [Member.After, hstage]
      exact hdone
  · rename_i hstage
    obtain ⟨howner, hbase64, hacquainted⟩ := h
    refine (completes_main_resumed dependable_garbles m.errand.uploads_garbles howner hbase64
      m.given hacquainted).mono_gone (fun f t hgone => ?_) fun _ f t hdone => ?_
    · rw [Member.After, hstage]
      exact ⟨howner, hgone⟩
    · rw [Member.After, hstage]
      exact ⟨howner, hdone⟩

end

/-- Whatever comes of its packets, a client that is new or returns comes to its end, with the
checksums in agreement or the file deleted, or gives up, and then the file is not verified. -/
theorem garbled_visit_settles (site : Site) (m : Member site) (socket : Nat) :
    Settles site m.kit m.errand.name Garbles socket
      (fun x => x.Starts site m.kit socket m.files ∧ m.Begins x.loop.server)
      (m.After (Resolved site m.errand.fileName m.errand.plain))
      (m.After (Abandoned site m.errand.fileName)) := by
  refine settles_of_guided (fun _ s t h hothers => ?_) (fun _ s t h hothers => ?_) fun x hx => ?_
  · exact h.others fun _ _ howner hholds => hholds.others howner hothers
  · exact h.others fun _ _ howner hholds => hholds.others howner hothers
  · obtain ⟨hs, hl⟩ := plain_layout hx.1.server
    exact hx.1.guided (completes_garbled hx.2 hs hl)

/-- A packet that arrives as another one. -/
theorem garbles_letter : ∃ data data', Garbles data data' ∧ data ≠ data' := by
  have hfits : (packetOf [1] [97] ['f'] 0).Fits :=
    packetOf_fits [97] (by decide) ⟨by decide, by decide⟩ (by decide)
  have hfits' : (Body.packet (packetWith [1] [97] ['f'] 0 [2])).Fits := packetWith_fits hfits rfl
  have hpacket : (Body.packet (packetOf [1] [97] ['f'] 0)).Fits := hfits
  have hid : oneClientId.length = General.clientIdSize := rfl
  refine ⟨_, _, .inr ⟨oneClientId, _, [2], hid, hfits, rfl, rfl, rfl⟩, fun hsame => ?_⟩
  obtain ⟨-, hbody, -⟩ := requestBytes_append_inj hid hpacket hid hfits'
    (congrArg (· ++ []) hsame)
  exact absurd (congrArg Packet.content (Body.packet.inj hbody)) (by decide)

theorem garbled_visit_settles_letter :
    (∃ data data', Garbles data data' ∧ data ≠ data') ∧ ∃ contents,
    (∃ x : Visit, x.Starts letterSite letterTools 0 knownFiles ∧
      (memberA contents).Begins x.loop.server) ∧
    Settles letterSite letterTools ['a'] Garbles 0
      (fun x => x.Starts letterSite letterTools 0 knownFiles ∧
        (memberA contents).Begins x.loop.server)
      ((memberA contents).After (Resolved letterSite ['f'] [97]))
      ((memberA contents).After (Abandoned letterSite ['f'])) := by
  obtain ⟨contents, hacquainted⟩ := acquainted_knownServer
  refine ⟨garbles_letter, contents,
    ⟨⟨ClientSide.main letterTools, knownFiles, ⟨knownServer, [.accepted]⟩, 0⟩,
      ⟨rfl, rfl, rfl, rfl, reachable_knownServer⟩, rfl, base64_rsa, hacquainted⟩, ?_⟩
  exact garbled_visit_settles letterSite (memberA contents) 0

end SecureTransfer
