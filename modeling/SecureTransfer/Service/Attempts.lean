import SecureTransfer.Client.Sizes
import SecureTransfer.Service.Delivery
import SecureTransfer.Service.Faults

/-!
One attempt of `send_file` over one connection. The client sends all packets before it reads
one answer; a packet that fails is answered and what has arrived behind it is dropped, but
not what is still to arrive.
-/

open Octets (Text)
open Effects Act
open Runs (System)
open SecureTransfer.ClientSide (uploadPackets packetBytes packetMaxSize)

namespace SecureTransfer

/-- The server, the connection of the client and its requests that have not arrived yet. -/
structure Attempt where
  server : Server
  conn : Conn
  coming : List Bytes

/-- A request arrives, a callback serves another connection, or the connection of the client. -/
inductive Attempt.Event where
  | arrive
  | other (draws : Draws) (conn : Conn) (faults : List Bool)
  | callback (draws : Draws) (faults : List Bool)

namespace Attempt

/-- The callback runs when there are unread bytes. -/
def next (site : Site) (u : Attempt) : Attempt.Event → Option Attempt
  | .arrive =>
      match u.coming with
      | [] => none
      | request :: coming =>
          some { u with conn := u.conn.withAvail (u.conn.avail ++ request), coming := coming }
  | .other draws conn faults =>
      some { u with server := ((read site draws).run ⟨u.server, conn, faults⟩).2.server }
  | .callback draws faults =>
      if u.conn.avail = [] then none
      else
        let w := ((read site draws).run ⟨u.server, u.conn, faults⟩).2
        some { u with server := w.server, conn := w.conn }

/-- All packets have arrived and none is left to be handled. -/
def Over (u : Attempt) : Prop := u.coming = [] ∧ u.conn.avail = []

/-- Of the handlers for this client only that of an 828 may raise. -/
def OnlyUploadsFail (site : Site) (u : Attempt) (e : Attempt.Event) : Prop :=
  ∀ draws faults, e = .callback draws faults → Raises site draws ⟨u.server, u.conn, faults⟩ →
    ∃ r c, Request.getHeader.run u.conn = (.done (some r), c) ∧
      r.code = General.sendFileRequest828

/-- A handler raises only when no packet is left to arrive. -/
def FailsLast (site : Site) (u : Attempt) (e : Attempt.Event) : Prop :=
  ∀ draws faults, e = .callback draws faults →
    Raises site draws ⟨u.server, u.conn, faults⟩ → u.coming = []

end Attempt

/-- Attempts with the packets of `send_file`, from a connection without unread bytes. -/
def attemptRuns (site : Site) : System Attempt Attempt.Event where
  init u := u.conn.avail = [] ∧ u.conn.sendsLeft = none
  step u e v := u.next site e = some v

/-- What the client writes for one attempt. -/
inductive Sent where
  | notice (fileName : Bytes)
  | packet (p : RawPacket)

namespace Sent

def bytes (clientId : Bytes) : Sent → Bytes
  | .notice fileName => noticeBytes clientId fileName
  | .packet p => p.bytes clientId

def Fits : Sent → Prop
  | .notice fileName => fileName.length ≤ General.fileNameSize
  | .packet p => p.Fits

/-- The answers of a handler that does not raise. -/
def answers : Sent → List Answer
  | .notice _ => []
  | .packet p => if p.packetNumber = p.totalPackets then [crcAnswer] else []

end Sent

theorem Sent.read (site : Site) (draws : Draws) {clientId : Bytes}
    (hid : clientId.length = General.clientIdSize) {x : Sent} (hx : x.Fits) {w : World}
    {conn : Conn} {rest : Bytes} (hw : w.conn = conn.withAvail (x.bytes clientId ++ rest))
    (hstays : conn.sendsLeft = none) :
    (¬ Raises site draws w ∧
        (conn.withAvail rest).Answered x.answers ((read site draws).run w).2.conn) ∨
      Raises site draws w ∧
        ((read site draws).run w).2.conn = conn.cleaned.told (failureMessage false) := by
  cases x with
  | notice fileName => exact read_notice site draws hid hx hw hstays
  | packet p => exact read_raw site draws hid hx hw hstays

/-- Of these the last one is answered and no other. -/
inductive Series : List Sent → Prop where
  | last {x : Sent} (hfits : x.Fits) (hlast : x.answers = [crcAnswer]) : Series [x]
  | cons {x : Sent} {xs : List Sent} (hfits : x.Fits) (hmore : x.answers = [])
      (hxs : Series xs) : Series (x :: xs)

namespace Series

variable {xs ys : List Sent}

theorem ne_nil (h : Series xs) : xs ≠ [] := by
  cases h with
  | last _ _ => exact List.cons_ne_nil _ _
  | cons _ _ _ => exact List.cons_ne_nil _ _

theorem fits {x : Sent} (h : Series (x :: xs)) : x.Fits := by
  cases h with
  | last hfits _ => exact hfits
  | cons hfits _ _ => exact hfits

theorem append_left (h : Series (xs ++ ys)) (hys : ys ≠ []) : Series ys := by
  induction xs with
  | nil => exact h
  | cons x xs ih =>
      generalize hall : x :: xs ++ ys = all at h
      cases h with
      | last _ _ =>
          have hnone := (List.cons.inj hall).2
          exact absurd (List.append_eq_nil_iff.mp hnone).2 hys
      | cons _ _ hrest =>
          obtain ⟨rfl, rfl⟩ := List.cons.inj hall
          exact ih hrest

end Series

/-- These requests are unread or coming. -/
structure Attempt.Left (clientId : Bytes) (left : List Sent) (u : Attempt) : Prop where
  stays : u.conn.sendsLeft = none
  split : ∃ unread later, left = unread ++ later ∧
    u.conn.avail = (unread.map (Sent.bytes clientId)).flatten ∧
    u.coming = later.map (Sent.bytes clientId)

namespace Attempt

variable {site : Site} {clientId : Bytes} {left : List Sent} {u v : Attempt}

theorem next_unique {e : Attempt.Event} (h : (attemptRuns site).step u e v) :
    ∀ v', (attemptRuns site).step u e v' → v' = v :=
  fun _ h' => Option.some.inj (h'.symm.trans h)

theorem bytes_ne_nil (hid : clientId.length = General.clientIdSize) (x : Sent) :
    x.bytes clientId ≠ [] := by
  intro h
  have hlen := congrArg List.length h
  cases x with
  | notice fileName =>
      simp only [Sent.bytes, noticeBytes, frame, List.length_append, hid, General.clientIdSize,
        List.length_nil] at hlen
      omega
  | packet p =>
      simp only [Sent.bytes, RawPacket.bytes, packetBytes, frame, List.length_append, hid,
        General.clientIdSize, List.length_nil] at hlen
      omega

theorem flatten_eq_nil (hid : clientId.length = General.clientIdSize) {xs : List Sent}
    (h : (xs.map (Sent.bytes clientId)).flatten = []) : xs = [] := by
  cases xs with
  | nil => rfl
  | cons x xs =>
      rw [List.map_cons, List.flatten_cons] at h
      exact absurd (List.append_eq_nil_iff.mp h).1 (bytes_ne_nil hid x)

/-- At the end nothing is left. -/
theorem Left.over (h : u.Left clientId left) (hid : clientId.length = General.clientIdSize)
    (hover : u.Over) : left = [] := by
  obtain ⟨unread, later, rfl, havail, hcoming⟩ := h.split
  have hunread := flatten_eq_nil hid (havail.symm.trans hover.2)
  have hlater := List.map_eq_nil_iff.mp (hcoming.symm.trans hover.1)
  rw [hunread, hlater, List.append_nil]

theorem Left.arrive (h : u.Left clientId left) (hstep : (attemptRuns site).step u .arrive v) :
    v.Left clientId left ∧ v.conn.answers = u.conn.answers := by
  obtain ⟨unread, later, hleft, havail, hcoming⟩ := h.split
  simp only [attemptRuns, next] at hstep
  split at hstep
  · cases hstep
  · rename_i packet coming hpacket
    obtain rfl := Option.some.inj hstep
    cases later with
    | nil =>
        rw [hcoming] at hpacket
        cases hpacket
    | cons p later =>
        rw [hcoming, List.map_cons] at hpacket
        obtain ⟨rfl, rfl⟩ := List.cons.inj hpacket
        refine ⟨⟨h.stays, unread ++ [p], later, ?_, ?_, rfl⟩, rfl⟩
        · rw [hleft, List.append_assoc]
          rfl
        · rw [List.map_append, List.flatten_append, ← havail]
          simp [Conn.withAvail]

theorem Left.other (h : u.Left clientId left) {draws : Draws} {conn : Conn} {faults : List Bool}
    (hstep : (attemptRuns site).step u (.other draws conn faults) v) :
    v.Left clientId left ∧ v.conn.answers = u.conn.answers := by
  obtain rfl := Option.some.inj hstep
  exact ⟨⟨h.stays, h.split⟩, rfl⟩

theorem callback_eq {draws : Draws} {faults : List Bool}
    (hstep : (attemptRuns site).step u (.callback draws faults) v) : u.conn.avail ≠ [] ∧
      v = { u with
        server := ((read site draws).run ⟨u.server, u.conn, faults⟩).2.server
        conn := ((read site draws).run ⟨u.server, u.conn, faults⟩).2.conn } := by
  simp only [attemptRuns, next] at hstep
  split at hstep
  · cases hstep
  · rename_i havail
    exact ⟨havail, (Option.some.inj hstep).symm⟩

/-- A callback handles the first of the unread requests. -/
theorem Left.head (h : u.Left clientId left) {draws : Draws} {faults : List Bool}
    (hstep : (attemptRuns site).step u (.callback draws faults) v) :
    ∃ x unread later, left = x :: (unread ++ later) ∧
      u.conn = u.conn.withAvail
        (x.bytes clientId ++ (unread.map (Sent.bytes clientId)).flatten) ∧
      u.coming = later.map (Sent.bytes clientId) := by
  obtain ⟨unread, later, hleft, havail, hcoming⟩ := h.split
  obtain ⟨hready, -⟩ := callback_eq hstep
  cases unread with
  | nil => exact absurd havail hready
  | cons x unread =>
      rw [List.map_cons, List.flatten_cons] at havail
      refine ⟨x, unread, later, hleft, ?_, hcoming⟩
      rw [← havail]
      rfl

/-- What a callback does with the requests that are left. -/
theorem Left.callback (h : u.Left clientId left) (hid : clientId.length = General.clientIdSize)
    (hseries : Series left) {draws : Draws} {faults : List Bool}
    (hstep : (attemptRuns site).step u (.callback draws faults) v) :
    (¬ Raises site draws ⟨u.server, u.conn, faults⟩ ∧
      ((∃ a, v.Left clientId [] ∧ v.conn.answers = u.conn.answers ++ [a]) ∨
        ∃ xs, Series xs ∧ v.Left clientId xs ∧ v.conn.answers = u.conn.answers)) ∨
    Raises site draws ⟨u.server, u.conn, faults⟩ ∧
      ∃ later a, u.coming = later.map (Sent.bytes clientId) ∧
        (later ≠ [] → Series later) ∧ v.Left clientId later ∧
        v.conn.answers = u.conn.answers ++ [a] := by
  obtain ⟨x, unread, later, rfl, hw, hcoming⟩ := h.head hstep
  obtain ⟨-, rfl⟩ := callback_eq hstep
  obtain ⟨hdone, sent, hconn⟩ | ⟨hraises, hconn⟩ := Sent.read site draws hid hseries.fits
    (w := ⟨u.server, u.conn, faults⟩) hw h.stays
  · refine .inl ⟨hdone, ?_⟩
    rw [hconn]
    generalize hrest : unread ++ later = rest at hseries
    cases hseries with
    | last _ hlast =>
        obtain ⟨rfl, rfl⟩ := List.append_eq_nil_iff.mp hrest
        rw [hlast]
        exact .inl ⟨crcAnswer, ⟨h.stays, [], [], rfl, rfl, hcoming⟩, rfl⟩
    | cons _ hmore hxs =>
        rw [hmore, List.append_nil]
        exact .inr ⟨rest, hxs, ⟨h.stays, unread, later, hrest.symm, rfl, hcoming⟩, rfl⟩
  · refine .inr ⟨hraises, later, (failureMessage false).header, hcoming, ?_, ?_, ?_⟩
    · intro hne
      rw [← List.cons_append] at hseries
      exact hseries.append_left hne
    · rw [hconn]
      exact ⟨h.stays, [], later, rfl, rfl, hcoming⟩
    · rw [hconn]
      rfl

/-- Where only an 828 may raise, notices alone are not answered. -/
theorem Left.run_notices (h : u.Left clientId left)
    (hid : clientId.length = General.clientIdSize)
    (hnotices : ∀ x ∈ left, ∃ name, x = .notice name ∧ name.length ≤ General.fileNameSize)
    {es : List Attempt.Event}
    (hrun : ((attemptRuns site).guard (OnlyUploadsFail site)).Run u es v) :
    v.conn.answers = u.conn.answers := by
  induction hrun generalizing left with
  | nil u => rfl
  | @cons u u' v e es head _ ih =>
      obtain ⟨hstep, honly⟩ := head
      cases e with
      | arrive =>
          obtain ⟨hnext, hanswers⟩ := h.arrive hstep
          exact (ih hnext hnotices).trans hanswers
      | other draws conn faults =>
          obtain ⟨hnext, hanswers⟩ := h.other hstep
          exact (ih hnext hnotices).trans hanswers
      | callback draws faults =>
          obtain ⟨x, unread, later, rfl, hw, hcoming⟩ := h.head hstep
          obtain ⟨name, rfl, hname⟩ := hnotices x List.mem_cons_self
          have hrest := fun y hy => hnotices y (List.mem_cons_of_mem _ hy)
          obtain ⟨-, rfl⟩ := callback_eq hstep
          obtain ⟨-, sent, hconn⟩ | ⟨hraises, -⟩ := read_notice site draws hid hname
            (w := ⟨u.server, u.conn, faults⟩) hw h.stays
          · have hnext : Left clientId (unread ++ later) { u with
                server := ((read site draws).run ⟨u.server, u.conn, faults⟩).2.server
                conn := ((read site draws).run ⟨u.server, u.conn, faults⟩).2.conn } := by
              rw [hconn]
              exact ⟨h.stays, unread, later, rfl, rfl, hcoming⟩
            refine (ih hnext hrest).trans ?_
            simp only [hconn, List.append_nil]
            rfl
          · obtain ⟨r, c, hheader, hcode⟩ := honly draws faults rfl hraises
            simp only [Sent.bytes, noticeBytes, List.append_assoc] at hw
            rw [hw, getHeader_frame hid (by decide) (by decide)] at hheader
            obtain rfl := Option.some.inj (Outcome.done.inj (Prod.mk.inj hheader).1)
            simp only at hcode
            exact absurd hcode (by decide)

theorem failsLast_arrive : FailsLast site u .arrive := fun _ _ h => nomatch h

theorem failsLast_other {draws : Draws} {conn : Conn} {faults : List Bool} :
    FailsLast site u (.other draws conn faults) := fun _ _ h => nomatch h

/-- While nothing is left nothing is answered. -/
theorem Left.run_nil (h : u.Left clientId []) {es : List Attempt.Event}
    (hrun : (attemptRuns site).Run u es v) : v.conn.answers = u.conn.answers ∧
      ((attemptRuns site).guard (FailsLast site)).Run u es v := by
  induction hrun with
  | nil u => exact ⟨rfl, .nil u⟩
  | @cons u u' v e es head _ ih =>
      obtain ⟨unread, later, hleft, havail, hcoming⟩ := h.split
      obtain ⟨rfl, rfl⟩ := List.append_eq_nil_iff.mp hleft.symm
      cases e with
      | arrive =>
          simp only [attemptRuns, next, hcoming] at head
          cases head
      | other draws conn faults =>
          obtain ⟨hnext, hanswers⟩ := h.other head
          obtain ⟨hsame, hguard⟩ := ih hnext
          exact ⟨hsame.trans hanswers, .cons ⟨head, failsLast_other⟩ hguard⟩
      | callback draws faults => exact absurd havail (callback_eq head).1

/-- A run to the end answers at least once, and once exactly if it raises only when nothing is
left to arrive. -/
theorem Left.run (h : u.Left clientId left) (hid : clientId.length = General.clientIdSize)
    (hseries : Series left) {es : List Attempt.Event} (hrun : (attemptRuns site).Run u es v)
    (hover : v.Over) : ∃ answers, answers ≠ [] ∧ v.conn.answers = u.conn.answers ++ answers ∧
      (answers.length = 1 ↔ ((attemptRuns site).guard (FailsLast site)).Run u es v) := by
  induction hrun generalizing left with
  | nil u => exact absurd (h.over hid hover) hseries.ne_nil
  | @cons u u' v e es head tail ih =>
      rw [System.guard_run_cons head (next_unique head)]
      cases e with
      | arrive =>
          obtain ⟨hnext, hanswers⟩ := h.arrive head
          simp only [failsLast_arrive, true_and, ← hanswers]
          exact ih hnext hseries hover
      | other draws conn faults =>
          obtain ⟨hnext, hanswers⟩ := h.other head
          simp only [failsLast_other, true_and, ← hanswers]
          exact ih hnext hseries hover
      | callback draws faults =>
          obtain ⟨hdone, hcases⟩ | ⟨hraises, later, a, hcoming, hlater, hnext, hanswers⟩ :=
            h.callback hid hseries head
          · have hfails : FailsLast site u (.callback draws faults) := by
              intro draws' faults' he hraises
              cases he
              exact absurd hraises hdone
            simp only [hfails, true_and]
            obtain ⟨a, hnext, hanswers⟩ | ⟨xs, hxs, hnext, hanswers⟩ := hcases
            · obtain ⟨hsame, hguard⟩ := hnext.run_nil tail
              refine ⟨[a], List.cons_ne_nil _ _, hsame.trans hanswers, ?_⟩
              exact iff_of_true rfl hguard
            · rw [← hanswers]
              exact ih hnext hxs hover
          · -- the answer to the failure, and all others after it
            by_cases hnone : later = []
            · subst hnone
              obtain ⟨hsame, hguard⟩ := hnext.run_nil tail
              refine ⟨[a], List.cons_ne_nil _ _, hsame.trans hanswers, ?_⟩
              exact iff_of_true rfl ⟨fun _ _ _ _ => hcoming, hguard⟩
            · obtain ⟨answers, hne, hsame, -⟩ := ih hnext (hlater hnone) hover
              refine ⟨a :: answers, List.cons_ne_nil _ _, ?_, ?_⟩
              · rw [hsame, hanswers, List.append_assoc]
                rfl
              · refine iff_of_false ?_ fun hguard => ?_
                · rw [List.length_cons]
                  have hpos := List.length_pos_iff.mpr hne
                  omega
                · have hempty := hguard.1 draws faults rfl hraises
                  exact hnone (List.map_eq_nil_iff.mp (hcoming.symm.trans hempty))

end Attempt

/-! The requests of `send_file`. -/

/-- Slices numbered from `k + 1` to their number. -/
theorem series_mapIdx {fileName : Bytes} {contentSize origFileSize total : Nat}
    (hname : fileName.length ≤ General.fileNameSize)
    (hcontent : contentSize < 256 ^ General.contentSizeSize)
    (horig : origFileSize < 256 ^ General.origFileSizeSize)
    (htotal : total < 256 ^ General.totalPucketsSize) {slices : List Bytes} (hne : slices ≠ [])
    (hslices : ∀ content ∈ slices, content.length ≤ packetMaxSize) {k : Nat}
    (hk : k + slices.length = total) :
    Series (slices.mapIdx fun i content =>
      .packet ⟨fileName, contentSize, origFileSize, k + i + 1, total, content⟩) := by
  induction slices generalizing k with
  | nil => exact absurd rfl hne
  | cons slice slices ih =>
      rw [List.length_cons] at hk
      have hfits : RawPacket.Fits ⟨fileName, contentSize, origFileSize, k + 0 + 1, total, slice⟩ :=
        ⟨hname, hcontent, horig, Nat.lt_of_le_of_lt (by simp only; omega) htotal, htotal,
          hslices slice List.mem_cons_self⟩
      rw [List.mapIdx_cons]
      by_cases hlast : slices = []
      · subst hlast
        refine .last hfits (if_pos ?_)
        simpa using hk
      · have hpos := List.length_pos_iff.mpr hlast
        have hrest := ih hlast (fun content h => hslices content (List.mem_cons_of_mem _ h))
          (show k + 1 + slices.length = total by omega)
        refine .cons hfits (if_neg ?_) ?_
        · simp only
          omega
        · have hindex : (fun i content => Sent.packet ⟨fileName, contentSize, origFileSize,
              k + (i + 1) + 1, total, content⟩) = fun i content =>
                .packet ⟨fileName, contentSize, origFileSize, k + 1 + i + 1, total, content⟩ := by
            funext i content
            rw [show k + (i + 1) = k + 1 + i by omega]
          rw [hindex]
          exact hrest

/-- The packets of `send_file`, unless it sends none. -/
theorem series_of_sentWhole {client : ClientSide.Client} {plain ciphertext : Bytes}
    {sent : List Bytes} (hname : client.fileName.length < ClientSide.nameOfFileSize)
    (hsize : ciphertext.length ≤ ClientSide.maxCiphertext)
    (h : ClientSide.SentWhole client plain ciphertext sent) :
    ∃ packets, Series packets ∧ sent = packets.map (Sent.bytes client.clientId) := by
  obtain ⟨slices, hne, -, -, hcount, hslices, rfl⟩ := h
  have hcontent : ciphertext.length < 256 ^ General.contentSizeSize := by
    simp only [ClientSide.maxCiphertext, packetMaxSize, General.contentSizeSize] at hsize ⊢
    omega
  have htotal : slices.length < 256 ^ General.totalPucketsSize := by
    simp only [General.totalPucketsSize]
    omega
  have hseries := @series_mapIdx client.fileName ciphertext.length (plain.length % 2 ^ 32)
    slices.length (Nat.le_of_lt hname) hcontent (Nat.mod_lt _ (by decide)) htotal slices hne
    (fun content h => (hslices content h).2) 0 (Nat.zero_add _)
  refine ⟨_, hseries, ?_⟩
  apply List.ext_getElem
  · simp
  · intro i hi hi'
    simp [Sent.bytes, RawPacket.bytes]

/-- The 901 that `crc_checking` sends before another attempt. -/
def tryAgainRequest (client : ClientSide.Client) : Bytes :=
  ((((ClientSide.Request.new.setClientID client.clientId).setCode
    ClientSide.wrongCrcTryAgain901).setPayloadSize ClientSide.nameOfFileSize).appendStringPayload
      client.fileName ClientSide.nameOfClientSize).massage

theorem tryAgainRequest_eq {client : ClientSide.Client}
    (hid : client.clientId.length = ClientSide.clientIdSize) :
    tryAgainRequest client = noticeBytes client.clientId client.fileName := by
  have hmassage : tryAgainRequest client =
      (ClientSide.Request.new.setClientID client.clientId).clientId ++
        (Octets.toLittle General.versionSize General.version ++
          (Octets.toLittle General.codeSize General.invalidCrcRequest901 ++
            (Octets.toLittle General.payloadSizeSize General.fileNameSize ++
              Octets.padTo General.fileNameSize client.fileName))) := by
    rw [tryAgainRequest, ClientSide.Request.massage]
    simp only [List.append_assoc]
    rfl
  rw [hmassage, ClientSide.setClientID_of_length hid, noticeBytes, frame]
  simp only [List.append_assoc]

/-- What the client sends for one attempt, the first one or another. -/
def attemptRequests (kit : ClientSide.Toolkit) (client : ClientSide.Client) (tries : Nat)
    (request : ClientSide.Request) (file : Bytes) (again : Bool) : List Bytes :=
  (if again then [tryAgainRequest client] else []) ++
    uploadPackets kit client tries request file

/-- The server answers the packets of one attempt exactly once if and only if there are any
and a handler raises only when no packet is left to arrive. -/
theorem one_answer_iff (site : Site) (kit : ClientSide.Toolkit) (client : ClientSide.Client)
    (hid : client.clientId.length = ClientSide.clientIdSize)
    (hname : client.fileName.length < ClientSide.nameOfFileSize) (tries : Nat)
    (request : ClientSide.Request) (hrequest : request.Empty) (file : Bytes) (again : Bool)
    (s : Server) (c : Conn) (hstart : c.avail = []) (hstays : c.sendsLeft = none)
    (es : List Attempt.Event) (u : Attempt)
    (hrun : ((attemptRuns site).guard (Attempt.OnlyUploadsFail site)).Run
      ⟨s, c, attemptRequests kit client tries request file again⟩ es u)
    (hover : u.Over) :
    (∃ a, u.conn.answers = c.answers ++ [a]) ↔
      uploadPackets kit client tries request file ≠ [] ∧
        ((attemptRuns site).guard (Attempt.FailsLast site)).Run
          ⟨s, c, attemptRequests kit client tries request file again⟩ es u := by
  have hlength : client.clientId.length = General.clientIdSize := hid
  have hfile : client.fileName.length ≤ General.fileNameSize := Nat.le_of_lt hname
  let notices : List Sent := if again then [.notice client.fileName] else []
  have hnotices : (if again then [tryAgainRequest client] else []) =
      notices.map (Sent.bytes client.clientId) := by
    cases again with
    | false => rfl
    | true => simp only [notices, if_true, tryAgainRequest_eq hid, List.map_cons, List.map_nil,
        Sent.bytes]
  rw [attemptRequests, hnotices] at hrun ⊢
  obtain hnone | ⟨ciphertext, hsize, hwhole⟩ :=
    ClientSide.uploadPackets_cases kit client hid tries request hrequest file
  · rw [hnone, List.append_nil] at hrun ⊢
    have hleft : Attempt.Left client.clientId notices
        ⟨s, c, notices.map (Sent.bytes client.clientId)⟩ :=
      ⟨hstays, [], notices, rfl, hstart, rfl⟩
    have hsame := hleft.run_notices hlength (fun x hx => ?_) hrun
    · refine iff_of_false ?_ fun h => h.1 rfl
      intro h
      obtain ⟨a, ha⟩ := h
      rw [hsame] at ha
      simpa using congrArg List.length ha
    · cases again with
      | false => exact absurd hx List.not_mem_nil
      | true => exact ⟨client.fileName, List.mem_singleton.mp hx, hfile⟩
  · obtain ⟨packets, hpackets, hsent⟩ := series_of_sentWhole hname hsize hwhole
    rw [hsent, ← List.map_append] at hrun ⊢
    have hseries : Series (notices ++ packets) := by
      cases again with
      | false => exact hpackets
      | true => exact .cons hfile rfl hpackets
    have hleft : Attempt.Left client.clientId (notices ++ packets)
        ⟨s, c, (notices ++ packets).map (Sent.bytes client.clientId)⟩ :=
      ⟨hstays, [], notices ++ packets, rfl, hstart, rfl⟩
    obtain ⟨answers, -, hanswers, hone⟩ := hleft.run hlength hseries hrun.of_guard hover
    have hne : packets.map (Sent.bytes client.clientId) ≠ [] :=
      fun h => hpackets.ne_nil (List.map_eq_nil_iff.mp h)
    simp only [ne_eq, hne, not_false_iff, true_and]
    rw [← hone, hanswers]
    simp only [List.append_cancel_left_eq]
    exact List.length_eq_one_iff.symm

/-! Attempts of the client `a` with its file `f`, on the key of ones. -/

/-- The attempt after one request has arrived and been handled. -/
def Attempt.handled (site : Site) (draws : Draws) (faults : List Bool) (s : Server) (c : Conn)
    (request : Bytes) (coming : List Bytes) : Attempt :=
  let w := ((read site draws).run ⟨s, c.withAvail (c.avail ++ request), faults⟩).2
  ⟨w.server, w.conn, coming⟩

section
variable {site : Site} {s : Server} {c : Conn} {clientId : Bytes} {p : RawPacket}
  {coming : List Bytes}

theorem run_handled (hid : clientId.length = General.clientIdSize) (hp : p.Fits)
    (hc : c.avail = []) (draws : Draws) (faults : List Bool) :
    ((attemptRuns site).guard (Attempt.OnlyUploadsFail site)).Run
      ⟨s, c, p.bytes clientId :: coming⟩ [.arrive, .callback draws faults]
      (Attempt.handled site draws faults s c (p.bytes clientId) coming) := by
  have hready : (c.withAvail (c.avail ++ p.bytes clientId)).avail ≠ [] := by
    intro h
    exact Attempt.bytes_ne_nil hid (.packet p) (List.append_eq_nil_iff.mp h).2
  have harrive : (attemptRuns site).step ⟨s, c, p.bytes clientId :: coming⟩ .arrive
      ⟨s, c.withAvail (c.avail ++ p.bytes clientId), coming⟩ := rfl
  refine .cons ⟨harrive, fun _ _ h => nomatch h⟩ (.cons ⟨?_, ?_⟩ (.nil _))
  · simp only [attemptRuns, Attempt.next, hready, if_false, Attempt.handled]
  · intro _ _ _ _
    have hheader := getHeader_raw hid hp [] c
    rw [List.append_nil] at hheader
    rw [hc, List.nil_append]
    exact ⟨_, _, hheader, rfl⟩

/-- A packet that arrives alone leaves nothing unread. -/
theorem settled_handled (hid : clientId.length = General.clientIdSize) (hp : p.Fits)
    (hc : c.avail = []) (hstays : c.sendsLeft = none) (draws : Draws) (faults : List Bool) :
    let u := Attempt.handled site draws faults s c (p.bytes clientId) coming
    u.conn.avail = [] ∧ u.conn.sendsLeft = none := by
  have hw : c.withAvail (c.avail ++ p.bytes clientId) = c.withAvail (p.bytes clientId ++ []) := by
    rw [hc, List.append_nil, List.nil_append]
  obtain ⟨-, sent, hconn⟩ | ⟨-, hconn⟩ := read_raw site draws hid hp
    (w := ⟨s, c.withAvail (c.avail ++ p.bytes clientId), faults⟩) hw hstays
  · simp only [Attempt.handled, hconn]
    exact ⟨rfl, hstays⟩
  · simp only [Attempt.handled, hconn]
    exact ⟨rfl, hstays⟩

/-- Two packets arrive one after the other, and the handler of the first one raises. -/
theorem not_one_answer {q : RawPacket} (hid : clientId.length = General.clientIdSize)
    (hseries : Series [.packet p, .packet q]) (hc : c.avail = []) (hstays : c.sendsLeft = none)
    {draws : Draws} {faults : List Bool}
    (hraises : Raises site draws ⟨s, c.withAvail (c.avail ++ p.bytes clientId), faults⟩) :
    ∃ es u, ((attemptRuns site).guard (Attempt.OnlyUploadsFail site)).Run
      ⟨s, c, [p.bytes clientId, q.bytes clientId]⟩ es u ∧ u.Over ∧
        ¬ ∃ a, u.conn.answers = c.answers ++ [a] := by
  have hp : p.Fits := hseries.fits
  have hlast : Series [.packet q] :=
    @Series.append_left [.packet p] [.packet q] hseries (List.cons_ne_nil _ _)
  have hq : q.Fits := hlast.fits
  have hfirst := @run_handled site s c clientId p [q.bytes clientId] hid hp hc draws faults
  obtain ⟨hunread, hleft⟩ :=
    @settled_handled site s c clientId p [q.bytes clientId] hid hp hc hstays draws faults
  let u := Attempt.handled site draws faults s c (p.bytes clientId) [q.bytes clientId]
  have hsecond := @run_handled site u.server u.conn clientId q [] hid hq hunread draws []
  obtain ⟨hdone, -⟩ :=
    @settled_handled site u.server u.conn clientId q [] hid hq hunread hleft draws []
  have hrun := hfirst.append hsecond
  refine ⟨_, _, hrun, ⟨rfl, hdone⟩, ?_⟩
  have hstart : Attempt.Left clientId [.packet p, .packet q]
      ⟨s, c, [p.bytes clientId, q.bytes clientId]⟩ :=
    ⟨hstays, [], [.packet p, .packet q], rfl, hc, rfl⟩
  obtain ⟨answers, -, hanswers, hone⟩ := hstart.run hid hseries hrun.of_guard ⟨rfl, hdone⟩
  intro h
  obtain ⟨a, ha⟩ := h
  have hsingle : answers = [a] := List.append_cancel_left (hanswers.symm.trans ha)
  have hguard := hone.mp (congrArg List.length hsingle)
  have harrive : (attemptRuns site).step ⟨s, c, [p.bytes clientId, q.bytes clientId]⟩ .arrive
      ⟨s, c.withAvail (c.avail ++ p.bytes clientId), [q.bytes clientId]⟩ := rfl
  rw [List.cons_append, System.guard_run_cons harrive (Attempt.next_unique harrive)] at hguard
  cases hguard.2 with
  | cons head _ => exact absurd (head.2 draws faults rfl hraises) (List.cons_ne_nil _ _)

end

def attemptClient : ClientSide.Client := { ClientSide.onesClient with fileName := [102] }

def attemptCiphertext (file : Bytes) : Bytes :=
  BlockMode.cbcEncrypt ClientSide.onesKit.cipher ClientSide.onesKey
    (file.take (file.length % 2 ^ 32))

/-- Packet `k + 1` for a file. -/
def attemptPacket (file : Bytes) (k : Nat) : RawPacket :=
  ⟨[102], (attemptCiphertext file).length, file.length % 2 ^ 32, k + 1,
    ClientSide.packetCount (attemptCiphertext file).length,
    ClientSide.slice (attemptCiphertext file) k⟩

section
variable {file : Bytes}

theorem length_attemptCiphertext (hsize : file.length ≤ packetMaxSize) :
    (attemptCiphertext file).length = (file.length / 16 + 1) * 16 := by
  simp only [packetMaxSize] at hsize
  have hmod : file.length % 2 ^ 32 = file.length := Nat.mod_eq_of_lt (by omega)
  exact (ClientSide.length_encrypted ClientSide.onesKit ClientSide.onesKey file).trans
    (by rw [hmod])

theorem attemptCiphertext_le (hsize : file.length ≤ packetMaxSize) :
    (attemptCiphertext file).length ≤ 2 * packetMaxSize := by
  rw [length_attemptCiphertext hsize]
  simp only [packetMaxSize] at hsize ⊢
  omega

theorem uploadPackets_attempt (hsize : file.length ≤ packetMaxSize) {count : Nat}
    (hcount : ClientSide.packetCount ((file.length / 16 + 1) * 16) = count) :
    uploadPackets ClientSide.onesKit attemptClient 3 ClientSide.Request.new file =
      (List.range count).map fun k => (attemptPacket file k).bytes oneClientId := by
  have hdecrypt : ClientSide.onesKit.rsaDecrypt attemptClient.privKey attemptClient.encryptedAes =
      some ClientSide.onesKey := rfl
  have hid : attemptClient.clientId.length = ClientSide.clientIdSize := rfl
  have hkey : ClientSide.onesKey.length = General.aesKeySize := rfl
  have hfits : (attemptCiphertext file).length ≤ ClientSide.maxCiphertext :=
    Nat.le_trans (attemptCiphertext_le hsize) (by decide)
  rw [ClientSide.uploadPackets_short ClientSide.onesKit hid hdecrypt hkey 3 ⟨rfl, rfl⟩ hfits,
    ← hcount, ← length_attemptCiphertext hsize]
  rfl

theorem fits_attemptPacket (hsize : file.length ≤ packetMaxSize) {k : Nat} (hk : k ≤ 1) :
    (attemptPacket file k).Fits := by
  have hle := attemptCiphertext_le hsize
  simp only [packetMaxSize] at hle
  have hcount := ClientSide.packetCount_le (Nat.le_trans (attemptCiphertext_le hsize) (by decide))
  have hname : [(102 : UInt8)].length ≤ General.fileNameSize := by decide
  refine ⟨hname, ?_, Nat.mod_lt _ (by decide), ?_, ?_, ?_⟩
  · simp only [attemptPacket, General.contentSizeSize]
    omega
  · simp only [attemptPacket, General.pucketNumberSize]
    omega
  · simp only [attemptPacket, General.totalPucketsSize]
    omega
  · simp only [attemptPacket, ClientSide.length_slice]
    exact Nat.min_le_left _ _

/-- The file of packet 1 cannot be opened. -/
theorem raises_attempt (hsize : file.length ≤ packetMaxSize) (rest : Bytes) (c : Conn) :
    Raises bareSite (sameDraws 2)
      ⟨oneClient, c.withAvail ((attemptPacket file 0).bytes oneClientId ++ rest), [true]⟩ := by
  have hfits := fits_attemptPacket hsize (Nat.zero_le 1)
  let p := (attemptPacket file 0).packet (['f'] ++ List.replicate 254 '\x00')
  have hdecode :
      Octets.decodeUtf8 (Octets.padTo General.fileNameSize (attemptPacket file 0).fileName) =
        some (['f'] ++ List.replicate 254 '\x00') :=
    Octets.decodeUtf8_padTo General.fileNameSize ['f']
  have hpacket := recvPacket_raw hfits rest c
  simp only [hdecode] at hpacket
  have hread : (onConn (Request.recvPacket (ClientSide.payloadSizeWithoutMassage +
      (attemptPacket file 0).content.length))).run
        ⟨oneClient, c.withAvail ((attemptPacket file 0).payload rest), [true]⟩ =
          (.done p, ⟨oneClient, c.withAvail rest, [true]⟩) := by
    simp only [onConn, onPart, hpacket, p]
  have hstore : ∀ p, (Request.storePacket bareSite (sameDraws 2) oneClientId p).run
      ⟨oneClient, c.withAvail rest, [true]⟩ =
        (.raised .osError, ⟨oneClient, c.withAvail rest, []⟩) := fun _ => rfl
  have hid : oneClientId.length = General.clientIdSize := rfl
  have hheader := getHeader_raw hid hfits rest c
  have hdispatch : ∀ n, dispatch bareSite (sameDraws 2)
      ⟨oneClientId, General.version, General.sendFileRequest828, n⟩ =
        (onConn (Request.recvPacket n) >>=
          Request.storePacket bareSite (sameDraws 2) oneClientId) := fun _ => rfl
  refine ⟨_, _, .osError, ⟨oneClient, c.withAvail rest, []⟩, hheader, ?_⟩
  rw [hdispatch, bind_done hread]
  exact hstore p

end

/-- One packet, which arrives and is handled. -/
theorem one_answer_letter : (∃ a,
    (Attempt.handled bareSite (sameDraws 2) [] oneClient .accepted
      ((attemptPacket [97] 0).bytes oneClientId) []).conn.answers = Conn.accepted.answers ++ [a]) ↔
    uploadPackets ClientSide.onesKit attemptClient 3 ClientSide.Request.new [97] ≠ [] ∧
      ((attemptRuns bareSite).guard (Attempt.FailsLast bareSite)).Run
        ⟨oneClient, .accepted, attemptRequests ClientSide.onesKit attemptClient 3
          ClientSide.Request.new [97] false⟩
        [.arrive, .callback (sameDraws 2) []]
        (Attempt.handled bareSite (sameDraws 2) [] oneClient .accepted
          ((attemptPacket [97] 0).bytes oneClientId) []) := by
  have hsize : [(97 : UInt8)].length ≤ packetMaxSize := by decide
  have hpackets : attemptRequests ClientSide.onesKit attemptClient 3 ClientSide.Request.new [97]
      false = [(attemptPacket [97] 0).bytes oneClientId] :=
    uploadPackets_attempt hsize (show ClientSide.packetCount 16 = 1 by decide)
  have hfits := fits_attemptPacket hsize (Nat.zero_le 1)
  have hrun := @run_handled bareSite oneClient .accepted oneClientId (attemptPacket [97] 0) []
    rfl hfits rfl (sameDraws 2) []
  rw [← hpackets] at hrun
  exact one_answer_iff bareSite ClientSide.onesKit attemptClient rfl (by decide) 3
    ClientSide.Request.new ⟨rfl, rfl⟩ [97] false oneClient .accepted rfl rfl _ _ hrun
    ⟨rfl, (settled_handled rfl hfits rfl rfl _ _).1⟩

/-- The file cannot be opened for the first of two packets before the second has arrived. -/
theorem not_one_answer_attempt {file : Bytes} (hlength : file.length = 4096) :
    ∃ es u, ((attemptRuns bareSite).guard (Attempt.OnlyUploadsFail bareSite)).Run
      ⟨oneClient, .accepted, attemptRequests ClientSide.onesKit attemptClient 3
        ClientSide.Request.new file false⟩ es u ∧ u.Over ∧
      ¬ ∃ a, u.conn.answers = Conn.accepted.answers ++ [a] := by
  have hsize : file.length ≤ packetMaxSize := Nat.le_of_eq hlength
  have htwo : ClientSide.packetCount ((file.length / 16 + 1) * 16) = 2 := by
    rw [hlength]
    decide
  have hpackets : attemptRequests ClientSide.onesKit attemptClient 3 ClientSide.Request.new
      file false = [(attemptPacket file 0).bytes oneClientId,
        (attemptPacket file 1).bytes oneClientId] := by
    rw [attemptRequests, uploadPackets_attempt hsize htwo]
    simp [List.range_succ]
  have htotal : ClientSide.packetCount (attemptCiphertext file).length = 2 := by
    rw [length_attemptCiphertext hsize]
    exact htwo
  have hlast : (Sent.packet (attemptPacket file 1)).answers = [crcAnswer] :=
    if_pos htotal.symm
  have hmore : (Sent.packet (attemptPacket file 0)).answers = [] := by
    refine if_neg ?_
    simp only [attemptPacket, htotal]
    decide
  have hseries : Series [.packet (attemptPacket file 0), .packet (attemptPacket file 1)] :=
    .cons (fits_attemptPacket hsize (Nat.zero_le 1)) hmore
      (.last (fits_attemptPacket hsize (Nat.le_refl 1)) hlast)
  have hraises := raises_attempt hsize [] .accepted
  rw [List.append_nil] at hraises
  rw [hpackets]
  exact not_one_answer rfl hseries rfl rfl hraises

theorem two_answers : ∃ es u, ((attemptRuns bareSite).guard (Attempt.OnlyUploadsFail bareSite)).Run
      ⟨oneClient, .accepted, attemptRequests ClientSide.onesKit attemptClient 3
        ClientSide.Request.new (List.replicate 4096 0) false⟩ es u ∧ u.Over ∧
      ¬ ∃ a, u.conn.answers = Conn.accepted.answers ++ [a] :=
  not_one_answer_attempt List.length_replicate

end SecureTransfer
