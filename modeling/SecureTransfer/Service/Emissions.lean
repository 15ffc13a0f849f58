import SecureTransfer.Library.Degrading
import SecureTransfer.Service.Replies

/-!
What a callback sends on any server and whatever fails. The handlers send nothing before
their last command, which is a whole message, and an exception is answered by the header
of a failure. So the answer does not depend on the peer, and the callback returns exactly if
the peer takes in all of it.
-/

open Octets (Text)
open Effects Act

namespace SecureTransfer

/-- So many sendall calls succeed. -/
def Conn.Lasts (calls : Nat) (c : Conn) : Prop := ∀ n, c.sendsLeft = some n → calls ≤ n

/-- A command that makes so many sendall calls, and does not finish if one of them fails. -/
structure MakesCalls (calls : Nat) (m : Net Unit) : Prop where
  lasts : ∀ c : Conn, c.Lasts calls → ∃ c', m.run c = (.done (), c') ∧
    c'.sendsLeft = c.sendsLeft.map (· - calls)
  leaves : ∀ c : Conn, ¬ c.Lasts calls → ∃ o c', m.run c = (o, c') ∧ o ≠ .done () ∧
    c'.sendsLeft = some 0

namespace MakesCalls

theorem of_total {m : Net Unit} (f : Conn → Conn) (hm : ∀ c, m.run c = (.done (), f c))
    (hf : ∀ c, (f c).sendsLeft = c.sendsLeft) : MakesCalls 0 m where
  lasts := by
    intro c _
    refine ⟨f c, hm c, ?_⟩
    rw [hf]
    cases c.sendsLeft <;> rfl
  leaves := fun _ hc => absurd (fun _ _ => Nat.zero_le _) hc

theorem sendall (data : Bytes) : MakesCalls 1 (Conn.sendall data) where
  lasts := by
    intro c hc
    cases h : c.sendsLeft with
    | none => exact ⟨_, sendall_stays h data, h⟩
    | some n =>
        obtain ⟨k, rfl⟩ : ∃ k, n = k + 1 := ⟨n - 1, by have := hc n h; omega⟩
        refine ⟨{ c with sent := c.sent ++ data, sendsLeft := some k }, ?_, rfl⟩
        simp only [Conn.sendall, h]
  leaves := by
    intro c hc
    simp only [Conn.Lasts, not_forall, Nat.not_le, Nat.lt_one_iff] at hc
    obtain ⟨n, hn, rfl⟩ := hc
    obtain ⟨o, hrun, ho⟩ := sendall_gone data hn
    exact ⟨o, c, hrun, ho, hn⟩

theorem andThen {j k : Nat} {m m' : Net Unit} (hm : MakesCalls j m) (hm' : MakesCalls k m') :
    MakesCalls (j + k) (do m; m') where
  lasts := by
    intro c hc
    have hj : c.Lasts j := fun n hn => Nat.le_of_add_right_le (hc n hn)
    obtain ⟨c₁, hrun, hleft⟩ := hm.lasts c hj
    have hk : c₁.Lasts k := by
      intro n hn
      rw [hleft, Option.map_eq_some_iff] at hn
      obtain ⟨n₀, hn₀, rfl⟩ := hn
      have := hc n₀ hn₀
      omega
    obtain ⟨c₂, hrun', hleft'⟩ := hm'.lasts c₁ hk
    refine ⟨c₂, by rw [bind_done hrun, hrun'], ?_⟩
    rw [hleft', hleft, Option.map_map]
    congr 1
    funext n
    exact Nat.sub_sub n j k
  leaves := by
    intro c hc
    by_cases hj : c.Lasts j
    · obtain ⟨c₁, hrun, hleft⟩ := hm.lasts c hj
      have hk : ¬ c₁.Lasts k := by
        intro hk
        apply hc
        intro n hn
        have := hj n hn
        have := hk (n - j) (by rw [hleft, hn]; rfl)
        omega
      obtain ⟨o, c₂, hrun', ho, hleft'⟩ := hm'.leaves c₁ hk
      exact ⟨o, c₂, by rw [bind_done hrun, hrun'], ho, hleft'⟩
    · obtain ⟨o, c₁, hrun, ho, hleft⟩ := hm.leaves c hj
      exact ⟨o, c₁, bind_unfinished hrun ho, ho, hleft⟩

/-- A handler that makes calls itself cannot help once they fail. -/
theorem attempt {j k : Nat} {m handler : Net Unit} (hm : MakesCalls k m) (hj : 0 < j)
    (hhandler : MakesCalls j handler) :
    MakesCalls k (Act.attempt m fun _ => handler) where
  lasts := by
    intro c hc
    obtain ⟨c', hrun, hleft⟩ := hm.lasts c hc
    exact ⟨c', attempt_done hrun, hleft⟩
  leaves := by
    intro c hc
    obtain ⟨o, c', hrun, ho, hleft⟩ := hm.leaves c hc
    have hgone : ¬ c'.Lasts j := fun h => absurd (h 0 hleft) (Nat.not_le.mpr hj)
    cases o with
    | done _ => exact absurd rfl ho
    | raised e =>
        rw [attempt_raised hrun]
        exact hhandler.leaves c' hgone
    | blocked => exact ⟨.blocked, c', attempt_blocked hrun, nofun, hleft⟩

theorem sendHeader {a : Answer} (hcode : a.code < 256 ^ General.codeSize)
    (hsize : a.payloadSize < 256 ^ General.payloadSizeSize) :
    MakesCalls 3 a.sendHeaderToClient := by
  have hversion : General.version < 256 ^ General.versionSize := by decide
  rw [Answer.sendHeaderToClient, convertIntToByte_of_lt hversion, convertIntToByte_of_lt hcode,
    convertIntToByte_of_lt hsize]
  exact (sendall _).andThen ((sendall _).andThen ((sendall _).andThen
    (of_total (fun c => { c with answers := c.answers ++ [a] }) (fun _ => rfl) fun _ => rfl)))

theorem sendParts (parts : List Bytes) : MakesCalls parts.length (sendParts parts) := by
  induction parts with
  | nil => exact of_total id (fun _ => rfl) fun _ => rfl
  | cons part parts ih =>
      have h := (sendall part).andThen ih
      rwa [Nat.add_comm] at h

theorem send {m : Message} (hm : m.Fits) : MakesCalls (3 + m.parts.length) m.send :=
  (sendHeader hm.1 hm.2).andThen (sendParts m.parts)

theorem reject {code : Nat} (hcode : code < 256 ^ General.codeSize) :
    MakesCalls 3 (reject code) := by
  have hclean : MakesCalls 0 cleanBuffer := of_total Conn.cleaned cleanBuffer_run fun _ => rfl
  have hsize : 0 < 256 ^ General.payloadSizeSize := by decide
  exact hclean.andThen (sendHeader hcode hsize)

theorem failure (registration : Bool) : MakesCalls 3 (failure registration) := by
  have hgeneral : MakesCalls 3 (SecureTransfer.reject General.generalError1607) :=
    reject (by decide)
  cases registration with
  | false => exact hgeneral
  | true => exact attempt (reject (by decide)) (by decide) hgeneral

theorem done_iff {k : Nat} {m : Net Unit} (hm : MakesCalls k m) (c : Conn) :
    (m.run c).1 = .done () ↔ c.Lasts k := by
  constructor
  · intro h
    by_contra hc
    obtain ⟨o, c', hrun, ho, -⟩ := hm.leaves c hc
    rw [hrun] at h
    exact ho h
  · intro hc
    obtain ⟨c', hrun, -⟩ := hm.lasts c hc
    rw [hrun]

end MakesCalls

/-! Where a callback waits for its request. -/

section
variable {flag : Conn → Bool} (hrecv : ∀ n, Act.Steady flag (Conn.recv n))
include hrecv

theorem steady_recvNumber (size : Nat) : Act.Steady flag (recvNumber size) :=
  .bind (hrecv _) fun _ => .pure _

theorem steady_recvText (size : Nat) : Act.Steady flag (recvText size) :=
  .bind (hrecv _) fun _ => .bind (.ofOption _ _) fun _ => .pure _

theorem steady_getHeader : Act.Steady flag Request.getHeader := by
  refine .bind (hrecv _) fun id => ?_
  split
  · exact .pure _
  · exact .bind (steady_recvNumber hrecv _) fun _ => .bind (steady_recvNumber hrecv _) fun _ =>
      .bind (steady_recvNumber hrecv _) fun _ => .pure _

theorem steady_recvPacket (payloadSize : Nat) :
    Act.Steady flag (Request.recvPacket payloadSize) :=
  .bind (steady_recvNumber hrecv _) fun _ => .bind (steady_recvNumber hrecv _) fun _ =>
    .bind (steady_recvNumber hrecv _) fun _ => .bind (steady_recvNumber hrecv _) fun _ =>
      .bind (steady_recvText hrecv _) fun _ => .bind (hrecv _) fun _ => .pure _

end

/-- The socket is in blocking mode, and nothing more comes for now. -/
def Conn.stalls (c : Conn) : Bool := c.blocking && c.hangup = .idle

theorem recv_stalls (n : Int) : Act.Steady Conn.stalls (Conn.recv n) := by
  intro c
  obtain ⟨avail, pending, hsame⟩ := Conn.recv_sameEnd n c
  refine ⟨by rw [hsame]; rfl, fun hstalls hblocked => ?_⟩
  simp only [Conn.recv] at hblocked
  split at hblocked
  · cases hblocked
  split at hblocked
  · cases hblocked
  split at hblocked
  · cases hblocked
  split at hblocked
  · split at hblocked <;> cases hblocked
  · rename_i hidle
    split at hblocked
    · rename_i hblocking
      simp [Conn.stalls, hblocking, hidle] at hstalls
    · cases hblocked
  · cases hblocked
  · cases hblocked

/-- The answers to a request, with those to one that raised: a 1601 to a registration, a 1607
to any. -/
def Answers (id : Bytes) (body : Body) (m : Message) : Prop :=
  Emits id body m ∨
    ∃ registration, (registration = true → body.isRegistration = true) ∧
      m = failureMessage registration

/-- The answers to what a callback finds on its connection. -/
def Incoming.Answers : Incoming → Message → Prop
  | .request id body, m => SecureTransfer.Answers id body m
  | .malformed registration, m => m = failureMessage registration
  | .ended, _ | .waits, _ => False

/-- The same connection with a peer that takes in so many sendall calls, or all. -/
def Conn.lasting (left : Option Nat) (c : Conn) : Conn := { c with sendsLeft := left }

def World.lasting (left : Option Nat) (w : World) : World :=
  { w with conn := w.conn.lasting left }

/-- A command that reads at most, whatever its peer takes in. -/
structure ReadsAlike {α : Type} (m : Net α) : Prop where
  onlyReads : OnlyReads m
  steady : Act.Steady Conn.stalls m
  calmly : ∀ left c, Calmly (Conn.lasting left) m c

namespace ReadsAlike

variable {α β : Type}

theorem pure (a : α) : ReadsAlike (Pure.pure a : Net α) := ⟨.pure a, .pure a, fun _ _ => rfl⟩

theorem ofOption (e : PyError) (o : Option α) : ReadsAlike (Act.ofOption e o) :=
  ⟨.ofOption e o, .ofOption e o, fun _ _ => .ofOption e o⟩

theorem bind {m : Net α} {f : α → Net β} (hm : ReadsAlike m) (hf : ∀ a, ReadsAlike (f a)) :
    ReadsAlike (m >>= f) where
  onlyReads := hm.onlyReads.bind fun a => (hf a).onlyReads
  steady := hm.steady.bind fun a => (hf a).steady
  calmly := fun left c => (hm.calmly left c).bind fun a t _ => (hf a).calmly left t

theorem recv (n : Int) : ReadsAlike (Conn.recv n) where
  onlyReads := .recv n
  steady := recv_stalls n
  calmly := by
    intro left c
    simp only [Calmly, Conn.recv, Conn.lasting, Conn.take]
    split
    · rfl
    split
    · rfl
    split
    · rfl
    split
    · split <;> rfl
    · split <;> rfl
    · rfl
    · rfl

theorem recvNumber (size : Nat) : ReadsAlike (recvNumber size) := bind (recv size) fun _ => pure _

theorem recvText (size : Nat) : ReadsAlike (recvText size) :=
  bind (recv size) fun _ => bind (ofOption _ _) fun _ => pure _

theorem getHeader : ReadsAlike Request.getHeader := by
  refine bind (recv _) fun id => ?_
  split
  · exact pure _
  · exact bind (recvNumber _) fun _ => bind (recvNumber _) fun _ =>
      bind (recvNumber _) fun _ => pure _

theorem recvPacket (payloadSize : Nat) : ReadsAlike (Request.recvPacket payloadSize) :=
  bind (recvNumber _) fun _ => bind (recvNumber _) fun _ => bind (recvNumber _) fun _ =>
    bind (recvNumber _) fun _ => bind (recvText _) fun _ => bind (recv _) fun _ => pure _

end ReadsAlike

/-- A command that sends nothing, whatever the peer takes in, and changes no id. -/
structure Mute {α : Type} (m : Py α) : Prop where
  same : ∀ w : World, w.conn.SameEnd (m.run w).2.conn
  ids : ∀ w, (m.run w).2.server.ids = w.server.ids
  steady : Act.Steady (fun w : World => w.conn.stalls) m
  calmly : ∀ left w, Calmly (World.lasting left) m w

namespace Mute

variable {α β : Type}

theorem pure (a : α) : Mute (Pure.pure a : Py α) :=
  ⟨fun w => .refl w.conn, fun _ => rfl, .pure a, fun _ _ => rfl⟩

theorem raise (e : PyError) : Mute (Act.raise e : Py α) :=
  ⟨fun w => .refl w.conn, fun _ => rfl, .raise e, fun _ _ => rfl⟩

theorem bind {m : Py α} {f : α → Py β} (hm : Mute m) (hf : ∀ a, Mute (f a)) :
    Mute (m >>= f) where
  same := by
    intro w
    have hfirst : Keeps (fun v : World => w.conn.SameEnd v.conn) m := fun v hv =>
      hv.trans (hm.same v)
    exact hfirst.bind (fun a v hv => hv.trans ((hf a).same v)) w (.refl w.conn)
  ids := by
    intro w
    have hfirst : Keeps (fun v : World => v.server.ids = w.server.ids) m := fun v hv =>
      (hm.ids v).trans hv
    exact hfirst.bind (fun a v hv => ((hf a).ids v).trans hv) w rfl
  steady := hm.steady.bind fun a => (hf a).steady
  calmly := fun left w => (hm.calmly left w).bind fun a t _ => (hf a).calmly left t

theorem ofOption (e : PyError) (o : Option α) : Mute (Act.ofOption e o : Py α) := by
  cases o with
  | none => exact raise e
  | some a => exact pure a

theorem whenever {c : Prop} [Decidable c] {m : Py Unit} (hm : Mute m) :
    Mute (Act.whenever c m) := by
  rw [Act.whenever]
  split
  · exact hm
  · exact pure ()

theorem onConn {m : Net α} (hm : ReadsAlike m) : Mute (onConn m) where
  same := fun w => hm.onlyReads w.conn
  ids := fun _ => rfl
  steady := hm.steady.onPart fun _ _ => rfl
  calmly := by
    intro left w
    have hrun := hm.calmly left w.conn
    simp only [Calmly] at hrun
    simp only [Calmly, SecureTransfer.onConn, onPart, World.lasting, hrun]

theorem modifyServer {f : Server → Server} (hf : ∀ s, (f s).ids = s.ids) :
    Mute (modifyServer f) :=
  ⟨fun w => .refl w.conn, fun w => hf w.server, .modify fun _ => rfl, fun _ _ => rfl⟩

/-- A command chosen by looking at the server. -/
theorem getServer {f : Server → Py α} (hf : ∀ s, Mute (f s)) : Mute (getServer >>= f) where
  same := fun w => (hf w.server).same w
  ids := fun w => (hf w.server).ids w
  steady := fun w => (hf w.server).steady w
  calmly := fun left w => (hf w.server).calmly left w

/-- What is looked up on the server is put into another part of it. -/
theorem replace {e : PyError} {look : Server → Option α} {put : Server → α → Server}
    (hput : ∀ s a, (put s a).ids = s.ids) : Mute (do
      let s ← SecureTransfer.getServer
      let a ← Act.ofOption e (look s)
      setServer (put s a)) := by
  have hrun : ∀ w : World, (do
      let s ← SecureTransfer.getServer
      let a ← Act.ofOption e (look s)
      setServer (put s a)).run w = match look w.server with
        | none => (.raised e, w)
        | some a => (.done (), { w with server := put w.server a }) := by
    intro w
    change (Act.ofOption e (look w.server) >>= fun a => setServer (put w.server a)).run w = _
    cases look w.server <;> rfl
  refine ⟨?_, ?_, ?_, ?_⟩
  · intro w
    rw [hrun]
    split
    · exact .refl w.conn
    · exact .refl w.conn
  · intro w
    rw [hrun]
    split
    · rfl
    · exact hput w.server _
  · intro w
    rw [hrun]
    split
    · exact ⟨rfl, fun _ => by simp⟩
    · exact ⟨rfl, fun _ => by simp⟩
  · intro left w
    rw [Calmly, hrun, hrun]
    simp only [World.lasting]
    cases look w.server <;> rfl

theorem tick : Mute tick := by
  have hrun : ∀ w : World, ∃ o : Outcome PyError Unit, o ≠ .blocked ∧
      ∀ left, SecureTransfer.tick.run (w.lasting left) =
        (o, { w.lasting left with faults := w.faults.tail }) := by
    intro w
    obtain ⟨s, c, faults⟩ := w
    cases faults with
    | nil => exact ⟨.done (), by simp, fun _ => rfl⟩
    | cons fault faults =>
        cases fault with
        | false => exact ⟨.done (), by simp, fun _ => rfl⟩
        | true => exact ⟨.raised .osError, by simp, fun _ => rfl⟩
  have hsame : ∀ w : World, (SecureTransfer.tick.run w).2.conn = w.conn ∧
      (SecureTransfer.tick.run w).2.server = w.server ∧
        (SecureTransfer.tick.run w).1 ≠ .blocked := by
    intro w
    obtain ⟨o, ho, hends⟩ := hrun w
    have hthis : SecureTransfer.tick.run w = (o, { w with faults := w.faults.tail }) :=
      hends w.conn.sendsLeft
    rw [hthis]
    exact ⟨rfl, rfl, ho⟩
  refine ⟨?_, ?_, ?_, ?_⟩
  · intro w
    rw [(hsame w).1]
    exact .refl w.conn
  · intro w
    rw [(hsame w).2.1]
  · intro w
    exact ⟨congrArg Conn.stalls (hsame w).1, fun _ => (hsame w).2.2⟩
  · intro left w
    obtain ⟨o, -, hends⟩ := hrun w
    have hthis : SecureTransfer.tick.run w = (o, { w with faults := w.faults.tail }) :=
      hends w.conn.sendsLeft
    rw [Calmly, hthis, hends left]
    rfl

theorem getClient (client : Nat) : Mute (getClient client) := getServer fun _ => ofOption _ _

theorem modifyClient (client : Nat) {f : Client → Client}
    (hf : ∀ c, (f c).clientId = c.clientId) : Mute (SecureTransfer.modifyServer
      (·.modifyClient client f)) := by
  apply modifyServer
  intro s
  apply List.ext_getElem?
  intro i
  simp only [Server.ids, Server.modifyClient, List.getElem?_map, List.getElem?_modify]
  cases s.clientsList[i]? with
  | none => rfl
  | some c =>
      by_cases hi : client = i
      · simp [hi, hf]
      · simp [hi]

theorem connect (site : Platform) : Mute (Sql.connect site) := by
  refine bind tick fun _ => ?_
  cases site.sqlite with
  | none => exact pure ()
  | some sqlite => exact bind (modifyServer fun _ => rfl) fun _ => replace fun _ _ => rfl

theorem modifyTables (site : Platform) (f : Tables → Tables) : Mute (Sql.modifyTables site f) := by
  apply modifyServer
  intro s
  rw [Platform.save]
  split <;> rfl

theorem sql {site : Platform} (f : Tables → Tables) :
    Mute (Sql.connect site >>= fun _ => Sql.modifyTables site f) :=
  bind (connect site) fun _ => modifyTables site f

theorem addClientDb {site : Platform} (c : Client) : Mute (Sql.addClientDb site c) := by
  refine bind (connect site) fun _ => getServer fun s => ?_
  split
  · exact raise _
  · exact modifyTables site _

theorem addFileDb {site : Platform} (file : File) : Mute (Sql.addFileDb site file) := by
  refine bind (connect site) fun _ => getServer fun s => ?_
  split
  · exact raise _
  · exact modifyTables site _

theorem deleteFile {site : Platform} (fileName : Text) : Mute (Sql.deleteFile site fileName) := by
  refine bind (connect site) fun _ => getServer fun s => ?_
  split
  · exact modifyTables site _
  · exact raise _

theorem onDisk (f : FileTree → Option FileTree) : Mute (onDisk f) :=
  bind tick fun _ => replace fun _ _ => rfl

theorem createDecryptedFile (site : Platform) (path : Text) (aesKey : Bytes) :
    Mute (createDecryptedFile site path aesKey) :=
  bind (bind tick fun _ => getServer fun _ => ofOption _ _) fun _ => bind (ofOption _ _) fun _ =>
    bind (onDisk _) fun _ => bind (onDisk _) fun _ => pure _

theorem lastSeen {site : Platform} (draws : Draws) (client : Nat) :
    Mute (lastSeen site draws client) :=
  bind (getClient client) fun _ => bind (sql _) fun _ => modifyClient client fun _ => rfl

end Mute

/-- Whatever the peer takes in, a command ends in one way and has sent nothing, waiting for
bytes at most, or it comes down to sending one message. -/
def Spoken (P : Message → Prop) (m : Py Unit) (w : World) : Prop :=
  ∃ w' : World, w'.conn.sent = w.conn.sent ∧
    ((∃ o, (o = .blocked → w.conn.stalls = true) ∧
        ∀ left, m.run (w.lasting left) = (o, w'.lasting left)) ∨
      ∃ msg, P msg ∧ msg.Fits ∧
        ∀ left, m.run (w.lasting left) = (onConn msg.send).run (w'.lasting left))

/-- From a state with these ids. -/
def Speaks (ids : List Bytes) (P : Message → Prop) (m : Py Unit) : Prop :=
  ∀ w, w.server.ids = ids → Spoken P m w

namespace Speaks

variable {α : Type} {ids : List Bytes} {P : Message → Prop}

theorem of_mute {m : Py Unit} (hm : Mute m) : Speaks ids P m := fun w _ =>
  ⟨(m.run w).2, (hm.same w).sent, .inl ⟨(m.run w).1, fun h => hm.steady.of_blocked (Prod.ext h rfl),
    fun left => hm.calmly left w⟩⟩

theorem raise (e : PyError) : Speaks ids P (Act.raise e) := of_mute (.raise e)

theorem bind {m : Py α} {f : α → Py Unit} (hm : Mute m) (hf : ∀ a, Speaks ids P (f a)) :
    Speaks ids P (m >>= f) := by
  intro w hw
  have hsent := (hm.same w).sent
  have hids := hm.ids w
  have hsteady := hm.steady w
  have hcalmly := fun left => hm.calmly left w
  rcases hrun : m.run w with ⟨o, t⟩
  simp only [Calmly, hrun] at hsent hids hsteady hcalmly
  cases o with
  | done a =>
      obtain ⟨w', hsent', hends⟩ := hf a t (hids.trans hw)
      refine ⟨w', hsent'.trans hsent, ?_⟩
      simp only [fun left => bind_done (f := f) (hcalmly left), ← hsteady.1]
      exact hends
  | raised e =>
      exact ⟨t, hsent, .inl ⟨.raised e, by simp, fun left => bind_raised (hcalmly left)⟩⟩
  | blocked =>
      exact ⟨t, hsent, .inl ⟨.blocked, fun _ => hm.steady.of_blocked hrun,
        fun left => bind_blocked (hcalmly left)⟩⟩

theorem getServer {f : Server → Py Unit} (hf : ∀ s, s.ids = ids → Speaks ids P (f s)) :
    Speaks ids P (getServer >>= f) := fun w hw => hf w.server hw w hw

/-- A change of the clients in memory. -/
theorem modifyServer {g : Server → Server} {m : Py Unit} (hm : ∀ ids, Speaks ids P m) :
    Speaks ids P (modifyServer g >>= fun _ => m) :=
  fun w _ => hm _ { w with server := g w.server } rfl

theorem ofOption {e : PyError} {o : Option α} {f : α → Py Unit}
    (hf : ∀ a, o = some a → Speaks ids P (f a)) : Speaks ids P (Act.ofOption e o >>= f) := by
  cases o with
  | none => exact raise e
  | some a => exact hf a rfl

theorem require {c : Prop} [Decidable c] {e : PyError} {f : Unit → Py Unit}
    (hf : c → Speaks ids P (f ())) : Speaks ids P (Act.require c e >>= f) := by
  by_cases h : c
  · rw [require_pos h]
    exact hf h
  · rw [require_neg h]
    exact raise e

theorem whenever {c : Prop} [Decidable c] {m : Py Unit} (hm : Speaks ids P m) :
    Speaks ids P (Act.whenever c m) := by
  by_cases h : c
  · rwa [whenever_pos h]
  · rw [whenever_neg h]
    exact of_mute (.pure ())

theorem getClient {client : Nat} {id : Bytes} {f : Client → Py Unit} (hid : ids[client]? = some id)
    (hf : ∀ c, c.clientId = id → Speaks ids P (f c)) : Speaks ids P (getClient client >>= f) := by
  rw [SecureTransfer.getClient, bind_assoc]
  refine getServer fun s hs => ofOption fun c hc => hf c ?_
  have hget : ids[client]? = some c.clientId := by
    rw [← hs, Server.ids, List.getElem?_map, hc]
    rfl
  exact Option.some.inj (hget.symm.trans hid)

theorem send {m : Message} (hfits : m.Fits) (hP : P m) : Speaks ids P (onConn m.send) :=
  fun w _ => ⟨w, rfl, .inr ⟨m, hP, hfits, fun _ => rfl⟩⟩

theorem mono {Q : Message → Prop} {m : Py Unit} (hm : Speaks ids P m) (h : ∀ m, P m → Q m) :
    Speaks ids Q m := by
  intro w hw
  obtain ⟨w', hsent, hends⟩ := hm w hw
  refine ⟨w', hsent, hends.imp_right fun hsends => ?_⟩
  obtain ⟨msg, hP, hfits, hrun⟩ := hsends
  exact ⟨msg, h msg hP, hfits, hrun⟩

end Speaks

/-! What the handlers send once they have read their fields. -/

theorem getElem?_of_findIdx? {ids : List Bytes} {s : Server} (hs : s.ids = ids) {client : Nat}
    {c : Client} (h : s.clientsList[client]? = some c) : ids[client]? = some c.clientId := by
  rw [← hs, Server.ids, List.getElem?_map, h]
  rfl

section
variable (site : Platform) (draws : Draws) {ids : List Bytes} {client : Nat} {id : Bytes}

theorem createSendAes_speaks {code : Nat} {P : Message → Prop}
    (hcode : code < 256 ^ General.codeSize) (hclient : ids[client]? = some id)
    (hP : ∀ encrypted, General.clientIdSize + encrypted.length < 256 ^ General.payloadSizeSize →
      P (.aesKey code id encrypted)) : Speaks ids P (createSendAes site draws code client) := by
  refine .bind (.modifyClient client fun _ => rfl) fun _ => .getClient hclient fun c hc =>
    .bind (.sql _) fun _ => ?_
  rw [encryptByPublicKey, bind_assoc]
  refine .ofOption fun key _ => .ofOption fun encrypted hencrypt => ?_
  have hlen := site.length_oaepEncrypt _ _ _ _ hencrypt
  have hfits : General.clientIdSize + encrypted.length < 256 ^ General.payloadSizeSize := by
    have hid : General.clientIdSize = 16 := rfl
    have hsize : 256 ^ General.payloadSizeSize = 4294967296 := rfl
    omega
  have hsend : (do
      Answer.sendHeaderToClient ⟨code, General.clientIdSize + encrypted.length⟩
      Conn.sendall c.clientId
      Conn.sendall encrypted) = (Message.aesKey code id encrypted).send := by
    simp [Message.send, Message.aesKey, sendParts, hc]
  rw [hsend]
  exact .send (Message.fits_of_eq rfl hcode hfits) (hP encrypted hfits)

theorem reconnectionFailed_eq (id : Bytes) :
    Request.reconnectionFailed id = (Message.reconnectionFailed id).send := by
  simp [Request.reconnectionFailed, Message.send, Message.reconnectionFailed, sendParts]

theorem reconnectionFailed_speaks (name : Text) :
    Speaks ids (Emits id (.reconnection name)) (onConn (Request.reconnectionFailed id)) := by
  rw [reconnectionFailed_eq]
  exact .send (Message.fits_of_eq rfl (by decide) (by decide)) .reconnectionFailed

theorem register_speaks (name : Text) :
    Speaks ids (Emits id (.registration name)) (Request.register site draws name) := by
  refine .getServer fun s hs => ?_
  split
  · exact .bind (.lastSeen draws _) fun _ => .raise _
  · rw [Client.init, bind_assoc]
    refine .getServer fun s _ => ?_
    rw [bind_assoc]
    refine .bind (.whenever (.onDisk _)) fun _ => ?_
    rw [pure_bind]
    refine .modifyServer fun ids => .bind (.addClientDb _) fun _ => ?_
    have hsend : (do
        Answer.sendHeaderToClient ⟨General.registrationDone1600, General.clientIdSize⟩
        Conn.sendall draws.uuid) = (Message.registrationDone draws.uuid).send := by
      simp [Message.send, Message.registrationDone, sendParts]
    rw [hsend]
    exact .send (Message.fits_of_eq rfl (by decide) (by decide))
      (.registrationDone draws.length_uuid)

theorem reconnect_speaks (name : Text) :
    Speaks ids (Emits id (.reconnection name)) (Request.reconnect site draws id name) := by
  refine .getServer fun s hs => ?_
  cases hfound : s.clientsList.findIdx? (·.clientName = name) with
  | none => exact reconnectionFailed_speaks name
  | some client =>
      obtain ⟨c₀, hget, -⟩ := named?_of_findIdx? hfound
      refine .getClient (getElem?_of_findIdx? hs hget) fun c hc => .require fun hid => ?_
      obtain rfl : id = c₀.clientId := hid.trans hc
      refine .bind (.lastSeen draws _) fun _ => ?_
      split
      · rw [hc]
        exact reconnectionFailed_speaks name
      · exact createSendAes_speaks site draws (by decide) (getElem?_of_findIdx? hs hget)
          fun encrypted hfits => .reconnected hfits

theorem takePublicKey_speaks (name : Text) (key : Outcome PyError Bytes) :
    Speaks ids (Emits id (.publicKey name key)) (Request.takePublicKey site draws id name) := by
  refine .getServer fun s hs => ?_
  cases hfound : s.clientsList.findIdx? (·.clientName = name) with
  | none => exact .raise _
  | some client =>
      obtain ⟨c₀, hget, -⟩ := named?_of_findIdx? hfound
      refine .getClient (getElem?_of_findIdx? hs hget) fun c hc => .require fun hid => ?_
      obtain rfl : id = c₀.clientId := hid.trans hc
      refine .bind (.onConn (.recv _)) fun publicKey => .bind (.modifyClient _ fun _ => rfl)
        fun _ => .bind (.sql _) fun _ => .bind (.lastSeen draws _) fun _ => ?_
      exact createSendAes_speaks site draws (by decide) (getElem?_of_findIdx? hs hget)
        fun encrypted hfits => .keyTaken hfits

theorem lastPacket_speaks {p : Packet} (hsize : p.contentSize < 256 ^ General.contentSizeSize)
    {file : File} {c : Client} (hid : c.clientId = id) (hname : file.fileName = p.fileName) :
    Speaks ids (Emits id (.packet p)) (whenever (p.packetNumber = p.totalPackets)
      (lastPacket site file c p.contentSize p.origFileSize)) := by
  refine .whenever ?_
  rw [lastPacket_eq site file p hsize]
  refine .bind (.createDecryptedFile site _ _) fun plain => .require fun _ => ?_
  rw [hid, hname]
  exact .send (Message.fits_of_eq rfl (by decide) (by decide))
    (.fileReceived (Cksum.memcrc_lt plain))

theorem storePacket_speaks {p : Packet} (hsize : p.contentSize < 256 ^ General.contentSizeSize) :
    Speaks ids (Emits id (.packet p)) (Request.storePacket site draws id p) := by
  refine .getServer fun s hs => ?_
  cases hfound : s.clientsList.findIdx? (·.clientId = id) with
  | none => exact .raise _
  | some client =>
      obtain ⟨c₀, hget, -, rfl⟩ := client?_of_findIdx? hfound
      refine .getClient (getElem?_of_findIdx? hs hget) fun c hc => .bind (.onDisk _) fun _ =>
        .bind (.onDisk _) fun _ => .bind (.lastSeen draws _) fun _ => ?_
      cases hfile : c.filesList.findIdx? (·.fileName = p.fileName) with
      | some file =>
          obtain ⟨f₀, hget', -, hname⟩ := fileNamed_of_findIdx? hfile
          refine .ofOption fun f hf => .bind (.whenever ?_) fun _ => ?_
          · exact .bind (.modifyClient _ fun _ => rfl) fun _ => .sql _
          · obtain rfl : f₀ = f := Option.some.inj (hget'.symm.trans hf)
            exact lastPacket_speaks site hsize hc hname
      | none =>
          refine .require fun _ => .bind (.addFileDb _) fun _ =>
            .bind (.modifyClient _ fun _ => rfl) fun _ => ?_
          exact lastPacket_speaks site hsize hc rfl

theorem crcVerdict_speaks (code : Nat) (fileName : Text) :
    Speaks ids (Emits id (.verdict code fileName))
      (Request.crcVerdict site draws id code fileName) := by
  refine .getServer fun s hs => ?_
  cases hfound : s.clientsList.findIdx? (·.clientId = id) with
  | none => exact .raise _
  | some client =>
      obtain ⟨c₀, hget, -, rfl⟩ := client?_of_findIdx? hfound
      refine .getClient (getElem?_of_findIdx? hs hget) fun c hc => .bind (.lastSeen draws _)
        fun _ => ?_
      have hthanks : Speaks ids (Emits c₀.clientId (.verdict code fileName))
          (onConn (thankYouAnswer c.clientId)) := by
        rw [thankYouAnswer_eq, hc]
        exact .send (Message.fits_of_eq rfl (by decide) (by decide)) .thankYou
      cases c.filesList.findIdx? (·.fileName = fileName) with
      | none => exact .raise _
      | some file =>
          refine .ofOption fun f _ => .require fun _ => ?_
          by_cases h900 : code = General.validCrcRequest900
          · have h902 : ¬ code = General.invalidCrc4thRequest902 := by rw [h900]; decide
            rw [whenever_pos h900, whenever_neg h902, bind_pure]
            exact .bind (.modifyClient _ fun _ => rfl) fun _ => .bind (.sql _) fun _ => hthanks
          · rw [whenever_neg h900, pure_bind]
            refine .whenever (.bind (.onDisk _) fun _ => .bind (.modifyClient _ fun _ => rfl)
              fun _ => .bind (.deleteFile _) fun _ => hthanks)

/-! The callback. -/

/-- The sendall calls that a message takes. -/
def Message.calls (m : Message) : Nat := 3 + m.parts.length

/-- A command that sends this message, and finishes exactly if the peer takes in all of it. -/
structure Delivers (msg : Message) (n : Net Unit) : Prop where
  calls : MakesCalls msg.calls n
  sent : ∀ c : Conn, c.sendsLeft = none → (n.run c).2.sent = c.sent ++ msg.bytes

theorem Delivers.failure (registration : Bool) :
    Delivers (failureMessage registration) (failure registration) where
  calls := .failure registration
  sent := by
    intro c hc
    rw [failure_stays hc]
    rfl

theorem Delivers.send {msg : Message} (hfits : msg.Fits) (registration : Bool) :
    Delivers msg (Act.attempt msg.send fun _ => SecureTransfer.failure registration) where
  calls := (MakesCalls.send hfits).attempt (by decide) (.failure registration)
  sent := by
    intro c hc
    rw [attempt_done (send_stays hc hfits)]
    rfl

/-- Whatever the peer takes in, the callback sends nothing and finishes, or waits for bytes, or
it comes down to the delivery of one message. -/
def EndsAlike (P : Message → Prop) (m : Py Unit) (w : World) : Prop :=
  ∃ w' : World, w'.conn.sent = w.conn.sent ∧
    ((∃ o, (o = .done () ∨ o = .blocked ∧ w.conn.stalls = true) ∧
        ∀ left, m.run (w.lasting left) = (o, w'.lasting left)) ∨
      ∃ msg n, P msg ∧ Delivers msg n ∧
        ∀ left, m.run (w.lasting left) = (onConn n).run (w'.lasting left))

namespace EndsAlike

variable {P : Message → Prop} {m : Py Unit} {w w₁ : World}

/-- Some reading comes first. -/
theorem after {m' : Py Unit} (h : EndsAlike P m' w₁)
    (hrun : ∀ left, m.run (w.lasting left) = m'.run (w₁.lasting left))
    (hsent : w₁.conn.sent = w.conn.sent) (hstalls : w₁.conn.stalls = w.conn.stalls) :
    EndsAlike P m w := by
  obtain ⟨w', hsent', hends⟩ := h
  refine ⟨w', hsent'.trans hsent, ?_⟩
  simp only [hrun, ← hstalls]
  exact hends

theorem waits (hstalls : w.conn.stalls = true) (hsent : w₁.conn.sent = w.conn.sent)
    (hrun : ∀ left, m.run (w.lasting left) = (.blocked, w₁.lasting left)) : EndsAlike P m w :=
  ⟨w₁, hsent, .inl ⟨.blocked, .inr ⟨rfl, hstalls⟩, hrun⟩⟩

/-- The handlers of an exception. -/
theorem failed {e : PyError} {registration : Bool} (hP : P (failureMessage registration))
    (hsent : w₁.conn.sent = w.conn.sent)
    (hrun : ∀ left, m.run (w.lasting left) = (.raised e, w₁.lasting left)) :
    EndsAlike P (attempt m fun _ => onConn (failure registration)) w :=
  ⟨w₁, hsent, .inr ⟨_, _, hP, .failure registration, fun left => attempt_raised (hrun left)⟩⟩

theorem attempt (h : Spoken P m w) (registration : Bool) (hP : P (failureMessage registration)) :
    EndsAlike P (attempt m fun _ => onConn (failure registration)) w := by
  obtain ⟨w', hsent, ⟨o, hwaits, hrun⟩ | ⟨msg, hmsg, hfits, hrun⟩⟩ := h
  · cases o with
    | done _ => exact ⟨w', hsent, .inl ⟨.done (), .inl rfl, fun left => attempt_done (hrun left)⟩⟩
    | raised e => exact failed hP hsent hrun
    | blocked => exact waits (hwaits rfl) hsent fun left => attempt_blocked (hrun left)
  · refine ⟨w', hsent, .inr ⟨msg, _, hmsg, .send hfits registration, fun left => ?_⟩⟩
    rw [attempt_congr (hrun left), onConn_attempt]

end EndsAlike

/-- A request whose fields are read by one command, on any server. -/
theorem ofRead_endsAlike {α : Type} (clientId : Bytes) (registration : Bool) (body : α → Body)
    {m : Net α} (hm : ReadsAlike m) (g : α → Py Unit)
    (hbody : ∀ a, (body a).isRegistration = registration)
    (hg : ∀ a c c', m.run c = (.done a, c') → Speaks ids (Emits clientId (body a)) (g a))
    {w : World} (hw : w.server.ids = ids) :
    EndsAlike (Reception.ofRead clientId registration body (m.run w.conn)).incoming.Answers
      (attempt (onConn m >>= g) fun _ => onConn (failure registration)) w := by
  have hmute := Mute.onConn hm
  rcases hrun : m.run w.conn with ⟨o, c'⟩
  have hread : (onConn m).run w = (o, { w with conn := c' }) := by
    simp only [onConn, onPart, hrun]
  have hsent := (hmute.same w).sent
  have hsteady := hmute.steady w
  have hcalmly := fun left => hmute.calmly left w
  simp only [Calmly, hread] at hsent hsteady hcalmly
  cases o with
  | done a =>
      refine (EndsAlike.attempt ((hg a _ _ hrun).mono (fun _ => .inl) { w with conn := c' } hw)
        registration ?_).after (fun left => attempt_congr (bind_done (hcalmly left)) _) hsent
        hsteady.1
      exact .inr ⟨registration, fun he => (hbody a).trans he, rfl⟩
  | raised e => exact EndsAlike.failed rfl hsent fun left => bind_raised (hcalmly left)
  | blocked =>
      exact EndsAlike.waits (hmute.steady.of_blocked hread) hsent fun left =>
        attempt_blocked (bind_blocked (hcalmly left))

theorem withKey_endsAlike {w : World} (hw : w.server.ids = ids) :
    EndsAlike (Reception.withKey id
        ((recvText General.clientNameSize).run w.conn)).incoming.Answers
      (attempt (do
          let newClientName ← onConn (recvText General.clientNameSize)
          Request.takePublicKey site draws id newClientName)
        fun _ => onConn (failure false)) w := by
  have hmute := Mute.onConn (.recvText General.clientNameSize)
  rcases hrun : (recvText General.clientNameSize).run w.conn with ⟨o, c'⟩
  have hread : (onConn (recvText General.clientNameSize)).run w = (o, { w with conn := c' }) := by
    simp only [onConn, onPart, hrun]
  have hsent := (hmute.same w).sent
  have hsteady := hmute.steady w
  have hcalmly := fun left => hmute.calmly left w
  simp only [Calmly, hread] at hsent hsteady hcalmly
  cases o with
  | done name =>
      refine (EndsAlike.attempt ((takePublicKey_speaks site draws name _).mono (fun _ => .inl)
        { w with conn := c' } hw) false ?_).after
        (fun left => attempt_congr (bind_done (hcalmly left)) _) hsent hsteady.1
      exact .inr ⟨false, (fun h => by cases h), rfl⟩
  | raised e => exact EndsAlike.failed rfl hsent fun left => bind_raised (hcalmly left)
  | blocked =>
      exact EndsAlike.waits (hmute.steady.of_blocked hread) hsent fun left =>
        attempt_blocked (bind_blocked (hcalmly left))

theorem dispatch_endsAlike (r : Request) {w : World} (hw : w.server.ids = ids) :
    EndsAlike (Reception.ofHeader r w.conn).incoming.Answers
      (attempt (do onConn r.headerValidation; dispatch site draws r)
        fun _ => onConn (failure false)) w := by
  rw [Reception.ofHeader]
  by_cases hversion : r.version = General.version
  · rw [if_neg (by simpa using hversion)]
    have hvalid : onConn r.headerValidation = pure () := by
      rw [Request.headerValidation, require_pos hversion]
      rfl
    rw [hvalid, pure_bind, dispatch]
    split
    · rw [attempt_attempt]
      have hfail : (fun _ : PyError => onConn (failure true)) = fun _ => attempt
          (onConn (reject General.registrationFailed1601)) fun _ => onConn (failure false) := by
        funext _
        rw [onConn_attempt]
        rfl
      have h := ofRead_endsAlike r.clientId true .registration (.recvText General.clientNameSize)
        (Request.register site draws) (fun _ => rfl)
        (fun name c c' _ => register_speaks site draws name) hw
      rw [hfail] at h
      exact h
    split
    · exact ofRead_endsAlike r.clientId false .reconnection (.recvText General.clientNameSize)
        (Request.reconnect site draws r.clientId) (fun _ => rfl)
        (fun name c c' _ => reconnect_speaks site draws name) hw
    split
    · exact withKey_endsAlike site draws hw
    split
    · exact ofRead_endsAlike r.clientId false .packet (.recvPacket r.payloadSize)
        (Request.storePacket site draws r.clientId) (fun _ => rfl)
        (fun p c c' hp => storePacket_speaks site draws (recvPacket_contentSize hp)) hw
    split
    · exact ofRead_endsAlike r.clientId false (.verdict r.code) (.recvText General.fileNameSize)
        (Request.crcVerdict site draws r.clientId r.code) (fun _ => rfl)
        (fun name c c' _ => crcVerdict_speaks site draws r.code name) hw
    · exact EndsAlike.failed rfl rfl fun left => run_raise _ _
  · rw [if_pos hversion]
    have hinvalid : onConn r.headerValidation = raise .typeError := by
      rw [Request.headerValidation, require_neg hversion]
      rfl
    rw [hinvalid, raise_bind]
    exact EndsAlike.failed rfl rfl fun left => run_raise _ _

/-- A callback sends nothing, or one answer to what it finds, which does not depend on what the
peer takes in. -/
theorem read_endsAlike (w : World) :
    EndsAlike (receive w.conn).incoming.Answers (read site draws) w := by
  have hmute := Mute.onConn .getHeader
  rw [read, receive]
  rcases hrun : Request.getHeader.run w.conn with ⟨o, c'⟩
  have hread : (onConn Request.getHeader).run w = (o, { w with conn := c' }) := by
    simp only [onConn, onPart, hrun]
  have hsent := (hmute.same w).sent
  have hsteady := hmute.steady w
  have hcalmly := fun left => hmute.calmly left w
  simp only [Calmly, hread] at hsent hsteady hcalmly
  cases o with
  | done header =>
      cases header with
      | none =>
          refine ⟨{ w with conn := { c' with registered := false } }, hsent,
            .inl ⟨.done (), .inl rfl, fun left => ?_⟩⟩
          exact attempt_done ((bind_done (hcalmly left)).trans rfl)
      | some r =>
          exact (dispatch_endsAlike site draws r (w := { w with conn := c' }) rfl).after
            (fun left => attempt_congr (bind_done (hcalmly left)) _) hsent hsteady.1
  | raised e =>
      have hfailed : Incoming.Answers (.malformed false) (failureMessage false) := rfl
      exact EndsAlike.failed hfailed hsent fun left => bind_raised (hcalmly left)
  | blocked =>
      exact EndsAlike.waits (hmute.steady.of_blocked hread) hsent fun left =>
        attempt_blocked (bind_blocked (hcalmly left))

theorem read_emits (w : World) (hstays : w.conn.sendsLeft = none) :
    ((read site draws).run w).2.conn.sent = w.conn.sent ∨
      ∃ m, (receive w.conn).incoming.Answers m ∧
        ((read site draws).run w).2.conn.sent = w.conn.sent ++ m.bytes := by
  have hsame : w.lasting none = w := by
    rw [← hstays]
    rfl
  obtain ⟨w', hsent, ⟨o, -, hrun⟩ | ⟨m, n, hm, hdelivers, hrun⟩⟩ := read_endsAlike site draws w
  · have hends := hrun none
    rw [hsame] at hends
    rw [hends]
    exact .inl hsent
  · have hends := hrun none
    rw [hsame] at hends
    rw [hends]
    refine .inr ⟨m, hm, ?_⟩
    rw [← hsent]
    exact hdelivers.sent (w'.lasting none).conn rfl

end

end SecureTransfer
