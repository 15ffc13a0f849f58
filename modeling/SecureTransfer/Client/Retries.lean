import SecureTransfer.Client.Codec

/-!
How often the client tries. A ledger notes what a run has sent, what it has read and how
the attempts to send the file have failed; each function of the client sends only what
the ledger allows, whatever the server answers.
-/

open Octets (Text toLittle ofLittle padTo)
open Dialogue

namespace SecureTransfer
namespace ClientSide

/-- How an attempt to send the file can fail. -/
inductive Failure where
  | generalError
  | wrongCrc
deriving DecidableEq, Repr

/-- `sent` are the codes of the requests, the latest first; `fields` the fields read since
the last request or query. From the first 1602 or 1605 on the run is `keyed`, and each file
that is read then is a start of `send_file`; it is `uploading` until a request that is no
packet. `echo` is the CRC of the last 1603. -/
structure Ledger where
  sent : List Nat
  fields : List Bytes
  keyed : Bool
  uploading : Bool
  starts : Nat
  file : Bytes
  failures : List Failure
  echo : Option Nat
deriving DecidableEq, Repr

/-- The code in the header of a request. -/
def codeOf (data : Bytes) : Nat := ofLittle ((data.drop (clientIdSize + versionSize)).take codeSize)

namespace Ledger

def new : Ledger := ⟨[], [], false, false, 0, [], [], none⟩

def write (data : Bytes) (l : Ledger) : Ledger :=
  { l with
    sent := codeOf data :: l.sent, fields := [],
    uploading := l.uploading && codeOf data = sendFile828 }

def load (content : Option Bytes) (l : Ledger) : Ledger :=
  if l.keyed then
    { l with fields := [], uploading := true, starts := l.starts + 1, file := content.getD [] }
  else { l with fields := [] }

def fail (failed : Bool) (kind : Failure) (l : Ledger) : Ledger :=
  if l.uploading && failed then { l with failures := l.failures ++ [kind] } else l

/-- The second field of an answer is its code, the seventh of a 1603 its CRC. -/
def read (kit : Toolkit) (data : Bytes) (l : Ledger) : Ledger :=
  let noted := { l with fields := l.fields ++ [data] }
  match l.fields with
  | [_] =>
      { noted with
        keyed := l.keyed || ofLittle data = getPublicKeySendAes1602 ||
          ofLittle data = validReconnect1605 }.fail (ofLittle data = generalError1607) .generalError
  | [_, code, _, _, _, _] =>
      if ofLittle code = validFileAndCrc1603 then
        { noted with echo := some (ofLittle data) }.fail
          (ofLittle data ≠ ClientCksum.memcrc kit.longWidth l.file) .wrongCrc
      else noted
  | _ => noted

def note (kit : Toolkit) (l : Ledger) : Observation → Ledger
  | .sent data => l.write data
  | .read data => l.read kit data
  | .asked (.load _) content => l.load content
  | .asked _ _ => { l with fields := [] }

/-- The requests that the client may still send. -/
structure MaySend (kit : Toolkit) (l : Ledger) (code : Nat) : Prop where
  request : code = reconnect827 ∨ code = registering825 ∨ code = sendPublicKey826 →
    l.sent.count code < maxTries
  closing : code = validCrc900 ∨ code = wrongCrc4th902 →
    l.sent.count validCrc900 + l.sent.count wrongCrc4th902 < maxTries
  valid : code = validCrc900 →
    l.echo = some (ClientCksum.memcrc kit.longWidth l.file) ∧ wrongCrc4th902 ∉ l.sent
  wrong : code = wrongCrc4th902 → l.failures.length = maxTries ∧
    l.failures.getLast? = some .wrongCrc ∧ validCrc900 ∉ l.sent

def Permits (kit : Toolkit) (l : Ledger) : Observation → Prop
  | .sent data => l.MaySend kit (codeOf data)
  | .asked (.load _) _ => l.keyed = true → l.starts < maxTries
  | _ => True

/-- What the permitted observations keep. -/
structure Bounded (l : Ledger) : Prop where
  request : ∀ code, code = reconnect827 ∨ code = registering825 ∨ code = sendPublicKey826 →
    l.sent.count code ≤ maxTries
  closing : l.sent.count validCrc900 + l.sent.count wrongCrc4th902 ≤ maxTries
  starts : l.starts ≤ maxTries
  verdict : validCrc900 ∈ l.sent → wrongCrc4th902 ∉ l.sent

variable {kit : Toolkit} {l : Ledger}

theorem bounded_new : new.Bounded :=
  ⟨fun _ _ => Nat.zero_le _, Nat.zero_le _, Nat.zero_le _, fun h => nomatch h⟩

theorem Bounded.write (h : l.Bounded) {data : Bytes} (hmay : l.MaySend kit (codeOf data)) :
    (l.write data).Bounded := by
  have hcount : ∀ code, (l.write data).sent.count code =
      l.sent.count code + if codeOf data = code then 1 else 0 := by
    intro code
    rw [Ledger.write, List.count_cons]
    simp only [beq_iff_eq]
  constructor
  · intro code hcode
    rw [hcount]
    split
    · rename_i hsame
      subst hsame
      exact hmay.request hcode
    · exact h.request code hcode
  · rw [hcount, hcount]
    by_cases h900 : codeOf data = validCrc900
    · have := hmay.closing (.inl h900)
      rw [h900] at *
      simp only [if_true, if_neg (by decide : ¬ validCrc900 = wrongCrc4th902)]
      omega
    by_cases h902 : codeOf data = wrongCrc4th902
    · have := hmay.closing (.inr h902)
      rw [h902] at *
      simp only [if_true, if_neg (by decide : ¬ wrongCrc4th902 = validCrc900)]
      omega
    · rw [if_neg h900, if_neg h902]
      exact h.closing
  · exact h.starts
  · intro h900 h902
    rcases List.mem_cons.mp h900 with hnew | hold
    · rcases List.mem_cons.mp h902 with hnew' | hold'
      · rw [← hnew] at hnew'
        cases hnew'
      · exact (hmay.valid hnew.symm).2 hold'
    · rcases List.mem_cons.mp h902 with hnew' | hold'
      · exact (hmay.wrong hnew'.symm).2.2 hold
      · exact h.verdict hold hold'

theorem sent_read (data : Bytes) :
    (l.read kit data).sent = l.sent ∧ (l.read kit data).starts = l.starts := by
  simp only [Ledger.read, fail]
  split
  · split <;> exact ⟨rfl, rfl⟩
  · split
    · split <;> exact ⟨rfl, rfl⟩
    · exact ⟨rfl, rfl⟩
  · exact ⟨rfl, rfl⟩

theorem Bounded.of_same (h : l.Bounded) {t : Ledger} (hsent : t.sent = l.sent)
    (hstarts : t.starts = l.starts) : t.Bounded :=
  ⟨hsent ▸ h.request, hsent ▸ h.closing, hstarts ▸ h.starts, hsent ▸ h.verdict⟩

theorem Bounded.note (h : l.Bounded) {o : Observation} (hpermits : l.Permits kit o) :
    (l.note kit o).Bounded := by
  cases o with
  | sent data => exact h.write hpermits
  | read data => exact h.of_same (sent_read data).1 (sent_read data).2
  | asked q r =>
      cases q with
      | load path =>
          simp only [Ledger.note, Ledger.load]
          split
          · rename_i hkeyed
            exact ⟨h.request, h.closing, hpermits hkeyed, h.verdict⟩
          · exact h.of_same rfl rfl
      | save _ _ | generateKeys | connect _ _ => exact h.of_same rfl rfl

/-- The ledger after the header of an answer. -/
def headed (version code size : Bytes) (l : Ledger) : Ledger :=
  { l with
    fields := [version, code, size],
    keyed := l.keyed || ofLittle code = getPublicKeySendAes1602 ||
      ofLittle code = validReconnect1605 }.fail (ofLittle code = generalError1607) .generalError

theorem read_header (hl : l.fields = []) (version code size : Bytes) :
    ((l.read kit version).read kit code).read kit size = l.headed version code size := by
  obtain ⟨sent, fields, keyed, uploading, starts, file, failures, echo⟩ := l
  obtain rfl : fields = [] := hl
  cases uploading with
  | false => rfl
  | true =>
      by_cases h : ofLittle code = generalError1607
      · simp [read, headed, fail, h]
      · simp [read, headed, fail, h]

theorem fields_headed (version code size : Bytes) :
    (l.headed version code size).fields = [version, code, size] := by
  rw [headed, fail]
  split <;> rfl

theorem headed_idle (h : l.uploading = false) (version code size : Bytes) :
    l.headed version code size =
      { l with
        fields := [version, code, size],
        keyed := l.keyed || ofLittle code = getPublicKeySendAes1602 ||
          ofLittle code = validReconnect1605 } := by
  rw [headed, fail, if_neg (by simp [h])]

end Ledger

/-! The programs that keep to this. -/

def Ledger.rules (kit : Toolkit) : Prog.Rules Bytes Query Query.Result Ledger where
  okRecv := fun size data => data.length = size
  okQuery := fun _ _ => True
  note := Ledger.note kit
  permits := Ledger.Permits kit
  mayStick := False

abbrev Watched {α : Type} (kit : Toolkit) (post : α → Ledger → Prop) (l : Ledger) (p : Prog α) :
    Prop := Prog.Keeps (Ledger.rules kit) post l p

section
variable {kit : Toolkit} {l : Ledger} {α : Type}

theorem watched_pure {post : α → Ledger → Prop} {a : α} (h : post a l) :
    Watched kit post l (pure a) := .ret h

theorem watched_recv (size : Nat) :
    Watched kit (fun data t => t = l.read kit data) l (recv size) :=
  .recv (fun _ _ => trivial) fun _ _ => .ret rfl

theorem watched_load (path : Bytes) (h : l.keyed = true → l.starts < maxTries) :
    Watched kit (fun content t => t = l.load content) l (ask (.load path)) :=
  .query (fun _ _ => h) fun _ _ => .ret rfl

theorem watched_unlessExit (c : Prop) [Decidable c] :
    Watched kit (fun _ t => c ∧ t = l) l (unlessExit c) := by
  rw [unlessExit]
  split
  · exact .ret ⟨‹c›, rfl⟩
  · exact .exit

theorem watched_orExit (o : Option α) :
    Watched kit (fun a t => o = some a ∧ t = l) l (orExit o) := by
  cases o with
  | none => exact .exit
  | some a => exact .ret ⟨rfl, rfl⟩

/-! The same before the rest of a program. -/

section
variable {β : Type} {post : β → Ledger → Prop}

theorem watched_recv_bind {size : Nat} {f : Bytes → Prog β}
    (h : ∀ data, Watched kit post (l.read kit data) (f data)) :
    Watched kit post l (recv size >>= f) := by
  refine (watched_recv size).bind ?_
  intro data t ht
  subst ht
  exact h data

theorem watched_unlessExit_bind {c : Prop} [Decidable c] {f : Unit → Prog β}
    (h : c → Watched kit post l (f ())) : Watched kit post l (unlessExit c >>= f) := by
  refine (watched_unlessExit c).bind ?_
  intro _ t ht
  obtain ⟨hc, rfl⟩ := ht
  exact h hc

theorem watched_orExit_bind {o : Option α} {f : α → Prog β}
    (h : ∀ a, o = some a → Watched kit post l (f a)) : Watched kit post l (orExit o >>= f) := by
  refine (watched_orExit o).bind ?_
  intro a t ht
  obtain ⟨ha, rfl⟩ := ht
  exact h a ha

end

theorem watched_sendToServer {r : Request} (h : l.MaySend kit (codeOf r.massage)) :
    Watched kit (fun _ t => t = l.write r.massage) l r.sendToServer := .send h (.ret rfl)

theorem watched_getHeader (hl : l.fields = []) :
    Watched kit (fun answer t => ∃ version code size, answer.code = ofLittle code ∧
      t = l.headed version code size) l Answer.getHeaderFromServer := by
  refine watched_recv_bind fun version => ?_
  refine watched_recv_bind fun code => ?_
  refine watched_recv_bind fun size => ?_
  refine watched_unlessExit_bind fun _ => ?_
  exact watched_pure ⟨version, code, size, rfl, Ledger.read_header hl version code size⟩

theorem watched_readStringAndCheck (expected : Bytes) (size : Nat) :
    Watched kit (fun _ t => ∃ data, t = l.read kit data) l
      (Answer.readStringAndCheck expected size) := by
  refine watched_recv_bind fun data => ?_
  refine (watched_unlessExit _).mono ?_
  rintro _ _ ⟨-, rfl⟩
  exact ⟨data, rfl⟩

theorem watched_getNumber (size : Nat) :
    Watched kit (fun n t => ∃ data, n = ofLittle data ∧ t = l.read kit data) l
      (Answer.getNumber size) := by
  refine watched_recv_bind fun data => ?_
  exact watched_pure ⟨data, rfl, rfl⟩

theorem watched_getEncryptedAes (a : Answer) :
    Watched kit (fun _ t => ∃ data, t = l.read kit data) l a.getEncryptedAes := by
  refine watched_unlessExit_bind fun _ => ?_
  exact (watched_recv _).mono fun data t h => ⟨data, h⟩

/-- A failed request is tried again only before the last try. -/
theorem watched_generalErrorHandle (r : Request) :
    Watched kit (fun result t => result = (tryAgain, r.addFailure) ∧
      r.numOfFailures + 1 ≠ maxTries ∧ t = l) l (generalErrorHandle r) := by
  rw [generalErrorHandle]
  refine watched_unlessExit_bind fun h => ?_
  exact watched_pure ⟨rfl, h, rfl⟩

theorem watched_generalErrorHandle_bind {β : Type} {post : β → Ledger → Prop} {r : Request}
    {f : Nat × Request → Prog β}
    (h : r.numOfFailures + 1 ≠ maxTries → Watched kit post l (f (tryAgain, r.addFailure))) :
    Watched kit post l (generalErrorHandle r >>= f) := by
  refine (watched_generalErrorHandle r).bind ?_
  intro result t ht
  obtain ⟨rfl, hlast, rfl⟩ := ht
  exact h hlast

end

/-! Request objects with a code. -/

structure Request.Coded (r : Request) (code : Nat) : Prop where
  clientId : r.clientId.length = clientIdSize
  version : r.version.length = versionSize
  code : r.code = storeLittle codeSize code

theorem Request.Coded.codeOf_massage {r : Request} {code : Nat} (h : r.Coded code)
    (hcode : code < 256 ^ codeSize) : codeOf r.massage = code := by
  have hlen : (r.clientId ++ r.version).length = clientIdSize + versionSize := by
    rw [List.length_append, h.clientId, h.version]
  have hbytes : r.code = toLittle codeSize code := h.code.trans (storeLittle_of_lt hcode)
  rw [codeOf, Request.massage, List.append_assoc, List.append_assoc, List.drop_left' hlen, hbytes,
    List.take_left' (Octets.length_toLittle _ _), Octets.ofLittle_toLittle_of_lt hcode]

theorem Request.coded_setCode {r : Request} (hversion : r.version.length = versionSize) (id : Bytes)
    (code : Nat) : ((r.setClientID id).setCode code).Coded code := by
  refine ⟨?_, hversion, rfl⟩
  change ((padTo clientIdSize id).take clientIdSize).length = clientIdSize
  rw [List.length_take, padTo, List.length_append, List.length_replicate]
  omega

/-- The finish request of `crc_checking`. -/
theorem Request.coded_finish (clientId fileName : Bytes) (code : Nat) :
    Request.Coded ((((Request.new.setClientID clientId).setCode code).setPayloadSize
      nameOfFileSize).appendStringPayload fileName nameOfClientSize) code := by
  have h := @Request.coded_setCode Request.new rfl clientId code
  exact ⟨h.clientId, h.version, h.code⟩

/-! Sending the file. -/

namespace Ledger

variable {kit : Toolkit} {l : Ledger}

/-- After this many failed attempts and no verdict. -/
structure Ready (l : Ledger) (tried : Nat) : Prop where
  keyed : l.keyed = true
  starts : l.starts = tried
  failures : l.failures.length = tried
  valid : validCrc900 ∉ l.sent
  wrong : wrongCrc4th902 ∉ l.sent

/-- In the next attempt, with this file. -/
structure Started (l : Ledger) (tried : Nat) (file : Bytes) : Prop where
  keyed : l.keyed = true
  uploading : l.uploading = true
  fields : l.fields = []
  starts : l.starts = tried + 1
  failures : l.failures.length = tried
  file : l.file = file
  valid : validCrc900 ∉ l.sent
  wrong : wrongCrc4th902 ∉ l.sent

/-- What the client may say about the file in the end. -/
inductive Verdict (kit : Toolkit) (l : Ledger) : Nat → Prop where
  | valid (hno : wrongCrc4th902 ∉ l.sent)
      (hecho : l.echo = some (ClientCksum.memcrc kit.longWidth l.file)) : Verdict kit l validCrc900
  | wrong (hno : validCrc900 ∉ l.sent) (hfour : l.failures.length = maxTries)
      (hlast : l.failures.getLast? = some .wrongCrc) : Verdict kit l wrongCrc4th902

/-- After this many verdicts, all of them the same. -/
structure Closing (kit : Toolkit) (l : Ledger) (code times : Nat) : Prop where
  uploading : l.uploading = false
  fields : l.fields = []
  count : l.sent.count code = times
  verdict : l.Verdict kit code

theorem Ready.load {tried : Nat} (h : l.Ready tried) (content : Bytes) :
    (l.load (some content)).Started tried content := by
  rw [Ledger.load, if_pos h.keyed]
  exact ⟨h.keyed, rfl, rfl, congrArg (· + 1) h.starts, h.failures, rfl, h.valid, h.wrong⟩

theorem maySend_other {code : Nat} (h : code = sendFile828 ∨ code = wrongCrcTryAgain901) :
    l.MaySend kit code := by
  constructor <;> intro hcode <;> rcases h with rfl | rfl <;> exact absurd hcode (by decide)

theorem Started.write {tried : Nat} {file : Bytes} (h : l.Started tried file) {data : Bytes}
    (hdata : codeOf data = sendFile828) : (l.write data).Started tried file := by
  have hvalid : validCrc900 ∉ sendFile828 :: l.sent :=
    List.not_mem_cons_of_ne_of_not_mem (by decide) h.valid
  have hwrong : wrongCrc4th902 ∉ sendFile828 :: l.sent :=
    List.not_mem_cons_of_ne_of_not_mem (by decide) h.wrong
  rw [Ledger.write, hdata, h.uploading]
  exact ⟨h.keyed, rfl, rfl, h.starts, h.failures, h.file, hvalid, hwrong⟩

/-- A 1607 to the packets. -/
theorem Started.headed_error {tried : Nat} {file : Bytes} (h : l.Started tried file)
    {code : Bytes} (hcode : ofLittle code = generalError1607) (version size : Bytes) :
    (l.headed version code size).Ready (tried + 1) := by
  have hfail : (l.uploading && ofLittle code = generalError1607) = true := by
    simp [h.uploading, hcode]
  rw [headed, fail, if_pos hfail]
  constructor
  · simp [h.keyed]
  · exact h.starts
  · simp [h.failures]
  · exact h.valid
  · exact h.wrong

/-- A 1603 to the packets, with all its fields. -/
def answered (kit : Toolkit) (fields : List Bytes) (crc : Nat) (l : Ledger) : Ledger :=
  { l with
    fields := fields, echo := some crc,
    failures := if crc ≠ ClientCksum.memcrc kit.longWidth l.file then l.failures ++ [.wrongCrc]
      else l.failures }

theorem Started.read_answer {tried : Nat} {file : Bytes} (h : l.Started tried file)
    {code : Bytes} (hcode : ofLittle code = validFileAndCrc1603)
    (version size id contentSize name crc : Bytes) :
    ((((l.headed version code size).read kit id).read kit contentSize).read kit name).read kit crc =
      l.answered kit [version, code, size, id, contentSize, name, crc] (ofLittle crc) := by
  have hother : ofLittle code ≠ generalError1607 := by
    rw [hcode]
    decide
  have hne : ¬ (l.uploading && ofLittle code = generalError1607) = true := by
    simp [hother]
  rw [headed, fail, if_neg hne]
  obtain ⟨sent, fields, keyed, uploading, starts, file, failures, echo⟩ := l
  obtain rfl : keyed = true := h.keyed
  obtain rfl : uploading = true := h.uploading
  by_cases hcrc : ofLittle crc = ClientCksum.memcrc kit.longWidth file
  · simp [read, answered, fail, hcode, hcrc]
  · simp [read, answered, fail, hcode, hcrc]

theorem Started.answered_wrong {tried : Nat} {file : Bytes} (h : l.Started tried file)
    {crc : Nat} (hcrc : crc ≠ ClientCksum.memcrc kit.longWidth file) (fields : List Bytes) :
    (l.answered kit fields crc).Ready (tried + 1) ∧
      (l.answered kit fields crc).failures.getLast? = some .wrongCrc := by
  rw [answered, h.file, if_pos hcrc]
  refine ⟨⟨h.keyed, h.starts, ?_, h.valid, h.wrong⟩, List.getLast?_concat⟩
  rw [List.length_append, h.failures, List.length_singleton]

/-- A 901. -/
theorem Ready.write {tried : Nat} (h : l.Ready tried) {data : Bytes}
    (hdata : codeOf data = wrongCrcTryAgain901) : (l.write data).Ready tried := by
  refine ⟨h.keyed, h.starts, h.failures, ?_, ?_⟩
  · rw [Ledger.write, hdata]
    exact List.not_mem_cons_of_ne_of_not_mem (by decide) h.valid
  · rw [Ledger.write, hdata]
    exact List.not_mem_cons_of_ne_of_not_mem (by decide) h.wrong

theorem Verdict.maySend {code : Nat} (h : l.Verdict kit code)
    (hlt : l.sent.count code < maxTries) : l.MaySend kit code := by
  cases h with
  | valid hno hecho =>
      have hzero := List.count_eq_zero_of_not_mem hno
      exact ⟨fun hcode => absurd hcode (by decide), fun _ => by omega, fun _ => ⟨hecho, hno⟩,
        fun hcode => absurd hcode (by decide)⟩
  | wrong hno hfour hlast =>
      have hzero := List.count_eq_zero_of_not_mem hno
      exact ⟨fun hcode => absurd hcode (by decide), fun _ => by omega,
        fun hcode => absurd hcode (by decide), fun _ => ⟨hfour, hlast, hno⟩⟩

theorem Verdict.headed {code : Nat} (h : l.Verdict kit code) (fields : List Bytes) (keyed : Bool) :
    Verdict kit { l with fields := fields, keyed := keyed } code := by
  cases h with
  | valid hno hecho => exact .valid hno hecho
  | wrong hno hfour hlast => exact .wrong hno hfour hlast

/-- The first verdict, and the later ones. -/
theorem Verdict.write {code times : Nat} (h : l.Verdict kit code)
    (hcount : l.sent.count code = times) {data : Bytes} (hdata : codeOf data = code) :
    (l.write data).Closing kit code (times + 1) := by
  have hne : code ≠ sendFile828 := by
    cases h <;> decide
  have hverdict : (l.write data).Verdict kit code := by
    cases h with
    | valid hno hecho =>
        refine .valid ?_ hecho
        rw [Ledger.write, hdata]
        exact List.not_mem_cons_of_ne_of_not_mem (by decide) hno
    | wrong hno hfour hlast =>
        refine .wrong ?_ hfour hlast
        rw [Ledger.write, hdata]
        exact List.not_mem_cons_of_ne_of_not_mem (by decide) hno
  refine ⟨?_, rfl, ?_, hverdict⟩
  · simp [Ledger.write, hdata, hne]
  · rw [Ledger.write, hdata, List.count_cons_self, hcount]

end Ledger

section
variable {kit : Toolkit} {l : Ledger} {client : Client}

theorem watched_encryptFile (encryptedAes privKey file : Bytes) :
    Watched kit (fun _ t => t = l) l (encryptFile kit encryptedAes privKey file) := by
  refine watched_orExit_bind fun key _ => ?_
  refine watched_unlessExit_bind fun _ => ?_
  exact watched_pure rfl

theorem watched_calculateTotalPackets (size : Int) :
    Watched kit (fun _ t => t = l) l (calculateTotalPackets size) := by
  refine watched_unlessExit_bind fun _ => ?_
  exact watched_pure rfl

/-- The same request up to its payload. -/
def Request.SameHead (r r' : Request) : Prop :=
  r'.clientId = r.clientId ∧ r'.version = r.version ∧ r'.code = r.code ∧
    r'.numOfFailures = r.numOfFailures

theorem Request.Coded.of_sameHead {r r' : Request} {code : Nat} (h : r.Coded code)
    (hsame : r.SameHead r') : r'.Coded code :=
  ⟨hsame.1 ▸ h.clientId, hsame.2.1 ▸ h.version, hsame.2.2.1 ▸ h.code⟩

namespace Request.SameHead

theorem refl (r : Request) : r.SameHead r := ⟨rfl, rfl, rfl, rfl⟩

variable {r r' : Request} (h : r.SameHead r')
include h

theorem setPayloadSize (size : Int) : r.SameHead (r'.setPayloadSize size) := h

theorem appendNumberPayload (num : Int) (size : Nat) :
    r.SameHead (r'.appendNumberPayload num size) := h

theorem appendStringPayload (payload : Bytes) (size : Nat) :
    r.SameHead (r'.appendStringPayload payload size) := h

theorem appendFileSlice (encryptedFile : Bytes) (start stop : Int) :
    r.SameHead (r'.appendFileSlice encryptedFile start stop) := h

theorem ite (c : Prop) [Decidable c] {r'' : Request} (h' : r.SameHead r'') :
    r.SameHead (if c then r' else r'') := by
  split
  · exact h
  · exact h'

end Request.SameHead

/-- One turn of the loop sends one request. -/
theorem sendPackets_turn (encrypted original : Bytes) (total : Int) (turns : Nat)
    (request : Request) (packetNumber start stop : Int) {counter : Int} (hpos : counter > 0) :
    ∃ r, request.SameHead r ∧
      sendPackets client encrypted original total (turns + 1) request packetNumber start stop
          counter =
        .send r.massage (sendPackets client encrypted original total turns r.clearPayload
          (int32 (packetNumber + 1)) (int32 (start + packetMaxSize))
          (int32 (stop + packetMaxSize)) (int32 (counter - packetMaxSize))) := by
  rw [sendPackets, if_pos hpos]
  refine ⟨_, ?_, rfl⟩
  have hsized := (Request.SameHead.refl request).setPayloadSize
    (payloadSizeWithoutMassage + counter)
  have hfields := ((((((hsized.setPayloadSize (payloadSizeWithoutMassage + packetMaxSize)).ite
    (counter > packetMaxSize) hsized).appendNumberPayload (int32 encrypted.length)
      contentSizeSize).appendNumberPayload (int32 original.length)
        origFileSizeSize).appendNumberPayload packetNumber packetNumberSize).appendNumberPayload
          total totalPacketsSize).appendStringPayload client.fileName nameOfClientSize
  exact (hfields.appendFileSlice encrypted start stop).ite (counter > packetMaxSize)
    (hfields.appendFileSlice encrypted start (start + counter))

/-- The turns that the loop is allowed suffice. -/
theorem watched_sendPackets {tried : Nat} {file : Bytes} (encrypted original : Bytes) (total : Int)
    (turns : Nat) {request : Request} (packetNumber start stop : Int) {counter : Int}
    (hl : l.Started tried file) (hcoded : request.Coded sendFile828) (hturns : counter ≤ turns)
    (hsize : counter < 2 ^ 31) :
    Watched kit (fun request' t => t.Started tried file ∧ request'.Coded sendFile828 ∧
        request'.numOfFailures = request.numOfFailures) l
      (sendPackets client encrypted original total turns request packetNumber start stop
        counter) := by
  induction turns generalizing l request packetNumber start stop counter with
  | zero =>
      rw [sendPackets, if_neg (by omega)]
      exact watched_pure ⟨hl, hcoded, rfl⟩
  | succ turns ih =>
      by_cases hpos : counter > 0
      · obtain ⟨r, hsame, hturn⟩ := @sendPackets_turn client encrypted original total turns request
          packetNumber start stop counter hpos
        have hr := hcoded.of_sameHead hsame
        have hcode := hr.codeOf_massage (by decide)
        have hcounter : int32 (counter - packetMaxSize) = counter - packetMaxSize := by
          rw [int32_of_lt] <;> simp only [packetMaxSize] <;> omega
        have hclear : r.clearPayload.Coded sendFile828 := ⟨hr.clientId, hr.version, hr.code⟩
        rw [hturn, hcounter, ← hsame.2.2.2]
        refine .send (Ledger.maySend_other (.inl hcode)) ?_
        refine ih _ _ _ (hl.write hcode) hclear ?_ ?_
        · simp only [packetMaxSize]
          omega
        · simp only [packetMaxSize]
          omega
      · rw [sendPackets, if_neg hpos]
        exact watched_pure ⟨hl, hcoded, rfl⟩

theorem watched_sendAllPackets {tried : Nat} {file : Bytes} (encrypted original : Bytes)
    (total : Int) {request : Request} (hl : l.Started tried file)
    (hcoded : request.Coded sendFile828) :
    Watched kit (fun request' t => t.Started tried file ∧ request'.Coded sendFile828 ∧
        request'.numOfFailures = request.numOfFailures) l
      (sendAllPackets client encrypted original total request) := by
  have hlow := Int.le_bmod (x := (encrypted.length : Int)) (m := 2 ^ 32) (by decide)
  have hhigh := Int.bmod_lt (x := (encrypted.length : Int)) (m := 2 ^ 32) (by decide)
  refine watched_sendPackets encrypted original total _ 1 0 packetMaxSize hl hcoded ?_ ?_
  · exact Int.self_le_toNat _
  · rw [int32]
    omega

/-- What `crc_checking` leaves: another attempt to make, or a verdict given. -/
inductive Checked (kit : Toolkit) (tried : Nat) : Nat × Request × Request → Ledger → Prop where
  | again {code : Nat} {request finish : Request} {t : Ledger}
      (hcode : code = tryAgain ∨ code = wrongCrcTryAgain901) (hcoded : request.Coded sendFile828)
      (hfailures : request.numOfFailures = tried + 1) (hlast : tried + 1 ≠ maxTries)
      (ht : t.Ready (tried + 1)) : Checked kit tried (code, request, finish) t
  | verdict {code : Nat} {request finish : Request} {t : Ledger}
      (hcode : code ≠ tryAgain ∧ code ≠ wrongCrcTryAgain901) (hcoded : finish.Coded code)
      (hfailures : finish.numOfFailures = 0) (ht : t.Closing kit code 1) :
      Checked kit tried (code, request, finish) t

/-- The finish request, with what is known of its code. -/
theorem watched_finish {tried : Nat} {file : Bytes} {request : Request} {crc : Nat}
    (hl : l.Started tried file) (hcoded : request.Coded sendFile828)
    (hfailures : request.numOfFailures = tried) (fields : List Bytes) :
    Watched kit (Checked kit tried) (l.answered kit fields crc)
      (let wrong := ClientCksum.memcrc kit.longWidth file ≠ crc
      let crcPacketRequest := if wrong then request.addFailure else request
      let finishCode :=
        if wrong then
          if crcPacketRequest.numOfFailures = maxTries then wrongCrc4th902
          else wrongCrcTryAgain901
        else validCrc900
      let finishRequest := (Request.new.setClientID client.clientId).setCode finishCode
      let finishRequest := finishRequest.setPayloadSize nameOfFileSize
      let finishRequest := finishRequest.appendStringPayload client.fileName nameOfClientSize
      do
        finishRequest.sendToServer
        pure (finishCode, crcPacketRequest, finishRequest)) := by
  have hfinish := Request.coded_finish client.clientId client.fileName
  by_cases hwrong : ClientCksum.memcrc kit.longWidth file ≠ crc
  · obtain ⟨hready, hkind⟩ :=
      @Ledger.Started.answered_wrong kit l tried file hl crc hwrong.symm fields
    have hadded : request.addFailure.numOfFailures = tried + 1 := congrArg (· + 1) hfailures
    have hfour : (l.answered kit fields crc).failures.length = tried + 1 := hready.failures
    simp only [if_pos hwrong, hadded]
    by_cases hlast : tried + 1 = maxTries
    · have hcode := (hfinish wrongCrc4th902).codeOf_massage (by decide)
      have hverdict : (l.answered kit fields crc).Verdict kit wrongCrc4th902 :=
        .wrong hready.valid (hfour.trans hlast) hkind
      have hzero : (l.answered kit fields crc).sent.count wrongCrc4th902 = 0 :=
        List.count_eq_zero_of_not_mem hready.wrong
      have hmay := hverdict.maySend (by rw [hzero]; decide)
      simp only [if_pos hlast]
      refine .send ?_ (.ret (.verdict (by decide) (hfinish _) rfl (hverdict.write hzero hcode)))
      change Ledger.MaySend kit _ (codeOf _)
      rw [hcode]
      exact hmay
    · have hcode := (hfinish wrongCrcTryAgain901).codeOf_massage (by decide)
      simp only [if_neg hlast]
      refine .send (Ledger.maySend_other (.inr hcode)) (.ret (.again (.inr rfl) ?_ hadded hlast ?_))
      · exact ⟨hcoded.clientId, hcoded.version, hcoded.code⟩
      · exact hready.write hcode
  · have hcode := (hfinish validCrc900).codeOf_massage (by decide)
    have hecho : (l.answered kit fields crc).echo =
        some (ClientCksum.memcrc kit.longWidth (l.answered kit fields crc).file) := by
      rw [← not_not.mp hwrong]
      exact congrArg (fun f => some (ClientCksum.memcrc kit.longWidth f)) hl.file.symm
    have hverdict : (l.answered kit fields crc).Verdict kit validCrc900 := .valid hl.wrong hecho
    have hzero : (l.answered kit fields crc).sent.count validCrc900 = 0 :=
      List.count_eq_zero_of_not_mem hl.valid
    have hmay := hverdict.maySend (by rw [hzero]; decide)
    simp only [if_neg hwrong]
    refine .send ?_ (.ret (.verdict (by decide) (hfinish _) rfl (hverdict.write hzero hcode)))
    change Ledger.MaySend kit _ (codeOf _)
    rw [hcode]
    exact hmay

theorem watched_crcChecking {tried : Nat} {file : Bytes} {request : Request} (size : Int)
    (hl : l.Started tried file) (hcrc : client.crcValue = ClientCksum.memcrc kit.longWidth file)
    (hcoded : request.Coded sendFile828) (hfailures : request.numOfFailures = tried) :
    Watched kit (Checked kit tried) l (crcChecking kit client request size Request.new) := by
  refine (watched_getHeader hl.fields).bind ?_
  rintro answer _ ⟨version, code, psize, hcode, rfl⟩
  split
  · rename_i h1607
    have hready := hl.headed_error (hcode.symm.trans h1607) version psize
    refine watched_generalErrorHandle_bind fun hlast => ?_
    have hadded : request.addFailure.numOfFailures = tried + 1 := congrArg (· + 1) hfailures
    exact watched_pure (.again (.inl rfl) ⟨hcoded.clientId, hcoded.version, hcoded.code⟩ hadded
      (hfailures ▸ hlast) hready)
  · refine watched_unlessExit_bind fun h1603 => ?_
    refine (watched_readStringAndCheck _ _).bind ?_
    rintro _ _ ⟨id, rfl⟩
    refine (watched_getNumber _).bind ?_
    rintro contentSize _ ⟨sizeField, -, rfl⟩
    refine watched_unlessExit_bind fun _ => ?_
    refine (watched_readStringAndCheck _ _).bind ?_
    rintro _ _ ⟨name, rfl⟩
    refine (watched_getNumber _).bind ?_
    rintro crc _ ⟨crcField, rfl, rfl⟩
    rw [hl.read_answer (hcode.symm.trans h1603), hcrc]
    exact watched_finish hl hcoded hfailures _

theorem watched_theEnd {code : Nat} (tries : Nat) {finish : Request}
    (hl : l.Closing kit code (finish.numOfFailures + 1)) (hcoded : finish.Coded code)
    (htries : finish.numOfFailures + tries = maxTries) (hpos : 0 < tries) :
    Watched kit (fun _ _ => True) l (theEnd client tries finish) := by
  induction tries generalizing l finish with
  | zero => omega
  | succ tries ih =>
      have hcode : code < 256 ^ codeSize := by
        cases hl.verdict <;> decide
      refine (watched_getHeader hl.fields).bind ?_
      rintro answer _ ⟨version, field, size, -, rfl⟩
      rw [Ledger.headed_idle hl.uploading]
      split
      · refine watched_generalErrorHandle_bind fun hlast => ?_
        have hsent := hcoded.codeOf_massage hcode
        have hadded : finish.addFailure.Coded code := ⟨hcoded.clientId, hcoded.version, hcoded.code⟩
        have hleft : finish.addFailure.numOfFailures + tries = maxTries := by
          change finish.numOfFailures + 1 + tries = maxTries
          omega
        have hverdict := hl.verdict.headed [version, field, size]
          (l.keyed || ofLittle field = getPublicKeySendAes1602 ||
            ofLittle field = validReconnect1605)
        refine (watched_sendToServer ?_).bind ?_
        · rw [show codeOf finish.addFailure.massage = code from hsent]
          refine hverdict.maySend ?_
          rw [hl.count]
          omega
        rintro _ _ rfl
        refine ih (hverdict.write hl.count hsent) hadded hleft ?_
        omega
      · refine watched_unlessExit_bind fun _ => ?_
        exact (watched_readStringAndCheck _ _).mono fun _ _ _ => trivial

theorem watched_sendFile {tried : Nat} (tries : Nat) {request : Request} (hl : l.Ready tried)
    (hversion : request.version.length = versionSize) (hfailures : request.numOfFailures = tried)
    (htries : tried + tries = maxTries) (hpos : 0 < tries) :
    Watched kit (fun _ _ => True) l (sendFile kit client tries request) := by
  induction tries generalizing l request tried client with
  | zero => omega
  | succ tries ih =>
      refine (watched_load _ fun _ => ?_).bind ?_
      · rw [hl.starts]
        omega
      rintro content _ rfl
      refine (watched_orExit _).bind ?_
      rintro original _ ⟨rfl, rfl⟩
      refine (watched_encryptFile _ _ _).bind ?_
      rintro encrypted _ rfl
      refine (watched_calculateTotalPackets _).bind ?_
      rintro total _ rfl
      have hcoded := Request.coded_setCode hversion client.clientId sendFile828
      refine (watched_sendAllPackets encrypted original total (hl.load original) hcoded).bind ?_
      rintro sentRequest t ⟨ht, hcoded', hkept⟩
      refine (watched_crcChecking _ ht rfl hcoded' (hkept.trans hfailures)).bind ?_
      rintro _ u hchecked
      cases hchecked with
      | again hcode hcoded hcount hlast hready =>
          simp only [if_pos hcode.symm]
          exact ih hready hcoded.version hcount (by omega) (by omega)
      | @verdict code _ _ _ hcode hcoded hzero hclosing =>
          have hdone : ¬ (code = wrongCrcTryAgain901 ∨ code = tryAgain) :=
            fun h => h.elim hcode.2 hcode.1
          simp only [if_neg hdone]
          exact watched_theEnd maxTries (hzero ▸ hclosing) hcoded (by rw [hzero, Nat.zero_add])
            (by decide)

end

/-! Before there is a key. -/

namespace Ledger

/-- Only these requests so far, and no answer with a key. -/
structure Early (l : Ledger) (reconnections registrations keys : Nat) : Prop where
  sent : l.sent = List.replicate keys sendPublicKey826 ++
    (List.replicate registrations registering825 ++ List.replicate reconnections reconnect827)
  keyed : l.keyed = false
  uploading : l.uploading = false
  starts : l.starts = 0
  failures : l.failures = []

variable {kit : Toolkit} {l : Ledger} {reconnections registrations keys : Nat}

theorem early_new : new.Early 0 0 0 := ⟨rfl, rfl, rfl, rfl, rfl⟩

theorem Early.load (h : l.Early reconnections registrations keys) (content : Option Bytes) :
    (l.load content).Early reconnections registrations keys ∧ (l.load content).fields = [] := by
  rw [Ledger.load, if_neg (by simp [h.keyed])]
  exact ⟨⟨h.sent, h.keyed, h.uploading, h.starts, h.failures⟩, rfl⟩

theorem maySend_early {code : Nat}
    (hcode : code = reconnect827 ∨ code = registering825 ∨ code = sendPublicKey826)
    (hcount : l.sent.count code < maxTries) : l.MaySend kit code := by
  refine ⟨fun _ => hcount, ?_, ?_, ?_⟩
  · rintro (rfl | rfl) <;> exact absurd hcode (by decide)
  · rintro rfl
    exact absurd hcode (by decide)
  · rintro rfl
    exact absurd hcode (by decide)

/-- An answer without a key, and one with a key. -/
theorem Early.headed (h : l.Early reconnections registrations keys) (code : Bytes)
    (hcode : ofLittle code ≠ getPublicKeySendAes1602 ∧ ofLittle code ≠ validReconnect1605)
    (version size : Bytes) :
    (l.headed version code size).Early reconnections registrations keys := by
  rw [headed_idle h.uploading]
  exact ⟨h.sent, by simp [h.keyed, hcode], h.uploading, h.starts, h.failures⟩

theorem Early.mem_sent (h : l.Early reconnections registrations keys) {code : Nat}
    (hmem : code ∈ l.sent) :
    code = reconnect827 ∨ code = registering825 ∨ code = sendPublicKey826 := by
  rw [h.sent, List.mem_append, List.mem_append] at hmem
  obtain hmem | hmem | hmem := hmem
  · exact .inr (.inr (List.eq_of_mem_replicate hmem))
  · exact .inr (.inl (List.eq_of_mem_replicate hmem))
  · exact .inl (List.eq_of_mem_replicate hmem)

theorem Early.ready (h : l.Early reconnections registrations keys) {code : Bytes}
    (hcode : ofLittle code = getPublicKeySendAes1602 ∨ ofLittle code = validReconnect1605)
    (version size : Bytes) : (l.headed version code size).Ready 0 := by
  have hvalid : validCrc900 ∉ l.sent := fun hmem => absurd (h.mem_sent hmem) (by decide)
  have hwrong : wrongCrc4th902 ∉ l.sent := fun hmem => absurd (h.mem_sent hmem) (by decide)
  rw [headed_idle h.uploading]
  refine ⟨?_, h.starts, congrArg List.length h.failures, hvalid, hwrong⟩
  obtain hcode | hcode := hcode
  · simp [hcode]
  · simp [hcode]

theorem Early.withFields (h : l.Early reconnections registrations keys) (fields : List Bytes) :
    Early { l with fields := fields } reconnections registrations keys :=
  ⟨h.sent, h.keyed, h.uploading, h.starts, h.failures⟩

theorem Early.count (h : l.Early reconnections registrations keys) :
    l.sent.count reconnect827 = reconnections ∧ l.sent.count registering825 = registrations ∧
      l.sent.count sendPublicKey826 = keys := by
  rw [h.sent]
  simp [List.count_replicate, reconnect827, registering825, sendPublicKey826]

/-- One more request of the kind that is due. -/
theorem Early.write {reconnections' registrations' keys' code : Nat}
    (h : l.Early reconnections registrations keys) {data : Bytes} (hdata : codeOf data = code)
    (hsent : code :: l.sent = List.replicate keys' sendPublicKey826 ++
      (List.replicate registrations' registering825 ++
        List.replicate reconnections' reconnect827)) :
    (l.write data).Early reconnections' registrations' keys' ∧ (l.write data).fields = [] := by
  rw [Ledger.write, hdata, h.uploading]
  exact ⟨⟨hsent, h.keyed, rfl, h.starts, h.failures⟩, rfl⟩

theorem read_field {n : Nat} (hlength : l.fields.length = n) (hn : 2 ≤ n ∧ n < 6) (data : Bytes) :
    l.read kit data = { l with fields := l.fields ++ [data] } := by
  rw [read]
  split
  · rename_i h
    rw [h, List.length_singleton] at hlength
    omega
  · rename_i h
    simp only [h, List.length_cons, List.length_nil] at hlength
    omega
  · rfl

end Ledger

section
variable {kit : Toolkit} {l : Ledger} {client : Client} {reconnections registrations : Nat}

section
variable {keys : Nat} (hl : l.Early reconnections registrations keys)
include hl

theorem watched_generateKeys :
    Watched kit (fun _ t => t.Early reconnections registrations keys) l (ask .generateKeys) :=
  .query (fun _ _ => trivial) fun _ _ => .ret (hl.withFields [])

theorem watched_save (path content : Bytes) :
    Watched kit (fun _ t => t.Early reconnections registrations keys) l
      (ask (.save path content)) := .query (fun _ _ => trivial) fun _ _ => .ret (hl.withFields [])

theorem watched_connect (address port : Bytes) :
    Watched kit (fun _ t => t.Early reconnections registrations keys) l
      (ask (.connect address port)) :=
  .query (fun _ _ => trivial) fun _ _ => .ret (hl.withFields [])

theorem watched_loadEarly (path : Bytes) :
    Watched kit (fun _ t => t.Early reconnections registrations keys) l (ask (.load path)) :=
  .query (fun _ _ hkeyed => absurd hkeyed (by simp [hl.keyed])) fun content _ =>
    .ret (hl.load content).1

end

/-- One of these requests, and the header of its answer. -/
theorem watched_exchange {reconnections' registrations' keys keys' code : Nat} {α : Type}
    {post : α → Ledger → Prop} {request : Request} {f : Answer → Prog α}
    (hl : l.Early reconnections registrations keys) (hcoded : request.Coded code)
    (hcode : code = reconnect827 ∨ code = registering825 ∨ code = sendPublicKey826)
    (hcount : l.sent.count code < maxTries)
    (hsent : code :: l.sent = List.replicate keys' sendPublicKey826 ++
      (List.replicate registrations' registering825 ++
        List.replicate reconnections' reconnect827))
    (hf : ∀ (answer : Answer) (t : Ledger) (version field size : Bytes),
      t.Early reconnections' registrations' keys' → answer.code = ofLittle field →
        Watched kit post (t.headed version field size) (f answer)) :
    Watched kit post l (do
      request.sendToServer
      let answer ← Answer.getHeaderFromServer
      f answer) := by
  have hlt : code < 256 ^ codeSize := by
    rcases hcode with rfl | rfl | rfl <;> decide
  have hbytes := hcoded.codeOf_massage hlt
  obtain ⟨hearly, hfields⟩ := hl.write hbytes hsent
  refine (watched_sendToServer ?_).bind ?_
  · rw [hbytes]
    exact Ledger.maySend_early hcode hcount
  rintro _ _ rfl
  refine (watched_getHeader hfields).bind ?_
  rintro answer _ ⟨version, field, size, hanswer, rfl⟩
  exact hf answer _ version field size hearly hanswer

theorem watched_getAesKeyFromServer {tried : Nat} (hl : l.Ready tried)
    (hfields : l.fields.length = 3)
    (answer : Answer) :
    Watched kit (fun _ t => t.Ready tried) l (getAesKeyFromServer client answer) := by
  refine (watched_readStringAndCheck _ _).bind ?_
  rintro _ _ ⟨id, rfl⟩
  rw [Ledger.read_field hfields (by decide)]
  refine (watched_getEncryptedAes _).bind ?_
  rintro encrypted _ ⟨data, rfl⟩
  have hlength : (l.fields ++ [id]).length = 4 := by
    rw [List.length_append, hfields, List.length_singleton]
  rw [Ledger.read_field hlength (by decide)]
  exact watched_pure ⟨hl.keyed, hl.starts, hl.failures, hl.valid, hl.wrong⟩

theorem watched_sendPublicKeyGetAes {keys : Nat} (tries : Nat) {request : Request}
    (hl : l.Early reconnections registrations keys)
    (hversion : request.version.length = versionSize) (hfailures : request.numOfFailures = keys)
    (htries : keys + tries = maxTries) (hpos : 0 < tries) :
    Watched kit (fun _ t => t.Ready 0) l (sendPublicKeyGetAes kit client tries request) := by
  induction tries generalizing l request keys client with
  | zero => omega
  | succ tries ih =>
      refine (watched_generateKeys hl).bind fun keyPair t₁ h₁ => ?_
      refine (watched_save h₁ _ _).bind fun _ t₂ h₂ => ?_
      refine (watched_save h₂ _ _).bind fun _ t₃ h₃ => ?_
      have hcoded : ∀ field, Request.Coded (((((request.setClientID client.clientId).setCode
          sendPublicKey826).setPayloadSize (nameOfClientSize + int32 keyPair.publicKey.length)
            ).appendStringPayload client.nameClient nameOfClientSize).appendStringPayload
              field field.length) sendPublicKey826 := by
        intro field
        have h := Request.coded_setCode hversion client.clientId sendPublicKey826
        exact ⟨h.clientId, h.version, h.code⟩
      have hcount : t₃.sent.count sendPublicKey826 < maxTries := by
        rw [h₃.count.2.2]
        omega
      have hsent : sendPublicKey826 :: t₃.sent = List.replicate (keys + 1) sendPublicKey826 ++
          (List.replicate registrations registering825 ++
            List.replicate reconnections reconnect827) := congrArg (sendPublicKey826 :: ·) h₃.sent
      refine watched_exchange h₃ (hcoded keyPair.publicKey) (.inr (.inr rfl)) hcount hsent ?_
      intro answer t version field size ht hanswer
      split
      · rename_i h1607
        refine watched_generalErrorHandle_bind fun hlast => ?_
        have hearly := ht.headed field (by rw [← hanswer, h1607]; decide) version size
        refine ih hearly hversion (congrArg (· + 1) hfailures) ?_ ?_
        · omega
        · change request.numOfFailures + 1 ≠ maxTries at hlast
          omega
      · refine watched_unlessExit_bind fun h1602 => ?_
        exact watched_getAesKeyFromServer (ht.ready (.inl (hanswer.symm.trans h1602)) version size)
          (congrArg List.length (Ledger.fields_headed version field size)) answer

theorem watched_setClientID (id : Bytes) :
    Watched kit (fun _ t => t = l) l (client.setClientID id) := by
  refine watched_unlessExit_bind fun _ => ?_
  exact watched_pure rfl

theorem watched_setFileName (name : Bytes) :
    Watched kit (fun _ t => t = l) l (client.setFileName name) := by
  refine watched_unlessExit_bind fun _ => ?_
  exact watched_pure rfl

theorem watched_registering (tries : Nat) {request : Request}
    (hl : l.Early reconnections registrations 0)
    (hversion : request.version.length = versionSize)
    (hfailures : request.numOfFailures = registrations) (htries : registrations + tries = maxTries)
    (hpos : 0 < tries) :
    Watched kit (fun _ _ => True) l (registering kit client tries request) := by
  induction tries generalizing l request registrations with
  | zero => omega
  | succ tries ih =>
      have hcoded : Request.Coded ((((request.setClientID (List.replicate 32 0)).setCode
          registering825).setPayloadSize nameOfClientSize).appendStringPayload client.nameClient
            nameOfClientSize) registering825 := by
        have h := Request.coded_setCode hversion (List.replicate 32 0) registering825
        exact ⟨h.clientId, h.version, h.code⟩
      have hcount : l.sent.count registering825 < maxTries := by
        rw [hl.count.2.1]
        omega
      have hsent : registering825 :: l.sent = List.replicate 0 sendPublicKey826 ++
          (List.replicate (registrations + 1) registering825 ++
            List.replicate reconnections reconnect827) := congrArg (registering825 :: ·) hl.sent
      refine watched_exchange hl hcoded (.inr (.inl rfl)) hcount hsent ?_
      intro answer t version field size ht hanswer
      split
      · rename_i hfailed
        have hnokey : ofLittle field ≠ getPublicKeySendAes1602 ∧
            ofLittle field ≠ validReconnect1605 := by
          rw [← hanswer]
          obtain hcode | hcode := hfailed <;> rw [hcode] <;> decide
        refine watched_generalErrorHandle_bind fun hlast => ?_
        refine ih (ht.headed field hnokey version size) hversion (congrArg (· + 1) hfailures) ?_ ?_
        · omega
        · change request.numOfFailures + 1 ≠ maxTries at hlast
          omega
      · refine watched_unlessExit_bind fun h1600 => ?_
        have hearly := ht.headed field (by rw [← hanswer, h1600]; decide) version size
        refine watched_recv_bind fun id => ?_
        have hlength : (t.headed version field size).fields.length = 3 :=
          congrArg List.length (Ledger.fields_headed version field size)
        rw [Ledger.read_field hlength (by decide)]
        refine (watched_setClientID id).bind ?_
        rintro client' _ rfl
        refine Prog.Keeps.bind (watched_sendPublicKeyGetAes maxTries (hearly.withFields _) rfl rfl
          rfl (by decide)) ?_
        intro client'' u hready
        exact watched_sendFile maxTries hready rfl rfl rfl (by decide)

theorem watched_readPrivKey (hl : l.Early reconnections registrations 0) :
    Watched kit (fun _ t => t.Early reconnections registrations 0) l (readPrivKey kit) := by
  refine (watched_loadEarly hl _).bind fun content t ht => ?_
  refine watched_orExit_bind fun _ _ => ?_
  exact watched_pure ht

theorem watched_reconnection (tries : Nat) {request : Request} (hl : l.Early reconnections 0 0)
    (hversion : request.version.length = versionSize)
    (hfailures : request.numOfFailures = reconnections) (htries : reconnections + tries = maxTries)
    (hpos : 0 < tries) :
    Watched kit (fun result t => result.1 = invalidReconnect1606 →
        result.2.2.version.length = versionSize ∧ result.2.2.numOfFailures = 0 ∧
          ∃ n, t.Early n 0 0) l (reconnection kit client tries request) := by
  induction tries generalizing l request reconnections client with
  | zero => omega
  | succ tries ih =>
      refine (watched_readPrivKey hl).bind fun privKey t₁ h₁ => ?_
      refine (watched_loadEarly h₁ _).bind fun content t₂ h₂ => ?_
      refine (watched_unlessExit _).bind ?_
      rintro _ t₃ ⟨-, rfl⟩
      refine (watched_setClientID _).bind ?_
      rintro client' t₄ rfl
      have hcoded : Request.Coded ((((request.setClientID client'.clientId).setCode
          reconnect827).setPayloadSize nameOfClientSize).appendStringPayload client'.nameClient
            nameOfClientSize) reconnect827 := by
        have h := Request.coded_setCode hversion client'.clientId reconnect827
        exact ⟨h.clientId, h.version, h.code⟩
      have hcount : t₄.sent.count reconnect827 < maxTries := by
        rw [h₂.count.1]
        omega
      have hsent : reconnect827 :: t₄.sent = List.replicate 0 sendPublicKey826 ++
          (List.replicate 0 registering825 ++ List.replicate (reconnections + 1) reconnect827) :=
        congrArg (reconnect827 :: ·) h₂.sent
      refine watched_exchange h₂ hcoded (.inl rfl) hcount hsent ?_
      intro answer t version field size ht hanswer
      have hlength : (t.headed version field size).fields.length = 3 :=
        congrArg List.length (Ledger.fields_headed version field size)
      split
      · rename_i h1607
        have hearly := ht.headed field (by rw [← hanswer, h1607]; decide) version size
        refine watched_generalErrorHandle_bind fun hlast => ?_
        refine ih hearly hversion (congrArg (· + 1) hfailures) ?_ ?_
        · omega
        · change request.numOfFailures + 1 ≠ maxTries at hlast
          omega
      · split
        · rename_i h1606
          have hearly := ht.headed field (by rw [← hanswer, h1606]; decide) version size
          refine watched_recv_bind fun id => ?_
          rw [Ledger.read_field hlength (by decide)]
          exact watched_pure fun _ => ⟨hversion, rfl, _, hearly.withFields _⟩
        · refine watched_unlessExit_bind fun h1605 => ?_
          have hready := ht.ready (.inr (hanswer.symm.trans h1605)) version size
          refine (watched_getAesKeyFromServer hready hlength answer).bind fun client'' u hu => ?_
          refine Prog.Keeps.bind (watched_sendFile maxTries hu rfl rfl rfl (by decide)) ?_
          intro _ _ _
          refine watched_pure fun hcode => ?_
          cases hcode

theorem watched_readTransfer (hl : l.Early 0 0 0) :
    Watched kit (fun _ t => t.Early 0 0 0) l readTransfer := by
  refine (watched_loadEarly hl _).bind fun loaded t ht => ?_
  refine watched_orExit_bind fun content _ => ?_
  refine watched_unlessExit_bind fun _ => ?_
  refine watched_unlessExit_bind fun _ => ?_
  refine (watched_setFileName _).bind ?_
  rintro client _ rfl
  exact (watched_connect ht _ _).bind fun _ _ hu => watched_pure hu

theorem watched_main (kit : Toolkit) :
    Watched kit (fun _ _ => True) Ledger.new (main kit) := by
  refine (watched_readTransfer Ledger.early_new).bind fun client t ht => ?_
  refine (watched_loadEarly ht _).bind fun meInfoCheck u hu => ?_
  split
  · refine Prog.Keeps.bind (watched_reconnection maxTries hu rfl rfl rfl (by decide)) ?_
    rintro ⟨answer, client', request⟩ v hv
    simp only
    split
    · rename_i h1606
      obtain ⟨hversion, hfailures, n, hearly⟩ := hv h1606
      exact watched_registering maxTries hearly hversion hfailures rfl (by decide)
    · exact watched_pure trivial
  · exact watched_registering maxTries hu rfl rfl rfl (by decide)

end

/-! Whole runs. -/

def ledger (kit : Toolkit) (history : List Observation) : Ledger :=
  history.foldl (Ledger.note kit) Ledger.new

theorem comes_permits {kit : Toolkit} {before after : List Observation} {o : Observation}
    {p : Prog Unit} (h : Comes kit (before ++ o :: after) p) : (ledger kit before).Permits kit o :=
  (watched_main kit).observed h fun _ _ _ => trivial

theorem comes_bounded {kit : Toolkit} {history : List Observation} {p : Prog Unit}
    (h : Comes kit history p) : (ledger kit history).Bounded := by
  induction history using List.reverseRecOn generalizing p with
  | nil => exact Ledger.bounded_new
  | append_singleton before o ih =>
      obtain ⟨q, hbefore, -⟩ := h.split
      rw [ledger, List.foldl_append]
      exact (ih hbefore).note (comes_permits h)

/-- Whatever a server answers and the machine holds, the client comes to an end. At any
point it has sent 827, 825 and 826 at most four times each, started to send the file at
most four times, and sent 900 and 902 at most four times together, never both; a 900 when
the CRC of the last 1603 was that of the file, a 902 when four attempts had failed and
the fourth by its CRC. -/
theorem retries_bounded (kit : Toolkit) :
    (∀ f : Nat → Observation, ∃ n, ∀ p, ¬ Comes kit ((List.range n).map f) p) ∧
    ∀ history p, Comes kit history p → p ≠ .stuck ∧
      (∀ code, code = reconnect827 ∨ code = registering825 ∨ code = sendPublicKey826 →
        (ledger kit history).sent.count code ≤ maxTries) ∧
      (ledger kit history).starts ≤ maxTries ∧
      (ledger kit history).sent.count validCrc900 + (ledger kit history).sent.count wrongCrc4th902 ≤
        maxTries ∧
      (validCrc900 ∈ (ledger kit history).sent → wrongCrc4th902 ∉ (ledger kit history).sent) ∧
      ∀ before data after, history = before ++ .sent data :: after →
        (codeOf data = validCrc900 → (ledger kit before).echo =
          some (ClientCksum.memcrc kit.longWidth (ledger kit before).file)) ∧
        (codeOf data = wrongCrc4th902 → (ledger kit before).failures.length = maxTries ∧
          (ledger kit before).failures.getLast? = some .wrongCrc) := by
  refine ⟨fun f => Prog.Reaches.finite (main kit) f, ?_⟩
  intro history p h
  have hbounded := comes_bounded h
  have hkept := (watched_main kit).reaches h fun _ _ _ => trivial
  refine ⟨hkept.not_stuck id, hbounded.request, hbounded.starts,
    hbounded.closing, hbounded.verdict, ?_⟩
  rintro before data after rfl
  have hmay := comes_permits h
  exact ⟨fun hcode => (hmay.valid hcode).1,
    fun hcode => ⟨(hmay.wrong hcode).1, (hmay.wrong hcode).2.1⟩⟩

/-! A client `a` whose registration is refused four times. -/

/-- transfer.info with an address, the name `a` and the path `f`. -/
def sampleTransfer : Bytes := [49, 58, 50, 10, 97, 10, 102]

def refusedRequest (failures : Nat) : Request :=
  (((({ Request.new with numOfFailures := failures }.setClientID (List.replicate 32 0)).setCode
    registering825).setPayloadSize nameOfClientSize).appendStringPayload [97] nameOfClientSize)

/-- An 825 and a 1607. -/
def refusal (failures : Nat) : List Observation :=
  [.sent (refusedRequest failures).massage, .read [3], .read [0x47, 0x06], .read [0, 0, 0, 0]]

def refusedHistory : List Observation :=
  .asked (.load transferInfo) (some sampleTransfer) :: .asked (.connect [49] [50]) () ::
    .asked (.load meInfo) none :: (refusal 0 ++ (refusal 1 ++ (refusal 2 ++ refusal 3)))

theorem comes_refused : Comes bareKit refusedHistory .exit :=
  .query (.query (.query (.send (.recv rfl (.recv rfl (.recv rfl
    (.send (.recv rfl (.recv rfl (.recv rfl (.send (.recv rfl (.recv rfl (.recv rfl
      (.send (.recv rfl (.recv rfl (.recv rfl (.here _)))))))))))))))))))

theorem retries_bounded_refused : Comes bareKit refusedHistory .exit ∧
    (ledger bareKit refusedHistory).sent.count registering825 = 4 ∧
    (ledger bareKit refusedHistory).sent.count registering825 ≤ maxTries :=
  ⟨comes_refused, rfl,
    ((retries_bounded bareKit).2 refusedHistory .exit comes_refused).2.1 _ (.inr (.inl rfl))⟩

end ClientSide
end SecureTransfer
