import SecureTransfer.Client.Main
import SecureTransfer.Service.Replies

/-!
The client's check of what a server echoes. `read_string_and_check` cuts a field at
its first NUL, which is right for a padded name and wrong for a raw id: a client
whose id has a zero byte exits at the first correct echo of it.
-/

open Octets (Text encodeUtf8 toLittle ofLittle padTo uptoNul)
open Dialogue

namespace SecureTransfer
namespace ClientSide

section
variable {α : Type} {stream : Bytes}

theorem recv_bind (size : Nat) (f : Bytes → Prog α) : (recv size >>= f) = .recv size f := rfl

theorem unlessExit_bind_pos {c : Prop} [Decidable c] (h : c) (f : Unit → Prog α) :
    (unlessExit c >>= f) = f () := by
  rw [unlessExit, if_pos h]
  rfl

theorem unlessExit_bind_neg {c : Prop} [Decidable c] (h : ¬ c) (f : Unit → Prog α) :
    (unlessExit c >>= f) = .exit := by
  rw [unlessExit, if_neg h]
  rfl

theorem reading_recv_bind {size : Nat} {f : Bytes → Prog α} {field : Bytes}
    (h : field.length = size) (rest : Bytes) :
    (recv size >>= f).reading (field ++ rest) = (f field).reading rest := by
  rw [recv_bind, Prog.reading_recv h]

end

/-- A string is accepted exactly when the bytes before the first NUL are the expected
ones. -/
theorem stringAccepted_iff (expected received : Bytes) :
    Answer.stringAccepted expected received = true ↔ uptoNul received = expected := by
  simp [Answer.stringAccepted]

/-- A field that an expected string without NUL fills up to at most one byte. -/
def Echoable (expected : Bytes) (size : Nat) : Prop :=
  (0 : UInt8) ∉ expected ∧ size ≤ expected.length + 1

theorem accepts_padded_only {expected : Bytes} {size : Nat} (hsize : expected.length ≤ size)
    (h : Echoable expected size) {received : Bytes} (hlen : received.length = size) :
    Answer.stringAccepted expected received = true ↔ received = padTo size expected := by
  rw [stringAccepted_iff]
  constructor
  · rintro rfl
    obtain ⟨rest, hrest⟩ := List.takeWhile_prefix (p := (· != (0 : UInt8))) (l := received)
    change uptoNul received ++ rest = received at hrest
    have hlenrest := congrArg List.length hrest
    rw [List.length_append] at hlenrest
    have hone : rest.length ≤ 1 := by
      have := h.2
      omega
    cases rest with
    | nil =>
        rw [List.append_nil] at hrest
        rw [padTo, hrest, hlen, Nat.sub_self]
        simp
    | cons b rest =>
        obtain rfl : rest = [] := List.eq_nil_of_length_eq_zero (by simpa using hone)
        have hb : b = 0 := by
          by_contra hne
          have hall : uptoNul (uptoNul received ++ [b]) = uptoNul received ++ [b] := by
            apply Octets.uptoNul_of_not_mem
            simp only [List.mem_append, List.mem_singleton, not_or]
            exact ⟨Octets.not_mem_uptoNul received, fun he => hne he.symm⟩
          rw [hrest] at hall
          have := congrArg List.length hall
          simp only [List.length_cons, List.length_nil] at hlenrest
          omega
        have hpad : size - (uptoNul received).length = 1 := by
          simp only [List.length_cons, List.length_nil] at hlenrest
          omega
        rw [padTo, hpad, ← hb]
        exact hrest.symm
  · rintro rfl
    exact Octets.uptoNul_padTo h.1 size

/-- The check accepts exactly the padded string, for every field that was received, if
and only if the string has no NUL and its padding at most one. -/
theorem accepts_padded_only_iff {expected : Bytes} {size : Nat}
    (hsize : expected.length ≤ size) :
    (∀ received : Bytes, received.length = size →
      (Answer.stringAccepted expected received = true ↔ received = padTo size expected)) ↔
    Echoable expected size := by
  constructor
  · intro h
    have hpadded := (h _ (Octets.length_padTo hsize)).mpr rfl
    rw [stringAccepted_iff] at hpadded
    have hnul : (0 : UInt8) ∉ expected := hpadded ▸ Octets.not_mem_uptoNul _
    refine ⟨hnul, ?_⟩
    by_contra hlong
    -- one NUL and then anything else is accepted as well
    let received := expected ++ 0 :: List.replicate (size - expected.length - 1) 1
    have hlen : received.length = size := by
      simp only [received, List.length_append, List.length_cons, List.length_replicate]
      omega
    have haccepted : Answer.stringAccepted expected received = true := by
      rw [stringAccepted_iff]
      exact Octets.uptoNul_append_nul hnul _
    have heq := (h received hlen).mp haccepted
    obtain ⟨n, hn⟩ : ∃ n, size - expected.length = n + 2 := ⟨size - expected.length - 2, by omega⟩
    have hn' : size - expected.length - 1 = n + 1 := by omega
    simp only [received, padTo, hn, List.append_cancel_left_eq] at heq
    simp [List.replicate_succ] at heq
  · intro h received hlen
    exact accepts_padded_only hsize h hlen

/-! The answers of a correct server in the functions that read them. -/

theorem reading_header {α : Type} {m : Message} (hm : m.Fits) (f : Answer → Prog α)
    (rest : Bytes) : (Answer.getHeaderFromServer >>= f).reading (m.bytes ++ rest) =
      (f ⟨version, m.header.code, int32 m.header.payloadSize⟩).reading
        (m.parts.flatten ++ rest) := by
  have hversion : ofLittle (toLittle General.versionSize General.version) = version := by decide
  simp only [Message.bytes, List.append_assoc, Answer.getHeaderFromServer, bind_assoc]
  rw [reading_recv_bind (Octets.length_toLittle _ _),
    reading_recv_bind (Octets.length_toLittle _ _),
    reading_recv_bind (Octets.length_toLittle _ _), unlessExit_bind_pos hversion, pure_bind,
    hversion, Octets.ofLittle_toLittle_of_lt hm.1, Octets.ofLittle_toLittle_of_lt hm.2]

theorem reading_answer {α : Type} {m : Message} (hm : m.Fits) (f : Answer → Prog α) :
    (Answer.getHeaderFromServer >>= f).reading m.bytes =
      (f ⟨version, m.header.code, int32 m.header.payloadSize⟩).reading m.parts.flatten := by
  have h := reading_header hm f []
  rwa [List.append_nil, List.append_nil] at h

/-- A program that stops with `exit` while it reads an answer. -/
def ExitsAt {α : Type} (p : Prog α) (m : Message) : Prop := (p.reading m.bytes).1 = .exit

theorem readStringAndCheck_exits {α : Type} {expected field : Bytes} {size : Nat}
    (hlen : field.length = size) (f : Unit → Prog α) (rest : Bytes) :
    (Answer.readStringAndCheck expected size >>= f).reading (field ++ rest) =
      if Answer.stringAccepted expected field then (f ()).reading rest else (.exit, rest) := by
  simp only [Answer.readStringAndCheck, bind_assoc]
  rw [reading_recv_bind hlen]
  split
  · rename_i h
    rw [unlessExit_bind_pos h]
  · rename_i h
    rw [unlessExit_bind_neg h]
    rfl

theorem readStringAndCheck_last {expected field : Bytes} {size : Nat}
    (hlen : field.length = size) :
    (Answer.readStringAndCheck expected size).reading field =
      if Answer.stringAccepted expected field then (.ret (), []) else (.exit, []) := by
  have h := @readStringAndCheck_exits Unit expected field size hlen (pure : Unit → Prog Unit) []
  rw [bind_pure, List.append_nil] at h
  exact h

/-- An id is accepted as an echo of itself exactly when it has no zero byte. -/
theorem stringAccepted_self (id : Bytes) :
    Answer.stringAccepted id id = true ↔ (0 : UInt8) ∉ id := by
  rw [stringAccepted_iff]
  constructor
  · intro h
    exact h ▸ Octets.not_mem_uptoNul id
  · exact Octets.uptoNul_of_not_mem

theorem reading_getNumber {α : Type} {size n : Nat} (h : n < 256 ^ size) (f : Nat → Prog α)
    (rest : Bytes) :
    (Answer.getNumber size >>= f).reading (toLittle size n ++ rest) = (f n).reading rest := by
  simp only [Answer.getNumber, bind_assoc]
  rw [reading_recv_bind (Octets.length_toLittle _ _), pure_bind, Octets.ofLittle_toLittle_of_lt h]

/-- The id and the key are taken from the stream. -/
theorem reading_aesKey {α : Type} {client : Client} (hid : client.clientId.length = clientIdSize)
    (hz : (0 : UInt8) ∉ client.clientId) {code : Nat} (hcode : code < 256 ^ General.codeSize)
    {encrypted : Bytes} (henc : encrypted.length < 2 ^ 31 - 16) {g : Answer → Prog α}
    {f : Client → Prog α}
    (hg : ∀ answer, answer.code = code → g answer = getAesKeyFromServer client answer >>= f)
    (rest : Bytes) :
    (Answer.getHeaderFromServer >>= g).reading
        ((Message.aesKey code client.clientId encrypted).bytes ++ rest) =
      (f { client with encryptedAes := encrypted }).reading rest := by
  have hm : (Message.aesKey code client.clientId encrypted).Fits := by
    refine ⟨hcode, ?_⟩
    change 16 + encrypted.length < 4294967296
    omega
  have hparts : (Message.aesKey code client.clientId encrypted).parts.flatten ++ rest =
      client.clientId ++ (encrypted ++ rest) := by simp [Message.aesKey]
  have hsize : int32 ((Message.aesKey code client.clientId encrypted).header.payloadSize : Nat) =
      16 + encrypted.length := by
    rw [int32_of_lt] <;> simp only [Message.aesKey, General.clientIdSize] <;> omega
  have hpayload : ((clientIdSize : Nat) : Int) ≤ 16 + (encrypted.length : Int) := by
    simp only [clientIdSize]
    omega
  have hlen : encrypted.length = (16 + (encrypted.length : Int) - (clientIdSize : Nat)).toNat := by
    simp only [clientIdSize]
    omega
  rw [reading_header hm, hparts, hsize, hg _ rfl]
  simp only [getAesKeyFromServer, bind_assoc]
  rw [readStringAndCheck_exits hid, if_pos ((stringAccepted_self _).mpr hz)]
  simp only [Answer.getEncryptedAes, bind_assoc]
  rw [unlessExit_bind_pos hpayload, reading_recv_bind hlen, pure_bind]

/-- The 1602 or 1605 of a correct server stops exactly the clients whose id has a zero
byte. -/
theorem aesKey_exits_iff (client : Client) (hid : client.clientId.length = clientIdSize)
    {code : Nat} (hcode : code < 65536) {encrypted : Bytes}
    (henc : encrypted.length < 2 ^ 31 - 16) :
    ExitsAt (Answer.getHeaderFromServer >>= getAesKeyFromServer client)
        (.aesKey code client.clientId encrypted) ↔ (0 : UInt8) ∈ client.clientId := by
  by_cases hz : (0 : UInt8) ∈ client.clientId
  · have hm : (Message.aesKey code client.clientId encrypted).Fits := by
      refine ⟨hcode, ?_⟩
      change 16 + encrypted.length < 4294967296
      omega
    have hparts : (Message.aesKey code client.clientId encrypted).parts.flatten =
        client.clientId ++ (encrypted ++ []) := by simp [Message.aesKey]
    rw [ExitsAt, reading_answer hm, hparts, getAesKeyFromServer, readStringAndCheck_exits hid,
      if_neg (by simpa [stringAccepted_self] using hz)]
    simpa using hz
  · have hread := @reading_aesKey Client client hid hz code hcode encrypted henc
      (getAesKeyFromServer client) pure (fun answer _ => (bind_pure _).symm) []
    rw [List.append_nil] at hread
    rw [ExitsAt, hread]
    simp only [hz, iff_false]
    intro h
    cases h

/-- `crc_checking` from where it has read the checksum. -/
def finishChecking (client : Client) (crcPacketRequest finishRequest : Request) (crc : Nat) :
    Prog (Nat × Request × Request) := do
  let finishRequest := finishRequest.setClientID client.clientId
  let wrong := client.crcValue ≠ crc
  let crcPacketRequest := if wrong then crcPacketRequest.addFailure else crcPacketRequest
  let finishCode :=
    if wrong then
      if crcPacketRequest.numOfFailures = maxTries then wrongCrc4th902
      else wrongCrcTryAgain901
    else validCrc900
  let finishRequest := finishRequest.setCode finishCode
  let finishRequest := finishRequest.setPayloadSize nameOfFileSize
  let finishRequest := finishRequest.appendStringPayload client.fileName nameOfClientSize
  finishRequest.sendToServer
  pure (finishCode, crcPacketRequest, finishRequest)

theorem fileReceived_parts {id : Bytes} {contentSize crc : Nat} {fileName : Text}
    (rest : Bytes) : (Message.fileReceived id contentSize fileName crc).parts.flatten ++ rest =
      id ++ (toLittle 4 contentSize ++ (padTo 255 (encodeUtf8 fileName) ++
        (toLittle 4 crc ++ rest))) := by
  simp [Message.fileReceived]

/-- The id, the size, the name and the checksum are taken from the stream. -/
theorem reading_fileReceived (kit : Toolkit) {client : Client}
    (hid : client.clientId.length = clientIdSize) (hz : (0 : UInt8) ∉ client.clientId)
    {fileName : Text} (hname : client.fileName = encodeUtf8 fileName)
    (hlen : client.fileName.length ≤ 254) (hnul : (0 : UInt8) ∉ client.fileName)
    (request finish : Request) {contentSize crc : Nat} (hsize : contentSize < 2 ^ 31)
    (hcrc : crc < 2 ^ 32) (rest : Bytes) :
    (crcChecking kit client request contentSize finish).reading
        ((Message.fileReceived client.clientId contentSize fileName crc).bytes ++ rest) =
      (finishChecking client request finish crc, rest) := by
  have hm : (Message.fileReceived client.clientId contentSize fileName crc).Fits :=
    Message.fits_of_eq rfl (by decide) (by decide)
  have h1607 : ¬ (Message.fileReceived client.clientId contentSize fileName crc).header.code =
      generalError1607 := by simp only [Message.fileReceived]; decide
  have h1603 : (Message.fileReceived client.clientId contentSize fileName crc).header.code =
      validFileAndCrc1603 := rfl
  have hwide : (contentSize : Int) % 2 ^ kit.longWidth = contentSize := by
    have hpow : (2 : Int) ^ 32 ≤ 2 ^ kit.longWidth := by
      exact_mod_cast Nat.pow_le_pow_right (by decide : 0 < 2) kit.longWidth_ge
    exact Int.emod_eq_of_lt (by omega) (by omega)
  have hfield : (padTo 255 client.fileName).length = fileNameSize :=
    Octets.length_padTo (by omega)
  have hecho : Answer.stringAccepted client.fileName (padTo 255 client.fileName) = true :=
    (stringAccepted_iff _ _).mpr (Octets.uptoNul_padTo hnul 255)
  rw [crcChecking, reading_header hm, fileReceived_parts, ← hname]
  simp only [h1607, if_false]
  rw [unlessExit_bind_pos h1603, readStringAndCheck_exits hid,
    if_pos ((stringAccepted_self _).mpr hz),
    reading_getNumber (by simp only [contentSizeSize]; omega), unlessExit_bind_pos hwide,
    readStringAndCheck_exits hfield, if_pos hecho,
    reading_getNumber (by simp only [crcSize]; omega)]
  rfl

/-- The 1603 of a correct server, up to the finish request. -/
theorem fileReceived_exits_iff (kit : Toolkit) (client : Client)
    (hid : client.clientId.length = clientIdSize) {fileName : Text}
    (hname : client.fileName = encodeUtf8 fileName) (hlen : client.fileName.length ≤ 254)
    (hnul : (0 : UInt8) ∉ client.fileName) (request finish : Request) {contentSize crc : Nat}
    (hsize : contentSize < 2 ^ 31) (hcrc : crc < 2 ^ 32) :
    ExitsAt (crcChecking kit client request contentSize finish)
        (.fileReceived client.clientId contentSize fileName crc) ↔
      (0 : UInt8) ∈ client.clientId := by
  by_cases hz : (0 : UInt8) ∈ client.clientId
  · have hm : (Message.fileReceived client.clientId contentSize fileName crc).Fits :=
      Message.fits_of_eq rfl (by decide) (by decide)
    have hparts := @fileReceived_parts client.clientId contentSize crc fileName []
    rw [List.append_nil] at hparts
    have h1607 : ¬ (Message.fileReceived client.clientId contentSize fileName crc).header.code =
        generalError1607 := by simp only [Message.fileReceived]; decide
    have h1603 : (Message.fileReceived client.clientId contentSize fileName crc).header.code =
        validFileAndCrc1603 := rfl
    rw [ExitsAt, crcChecking, reading_answer hm, hparts]
    simp only [h1607, if_false]
    rw [unlessExit_bind_pos h1603, readStringAndCheck_exits hid,
      if_neg (by simpa [stringAccepted_self] using hz)]
    simpa using hz
  · have hread := @reading_fileReceived kit client hid hz fileName hname hlen hnul request finish
      contentSize crc hsize hcrc []
    rw [List.append_nil] at hread
    rw [ExitsAt, hread]
    simp only [hz, iff_false]
    intro h
    cases h

/-- The id is taken from the stream. -/
theorem reading_thankYou {client : Client} (hid : client.clientId.length = clientIdSize)
    (hz : (0 : UInt8) ∉ client.clientId) (tries : Nat) (finish : Request) (rest : Bytes) :
    (theEnd client (tries + 1) finish).reading
        ((Message.thankYou client.clientId).bytes ++ rest) = (pure (), rest) := by
  have hm : (Message.thankYou client.clientId).Fits :=
    Message.fits_of_eq rfl (by decide) (by decide)
  have hparts : (Message.thankYou client.clientId).parts.flatten = client.clientId := by
    simp [Message.thankYou]
  have h1607 : ¬ (Message.thankYou client.clientId).header.code = generalError1607 := by
    simp only [Message.thankYou]; decide
  have h1604 : (Message.thankYou client.clientId).header.code = thankYou1604 := rfl
  rw [theEnd, reading_header hm, hparts]
  simp only [h1607, if_false]
  rw [unlessExit_bind_pos h1604, ← bind_pure (Answer.readStringAndCheck _ _),
    readStringAndCheck_exits hid, if_pos ((stringAccepted_self _).mpr hz)]
  rfl

/-- The same for the 1604 of a correct server. -/
theorem thankYou_exits_iff (client : Client) (hid : client.clientId.length = clientIdSize)
    (tries : Nat) (finish : Request) :
    ExitsAt (theEnd client (tries + 1) finish) (.thankYou client.clientId) ↔
      (0 : UInt8) ∈ client.clientId := by
  by_cases hz : (0 : UInt8) ∈ client.clientId
  · have hm : (Message.thankYou client.clientId).Fits :=
      Message.fits_of_eq rfl (by decide) (by decide)
    have hparts : (Message.thankYou client.clientId).parts.flatten = client.clientId := by
      simp [Message.thankYou]
    have h1607 : ¬ (Message.thankYou client.clientId).header.code = generalError1607 := by
      simp only [Message.thankYou]; decide
    have h1604 : (Message.thankYou client.clientId).header.code = thankYou1604 := rfl
    rw [ExitsAt, theEnd, reading_answer hm, hparts]
    simp only [h1607, if_false]
    rw [unlessExit_bind_pos h1604, readStringAndCheck_last hid,
      if_neg (by simpa [stringAccepted_self] using hz)]
    simpa using hz
  · have hread := reading_thankYou hid hz tries finish []
    rw [List.append_nil] at hread
    rw [ExitsAt, hread]
    simp only [hz, iff_false]
    intro h
    cases h

/-- `read_string_and_check` reads the field and goes on. -/
def Accepts (expected : Bytes) (size : Nat) (received : Bytes) : Prop :=
  ((Answer.readStringAndCheck expected size).reading received).1 = .ret ()

theorem accepts_iff {expected received : Bytes} {size : Nat} (hlen : received.length = size) :
    Accepts expected size received ↔ Answer.stringAccepted expected received = true := by
  rw [Accepts, readStringAndCheck_last hlen]
  by_cases h : Answer.stringAccepted expected received = true
  · simp [h]
  · simp only [h, Bool.false_eq_true, if_false, iff_false]
    intro hret
    cases hret

/-- The client goes on after every answer of a correct server that echoes its id and
its file name. -/
def EchoesAccepted (kit : Toolkit) (client : Client) (fileName : Text) : Prop :=
  (∀ (code : Nat) (encrypted : Bytes),
    code = getPublicKeySendAes1602 ∨ code = validReconnect1605 →
    encrypted.length < 2 ^ 31 - 16 →
      ¬ ExitsAt (Answer.getHeaderFromServer >>= getAesKeyFromServer client)
        (.aesKey code client.clientId encrypted)) ∧
  (∀ (request finish : Request) (contentSize crc : Nat), contentSize < 2 ^ 31 → crc < 2 ^ 32 →
      ¬ ExitsAt (crcChecking kit client request contentSize finish)
        (.fileReceived client.clientId contentSize fileName crc)) ∧
  ∀ (tries : Nat) (finish : Request),
      ¬ ExitsAt (theEnd client (tries + 1) finish) (.thankYou client.clientId)

theorem echoesAccepted_iff (kit : Toolkit) (client : Client)
    (hid : client.clientId.length = clientIdSize) {fileName : Text}
    (hname : client.fileName = encodeUtf8 fileName) (hlen : client.fileName.length ≤ 254)
    (hnul : (0 : UInt8) ∉ client.fileName) :
    EchoesAccepted kit client fileName ↔ (0 : UInt8) ∉ client.clientId := by
  constructor
  · intro h
    have hend := h.2.2 0 Request.new
    rwa [thankYou_exits_iff client hid] at hend
  · intro hz
    refine ⟨?_, ?_, ?_⟩
    · intro code encrypted hcode henc
      have hlt : code < 65536 := by
        rcases hcode with rfl | rfl <;> decide
      rwa [aesKey_exits_iff client hid hlt henc]
    · intro request finish contentSize crc hsize hcrc
      rwa [fileReceived_exits_iff kit client hid hname hlen hnul request finish hsize hcrc]
    · intro tries finish
      rwa [thankYou_exits_iff client hid]

/-- A field is checked for being the padded expected string exactly when that string
has no NUL and the padding is at most one byte; and the echoes of a correct server are
all accepted exactly when the id has no zero byte. -/
theorem identity_echo_iff (kit : Toolkit) (client : Client)
    (hid : client.clientId.length = clientIdSize) (fileName : Text)
    (hname : client.fileName = encodeUtf8 fileName) (hlen : client.fileName.length ≤ 254)
    (hnul : (0 : UInt8) ∉ client.fileName) (expected : Bytes) (size : Nat)
    (hsize : expected.length ≤ size) :
    ((∀ received : Bytes, received.length = size →
        (Accepts expected size received ↔ received = padTo size expected)) ↔
      (0 : UInt8) ∉ expected ∧ size ≤ expected.length + 1) ∧
    (EchoesAccepted kit client fileName ↔ (0 : UInt8) ∉ client.clientId) := by
  refine ⟨?_, echoesAccepted_iff kit client hid hname hlen hnul⟩
  have h := accepts_padded_only_iff hsize
  rw [← Echoable, ← h]
  apply forall_congr'
  intro received
  apply forall_congr'
  intro hreceived
  rw [accepts_iff hreceived]

/-- The bytes of a random uuid: version 4, variant 10, and a zero byte. -/
def uuidWithZero : Bytes :=
  [0x3f, 0x00, 0xa2, 0x71, 0x5c, 0x9e, 0x4b, 0x16, 0x8d, 0xe0, 0x2f, 0x44, 0x67, 0xb3, 0x19, 0xc8]

def namedClient (id : Bytes) : Client :=
  { Client.new with clientId := id, fileName := [97] }

theorem identity_echo_two_bytes :
    ((∀ received : Bytes, received.length = 2 →
        (Accepts [97] 2 received ↔ received = padTo 2 [97])) ↔
      (0 : UInt8) ∉ [97] ∧ 2 ≤ [(97 : UInt8)].length + 1) ∧
    (EchoesAccepted bareKit (namedClient (List.replicate 16 1)) ['a'] ↔
      (0 : UInt8) ∉ List.replicate 16 1) :=
  identity_echo_iff bareKit (namedClient (List.replicate 16 1)) (by decide) ['a'] (by decide)
    (by decide) (by decide) [97] 2 (by decide)

/-- The id of the client is not accepted as its own echo, nor is a name refused whose
field holds something after the first NUL. -/
theorem identity_echo_fails :
    ¬ Accepts uuidWithZero 16 (padTo 16 uuidWithZero) ∧
      Accepts [97] 255 ([97, 0, 98] ++ padTo 252 []) ∧
      [97, 0, 98] ++ padTo 252 [] ≠ padTo 255 [97] ∧
      ExitsAt (theEnd (namedClient uuidWithZero) maxTries Request.new)
        (.thankYou uuidWithZero) := by
  refine ⟨?_, ?_, ?_, ?_⟩
  · rw [accepts_iff (by decide)]
    decide
  · have hlen : ([97, 0, 98] ++ padTo 252 [] : Bytes).length = 255 := by
      rw [List.length_append, Octets.length_padTo (Nat.zero_le _)]
      rfl
    rw [accepts_iff hlen, stringAccepted_iff]
    rfl
  · intro h
    have hmem : (98 : UInt8) ∈ padTo 255 [97] := h ▸ by simp
    rw [padTo, List.mem_append, List.mem_replicate] at hmem
    simp at hmem
  · exact (thankYou_exits_iff (namedClient uuidWithZero) (by decide) 3 Request.new).mpr (by decide)

end ClientSide
end SecureTransfer
