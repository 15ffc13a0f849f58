import SecureTransfer.Client.Codec

/-!
What `send_file` sends for a file of any length. The length passes through an
`unsigned int` on its way to the cipher and through an `int` on its way to the packets, and
only the number of packets is checked: from 2^31 - 16 bytes on a file may be cut or not be
sent at all.
-/

open Octets (Text encodeUtf8 toLittle padTo)
open Dialogue

namespace SecureTransfer
namespace ClientSide

/-- A program that is about to read a file, after it found this content. -/
def afterLoading {α : Type} (content : Option Bytes) : Prog α → Prog α
  | .query (.load _) next => next content
  | p => p

/-- What the loop of `send_file` sends for a file. -/
def uploadPackets (kit : Toolkit) (client : Client) (tries : Nat) (request : Request)
    (file : Bytes) : List Bytes :=
  (afterLoading (some file) (sendFile kit client (tries + 1) request)).emitted

/-- `send_file` once it has the file and its ciphertext, which is that of the first bytes if
the length does not fit an `unsigned int`. -/
theorem afterLoading_sendFile (kit : Toolkit) {client : Client} {key : Bytes} (plain : Bytes)
    (hdecrypt : kit.rsaDecrypt client.privKey client.encryptedAes = some key)
    (hkey : key.length = General.aesKeySize) (tries : Nat) (request : Request) :
    let client' := { client with crcValue := ClientCksum.memcrc kit.longWidth plain }
    let encryptedFile := BlockMode.cbcEncrypt kit.cipher key (plain.take (plain.length % 2 ^ 32))
    afterLoading (some plain) (sendFile kit client (tries + 1) request) = (do
      let totalPackets ← calculateTotalPackets (int32 encryptedFile.length)
      let request ← sendAllPackets client' encryptedFile plain totalPackets
        ((request.setClientID client.clientId).setCode sendFile828)
      let (finishCode, request, finishRequest) ←
        crcChecking kit client' request (int32 encryptedFile.length) Request.new
      if finishCode = wrongCrcTryAgain901 ∨ finishCode = tryAgain then
        sendFile kit client' tries request.clearPayload
      else theEnd client' maxTries finishRequest) := by
  intro client' encryptedFile
  have hencrypt : encryptFile kit client.encryptedAes client.privKey plain =
      pure encryptedFile := by
    have hwidth : key.length = 32 := hkey
    rw [encryptFile, hdecrypt]
    simp only [orExit, pure_bind, unlessExit, if_pos hwidth]
    rfl
  have hstart : afterLoading (some plain) (sendFile kit client (tries + 1) request) =
      (do
        let encryptedFile ← encryptFile kit client.encryptedAes client.privKey plain
        let totalPackets ← calculateTotalPackets (int32 encryptedFile.length)
        let request ← sendAllPackets client' encryptedFile plain totalPackets
          ((request.setClientID client.clientId).setCode sendFile828)
        let (finishCode, request, finishRequest) ←
          crcChecking kit client' request (int32 encryptedFile.length) Request.new
        if finishCode = wrongCrcTryAgain901 ∨ finishCode = tryAgain then
          sendFile kit client' tries request.clearPayload
        else theEnd client' maxTries finishRequest) := rfl
  rw [hstart, hencrypt, pure_bind]

/-- With no more bytes than fit the packets, the loop sends the ciphertext. -/
theorem afterLoading_short (kit : Toolkit) {client : Client} {key plain : Bytes}
    (hid : client.clientId.length = clientIdSize)
    (hdecrypt : kit.rsaDecrypt client.privKey client.encryptedAes = some key)
    (hkey : key.length = General.aesKeySize) (tries : Nat) {request : Request}
    (hrequest : request.Empty) (hsize : (BlockMode.cbcEncrypt kit.cipher key
      (plain.take (plain.length % 2 ^ 32))).length ≤ maxCiphertext) :
    let encryptedFile := BlockMode.cbcEncrypt kit.cipher key (plain.take (plain.length % 2 ^ 32))
    ∃ next, next.emitted = [] ∧
      afterLoading (some plain) (sendFile kit client (tries + 1) request) =
        Prog.sendAll ((List.range (packetCount encryptedFile.length)).map fun i =>
          packetBytes client.clientId client.fileName encryptedFile.length (plain.length % 2 ^ 32)
            (i + 1) (packetCount encryptedFile.length) (slice encryptedFile i)) next := by
  intro encryptedFile
  let client' : Client := { client with crcValue := ClientCksum.memcrc kit.longWidth plain }
  obtain ⟨r', -, -, hloop⟩ := sendAllPackets_bytes plain client' hsize (hrequest.ready hid)
  have heq := afterLoading_sendFile kit plain hdecrypt hkey tries request
  simp only at heq
  rw [calculateTotalPackets_eq hsize, pure_bind, hloop, Prog.sendAll_bind] at heq
  exact ⟨_, rfl, heq⟩

theorem uploadPackets_short (kit : Toolkit) {client : Client} {key plain : Bytes}
    (hid : client.clientId.length = clientIdSize)
    (hdecrypt : kit.rsaDecrypt client.privKey client.encryptedAes = some key)
    (hkey : key.length = General.aesKeySize) (tries : Nat) {request : Request}
    (hrequest : request.Empty) (hsize : (BlockMode.cbcEncrypt kit.cipher key
      (plain.take (plain.length % 2 ^ 32))).length ≤ maxCiphertext) :
    let encryptedFile := BlockMode.cbcEncrypt kit.cipher key (plain.take (plain.length % 2 ^ 32))
    uploadPackets kit client tries request plain =
      (List.range (packetCount encryptedFile.length)).map fun i =>
        packetBytes client.clientId client.fileName encryptedFile.length (plain.length % 2 ^ 32)
          (i + 1) (packetCount encryptedFile.length) (slice encryptedFile i) := by
  obtain ⟨next, hnext, hloop⟩ := afterLoading_short kit hid hdecrypt hkey tries hrequest hsize
  rw [uploadPackets, hloop, Prog.emitted_sendAll, hnext, List.append_nil]

theorem uploadPackets_eq (kit : Toolkit) {client : Client} {key plain : Bytes} {fileName : Text}
    (hid : client.clientId.length = clientIdSize)
    (hname : client.fileName = encodeUtf8 fileName)
    (hfits : NameFits General.fileNameSize fileName)
    (hdecrypt : kit.rsaDecrypt client.privKey client.encryptedAes = some key)
    (hkey : key.length = General.aesKeySize)
    (hsize : (BlockMode.cbcEncrypt kit.cipher key plain).length ≤ maxCiphertext) (tries : Nat)
    {request : Request} (hrequest : request.Empty) :
    uploadPackets kit client tries request plain =
      (packetsOf (BlockMode.cbcEncrypt kit.cipher key plain) plain fileName).map fun p =>
        requestBytes client.clientId (.packet p) := by
  have htake : plain.take (plain.length % 2 ^ 32) = plain := by
    rw [BlockMode.length_cbcEncrypt] at hsize
    simp only [maxCiphertext, packetMaxSize] at hsize
    rw [Nat.mod_eq_of_lt (by omega), List.take_length]
  have hshort := @uploadPackets_short kit client key plain hid hdecrypt hkey tries request hrequest
  rw [htake] at hshort
  rw [hshort hsize, packetsOf, List.map_map]
  apply List.map_congr_left
  intro k _
  rw [hname]
  exact packetBytes_eq plain hfits k

/-! Any length. -/

theorem calculateTotalPackets_long {size : Nat} (h : maxCiphertext < size) (hint : size < 2 ^ 31) :
    calculateTotalPackets (int32 size) = .exit := by
  have hsize : int32 size = size := int32_of_lt (by omega) (by omega)
  have hcount : ¬ ((size : Int).tdiv packetMaxSize +
      (if (size : Int).tmod packetMaxSize ≠ 0 then 1 else 0) ≤ 65535) := by
    rw [Int.tdiv_eq_ediv_of_nonneg (Int.natCast_nonneg _),
      Int.tmod_eq_emod_of_nonneg (Int.natCast_nonneg _)]
    simp only [maxCiphertext, packetMaxSize] at h ⊢
    split <;> omega
  simp only [calculateTotalPackets, hsize, unlessExit, if_neg hcount]
  rfl

/-- A length that is not positive as an `int` passes the check. -/
theorem calculateTotalPackets_wrapped {x : Int} (hx : x ≤ 0) :
    ∃ total, calculateTotalPackets x = pure total := by
  refine ⟨x.tdiv packetMaxSize + (if x.tmod packetMaxSize ≠ 0 then 1 else 0), ?_⟩
  obtain ⟨n, rfl⟩ : ∃ n : Nat, x = -n := ⟨(-x).toNat, by omega⟩
  have hcount : (-(n : Int)).tdiv packetMaxSize +
      (if (-(n : Int)).tmod packetMaxSize ≠ 0 then 1 else 0) ≤ 65535 := by
    rw [Int.neg_tdiv, Int.tdiv_eq_ediv_of_nonneg (Int.natCast_nonneg _)]
    simp only [packetMaxSize]
    split <;> omega
  simp only [calculateTotalPackets, unlessExit, if_pos hcount]
  rfl

theorem int32_wrapped {n : Nat} (h : 2 ^ 31 ≤ n) (h' : n ≤ 2 ^ 32) : int32 n ≤ 0 := by
  rw [int32, Int.bmod]
  split <;> omega

theorem sendAllPackets_wrapped {client : Client} {encryptedFile : Bytes} (originalFile : Bytes)
    (h : int32 encryptedFile.length ≤ 0) (total : Int) (r : Request) :
    sendAllPackets client encryptedFile originalFile total r = pure r := by
  have hturns : (int32 encryptedFile.length).toNat = 0 := by omega
  have hdone : ¬ int32 encryptedFile.length > 0 := by omega
  simp only [sendAllPackets, hturns, sendPackets, if_neg hdone]

/-- The length of what the cipher makes of the bytes it is given. -/
theorem length_encrypted (kit : Toolkit) (key plain : Bytes) : (BlockMode.cbcEncrypt kit.cipher key
    (plain.take (plain.length % 2 ^ 32))).length = (plain.length % 2 ^ 32 / 16 + 1) * 16 := by
  rw [BlockMode.length_cbcEncrypt, List.length_take, Nat.min_eq_left (Nat.mod_le _ _)]

section
variable (kit : Toolkit) {client : Client} {key : Bytes} (plain : Bytes)
  (hdecrypt : kit.rsaDecrypt client.privKey client.encryptedAes = some key)
  (hkey : key.length = General.aesKeySize) (tries : Nat) (request : Request)
include hdecrypt hkey

theorem afterLoading_long (hlong : maxCiphertext ≤ plain.length % 2 ^ 32)
    (hint : plain.length % 2 ^ 32 < 2 ^ 31 - 16) :
    afterLoading (some plain) (sendFile kit client (tries + 1) request) = .exit := by
  have hlen := length_encrypted kit key plain
  simp only [maxCiphertext, packetMaxSize] at hlong
  rw [afterLoading_sendFile kit plain hdecrypt hkey, calculateTotalPackets_long]
  · rfl
  · rw [hlen]
    simp only [maxCiphertext, packetMaxSize]
    omega
  · omega

/-- No packet and no error: the client waits for the answer to a file it has not sent. -/
theorem afterLoading_wrapped (hwrap : 2 ^ 31 - 16 ≤ plain.length % 2 ^ 32) :
    afterLoading (some plain) (sendFile kit client (tries + 1) request) ≠ .exit ∧
      (afterLoading (some plain) (sendFile kit client (tries + 1) request)).emitted = [] := by
  have hlt : plain.length % 2 ^ 32 < 2 ^ 32 := Nat.mod_lt _ (by decide)
  have hint : int32 (BlockMode.cbcEncrypt kit.cipher key
      (plain.take (plain.length % 2 ^ 32))).length ≤ 0 := by
    rw [length_encrypted]
    apply int32_wrapped <;> omega
  obtain ⟨total, htotal⟩ := calculateTotalPackets_wrapped hint
  rw [afterLoading_sendFile kit plain hdecrypt hkey, htotal, pure_bind,
    sendAllPackets_wrapped plain hint, pure_bind]
  refine ⟨?_, rfl⟩
  intro h
  cases h

end

/-- The packets of a ciphertext, numbered from one to their number, which fits 16 bits. The
size field of each, which the loop computes from its counters, is that of its slice. -/
def SentWhole (client : Client) (plain ciphertext : Bytes) (sent : List Bytes) : Prop :=
  ∃ slices : List Bytes, slices ≠ [] ∧ slices.flatten = ciphertext ∧
    slices.length = packetCount ciphertext.length ∧ slices.length ≤ 65535 ∧
    (∀ content ∈ slices, 1 ≤ content.length ∧ content.length ≤ packetMaxSize) ∧
    sent = slices.mapIdx fun k content =>
      packetBytes client.clientId client.fileName ciphertext.length (plain.length % 2 ^ 32) (k + 1)
        slices.length content

/-- `send_file` either stops before it sends anything or sends the ciphertext of the whole
file, and it stops exactly when that is too long. -/
structure SizeRespected (kit : Toolkit) (client : Client) (key : Bytes) (tries : Nat)
    (request : Request) (plain : Bytes) : Prop where
  whole : afterLoading (some plain) (sendFile kit client (tries + 1) request) = .exit ∨
    SentWhole client plain (BlockMode.cbcEncrypt kit.cipher key plain)
      (uploadPackets kit client tries request plain)
  stops : afterLoading (some plain) (sendFile kit client (tries + 1) request) = .exit ↔
    maxCiphertext < (BlockMode.cbcEncrypt kit.cipher key plain).length

theorem flatten_slices (encryptedFile : Bytes) (k : Nat) :
    ((List.range k).map (slice encryptedFile)).flatten =
      encryptedFile.take (packetMaxSize * k) := by
  induction k with
  | zero => simp
  | succ k ih =>
      rw [List.range_succ, List.map_append, List.flatten_append, ih, List.map_singleton,
        List.flatten_singleton, take_append_slice]

theorem sentWhole_packets (client : Client) (plain : Bytes) {ciphertext : Bytes}
    (hpos : 0 < ciphertext.length) (hsize : ciphertext.length ≤ maxCiphertext) :
    SentWhole client plain ciphertext ((List.range (packetCount ciphertext.length)).map fun i =>
      packetBytes client.clientId client.fileName ciphertext.length (plain.length % 2 ^ 32) (i + 1)
        (packetCount ciphertext.length) (slice ciphertext i)) := by
  have hlength : ((List.range (packetCount ciphertext.length)).map (slice ciphertext)).length =
      packetCount ciphertext.length := by simp
  refine ⟨(List.range (packetCount ciphertext.length)).map (slice ciphertext), ?_, ?_, hlength,
    hlength.trans_le (packetCount_le hsize), ?_, ?_⟩
  · have hcount := lt_packetCount_iff (k := 0).mpr (by omega)
    apply List.ne_nil_of_length_pos
    rwa [hlength]
  · rw [flatten_slices, List.take_of_length_le]
    simp only [packetCount, packetMaxSize]
    omega
  · intro content hcontent
    obtain ⟨k, hk, rfl⟩ := List.mem_map.mp hcontent
    have hlt := lt_packetCount_iff.mp (List.mem_range.mp hk)
    rw [length_slice]
    simp only [packetMaxSize] at hlt ⊢
    omega
  · rw [hlength]
    apply List.ext_getElem
    · simp
    · intro i hi hi'
      simp

/-- The loop of `send_file` sends nothing, or a whole ciphertext. -/
theorem uploadPackets_cases (kit : Toolkit) (client : Client)
    (hid : client.clientId.length = clientIdSize) (tries : Nat) (request : Request)
    (hrequest : request.Empty) (plain : Bytes) :
    uploadPackets kit client tries request plain = [] ∨
      ∃ ciphertext, ciphertext.length ≤ maxCiphertext ∧
        SentWhole client plain ciphertext (uploadPackets kit client tries request plain) := by
  have hexit : encryptFile kit client.encryptedAes client.privKey plain = .exit →
      uploadPackets kit client tries request plain = [] := by
    intro hencrypt
    have hstart : uploadPackets kit client tries request plain = Prog.emitted (do
        let encryptedFile ← encryptFile kit client.encryptedAes client.privKey plain
        let client' := { client with crcValue := ClientCksum.memcrc kit.longWidth plain }
        let totalPackets ← calculateTotalPackets (int32 encryptedFile.length)
        let request ← sendAllPackets client' encryptedFile plain totalPackets
          ((request.setClientID client.clientId).setCode sendFile828)
        let (finishCode, request, finishRequest) ←
          crcChecking kit client' request (int32 encryptedFile.length) Request.new
        if finishCode = wrongCrcTryAgain901 ∨ finishCode = tryAgain then
          sendFile kit client' tries request.clearPayload
        else theEnd client' maxTries finishRequest) := rfl
    rw [hstart, hencrypt]
    rfl
  cases hdecrypt : kit.rsaDecrypt client.privKey client.encryptedAes with
  | none =>
      refine .inl (hexit ?_)
      rw [encryptFile, hdecrypt]
      rfl
  | some key =>
      by_cases hkey : key.length = General.aesKeySize
      · have hcut := length_encrypted kit key plain
        by_cases hshort : plain.length % 2 ^ 32 < maxCiphertext
        · have hsize : (BlockMode.cbcEncrypt kit.cipher key
              (plain.take (plain.length % 2 ^ 32))).length ≤ maxCiphertext := by
            simp only [maxCiphertext, packetMaxSize] at hshort ⊢
            omega
          rw [uploadPackets_short kit hid hdecrypt hkey tries hrequest hsize]
          exact .inr ⟨_, hsize, sentWhole_packets client plain (by omega) hsize⟩
        · have hlong := Nat.le_of_not_lt hshort
          left
          by_cases hint : plain.length % 2 ^ 32 < 2 ^ 31 - 16
          · rw [uploadPackets, afterLoading_long kit plain hdecrypt hkey tries request hlong hint]
            rfl
          · exact (afterLoading_wrapped kit plain hdecrypt hkey tries request (by omega)).2
      · refine .inl (hexit ?_)
        have hwidth : ¬ key.length = 32 := hkey
        rw [encryptFile, hdecrypt]
        simp only [orExit, pure_bind, unlessExit, if_neg hwidth]
        rfl

/-- Exactly for files shorter than 65535 packets, and for longer ones whose length, kept to
32 bits, is at least that and stays positive with the padding. -/
theorem sizeRespected_iff (kit : Toolkit) (client : Client)
    (hid : client.clientId.length = clientIdSize) (key : Bytes)
    (hdecrypt : kit.rsaDecrypt client.privKey client.encryptedAes = some key)
    (hkey : key.length = General.aesKeySize) (tries : Nat) (request : Request)
    (hrequest : request.Empty) (plain : Bytes) :
    SizeRespected kit client key tries request plain ↔
      plain.length < maxCiphertext ∨
        maxCiphertext ≤ plain.length % 2 ^ 32 ∧ plain.length % 2 ^ 32 < 2 ^ 31 - 16 := by
  have hlen := BlockMode.length_cbcEncrypt kit.cipher key plain
  have hcut := length_encrypted kit key plain
  have hmod := Nat.mod_le plain.length (2 ^ 32)
  by_cases hshort : plain.length % 2 ^ 32 < maxCiphertext
  · -- as many packets as the ciphertext of the first bytes needs
    simp only [maxCiphertext, packetMaxSize] at hshort
    have hsize : (BlockMode.cbcEncrypt kit.cipher key
        (plain.take (plain.length % 2 ^ 32))).length ≤ maxCiphertext := by
      simp only [maxCiphertext, packetMaxSize]
      omega
    have hsent := uploadPackets_short kit hid hdecrypt hkey tries hrequest hsize
    have hwhole := sentWhole_packets client plain (by omega) hsize
    rw [← hsent] at hwhole
    have hgoes : afterLoading (some plain) (sendFile kit client (tries + 1) request) ≠ .exit := by
      intro hexit
      obtain ⟨slices, hne, -, -, -, -, heq⟩ := hwhole
      rw [uploadPackets, hexit] at heq
      have hnone := congrArg List.length heq
      rw [List.length_mapIdx] at hnone
      exact hne (List.eq_nil_of_length_eq_zero hnone.symm)
    constructor
    · intro h
      have hfits := mt h.stops.mpr hgoes
      simp only [maxCiphertext, packetMaxSize] at hfits ⊢
      omega
    · intro h
      simp only [maxCiphertext, packetMaxSize] at h
      have hall : plain.take (plain.length % 2 ^ 32) = plain :=
        List.take_of_length_le (by omega)
      rw [hall] at hwhole hcut
      refine ⟨.inr hwhole, fun hexit => absurd hexit hgoes, fun hlong => ?_⟩
      simp only [maxCiphertext, packetMaxSize] at hlong
      omega
  · have hlong : maxCiphertext ≤ plain.length % 2 ^ 32 := Nat.le_of_not_lt hshort
    by_cases hint : plain.length % 2 ^ 32 < 2 ^ 31 - 16
    · have hexit := afterLoading_long kit plain hdecrypt hkey tries request hlong hint
      simp only [maxCiphertext, packetMaxSize] at hlong
      refine ⟨fun _ => .inr ⟨hlong, hint⟩, fun _ => ⟨.inl hexit, fun _ => ?_, fun _ => hexit⟩⟩
      simp only [maxCiphertext, packetMaxSize]
      omega
    · obtain ⟨hgoes, -⟩ := afterLoading_wrapped kit plain hdecrypt hkey tries request (by omega)
      simp only [maxCiphertext, packetMaxSize] at hlong
      constructor
      · intro h
        have hfits := mt h.stops.mpr hgoes
        simp only [maxCiphertext, packetMaxSize] at hfits
        omega
      · intro h
        simp only [maxCiphertext, packetMaxSize] at h
        omega

/-! A run with a key of ones, and the cipher that leaves blocks as they are. -/

def onesKey : Bytes := List.replicate 32 1

def onesKit : Toolkit := { bareKit with rsaDecrypt := fun _ _ => some onesKey }

def onesClient : Client := { Client.new with clientId := List.replicate 16 1 }

theorem sizeRespected_byte :
    SizeRespected onesKit onesClient onesKey 3 Request.new [97] ↔
      [(97 : UInt8)].length < maxCiphertext ∨
        maxCiphertext ≤ [(97 : UInt8)].length % 2 ^ 32 ∧
          [(97 : UInt8)].length % 2 ^ 32 < 2 ^ 31 - 16 :=
  sizeRespected_iff onesKit onesClient rfl onesKey rfl rfl 3 Request.new ⟨rfl, rfl⟩ [97]

/-- A file of one byte less than two gigabytes. -/
def longFile : Bytes := List.replicate (2 ^ 31 - 1) 0

/-- Nothing is sent of it, and the program does not stop. -/
theorem sizeRespected_fails :
    ¬ SizeRespected onesKit onesClient onesKey 3 Request.new longFile ∧
      uploadPackets onesKit onesClient 3 Request.new longFile = [] := by
  have hlen : longFile.length = 2 ^ 31 - 1 := List.length_replicate
  have hmod : longFile.length % 2 ^ 32 = 2 ^ 31 - 1 :=
    (congrArg (· % 2 ^ 32) hlen).trans (by decide)
  obtain ⟨hgoes, hnone⟩ := @afterLoading_wrapped onesKit onesClient onesKey longFile rfl rfl 3
    Request.new (by rw [hmod]; decide)
  refine ⟨fun h => hgoes (h.stops.mpr ?_), hnone⟩
  rw [BlockMode.length_cbcEncrypt, hlen]
  decide

end ClientSide
end SecureTransfer
