import SecureTransfer.Client.Main
import SecureTransfer.Service.Wire

/-!
The packets of one run of the loop in `send_file`: the slices of the ciphertext in
order, each numbered from one, each with the same sizes and the same name.
-/

open Octets (Text encodeUtf8 toLittle padTo)
open Dialogue

namespace SecureTransfer
namespace ClientSide

theorem storeLittle_natCast {size n : Nat} :
    storeLittle size n = toLittle size (n % 256 ^ size) := by
  have hmod : ((n : Int) % 256 ^ size).toNat = n % 256 ^ size := by
    have hpow : (256 : Int) ^ size = ((256 ^ size : Nat) : Int) := (Int.natCast_pow 256 size).symm
    rw [hpow, ← Int.natCast_emod, Int.toNat_natCast]
  rw [storeLittle, hmod]

theorem storeLittle_of_lt {size n : Nat} (h : n < 256 ^ size) :
    storeLittle size n = toLittle size n := by
  rw [storeLittle_natCast, Nat.mod_eq_of_lt h]

/-- An `int` holds the lowest 32 bits of a length. -/
theorem storeLittle_int32 (n : Nat) : storeLittle 4 (int32 n) = toLittle 4 (n % 2 ^ 32) := by
  have hmod : int32 n % 256 ^ 4 = ((n % 2 ^ 32 : Nat) : Int) := by
    have hpow : (256 : Int) ^ 4 = ((2 ^ 32 : Nat) : Int) := by decide
    rw [hpow, int32, Int.bmod_emod, ← Int.natCast_emod]
  rw [storeLittle, hmod, Int.toNat_natCast]

/-- A request object that has the fields of a request is written as that request. -/
theorem massage_eq {r : Request} {clientId : Bytes} {body : Body} (hid : r.clientId = clientId)
    (hversion : r.version = Request.new.version) (hcode : r.code = toLittle 2 body.code)
    (hsize : r.payloadSize = toLittle 4 body.payload.length) (hpayload : r.payload = body.payload) :
    r.massage = requestBytes clientId body := by
  simp only [Request.massage, hid, hversion, hcode, hsize, hpayload, requestBytes, frame,
    List.append_assoc]
  rfl

/-- The most bytes that fit 65535 packets. -/
abbrev maxCiphertext : Nat := 65535 * packetMaxSize

def packetCount (size : Nat) : Nat := (size + (packetMaxSize - 1)) / packetMaxSize

def slice (encryptedFile : Bytes) (k : Nat) : Bytes :=
  (encryptedFile.drop (packetMaxSize * k)).take packetMaxSize

/-- The fields of packet `k + 1`. -/
def packetOf (encryptedFile originalFile : Bytes) (fileName : Text) (k : Nat) : Packet :=
  { contentSize := encryptedFile.length, origFileSize := originalFile.length % 2 ^ 32,
    packetNumber := k + 1, totalPackets := packetCount encryptedFile.length,
    fileName := fileName, content := slice encryptedFile k }

def packetsOf (encryptedFile originalFile : Bytes) (fileName : Text) : List Packet :=
  (List.range (packetCount encryptedFile.length)).map (packetOf encryptedFile originalFile fileName)

/-- A packet as it is written, whatever the name. -/
def packetBytes (clientId fileName : Bytes)
    (contentSize origFileSize packetNumber totalPackets : Nat) (content : Bytes) : Bytes :=
  frame clientId sendFile828 (payloadSizeWithoutMassage + content.length) ++
    (toLittle contentSizeSize contentSize ++ toLittle origFileSizeSize origFileSize ++
      toLittle packetNumberSize packetNumber ++ toLittle totalPacketsSize totalPackets ++
      padTo nameOfClientSize fileName ++ content)

theorem packetCount_le {size : Nat} (h : size ≤ maxCiphertext) : packetCount size ≤ 65535 := by
  simp only [packetCount, packetMaxSize, maxCiphertext] at h ⊢
  omega

theorem lt_packetCount_iff {size k : Nat} : k < packetCount size ↔ packetMaxSize * k < size := by
  simp only [packetCount, packetMaxSize]
  omega

theorem length_slice (encryptedFile : Bytes) (k : Nat) :
    (slice encryptedFile k).length =
      min packetMaxSize (encryptedFile.length - packetMaxSize * k) := by
  rw [slice, List.length_take, List.length_drop]

theorem take_drop_eq_slice {encryptedFile : Bytes} {start size k : Nat}
    (hstart : start = packetMaxSize * k)
    (hsize : min size (encryptedFile.length - start) =
      min packetMaxSize (encryptedFile.length - start)) :
    (encryptedFile.drop start).take size = slice encryptedFile k := by
  rw [slice, ← hstart, List.take_eq_take_iff, List.length_drop]
  exact hsize

theorem take_append_slice (encrypted : Bytes) (k : Nat) :
    encrypted.take (packetMaxSize * k) ++ slice encrypted k =
      encrypted.take (packetMaxSize * (k + 1)) := by
  rw [slice, Nat.mul_succ, List.take_add]

theorem packetOf_fits {encryptedFile : Bytes} (originalFile : Bytes) {fileName : Text} {k : Nat}
    (hsize : encryptedFile.length ≤ maxCiphertext) (hname : NameFits General.fileNameSize fileName)
    (hk : k < packetCount encryptedFile.length) :
    (packetOf encryptedFile originalFile fileName k).Fits where
  contentSize := by
    simp only [packetOf, maxCiphertext, packetMaxSize, General.contentSizeSize] at hsize ⊢
    omega
  origFileSize := Nat.mod_lt _ (by decide)
  packetNumber := by
    have := packetCount_le hsize
    simp only [packetOf, General.pucketNumberSize]
    omega
  totalPackets := by
    have := packetCount_le hsize
    simp only [packetOf, General.totalPucketsSize]
    omega
  fileName := hname
  content := by
    have hlen : (packetOf encryptedFile originalFile fileName k).fields.length =
        Request.packetFieldsSize := length_fields hname
    have hslice : (packetOf encryptedFile originalFile fileName k).content.length
        ≤ packetMaxSize := by
      rw [packetOf, length_slice]
      exact Nat.min_le_left _ _
    rw [List.length_append, hlen]
    simp only [packetMaxSize, Request.packetFieldsSize, General.contentSizeSize,
      General.origFileSizeSize, General.pucketNumberSize, General.totalPucketsSize,
      General.fileNameSize, General.payloadSizeSize] at hslice ⊢
    omega

/-- For a ciphertext that fits the fields of a packet the count is exact. -/
theorem calculateTotalPackets_eq {size : Nat} (h : size ≤ maxCiphertext) :
    calculateTotalPackets (int32 size) = pure (packetCount size : Int) := by
  have hbound := packetCount_le h
  have hint : int32 size = size := by
    simp only [maxCiphertext, packetMaxSize] at h
    exact int32_of_lt (by omega) (by omega)
  have hcount : (size : Int).tdiv packetMaxSize +
      (if (size : Int).tmod packetMaxSize ≠ 0 then 1 else 0) = packetCount size := by
    rw [Int.tdiv_eq_ediv_of_nonneg (Int.natCast_nonneg _),
      Int.tmod_eq_emod_of_nonneg (Int.natCast_nonneg _)]
    simp only [packetCount, packetMaxSize]
    split <;> omega
  have hfits : ((packetCount size : Nat) : Int) ≤ 65535 := by omega
  simp only [calculateTotalPackets, hint, hcount, unlessExit, if_pos hfits, pure_bind]

/-- A request object before the loop, and between two turns of it. -/
structure ReadyToSend (clientId : Bytes) (r : Request) : Prop where
  clientId : r.clientId = clientId
  version : r.version = Request.new.version
  code : r.code = toLittle codeSize sendFile828
  payload : r.payload = []

section
variable {client : Client} {encryptedFile : Bytes} (originalFile : Bytes) {fileName : Text}

/-- The request of one turn, with this content. -/
def packetRequest (client : Client) (encryptedFile originalFile : Bytes) (totalPackets : Int)
    (packetNumber : Int) (content : Bytes) (r : Request) : Request :=
  { r with
    payloadSize := storeLittle payloadSizeSize (payloadSizeWithoutMassage + content.length : Nat)
    payload := r.payload ++ storeLittle contentSizeSize (int32 encryptedFile.length) ++
      storeLittle origFileSizeSize (int32 originalFile.length) ++
      storeLittle packetNumberSize packetNumber ++ storeLittle totalPacketsSize totalPackets ++
      padTo nameOfClientSize client.fileName ++ content }

theorem massage_packet (hsize : encryptedFile.length ≤ maxCiphertext) {clientId : Bytes}
    {r : Request} (hr : ReadyToSend clientId r) {k : Nat}
    (hk : k < packetCount encryptedFile.length) :
    (packetRequest client encryptedFile originalFile (packetCount encryptedFile.length)
      (k + 1 : Nat) (slice encryptedFile k) r).massage =
      packetBytes clientId client.fileName encryptedFile.length (originalFile.length % 2 ^ 32)
        (k + 1) (packetCount encryptedFile.length) (slice encryptedFile k) := by
  have hcount := packetCount_le hsize
  have hslice : (slice encryptedFile k).length ≤ packetMaxSize := by
    rw [length_slice]
    exact Nat.min_le_left _ _
  have hlen : encryptedFile.length % 2 ^ 32 = encryptedFile.length := by
    simp only [maxCiphertext, packetMaxSize] at hsize
    exact Nat.mod_eq_of_lt (by omega)
  have hpayload : storeLittle payloadSizeSize
      (payloadSizeWithoutMassage + (slice encryptedFile k).length : Nat) =
      toLittle payloadSizeSize (payloadSizeWithoutMassage + (slice encryptedFile k).length) := by
    apply storeLittle_of_lt
    simp only [payloadSizeWithoutMassage, contentSizeSize, origFileSizeSize, packetNumberSize,
      totalPacketsSize, fileNameSize, payloadSizeSize, packetMaxSize] at hslice ⊢
    omega
  have hnumber : storeLittle packetNumberSize (k + 1 : Nat) =
      toLittle packetNumberSize (k + 1) := by
    apply storeLittle_of_lt
    simp only [packetNumberSize]
    omega
  have htotal : storeLittle totalPacketsSize (packetCount encryptedFile.length : Nat) =
      toLittle totalPacketsSize (packetCount encryptedFile.length) := by
    apply storeLittle_of_lt
    simp only [totalPacketsSize]
    omega
  simp only [Request.massage, packetRequest, packetBytes, frame, hr.clientId, hr.version, hr.code,
    hr.payload, storeLittle_int32, hlen, hpayload, hnumber, htotal, List.nil_append,
    List.append_assoc]
  rfl

/-- A name in UTF-8 makes it the packet of the protocol. -/
theorem packetBytes_eq {clientId : Bytes} (hfits : NameFits General.fileNameSize fileName)
    (k : Nat) :
    packetBytes clientId (encodeUtf8 fileName) encryptedFile.length (originalFile.length % 2 ^ 32)
        (k + 1) (packetCount encryptedFile.length) (slice encryptedFile k) =
      requestBytes clientId (.packet (packetOf encryptedFile originalFile fileName k)) := by
  have hlength : payloadSizeWithoutMassage + (slice encryptedFile k).length =
      (Body.packet (packetOf encryptedFile originalFile fileName k)).payload.length := by
    simp only [Body.payload, List.length_append,
      length_fields (p := packetOf encryptedFile originalFile fileName k) hfits]
    rfl
  rw [requestBytes, ← hlength, packetBytes]
  simp only [Body.payload, Packet.fields, packetOf, nameField, List.append_assoc]
  rfl

theorem ReadyToSend.clear {clientId : Bytes} {r : Request} (hr : ReadyToSend clientId r)
    (totalPackets packetNumber : Int) (content : Bytes) :
    ReadyToSend clientId
      (packetRequest client encryptedFile originalFile totalPackets packetNumber content
        r).clearPayload :=
  ⟨hr.clientId, hr.version, hr.code, rfl⟩

/-- One turn of the loop builds the request with the slice that is due. -/
theorem sendPackets_succ (hsize : encryptedFile.length ≤ maxCiphertext) (totalPackets : Int)
    (turns : Nat) (r : Request) {k : Nat} (hk : k < packetCount encryptedFile.length) :
    sendPackets client encryptedFile originalFile totalPackets (turns + 1) r (k + 1 : Nat)
        (packetMaxSize * k : Nat) (packetMaxSize * (k + 1) : Nat)
        ((encryptedFile.length : Int) - (packetMaxSize * k : Nat)) =
      .send (packetRequest client encryptedFile originalFile totalPackets (k + 1 : Nat)
          (slice encryptedFile k) r).massage
        (sendPackets client encryptedFile originalFile totalPackets turns
          (packetRequest client encryptedFile originalFile totalPackets (k + 1 : Nat)
            (slice encryptedFile k) r).clearPayload (k + 1 + 1 : Nat)
          (packetMaxSize * (k + 1) : Nat) (packetMaxSize * (k + 1 + 1) : Nat)
          ((encryptedFile.length : Int) - (packetMaxSize * (k + 1) : Nat))) := by
  have hleft := lt_packetCount_iff.mp hk
  have hcount := packetCount_le hsize
  have hslice := length_slice encryptedFile k
  simp only [maxCiphertext, packetMaxSize] at hsize hleft hslice ⊢
  have hpos : (encryptedFile.length : Int) - (4096 * k : Nat) > 0 := by omega
  have hnumber : int32 ((k + 1 : Nat) + 1) = (k + 1 + 1 : Nat) := by
    rw [int32_of_lt] <;> omega
  have hstart : int32 ((4096 * k : Nat) + (4096 : Nat)) = (4096 * (k + 1) : Nat) := by
    rw [int32_of_lt] <;> omega
  have hstop : int32 ((4096 * (k + 1) : Nat) + (4096 : Nat)) = (4096 * (k + 1 + 1) : Nat) := by
    rw [int32_of_lt] <;> omega
  have hcounter : int32 ((encryptedFile.length : Int) - (4096 * k : Nat) - (4096 : Nat)) =
      (encryptedFile.length : Int) - (4096 * (k + 1) : Nat) := by
    rw [int32_of_lt] <;> omega
  rw [sendPackets, if_pos hpos]
  simp only [packetMaxSize, hnumber, hstart, hstop, hcounter, Request.sendToServer, bind,
    Prog.bind]
  by_cases hlast : (encryptedFile.length : Int) - (4096 * k : Nat) > (4096 : Nat)
  · have hpayloadSize : (payloadSizeWithoutMassage : Int) + (4096 : Nat) =
        (payloadSizeWithoutMassage + (slice encryptedFile k).length : Nat) := by omega
    have hcontent : (encryptedFile.drop ((4096 * k : Nat) : Int).toNat).take
        (((4096 * (k + 1) : Nat) : Int) - (4096 * k : Nat)).toNat = slice encryptedFile k := by
      have hturn : (((4096 * (k + 1) : Nat) : Int) - (4096 * k : Nat)).toNat = packetMaxSize := by
        simp only [packetMaxSize]
        omega
      exact take_drop_eq_slice (Int.toNat_natCast _) (by rw [hturn])
    simp only [hlast, if_true, Request.appendFileSlice, hcontent, Request.setPayloadSize,
      hpayloadSize, Request.appendNumberPayload, Request.appendStringPayload]
    rfl
  · have hpayloadSize : (payloadSizeWithoutMassage : Int) +
        ((encryptedFile.length : Int) - (4096 * k : Nat)) =
        (payloadSizeWithoutMassage + (slice encryptedFile k).length : Nat) := by omega
    have hcontent : (encryptedFile.drop ((4096 * k : Nat) : Int).toNat).take
        (((4096 * k : Nat) : Int) + ((encryptedFile.length : Int) - (4096 * k : Nat)) -
          (4096 * k : Nat)).toNat = slice encryptedFile k := by
      apply take_drop_eq_slice (Int.toNat_natCast _)
      simp only [packetMaxSize]
      omega
    simp only [hlast, if_false, Request.appendFileSlice, hcontent, Request.setPayloadSize,
      hpayloadSize, Request.appendNumberPayload, Request.appendStringPayload]
    rfl

/-- The loop sends the packets from number `k + 1` on. -/
theorem sendPackets_eq (hsize : encryptedFile.length ≤ maxCiphertext) {clientId : Bytes}
    (left : Nat) {k : Nat} (hk : k + left = packetCount encryptedFile.length) {turns : Nat}
    (hturns : left ≤ turns) {r : Request} (hr : ReadyToSend clientId r) :
    ∃ r', ReadyToSend clientId r' ∧ r'.numOfFailures = r.numOfFailures ∧
      sendPackets client encryptedFile originalFile (packetCount encryptedFile.length) turns r
          (k + 1 : Nat) (packetMaxSize * k : Nat) (packetMaxSize * (k + 1) : Nat)
          ((encryptedFile.length : Int) - (packetMaxSize * k : Nat)) =
        Prog.sendAll ((List.range' k left).map fun i =>
          packetBytes clientId client.fileName encryptedFile.length (originalFile.length % 2 ^ 32)
            (i + 1) (packetCount encryptedFile.length) (slice encryptedFile i)) (.ret r') := by
  induction left generalizing k turns r with
  | zero =>
      have hdone : ¬ ((encryptedFile.length : Int) - (packetMaxSize * k : Nat) > 0) := by
        have := mt lt_packetCount_iff.mpr (Nat.not_lt.mpr (Nat.le_of_eq hk.symm))
        rw [Nat.add_zero] at this
        omega
      refine ⟨r, hr, rfl, ?_⟩
      cases turns with
      | zero => rw [sendPackets, if_neg hdone]; rfl
      | succ turns => rw [sendPackets, if_neg hdone]; rfl
  | succ left ih =>
      obtain ⟨turns, rfl⟩ : ∃ n, turns = n + 1 := ⟨turns - 1, by omega⟩
      have hlt : k < packetCount encryptedFile.length := by omega
      have hclear : ReadyToSend clientId (packetRequest client encryptedFile originalFile
          (packetCount encryptedFile.length) (k + 1 : Nat) (slice encryptedFile k)
            r).clearPayload := hr.clear originalFile _ _ _
      obtain ⟨r', hr', hfailures, heq⟩ := ih (k := k + 1) (by omega)
        (Nat.le_of_succ_le_succ hturns) hclear
      refine ⟨r', hr', hfailures, ?_⟩
      rw [sendPackets_succ originalFile hsize _ _ _ hlt, heq,
        massage_packet originalFile hsize hr hlt, List.range'_succ]
      rfl

/-- The whole loop sends the packets in order. -/
theorem sendAllPackets_bytes (client : Client) (hsize : encryptedFile.length ≤ maxCiphertext)
    {clientId : Bytes} {r : Request} (hr : ReadyToSend clientId r) :
    ∃ r', ReadyToSend clientId r' ∧ r'.numOfFailures = r.numOfFailures ∧
      sendAllPackets client encryptedFile originalFile (packetCount encryptedFile.length) r =
        Prog.sendAll ((List.range (packetCount encryptedFile.length)).map fun i =>
          packetBytes clientId client.fileName encryptedFile.length (originalFile.length % 2 ^ 32)
            (i + 1) (packetCount encryptedFile.length) (slice encryptedFile i)) (.ret r') := by
  have hint : int32 encryptedFile.length = encryptedFile.length := by
    simp only [maxCiphertext, packetMaxSize] at hsize
    exact int32_of_lt (by omega) (by omega)
  have hturns : packetCount encryptedFile.length ≤ encryptedFile.length := by
    simp only [packetCount, packetMaxSize]
    omega
  obtain ⟨r', hr', hfailures, heq⟩ := @sendPackets_eq client encryptedFile originalFile hsize
    clientId (packetCount encryptedFile.length) 0 (Nat.zero_add _) _ hturns r hr
  refine ⟨r', hr', hfailures, ?_⟩
  have hfirst : (encryptedFile.length : Int) - (packetMaxSize * 0 : Nat) = encryptedFile.length :=
    Int.sub_zero _
  rw [hfirst] at heq
  rw [List.range_eq_range', sendAllPackets, hint, Int.toNat_natCast]
  exact heq

theorem sendAllPackets_eq (hname : client.fileName = encodeUtf8 fileName)
    (hfits : NameFits General.fileNameSize fileName)
    (hsize : encryptedFile.length ≤ maxCiphertext) {clientId : Bytes} {r : Request}
    (hr : ReadyToSend clientId r) :
    ∃ r', ReadyToSend clientId r' ∧ r'.numOfFailures = r.numOfFailures ∧
      sendAllPackets client encryptedFile originalFile (packetCount encryptedFile.length) r =
        Prog.sendAll ((packetsOf encryptedFile originalFile fileName).map fun p =>
          requestBytes clientId (.packet p)) (.ret r') := by
  obtain ⟨r', hr', hfailures, heq⟩ := sendAllPackets_bytes originalFile client hsize hr
  refine ⟨r', hr', hfailures, ?_⟩
  have hbytes : (List.range (packetCount encryptedFile.length)).map (fun i =>
        packetBytes clientId client.fileName encryptedFile.length (originalFile.length % 2 ^ 32)
          (i + 1) (packetCount encryptedFile.length) (slice encryptedFile i)) =
      (packetsOf encryptedFile originalFile fileName).map fun p =>
        requestBytes clientId (.packet p) := by
    rw [packetsOf, List.map_map]
    apply List.map_congr_left
    intro k _
    rw [hname]
    exact packetBytes_eq originalFile hfits k
  rw [heq, hbytes]

end
end ClientSide
end SecureTransfer
