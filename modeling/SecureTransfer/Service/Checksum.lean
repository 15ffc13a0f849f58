import Mathlib.Data.Nat.Digits.Defs
import SecureTransfer.Library.Crc
import SecureTransfer.Client.Echo
import SecureTransfer.Client.Retries

/-!
What the checksums of both programs are: the cyclic redundancy check of POSIX cksum,
over the bytes of a file and then those of its length. It tells apart files that differ
in four bytes next to each other.
-/

open Octets (Text encodeUtf8 toLittle)
open Effects Act

namespace SecureTransfer

def cksumPoly : BitVec 32 := 0x04C11DB7

/-- The bytes of a number, the lowest first and no zeros at the end. -/
def lengthBytes (n : Nat) : Bytes := (Nat.digits 256 n).map UInt8.ofNat

/-- What POSIX cksum feeds to its register. -/
def cksumMessage (b : Bytes) : Bytes := b ++ lengthBytes b.length

def posixCksum (b : Bytes) : BitVec 32 := ~~~ Crc.register cksumPoly (cksumMessage b)

example : posixCksum [49, 50, 51, 52, 53, 54, 55, 56, 57] = 930766865 := by
  decide +kernel

theorem lengthBytes_of_pos {n : Nat} (hn : 0 < n) :
    lengthBytes n = UInt8.ofNat (n % 256) :: lengthBytes (n / 256) := by
  rw [lengthBytes, Nat.digits_def' (by decide) hn, List.map_cons, lengthBytes]

namespace Cksum

/-- The table holds what each byte does to an empty register. -/
theorem crctab_eq : ∀ i < 256,
    crctab.getD i 0 = (Crc.feedByte cksumPoly 0 (UInt8.ofNat i)).toNat := by
  decide +kernel

/-- The index of the lookup. -/
theorem tabidx_eq (r : BitVec 32) (c : UInt8) :
    (r.toNat >>> 24) ^^^ c.toNat = (Crc.top r ^^^ c).toNat := by
  have hlt : r.toNat >>> 24 < 256 := by
    rw [Nat.shiftRight_eq_div_pow]
    exact Nat.div_lt_of_lt_mul r.isLt
  rw [UInt8.toNat_xor, Crc.top, UInt8.toNat_ofNat', Nat.mod_eq_of_lt hlt]

theorem crcStep_toNat (r : BitVec 32) (c : UInt8) :
    crcStep r.toNat c.toNat = (Crc.feedByte cksumPoly r c).toNat := by
  rw [Crc.feedByte_table cksumPoly (by decide), BitVec.toNat_xor, BitVec.toNat_shiftLeft, crcStep,
    unsigned_eq_mod, tabidx_eq, crctab_eq _ (UInt8.toNat_lt _), UInt8.ofNat_toNat]

theorem foldl_crcStep (r : BitVec 32) (message : Bytes) :
    message.foldl (fun s ch => crcStep s ch.toNat) r.toNat =
      (message.foldl (Crc.feedByte cksumPoly) r).toNat := by
  induction message generalizing r with
  | nil => rfl
  | cons c message ih => rw [List.foldl_cons, List.foldl_cons, crcStep_toNat, ih]

/-- The second loop goes over the bytes of the length. -/
theorem lengthLoop_eq (turns n s : Nat) (h : n ≤ turns) :
    lengthLoop turns n s = (lengthBytes n).foldl (fun s ch => crcStep s ch.toNat) s := by
  induction turns generalizing n s with
  | zero =>
      obtain rfl := Nat.le_zero.mp h
      simp [lengthLoop, lengthBytes]
  | succ turns ih =>
      by_cases hn : n = 0
      · subst hn
        simp [lengthLoop, lengthBytes]
      · have hbyte : n &&& 0xff = n % 256 := Nat.and_two_pow_sub_one_eq_mod n 8
        have hrest : n >>> 8 = n / 256 := Nat.shiftRight_eq_div_pow n 8
        have hlt : n % 256 < 256 := Nat.mod_lt _ (by decide)
        rw [lengthLoop, if_neg hn, hbyte, hrest, ih _ _ (by omega),
          lengthBytes_of_pos (Nat.pos_of_ne_zero hn), List.foldl_cons, UInt8.toNat_ofNat',
          Nat.mod_eq_of_lt hlt]

theorem memcrc_eq_foldl (b : Bytes) : memcrc b =
    0xffffffff ^^^ unsigned ((cksumMessage b).foldl (fun s ch => crcStep s ch.toNat) 0) := by
  rw [memcrc, lengthLoop_eq _ _ _ le_rfl, ← List.foldl_append]
  rfl

theorem register_toNat (message : Bytes) :
    message.foldl (fun s ch => crcStep s ch.toNat) 0 =
      (Crc.register cksumPoly message).toNat := foldl_crcStep 0 message

theorem memcrc_posix (b : Bytes) : memcrc b = (posixCksum b).toNat := by
  rw [memcrc_eq_foldl, register_toNat, unsigned_eq_mod, Nat.mod_eq_of_lt (BitVec.isLt _),
    posixCksum, ← BitVec.allOnes_xor, BitVec.toNat_xor]
  rfl

/-- No lookup goes past the table. -/
theorem tabidx_lt (message : Bytes) (c : UInt8) :
    (message.foldl (fun s ch => crcStep s ch.toNat) 0 >>> 24) ^^^ c.toNat < 256 := by
  rw [register_toNat, tabidx_eq]
  exact UInt8.toNat_lt _

end Cksum

namespace ClientCksum

/-- The client goes through the same registers. -/
theorem foldl_crcStep {width : Nat} (hw : 32 ≤ width) (message : Bytes) :
    message.foldl (fun s ch => crcStep width s ch.toNat) 0 =
      message.foldl (fun s ch => Cksum.crcStep s ch.toNat) 0 :=
  (foldl_eq hw message 0 (by decide)).1

theorem memcrc_posix {width : Nat} (hw : 32 ≤ width) (b : Bytes) :
    memcrc width b = (posixCksum b).toNat := by rw [memcrc_eq hw, Cksum.memcrc_posix]

end ClientCksum

/-- Both programs compute POSIX cksum, no lookup in a table goes past its end, and the
result fits the four bytes it is sent in. -/
theorem memcrc_is_posixCksum (b : Bytes) :
    Cksum.memcrc b = (posixCksum b).toNat ∧
    (b.length < 2 ^ 31 → ∀ width, width = 32 ∨ width = 64 →
      ClientCksum.memcrc width b = (posixCksum b).toNat) ∧
    (∀ before c after, cksumMessage b = before ++ c :: after →
      (before.foldl (fun s ch => Cksum.crcStep s ch.toNat) 0 >>> 24) ^^^ c.toNat <
          Cksum.crctab.length ∧
        ∀ width, width = 32 ∨ width = 64 →
          (before.foldl (fun s ch => ClientCksum.crcStep width s ch.toNat) 0 >>> 24) ^^^ c.toNat <
            ClientCksum.crctab0.length) ∧
    Cksum.memcrc b < 2 ^ 32 ∧
    (∀ width, width = 32 ∨ width = 64 → ClientCksum.memcrc width b < 2 ^ 32) ∧
    ∀ conn, (convertIntToByte (Cksum.memcrc b) General.crcSize).run conn =
      (.done (toLittle General.crcSize (Cksum.memcrc b)), conn) := by
  have hwide : ∀ width, width = 32 ∨ width = 64 → 32 ≤ width := by omega
  have htable : Cksum.crctab.length = 256 := by decide +kernel
  have hclient : ClientCksum.crctab0.length = 256 := by decide +kernel
  refine ⟨Cksum.memcrc_posix b, ?_, ?_, Cksum.memcrc_lt b, ?_, ?_⟩
  · intro _ width hw
    exact ClientCksum.memcrc_posix (hwide width hw) b
  · intro before c after _
    refine ⟨htable ▸ Cksum.tabidx_lt before c, ?_⟩
    intro width hw
    rw [hclient, ClientCksum.foldl_crcStep (hwide width hw)]
    exact Cksum.tabidx_lt before c
  · intro width hw
    rw [ClientCksum.memcrc_eq (hwide width hw)]
    exact Cksum.memcrc_lt b
  · intro conn
    have hlt : Cksum.memcrc b < 256 ^ General.crcSize := Cksum.memcrc_lt b
    rw [convertIntToByte, if_pos hlt]
    rfl

/-! A file altered in a few bytes. -/

/-- Files of one length that differ in a window of at most four bytes. -/
theorem memcrc_window {before xs ys after : Bytes} (hlen : xs.length = ys.length)
    (hwindow : xs.length ≤ 4) (hne : xs ≠ ys) :
    Cksum.memcrc (before ++ xs ++ after) ≠ Cksum.memcrc (before ++ ys ++ after) := by
  intro h
  rw [Cksum.memcrc_posix, Cksum.memcrc_posix, BitVec.toNat_inj, posixCksum, posixCksum,
    BitVec.not_inj, cksumMessage, cksumMessage] at h
  have hsame : (before ++ ys ++ after).length = (before ++ xs ++ after).length := by
    simp [hlen]
  rw [hsame, List.append_assoc, List.append_assoc (before ++ ys)] at h
  exact Crc.register_window cksumPoly (by decide) hlen (by omega) hne h

namespace ClientSide

/-- What the client sends when the checksum in a 1603 is not that of its file. -/
theorem crcChecking_wrong (kit : Toolkit) (client : Client) (request : Request) (size : Int)
    {clientId : Bytes} (hid : clientId.length = clientIdSize) (contentSize : Nat)
    {fileName : Text} (hname : (encodeUtf8 fileName).length ≤ fileNameSize) {crc : Nat}
    (hcrc : crc < 2 ^ 32) (hwrong : client.crcValue ≠ crc) :
    ∀ data ∈ ((crcChecking kit client request size Request.new).reading
        (Message.fileReceived clientId contentSize fileName crc).bytes).1.emitted,
      codeOf data = wrongCrcTryAgain901 ∨ codeOf data = wrongCrc4th902 := by
  have hm : (Message.fileReceived clientId contentSize fileName crc).Fits := by
    constructor <;> simp only [Message.fileReceived] <;> decide
  have hparts : (Message.fileReceived clientId contentSize fileName crc).parts.flatten =
      clientId ++ (toLittle 4 contentSize ++ (Octets.padTo 255 (encodeUtf8 fileName) ++
        (toLittle 4 crc ++ []))) := by
    simp [Message.fileReceived]
  have h1607 : ¬ (Message.fileReceived clientId contentSize fileName crc).header.code =
      generalError1607 := by simp only [Message.fileReceived]; decide
  have h1603 : (Message.fileReceived clientId contentSize fileName crc).header.code =
      validFileAndCrc1603 := rfl
  have hsize : (toLittle 4 contentSize).length = contentSizeSize := Octets.length_toLittle _ _
  have hfield : (Octets.padTo 255 (encodeUtf8 fileName)).length = fileNameSize :=
    Octets.length_padTo hname
  rw [crcChecking, reading_answer hm, hparts]
  simp only [h1607, if_false]
  rw [unlessExit_bind_pos h1603, readStringAndCheck_exits hid]
  split
  · simp only [Answer.getNumber, bind_assoc]
    rw [reading_recv_bind hsize, pure_bind]
    by_cases hok : size % 2 ^ kit.longWidth = Octets.ofLittle (toLittle 4 contentSize)
    · rw [unlessExit_bind_pos hok, readStringAndCheck_exits hfield]
      split
      · rw [reading_recv_bind (Octets.length_toLittle _ _), pure_bind,
          Octets.ofLittle_toLittle_of_lt hcrc]
        have hcode := Request.coded_finish client.clientId client.fileName
        simp only [if_pos hwrong]
        intro data hdata
        by_cases hlast : request.addFailure.numOfFailures = maxTries
        · simp only [if_pos hlast] at hdata
          obtain rfl := List.mem_singleton.mp hdata
          exact .inr ((hcode _).codeOf_massage (by decide))
        · simp only [if_neg hlast] at hdata
          obtain rfl := List.mem_singleton.mp hdata
          exact .inl ((hcode _).codeOf_massage (by decide))
      · intro data hdata
        cases hdata
    · rw [unlessExit_bind_neg hok]
      intro data hdata
      cases hdata
  · intro data hdata
    cases hdata

/-- A file altered in a window of at most four bytes has another checksum on the server, so
a client that is told it does not send the 900 for its own file. The client counts the
bytes of a file in an `int`, so its file has fewer than 2^31 of them. -/
theorem window_detected (before xs ys after : Bytes) (hlen : xs.length = ys.length)
    (hwindow : xs.length ≤ 4) (hne : xs ≠ ys) :
    Cksum.memcrc (before ++ xs ++ after) ≠ Cksum.memcrc (before ++ ys ++ after) ∧
    ∀ (kit : Toolkit) (client : Client), (before ++ xs ++ after).length < 2 ^ 31 →
      client.crcValue = ClientCksum.memcrc kit.longWidth (before ++ xs ++ after) →
      ∀ (request : Request) (size : Int) (clientId : Bytes) (contentSize : Nat) (fileName : Text),
        clientId.length = clientIdSize → (encodeUtf8 fileName).length ≤ fileNameSize →
        ∀ data ∈ ((crcChecking kit client request size Request.new).reading
            (Message.fileReceived clientId contentSize fileName
              (Cksum.memcrc (before ++ ys ++ after))).bytes).1.emitted,
          codeOf data ≠ validCrc900 := by
  have hcrc := @memcrc_window before xs ys after hlen hwindow hne
  refine ⟨hcrc, ?_⟩
  intro kit client _ hclient request size clientId contentSize fileName hid hname data hdata
  have hwrong : client.crcValue ≠ Cksum.memcrc (before ++ ys ++ after) := by
    rw [hclient, ClientCksum.memcrc_eq kit.longWidth_ge]
    exact hcrc
  obtain hcode | hcode := crcChecking_wrong kit client request size hid contentSize hname
    (Cksum.memcrc_lt _) hwrong data hdata
  · rw [hcode]
    decide
  · rw [hcode]
    decide

/-- A client with the file `abc`, told the checksum of another. -/
def checkingClient : Client :=
  { Client.new with
    clientId := List.replicate 16 1, fileName := [102],
    crcValue := ClientCksum.memcrc bareKit.longWidth [97, 98, 99] }

theorem window_detected_byte :
    Cksum.memcrc [97, 98, 99] ≠ Cksum.memcrc [97, 0, 99] ∧
    ∀ data ∈ ((crcChecking bareKit checkingClient Request.new 16 Request.new).reading
        (Message.fileReceived (List.replicate 16 1) 16 ['f']
          (Cksum.memcrc [97, 0, 99])).bytes).1.emitted,
      codeOf data ≠ validCrc900 := by
  have h := window_detected [97] [98] [0] [99] rfl (by decide) (by decide)
  exact ⟨h.1, h.2 bareKit checkingClient (by decide) rfl Request.new 16 (List.replicate 16 1) 16
    ['f'] rfl (by decide)⟩

end ClientSide

end SecureTransfer
