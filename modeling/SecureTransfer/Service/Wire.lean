import SecureTransfer.Service.Replies

/-!
Requests on the wire. A request whose bytes have all arrived is received as it was
meant, and the connection is left at the byte after it.
-/

open Octets (Text encodeUtf8 decodeUtf8 padTo toLittle ofLittle)
open Effects Act

namespace SecureTransfer

def Body.code : Body → Nat
  | .registration _ => General.registrationRequest825
  | .reconnection _ => General.reconnectionRequest827
  | .publicKey _ _ => General.sendPublicKeyRequest826
  | .packet _ => General.sendFileRequest828
  | .verdict code _ => code

/-- A name in its field. -/
def nameField (size : Nat) (name : Text) : Bytes := padTo size (encodeUtf8 name)

def Packet.fields (p : Packet) : Bytes :=
  toLittle General.contentSizeSize p.contentSize ++
    (toLittle General.origFileSizeSize p.origFileSize ++
      (toLittle General.pucketNumberSize p.packetNumber ++
        (toLittle General.totalPucketsSize p.totalPackets ++
          nameField General.fileNameSize p.fileName)))

def Body.payload : Body → Bytes
  | .registration name | .reconnection name => nameField General.clientNameSize name
  | .publicKey name key =>
      nameField General.clientNameSize name ++ (match key with | .done key => key | _ => [])
  | .packet p => p.fields ++ p.content
  | .verdict _ fileName => nameField General.fileNameSize fileName

def frame (clientId : Bytes) (code payloadSize : Nat) : Bytes :=
  clientId ++ (toLittle General.versionSize General.version ++
    (toLittle General.codeSize code ++ toLittle General.payloadSizeSize payloadSize))

def requestBytes (clientId : Bytes) (body : Body) : Bytes :=
  frame clientId body.code body.payload.length ++ body.payload

/-- The name fits its field and has no NUL. -/
def NameFits (size : Nat) (name : Text) : Prop :=
  (encodeUtf8 name).length ≤ size ∧ '\x00' ∉ name

structure Packet.Fits (p : Packet) : Prop where
  contentSize : p.contentSize < 256 ^ General.contentSizeSize
  origFileSize : p.origFileSize < 256 ^ General.origFileSizeSize
  packetNumber : p.packetNumber < 256 ^ General.pucketNumberSize
  totalPackets : p.totalPackets < 256 ^ General.totalPucketsSize
  fileName : NameFits General.fileNameSize p.fileName
  content : (p.fields ++ p.content).length < 256 ^ General.payloadSizeSize

/-- A request that a header and its fields can carry. -/
def Body.Fits : Body → Prop
  | .registration name | .reconnection name => NameFits General.clientNameSize name
  | .publicKey name key => NameFits General.clientNameSize name ∧
      ∃ k, key = .done k ∧ k.length = General.publicKeySize
  | .packet p => p.Fits
  | .verdict code fileName => NameFits General.fileNameSize fileName ∧
      (code = General.validCrcRequest900 ∨ code = General.invalidCrcRequest901 ∨
        code = General.invalidCrc4thRequest902)

namespace Conn

/-- The connection with these bytes arrived and unread. -/
def withAvail (avail : Bytes) (c : Conn) : Conn := { c with avail := avail }

theorem recv_field {field : Bytes} (rest : Bytes) (c : Conn) :
    (recv field.length).run (c.withAvail (field ++ rest)) = (.done field, c.withAvail rest) := by
  by_cases hf : field = []
  · simp [recv, hf, withAvail]
  · have hpos := List.length_pos_iff.mpr hf
    have hz : ¬ ((field.length : Int) = 0) := by omega
    simp [recv, withAvail, take, hf]

end Conn

/-- One recv after another, each of which returns the whole of its field. -/
inductive Conn.Reads : Conn → List Bytes → Conn → Prop where
  | nil (c : Conn) : Reads c [] c
  | cons {c c₁ c₂ : Conn} {field : Bytes} {fields : List Bytes}
      (head : (recv field.length).run c = (.done field, c₁)) (tail : Reads c₁ fields c₂) :
      Reads c (field :: fields) c₂

namespace Conn.Reads

variable {c c' : Conn} {field : Bytes} {fields : List Bytes}

theorem uncons (h : c.Reads (field :: fields) c') {n : Nat} (hlength : field.length = n) :
    ∃ c₁, (recv n).run c = (.done field, c₁) ∧ c₁.Reads fields c' := by
  cases h with
  | cons head tail => exact ⟨_, hlength ▸ head, tail⟩

/-- Fields that have arrived are read whole. -/
theorem of_avail (fields : List Bytes) (rest : Bytes) (c : Conn) :
    (c.withAvail (fields.flatten ++ rest)).Reads fields (c.withAvail rest) := by
  induction fields with
  | nil => exact .nil _
  | cons field fields ih =>
      rw [List.flatten_cons, List.append_assoc]
      exact .cons (recv_field _ c) ih

end Conn.Reads

theorem length_nameField {size : Nat} {name : Text} (h : NameFits size name) :
    (nameField size name).length = size := Octets.length_padTo h.1

theorem recv_of_length {n : Nat} {field : Bytes} (h : field.length = n) (rest : Bytes)
    (c : Conn) : (Conn.recv n).run (c.withAvail (field ++ rest)) =
      (.done field, c.withAvail rest) := h ▸ Conn.recv_field rest c

theorem recvNumber_done {size n : Nat} (h : n < 256 ^ size) {c c' : Conn}
    (hrecv : (Conn.recv size).run c = (.done (toLittle size n), c')) :
    (recvNumber size).run c = (.done n, c') := by
  rw [recvNumber, bind_done hrecv, run_pure, convertByteToInt, Octets.ofLittle_toLittle_of_lt h]

theorem recvText_done {size : Nat} {name : Text} (h : NameFits size name) {c c' : Conn}
    (hrecv : (Conn.recv size).run c = (.done (nameField size name), c')) :
    (recvText size).run c = (.done name, c') := by
  have hdecode : decodeUtf8 (nameField size name) =
      some (name ++ List.replicate (size - (encodeUtf8 name).length) '\x00') :=
    Octets.decodeUtf8_padTo size name
  rw [recvText, bind_done hrecv, hdecode, ofOption_some, pure_bind, run_pure,
    Octets.filter_nul_padded h.2]

theorem recvNumber_field {size n : Nat} (h : n < 256 ^ size) (rest : Bytes) (c : Conn) :
    (recvNumber size).run (c.withAvail (toLittle size n ++ rest)) = (.done n, c.withAvail rest) :=
  recvNumber_done h (recv_of_length (Octets.length_toLittle size n) rest c)

/-- The fields of a header. -/
def headerFields (clientId : Bytes) (code payloadSize : Nat) : List Bytes :=
  [clientId, toLittle General.versionSize General.version, toLittle General.codeSize code,
    toLittle General.payloadSizeSize payloadSize]

theorem flatten_headerFields (clientId : Bytes) (code payloadSize : Nat) :
    (headerFields clientId code payloadSize).flatten = frame clientId code payloadSize := by
  simp [headerFields, frame]

theorem getHeader_reads {clientId : Bytes} {code payloadSize : Nat}
    (hid : clientId.length = General.clientIdSize) (hcode : code < 256 ^ General.codeSize)
    (hsize : payloadSize < 256 ^ General.payloadSizeSize) {fields : List Bytes} {c c' : Conn}
    (h : c.Reads (headerFields clientId code payloadSize ++ fields) c') :
    ∃ c₁, Request.getHeader.run c =
        (.done (some ⟨clientId, General.version, code, payloadSize⟩), c₁) ∧
      c₁.Reads fields c' := by
  have hne : clientId ≠ [] := by
    intro h
    rw [h] at hid
    cases hid
  have hversion : General.version < 256 ^ General.versionSize := by decide
  obtain ⟨c₁, h₁, h⟩ := h.uncons hid
  obtain ⟨c₂, h₂, h⟩ := h.uncons (Octets.length_toLittle _ _)
  obtain ⟨c₃, h₃, h⟩ := h.uncons (Octets.length_toLittle _ _)
  obtain ⟨c₄, h₄, h⟩ := h.uncons (Octets.length_toLittle _ _)
  refine ⟨c₄, ?_, h⟩
  rw [Request.getHeader, bind_done h₁, if_neg hne, bind_done (recvNumber_done hversion h₂),
    bind_done (recvNumber_done hcode h₃), bind_done (recvNumber_done hsize h₄), run_pure]

theorem getHeader_frame {clientId : Bytes} {code payloadSize : Nat}
    (hid : clientId.length = General.clientIdSize) (hcode : code < 256 ^ General.codeSize)
    (hsize : payloadSize < 256 ^ General.payloadSizeSize) (rest : Bytes) (c : Conn) :
    Request.getHeader.run (c.withAvail (frame clientId code payloadSize ++ rest)) =
      (.done (some ⟨clientId, General.version, code, payloadSize⟩), c.withAvail rest) := by
  have hreads := Conn.Reads.of_avail (headerFields clientId code payloadSize ++ []) rest c
  obtain ⟨c₁, hrun, hnil⟩ := getHeader_reads hid hcode hsize hreads
  rw [List.append_nil, flatten_headerFields] at hrun
  cases hnil with
  | nil => exact hrun

theorem receive_of_header {c c' : Conn} {r : Request}
    (h : Request.getHeader.run c = (.done (some r), c')) : receive c = .ofHeader r c' := by
  rw [receive, h]

theorem length_fields {p : Packet} (h : NameFits General.fileNameSize p.fileName) :
    p.fields.length = Request.packetFieldsSize := by
  simp only [Packet.fields, List.length_append, Octets.length_toLittle, length_nameField h]
  rfl

/-- A slice that is not huge fits its header with the fields. -/
theorem Packet.fits_of_lt {p : Packet} (hsize : p.contentSize < 256 ^ General.contentSizeSize)
    (horig : p.origFileSize < 256 ^ General.origFileSizeSize)
    (hnumber : p.packetNumber < 256 ^ General.pucketNumberSize)
    (htotal : p.totalPackets < 256 ^ General.totalPucketsSize)
    (hname : NameFits General.fileNameSize p.fileName) (hcontent : p.content.length < 2 ^ 31) :
    p.Fits where
  contentSize := hsize
  origFileSize := horig
  packetNumber := hnumber
  totalPackets := htotal
  fileName := hname
  content := by
    rw [List.length_append, length_fields hname]
    simp only [Request.packetFieldsSize, General.contentSizeSize, General.origFileSizeSize,
      General.pucketNumberSize, General.totalPucketsSize, General.fileNameSize,
      General.payloadSizeSize]
    omega

/-- The fields of a packet, as they are read. -/
def Packet.parts (p : Packet) : List Bytes :=
  [toLittle General.contentSizeSize p.contentSize,
    toLittle General.origFileSizeSize p.origFileSize,
    toLittle General.pucketNumberSize p.packetNumber,
    toLittle General.totalPucketsSize p.totalPackets,
    nameField General.fileNameSize p.fileName, p.content]

theorem recvPacket_reads {p : Packet} (h : p.Fits) {c c' : Conn} (hreads : c.Reads p.parts c') :
    (Request.recvPacket (p.fields ++ p.content).length).run c = (.done p, c') := by
  have hlen : (((p.fields ++ p.content).length : Nat) : Int) - Request.packetFieldsSize =
      (p.content.length : Nat) := by
    rw [List.length_append, length_fields h.fileName]
    omega
  obtain ⟨c₁, h₁, hreads⟩ := hreads.uncons (Octets.length_toLittle _ _)
  obtain ⟨c₂, h₂, hreads⟩ := hreads.uncons (Octets.length_toLittle _ _)
  obtain ⟨c₃, h₃, hreads⟩ := hreads.uncons (Octets.length_toLittle _ _)
  obtain ⟨c₄, h₄, hreads⟩ := hreads.uncons (Octets.length_toLittle _ _)
  obtain ⟨c₅, h₅, hreads⟩ := hreads.uncons (length_nameField h.fileName)
  obtain ⟨c₆, h₆, hnil⟩ := hreads.uncons rfl
  cases hnil
  rw [Request.recvPacket]
  simp only [hlen]
  rw [bind_done (recvNumber_done h.contentSize h₁), bind_done (recvNumber_done h.origFileSize h₂),
    bind_done (recvNumber_done h.packetNumber h₃), bind_done (recvNumber_done h.totalPackets h₄),
    bind_done (recvText_done h.fileName h₅), bind_done h₆, run_pure]

theorem Body.code_lt {body : Body} (h : body.Fits) : body.code < 256 ^ General.codeSize := by
  cases body with
  | registration _ | reconnection _ | publicKey _ _ | packet _ => simp only [Body.code]; decide
  | verdict code fileName =>
      obtain rfl | rfl | rfl := h.2 <;> simp only [Body.code] <;> decide

theorem Body.payload_lt {body : Body} (h : body.Fits) :
    body.payload.length < 256 ^ General.payloadSizeSize := by
  cases body with
  | registration name | reconnection name =>
      simp only [Body.payload, length_nameField h]
      decide
  | publicKey name key =>
      obtain ⟨hname, k, rfl, hk⟩ := h
      simp only [Body.payload, List.length_append, length_nameField hname, hk]
      decide
  | packet p => exact h.content
  | verdict code fileName =>
      simp only [Body.payload, length_nameField h.1]
      decide

/-- What is still unread when a request is checked: the key of an 826. -/
def Body.unread : Body → Bytes
  | .publicKey _ (.done key) => key
  | _ => []

/-- The fields that are read before a request is checked. -/
def Body.checked : Body → List Bytes
  | .registration name | .reconnection name | .publicKey name _ =>
      [nameField General.clientNameSize name]
  | .packet p => p.parts
  | .verdict _ fileName => [nameField General.fileNameSize fileName]

/-- The field that is read afterwards: the key of an 826. -/
def Body.unchecked : Body → List Bytes
  | .publicKey _ (.done key) => [key]
  | _ => []

theorem Body.flatten_unchecked (body : Body) : body.unchecked.flatten = body.unread := by
  cases body with
  | registration _ | reconnection _ | packet _ | verdict _ _ => rfl
  | publicKey name key =>
      cases key with
      | done key => exact List.flatten_singleton
      | raised _ | blocked => rfl

theorem Body.flatten_checked (body : Body) :
    body.checked.flatten ++ body.unread = body.payload := by
  cases body with
  | registration _ | reconnection _ | packet _ | verdict _ _ =>
      simp [Body.checked, Body.unread, Body.payload, Packet.parts, Packet.fields]
  | publicKey name key =>
      cases key <;> simp [Body.checked, Body.unread, Body.payload]

/-- The fields of a request up to the check. -/
def checkedFields (clientId : Bytes) (body : Body) : List Bytes :=
  headerFields clientId body.code body.payload.length ++ body.checked

theorem flatten_checkedFields (clientId : Bytes) (body : Body) :
    (checkedFields clientId body).flatten ++ body.unread = requestBytes clientId body := by
  rw [checkedFields, List.flatten_append, flatten_headerFields, List.append_assoc,
    Body.flatten_checked, requestBytes]

/-- The codes of a verdict are those of no other request. -/
theorem verdictCode_others {code : Nat}
    (h : code = General.validCrcRequest900 ∨ code = General.invalidCrcRequest901 ∨
      code = General.invalidCrc4thRequest902) :
    code ≠ General.registrationRequest825 ∧ code ≠ General.reconnectionRequest827 ∧
      code ≠ General.sendPublicKeyRequest826 ∧ code ≠ General.sendFileRequest828 := by
  obtain rfl | rfl | rfl := h <;> decide

/-- A request whose fields are read whole is received as it was meant. -/
theorem receive_reads {clientId : Bytes} {body : Body}
    (hid : clientId.length = General.clientIdSize) (h : body.Fits) {c c₁ c₂ : Conn}
    (hchecked : c.Reads (checkedFields clientId body) c₁) (hkey : c₁.Reads body.unchecked c₂) :
    receive c = ⟨.request clientId body, c₁, c₂⟩ := by
  obtain ⟨c₀, hheader, hbody⟩ :=
    getHeader_reads hid (Body.code_lt h) (Body.payload_lt h) hchecked
  rw [receive_of_header hheader, Reception.ofHeader, if_neg (not_not_intro rfl)]
  cases body with
  | registration name =>
      obtain ⟨c₁, hname, hnil⟩ := hbody.uncons (length_nameField h)
      cases hnil
      cases hkey
      simp only [Body.code, if_true, recvText_done h hname, Reception.ofRead]
  | reconnection name =>
      have h825 : ¬ General.reconnectionRequest827 = General.registrationRequest825 := by decide
      obtain ⟨c₁, hname, hnil⟩ := hbody.uncons (length_nameField h)
      cases hnil
      cases hkey
      simp only [Body.code, h825, if_false, if_true, recvText_done h hname, Reception.ofRead]
  | publicKey name key =>
      obtain ⟨hfits, k, rfl, hk⟩ := h
      have h825 : ¬ General.sendPublicKeyRequest826 = General.registrationRequest825 := by decide
      have h827 : ¬ General.sendPublicKeyRequest826 = General.reconnectionRequest827 := by decide
      obtain ⟨c₁, hname, hnil⟩ := hbody.uncons (length_nameField hfits)
      cases hnil
      obtain ⟨c₂, hrecv, hnil⟩ := hkey.uncons hk
      cases hnil
      simp only [Body.code, h825, h827, if_false, if_true, recvText_done hfits hname,
        Reception.withKey, hrecv]
  | packet p =>
      have h825 : ¬ General.sendFileRequest828 = General.registrationRequest825 := by decide
      have h827 : ¬ General.sendFileRequest828 = General.reconnectionRequest827 := by decide
      have h826 : ¬ General.sendFileRequest828 = General.sendPublicKeyRequest826 := by decide
      cases hkey
      simp only [Body.code, Body.payload, h825, h827, h826, if_false, if_true,
        recvPacket_reads h hbody, Reception.ofRead]
  | verdict code fileName =>
      obtain ⟨hfits, hcode⟩ := h
      obtain ⟨h825, h827, h826, h828⟩ := verdictCode_others hcode
      obtain ⟨c₁, hname, hnil⟩ := hbody.uncons (length_nameField hfits)
      cases hnil
      cases hkey
      simp only [Body.code, if_neg h825, if_neg h827, if_neg h826, if_neg h828, if_pos hcode,
        recvText_done hfits hname, Reception.ofRead]

/-- A request that has arrived is received as it was meant. -/
theorem receive_request {clientId : Bytes} {body : Body}
    (hid : clientId.length = General.clientIdSize) (h : body.Fits) (rest : Bytes) (c : Conn) :
    receive (c.withAvail (requestBytes clientId body ++ rest)) =
      ⟨.request clientId body, c.withAvail (body.unread ++ rest), c.withAvail rest⟩ := by
  have hchecked := Conn.Reads.of_avail (checkedFields clientId body) (body.unread ++ rest) c
  have hkey := Conn.Reads.of_avail body.unchecked rest c
  rw [← List.append_assoc, flatten_checkedFields] at hchecked
  rw [Body.flatten_unchecked] at hkey
  exact receive_reads hid h hchecked hkey

end SecureTransfer
