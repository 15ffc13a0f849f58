import SecureTransfer.Client.Codec
import SecureTransfer.Client.Echo

/-!
The files of the client. What `create_me_info` and `create_priv_key_file` write is what
`reconnection` reads back: the name, the id in hex, and the private key in base 64.
-/

open Octets (Text encodeUtf8)
open Dialogue

namespace SecureTransfer
namespace ClientSide

/-! Hex digits and lines. -/

theorem hexDigit_hexChar {n : Nat} (h : n < 16) : hexDigit? (hexChar n) = some n := by
  revert n
  decide

theorem hexByte_hexChar (b : UInt8) :
    hexByte [hexChar (b.toNat / 16), hexChar (b.toNat % 16)] = b := by
  have hb := b.toNat_lt
  have hhigh : b.toNat / 16 < 16 := by omega
  have hlow : b.toNat % 16 < 16 := Nat.mod_lt _ (by decide)
  simp only [hexByte, hexDigit_hexChar hhigh, hexDigit_hexChar hlow, Nat.div_add_mod]
  exact UInt8.ofNat_toNat

theorem convertHexToBytes_hex (s : Bytes) : convertHexToBytes (convertStringToHex s) = s := by
  induction s with
  | nil => rfl
  | cons b s ih =>
      have hcons : convertHexToBytes (convertStringToHex (b :: s)) =
          hexByte [hexChar (b.toNat / 16), hexChar (b.toNat % 16)] ::
            convertHexToBytes (convertStringToHex s) := rfl
      rw [hcons, hexByte_hexChar, ih]

/-- The digits of `std::hex`. -/
def LowerHex (d : UInt8) : Prop := 48 ≤ d ∧ d ≤ 57 ∨ 97 ≤ d ∧ d ≤ 102

instance (d : UInt8) : Decidable (LowerHex d) := inferInstanceAs (Decidable (_ ∨ _))

theorem lowerHex_hexChar {n : Nat} (h : n < 16) : LowerHex (hexChar n) := by
  revert n
  decide

theorem lowerHex_convertStringToHex (s : Bytes) : ∀ d ∈ convertStringToHex s, LowerHex d := by
  intro d hd
  obtain ⟨b, -, hb⟩ := List.mem_flatMap.mp hd
  have hlt := b.toNat_lt
  have hhigh : LowerHex (hexChar (b.toNat / 16)) := lowerHex_hexChar (by omega)
  have hlow : LowerHex (hexChar (b.toNat % 16)) := lowerHex_hexChar (Nat.mod_lt _ (by decide))
  obtain rfl | hb := List.mem_cons.mp hb
  · exact hhigh
  · exact List.mem_singleton.mp hb ▸ hlow

/-- Each byte has two digits of its own. -/
theorem convertStringToHex_digits (s : Bytes) {i : Nat} (h : i < s.length) :
    ((convertStringToHex s).drop (2 * i)).take 2 = convertStringToHex [s[i]] := by
  induction s generalizing i with
  | nil => exact absurd h (Nat.not_lt_zero i)
  | cons b s ih =>
      cases i with
      | zero => rfl
      | succ i => exact ih (Nat.lt_of_succ_lt_succ h)

theorem length_convertStringToHex (s : Bytes) :
    (convertStringToHex s).length = 2 * s.length := by
  induction s with
  | nil => rfl
  | cons b s ih =>
      have hcons : (convertStringToHex (b :: s)).length = (convertStringToHex s).length + 2 := rfl
      rw [hcons, ih, List.length_cons]
      omega

theorem newline_notMem_hex (s : Bytes) : (10 : UInt8) ∉ convertStringToHex s := fun h =>
  absurd (lowerHex_convertStringToHex s 10 h) (by decide)

theorem linesOf_cons {line : Bytes} (h : (10 : UInt8) ∉ line) (rest : Bytes) :
    linesOf (line ++ 10 :: rest) = line :: linesOf rest := by
  refine List.splitOnP_append_cons_of_forall_mem ?_ 10 rfl rest
  intro b hb
  exact beq_false_of_ne fun he => h (he ▸ hb)

/-- The lines hold everything but the line breaks. -/
theorem flatten_linesOf (content : Bytes) :
    (linesOf content).flatten = content.filter (· ≠ 10) := by
  induction content with
  | nil => rfl
  | cons b content ih =>
      rw [linesOf, List.splitOn_cons_eq_if_modifyHead]
      rw [linesOf] at ih
      by_cases hb : b = 10
      · rw [if_pos (beq_iff_eq.mpr hb), List.filter_cons_of_neg (by simpa using hb), ← ih]
        rfl
      · rw [if_neg (by simpa using hb), List.filter_cons_of_pos (by simpa using hb), ← ih]
        cases hlines : content.splitOn 10 with
        | nil => exact absurd hlines (List.splitOn_ne_nil _ _)
        | cons line lines => rfl

/-! Runs up to the first read from the socket, on the files of the client. -/

abbrev Files : Type := Bytes → Option Bytes

/-- The result of a query on these files, when these keys are generated. -/
def Query.perform (keys : KeyPair) (files : Files) : ∀ q : Query, q.Result × Files
  | .load path => (files path, files)
  | .save path content => ((), Function.update files path (some content))
  | .generateKeys => (keys, files)
  | .connect _ _ => ((), files)

structure Local (α : Type) where
  files : Files
  sent : List Bytes
  rest : Prog α

def untilRead {α : Type} (keys : KeyPair) : Prog α → Files → Local α
  | .query q next, files =>
      untilRead keys (next (q.perform keys files).1) (q.perform keys files).2
  | .send data next, files =>
      let later := untilRead keys next files
      { later with sent := data :: later.sent }
  | p, files => ⟨files, [], p⟩

/-- A first part that only asks the machine. -/
theorem untilRead_bind {α β : Type} {keys : KeyPair} {p : Prog α} {files files' : Files} {a : α}
    (h : untilRead keys p files = ⟨files', [], .ret a⟩) (f : α → Prog β) :
    untilRead keys (p >>= f) files = untilRead keys (f a) files' := by
  induction p generalizing files with
  | ret b =>
      cases h
      rfl
  | exit | stuck | recv _ _ => cases h
  | send data next _ => cases congrArg Local.sent h
  | query q next ih => exact ih _ h

section
variable {kit : Toolkit} {keys : KeyPair} {client : Client} {name : Text} {request : Request}
  {files : Files}

/-- What the two files hold after an exchange of keys. -/
structure Kept (kit : Toolkit) (privateKey name id : Bytes) (files : Files) : Prop where
  meInfo : files meInfo = some (name ++ [10] ++ convertStringToHex id ++ [10] ++
    kit.base64Encode privateKey ++ [10])
  privKey : files privKeyFile = some (kit.base64Encode privateKey ++ [10])

/-- An exchange of keys writes both files and sends the public key. -/
theorem untilRead_sendPublicKeyGetAes (hid : client.clientId.length = clientIdSize)
    (hname : client.nameClient = encodeUtf8 name) (hfits : NameFits nameOfClientSize name)
    (hkey : keys.publicKey.length = General.publicKeySize) (hrequest : request.Empty)
    (tries : Nat) (files : Files) :
    (untilRead keys (sendPublicKeyGetAes kit client (tries + 1) request) files).sent =
        [requestBytes client.clientId (.publicKey name (.done keys.publicKey))] ∧
      Kept kit keys.privateKey client.nameClient client.clientId
        (untilRead keys (sendPublicKeyGetAes kit client (tries + 1) request) files).files := by
  have hbytes := massage_publicKey hrequest hname hfits hid hkey
  have hfiles : (untilRead keys (sendPublicKeyGetAes kit client (tries + 1) request) files).files =
      Function.update (Function.update files meInfo (some (client.nameClient ++ [10] ++
        convertStringToHex client.clientId ++ [10] ++ kit.base64Encode keys.privateKey ++ [10])))
        privKeyFile (some (kit.base64Encode keys.privateKey ++ [10])) := rfl
  refine ⟨congrArg (fun data => [data]) hbytes, ?_, ?_⟩
  · have hne : meInfo ≠ privKeyFile := by decide
    rw [hfiles, Function.update_of_ne hne, Function.update_self]
  · rw [hfiles, Function.update_self]

theorem untilRead_readPrivKey_of_file {content : Bytes} (hkey : files privKeyFile = some content) :
    untilRead keys (readPrivKey kit) files =
      ⟨files, [], .ret (kit.base64Decode (linesOf content).flatten)⟩ := by
  rw [readPrivKey]
  change untilRead keys (orExit (files privKeyFile) >>= fun content =>
    (pure (kit.base64Decode (linesOf content).flatten) : Prog Bytes)) files = _
  rw [hkey]
  rfl

theorem untilRead_readPrivKey {privateKey idBytes nameBytes : Bytes}
    (hfiles : Kept kit privateKey nameBytes idBytes files)
    (hbase64 : kit.base64Decode ((kit.base64Encode privateKey).filter (· ≠ 10)) = privateKey) :
    untilRead keys (readPrivKey kit) files = ⟨files, [], .ret privateKey⟩ := by
  have hdecode : kit.base64Decode (linesOf (kit.base64Encode privateKey ++ [10])).flatten =
      privateKey := by
    rw [flatten_linesOf, List.filter_append, List.filter_cons_of_neg (by decide), List.filter_nil,
      List.append_nil, hbase64]
  rw [untilRead_readPrivKey_of_file hfiles.privKey, hdecode]

/-- The request of a client whose name stands in the first line goes out with the id of the
second. -/
theorem untilRead_reconnection_lines {key content id : Bytes}
    (hkey : files privKeyFile = some key) (hmeInfo : files meInfo = some content)
    (hname : client.nameClient = (linesOf content).getD 0 [])
    (hread : convertHexToBytes ((linesOf content).getD 1 []) = id)
    (hid : id.length = clientIdSize) (tries : Nat) :
    ∃ next, untilRead keys (reconnection kit client (tries + 1) request) files =
      ⟨files, [((((request.setClientID id).setCode reconnect827).setPayloadSize
        nameOfClientSize).appendStringPayload client.nameClient nameOfClientSize).massage],
        .recv versionSize next⟩ := by
  rw [reconnection, untilRead_bind (untilRead_readPrivKey_of_file hkey),
    @untilRead_bind _ _ keys (ask (.load meInfo)) files files _ rfl]
  have hload : (Query.perform keys files (.load meInfo)).1 = some content := hmeInfo
  simp only [hload, Option.getD_some, hread, Client.setClientID, bind_assoc]
  rw [unlessExit_bind_pos hname, unlessExit_bind_pos hid, pure_bind]
  exact ⟨_, rfl⟩

/-- Any other client stops. -/
theorem untilRead_reconnection_exit {key content : Bytes} (hkey : files privKeyFile = some key)
    (hmeInfo : files meInfo = some content)
    (hname : client.nameClient ≠ (linesOf content).getD 0 []) (tries : Nat) :
    untilRead keys (reconnection kit client (tries + 1) request) files = ⟨files, [], .exit⟩ := by
  rw [reconnection, untilRead_bind (untilRead_readPrivKey_of_file hkey),
    @untilRead_bind _ _ keys (ask (.load meInfo)) files files _ rfl]
  have hload : (Query.perform keys files (.load meInfo)).1 = some content := hmeInfo
  simp only [hload, Option.getD_some]
  rw [unlessExit_bind_neg hname]
  rfl

/-- What `create_me_info` writes. -/
def meInfoContent (kit : Toolkit) (clientName privateKey clientId : Bytes) : Bytes :=
  clientName ++ [10] ++ convertStringToHex clientId ++ [10] ++ kit.base64Encode privateKey ++ [10]

theorem linesOf_meInfoContent {nameBytes : Bytes} (hline : (10 : UInt8) ∉ nameBytes)
    (privateKey idBytes : Bytes) : linesOf (meInfoContent kit nameBytes privateKey idBytes) =
      nameBytes :: convertStringToHex idBytes :: linesOf (kit.base64Encode privateKey ++ [10]) := by
  have hcontent : meInfoContent kit nameBytes privateKey idBytes =
      nameBytes ++ 10 :: (convertStringToHex idBytes ++
        10 :: (kit.base64Encode privateKey ++ [10])) := by
    simp only [meInfoContent, List.append_assoc, List.cons_append, List.nil_append]
  rw [hcontent, linesOf_cons hline, linesOf_cons (newline_notMem_hex idBytes)]

theorem untilRead_reconnection {privateKey idBytes : Bytes}
    (hfiles : Kept kit privateKey client.nameClient idBytes files)
    (hid : idBytes.length = clientIdSize) (hname : client.nameClient = encodeUtf8 name)
    (hfits : NameFits nameOfClientSize name) (hline : (10 : UInt8) ∉ client.nameClient)
    (hrequest : request.Empty) (tries : Nat) :
    (untilRead keys (reconnection kit client (tries + 1) request) files).sent =
      [requestBytes idBytes (.reconnection name)] := by
  have hlines := @linesOf_meInfoContent kit _ hline privateKey idBytes
  obtain ⟨next, hrun⟩ := @untilRead_reconnection_lines kit keys client request files _ _ idBytes
    hfiles.privKey hfiles.meInfo (by rw [← meInfoContent, hlines]; rfl)
    (by rw [← meInfoContent, hlines]; exact convertHexToBytes_hex idBytes) hid tries
  have hmassage := massage_name hrequest (setClientID_of_length hid request)
    (by decide : reconnect827 < 256 ^ codeSize) (rfl : (Body.reconnection name).code = _) rfl hfits
  rw [hrun, hname]
  exact congrArg (fun data => [data]) hmassage

/-- Every id comes back from its hex digits, and name and id come back from the `me.info` that
`create_me_info` writes: the client of that name asks for reconnection with that id. -/
theorem me_info_round_trip (kit : Toolkit) (keys : KeyPair) :
    (∀ x, convertHexToBytes (convertStringToHex x) = x) ∧
    (∀ x, (convertStringToHex x).length = 2 * x.length ∧
      (∀ d ∈ convertStringToHex x, LowerHex d) ∧
      ∀ (i : Nat) (h : i < x.length),
        ((convertStringToHex x).drop (2 * i)).take 2 = convertStringToHex [x[i]]) ∧
    ∀ nameBytes idBytes privateKey, (10 : UInt8) ∉ nameBytes → idBytes.length = clientIdSize →
      ∃ content,
        (∀ files, untilRead keys (createMeInfo kit nameBytes privateKey idBytes) files =
          ⟨Function.update files meInfo (some content), [], .ret ()⟩) ∧
        (linesOf content).getD 0 [] = nameBytes ∧
        convertHexToBytes ((linesOf content).getD 1 []) = idBytes ∧
        (∀ client : Client, client.setClientID idBytes = pure { client with clientId := idBytes }) ∧
        ∀ files key, files meInfo = some content → files privKeyFile = some key →
          ∀ client request tries,
            (client.nameClient = nameBytes →
              ∃ next, untilRead keys (reconnection kit client (tries + 1) request) files =
                ⟨files, [((((request.setClientID idBytes).setCode reconnect827).setPayloadSize
                  nameOfClientSize).appendStringPayload nameBytes nameOfClientSize).massage],
                  .recv versionSize next⟩) ∧
            (client.nameClient ≠ nameBytes →
              untilRead keys (reconnection kit client (tries + 1) request) files =
                ⟨files, [], .exit⟩) := by
  refine ⟨convertHexToBytes_hex, fun x => ⟨length_convertStringToHex x,
    lowerHex_convertStringToHex x, fun i h => convertStringToHex_digits x h⟩, ?_⟩
  intro nameBytes idBytes privateKey hline hid
  have hlines := @linesOf_meInfoContent kit _ hline privateKey idBytes
  have hfirst : (linesOf (meInfoContent kit nameBytes privateKey idBytes)).getD 0 [] =
      nameBytes := by
    rw [hlines]
    rfl
  have hsecond : convertHexToBytes
      ((linesOf (meInfoContent kit nameBytes privateKey idBytes)).getD 1 []) = idBytes := by
    rw [hlines]
    exact convertHexToBytes_hex idBytes
  refine ⟨meInfoContent kit nameBytes privateKey idBytes, fun _ => rfl, hfirst, hsecond, ?_, ?_⟩
  · intro client
    rw [Client.setClientID, unlessExit_bind_pos hid]
  · intro files key hmeInfo hkey client request tries
    constructor
    · intro hname
      rw [← hname]
      exact untilRead_reconnection_lines hkey hmeInfo (hname.trans hfirst.symm) hsecond hid tries
    · intro hname
      exact untilRead_reconnection_exit hkey hmeInfo (fun he => hname (he.trans hfirst)) tries

end

/-- Client `a` with an id of bytes above 127. -/
theorem me_info_round_trip_a : ∃ content next,
    untilRead ⟨[], []⟩ (createMeInfo bareKit [97] [1] (List.replicate 16 200)) (fun _ => none) =
      ⟨Function.update (fun _ => none) meInfo (some content), [], .ret ()⟩ ∧
    untilRead ⟨[], []⟩ (reconnection bareKit { Client.new with nameClient := [97] } 1 Request.new)
        (fun path => if path = meInfo then some content else some []) =
      ⟨fun path => if path = meInfo then some content else some [],
        [((((Request.new.setClientID (List.replicate 16 200)).setCode reconnect827).setPayloadSize
          nameOfClientSize).appendStringPayload [97] nameOfClientSize).massage],
        .recv versionSize next⟩ := by
  obtain ⟨content, hcreated, -, -, -, hread⟩ := (me_info_round_trip bareKit ⟨[], []⟩).2.2 [97]
    (List.replicate 16 200) [1] (by decide) (by decide)
  obtain ⟨next, hrun⟩ := (hread (fun path => if path = meInfo then some content else some []) []
    (if_pos rfl) (if_neg (by decide)) { Client.new with nameClient := [97] } Request.new 0).1 rfl
  exact ⟨content, next, hcreated _, hrun⟩

end ClientSide
end SecureTransfer
