import SecureTransfer.Service.Books
import SecureTransfer.Service.Plain
import SecureTransfer.Service.Wire

/-!
Requests delivered whole: a callback that finds a request completely arrived serves
it, so whatever a sequence of such requests makes of the server is reachable.
-/

open Octets (Text)
open Runs (System)

namespace SecureTransfer

/-- A connection as `accept` registers it. -/
def Conn.accepted : Conn :=
  { avail := [], pending := [], hangup := .idle, blocking := false, registered := true,
    sendsLeft := none, sent := [], answers := [] }

section
variable {site : Site} {draws : Draws} {s : Server} {clientId : Bytes} {body : Body}

/-- The callback for a request that has arrived, with `rest` behind it. -/
theorem step_request (hs : WellFormed s) (hfresh : draws.uuid ∉ s.ids)
    (hid : clientId.length = General.clientIdSize) (hfits : body.Fits) (rest : Bytes)
    (c : Conn) :
    step site s (.callback draws (c.withAvail (requestBytes clientId body ++ rest))) =
      some (serve site draws s clientId body).1 := by
  rw [step_callback site draws _ hs hfresh, receive_request hid hfits]
  rfl

/-- A request alone on a new connection. -/
def Event.delivered (draws : Draws) (clientId : Bytes) (body : Body) : Event :=
  .callback draws (Conn.accepted.withAvail (requestBytes clientId body ++ []))

theorem step_delivered (hs : WellFormed s) (hfresh : draws.uuid ∉ s.ids)
    (hid : clientId.length = General.clientIdSize) (hfits : body.Fits) :
    (serverRuns site).step s (.delivered draws clientId body)
      (serve site draws s clientId body).1 :=
  ⟨hfresh, step_request hs hfresh hid hfits [] .accepted⟩

theorem asks_delivered (hid : clientId.length = General.clientIdSize) (hfits : body.Fits)
    (draws : Draws) {id : Bytes} {body' : Body}
    (h : (Event.delivered draws clientId body).Asks id body') :
    id = clientId ∧ body' = body := by
  rw [Event.delivered, Event.Asks, receive_request hid hfits] at h
  cases h
  exact ⟨rfl, rfl⟩

theorem Reachable.served (h : Reachable site s) (hfresh : draws.uuid ∉ s.ids)
    (hid : clientId.length = General.clientIdSize) (hfits : body.Fits) :
    Reachable site (serve site draws s clientId body).1 :=
  System.Reachable.step h (step_delivered h.wellFormed hfresh hid hfits)

/-- The same in runs whose steps meet a condition. -/
theorem guard_served {G : Server → Event → Prop} (h : ((serverRuns site).guard G).Reachable s)
    (hfresh : draws.uuid ∉ s.ids) (hid : clientId.length = General.clientIdSize)
    (hfits : body.Fits) (hG : G s (.delivered draws clientId body)) :
    ((serverRuns site).guard G).Reachable (serve site draws s clientId body).1 := by
  have hreach : Reachable site s := System.Reachable.of_guard h
  exact System.Reachable.step h ⟨step_delivered hreach.wellFormed hfresh hid hfits, hG⟩

theorem plain_served (h : (plainRuns site).Reachable s) (hfresh : draws.uuid ∉ s.ids)
    (hid : clientId.length = General.clientIdSize) (hfits : body.Fits) (hplain : body.Plain) :
    (plainRuns site).Reachable (serve site draws s clientId body).1 := by
  refine guard_served h hfresh hid hfits fun id body' hasks => ?_
  obtain ⟨rfl, rfl⟩ := asks_delivered hid hfits draws hasks
  exact hplain

end

/-! A machine in whose root directory the server runs and on which no byte string is a
public key. -/

def machine (cipher : BlockMode.BlockCipher) : Site where
  cwd := []
  PublicKey := Empty
  importKey := fun _ => none
  oaepEncrypt := fun key => nomatch key
  length_oaepEncrypt := fun key => nomatch key
  cipher := cipher

abbrev bareSite : Site := machine BlockMode.idCipher

/-- Nothing but the root directory. -/
def bareDisk : FileTree := ⟨fun q => q = [], fun _ => none⟩

def bareServer : Server := ⟨[], false, ⟨[], []⟩, bareDisk⟩

/-- The server after its first start. -/
def startedServer : Server :=
  ⟨[], true, ⟨[], []⟩,
    { bareDisk with isDir := Function.update bareDisk.isDir [General.folder] true }⟩

theorem untouched_bareServer (cipher : BlockMode.BlockCipher) :
    Untouched (machine cipher) bareServer where
  noTables := rfl
  rooted := by
    intro q hq
    obtain rfl := List.prefix_nil.mp hq
    rfl
  noDirs := fun _ => rfl
  noFiles := fun _ => rfl

theorem start_bareServer (cipher : BlockMode.BlockCipher) :
    dataBaseHandle (machine cipher) bareServer = some startedServer := rfl

theorem init_startedServer (cipher : BlockMode.BlockCipher) :
    (serverRuns (machine cipher)).init startedServer :=
  ⟨bareServer, untouched_bareServer cipher, start_bareServer cipher⟩

theorem reachable_startedServer : Reachable bareSite startedServer :=
  ⟨startedServer, [], init_startedServer _, .nil _⟩

/-- Draws in which every byte is the same. -/
def sameDraws (b : UInt8) : Draws :=
  ⟨List.replicate 16 b, List.replicate 32 b, [], 0, List.length_replicate, List.length_replicate⟩

/-- A server on which one client is registered. -/
def oneClient : Server :=
  (serve bareSite (sameDraws 1) startedServer (List.replicate 16 0) (.registration ['a'])).1

def oneClientId : Bytes := List.replicate 16 1

theorem reachable_oneClient : Reachable bareSite oneClient :=
  reachable_startedServer.served (by decide) (by decide) ⟨by decide, by decide⟩

/-- Packet 1 of 2 of a file. -/
def openingPacket (fileName : Text) : Packet :=
  { contentSize := 4112, origFileSize := 4100, packetNumber := 1, totalPackets := 2,
    fileName := fileName, content := [0] }

theorem fits_openingPacket {fileName : Text} (h : NameFits General.fileNameSize fileName) :
    (Body.packet (openingPacket fileName)).Fits :=
  Packet.fits_of_lt (by decide : 4112 < 256 ^ 4) (by decide : 4100 < 256 ^ 4)
    (by decide : 1 < 256 ^ 2) (by decide : 2 < 256 ^ 2) h (by decide : 1 < 2 ^ 31)

end SecureTransfer
