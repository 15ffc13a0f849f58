import Mathlib.Logic.Relation
import SecureTransfer.Library.Keyed
import SecureTransfer.Server.Functions

/-!
The books of the server without keys, dates and flags: who is registered and with which
files, in memory and in the tables. A callback that fails half-way has made some of its
entries and not the others, so an entry is a step of its own.
-/

open Octets (Text)
open Relation (ReflTransGen)

namespace SecureTransfer

/-- A file record, or a row of table files. -/
structure Entry where
  clientId : Bytes
  fileName : Text
  path : Text
deriving DecidableEq, Repr

/-- A client in memory. -/
structure Holder where
  clientId : Bytes
  clientName : Text
  entries : List Entry
deriving DecidableEq, Repr

/-- The entry of a file that this client sends. -/
def Holder.entry (h : Holder) (fileName : Text) : Entry :=
  ⟨h.clientId, fileName, filePath h.clientName fileName⟩

def Entry.key (e : Entry) : Bytes × Text := (e.clientId, e.fileName)

structure Ledger where
  holders : List Holder
  rows : List (Bytes × Text)
  entries : List Entry
deriving DecidableEq, Repr

namespace Ledger

def ids (b : Ledger) : List Bytes := b.holders.map (·.clientId)

def names (b : Ledger) : List Text := b.holders.map (·.clientName)

def modifyEntries (b : Ledger) (i : Nat) (f : List Entry → List Entry) : Ledger :=
  { b with holders := b.holders.modify i fun h => { h with entries := f h.entries } }

/-- What a start reads from the tables. -/
def reload (b : Ledger) : Ledger :=
  { b with holders := b.rows.map fun row =>
      ⟨row.1, row.2, b.entries.filter (·.clientId = row.1)⟩ }

/-- One entry more or less. A file whose record was dropped may still have its row. -/
inductive Step : Ledger → Ledger → Prop where
  | enrol {b : Ledger} {id : Bytes} {name : Text} (hid : id ∉ b.ids)
      (hfiles : id ∉ b.entries.map (·.clientId)) (hname : name ∉ b.names) :
      Step b { b with holders := b.holders ++ [⟨id, name, []⟩] }
  | enter {b : Ledger} {h : Holder} (hh : h ∈ b.holders)
      (hnew : h.clientId ∉ b.rows.map Prod.fst) :
      Step b { b with rows := b.rows ++ [(h.clientId, h.clientName)] }
  | note {b : Ledger} {h : Holder} {fileName : Text} (hh : h ∈ b.holders)
      (hnew : (h.clientId, fileName) ∉ b.entries.map Entry.key) :
      Step b { b with entries := b.entries ++ [h.entry fileName] }
  | record {b : Ledger} {h : Holder} {i : Nat} {fileName : Text} (hh : b.holders[i]? = some h)
      (hnew : fileName ∉ h.entries.map (·.fileName)) :
      Step b (b.modifyEntries i (· ++ [h.entry fileName]))
  | drop {b : Ledger} {i j : Nat} : Step b (b.modifyEntries i (·.eraseIdx j))
  | delete {b : Ledger} {fileName : Text} :
      Step b { b with entries := b.entries.filter (·.fileName ≠ fileName) }

abbrev Steps : Ledger → Ledger → Prop := ReflTransGen Step

/-- Every client of the tables is in memory, under its id and its name; records and rows lead
into the folder of their client. -/
structure Consistent (b : Ledger) : Prop where
  ids : b.ids.Nodup
  names : b.names.Nodup
  rowIds : (b.rows.map Prod.fst).Nodup
  rows : ∀ row ∈ b.rows, ∃ h ∈ b.holders, (h.clientId, h.clientName) = row
  owned : ∀ h ∈ b.holders, ∀ e ∈ h.entries, e = h.entry e.fileName
  fileNames : ∀ h ∈ b.holders, (h.entries.map (·.fileName)).Nodup
  keys : (b.entries.map Entry.key).Nodup
  paths : ∀ e ∈ b.entries, ∀ h ∈ b.holders, h.clientId = e.clientId → e = h.entry e.fileName

variable {b b' : Ledger}

@[simp] theorem ids_modifyEntries (i : Nat) (f : List Entry → List Entry) :
    (b.modifyEntries i f).ids = b.ids := Keyed.map_modify_self fun _ => rfl

@[simp] theorem names_modifyEntries (i : Nat) (f : List Entry → List Entry) :
    (b.modifyEntries i f).names = b.names := Keyed.map_modify_self fun _ => rfl

/-- Clients keep their ids and names when records change. -/
theorem mem_modifyEntries {i : Nat} {f : List Entry → List Entry} {h : Holder}
    (hh : h ∈ (b.modifyEntries i f).holders) : ∃ h₀ ∈ b.holders, h₀.clientId = h.clientId ∧
      h₀.clientName = h.clientName ∧
      (h.entries = h₀.entries ∨ b.holders[i]? = some h₀ ∧ h.entries = f h₀.entries) := by
  obtain hmem | ⟨h₀, hget, rfl⟩ := Keyed.mem_modify hh
  · exact ⟨h, hmem, rfl, rfl, .inl rfl⟩
  · exact ⟨h₀, List.mem_of_getElem? hget, rfl, rfl, .inr ⟨hget, rfl⟩⟩

theorem Consistent.rowOf_modifyEntries (hb : b.Consistent) (i : Nat)
    (f : List Entry → List Entry) : ∀ row ∈ b.rows,
      ∃ h ∈ (b.modifyEntries i f).holders, (h.clientId, h.clientName) = row := by
  intro row hrow
  obtain ⟨h, hh, hkey⟩ := hb.rows row hrow
  have hviews : (b.modifyEntries i f).holders.map (fun h => (h.clientId, h.clientName)) =
      b.holders.map fun h => (h.clientId, h.clientName) := Keyed.map_modify_self fun _ => rfl
  have hmem : row ∈ b.holders.map fun h => (h.clientId, h.clientName) :=
    List.mem_map.mpr ⟨h, hh, hkey⟩
  rw [← hviews] at hmem
  exact List.mem_map.mp hmem

/-- Changed records must still be those of their client, under distinct names. -/
theorem Consistent.modifyEntries (hb : b.Consistent) {i : Nat} {f : List Entry → List Entry}
    (howned : ∀ h, b.holders[i]? = some h → ∀ e ∈ f h.entries, e = h.entry e.fileName)
    (hnames : ∀ h, b.holders[i]? = some h → ((f h.entries).map (·.fileName)).Nodup) :
    (b.modifyEntries i f).Consistent where
  ids := (congrArg List.Nodup (ids_modifyEntries i f)).mpr hb.ids
  names := (congrArg List.Nodup (names_modifyEntries i f)).mpr hb.names
  rowIds := hb.rowIds
  rows := hb.rowOf_modifyEntries i f
  owned := by
    intro h hh e he
    obtain ⟨h₀, hh₀, hid, hname, hentries⟩ := mem_modifyEntries hh
    have hentry : h.entry e.fileName = h₀.entry e.fileName := by
      rw [Holder.entry, Holder.entry, hid, hname]
    rw [hentry]
    obtain hsame | ⟨hget, hchanged⟩ := hentries
    · exact hb.owned h₀ hh₀ e (hsame ▸ he)
    · exact howned h₀ hget e (hchanged ▸ he)
  fileNames := by
    intro h hh
    obtain ⟨h₀, hh₀, -, -, hentries⟩ := mem_modifyEntries hh
    obtain hsame | ⟨hget, hchanged⟩ := hentries
    · exact hsame ▸ hb.fileNames h₀ hh₀
    · exact hchanged ▸ hnames h₀ hget
  keys := hb.keys
  paths := by
    intro e he h hh hid
    obtain ⟨h₀, hh₀, hid₀, hname₀, -⟩ := mem_modifyEntries hh
    have hentry : h.entry e.fileName = h₀.entry e.fileName := by
      rw [Holder.entry, Holder.entry, hid₀, hname₀]
    rw [hentry]
    exact hb.paths e he h₀ hh₀ (hid₀.trans hid)

theorem nodup_append_singleton {α : Type} {l : List α} {a : α} (hl : l.Nodup) (ha : a ∉ l) :
    (l ++ [a]).Nodup :=
  List.nodup_append_comm.mp (List.nodup_cons.mpr ⟨ha, hl⟩)

theorem Consistent.enrol (hb : b.Consistent) {id : Bytes} {name : Text} (hid : id ∉ b.ids)
    (hfiles : id ∉ b.entries.map (·.clientId)) (hname : name ∉ b.names) :
    Consistent { b with holders := b.holders ++ [⟨id, name, []⟩] } where
  ids := by
    rw [Ledger.ids, List.map_append]
    exact nodup_append_singleton hb.ids hid
  names := by
    rw [Ledger.names, List.map_append]
    exact nodup_append_singleton hb.names hname
  rowIds := hb.rowIds
  rows := by
    intro row hrow
    obtain ⟨h, hh, hkey⟩ := hb.rows row hrow
    exact ⟨h, List.mem_append_left _ hh, hkey⟩
  owned := by
    intro h hh e he
    obtain hh | hh := List.mem_append.mp hh
    · exact hb.owned h hh e he
    · obtain rfl := List.mem_singleton.mp hh
      cases he
  fileNames := by
    intro h hh
    obtain hh | hh := List.mem_append.mp hh
    · exact hb.fileNames h hh
    · obtain rfl := List.mem_singleton.mp hh
      exact List.nodup_nil
  keys := hb.keys
  paths := by
    intro e he h hh heq
    obtain hh | hh := List.mem_append.mp hh
    · exact hb.paths e he h hh heq
    · obtain rfl := List.mem_singleton.mp hh
      exact absurd (List.mem_map.mpr ⟨e, he, heq.symm⟩) hfiles

theorem Consistent.enter (hb : b.Consistent) {h : Holder} (hh : h ∈ b.holders)
    (hnew : h.clientId ∉ b.rows.map Prod.fst) :
    Consistent { b with rows := b.rows ++ [(h.clientId, h.clientName)] } :=
  { hb with
    rowIds := by
      rw [List.map_append]
      exact nodup_append_singleton hb.rowIds hnew
    rows := by
      intro row hrow
      obtain hrow | hrow := List.mem_append.mp hrow
      · exact hb.rows row hrow
      · exact ⟨h, hh, (List.mem_singleton.mp hrow).symm⟩ }

theorem Consistent.note (hb : b.Consistent) {h : Holder} {fileName : Text} (hh : h ∈ b.holders)
    (hnew : (h.clientId, fileName) ∉ b.entries.map Entry.key) :
    Consistent { b with entries := b.entries ++ [h.entry fileName] } :=
  { hb with
    keys := by
      rw [List.map_append]
      exact nodup_append_singleton hb.keys hnew
    paths := by
      intro e he h' hh' hid
      obtain he | he := List.mem_append.mp he
      · exact hb.paths e he h' hh' hid
      · obtain rfl := List.mem_singleton.mp he
        obtain rfl := Keyed.eq_of_key_eq Holder.clientId hb.ids hh' hh hid
        rfl }

theorem Consistent.delete (hb : b.Consistent) (fileName : Text) :
    Consistent { b with entries := b.entries.filter (·.fileName ≠ fileName) } :=
  { hb with
    keys := hb.keys.sublist (List.filter_sublist.map _)
    paths := fun e he => hb.paths e (List.mem_filter.mp he).1 }

theorem Step.consistent (h : Step b b') (hb : b.Consistent) : b'.Consistent := by
  cases h with
  | enrol hid hfiles hname => exact hb.enrol hid hfiles hname
  | enter hh hnew => exact hb.enter hh hnew
  | note hh hnew => exact hb.note hh hnew
  | @record h i fileName hh hnew =>
      have hholder : ∀ h', b.holders[i]? = some h' → h' = h :=
        fun h' hget => Option.some.inj (hget.symm.trans hh)
      apply hb.modifyEntries
      · intro h' hget e he
        obtain rfl := hholder h' hget
        obtain he | he := List.mem_append.mp he
        · exact hb.owned h' (List.mem_of_getElem? hh) e he
        · obtain rfl := List.mem_singleton.mp he
          rfl
      · intro h' hget
        obtain rfl := hholder h' hget
        rw [List.map_append]
        exact nodup_append_singleton (hb.fileNames h' (List.mem_of_getElem? hh)) hnew
  | drop =>
      apply hb.modifyEntries
      · intro h hget e he
        exact hb.owned h (List.mem_of_getElem? hget) e (List.mem_of_mem_eraseIdx he)
      · intro h hget
        exact (hb.fileNames h (List.mem_of_getElem? hget)).sublist
          ((List.eraseIdx_sublist _ _).map _)
  | delete => exact hb.delete _

theorem Steps.consistent (h : Steps b b') (hb : b.Consistent) : b'.Consistent := by
  induction h with
  | refl => exact hb
  | tail _ hstep ih => exact hstep.consistent ih

/-- A row of table clients stays. -/
theorem Steps.row_mem (h : Steps b b') {row : Bytes × Text} (hrow : row ∈ b.rows) :
    row ∈ b'.rows := by
  induction h with
  | refl => exact hrow
  | tail _ hstep ih =>
      cases hstep with
      | enter _ _ => exact List.mem_append_left _ ih
      | enrol _ _ _ | note _ _ | record _ _ | drop | delete => exact ih

theorem Consistent.reload (hb : b.Consistent) : b.reload.Consistent := by
  -- a client that is reloaded was in memory under the same id and name
  have hkept : ∀ h ∈ b.reload.holders, ∃ h₀ ∈ b.holders, h₀.clientId = h.clientId ∧
      h₀.clientName = h.clientName ∧ h.entries = b.entries.filter (·.clientId = h.clientId) := by
    intro h hh
    obtain ⟨row, hrow, rfl⟩ := List.mem_map.mp hh
    obtain ⟨h₀, hh₀, rfl⟩ := hb.rows row hrow
    exact ⟨h₀, hh₀, rfl, rfl, rfl⟩
  have hpaths : ∀ e ∈ b.entries, ∀ h ∈ b.reload.holders, h.clientId = e.clientId →
      e = h.entry e.fileName := by
    intro e he h hh hid
    obtain ⟨h₀, hh₀, hid₀, hname₀, -⟩ := hkept h hh
    rw [Holder.entry, ← hid₀, ← hname₀]
    exact hb.paths e he h₀ hh₀ (hid₀.trans hid)
  have hids : b.reload.ids = b.rows.map Prod.fst := by
    rw [Ledger.ids, Ledger.reload, List.map_map]
    rfl
  have hnodup : b.reload.ids.Nodup := by
    rw [hids]
    exact hb.rowIds
  refine ⟨hnodup, ?_, hb.rowIds, ?_, ?_, ?_, hb.keys, hpaths⟩
  · -- two rows with one name are of one client in memory, so they are one row
    rw [Ledger.names]
    refine List.Nodup.map_on ?_ (List.Nodup.of_map Holder.clientId hnodup)
    intro h hh h' hh' hname
    obtain ⟨h₀, hh₀, hid₀, hname₀, hentries₀⟩ := hkept h hh
    obtain ⟨h₁, hh₁, hid₁, hname₁, hentries₁⟩ := hkept h' hh'
    have hsame := Keyed.eq_of_key_eq Holder.clientName hb.names hh₀ hh₁
      (hname₀.trans (hname.trans hname₁.symm))
    have hid : h.clientId = h'.clientId := by rw [← hid₀, ← hid₁, hsame]
    cases h
    cases h'
    simp only at hid hname hentries₀ hentries₁
    rw [hentries₀, hentries₁, hid, hname]
  · intro row hrow
    exact ⟨_, List.mem_map_of_mem hrow, rfl⟩
  · intro h hh e he
    obtain ⟨-, -, -, -, hentries⟩ := hkept h hh
    rw [hentries] at he
    have hid : e.clientId = h.clientId := by simpa using (List.mem_filter.mp he).2
    exact hpaths e (List.mem_filter.mp he).1 h hh hid.symm
  · intro h hh
    obtain ⟨-, -, -, -, hentries⟩ := hkept h hh
    rw [hentries]
    refine List.Nodup.map_on ?_ ((List.Nodup.of_map Entry.key hb.keys).filter _)
    intro e he e' he' hname
    obtain ⟨hmem, hid⟩ := List.mem_filter.mp he
    obtain ⟨hmem', hid'⟩ := List.mem_filter.mp he'
    refine Keyed.eq_of_key_eq Entry.key hb.keys hmem hmem' ?_
    have hid : e.clientId = h.clientId := by simpa using hid
    have hid' : e'.clientId = h.clientId := by simpa using hid'
    rw [Entry.key, Entry.key, hid, hid', hname]

end Ledger
end SecureTransfer
