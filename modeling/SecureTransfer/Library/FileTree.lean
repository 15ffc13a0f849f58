import Mathlib.Logic.Function.Basic
import Mathlib.Data.List.DropRight
import SecureTransfer.Library.Octets

/-!
A tree of directories and regular files, addressed by path strings. Looking a
path up walks its components from a directory: every component but the last must
lead to an existing directory, an empty component or `.` stays, `..` goes to the
parent. Directories are never removed, so a path once resolved stays resolved.
-/

open Octets (Text)

/-- The components of an absolute path, from the root. -/
abbrev Location := List Text

structure FileTree where
  isDir : Location → Bool
  file : Location → Option Bytes

namespace FileTree

def enter (here : Location) (component : Text) : Location :=
  if component = [] ∨ component = ['.'] then here
  else if component = ['.', '.'] then here.dropLast
  else here ++ [component]

def walk (t : FileTree) : Location → List Text → Option Location
  | here, [] => some here
  | here, c :: rest => if t.isDir here then walk t (enter here c) rest else none

/-- The location a path names, relative to the directory `cwd`. -/
def locate (t : FileTree) (cwd : Location) (path : Text) : Option Location :=
  walk t (if path.head? = some '/' then [] else cwd) (path.splitOn '/')

def occupied (t : FileTree) (q : Location) : Bool := t.isDir q || (t.file q).isSome

def pathExists (t : FileTree) (cwd : Location) (path : Text) : Bool :=
  match t.locate cwd path with
  | some q => t.occupied q
  | none => false

/-- A trailing slash is allowed in the name of a new directory. -/
def mkdir (t : FileTree) (cwd : Location) (path : Text) : Option FileTree :=
  match t.locate cwd (path.rdropWhile (· == '/')) with
  | some q =>
      if t.occupied q then none
      else some { t with isDir := Function.update t.isDir q true }
  | none => none

def setFile (t : FileTree) (q : Location) (content : Option Bytes) : FileTree :=
  { t with file := Function.update t.file q content }

/-- The regular file at a location. -/
def content (t : FileTree) (q : Location) : Option Bytes := if t.isDir q then none else t.file q

/-- Make an empty file where there is nothing. -/
def touch (t : FileTree) (q : Location) : FileTree :=
  if t.occupied q then t else t.setFile q (some [])

/-- Open for writing: create the file if there is none, empty it if `truncate`. -/
def openWrite (t : FileTree) (cwd : Location) (path : Text) (truncate : Bool) :
    Option FileTree :=
  match t.locate cwd path with
  | some q =>
      if t.isDir q then none
      else some (t.setFile q (some (if truncate then [] else (t.file q).getD [])))
  | none => none

def readFile (t : FileTree) (cwd : Location) (path : Text) : Option Bytes :=
  match t.locate cwd path with
  | some q => if t.isDir q then none else t.file q
  | none => none

/-- Write at the end of a file opened before. -/
def append (t : FileTree) (cwd : Location) (path : Text) (content : Bytes) :
    Option FileTree :=
  match t.locate cwd path with
  | some q => if t.isDir q then none
      else (t.file q).map fun old => t.setFile q (some (old ++ content))
  | none => none

def remove (t : FileTree) (cwd : Location) (path : Text) : Option FileTree :=
  match t.locate cwd path with
  | some q => if t.isDir q then none else (t.file q).map fun _ => t.setFile q none
  | none => none

@[simp] theorem setFile_isDir (t : FileTree) (q : Location) (content : Option Bytes) :
    (t.setFile q content).isDir = t.isDir := rfl

@[simp] theorem setFile_file_self (t : FileTree) (q : Location) (content : Option Bytes) :
    (t.setFile q content).file q = content := by simp [setFile]

theorem setFile_file_of_ne (t : FileTree) {q r : Location} (content : Option Bytes)
    (h : r ≠ q) : (t.setFile q content).file r = t.file r := by simp [setFile, h]

@[simp] theorem setFile_setFile (t : FileTree) (q : Location) (a b : Option Bytes) :
    (t.setFile q a).setFile q b = t.setFile q b := by simp [setFile]

/-- Looking up a path depends on the directories only, and survives new ones. -/
theorem walk_mono {t t' : FileTree} (h : ∀ q, t.isDir q → t'.isDir q)
    (components : List Text) (here q : Location)
    (hw : t.walk here components = some q) : t'.walk here components = some q := by
  induction components generalizing here with
  | nil => exact hw
  | cons c rest ih =>
      simp only [walk] at hw ⊢
      split at hw
      · rename_i hd
        rw [if_pos (h _ hd)]
        exact ih _ hw
      · cases hw

theorem locate_mono {t t' : FileTree} (h : ∀ q, t.isDir q → t'.isDir q)
    {cwd : Location} {path : Text} {q : Location}
    (hl : t.locate cwd path = some q) : t'.locate cwd path = some q :=
  walk_mono h _ _ _ hl

theorem walk_congr {t t' : FileTree} (h : t.isDir = t'.isDir) (components : List Text)
    (here : Location) : t.walk here components = t'.walk here components := by
  induction components generalizing here with
  | nil => rfl
  | cons c rest ih => simp only [walk, h, ih]

theorem locate_congr {t t' : FileTree} (h : t.isDir = t'.isDir) (cwd : Location)
    (path : Text) : t.locate cwd path = t'.locate cwd path :=
  walk_congr h _ _

@[simp] theorem locate_setFile (t : FileTree) (q : Location) (content : Option Bytes)
    (cwd : Location) (path : Text) :
    (t.setFile q content).locate cwd path = t.locate cwd path :=
  locate_congr (setFile_isDir t q content) _ _

/-! Opening and then appending is one write to one location. -/

/-- Replace (`truncate`) or extend the file at a path. -/
def store (t : FileTree) (cwd : Location) (path : Text) (truncate : Bool) (content : Bytes) :
    Option FileTree :=
  match t.locate cwd path with
  | some q =>
      if t.isDir q then none
      else some (t.setFile q (some ((if truncate then [] else (t.file q).getD []) ++ content)))
  | none => none

theorem openWrite_append (t : FileTree) (cwd : Location) (path : Text) (truncate : Bool)
    (content : Bytes) :
    (t.openWrite cwd path truncate).bind (·.append cwd path content) =
      t.store cwd path truncate content := by
  unfold openWrite store
  cases hl : t.locate cwd path with
  | none => rfl
  | some q =>
      cases hd : t.isDir q <;> simp [append, hl, hd]

theorem store_eq_some {t t' : FileTree} {cwd : Location} {path : Text} {truncate : Bool}
    {content : Bytes} : t.store cwd path truncate content = some t' ↔
      ∃ q, t.locate cwd path = some q ∧ t.isDir q = false ∧
        t' = t.setFile q (some ((if truncate then [] else (t.file q).getD []) ++ content)) := by
  unfold store
  cases t.locate cwd path with
  | none => simp
  | some q =>
      cases hd : t.isDir q with
      | true => simp [hd]
      | false => simpa [hd] using eq_comm

theorem remove_eq_some {t t' : FileTree} {cwd : Location} {path : Text} :
    t.remove cwd path = some t' ↔
      ∃ q old, t.locate cwd path = some q ∧ t.isDir q = false ∧ t.file q = some old ∧
        t' = t.setFile q none := by
  unfold remove
  cases t.locate cwd path with
  | none => simp
  | some q =>
      cases hd : t.isDir q with
      | true => simp [hd]
      | false =>
          cases hf : t.file q with
          | none => simp [hd, hf]
          | some old => simpa [hd, hf] using eq_comm

theorem mkdir_eq_some {t t' : FileTree} {cwd : Location} {path : Text} :
    t.mkdir cwd path = some t' ↔
      ∃ q, t.locate cwd (path.rdropWhile (· == '/')) = some q ∧ t.occupied q = false ∧
        t' = { t with isDir := Function.update t.isDir q true } := by
  unfold mkdir
  cases t.locate cwd (path.rdropWhile (· == '/')) with
  | none => simp
  | some q =>
      cases ho : t.occupied q with
      | true => simp [ho]
      | false => simpa [ho] using eq_comm

theorem readFile_eq_some {t : FileTree} {cwd : Location} {path : Text} {content : Bytes} :
    t.readFile cwd path = some content ↔
      ∃ q, t.locate cwd path = some q ∧ t.isDir q = false ∧ t.file q = some content := by
  unfold readFile
  cases t.locate cwd path with
  | none => simp
  | some q => cases hd : t.isDir q <;> simp [hd]

theorem store_isDir {t t' : FileTree} {cwd : Location} {path : Text} {truncate : Bool}
    {content : Bytes} (h : t.store cwd path truncate content = some t') :
    t'.isDir = t.isDir := by
  obtain ⟨q, -, -, rfl⟩ := store_eq_some.mp h
  rfl

theorem openWrite_isDir {t t' : FileTree} {cwd : Location} {path : Text} {truncate : Bool}
    (h : t.openWrite cwd path truncate = some t') : t'.isDir = t.isDir := by
  rw [openWrite] at h
  split at h
  · split at h
    · cases h
    · obtain rfl := Option.some.inj h
      rfl
  · cases h

theorem openWrite_locate {t t' : FileTree} {cwd : Location} {path : Text} {truncate : Bool}
    (h : t.openWrite cwd path truncate = some t') : ∃ q, t.locate cwd path = some q := by
  rw [openWrite] at h
  split at h
  · exact ⟨_, ‹_›⟩
  · cases h

theorem append_isDir {t t' : FileTree} {cwd : Location} {path : Text} {content : Bytes}
    (h : t.append cwd path content = some t') : t'.isDir = t.isDir := by
  rw [append] at h
  split at h
  · split at h
    · cases h
    · obtain ⟨old, -, rfl⟩ := Option.map_eq_some_iff.mp h
      rfl
  · cases h

theorem remove_isDir {t t' : FileTree} {cwd : Location} {path : Text}
    (h : t.remove cwd path = some t') : t'.isDir = t.isDir := by
  obtain ⟨q, old, -, -, -, rfl⟩ := remove_eq_some.mp h
  rfl

theorem mkdir_isDir {t t' : FileTree} {cwd : Location} {path : Text}
    (h : t.mkdir cwd path = some t') (q : Location) (hd : t.isDir q) : t'.isDir q := by
  obtain ⟨r, -, -, rfl⟩ := mkdir_eq_some.mp h
  by_cases hq : q = r <;> simp [hq, hd]

theorem mkdir_file {t t' : FileTree} {cwd : Location} {path : Text}
    (h : t.mkdir cwd path = some t') : t'.file = t.file := by
  obtain ⟨q, -, -, rfl⟩ := mkdir_eq_some.mp h
  rfl

/-- A regular file with these bytes. -/
def Holds (t : FileTree) (q : Location) (content : Bytes) : Prop :=
  t.isDir q = false ∧ t.file q = some content

theorem Holds.setFile {t : FileTree} {q r : Location} {content : Bytes} (h : t.Holds q content)
    {new : Option Bytes} (hsame : r = q → new = some content) :
    (t.setFile r new).Holds q content := by
  refine ⟨h.1, ?_⟩
  by_cases hr : r = q
  · rw [hr, setFile_file_self, hsame hr]
  · rw [setFile_file_of_ne t new (Ne.symm hr)]
    exact h.2

/-- A new directory is not where a file is. -/
theorem Holds.mkdir {t t' : FileTree} {q : Location} {content : Bytes} (h : t.Holds q content)
    {cwd : Location} {path : Text} (hdir : t.mkdir cwd path = some t') : t'.Holds q content := by
  obtain ⟨r, -, hfree, rfl⟩ := mkdir_eq_some.mp hdir
  have hne : q ≠ r := by
    intro he
    subst he
    simp [occupied, h.2] at hfree
  exact ⟨(Function.update_of_ne hne _ _).trans h.1, h.2⟩

/-! A file that a call does not reach can have any content. -/

theorem setFile_comm (t : FileTree) {q r : Location} (hne : q ≠ r) (a b : Option Bytes) :
    (t.setFile q a).setFile r b = (t.setFile r b).setFile q a := by
  simp only [setFile, Function.update_comm hne]

section
variable {t : FileTree} {q : Location} {content : Bytes} (hq : t.Holds q content)
  (other : Bytes)
include hq

theorem Holds.occupied_setFile (r : Location) :
    (t.setFile q (some other)).occupied r = t.occupied r := by
  by_cases hr : r = q
  · subst hr
    simp [occupied, hq.2]
  · simp [occupied, setFile_file_of_ne t _ hr]

theorem Holds.pathExists_setFile (cwd : Location) (path : Text) :
    (t.setFile q (some other)).pathExists cwd path = t.pathExists cwd path := by
  simp only [pathExists, locate_setFile, hq.occupied_setFile]

theorem Holds.mkdir_setFile (cwd : Location) (path : Text) :
    (t.setFile q (some other)).mkdir cwd path =
      (t.mkdir cwd path).map (·.setFile q (some other)) := by
  rw [FileTree.mkdir, FileTree.mkdir, locate_setFile]
  cases t.locate cwd (path.rdropWhile (· == '/')) with
  | none => rfl
  | some r =>
      simp only [hq.occupied_setFile]
      split <;> rfl

end

section
variable {t : FileTree} {cwd q : Location} {path : Text} (haway : t.locate cwd path ≠ some q)
  (other : Option Bytes)
include haway

theorem openWrite_setFile (truncate : Bool) :
    (t.setFile q other).openWrite cwd path truncate =
      (t.openWrite cwd path truncate).map (·.setFile q other) := by
  rw [openWrite, openWrite, locate_setFile]
  cases hr : t.locate cwd path with
  | none => rfl
  | some r =>
      have hne : r ≠ q := fun he => haway (he ▸ hr)
      simp only [setFile_isDir, setFile_file_of_ne t other hne, setFile_comm t hne.symm]
      split <;> rfl

theorem append_setFile (content : Bytes) :
    (t.setFile q other).append cwd path content =
      (t.append cwd path content).map (·.setFile q other) := by
  rw [append, append, locate_setFile]
  cases hr : t.locate cwd path with
  | none => rfl
  | some r =>
      have hne : r ≠ q := fun he => haway (he ▸ hr)
      simp only [setFile_isDir, setFile_file_of_ne t other hne, setFile_comm t hne.symm]
      split
      · rfl
      · rw [Option.map_map]
        rfl

theorem remove_setFile :
    (t.setFile q other).remove cwd path = (t.remove cwd path).map (·.setFile q other) := by
  rw [remove, remove, locate_setFile]
  cases hr : t.locate cwd path with
  | none => rfl
  | some r =>
      have hne : r ≠ q := fun he => haway (he ▸ hr)
      simp only [setFile_isDir, setFile_file_of_ne t other hne, setFile_comm t hne.symm]
      split
      · rfl
      · rw [Option.map_map]
        rfl

theorem readFile_setFile :
    (t.setFile q other).readFile cwd path = t.readFile cwd path := by
  rw [readFile, readFile, locate_setFile]
  cases hr : t.locate cwd path with
  | none => rfl
  | some r =>
      have hne : r ≠ q := fun he => haway (he ▸ hr)
      simp only [setFile_isDir, setFile_file_of_ne t other hne]

theorem Holds.openWrite {t' : FileTree} {content : Bytes} {truncate : Bool}
    (hq : t.Holds q content) (h : t.openWrite cwd path truncate = some t') :
    t'.Holds q content := by
  rw [FileTree.openWrite] at h
  split at h
  · rename_i r hr
    split at h
    · cases h
    · obtain rfl := Option.some.inj h
      exact hq.setFile fun he => absurd (he ▸ hr) haway
  · cases h

theorem Holds.append {t' : FileTree} {content more : Bytes} (hq : t.Holds q content)
    (h : t.append cwd path more = some t') : t'.Holds q content := by
  rw [FileTree.append] at h
  split at h
  · rename_i r hr
    split at h
    · cases h
    · obtain ⟨old, -, rfl⟩ := Option.map_eq_some_iff.mp h
      exact hq.setFile fun he => absurd (he ▸ hr) haway
  · cases h

theorem Holds.remove {t' : FileTree} {content : Bytes} (hq : t.Holds q content)
    (h : t.remove cwd path = some t') : t'.Holds q content := by
  obtain ⟨r, old, hr, -, -, rfl⟩ := remove_eq_some.mp h
  exact hq.setFile fun he => absurd (he ▸ hr) haway

end

theorem walk_append (t : FileTree) (xs ys : List Text) (here : Location) :
    t.walk here (xs ++ ys) = (t.walk here xs).bind (t.walk · ys) := by
  induction xs generalizing here with
  | nil => rfl
  | cons c rest ih =>
      simp only [List.cons_append, walk]
      split
      · exact ih _
      · rfl

/-! A path with trailing slashes leads to the location of the path without them, and
only if that is a directory. -/

/-- The rest of a path is looked up from where its beginning leads. -/
theorem locate_append_slash (t : FileTree) (cwd : Location) {path : Text} (hne : path ≠ [])
    (rest : Text) : t.locate cwd (path ++ '/' :: rest) =
      (t.locate cwd path).bind (t.walk · (rest.splitOn '/')) := by
  have hhead : (path ++ '/' :: rest).head? = path.head? := by
    cases path with
    | nil => exact absurd rfl hne
    | cons c cs => rfl
  rw [locate, locate, hhead, List.splitOn_append_cons_self, walk_append]

theorem locate_concat_slash (t : FileTree) (cwd : Location) {path : Text} (hne : path ≠ []) :
    t.locate cwd (path ++ ['/']) =
      (t.locate cwd path).bind fun q => if t.isDir q then some q else none := by
  rw [locate_append_slash t cwd hne]
  rfl

/-- The path leads somewhere, to a directory if it ends in a slash. -/
def Creatable (t : FileTree) (cwd : Location) (path : Text) : Prop :=
  ∃ q, t.locate cwd (path.rdropWhile (· == '/')) = some q ∧
    (path.rdropWhile (· == '/') ≠ path → t.isDir q)

theorem creatable_iff {t : FileTree} {cwd : Location} {path : Text}
    (hne : path.rdropWhile (· == '/') ≠ []) (q : Location) :
    t.locate cwd path = some q ↔ t.locate cwd (path.rdropWhile (· == '/')) = some q ∧
      (path.rdropWhile (· == '/') ≠ path → t.isDir q) := by
  induction path using List.reverseRecOn with
  | nil => exact absurd rfl hne
  | append_singleton l x ih =>
      by_cases hx : x = '/'
      · subst hx
        rw [List.rdropWhile_concat_pos _ _ _ (by simp)] at hne ⊢
        have hl : l ≠ [] := by
          rintro rfl
          exact hne rfl
        have hshorter : l.rdropWhile (· == '/') ≠ l ++ ['/'] := by
          intro he
          have := congrArg List.length he
          have hle := (List.rdropWhile_prefix (· == '/') (l := l)).length_le
          simp only [List.length_append, List.length_singleton] at this
          omega
        rw [locate_concat_slash t cwd hl, Option.bind_eq_some_iff]
        constructor
        · rintro ⟨r, hr, hq⟩
          split at hq
          · rename_i hd
            obtain rfl := Option.some.inj hq
            exact ⟨((ih hne).mp hr).1, fun _ => hd⟩
          · cases hq
        · rintro ⟨hq, hd⟩
          have hdir := hd hshorter
          exact ⟨q, (ih hne).mpr ⟨hq, fun _ => hdir⟩, by rw [if_pos hdir]⟩
      · have hlast : (l ++ [x]).rdropWhile (· == '/') = l ++ [x] :=
          List.rdropWhile_concat_neg _ _ _ (by simpa using hx)
        rw [hlast]
        simp

theorem creatable_mono {t t' : FileTree} (h : ∀ q, t.isDir q → t'.isDir q) {cwd : Location}
    {path : Text} (hc : t.Creatable cwd path) : t'.Creatable cwd path := by
  obtain ⟨q, hq, hd⟩ := hc
  exact ⟨q, locate_mono h hq, fun hne => h q (hd hne)⟩

theorem creatable_of_pathExists {t : FileTree} {cwd : Location} {path : Text}
    (hne : path.rdropWhile (· == '/') ≠ []) (h : t.pathExists cwd path) :
    t.Creatable cwd path := by
  unfold pathExists at h
  split at h
  · rename_i q hq
    exact ⟨q, (creatable_iff hne q).mp hq⟩
  · cases h

theorem creatable_of_mkdir {t t' : FileTree} {cwd : Location} {path : Text}
    (h : t.mkdir cwd path = some t') : t'.Creatable cwd path := by
  obtain ⟨q, hq, -, rfl⟩ := mkdir_eq_some.mp h
  exact ⟨q, locate_mono (mkdir_isDir h) hq, fun _ => by simp⟩

/-- A path that can be created and does not exist is created by `mkdir`. -/
theorem mkdir_of_creatable {t : FileTree} {cwd : Location} {path : Text}
    (hne : path.rdropWhile (· == '/') ≠ []) (hc : t.Creatable cwd path)
    (h : t.pathExists cwd path = false) : ∃ t', t.mkdir cwd path = some t' := by
  obtain ⟨q, hq⟩ := hc
  have hlocate := (creatable_iff hne q).mpr hq
  refine ⟨_, mkdir_eq_some.mpr ⟨q, hq.1, ?_, rfl⟩⟩
  simpa only [pathExists, hlocate] using h

/-! A proper component names an entry of the directory it is looked up in. -/

def Proper (component : Text) : Prop :=
  component ≠ [] ∧ component ≠ ['.'] ∧ component ≠ ['.', '.'] ∧ '/' ∉ component

instance (component : Text) : Decidable (Proper component) :=
  inferInstanceAs (Decidable (_ ∧ _))

theorem enter_proper {component : Text} (h : Proper component) (here : Location) :
    enter here component = here ++ [component] := by
  simp [enter, h.1, h.2.1, h.2.2.1]

theorem head?_of_proper {component : Text} (h : Proper component) (rest : Text) :
    (component ++ rest).head? ≠ some '/' := by
  obtain ⟨hne, -, -, hslash⟩ := h
  cases component with
  | nil => exact absurd rfl hne
  | cons c cs =>
      intro he
      simp only [List.cons_append, List.head?_cons, Option.some.injEq] at he
      exact hslash (he ▸ List.mem_cons_self)

theorem splitOn_proper {component : Text} (h : Proper component) :
    component.splitOn '/' = [component] := List.splitOn_eq_singleton h.2.2.2

theorem splitOn_proper_slash {component : Text} (h : Proper component) (rest : Text) :
    (component ++ '/' :: rest).splitOn '/' = component :: rest.splitOn '/' := by
  rw [List.splitOn_append_cons_self, splitOn_proper h]
  rfl

theorem rdropWhile_proper {component : Text} (h : Proper component) (before : Text) :
    (before ++ component).rdropWhile (· == '/') = before ++ component := by
  rw [List.rdropWhile_eq_self_iff]
  intro hne hlast
  rw [List.getLast_append_of_ne_nil hne h.1] at hlast
  exact h.2.2.2 (eq_of_beq hlast ▸ List.getLast_mem h.1)

theorem locate_two {t : FileTree} {cwd : Location} {a b : Text} (ha : Proper a) (hb : Proper b)
    (hcwd : t.isDir cwd) (hdir : t.isDir (cwd ++ [a])) :
    t.locate cwd (a ++ '/' :: b) = some (cwd ++ [a, b]) := by
  have hhead : (a ++ '/' :: b).head? ≠ some '/' := head?_of_proper ha _
  rw [locate, if_neg hhead, splitOn_proper_slash ha, splitOn_proper hb]
  simp [walk, hcwd, hdir, enter_proper ha, enter_proper hb]

theorem locate_three {t : FileTree} {cwd : Location} {a b c : Text} (ha : Proper a)
    (hb : Proper b) (hc : Proper c) (hcwd : t.isDir cwd) (hdir : t.isDir (cwd ++ [a]))
    (hdir' : t.isDir (cwd ++ [a, b])) :
    t.locate cwd (a ++ '/' :: (b ++ '/' :: c)) = some (cwd ++ [a, b, c]) := by
  have hhead : (a ++ '/' :: (b ++ '/' :: c)).head? ≠ some '/' := head?_of_proper ha _
  rw [locate, if_neg hhead, splitOn_proper_slash ha, splitOn_proper_slash hb, splitOn_proper hc]
  simp [walk, hcwd, hdir, hdir', enter_proper ha, enter_proper hb, enter_proper hc]

/-! Where components lead, whatever directories there are. -/

def resolve (here : Location) (components : List Text) : Location := components.foldl enter here

theorem walk_eq_resolve {t : FileTree} {components : List Text} {here q : Location}
    (h : t.walk here components = some q) : q = resolve here components := by
  induction components generalizing here with
  | nil => exact (Option.some.inj h).symm
  | cons c rest ih =>
      simp only [walk] at h
      split at h
      · exact ih h
      · cases h

theorem isDir_of_walk {t : FileTree} {components : List Text} {here q : Location}
    (hne : components ≠ []) (h : t.walk here components = some q) : t.isDir here := by
  cases components with
  | nil => exact absurd rfl hne
  | cons c rest =>
      simp only [walk] at h
      split at h
      · rename_i hdir
        exact hdir
      · cases h

/-- A relative path without detours: so many times up, then down along these names. -/
structure Relative where
  ups : Nat
  names : List Text
deriving DecidableEq, Repr

namespace Relative

def step (p : Relative) (component : Text) : Relative :=
  if component = [] ∨ component = ['.'] then p
  else if component = ['.', '.'] then
    if p.names = [] then { p with ups := p.ups + 1 } else { p with names := p.names.dropLast }
  else { p with names := p.names ++ [component] }

def follow (p : Relative) (here : Location) : Location :=
  here.take (here.length - p.ups) ++ p.names

theorem enter_follow (p : Relative) (here : Location) (component : Text) :
    enter (p.follow here) component = (p.step component).follow here := by
  rw [enter, step]
  split
  · rfl
  · split
    · split
      · rename_i hnames
        simp only [follow, hnames, List.append_nil, List.dropLast_eq_take, List.length_take,
          List.take_take]
        congr 1
        omega
      · rename_i hnames
        exact List.dropLast_append_of_ne_nil hnames
    · exact List.append_assoc _ _ _

end Relative

def reduce (components : List Text) : Relative := components.foldl Relative.step ⟨0, []⟩

theorem resolve_follow (components : List Text) (p : Relative) (here : Location) :
    resolve (p.follow here) components = (components.foldl Relative.step p).follow here := by
  induction components generalizing p with
  | nil => rfl
  | cons c rest ih =>
      rw [resolve, List.foldl_cons, Relative.enter_follow]
      exact ih _

theorem resolve_eq (components : List Text) (here : Location) :
    resolve here components = (reduce components).follow here := by
  have h := resolve_follow components ⟨0, []⟩ here
  rwa [Relative.follow, Nat.sub_zero, List.take_length, List.append_nil] at h

theorem reduce_proper {components : List Text} (h : ∀ c ∈ components, Proper c) :
    reduce components = ⟨0, components⟩ := by
  induction components using List.reverseRecOn with
  | nil => rfl
  | append_singleton before c ih =>
      obtain ⟨hne, hdot, hdots, -⟩ := h c (by simp)
      rw [reduce, List.foldl_append, List.foldl_cons, List.foldl_nil, ← reduce,
        ih fun d hd => h d (List.mem_append_left _ hd)]
      simp only [Relative.step, hne, hdot, hdots, or_false, if_false]

/-- Directly or indirectly in the directory. -/
def Inside (home q : Location) : Prop := home <+: q ∧ q ≠ home

instance (home q : Location) : Decidable (Inside home q) :=
  inferInstanceAs (Decidable (_ ∧ _))

namespace Relative

/-- A path that goes up comes down again along the same names. -/
def Returns (p : Relative) (home : Location) : Prop :=
  home.drop (home.length - p.ups) <+: p.names

instance (p : Relative) (home : Location) : Decidable (p.Returns home) :=
  inferInstanceAs (Decidable (_ <+: _))

/-- The names that are left below the directory. -/
def beyond (p : Relative) (home : Location) : List Text := p.names.drop (min p.ups home.length)

theorem prefix_follow_iff {p : Relative} {home : Location} :
    home <+: p.follow home ↔ p.Returns home := by
  have hcut : home.take (home.length - p.ups) ++ home.drop (home.length - p.ups) <+:
      p.follow home ↔ p.Returns home := List.prefix_append_right_inj _
  rwa [List.take_append_drop] at hcut

theorem Returns.follow_eq {p : Relative} {home : Location} (h : p.Returns home) :
    p.follow home = home ++ p.beyond home := by
  obtain ⟨rest, hrest⟩ := h
  have hlength : (home.drop (home.length - p.ups)).length = min p.ups home.length := by
    rw [List.length_drop]
    omega
  have hbeyond : p.beyond home = rest := by
    rw [beyond, ← hrest, ← hlength, List.drop_left]
  rw [follow, hbeyond, ← hrest, ← List.append_assoc, List.take_append_drop]

theorem returns_of_ups {p : Relative} (h : p.ups = 0) (home : Location) : p.Returns home := by
  rw [Returns, h, Nat.sub_zero, List.drop_length]
  exact List.nil_prefix

theorem beyond_of_ups {p : Relative} (h : p.ups = 0) (home : Location) :
    p.beyond home = p.names := by
  rw [beyond, h, Nat.zero_min, List.drop_zero]

end Relative

end FileTree
