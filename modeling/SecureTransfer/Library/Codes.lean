import SecureTransfer.Library.Octets

/-!
Codes that delimit themselves: a value is written as bytes, and read back from in front of
any rest.
-/

structure Code (α : Type) where
  write : α → Bytes
  read : Bytes → Option (α × Bytes)
  read_write : ∀ a rest, read (write a ++ rest) = some (a, rest)

namespace Code

open Octets (Text toLittle ofLittle)

variable {α β : Type}

/-- Everything that is there. -/
def readAll (c : Code α) (bs : Bytes) : Option α :=
  match c.read bs with
  | some (a, []) => some a
  | _ => none

theorem readAll_write (c : Code α) (a : α) : c.readAll (c.write a) = some a := by
  have hread := c.read_write a []
  rw [List.append_nil] at hread
  rw [readAll, hread]

/-- A value that is determined by one with a code. -/
def via (c : Code α) (f : α → β) (g : β → α) (h : ∀ b, f (g b) = b) : Code β where
  write b := c.write (g b)
  read bs := (c.read bs).map fun p => (f p.1, p.2)
  read_write b rest := by rw [c.read_write, Option.map_some, h]

def byte : Code UInt8 where
  write b := [b]
  read
    | [] => none
    | b :: rest => some (b, rest)
  read_write _ _ := rfl

def flag : Code Bool where
  write b := [if b then 1 else 0]
  read
    | [] => none
    | b :: rest => some (b = 1, rest)
  read_write b rest := by cases b <;> rfl

/-! Numbers in unary. -/

def readNat : Bytes → Option (Nat × Bytes)
  | [] => none
  | b :: rest => if b = 0 then some (0, rest) else (readNat rest).map fun p => (p.1 + 1, p.2)

theorem readNat_unary (n : Nat) (rest : Bytes) :
    readNat (List.replicate n 1 ++ 0 :: rest) = some (n, rest) := by
  induction n with
  | zero => rfl
  | succ n ih =>
      rw [List.replicate_succ, List.cons_append, readNat, if_neg (by decide), ih, Option.map_some]

def nat : Code Nat where
  write n := List.replicate n 1 ++ [0]
  read := readNat
  read_write n rest := by
    rw [List.append_assoc, List.singleton_append]
    exact readNat_unary n rest

def char : Code Char where
  write c := toLittle 3 c.toNat
  read bs := if bs.length < 3 then none else some (Char.ofNat (ofLittle (bs.take 3)), bs.drop 3)
  read_write c rest := by
    have hlength : (toLittle 3 c.toNat).length = 3 := Octets.length_toLittle _ _
    have hlt : c.toNat < 256 ^ 3 := by
      have hvalid : c.toNat < 0x110000 := by
        rcases c.valid with h | ⟨-, h⟩
        · exact Nat.lt_trans h (by decide)
        · exact h
      omega
    rw [List.length_append, hlength, if_neg (by omega), List.take_left' hlength,
      List.drop_left' hlength, Octets.ofLittle_toLittle_of_lt hlt, Char.ofNat_toNat]

def pair (c : Code α) (d : Code β) : Code (α × β) where
  write p := c.write p.1 ++ d.write p.2
  read bs := (c.read bs).bind fun p => (d.read p.2).map fun r => ((p.1, r.1), r.2)
  read_write p rest := by
    rw [List.append_assoc, c.read_write, Option.bind_some, d.read_write, Option.map_some]

/-! Lists, after their length. -/

def readMany (c : Code α) : Nat → Bytes → Option (List α × Bytes)
  | 0, bs => some ([], bs)
  | n + 1, bs => (c.read bs).bind fun p => (c.readMany n p.2).map fun r => (p.1 :: r.1, r.2)

theorem readMany_flatMap (c : Code α) (as : List α) (rest : Bytes) :
    c.readMany as.length (as.flatMap c.write ++ rest) = some (as, rest) := by
  induction as with
  | nil => rfl
  | cons a as ih =>
      rw [List.length_cons, List.flatMap_cons, List.append_assoc, readMany, c.read_write,
        Option.bind_some, ih, Option.map_some]

def list (c : Code α) : Code (List α) where
  write as := nat.write as.length ++ as.flatMap c.write
  read bs := (nat.read bs).bind fun p => c.readMany p.1 p.2
  read_write as rest := by
    rw [List.append_assoc, nat.read_write, Option.bind_some, readMany_flatMap]

def bytes : Code Bytes := list byte

def text : Code Text := list char

end Code
