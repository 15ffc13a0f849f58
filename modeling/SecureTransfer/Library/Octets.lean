import Mathlib.Algebra.Group.Int.Defs
import Mathlib.Algebra.Group.Nat.Defs
import Mathlib.Data.List.Basic
import Mathlib.Data.List.TakeWhile
import Mathlib.Tactic.Common

/-!
Byte strings: little-endian numbers, fields padded with NUL, and the strict
UTF-8 reading of a byte string as a list of code points. The UTF-8 codec is
iterated from the one-character codec of the Lean core.
-/

abbrev Bytes := List UInt8

namespace Octets

/-- The number written little endian in a byte string. -/
def ofLittle : Bytes → Nat
  | [] => 0
  | b :: bs => b.toNat + 256 * ofLittle bs

/-- The lowest `size` bytes of a number, least significant first. -/
def toLittle : Nat → Nat → Bytes
  | 0, _ => []
  | size + 1, n => UInt8.ofNat n :: toLittle size (n / 256)

@[simp] theorem length_toLittle (size n : Nat) : (toLittle size n).length = size := by
  induction size generalizing n with
  | zero => rfl
  | succ size ih => simp [toLittle, ih]

theorem ofLittle_toLittle (size n : Nat) : ofLittle (toLittle size n) = n % 256 ^ size := by
  induction size generalizing n with
  | zero => simp [toLittle, ofLittle, Nat.mod_one]
  | succ size ih =>
      have byte : (UInt8.ofNat n).toNat = n % 256 := UInt8.toNat_ofNat'
      simp only [toLittle, ofLittle, ih, byte]
      rw [Nat.pow_succ, Nat.mul_comm (256 ^ size) 256, Nat.mod_mul]

theorem ofLittle_toLittle_of_lt {size n : Nat} (h : n < 256 ^ size) :
    ofLittle (toLittle size n) = n := by
  rw [ofLittle_toLittle, Nat.mod_eq_of_lt h]

theorem ofLittle_lt (bs : Bytes) : ofLittle bs < 256 ^ bs.length := by
  induction bs with
  | nil => simp [ofLittle]
  | cons b bs ih =>
      have hb := b.toNat_lt
      simp only [ofLittle, List.length_cons, Nat.pow_succ]
      omega

theorem ofLittle_lt_of_length_le {bs : Bytes} {size : Nat} (h : bs.length ≤ size) :
    ofLittle bs < 256 ^ size :=
  Nat.lt_of_lt_of_le (ofLittle_lt bs) (Nat.pow_le_pow_right (by omega) h)

/-- Byte strings of one length are told apart by their numbers. -/
theorem ofLittle_inj {a b : Bytes} (hlength : a.length = b.length)
    (h : ofLittle a = ofLittle b) : a = b := by
  induction a generalizing b with
  | nil => exact (List.length_eq_zero_iff.mp hlength.symm).symm
  | cons x a ih =>
      cases b with
      | nil => cases hlength
      | cons y b =>
          have hx := x.toNat_lt
          have hy := y.toNat_lt
          simp only [ofLittle] at h
          have hbyte : x.toNat = y.toNat := by omega
          have hrest : ofLittle a = ofLittle b := by omega
          rw [UInt8.toNat_inj.mp hbyte, ih (Nat.succ.inj hlength) hrest]

/-- `bs` followed by NUL bytes up to `size`. -/
def padTo (size : Nat) (bs : Bytes) : Bytes := bs ++ List.replicate (size - bs.length) 0

theorem length_padTo {size : Nat} {bs : Bytes} (h : bs.length ≤ size) :
    (padTo size bs).length = size := by
  simp [padTo]; omega

/-- The bytes before the first NUL. -/
def uptoNul (bs : Bytes) : Bytes := bs.takeWhile (· != 0)

theorem uptoNul_of_not_mem {bs : Bytes} (h : (0 : UInt8) ∉ bs) : uptoNul bs = bs := by
  rw [uptoNul, List.takeWhile_eq_self_iff]
  intro b hb
  simpa using fun hz : b = 0 => h (hz ▸ hb)

theorem not_mem_uptoNul (bs : Bytes) : (0 : UInt8) ∉ uptoNul bs := by
  intro h
  simpa using List.mem_takeWhile_imp h

theorem uptoNul_append_nul {bs : Bytes} (h : (0 : UInt8) ∉ bs) (rest : Bytes) :
    uptoNul (bs ++ 0 :: rest) = bs := by
  rw [uptoNul, List.takeWhile_append_of_pos]
  · simp
  · intro b hb
    simpa using fun hz : b = 0 => h (hz ▸ hb)

theorem uptoNul_padTo {bs : Bytes} (h : (0 : UInt8) ∉ bs) (size : Nat) :
    uptoNul (padTo size bs) = bs := by
  unfold padTo
  cases hn : size - bs.length with
  | zero => simpa using uptoNul_of_not_mem h
  | succ n => rw [List.replicate_succ]; exact uptoNul_append_nul h _

/-! Text is a list of code points; its wire form is strict UTF-8. -/

abbrev Text := List Char

def encodeUtf8 (s : Text) : Bytes := s.flatMap String.utf8EncodeChar

/-- Fuel counts the characters still to be read; `decodeUtf8` supplies one for
each byte. -/
def decodeUtf8Upto : Nat → Bytes → Option Text
  | _, [] => some []
  | 0, _ :: _ => none
  | fuel + 1, b :: bs =>
      -- an ASCII character is its own byte
      if b < 0x80 then (decodeUtf8Upto fuel bs).map (Char.ofNat b.toNat :: ·)
      else
        match ByteArray.utf8DecodeChar? (ByteArray.mk (b :: bs).toArray) 0 with
        | none => none
        | some c => (decodeUtf8Upto fuel ((b :: bs).drop c.utf8Size)).map (c :: ·)

def decodeUtf8 (bs : Bytes) : Option Text := decodeUtf8Upto bs.length bs

theorem utf8EncodeChar_ascii {c : Char} {b : UInt8} {bs : Bytes}
    (h : String.utf8EncodeChar c = b :: bs) (hb : b < 0x80) :
    Char.ofNat b.toNat = c ∧ bs = [] := by
  have hlt : b.toNat < 0x80 := hb
  -- a first byte of two, three or four has its top bit set
  have hhigh : ∀ n, 0x80 ≤ n → n < 256 → UInt8.ofNat n ≠ b := by
    intro n hn hsize he
    rw [← he, UInt8.toNat_ofNat', Nat.mod_eq_of_lt hsize] at hlt
    omega
  simp only [String.utf8EncodeChar] at h
  split at h
  · rename_i hle
    obtain ⟨hfirst, hrest⟩ := List.cons.inj h
    have hval : b.toNat = c.toNat := by
      rw [← hfirst, UInt8.toNat_ofNat', Nat.mod_eq_of_lt (by omega)]
      rfl
    exact ⟨by rw [hval, Char.ofNat_toNat], hrest.symm⟩
  split at h
  · exact absurd (List.cons.inj h).1 (hhigh _ (by omega) (by omega))
  split at h
  · exact absurd (List.cons.inj h).1 (hhigh _ (by omega) (by omega))
  · exact absurd (List.cons.inj h).1 (hhigh _ (by omega) (by omega))

theorem decodeUtf8Upto_encodeUtf8 (s : Text) (fuel : Nat)
    (h : s.length ≤ fuel) : decodeUtf8Upto fuel (encodeUtf8 s) = some s := by
  induction s generalizing fuel with
  | nil => cases fuel <;> rfl
  | cons c s ih =>
      cases fuel with
      | zero => simp at h
      | succ fuel =>
          have hlen := String.length_utf8EncodeChar c
          have hpos := c.utf8Size_pos
          obtain ⟨b, bs, hc⟩ : ∃ b bs, String.utf8EncodeChar c = b :: bs := by
            cases hc : String.utf8EncodeChar c with
            | nil => simp [hc] at hlen; omega
            | cons b bs => exact ⟨b, bs, rfl⟩
          have hsplit : encodeUtf8 (c :: s) = b :: (bs ++ encodeUtf8 s) := by
            simp [encodeUtf8, hc]
          have hread : ByteArray.utf8DecodeChar?
              (ByteArray.mk (b :: (bs ++ encodeUtf8 s)).toArray) 0 = some c := by
            have := ByteArray.utf8DecodeChar?_utf8EncodeChar_append
              (b := ByteArray.mk (encodeUtf8 s).toArray) (c := c)
            rw [hc] at this
            convert this using 2
            ext1
            simp
          have hdrop : (b :: (bs ++ encodeUtf8 s)).drop c.utf8Size = encodeUtf8 s := by
            rw [← List.cons_append, ← hc, ← hlen, List.drop_left]
          have hrest := ih fuel (by simpa using h)
          rw [hsplit, decodeUtf8Upto]
          by_cases hb : b < 0x80
          · obtain ⟨hchar, rfl⟩ := utf8EncodeChar_ascii hc hb
            rw [if_pos hb, List.nil_append, hrest, hchar]
            rfl
          · simp only [if_neg hb, hread, hdrop, hrest]
            rfl

@[simp] theorem encodeUtf8_append (s t : Text) :
    encodeUtf8 (s ++ t) = encodeUtf8 s ++ encodeUtf8 t := List.flatMap_append

theorem length_le_length_encodeUtf8 (s : Text) : s.length ≤ (encodeUtf8 s).length := by
  induction s with
  | nil => simp
  | cons c s ih =>
      have := c.utf8Size_pos
      simp only [encodeUtf8, List.flatMap_cons, List.length_append,
        String.length_utf8EncodeChar, List.length_cons] at ih ⊢
      omega

theorem decodeUtf8_encodeUtf8 (s : Text) : decodeUtf8 (encodeUtf8 s) = some s :=
  decodeUtf8Upto_encodeUtf8 s _ (length_le_length_encodeUtf8 s)

theorem encodeUtf8_replicate_nul (n : Nat) :
    encodeUtf8 (List.replicate n '\x00') = List.replicate n 0 := by
  induction n with
  | zero => rfl
  | succ n ih =>
      have nul : String.utf8EncodeChar '\x00' = [0] := by decide
      simp only [List.replicate_succ, encodeUtf8, List.flatMap_cons, nul] at ih ⊢
      rw [ih]
      rfl

theorem zero_ne_ofNat {n : Nat} (hpos : 0 < n) (h : n < 256) : (0 : UInt8) ≠ UInt8.ofNat n := by
  intro he
  have hn : (UInt8.ofNat n).toNat = n := by
    rw [UInt8.toNat_ofNat', Nat.mod_eq_of_lt h]
  rw [← he] at hn
  exact absurd hn (Nat.ne_of_lt hpos)

/-- The bytes of a sequence of several: some bits of the character under a mark. -/
theorem zero_ne_marked {v m mark : Nat} (hm : 0 < m) (hmark : 0 < mark) (h : m + mark ≤ 256) :
    (0 : UInt8) ≠ UInt8.ofNat (v % m + mark) := by
  have := Nat.mod_lt v hm
  exact zero_ne_ofNat (by omega) (by omega)

theorem nul_not_mem_utf8EncodeChar {c : Char} (h : c ≠ '\x00') :
    (0 : UInt8) ∉ String.utf8EncodeChar c := by
  have hpos : 0 < c.val.toNat := by
    rw [Nat.pos_iff_ne_zero]
    intro hz
    exact h (Char.ext (UInt32.toNat_inj.mp hz))
  have hcont : ∀ v : Nat, (0 : UInt8) ≠ UInt8.ofNat (v % 64 + 128) := fun v =>
    zero_ne_marked (by decide) (by decide) (by decide)
  simp only [String.utf8EncodeChar]
  split
  · simp only [List.mem_singleton]
    exact zero_ne_ofNat hpos (by omega)
  split
  · simp only [List.mem_cons, List.not_mem_nil, or_false, not_or]
    exact ⟨zero_ne_marked (by decide) (by decide) (by decide), hcont _⟩
  split
  · simp only [List.mem_cons, List.not_mem_nil, or_false, not_or]
    exact ⟨zero_ne_marked (by decide) (by decide) (by decide), hcont _, hcont _⟩
  · simp only [List.mem_cons, List.not_mem_nil, or_false, not_or]
    exact ⟨zero_ne_marked (by decide) (by decide) (by decide), hcont _, hcont _, hcont _⟩

theorem nul_not_mem_encodeUtf8 {s : Text} (h : '\x00' ∉ s) : (0 : UInt8) ∉ encodeUtf8 s := by
  intro hmem
  obtain ⟨c, hc, hbyte⟩ := List.mem_flatMap.mp hmem
  exact nul_not_mem_utf8EncodeChar (fun hz : c = '\x00' => h (hz ▸ hc)) hbyte

theorem uptoNul_encodeUtf8 {s : Text} (h : '\x00' ∉ s) : uptoNul (encodeUtf8 s) = encodeUtf8 s :=
  uptoNul_of_not_mem (nul_not_mem_encodeUtf8 h)

/-- A text padded with NUL bytes on the wire reads back as the text padded with
NUL characters. -/
theorem decodeUtf8_padTo (size : Nat) (s : Text) :
    decodeUtf8 (padTo size (encodeUtf8 s)) =
      some (s ++ List.replicate (size - (encodeUtf8 s).length) '\x00') := by
  rw [padTo, ← encodeUtf8_replicate_nul, ← encodeUtf8_append, decodeUtf8_encodeUtf8]

theorem filter_nul_padded {s : Text} (h : '\x00' ∉ s) (n : Nat) :
    (s ++ List.replicate n '\x00').filter (· ≠ '\x00') = s := by
  rw [List.filter_append, List.filter_replicate_of_neg (by decide), List.append_nil,
    List.filter_eq_self]
  intro c hc
  simpa using fun hz : c = '\x00' => h (hz ▸ hc)

end Octets
