import Mathlib.Tactic.Common

/-!
Cyclic redundancy checks, bit by bit: a register of `w` bits to which a message is fed,
most significant bits first. Feeding is linear, so eight bits can be fed by one lookup in
a table; and if the polynomial has its lowest bit, no two registers and no two short
messages are confused.
-/

namespace Crc

variable {w : Nat} (poly : BitVec w)

def feed (r : BitVec w) (m : Bool) : BitVec w :=
  (r <<< 1) ^^^ if r.msb ^^ m then poly else 0

/-- The bits of a byte, most significant first. -/
def bits (b : UInt8) : List Bool := (List.range 8).map fun i => b.toNat.testBit (7 - i)

def feedByte (r : BitVec w) (b : UInt8) : BitVec w := (bits b).foldl (feed poly) r

def register (message : List UInt8) : BitVec w := message.foldl (feedByte poly) 0

theorem length_bits (b : UInt8) : (bits b).length = 8 := rfl

theorem bits_injective {a b : UInt8} (h : bits a = bits b) : a = b := by
  apply UInt8.toNat_inj.mp
  apply Nat.eq_of_testBit_eq
  intro i
  by_cases hi : i < 8
  · have hbit := congrArg (·[7 - i]?) h
    have hlt : 7 - i < 8 := by omega
    simp only [bits, List.getElem?_map, List.getElem?_range hlt, Option.map_some,
      Option.some.injEq] at hbit
    rwa [show 7 - (7 - i) = i by omega] at hbit
  · have hbound : ∀ c : UInt8, c.toNat.testBit i = false := fun c =>
      Nat.testBit_lt_two_pow (Nat.lt_of_lt_of_le c.toNat_lt (Nat.pow_le_pow_right (by decide)
        (by omega : 8 ≤ i)))
    rw [hbound, hbound]

/-! Feeding is linear in the register and the message together. -/

theorem feed_xor (r s : BitVec w) (m n : Bool) :
    feed poly (r ^^^ s) (m ^^ n) = feed poly r m ^^^ feed poly s n := by
  have hcoefficient : ∀ a b : Bool, (if a ^^ b then poly else 0) =
      (if a then poly else 0) ^^^ (if b then poly else 0) := by
    intro a b
    cases a <;> cases b <;> simp
  have hbit : ((r ^^^ s).msb ^^ (m ^^ n)) = ((r.msb ^^ m) ^^ (s.msb ^^ n)) := by
    rw [BitVec.msb_xor]
    cases r.msb <;> cases s.msb <;> cases m <;> cases n <;> rfl
  rw [feed, hbit, hcoefficient, BitVec.shiftLeft_xor_distrib, feed, feed]
  ac_rfl

theorem foldl_feed_xor (r s : BitVec w) {ms ns : List Bool} (h : ms.length = ns.length) :
    (List.zipWith xor ms ns).foldl (feed poly) (r ^^^ s) =
      ms.foldl (feed poly) r ^^^ ns.foldl (feed poly) s := by
  induction ms generalizing r s ns with
  | nil =>
      obtain rfl := List.eq_nil_of_length_eq_zero h.symm
      rfl
  | cons m ms ih =>
      cases ns with
      | nil => cases h
      | cons n ns =>
          simp only [List.zipWith_cons_cons, List.foldl_cons]
          rw [feed_xor]
          exact ih _ _ (Nat.succ.inj h)

/-- The message that does to an empty register what `ms` does to the top bits of `r`. -/
def against (r : BitVec w) (ms : List Bool) : List Bool := ms.mapIdx fun i m => r.getMsbD i ^^ m

@[simp] theorem against_nil (r : BitVec w) : against r [] = [] := rfl

@[simp] theorem against_cons (r : BitVec w) (m : Bool) (ms : List Bool) :
    against r (m :: ms) = (r.msb ^^ m) :: against (r <<< 1) ms := by
  simp [against, List.mapIdx_cons, BitVec.msb]

@[simp] theorem length_against (r : BitVec w) (ms : List Bool) :
    (against r ms).length = ms.length := List.length_mapIdx

theorem against_zero (ms : List Bool) : against (0#w) ms = ms := by
  induction ms with
  | nil => rfl
  | cons m ms ih => simp [ih]

theorem zipWith_xor_false (ms : List Bool) :
    List.zipWith xor ms (List.replicate ms.length false) = ms := by
  induction ms with
  | nil => rfl
  | cons m ms ih => simp [List.replicate_succ, ih]

/-- The part `s` of a register goes its way without the message. -/
theorem foldl_feed_split (r s : BitVec w) (ms : List Bool) :
    ms.foldl (feed poly) (r ^^^ s) =
      ms.foldl (feed poly) r ^^^ (List.replicate ms.length false).foldl (feed poly) s := by
  have h := @foldl_feed_xor w poly r s ms (List.replicate ms.length false) (by simp)
  rwa [zipWith_xor_false] at h

/-- What the register holds at the top goes into the message, the rest moves up. -/
theorem foldl_feed (r : BitVec w) (ms : List Bool) :
    ms.foldl (feed poly) r = (r <<< ms.length) ^^^ (against r ms).foldl (feed poly) 0 := by
  induction ms generalizing r with
  | nil => simp
  | cons m ms ih =>
      have hsplit : feed poly r m = (r <<< 1) ^^^ feed poly 0 (r.msb ^^ m) := by
        simp [feed]
      have hempty : feed poly 0 (r.msb ^^ m) = 0 ^^^ feed poly 0 (r.msb ^^ m) :=
        (BitVec.zero_xor).symm
      have hrest := foldl_feed_split poly 0 (feed poly 0 (r.msb ^^ m)) (against (r <<< 1) ms)
      rw [length_against, ← hempty] at hrest
      have hmove : r <<< (m :: ms).length = r <<< 1 <<< ms.length := by
        rw [← BitVec.shiftLeft_add, List.length_cons, Nat.add_comm]
      calc (m :: ms).foldl (feed poly) r
        _ = ms.foldl (feed poly) ((r <<< 1) ^^^ feed poly 0 (r.msb ^^ m)) := by
            rw [List.foldl_cons, hsplit]
        _ = ((r <<< 1 <<< ms.length) ^^^ (against (r <<< 1) ms).foldl (feed poly) 0) ^^^
              (List.replicate ms.length false).foldl (feed poly) (feed poly 0 (r.msb ^^ m)) := by
            rw [foldl_feed_split, ih]
        _ = (r <<< (m :: ms).length) ^^^ (against r (m :: ms)).foldl (feed poly) 0 := by
            rw [BitVec.xor_assoc, ← hrest, hmove, against_cons, List.foldl_cons]

/-! One lookup feeds a byte. -/

/-- The top byte of the register. -/
def top (r : BitVec w) : UInt8 := UInt8.ofNat (r.toNat >>> (w - 8))

theorem against_bits (hw : 8 ≤ w) (r : BitVec w) (b : UInt8) :
    against r (bits b) = bits (top r ^^^ b) := by
  have htop : ∀ i < 8, r.getMsbD i = (top r).toNat.testBit (7 - i) := by
    intro i hi
    have hlt : r.toNat >>> (w - 8) < 256 := by
      rw [Nat.shiftRight_eq_div_pow, Nat.div_lt_iff_lt_mul (Nat.two_pow_pos _)]
      calc r.toNat < 2 ^ w := r.isLt
        _ = 256 * 2 ^ (w - 8) := by
          rw [show (256 : Nat) = 2 ^ 8 by rfl, ← Nat.pow_add]
          congr 1
          omega
    rw [top, UInt8.toNat_ofNat', Nat.mod_eq_of_lt hlt, Nat.testBit_shiftRight,
      BitVec.getMsbD_eq_getLsbD, BitVec.getLsbD, show w - 8 + (7 - i) = w - 1 - i by omega]
    simp only [Bool.and_eq_right_iff_imp, decide_eq_true_eq]
    omega
  apply List.ext_getElem
  · simp [length_bits]
  · intro i hi hi'
    rw [length_bits] at hi'
    simp [against, bits, htop i hi']

/-- A register and a byte by the table of what every byte does to an empty register. -/
theorem feedByte_table (hw : 8 ≤ w) (r : BitVec w) (b : UInt8) :
    feedByte poly r b = (r <<< 8) ^^^ feedByte poly 0 (top r ^^^ b) := by
  rw [feedByte, foldl_feed, against_bits hw, length_bits, feedByte]

theorem eq_of_zipWith_xor {ms ns : List Bool} (hlen : ms.length = ns.length)
    (h : List.zipWith xor ms ns = List.replicate ms.length false) : ms = ns := by
  induction ms generalizing ns with
  | nil => exact (List.eq_nil_of_length_eq_zero hlen.symm).symm
  | cons m ms ih =>
      cases ns with
      | nil => cases hlen
      | cons n ns =>
          simp only [List.zipWith_cons_cons, List.length_cons, List.replicate_succ,
            List.cons.injEq] at h
          rw [ih (Nat.succ.inj hlen) h.2, show m = n by simpa using h.1]

/-! With the lowest bit of the polynomial set, what has been fed can be told from the
register. -/

section
variable {poly} (hpoly : poly.getLsbD 0 = true)
include hpoly

theorem feed_getLsbD_zero (r : BitVec w) (m : Bool) :
    (feed poly r m).getLsbD 0 = (r.msb ^^ m) := by
  rw [feed, BitVec.getLsbD_xor, BitVec.getLsbD_shiftLeft]
  cases r.msb ^^ m <;> simp [hpoly]

theorem eq_of_feed_eq {r s : BitVec w} {m : Bool} (h : feed poly r m = feed poly s m) :
    r = s := by
  have hbit := congrArg (·.getLsbD 0) h
  simp only [feed_getLsbD_zero hpoly] at hbit
  have hmsb : r.msb = s.msb := by simpa using hbit
  rw [feed, feed, hmsb] at h
  have hshift : r <<< 1 = s <<< 1 := (BitVec.xor_left_inj _).mp h
  apply BitVec.eq_of_getMsbD_eq
  intro i _
  cases i with
  | zero => exact hmsb
  | succ i =>
      have hnext := congrArg (·.getMsbD i) hshift
      simpa only [BitVec.getMsbD_shiftLeft] using hnext

theorem eq_of_foldl_feed_eq {r s : BitVec w} (ms : List Bool)
    (h : ms.foldl (feed poly) r = ms.foldl (feed poly) s) : r = s := by
  induction ms generalizing r s with
  | nil => exact h
  | cons m ms ih => exact eq_of_feed_eq hpoly (ih h)

/-- An empty register after at most `w` bits: they are what the register held at the
top. -/
theorem against_of_foldl_feed_eq_zero {ms : List Bool} (hlen : ms.length ≤ w) {r : BitVec w}
    (h : ms.foldl (feed poly) r = 0) :
    r <<< ms.length = 0 ∧ against r ms = List.replicate ms.length false := by
  induction ms generalizing r with
  | nil => exact ⟨by simpa using h, rfl⟩
  | cons m ms ih =>
      rw [List.length_cons] at hlen
      obtain ⟨hshift, hagainst⟩ := ih (by omega) h
      have hbit := congrArg (·.getLsbD ms.length) hshift
      have hlt : ms.length < w := by omega
      simp only [BitVec.getLsbD_shiftLeft, hlt, Nat.sub_self, Nat.lt_irrefl, decide_true,
        decide_false, Bool.not_false, Bool.true_and] at hbit
      rw [feed_getLsbD_zero hpoly] at hbit
      have hfirst : (r.msb ^^ m) = false := by simpa using hbit
      have hfeed : feed poly r m = r <<< 1 := by simp [feed, hfirst]
      rw [hfeed] at hshift hagainst
      constructor
      · rw [List.length_cons, Nat.add_comm, BitVec.shiftLeft_add]
        exact hshift
      · rw [against_cons, hfirst, hagainst, List.length_cons, List.replicate_succ]

/-- Two messages of the same length, at most that of the register. -/
theorem eq_of_foldl_feed_eq_message {ms ns : List Bool} (hlen : ms.length = ns.length)
    (hw : ms.length ≤ w) {r : BitVec w}
    (h : ms.foldl (feed poly) r = ns.foldl (feed poly) r) : ms = ns := by
  have hzero : (List.zipWith xor ms ns).foldl (feed poly) 0#w = 0 := by
    have hxor := foldl_feed_xor poly r r hlen
    rwa [h, BitVec.xor_self, BitVec.xor_self] at hxor
  have hlength : (List.zipWith xor ms ns).length = ms.length := by simp [hlen]
  have hnone := (against_of_foldl_feed_eq_zero hpoly (hlength ▸ hw) hzero).2
  rw [against_zero, hlength] at hnone
  exact eq_of_zipWith_xor hlen hnone

end

theorem foldl_feedByte (r : BitVec w) (message : List UInt8) :
    message.foldl (feedByte poly) r = (message.flatMap bits).foldl (feed poly) r := by
  rw [List.foldl_flatMap]
  rfl

theorem length_flatMap_bits (message : List UInt8) :
    (message.flatMap bits).length = 8 * message.length := by
  induction message with
  | nil => rfl
  | cons b message ih =>
      rw [List.flatMap_cons, List.length_append, ih, length_bits, List.length_cons]
      omega

theorem flatMap_bits_injective {xs ys : List UInt8} (hlen : xs.length = ys.length)
    (h : xs.flatMap bits = ys.flatMap bits) : xs = ys := by
  induction xs generalizing ys with
  | nil => exact (List.eq_nil_of_length_eq_zero hlen.symm).symm
  | cons x xs ih =>
      cases ys with
      | nil => cases hlen
      | cons y ys =>
          rw [List.flatMap_cons, List.flatMap_cons] at h
          obtain ⟨hx, hxs⟩ := List.append_inj h (by rw [length_bits, length_bits])
          rw [bits_injective hx, ih (Nat.succ.inj hlen) hxs]

/-- Messages that differ in a window not longer than the register are told apart. -/
theorem register_window (hpoly : poly.getLsbD 0 = true) {before xs ys after : List UInt8}
    (hlen : xs.length = ys.length) (hw : 8 * xs.length ≤ w) (hne : xs ≠ ys) :
    register poly (before ++ xs ++ after) ≠ register poly (before ++ ys ++ after) := by
  intro h
  simp only [register, List.foldl_append, foldl_feedByte] at h
  have hwindow := eq_of_foldl_feed_eq hpoly _ h
  have hbits := eq_of_foldl_feed_eq_message hpoly
    (by rw [length_flatMap_bits, length_flatMap_bits, hlen])
    (by rwa [length_flatMap_bits]) hwindow
  exact hne (flatMap_bits_injective hlen hbits)

end Crc
