import Mathlib.Data.Fintype.EquivFin
import Mathlib.Logic.Equiv.Basic
import SecureTransfer.Library.Octets

/-!
PKCS#7 padding and cipher block chaining with blocks of sixteen bytes, over an
arbitrary block cipher. A block cipher is a pair of maps on blocks, the second
undoing the first under the same key.
-/

namespace BlockMode

structure BlockCipher where
  encrypt : Bytes → Bytes → Bytes
  decrypt : Bytes → Bytes → Bytes
  length_encrypt : ∀ key block, block.length = 16 →
    (encrypt key block).length = 16
  decrypt_encrypt : ∀ key block, block.length = 16 →
    decrypt key (encrypt key block) = block

/-- The cipher that leaves blocks as they are. -/
def idCipher : BlockCipher := ⟨fun _ block => block, fun _ block => block,
  fun _ _ h => h, fun _ _ _ => rfl⟩

/-- The cipher that exchanges two blocks under one key. -/
def swapCipher (key a b : Bytes) (ha : a.length = 16) (hb : b.length = 16) : BlockCipher where
  encrypt := fun k block => if k = key then Equiv.swap a b block else block
  decrypt := fun k block => if k = key then Equiv.swap a b block else block
  length_encrypt := by
    intro k block h
    split
    · rw [Equiv.swap_apply_def]
      split
      · exact hb
      split
      · exact ha
      · exact h
    · exact h
  decrypt_encrypt := by
    intro k block _
    by_cases hk : k = key
    · simp only [hk, if_true]
      exact Equiv.swap_apply_self a b block
    · simp only [hk, if_false]

theorem finite_blocks : Finite { block : Bytes // block.length = 16 } := by
  have hlt : ∀ v : { block : Bytes // block.length = 16 }, Octets.ofLittle v.1 < 256 ^ 16 :=
    fun v => Octets.ofLittle_lt_of_length_le (Nat.le_of_eq v.2)
  refine Finite.of_injective (fun v => (⟨Octets.ofLittle v.1, hlt v⟩ : Fin (256 ^ 16))) ?_
  intro v w h
  exact Subtype.ext (Octets.ofLittle_inj (v.2.trans w.2.symm) (Fin.mk.inj h))

/-- There are finitely many blocks, so every block is the encryption of one. -/
theorem BlockCipher.length_decrypt (c : BlockCipher) (key : Bytes) {block : Bytes}
    (h : block.length = 16) : (c.decrypt key block).length = 16 := by
  have hfinite := finite_blocks
  let f : { block : Bytes // block.length = 16 } → { block : Bytes // block.length = 16 } :=
    fun v => ⟨c.encrypt key v.1, c.length_encrypt key v.1 v.2⟩
  have hf : Function.Injective f := by
    intro v w hvw
    have hdecrypt := congrArg (fun u => c.decrypt key u.1) hvw
    simp only [f, c.decrypt_encrypt key _ v.2, c.decrypt_encrypt key _ w.2] at hdecrypt
    exact Subtype.ext hdecrypt
  obtain ⟨v, hv⟩ := Finite.surjective_of_injective hf ⟨block, h⟩
  have hblock : c.encrypt key v.1 = block := congrArg Subtype.val hv
  rw [← hblock, c.decrypt_encrypt key _ v.2]
  exact v.2

def xor (a b : Bytes) : Bytes := List.zipWith (· ^^^ ·) a b

theorem length_xor (a b : Bytes) : (xor a b).length = min a.length b.length := by
  simp [xor]

theorem xor_xor_self {a b : Bytes} (h : a.length = b.length) : xor a (xor a b) = b := by
  induction a generalizing b with
  | nil => cases b <;> simp_all [xor]
  | cons x a ih =>
      cases b with
      | nil => simp at h
      | cons y b =>
          have := ih (b := b) (by simpa using h)
          simp only [xor, List.zipWith_cons_cons] at this ⊢
          rw [this, ← UInt8.xor_assoc, UInt8.xor_self, UInt8.zero_xor]

/-- Chain `n` blocks of `plain`, each masked with the ciphertext block before it. -/
def chainEncrypt (enc : Bytes → Bytes) : Nat → Bytes → Bytes → Bytes
  | 0, _, _ => []
  | n + 1, mask, plain =>
      let block := enc (xor mask (plain.take 16))
      block ++ chainEncrypt enc n block (plain.drop 16)

def chainDecrypt (dec : Bytes → Bytes) : Nat → Bytes → Bytes → Bytes
  | 0, _, _ => []
  | n + 1, mask, cipher =>
      let block := cipher.take 16
      xor mask (dec block) ++ chainDecrypt dec n block (cipher.drop 16)

theorem length_chainEncrypt (c : BlockCipher) (key : Bytes) (n : Nat) (mask plain : Bytes)
    (hm : mask.length = 16) (hp : plain.length = n * 16) :
    (chainEncrypt (c.encrypt key) n mask plain).length = n * 16 := by
  induction n generalizing mask plain with
  | zero => rfl
  | succ n ih =>
      have hx : (xor mask (plain.take 16)).length = 16 := by
        rw [length_xor, hm, List.length_take]; omega
      have hb := c.length_encrypt key _ hx
      simp only [chainEncrypt, List.length_append]
      rw [ih _ _ hb (by rw [List.length_drop]; omega), hb]
      omega

theorem chainDecrypt_chainEncrypt (c : BlockCipher) (key : Bytes) (n : Nat)
    (mask plain : Bytes) (hm : mask.length = 16)
    (hp : plain.length = n * 16) :
    chainDecrypt (c.decrypt key) n mask (chainEncrypt (c.encrypt key) n mask plain) = plain := by
  induction n generalizing mask plain with
  | zero =>
      have : plain = [] := List.eq_nil_of_length_eq_zero (by omega)
      rw [this]; rfl
  | succ n ih =>
      have ht : (plain.take 16).length = 16 := by
        rw [List.length_take]; omega
      have hx : (xor mask (plain.take 16)).length = 16 := by
        rw [length_xor, hm, ht]; omega
      have hb := c.length_encrypt key _ hx
      simp only [chainEncrypt, chainDecrypt]
      rw [List.take_left' hb, List.drop_left' hb, c.decrypt_encrypt key _ hx,
        xor_xor_self (by rw [hm, ht]), ih _ _ hb (by rw [List.length_drop]; omega),
        List.take_append_drop]

theorem length_chainDecrypt (c : BlockCipher) (key : Bytes) (n : Nat) (mask cipher : Bytes)
    (hm : mask.length = 16) (hc : cipher.length = n * 16) :
    (chainDecrypt (c.decrypt key) n mask cipher).length = n * 16 := by
  induction n generalizing mask cipher with
  | zero => rfl
  | succ n ih =>
      have ht : (cipher.take 16).length = 16 := by
        rw [List.length_take]; omega
      simp only [chainDecrypt, List.length_append, length_xor, c.length_decrypt key ht]
      rw [ih _ _ ht (by rw [List.length_drop]; omega), hm]
      omega

/-- The initial block of zeros both programs use. -/
def zeroBlock : Bytes := List.replicate 16 0

def padding (plain : Bytes) : Bytes :=
  let n := 16 - plain.length % 16
  List.replicate n (UInt8.ofNat n)

/-- Remove PKCS#7 padding; `none` where the padding is malformed. -/
def unpad (padded : Bytes) : Option Bytes :=
  match padded.getLast? with
  | none => none
  | some last =>
      let n := last.toNat
      if padded.length % 16 ≠ 0 ∨ n < 1 ∨ min 16 padded.length < n then none
      else if padded.drop (padded.length - n) = List.replicate n last then
        some (padded.take (padded.length - n))
      else none

theorem length_append_padding (plain : Bytes) :
    (plain ++ padding plain).length = (plain.length / 16 + 1) * 16 := by
  simp only [padding, List.length_append, List.length_replicate]
  omega

theorem unpad_append_padding (plain : Bytes) : unpad (plain ++ padding plain) = some plain := by
  obtain ⟨n, hn, hpos, hle⟩ : ∃ n, n = 16 - plain.length % 16 ∧ 0 < n ∧ n ≤ 16 :=
    ⟨_, rfl, by omega, by omega⟩
  have hbyte : (UInt8.ofNat n).toNat = n := by
    rw [UInt8.toNat_ofNat', Nat.mod_eq_of_lt (by omega)]
  have hpad : padding plain = List.replicate n (UInt8.ofNat n) := by rw [padding, ← hn]
  have hlast : (plain ++ padding plain).getLast? = some (UInt8.ofNat n) := by
    obtain ⟨m, rfl⟩ : ∃ m, n = m + 1 := ⟨n - 1, by omega⟩
    rw [hpad, List.replicate_succ']
    simp
  have hlen : (plain ++ padding plain).length = plain.length + n := by
    rw [hpad]; simp
  have hdrop : plain.length + n - n = plain.length := by omega
  simp only [unpad, hlast, hbyte, hlen, hdrop]
  rw [if_neg (by omega), hpad, List.drop_left, if_pos rfl, List.take_left]

theorem length_of_unpad {padded plain : Bytes} (h : unpad padded = some plain) :
    padded.length = (plain.length / 16 + 1) * 16 := by
  simp only [unpad] at h
  split at h
  · cases h
  · rename_i last hlast
    split at h
    · cases h
    · rename_i hbounds
      split at h
      · have hplain := congrArg List.length (Option.some.inj h)
        rw [List.length_take] at hplain
        omega
      · cases h

def cbcEncrypt (c : BlockCipher) (key plain : Bytes) : Bytes :=
  chainEncrypt (c.encrypt key) (plain.length / 16 + 1) zeroBlock (plain ++ padding plain)

/-- Decrypt whole blocks and remove the padding; `none` where the input does not
consist of whole blocks or its padding is malformed. -/
def cbcDecrypt (c : BlockCipher) (key cipher : Bytes) : Option Bytes :=
  if cipher.length % 16 = 0 then
    unpad (chainDecrypt (c.decrypt key) (cipher.length / 16) zeroBlock cipher)
  else none

theorem length_cbcEncrypt (c : BlockCipher) (key plain : Bytes) :
    (cbcEncrypt c key plain).length = (plain.length / 16 + 1) * 16 :=
  length_chainEncrypt c key _ _ _ (by simp [zeroBlock]) (length_append_padding plain)

/-- The size of a ciphertext is determined by what it decrypts to. -/
theorem length_of_cbcDecrypt {c : BlockCipher} {key cipher plain : Bytes}
    (h : cbcDecrypt c key cipher = some plain) :
    cipher.length = (plain.length / 16 + 1) * 16 := by
  rw [cbcDecrypt] at h
  split at h
  · rename_i hblocks
    have hlength : cipher.length = cipher.length / 16 * 16 := by omega
    rw [← length_of_unpad h, length_chainDecrypt c key _ _ _ (by simp [zeroBlock]) hlength]
    exact hlength
  · cases h

theorem cbcDecrypt_cbcEncrypt (c : BlockCipher) (key plain : Bytes) :
    cbcDecrypt c key (cbcEncrypt c key plain) = some plain := by
  have hlen := length_cbcEncrypt c key plain
  have hblocks : (cbcEncrypt c key plain).length / 16 = plain.length / 16 + 1 := by
    rw [hlen]; omega
  rw [cbcDecrypt, if_pos (by rw [hlen]; omega), hblocks, cbcEncrypt,
    chainDecrypt_chainEncrypt c key _ _ _ (by simp [zeroBlock]) (length_append_padding plain),
    unpad_append_padding]

end BlockMode
