import ESPressioSecurity.Model.Host

namespace ESPressioSecurity

open Framework

/-! The stand-ins of the repository's own tests, with the sizes of the cipher as parameters. -/

namespace TinyCipher

/-- Each byte masked by the key and nonce bytes of its position; key and nonce are used cyclically. -/
def mask (key nonce : Bytes) : Nat → Bytes → Bytes
  | _,[] => []
  | i,b::bs =>
    (b ^^^ key.getD (i%key.length) 0 ^^^ nonce.getD (i%nonce.length) 0)::mask key nonce (i+1) bs

@[simp] theorem mask_length (key nonce : Bytes) (i : Nat) (bs : Bytes) :
    (mask key nonce i bs).length=bs.length := by
  induction bs generalizing i with
  | nil => rfl
  | cons b bs ih => simp [mask,ih]

theorem mask_mask (key nonce : Bytes) (i : Nat) (bs : Bytes) :
    mask key nonce i (mask key nonce i bs)=bs := by
  induction bs generalizing i with
  | nil => rfl
  | cons b bs ih =>
    have head : ∀ x y : UInt8,b ^^^ x ^^^ y ^^^ x ^^^ y=b := by
      intro x y
      rw [UInt8.xor_assoc (b ^^^ x ^^^ y),UInt8.xor_assoc (b ^^^ x),
        UInt8.xor_comm x y,← UInt8.xor_assoc y,UInt8.xor_self,UInt8.zero_xor,UInt8.xor_assoc,
        UInt8.xor_self,UInt8.xor_zero]
    rw [mask,mask,ih,head]

/-- The checksum that fills the tag. -/
def checksum (key aad ciphertext : Bytes) : UInt8 := (aad++ciphertext++key).foldl (· ^^^ ·) 0

end TinyCipher

def TinyCipher (algorithm : AeadAlgorithm) (keySize nonceSize tagSize : Nat) : IAeadCipher where
  algorithm := algorithm
  keySize := keySize
  nonceSize := nonceSize
  tagSize := tagSize
  aeadSeal key nonce aad plaintext tagCapacity :=
    if h : key.length=keySize ∧ nonce.length=nonceSize ∧ tagSize≤tagCapacity then
      let ciphertext := TinyCipher.mask key nonce 0 plaintext
      ⟨true,⟨ciphertext,by simp [ciphertext]⟩,
        ⟨List.replicate tagSize (TinyCipher.checksum key aad ciphertext)++
          List.replicate (tagCapacity-tagSize) 0,by simp; omega⟩⟩
    else ⟨false,⟨List.replicate plaintext.length 0,by simp⟩,⟨List.replicate tagCapacity 0,by simp⟩⟩
  aeadOpen key nonce aad ciphertext tag :=
    if key.length=keySize ∧ nonce.length=nonceSize ∧
        tag=List.replicate tagSize (TinyCipher.checksum key aad ciphertext) then
      ⟨true,⟨TinyCipher.mask key nonce 0 ciphertext,by simp⟩⟩
    else ⟨false,⟨List.replicate ciphertext.length 0,by simp⟩⟩

theorem TinyCipher.opens (algorithm : AeadAlgorithm) (keySize nonceSize tagSize : Nat) :
    OpensSealed (TinyCipher algorithm keySize nonceSize tagSize)
      (TinyCipher algorithm keySize nonceSize tagSize) := by
  intro key nonce aad plaintext ok
  simp only [TinyCipher] at ok ⊢
  split_ifs at ok with h
  have hd : key.length=keySize ∧ nonce.length=nonceSize ∧ tagSize≤tagSize := h
  simp [hd,mask_mask]

theorem TinyCipher.reseals (algorithm : AeadAlgorithm) (keySize nonceSize tagSize : Nat) :
    SealsOpened (TinyCipher algorithm keySize nonceSize tagSize) := by
  intro key nonce aad ciphertext tag length ok
  simp only [TinyCipher] at ok length ⊢
  split_ifs at ok with h
  have hd : key.length=keySize ∧ nonce.length=nonceSize ∧ tagSize≤tagSize :=
    ⟨h.1,h.2.1,le_refl _⟩
  simp only [h]
  simp [hd,mask_mask]

/-- A cipher that opens what a ledger lists and nothing else. -/
def LedgerCipher (cipher : IAeadCipher) (seals : List SealCall) : IAeadCipher where
  algorithm := cipher.algorithm
  keySize := cipher.keySize
  nonceSize := cipher.nonceSize
  tagSize := cipher.tagSize
  aeadSeal := cipher.aeadSeal
  aeadOpen key nonce aad ciphertext tag :=
    match seals.find? (fun call => call.key=key ∧ call.nonce=nonce ∧ call.aad=aad ∧
      call.ciphertext=ciphertext ∧ call.tag=tag) with
    | none => ⟨false,⟨List.replicate ciphertext.length 0,by simp⟩⟩
    | some call =>
      if h : call.plaintext.length=ciphertext.length then ⟨true,⟨call.plaintext,h⟩⟩
      else ⟨false,⟨List.replicate ciphertext.length 0,by simp⟩⟩

theorem LedgerCipher.opens_only {ρ : Type} (host : Host ρ) (seals : List SealCall)
    (h : ∀ algorithm cipher,host.ciphers.find algorithm=some cipher →
      ∃ inner,cipher=LedgerCipher inner seals) : OpensOnly host seals := by
  intro algorithm cipher hc keyID view hv nonce aad ciphertext tag ok
  obtain ⟨inner,rfl⟩ := h algorithm cipher hc
  simp only [LedgerCipher] at ok ⊢
  cases hf : seals.find? (fun call => call.key=view.data ∧ call.nonce=nonce ∧ call.aad=aad ∧
      call.ciphertext=ciphertext ∧ call.tag=tag) with
  | none =>
    rw [hf] at ok
    exact absurd ok (by simp)
  | some call =>
    rw [hf] at ok
    have hm := List.mem_of_find?_eq_some hf
    have hp := List.find?_some hf
    simp only [decide_eq_true_eq] at hp
    by_cases hl : call.plaintext.length=ciphertext.length
    · exact ⟨call,hm,hp.1,hp.2.1,hp.2.2.1,hp.2.2.2.1,hp.2.2.2.2,by simp [hl]⟩
    · simp [hl] at ok

/-- `DeterministicRandom`: the bytes count up. -/
def countUp : UInt8 → Nat → Bytes
  | _,0 => []
  | b,n+1 => b::countUp (b+1) n

theorem countUp_length (b : UInt8) (n : Nat) : (countUp b n).length=n := by
  induction n generalizing b with
  | zero => rfl
  | succ n ih => simp [countUp,ih]

def DeterministicRandom : IRandomSource UInt8 where
  fill next size := ⟨true,⟨countUp next size,countUp_length next size⟩,next+UInt8.ofNat size⟩

/-- The surroundings of the tests: one registered cipher, one stored key. -/
def testHost (cipher : IAeadCipher) (keyID : UInt32) (key : Bytes) : Host UInt8 where
  ciphers := (AeadCipherRegistry.empty.register cipher).2
  keys := (StaticKeyProvider.empty.add {} keyID cipher.algorithm (.bytes key)).2.toProvider
  random := DeterministicRandom
  allocates _ := true
  sizeBits := 64

theorem testHost_find {cipher c : IAeadCipher} {keyID : UInt32} {key : Bytes} {a : AeadAlgorithm}
    (h : (testHost cipher keyID key).ciphers.find a=some c) : c=cipher := by
  have hm := (KeyedTable.lookup_key _ h).1
  have only : (testHost cipher keyID key).ciphers.ciphers=[cipher] := rfl
  rw [only,List.mem_singleton] at hm
  exact hm

theorem testHost_opens_only (cipher : IAeadCipher) (seals : List SealCall) (keyID : UInt32)
    (key : Bytes) : OpensOnly (testHost (LedgerCipher cipher seals) keyID key) seals := by
  apply LedgerCipher.opens_only
  intro a c h
  exact ⟨cipher,testHost_find h⟩

end ESPressioSecurity
