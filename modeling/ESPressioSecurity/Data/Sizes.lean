import ESPressioSecurity.Data.Protect
import ESPressioSecurity.Model.TestDoubles

namespace ESPressioSecurity

open Framework

namespace DataProtector

variable {ρ : Type}

/-- Every size fits the header field it is written to. -/
structure Fits (cipher : IAeadCipher) (plaintext : Span) : Prop where
  nonce : cipher.nonceSize≤0xFFFF
  tag : cipher.tagSize≤0xFFFF
  plaintext : plaintext.size≤0xFFFFFFFF

/-- The sizes a reader decodes are the sizes that were used. -/
def SizesDecoded (cipher : IAeadCipher) (plaintext : Span) (output : Bytes) : Prop :=
  ∃ h,readHeader output=some h ∧ h.nonceSize.toNat=cipher.nonceSize ∧
    h.tagSize.toNat=cipher.tagSize ∧ h.plaintextSize.toNat=plaintext.size

/-- A truncating cast keeps a number exactly when the number fits. -/
theorem ofNat16_toNat (n : Nat) : (UInt16.ofNat n).toNat=n ↔ n≤0xFFFF := by
  show n%65536=n ↔ n≤65535
  omega

theorem ofNat32_toNat (n : Nat) : (UInt32.ofNat n).toNat=n ↔ n≤0xFFFFFFFF := by
  show n%4294967296=n ↔ n≤4294967295
  omega

theorem Emits.decoded_iff {host : Host ρ} {d : DataProtector} {r : ρ} {plaintext context : Span}
    {cipher : IAeadCipher} {key : KeyMaterialView} {f : Frame}
    (emits : Emits host d r plaintext context cipher key f) :
    SizesDecoded cipher plaintext f.bytes ↔ Fits cipher plaintext := by
  have hk : f.header.keyID≠0 := by
    rw [emits.header]
    exact emits.ready.keyID
  have hr := f.readHeader_bytes hk
  rw [SizesDecoded,hr,emits.header]
  simp only [Option.some.injEq,exists_eq_left',outboundHeader,ofNat16_toNat,ofNat32_toNat]
  constructor
  · intro ⟨hn,ht,hp⟩
    exact ⟨hn,ht,hp⟩
  · intro h
    exact ⟨h.nonce,h.tag,h.plaintext⟩

/-- The encoder keeps its word about the sizes of a call: a success states them in the header, and sizes
that do not fit the header are refused. -/
def Honest (host : Host ρ) (d : DataProtector) (r : ρ) (plaintext context : Span)
    (cipher : IAeadCipher) : Prop :=
  ((protect host d r plaintext context).result.success=true →
    SizesDecoded cipher plaintext (protect host d r plaintext context).output) ∧
  (¬Fits cipher plaintext → (protect host d r plaintext context).result.success=false)

theorem decoded_iff {host : Host ρ} {d : DataProtector} {r : ρ} {plaintext context : Span}
    {cipher : IAeadCipher} (found : host.ciphers.find d.config.algorithm=some cipher)
    (ok : (protect host d r plaintext context).result.success=true) :
    SizesDecoded cipher plaintext (protect host d r plaintext context).output ↔
      Fits cipher plaintext := by
  obtain ⟨cipher',key,f,emits,out,_⟩ := protect_success ok
  obtain rfl := Option.some.inj (found.symm.trans emits.ready.cipher_found)
  rw [out]
  exact emits.decoded_iff

theorem honest_iff {host : Host ρ} {d : DataProtector} {r : ρ} {plaintext context : Span}
    {cipher : IAeadCipher} (found : host.ciphers.find d.config.algorithm=some cipher)
    (ok : (protect host d r plaintext context).result.success=true) :
    Honest host d r plaintext context cipher ↔ Fits cipher plaintext := by
  constructor
  · intro ⟨decoded,_⟩
    exact (decoded_iff found ok).mp (decoded ok)
  · intro fits
    exact ⟨fun _ => (decoded_iff found ok).mpr fits,fun big => absurd fits big⟩

/-- Sizes that fit are never misstated. -/
theorem Fits.honest {cipher : IAeadCipher} {d : DataProtector}
    (nonce : cipher.nonceSize≤0xFFFF) (tag : cipher.tagSize≤0xFFFF)
    (limit : d.config.maximumPlaintextBytes≤0xFFFFFFFF) {host : Host ρ} {r : ρ}
    {plaintext context : Span} (found : host.ciphers.find d.config.algorithm=some cipher) :
    Honest host d r plaintext context cipher := by
  cases ok : (protect host d r plaintext context).result.success with
  | false => exact ⟨fun success => absurd (ok.symm.trans success) (by decide),fun _ => ok⟩
  | true =>
    obtain ⟨_,_,_,emits,_,_⟩ := protect_success ok
    exact (honest_iff found ok).mpr ⟨nonce,tag,emits.ready.bounded.trans limit⟩

/-- The tests' cipher, with any sizes, seals a payload of any length within the limit. -/
theorem tiny_proceeds (nonceSize tagSize : Nat) (p : Bytes) (d : DataProtector)
    (hd : d.config.algorithm=.testOnly) (hk : d.config.keyID=1)
    (hp : p.length≤d.config.maximumPlaintextBytes) :
    Proceeds (testHost (TinyCipher .testOnly 2 nonceSize tagSize) 1 [1,2]) d 1 (.bytes p) (.bytes [])
      (TinyCipher .testOnly 2 nonceSize tagSize) := by
  have filled : (DeterministicRandom.fill 1 nonceSize).bytes.val.length=nonceSize :=
    (DeterministicRandom.fill 1 nonceSize).bytes.property
  refine ⟨⟨1,[1,2]⟩,⟨rfl,rfl,?_,hp,?_,?_,rfl⟩,rfl,?_⟩
  · rw [hk]
    decide
  · rw [hd]
    rfl
  · rw [hd,hk]
    rfl
  · simp [TinyCipher,testHost,filled]

/-- Among the ciphers of the given sizes is one that seals all that the limit lets through. -/
theorem tiny_honest {nonceSize tagSize limit : Nat}
    (honest : ∀ (host : Host UInt8) (d : DataProtector) (r : UInt8) (plaintext context : Span)
      (cipher : IAeadCipher),host.sizeBits=64 → host.ciphers.find d.config.algorithm=some cipher →
      cipher.nonceSize=nonceSize → cipher.tagSize=tagSize →
      d.config.maximumPlaintextBytes=limit → Honest host d r plaintext context cipher)
    (p : Bytes) (bounded : p.length≤limit) :
    Fits (TinyCipher .testOnly 2 nonceSize tagSize) (.bytes p) := by
  let d : DataProtector := ⟨{algorithm := .testOnly,maximumPlaintextBytes := limit}⟩
  have found : (testHost (TinyCipher .testOnly 2 nonceSize tagSize) 1 [1,2]).ciphers.find
      d.config.algorithm=some (TinyCipher .testOnly 2 nonceSize tagSize) := rfl
  have ok := (proceeds_iff found).mpr (tiny_proceeds nonceSize tagSize p d rfl rfl bounded)
  exact (honest_iff found ok).mp (honest _ d 1 (.bytes p) (.bytes []) _ rfl found rfl rfl rfl)

/-- A successful `Protect` keeps its word about the sizes exactly when they fit the header. Over all
calls under one limit with ciphers of some sizes it does so exactly when these sizes and the limit fit;
they are taken small enough for an envelope of 2³² bytes to be an object in memory. -/
theorem sizes_honest_iff :
    (∀ (host : Host ρ) (d : DataProtector) (r : ρ) (plaintext context : Span) (cipher : IAeadCipher),
      host.ciphers.find d.config.algorithm=some cipher →
      (protect host d r plaintext context).result.success=true →
      (Honest host d r plaintext context cipher ↔ Fits cipher plaintext)) ∧
    (∀ nonceSize tagSize limit,
      headerSize+nonceSize+tagSize+2^32≤SecurityBuffer.maxSize 64 →
      ((∀ (σ : Type) (host : Host σ) (d : DataProtector) (r : σ) (plaintext context : Span)
          (cipher : IAeadCipher),host.sizeBits=64 →
          host.ciphers.find d.config.algorithm=some cipher → cipher.nonceSize=nonceSize →
          cipher.tagSize=tagSize → d.config.maximumPlaintextBytes=limit →
          Honest host d r plaintext context cipher) ↔
        nonceSize≤0xFFFF ∧ tagSize≤0xFFFF ∧ limit≤0xFFFFFFFF)) := by
  refine ⟨fun _ _ _ _ _ _ found ok => honest_iff found ok,?_⟩
  intro nonceSize tagSize limit _
  constructor
  · intro honest
    have empty := tiny_honest (honest UInt8) [] (Nat.zero_le limit)
    refine ⟨empty.nonce,empty.tag,?_⟩
    by_contra large
    -- a payload one byte longer than the field can say is within the limit
    have length : (List.replicate (2^32) (0 : UInt8)).length=2^32 := List.length_replicate
    have long :=
      (tiny_honest (honest UInt8) (List.replicate (2^32) 0) (by rw [length]; omega)).plaintext
    rw [Span.size,length] at long
    exact absurd long (by decide)
  · rintro ⟨nonce,tag,limited⟩ _ host d r plaintext context cipher _ found rfl rfl rfl
    exact Fits.honest nonce tag limited found

theorem sizes_honest_byte :
    let host := testHost (TinyCipher .testOnly 2 2 2) 1 [1,2]
    let d : DataProtector := ⟨{algorithm := .testOnly}⟩
    SizesDecoded (TinyCipher .testOnly 2 2 2) (.bytes [9])
      (protect host d 1 (.bytes [9]) (.bytes [])).output := by
  intro host d
  have ok : (protect host d 1 (.bytes [9]) (.bytes [])).result.success=true := by decide
  exact ((sizes_honest_iff.1 host d 1 (.bytes [9]) (.bytes []) (TinyCipher .testOnly 2 2 2) rfl
    ok).mpr ⟨by decide,by decide,by decide⟩).1 ok

/-- A payload of 2³² bytes under a limit that admits it is sealed with a header that says 0. -/
theorem sizes_truncated :
    let p : Bytes := List.replicate (2^32) 0
    let host := testHost (TinyCipher .testOnly 2 2 2) 1 [1,2]
    let d : DataProtector := ⟨{algorithm := .testOnly,maximumPlaintextBytes := 2^33}⟩
    (protect host d 1 (.bytes p) (.bytes [])).result.success=true ∧
    ¬SizesDecoded (TinyCipher .testOnly 2 2 2) (.bytes p)
      (protect host d 1 (.bytes p) (.bytes [])).output := by
  intro p host d
  have length : p.length=2^32 := List.length_replicate
  have bounded : p.length≤d.config.maximumPlaintextBytes := by
    rw [length]
    exact Nat.pow_le_pow_right (by decide) (by decide)
  clear_value p
  have found : host.ciphers.find d.config.algorithm=some (TinyCipher .testOnly 2 2 2) := rfl
  have ok := (proceeds_iff found).mpr (tiny_proceeds 2 2 p d rfl rfl bounded)
  refine ⟨ok,?_⟩
  obtain ⟨cipher,key,f,emits,out,_⟩ := protect_success ok
  obtain rfl := Option.some.inj (found.symm.trans emits.ready.cipher_found)
  rw [out,emits.decoded_iff]
  intro fits
  have small : p.length≤0xFFFFFFFF := fits.plaintext
  omega

end DataProtector
end ESPressioSecurity
