import ESPressioSecurity.Model.SecurityTypes

namespace ESPressioSecurity

open Framework

namespace DataProtector

def formatVersion : UInt8 := 1
def headerSize : Nat := 18

/-- The four characters `ESDP` that open the header. -/
def magicBytes : Bytes := [0x45,0x53,0x44,0x50]

/-- The fields `ReadHeader` decodes. -/
@[ext] structure Header where
  version : UInt8
  algorithm : AeadAlgorithm
  keyID : UInt32
  nonceSize : UInt16
  tagSize : UInt16
  plaintextSize : UInt32
  deriving DecidableEq,Repr

def writeU16 (v : UInt16) : Bytes := toLE 2 v.toNat
def writeU32 (v : UInt32) : Bytes := toLE 4 v.toNat
def readU16 (b : Bytes) (off : Nat) : UInt16 := UInt16.ofNat (ofLE (slice b off 2))
def readU32 (b : Bytes) (off : Nat) : UInt32 := UInt32.ofNat (ofLE (slice b off 4))

def Header.bytes (h : Header) : Bytes :=
  magicBytes++[h.version]++[h.algorithm.raw]++writeU32 h.keyID++writeU16 h.nonceSize++
    writeU16 h.tagSize++writeU32 h.plaintextSize

/-- `WriteHeader` stores the 18 bytes at the front of the buffer. -/
def writeHeader (data : Bytes) (algorithm : AeadAlgorithm) (keyID : UInt32)
    (nonceSize tagSize : UInt16) (plaintextSize : UInt32) : Bytes :=
  overwrite data 0 (Header.bytes ⟨formatVersion,algorithm,keyID,nonceSize,tagSize,plaintextSize⟩)

def readHeader (data : Bytes) : Option Header :=
  if data.length<headerSize ∨ data.getD 0 0≠0x45 ∨ data.getD 1 0≠0x53 ∨ data.getD 2 0≠0x44 ∨
      data.getD 3 0≠0x50 then none
  else
    let h : Header := ⟨data.getD 4 0,⟨data.getD 5 0⟩,readU32 data 6,readU16 data 10,
      readU16 data 12,readU32 data 14⟩
    if h.keyID≠0 then some h else none

@[simp] theorem Header.bytes_length (h : Header) : h.bytes.length=18 := by
  simp [Header.bytes,magicBytes,writeU16,writeU32]

theorem readU16_eq (b : Bytes) (off : Nat) (v : UInt16) (h : off+2≤b.length) :
    readU16 b off=v ↔ slice b off 2=toLE 2 v.toNat := by
  have hlt := slice_ofLE_lt b off 2 h
  rw [readU16,← slice_ofLE b off 2 _ h v.toNat_lt,← UInt16.toNat_inj,UInt16.toNat_ofNat_of_lt' hlt]

theorem readU32_eq (b : Bytes) (off : Nat) (v : UInt32) (h : off+4≤b.length) :
    readU32 b off=v ↔ slice b off 4=toLE 4 v.toNat := by
  have hlt := slice_ofLE_lt b off 4 h
  rw [readU32,← slice_ofLE b off 4 _ h v.toNat_lt,← UInt32.toNat_inj,UInt32.toNat_ofNat_of_lt' hlt]

theorem getD_eq (b : Bytes) (off : Nat) (v : UInt8) (h : off<b.length) :
    b.getD off 0=v ↔ slice b off 1=[v] := by
  simp [slice_one b off h]

/-- The first 18 bytes are the encoding of `h`, field by field. -/
theorem take_header_iff (b : Bytes) (hl : 18≤b.length) (h : Header) :
    b.take 18=h.bytes ↔ b.take 4=magicBytes ∧ b.getD 4 0=h.version ∧
      b.getD 5 0=h.algorithm.raw ∧ readU32 b 6=h.keyID ∧ readU16 b 10=h.nonceSize ∧
      readU16 b 12=h.tagSize ∧ readU32 b 14=h.plaintextSize := by
  rw [getD_eq b 4 _ (by omega),getD_eq b 5 _ (by omega),readU32_eq b 6 _ (by omega),
    readU16_eq b 10 _ (by omega),readU16_eq b 12 _ (by omega),readU32_eq b 14 _ (by omega)]
  simp only [Header.bytes,writeU16,writeU32]
  rw [take_eq_append b _ _ 14 4 (by simp [magicBytes]) (by simp) (by omega),
    take_eq_append b _ _ 12 2 (by simp [magicBytes]) (by simp) (by omega),
    take_eq_append b _ _ 10 2 (by simp [magicBytes]) (by simp) (by omega),
    take_eq_append b _ _ 6 4 (by simp [magicBytes]) (by simp) (by omega),
    take_eq_append b _ _ 5 1 (by simp [magicBytes]) (by simp) (by omega),
    take_eq_append b _ _ 4 1 (by simp [magicBytes]) (by simp) (by omega)]
  simp only [and_assoc]

theorem take_magic_iff (b : Bytes) (hl : 18≤b.length) :
    b.take 4=magicBytes ↔ b.getD 0 0=0x45 ∧ b.getD 1 0=0x53 ∧ b.getD 2 0=0x44 ∧
      b.getD 3 0=0x50 := by
  rw [getD_eq b 0 _ (by omega),getD_eq b 1 _ (by omega),getD_eq b 2 _ (by omega),
    getD_eq b 3 _ (by omega),show magicBytes=[0x45]++[0x53]++[0x44]++[0x50] from rfl,
    take_eq_append b _ _ 3 1 rfl rfl (by omega),take_eq_append b _ _ 2 1 rfl rfl (by omega),
    take_eq_append b _ _ 1 1 rfl rfl (by omega),slice_zero]
  simp only [and_assoc]

/-- The reader accepts exactly the inputs that begin with an encoded header under a key. -/
theorem readHeader_iff (b : Bytes) (h : Header) :
    readHeader b=some h ↔ 18≤b.length ∧ b.take 18=h.bytes ∧ h.keyID≠0 := by
  unfold readHeader
  by_cases hl : 18≤b.length
  · have hs : ¬b.length<headerSize := Nat.not_lt.mpr hl
    rw [take_header_iff b hl,take_magic_iff b hl]
    dsimp only
    split_ifs with hm hk
    · constructor
      · intro hn
        exact absurd hn (by simp)
      · intro ⟨_,⟨⟨h0,h1,h2,h3⟩,_⟩,_⟩
        simp only [hs,h0,h1,h2,h3] at hm
        exact absurd hm (by simp)
    · simp only [not_or,not_not] at hm
      obtain ⟨_,h0,h1,h2,h3⟩ := hm
      constructor
      · intro he
        obtain rfl := Option.some.inj he
        exact ⟨hl,⟨⟨h0,h1,h2,h3⟩,rfl,rfl,rfl,rfl,rfl,rfl⟩,hk⟩
      · intro ⟨_,⟨_,hv,ha,hi,hn,ht,hp⟩,_⟩
        rw [hv,ha,hi,hn,ht,hp]
    · constructor
      · intro hn
        exact absurd hn (by simp)
      · intro ⟨_,⟨_,_,_,hi,_⟩,hz⟩
        exact absurd (hi ▸ hz) hk
  · have hs : b.length<headerSize := Nat.not_le.mp hl
    rw [if_pos (Or.inl hs)]
    constructor
    · intro hn
      exact absurd hn (by simp)
    · intro ⟨hh,_⟩
      exact absurd hh hl

theorem readHeader_append (h : Header) (hk : h.keyID≠0) (rest : Bytes) :
    readHeader (h.bytes++rest)=some h :=
  (readHeader_iff _ h).mpr ⟨by simp,List.take_left' h.bytes_length,hk⟩

theorem Header.bytes_injective {h k : Header} (he : h.bytes=k.bytes) : h=k := by
  have fields := (take_header_iff h.bytes (by simp) h).mp (by simp)
  have fields' := (take_header_iff h.bytes (by simp) k).mp (by simp [he])
  obtain ⟨_,hv,ha,hi,hn,ht,hp⟩ := fields
  obtain ⟨_,kv,ka,ki,kn,kt,kp⟩ := fields'
  exact Header.ext (hv.symm.trans kv) (AeadAlgorithm.ext (ha.symm.trans ka)) (hi.symm.trans ki)
    (hn.symm.trans kn) (ht.symm.trans kt) (hp.symm.trans kp)

end DataProtector
end ESPressioSecurity
