import ESPressioSecurity.Model.SecurityTypes

namespace ESPressioSecurity

open Framework

namespace TransportSecurity

def envelopeMagic : UInt32 := 0x53505345
def envelopeVersion : UInt8 := 1
def fixedHeaderSize : Nat := 44

def append16 (o : Bytes) (v : UInt16) : Bytes := o++toLE 2 v.toNat
def append32 (o : Bytes) (v : UInt32) : Bytes := o++toLE 4 v.toNat
def append64 (o : Bytes) (v : UInt64) : Bytes := o++toLE 8 v.toNat

/-- The fields of the fixed header in wire order. -/
structure Header where
  magic : UInt32
  version : UInt8
  algorithm : UInt8
  flags : UInt8
  protocol : UInt8
  keyID : UInt32
  senderID : UInt64
  sessionID : UInt64
  sequence : UInt64
  nonceLength : UInt8
  tagLength : UInt8
  reserved : UInt16
  ciphertextLength : UInt32
  deriving DecidableEq,Repr

/-- The appends of `Protect` that lay down the fixed header. -/
def appendHeader (output : Bytes) (h : Header) : Bytes :=
  let output := append32 output h.magic
  let output := output++[h.version]
  let output := output++[h.algorithm]
  let output := output++[h.flags]
  let output := output++[h.protocol]
  let output := append32 output h.keyID
  let output := append64 output h.senderID
  let output := append64 output h.sessionID
  let output := append64 output h.sequence
  let output := output++[h.nonceLength]
  let output := output++[h.tagLength]
  let output := append16 output h.reserved
  append32 output h.ciphertextLength

def Header.bytes (h : Header) : Bytes := appendHeader [] h

/-- The common shape of the reads: a bounds check, then the joined bytes and the next offset. -/
def readLE (i : Bytes) (o n : Nat) : Option (Nat×Nat) :=
  if o+n>i.length then none else some (ofLE (slice i o n),o+n)

def read8 (i : Bytes) (o : Nat) : Option (UInt8×Nat) :=
  (readLE i o 1).map (fun x => (UInt8.ofNat x.1,x.2))
def read16 (i : Bytes) (o : Nat) : Option (UInt16×Nat) :=
  (readLE i o 2).map (fun x => (UInt16.ofNat x.1,x.2))
def read32 (i : Bytes) (o : Nat) : Option (UInt32×Nat) :=
  (readLE i o 4).map (fun x => (UInt32.ofNat x.1,x.2))
def read64 (i : Bytes) (o : Nat) : Option (UInt64×Nat) :=
  (readLE i o 8).map (fun x => (UInt64.ofNat x.1,x.2))

/-- The thirteen reads of `Unprotect`, each starting where the one before ended. -/
def readHeader (i : Bytes) : Option Header := do
  let (magic,o) ← read32 i 0
  let (version,o) ← read8 i o
  let (algorithm,o) ← read8 i o
  let (flags,o) ← read8 i o
  let (protocol,o) ← read8 i o
  let (keyID,o) ← read32 i o
  let (senderID,o) ← read64 i o
  let (sessionID,o) ← read64 i o
  let (sequence,o) ← read64 i o
  let (nonceLength,o) ← read8 i o
  let (tagLength,o) ← read8 i o
  let (reserved,o) ← read16 i o
  let (ciphertextLength,_) ← read32 i o
  return ⟨magic,version,algorithm,flags,protocol,keyID,senderID,sessionID,sequence,
    nonceLength,tagLength,reserved,ciphertextLength⟩

/-- `LooksProtected`: the first four bytes spell the magic. -/
def looksProtected (input : Span) : Bool :=
  match input with
  | .null _ => false
  | .bytes b => if b.length<4 then false else UInt32.ofNat (ofLE (slice b 0 4))=envelopeMagic

theorem readLE_eq_some (i : Bytes) (o n v p : Nat) :
    readLE i o n=some (v,p) ↔ o+n ≤ i.length ∧ ofLE (slice i o n)=v ∧ o+n=p := by
  unfold readLE
  split_ifs with h
  · simp; omega
  · simp; omega

theorem read8_eq_some (i : Bytes) (o : Nat) (v : UInt8) (p : Nat) :
    read8 i o=some (v,p) ↔ o+1 ≤ i.length ∧ slice i o 1=[v] ∧ o+1=p := by
  simp only [read8,Option.map_eq_some_iff,Prod.exists,Prod.mk.injEq,readLE_eq_some]
  constructor
  · intro ⟨x,q,⟨hl,hx,hq⟩,hv,hp⟩
    refine ⟨hl,?_,hq.trans hp⟩
    have hs := slice_length i o 1 hl
    have he := toLE_ofLE (slice i o 1)
    rw [hs,hx] at he
    rw [← he,← hv]
    rfl
  · intro ⟨hl,hs,hp⟩
    have hv : ofLE [v]=v.toNat := by simp [ofLE]
    refine ⟨_,_,⟨hl,rfl,rfl⟩,?_,hp⟩
    rw [hs,hv]
    exact UInt8.ofNat_toNat

theorem read16_eq_some (i : Bytes) (o : Nat) (v : UInt16) (p : Nat) :
    read16 i o=some (v,p) ↔ o+2 ≤ i.length ∧ slice i o 2=toLE 2 v.toNat ∧ o+2=p := by
  simp only [read16,Option.map_eq_some_iff,Prod.exists,Prod.mk.injEq,readLE_eq_some]
  constructor
  · intro ⟨x,q,⟨hl,hx,hq⟩,hv,hp⟩
    have hlt := slice_ofLE_lt i o 2 hl
    refine ⟨hl,?_,hq.trans hp⟩
    rw [← slice_ofLE i o 2 _ hl v.toNat_lt,hx,← hv]
    exact (UInt16.toNat_ofNat_of_lt' (hx ▸ hlt)).symm
  · intro ⟨hl,hs,hp⟩
    refine ⟨_,_,⟨hl,rfl,rfl⟩,?_,hp⟩
    rw [(slice_ofLE i o 2 _ hl v.toNat_lt).mpr hs]
    exact UInt16.ofNat_toNat

theorem read32_eq_some (i : Bytes) (o : Nat) (v : UInt32) (p : Nat) :
    read32 i o=some (v,p) ↔ o+4 ≤ i.length ∧ slice i o 4=toLE 4 v.toNat ∧ o+4=p := by
  simp only [read32,Option.map_eq_some_iff,Prod.exists,Prod.mk.injEq,readLE_eq_some]
  constructor
  · intro ⟨x,q,⟨hl,hx,hq⟩,hv,hp⟩
    have hlt := slice_ofLE_lt i o 4 hl
    refine ⟨hl,?_,hq.trans hp⟩
    rw [← slice_ofLE i o 4 _ hl v.toNat_lt,hx,← hv]
    exact (UInt32.toNat_ofNat_of_lt' (hx ▸ hlt)).symm
  · intro ⟨hl,hs,hp⟩
    refine ⟨_,_,⟨hl,rfl,rfl⟩,?_,hp⟩
    rw [(slice_ofLE i o 4 _ hl v.toNat_lt).mpr hs]
    exact UInt32.ofNat_toNat

theorem read64_eq_some (i : Bytes) (o : Nat) (v : UInt64) (p : Nat) :
    read64 i o=some (v,p) ↔ o+8 ≤ i.length ∧ slice i o 8=toLE 8 v.toNat ∧ o+8=p := by
  simp only [read64,Option.map_eq_some_iff,Prod.exists,Prod.mk.injEq,readLE_eq_some]
  constructor
  · intro ⟨x,q,⟨hl,hx,hq⟩,hv,hp⟩
    have hlt := slice_ofLE_lt i o 8 hl
    refine ⟨hl,?_,hq.trans hp⟩
    rw [← slice_ofLE i o 8 _ hl v.toNat_lt,hx,← hv]
    exact (UInt64.toNat_ofNat_of_lt' (hx ▸ hlt)).symm
  · intro ⟨hl,hs,hp⟩
    refine ⟨_,_,⟨hl,rfl,rfl⟩,?_,hp⟩
    rw [(slice_ofLE i o 8 _ hl v.toNat_lt).mpr hs]
    exact UInt64.ofNat_toNat

@[simp] theorem Header.bytes_length (h : Header) : h.bytes.length=44 := by
  simp [Header.bytes,appendHeader,append16,append32,append64]

/-- The first 44 bytes are the encoding of `h`, field by field. -/
theorem take_header_iff (i : Bytes) (hl : 44 ≤ i.length) (h : Header) :
    i.take 44=h.bytes ↔
      slice i 0 4=toLE 4 h.magic.toNat ∧ slice i 4 1=[h.version] ∧ slice i 5 1=[h.algorithm] ∧
      slice i 6 1=[h.flags] ∧ slice i 7 1=[h.protocol] ∧ slice i 8 4=toLE 4 h.keyID.toNat ∧
      slice i 12 8=toLE 8 h.senderID.toNat ∧ slice i 20 8=toLE 8 h.sessionID.toNat ∧
      slice i 28 8=toLE 8 h.sequence.toNat ∧ slice i 36 1=[h.nonceLength] ∧
      slice i 37 1=[h.tagLength] ∧ slice i 38 2=toLE 2 h.reserved.toNat ∧
      slice i 40 4=toLE 4 h.ciphertextLength.toNat := by
  simp only [Header.bytes,appendHeader,append16,append32,append64,List.nil_append]
  rw [take_eq_append i _ _ 40 4 (by simp) (by simp) (by omega),
    take_eq_append i _ _ 38 2 (by simp) (by simp) (by omega),
    take_eq_append i _ _ 37 1 (by simp) (by simp) (by omega),
    take_eq_append i _ _ 36 1 (by simp) (by simp) (by omega),
    take_eq_append i _ _ 28 8 (by simp) (by simp) (by omega),
    take_eq_append i _ _ 20 8 (by simp) (by simp) (by omega),
    take_eq_append i _ _ 12 8 (by simp) (by simp) (by omega),
    take_eq_append i _ _ 8 4 (by simp) (by simp) (by omega),
    take_eq_append i _ _ 7 1 (by simp) (by simp) (by omega),
    take_eq_append i _ _ 6 1 (by simp) (by simp) (by omega),
    take_eq_append i _ _ 5 1 (by simp) (by simp) (by omega),
    take_eq_append i _ _ 4 1 (by simp) (by simp) (by omega),slice_zero]
  simp only [and_assoc]

theorem bind_of_some {α β : Type} {x : Option α} {a : α} {f : α → Option β} {r : Option β}
    (hx : x=some a) (hf : f a=r) : (x >>= f)=r := by
  rw [hx]
  exact hf

theorem some_of_bind {α β : Type} {x : Option α} {f : α → Option β} {r : β}
    (h : (x >>= f)=some r) : ∃ a,x=some a ∧ f a=some r :=
  Option.bind_eq_some_iff.mp h

/-- The reads succeed exactly on inputs that begin with an encoded header. -/
theorem readHeader_iff (i : Bytes) (h : Header) :
    readHeader i=some h ↔ 44 ≤ i.length ∧ i.take 44=h.bytes := by
  constructor
  · intro hr
    obtain ⟨⟨magic,_⟩,r0,hr⟩ := some_of_bind hr
    obtain ⟨_,e0,rfl⟩ := (read32_eq_some i _ _ _).mp r0
    obtain ⟨⟨version,_⟩,r1,hr⟩ := some_of_bind hr
    obtain ⟨_,e1,rfl⟩ := (read8_eq_some i _ _ _).mp r1
    obtain ⟨⟨algorithm,_⟩,r2,hr⟩ := some_of_bind hr
    obtain ⟨_,e2,rfl⟩ := (read8_eq_some i _ _ _).mp r2
    obtain ⟨⟨flags,_⟩,r3,hr⟩ := some_of_bind hr
    obtain ⟨_,e3,rfl⟩ := (read8_eq_some i _ _ _).mp r3
    obtain ⟨⟨protocol,_⟩,r4,hr⟩ := some_of_bind hr
    obtain ⟨_,e4,rfl⟩ := (read8_eq_some i _ _ _).mp r4
    obtain ⟨⟨keyID,_⟩,r5,hr⟩ := some_of_bind hr
    obtain ⟨_,e5,rfl⟩ := (read32_eq_some i _ _ _).mp r5
    obtain ⟨⟨senderID,_⟩,r6,hr⟩ := some_of_bind hr
    obtain ⟨_,e6,rfl⟩ := (read64_eq_some i _ _ _).mp r6
    obtain ⟨⟨sessionID,_⟩,r7,hr⟩ := some_of_bind hr
    obtain ⟨_,e7,rfl⟩ := (read64_eq_some i _ _ _).mp r7
    obtain ⟨⟨sequence,_⟩,r8,hr⟩ := some_of_bind hr
    obtain ⟨_,e8,rfl⟩ := (read64_eq_some i _ _ _).mp r8
    obtain ⟨⟨nonceLength,_⟩,r9,hr⟩ := some_of_bind hr
    obtain ⟨_,e9,rfl⟩ := (read8_eq_some i _ _ _).mp r9
    obtain ⟨⟨tagLength,_⟩,r10,hr⟩ := some_of_bind hr
    obtain ⟨_,e10,rfl⟩ := (read8_eq_some i _ _ _).mp r10
    obtain ⟨⟨reserved,_⟩,r11,hr⟩ := some_of_bind hr
    obtain ⟨_,e11,rfl⟩ := (read16_eq_some i _ _ _).mp r11
    obtain ⟨⟨ciphertextLength,_⟩,r12,hr⟩ := some_of_bind hr
    obtain ⟨hl,e12,rfl⟩ := (read32_eq_some i _ _ _).mp r12
    have hh := Option.some.inj hr
    subst hh
    exact ⟨hl,(take_header_iff i hl _).mpr ⟨e0,e1,e2,e3,e4,e5,e6,e7,e8,e9,e10,e11,e12⟩⟩
  · intro ⟨hl,ht⟩
    obtain ⟨e0,e1,e2,e3,e4,e5,e6,e7,e8,e9,e10,e11,e12⟩ := (take_header_iff i hl h).mp ht
    apply bind_of_some ((read32_eq_some i 0 _ _).mpr ⟨by omega,e0,rfl⟩)
    apply bind_of_some ((read8_eq_some i 4 _ _).mpr ⟨by omega,e1,rfl⟩)
    apply bind_of_some ((read8_eq_some i 5 _ _).mpr ⟨by omega,e2,rfl⟩)
    apply bind_of_some ((read8_eq_some i 6 _ _).mpr ⟨by omega,e3,rfl⟩)
    apply bind_of_some ((read8_eq_some i 7 _ _).mpr ⟨by omega,e4,rfl⟩)
    apply bind_of_some ((read32_eq_some i 8 _ _).mpr ⟨by omega,e5,rfl⟩)
    apply bind_of_some ((read64_eq_some i 12 _ _).mpr ⟨by omega,e6,rfl⟩)
    apply bind_of_some ((read64_eq_some i 20 _ _).mpr ⟨by omega,e7,rfl⟩)
    apply bind_of_some ((read64_eq_some i 28 _ _).mpr ⟨by omega,e8,rfl⟩)
    apply bind_of_some ((read8_eq_some i 36 _ _).mpr ⟨by omega,e9,rfl⟩)
    apply bind_of_some ((read8_eq_some i 37 _ _).mpr ⟨by omega,e10,rfl⟩)
    apply bind_of_some ((read16_eq_some i 38 _ _).mpr ⟨by omega,e11,rfl⟩)
    apply bind_of_some ((read32_eq_some i 40 _ _).mpr ⟨by omega,e12,rfl⟩)
    rfl

theorem readHeader_append (h : Header) (rest : Bytes) : readHeader (h.bytes++rest)=some h :=
  (readHeader_iff _ h).mpr ⟨by simp,by simp⟩

theorem Header.bytes_injective {h k : Header} (he : h.bytes=k.bytes) : h=k := by
  have hh := readHeader_append h []
  rw [he,readHeader_append k []] at hh
  exact (Option.some.inj hh).symm

/-- Sniffing reads the same four bytes as the first header read. -/
theorem looksProtected_iff (h : Header) (rest : Bytes) :
    looksProtected (.bytes (h.bytes++rest))=true ↔ h.magic=envelopeMagic := by
  have hl : 44≤(h.bytes++rest).length := by simp
  have hm := ((take_header_iff _ hl h).mp (by simp)).1
  have hv : ofLE (slice (h.bytes++rest) 0 4)=h.magic.toNat := by
    rw [hm,ofLE_toLE_of_lt 4 _ h.magic.toNat_lt]
  rw [looksProtected,if_neg (by omega),hv,UInt32.ofNat_toNat,decide_eq_true_iff]

end TransportSecurity
end ESPressioSecurity
