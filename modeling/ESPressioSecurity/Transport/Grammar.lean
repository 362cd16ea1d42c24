import ESPressioSecurity.Model.TestDoubles
import ESPressioSecurity.Transport.Unprotect

namespace ESPressioSecurity

open Framework

namespace TransportSecurity

variable {ρ : Type}

/-- The version 1 envelope of the format description: field values and three trailing parts of the
lengths that the fields state. -/
@[ext] structure EnvelopeV1 where
  algorithm : UInt8
  flags : UInt8
  protocol : UInt8
  keyID : UInt32
  senderID : UInt64
  sessionID : UInt64
  sequence : UInt64
  nonceLength : UInt8
  tagLength : UInt8
  reserved : UInt16
  ciphertextLength : UInt32
  nonce : Bytes
  ciphertext : Bytes
  tag : Bytes
  nonce_length : nonce.length=nonceLength.toNat
  ciphertext_length : ciphertext.length=ciphertextLength.toNat
  tag_length : tag.length=tagLength.toNat

namespace EnvelopeV1

/-- The concatenation the description asks for: `ESPS`, version 1, the fields least significant byte
first, then nonce, ciphertext and tag. -/
def wire (v : EnvelopeV1) : Bytes :=
  [0x45,0x53,0x50,0x53]++[1]++[v.algorithm]++[v.flags]++[v.protocol]++toLE 4 v.keyID.toNat++
    toLE 8 v.senderID.toNat++toLE 8 v.sessionID.toNat++toLE 8 v.sequence.toNat++[v.nonceLength]++
    [v.tagLength]++toLE 2 v.reserved.toNat++toLE 4 v.ciphertextLength.toNat++
    v.nonce++v.ciphertext++v.tag

/-- The header `Unprotect` reads from it. -/
def header (v : EnvelopeV1) : Header where
  magic := envelopeMagic
  version := envelopeVersion
  algorithm := v.algorithm
  flags := v.flags
  protocol := v.protocol
  keyID := v.keyID
  senderID := v.senderID
  sessionID := v.sessionID
  sequence := v.sequence
  nonceLength := v.nonceLength
  tagLength := v.tagLength
  reserved := v.reserved
  ciphertextLength := v.ciphertextLength

def envelope (v : EnvelopeV1) : Envelope :=
  ⟨v.header,v.nonce,v.ciphertext,v.tag,v.nonce_length,v.ciphertext_length,v.tag_length⟩

theorem wire_eq (v : EnvelopeV1) : v.wire=v.envelope.bytes := by
  have magic : toLE 4 envelopeMagic.toNat=[0x45,0x53,0x50,0x53] := by decide
  have version : envelopeVersion=1 := rfl
  delta wire
  simp only [envelope,Envelope.bytes,header,Header.bytes,appendHeader,append16,append32,append64,
    magic,version,List.nil_append]

theorem wire_injective {v w : EnvelopeV1} (h : v.wire=w.wire) : v=w := by
  rw [wire_eq,wire_eq] at h
  have same := Envelope.bytes_injective h
  have headers : v.header=w.header := congrArg Envelope.header same
  have nonce : v.nonce=w.nonce := congrArg Envelope.nonce same
  have ciphertext : v.ciphertext=w.ciphertext := congrArg Envelope.ciphertext same
  have tag : v.tag=w.tag := congrArg Envelope.tag same
  exact EnvelopeV1.ext (congrArg Header.algorithm headers) (congrArg Header.flags headers)
    (congrArg Header.protocol headers) (congrArg Header.keyID headers)
    (congrArg Header.senderID headers) (congrArg Header.sessionID headers)
    (congrArg Header.sequence headers) (congrArg Header.nonceLength headers)
    (congrArg Header.tagLength headers) (congrArg Header.reserved headers)
    (congrArg Header.ciphertextLength headers) nonce ciphertext tag

/-- An envelope of the wire format with the magic and version of the format is one of version 1. -/
theorem of_envelope (e : Envelope) (magic : e.header.magic=envelopeMagic)
    (version : e.header.version=envelopeVersion) : ∃ v : EnvelopeV1,v.envelope=e := by
  refine ⟨⟨e.header.algorithm,e.header.flags,e.header.protocol,e.header.keyID,e.header.senderID,
    e.header.sessionID,e.header.sequence,e.header.nonceLength,e.header.tagLength,
    e.header.reserved,e.header.ciphertextLength,e.nonce,e.ciphertext,e.tag,e.nonce_length,
    e.ciphertext_length,e.tag_length⟩,?_⟩
  apply Envelope.ext
  · show EnvelopeV1.header _=e.header
    rw [header,← magic,← version]
  · rfl
  · rfl
  · rfl

/-- The associated data are the first 44 bytes. -/
theorem take_wire (v : EnvelopeV1) : v.wire.take 44=v.header.bytes := by
  have h := v.envelope.readHeader_bytes
  rw [← wire_eq,readHeader_iff] at h
  exact h.2

end EnvelopeV1

/-- `Open` on the parts of an envelope, under its first 44 bytes as associated data. -/
def openParts (v : EnvelopeV1) (cipher : IAeadCipher) (key : KeyMaterialView) :
    OpenOutcome v.ciphertext.length :=
  cipher.aeadOpen key.data v.nonce (v.wire.take 44) v.ciphertext v.tag

/-- What the description requires of an envelope that a receiver accepts. -/
structure Grammatical (host : Host ρ) (s : TransportSecurity) (expectedProtocol : UInt8)
    (v : EnvelopeV1) (cipher : IAeadCipher) (key : KeyMaterialView) : Prop where
  keyID : v.keyID≠0
  sessionID : v.sessionID≠0
  sequence : v.sequence≠0
  bounded : v.ciphertextLength.toNat ≤ s.config.maximumPlaintextBytes
  registered : host.ciphers.find ⟨v.algorithm⟩=some cipher
  nonce_size : v.nonceLength.toNat=cipher.nonceSize
  tag_size : v.tagLength.toNat=cipher.tagSize
  fresh : s.replay.wouldAccept ⟨v.senderID,v.keyID,v.sessionID⟩ v.sequence=true
  stored : host.keys.getKey v.keyID ⟨v.algorithm⟩=some key
  key_size : key.size=cipher.keySize
  opens : (openParts v cipher key).ok=true
  protocol : v.protocol=expectedProtocol

/-- The payload that carries the field values of an envelope and the given data. -/
def EnvelopeV1.payload (v : EnvelopeV1) (data : Bytes) : UnprotectedPayload where
  protocol := v.protocol
  keyID := v.keyID
  senderID := v.senderID
  sessionID := v.sessionID
  sequence := v.sequence
  algorithm := ⟨v.algorithm⟩
  isProtected := true
  data := data

theorem opening_wire (v : EnvelopeV1) (cipher : IAeadCipher) (key : KeyMaterialView) :
    (opening v.wire v.header cipher key).ok=(openParts v cipher key).ok ∧
    (opening v.wire v.header cipher key).plaintext.val=(openParts v cipher key).plaintext.val := by
  have parts := opening_envelope v.envelope cipher key
  rw [← v.wire_eq] at parts
  rw [openParts,v.take_wire]
  exact parts

/-- The checks of `Unprotect` on an envelope of version 1 are those of the description. -/
theorem grammatical_iff {host : Host ρ} {s : TransportSecurity} {v : EnvelopeV1}
    (object : v.wire.length≤SecurityBuffer.maxSize host.sizeBits) (expectedProtocol : UInt8)
    (cipher : IAeadCipher) (key : KeyMaterialView) :
    (Admitted host s v.wire v.header cipher key ∧
      (opening v.wire v.header cipher key).ok=true ∧ v.header.protocol=expectedProtocol) ↔
    Grammatical host s expectedProtocol v cipher key := by
  have opened := (opening_wire v cipher key).1
  rw [v.wire_eq] at object
  constructor
  · intro ⟨admitted,ok,protocol⟩
    have form := admitted.well_formed
    exact ⟨form.keyID,form.session,form.sequence,admitted.bounded,admitted.cipher_found,
      form.nonce_size,form.tag_size,admitted.fresh,admitted.key_found,admitted.key_size,
      opened.symm.trans ok,protocol⟩
  · intro g
    have read : readHeader v.wire=some v.header := by
      rw [v.wire_eq]
      exact v.envelope.readHeader_bytes
    have wide : NoWrap host v.header := v.envelope.noWrap (object.trans_lt (SecurityBuffer.maxSize_lt _))
    have size : expectedSize host v.header=v.wire.length := by
      rw [expectedSize_eq wide,v.wire_eq]
      exact v.envelope.bytes_length.symm
    have form : WellFormed host cipher v.wire v.header :=
      ⟨read,rfl,rfl,size,g.sessionID,g.sequence,g.keyID,g.nonce_size,g.tag_size⟩
    exact ⟨⟨⟨form,g.bounded,g.registered,g.fresh,g.stored,g.key_size⟩,v.envelope.room object⟩,
      opened.trans g.opens,g.protocol⟩

/-- `Unprotect` accepts a protected payload exactly when the input is an envelope of version 1 that
meets the description, the envelope is then unique, and what is returned are its fields and the
opened data. The input is an object in memory, and the lengths in it do not wrap `size_t`. -/
theorem accepts_iff_grammar (host : Host ρ) (s : TransportSecurity) (expectedProtocol : UInt8)
    (b : Bytes) (hw : ∀ h,readHeader b=some h → NoWrap host h)
    (object : b.length≤SecurityBuffer.maxSize host.sizeBits) :
    let o := unprotect host s expectedProtocol (.bytes b)
    ((o.result.success=true ∧ o.result.isProtected=true) ↔
      ∃ v cipher key,b=EnvelopeV1.wire v ∧
        Grammatical host s expectedProtocol v cipher key) ∧
    (∀ v w,b=EnvelopeV1.wire v → b=EnvelopeV1.wire w → v=w) ∧
    ∀ v cipher key,b=EnvelopeV1.wire v → Grammatical host s expectedProtocol v cipher key →
      o.result=.ok true ∧ o.payload=v.payload (openParts v cipher key).plaintext.val := by
  intro o
  have accepted : ∀ v cipher key,b=EnvelopeV1.wire v →
      Grammatical host s expectedProtocol v cipher key →
      o.result=.ok true ∧ o.payload=v.payload (openParts v cipher key).plaintext.val := by
    intro v cipher key hb g
    subst hb
    obtain ⟨admitted,ok,protocol⟩ := (grammatical_iff object expectedProtocol cipher key).mpr g
    have he : o=accept s v.wire v.header cipher key := unprotect_accept rfl admitted ok protocol
    rw [he,← (opening_wire v cipher key).2]
    exact ⟨rfl,rfl⟩
  refine ⟨⟨?_,?_⟩,?_,accepted⟩
  · intro ⟨ok,isProtected⟩
    obtain ⟨_,_,_,he⟩|⟨h,cipher,key,admitted,opened,protocol,_⟩ := unprotect_success ok
    · have plain : o=passPlaintext s expectedProtocol (.bytes b) := he
      rw [plain] at isProtected
      exact absurd isProtected (by simp [passPlaintext])
    · have form := admitted.well_formed
      obtain ⟨e,rfl,bytes⟩ := admitted.envelope (hw h form.read)
      obtain ⟨v,rfl⟩ := EnvelopeV1.of_envelope e form.magic form.version
      rw [← v.wire_eq] at bytes
      have input : (Span.bytes b).content=v.wire := bytes.symm
      rw [input] at admitted opened
      have object : v.wire.length≤SecurityBuffer.maxSize host.sizeBits := bytes ▸ object
      exact ⟨v,cipher,key,bytes.symm,
        (grammatical_iff object expectedProtocol cipher key).mp ⟨admitted,opened,protocol⟩⟩
  · rintro ⟨v,cipher,key,hb,g⟩
    rw [(accepted v cipher key hb g).1]
    exact ⟨rfl,rfl⟩
  · intro v w first second
    exact EnvelopeV1.wire_injective (first.symm.trans second)

theorem accepts_iff_grammar_byte :
    let host := testHost (TinyCipher .testOnly 2 2 2) 1 [1,2]
    let s := new {outboundAlgorithm := .testOnly,sessionID := 5}
    let b := (protect host s 1 3 (.bytes [9])).output
    ∃ v cipher key,b=EnvelopeV1.wire v ∧ Grammatical host s 3 v cipher key := by
  intro host s b
  have wide : ∀ h,readHeader b=some h → NoWrap host h := fun h _ => noWrap_of_bits (by decide) h
  have object : b.length≤SecurityBuffer.maxSize 64 := by decide
  exact (accepts_iff_grammar host s 3 b wide object).1.mp (by decide)

end TransportSecurity
end ESPressioSecurity
