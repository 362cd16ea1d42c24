import ESPressioSecurity.Data.Unprotect
import ESPressioSecurity.Model.TestDoubles
import ESPressioSecurity.Transport.Unprotect

namespace ESPressioSecurity

open Framework

variable {ρ : Type}

namespace TransportSecurity

theorem Checked.lengthChecked {host : Host ρ} {s : TransportSecurity} {input : Bytes} {h : Header}
    {cipher : IAeadCipher} {key : KeyMaterialView} (checked : Checked host s input h cipher key) :
    LengthChecked host s input h :=
  ⟨checked.well_formed.read,checked.well_formed.magic,checked.well_formed.version,checked.bounded,
    checked.well_formed.size,checked.well_formed.session,checked.well_formed.sequence,
    checked.well_formed.keyID⟩

/-- Without the length check behind it a call ends before any buffer is asked for. -/
theorem unprotect_unchecked {host : Host ρ} {s : TransportSecurity} {input : Bytes}
    (unchecked : ∀ h,¬LengthChecked host s input h) (expectedProtocol : UInt8) :
    (unprotect host s expectedProtocol (.bytes input)=
      passPlaintext s expectedProtocol (.bytes input)) ∨
    ∃ error message,unprotect host s expectedProtocol (.bytes input)=reject s [] error message := by
  have hc := unprotect_case host s expectedProtocol (.bytes input)
  generalize unprotect host s expectedProtocol (.bytes input)=out at hc ⊢
  cases hc with
  | rejected error message => exact Or.inr ⟨error,message,rfl⟩
  | passed valid plain policy => exact Or.inl rfl
  | thrown h cipher key checked large => exact absurd checked.lengthChecked (unchecked h)
  | unopened h cipher key admitted reason error message =>
    exact absurd admitted.toChecked.lengthChecked (unchecked h)
  | accepted h cipher key admitted opened protocol =>
    exact absurd admitted.toChecked.lengthChecked (unchecked h)

/-- Past the check the parts of an envelope are where the lengths say, and the plaintext buffer is no
larger than the input. -/
def Delimited (input : Bytes) (h : Header) : Prop :=
  Partition input 44 h.nonceLength.toNat h.ciphertextLength.toNat h.tagLength.toNat ∧
  h.ciphertextLength.toNat ≤ input.length

theorem LengthChecked.delimited {host : Host ρ} {s : TransportSecurity} {input : Bytes}
    {h : Header} (checked : LengthChecked host s input h) (hw : NoWrap host h) :
    Delimited input h := by
  have total := checked.size
  rw [expectedSize_eq hw] at total
  exact ⟨Partition.of_total total,by omega⟩

/-- On 32 bits a sum that wraps comes out below the header size, unless the lengths alone reach 2³². -/
theorem LengthChecked.noWrap {host : Host ρ} {s : TransportSecurity} {input : Bytes}
    {h : Header} (checked : LengthChecked host s input h) (bits : host.sizeBits=32)
    (small : s.config.maximumPlaintextBytes+510<2^32) : NoWrap host h := by
  have hl := ((readHeader_iff _ _).mp checked.read).1
  have hn := h.nonceLength.toNat_lt
  have ht := h.tagLength.toNat_lt
  have hb := checked.bounded
  have hs := checked.size
  rw [expectedSize,bits] at hs
  rw [NoWrap,bits]
  simp only [fixedHeaderSize] at hs
  omega

/-- A header of 44 bytes whose three lengths add up to exactly 2³². -/
def wrappingHeader (limit : Nat) : Header where
  magic := envelopeMagic
  version := envelopeVersion
  algorithm := 250
  flags := 0
  protocol := 0
  keyID := 1
  senderID := 0
  sessionID := 1
  sequence := 1
  nonceLength := UInt8.ofNat (min 255 (2^32-limit))
  tagLength := UInt8.ofNat (2^32-limit-min 255 (2^32-limit))
  reserved := 0
  ciphertextLength := UInt32.ofNat limit

theorem wrappingHeader_lengths {limit : Nat} (h : limit<2^32) (large : 2^32≤limit+510) :
    44+(wrappingHeader limit).nonceLength.toNat+(wrappingHeader limit).ciphertextLength.toNat+
      (wrappingHeader limit).tagLength.toNat=44+2^32 ∧
    (wrappingHeader limit).ciphertextLength.toNat=limit := by
  have hn : (wrappingHeader limit).nonceLength.toNat=min 255 (2^32-limit) :=
    UInt8.toNat_ofNat_of_lt' (by simp only [UInt8.size]; omega)
  have ht : (wrappingHeader limit).tagLength.toNat=2^32-limit-min 255 (2^32-limit) :=
    UInt8.toNat_ofNat_of_lt' (by simp only [UInt8.size]; omega)
  have hc : (wrappingHeader limit).ciphertextLength.toNat=limit :=
    UInt32.toNat_ofNat_of_lt' (by simp only [UInt32.size]; omega)
  rw [hn,ht,hc]
  omega

theorem wrappingHeader_checked {host : Host ρ} {s : TransportSecurity} (bits : host.sizeBits=32)
    (limit : s.config.maximumPlaintextBytes<2^32)
    (large : 2^32 ≤ s.config.maximumPlaintextBytes+510) :
    let h := wrappingHeader s.config.maximumPlaintextBytes
    LengthChecked host s h.bytes h ∧ ¬Delimited h.bytes h := by
  intro h
  have length : h.bytes.length=44 := h.bytes_length
  obtain ⟨sum,stated⟩ := wrappingHeader_lengths limit large
  have read : readHeader h.bytes=some h := by
    have whole := readHeader_append h []
    rwa [List.append_nil] at whole
  have one : (1 : UInt64)≠0 := by decide
  have first : (1 : UInt32)≠0 := by decide
  refine ⟨⟨read,rfl,rfl,le_of_eq stated,?_,one,one,first⟩,?_⟩
  · have wrapped : (44+2^32)%2^32=44 := by decide
    show (44+h.nonceLength.toNat+h.ciphertextLength.toNat+h.tagLength.toNat)%2^host.sizeBits=_
    rw [sum,bits,length,wrapped]
  · intro delimited
    have total := delimited.1.total
    rw [sum,length] at total
    omega

/-- What one call does with the lengths its input states. Past the check of the total length they are
those of its parts; a buffer is asked for only there, and one no larger than the input; what `Open`
is handed are the parts, one after the other, and nothing is left out. -/
structure KeepsLengths (host : Host ρ) (s : TransportSecurity) (expectedProtocol : UInt8)
    (input : Bytes) : Prop where
  passed : ∀ h,LengthChecked host s input h → Delimited input h
  stopped : (∀ h,¬LengthChecked host s input h) →
    unprotect host s expectedProtocol (.bytes input)=
      passPlaintext s expectedProtocol (.bytes input) ∨
    ∃ error message,unprotect host s expectedProtocol (.bytes input)=reject s [] error message
  requested : ∀ call,
    Effect.resized call∈(unprotect host s expectedProtocol (.bytes input)).effects →
    call.size ≤ input.length
  opened : ∀ call,Effect.opened call∈(unprotect host s expectedProtocol (.bytes input)).effects →
    input.take 44++call.nonce++call.ciphertext++call.tag=input

theorem KeepsLengths.of_delimited {host : Host ρ} {s : TransportSecurity} {input : Bytes}
    (passed : ∀ h,LengthChecked host s input h → Delimited input h) (expectedProtocol : UInt8) :
    KeepsLengths host s expectedProtocol input := by
  refine ⟨passed,fun unchecked => unprotect_unchecked unchecked expectedProtocol,?_,?_⟩
  · intro call asked
    obtain ⟨h,cipher,key,checked,he⟩|⟨_,_,_,_,he⟩|⟨n,he⟩ := unprotect_only asked
    · rw [Effect.resized.inj he]
      exact (passed h checked.lengthChecked).2
    · exact absurd he (by simp)
    · exact absurd he (by simp)
  · intro call handed
    obtain ⟨_,_,_,_,he⟩|⟨h,cipher,key,admitted,he⟩|⟨n,he⟩ := unprotect_only handed
    · exact absurd he (by simp)
    · rw [Effect.opened.inj he]
      exact (passed h admitted.toChecked.lengthChecked).1.cover
    · exact absurd he (by simp)

/-- The lengths are safe for every input exactly when `size_t` is wide or the limit leaves room for
the two other lengths a header can state. -/
theorem keepsLengths_iff {host : Host ρ} {s : TransportSecurity}
    (bits : host.sizeBits=32 ∨ host.sizeBits=64)
    (limit : s.config.maximumPlaintextBytes<2^host.sizeBits) :
    (∀ expectedProtocol input,input.length<2^host.sizeBits →
      KeepsLengths host s expectedProtocol input) ↔
      (host.sizeBits=64 ∨ s.config.maximumPlaintextBytes+510<2^32) := by
  constructor
  · intro all
    by_contra hn
    obtain ⟨h64,large⟩ := not_or.mp hn
    have h32 := bits.resolve_right h64
    rw [h32] at limit
    obtain ⟨checked,broken⟩ := wrappingHeader_checked h32 limit (Nat.not_lt.mp large)
    apply broken
    refine (all 0 _ ?_).passed _ checked
    rw [Header.bytes_length,h32]
    decide
  · intro safe expectedProtocol input _
    refine KeepsLengths.of_delimited ?_ expectedProtocol
    intro h checked
    obtain h64|small := safe
    · exact checked.delimited (noWrap_of_bits (by omega) h)
    · cases bits with
      | inl h32 => exact checked.delimited (checked.noWrap h32 small)
      | inr h64 => exact checked.delimited (noWrap_of_bits (by omega) h)

end TransportSecurity

namespace DataProtector

theorem unprotect_unchecked {host : Host ρ} {d : DataProtector} {data : Bytes} {context : Span}
    (unchecked : ∀ h cipher,¬LengthChecked host d data context h cipher) :
    ∃ error message,unprotect host d (.bytes data) context=reject [] error message := by
  obtain he|⟨data',h,cipher,key,same,checked⟩ := unprotect_cases host d (.bytes data) context
  · exact he
  · obtain rfl := Span.bytes.inj same
    exact absurd checked.lengthChecked (unchecked h cipher)

def Delimited (data : Bytes) (h : Header) : Prop :=
  Partition data 18 h.nonceSize.toNat h.tagSize.toNat h.plaintextSize.toNat ∧
  h.plaintextSize.toNat≤data.length

theorem LengthChecked.delimited {host : Host ρ} {d : DataProtector} {data : Bytes}
    {context : Span} {h : Header} {cipher : IAeadCipher}
    (checked : LengthChecked host d data context h cipher) (hw : NoWrap host h) :
    Delimited data h := by
  have total := checked.size
  have sum : expectedSize host h=_ := Nat.mod_eq_of_lt hw
  rw [sum] at total
  simp only [headerSize] at total
  exact ⟨Partition.of_total total,by omega⟩

/-- The limit leaves room for nonce and tag of every registered cipher that a header can describe. -/
def Roomy (host : Host ρ) (d : DataProtector) : Prop :=
  ∀ algorithm cipher,host.ciphers.find algorithm=some cipher →
    cipher.nonceSize≤0xFFFF → cipher.tagSize≤0xFFFF →
    d.config.maximumPlaintextBytes+cipher.nonceSize+cipher.tagSize<2^32

theorem LengthChecked.noWrap {host : Host ρ} {d : DataProtector} {data : Bytes}
    {context : Span} {h : Header} {cipher : IAeadCipher}
    (checked : LengthChecked host d data context h cipher) (bits : host.sizeBits=32)
    (roomy : Roomy host d) : NoWrap host h := by
  have hl := ((readHeader_iff _ _).mp checked.read).1
  have hn := h.nonceSize.toNat_lt
  have ht := h.tagSize.toNat_lt
  have hb := checked.bounded
  have hs := checked.size
  have room := roomy h.algorithm cipher checked.cipher_found
  rw [← checked.nonce_size,← checked.tag_size] at room
  have room := room (by omega) (by omega)
  rw [expectedSize,bits] at hs
  rw [NoWrap,bits]
  simp only [headerSize] at hs
  omega

/-- A header of 18 bytes whose three lengths add up to exactly 2³². -/
def wrappingHeader (algorithm : AeadAlgorithm) (nonceSize tagSize : Nat) : Header where
  version := formatVersion
  algorithm := algorithm
  keyID := 1
  nonceSize := UInt16.ofNat nonceSize
  tagSize := UInt16.ofNat tagSize
  plaintextSize := UInt32.ofNat (2^32-nonceSize-tagSize)

theorem wrappingHeader_checked {host : Host ρ} {d : DataProtector} {algorithm : AeadAlgorithm}
    {cipher : IAeadCipher} (bits : host.sizeBits=32)
    (limit : d.config.maximumPlaintextBytes<2^32)
    (found : host.ciphers.find algorithm=some cipher) (hn : cipher.nonceSize≤0xFFFF)
    (ht : cipher.tagSize≤0xFFFF)
    (large : 2^32≤d.config.maximumPlaintextBytes+cipher.nonceSize+cipher.tagSize) :
    let h := wrappingHeader algorithm cipher.nonceSize cipher.tagSize
    LengthChecked host d h.bytes (.bytes []) h cipher ∧ ¬Delimited h.bytes h := by
  intro h
  have length : h.bytes.length=18 := h.bytes_length
  have nonce : h.nonceSize.toNat=cipher.nonceSize :=
    UInt16.toNat_ofNat_of_lt' (by simp only [UInt16.size]; omega)
  have tag : h.tagSize.toNat=cipher.tagSize :=
    UInt16.toNat_ofNat_of_lt' (by simp only [UInt16.size]; omega)
  have plain : h.plaintextSize.toNat=2^32-cipher.nonceSize-cipher.tagSize :=
    UInt32.toNat_ofNat_of_lt' (by simp only [UInt32.size]; omega)
  have sum : 18+h.nonceSize.toNat+h.tagSize.toNat+h.plaintextSize.toNat=18+2^32 := by
    rw [nonce,tag,plain]
    omega
  have one : (1 : UInt32)≠0 := by decide
  have read : readHeader h.bytes=some h := by
    have whole := readHeader_append h one []
    rwa [List.append_nil] at whole
  refine ⟨⟨rfl,read,rfl,?_,found,nonce,tag,?_⟩,?_⟩
  · rw [plain]
    omega
  · have wrapped : (18+2^32)%2^32=18 := by decide
    show (18+h.nonceSize.toNat+h.tagSize.toNat+h.plaintextSize.toNat)%2^host.sizeBits=_
    rw [sum,bits,length,wrapped]
  · intro delimited
    have total := delimited.1.total
    rw [sum,length] at total
    omega

structure KeepsLengths (host : Host ρ) (d : DataProtector) (data : Bytes) (context : Span) :
    Prop where
  passed : ∀ h cipher,LengthChecked host d data context h cipher → Delimited data h
  stopped : (∀ h cipher,¬LengthChecked host d data context h cipher) →
    ∃ error message,unprotect host d (.bytes data) context=reject [] error message
  requested : ∀ call,Effect.resized call∈(unprotect host d (.bytes data) context).effects →
    call.size≤data.length
  opened : ∀ call,Effect.opened call∈(unprotect host d (.bytes data) context).effects →
    data.take 18++call.nonce++call.tag++call.ciphertext=data

theorem KeepsLengths.of_delimited {host : Host ρ} {d : DataProtector} {data : Bytes} {context : Span}
    (passed : ∀ h cipher,LengthChecked host d data context h cipher → Delimited data h) :
    KeepsLengths host d data context := by
  refine ⟨passed,unprotect_unchecked,?_,?_⟩
  · intro call asked
    obtain ⟨data',h,cipher,key,same,checked,he|⟨_,he⟩⟩ := unprotect_only asked
    · obtain rfl := Span.bytes.inj same
      rw [Effect.resized.inj he]
      exact (passed h cipher checked.lengthChecked).2
    · exact absurd he (by simp)
  · intro call handed
    obtain ⟨data',h,cipher,key,same,checked,he|⟨_,he⟩⟩ := unprotect_only handed
    · exact absurd he (by simp)
    · obtain rfl := Span.bytes.inj same
      rw [Effect.opened.inj he]
      exact (passed h cipher checked.lengthChecked).1.cover

theorem keepsLengths_iff {host : Host ρ} {d : DataProtector}
    (bits : host.sizeBits=32 ∨ host.sizeBits=64)
    (limit : d.config.maximumPlaintextBytes<2^host.sizeBits) :
    (∀ data context,data.length<2^host.sizeBits → KeepsLengths host d data context) ↔
      (host.sizeBits=64 ∨ Roomy host d) := by
  constructor
  · intro all
    by_contra hn
    obtain ⟨h64,tight⟩ := not_or.mp hn
    have h32 := bits.resolve_right h64
    rw [h32] at limit
    apply tight
    intro algorithm cipher found nonce tag
    by_contra large
    obtain ⟨checked,broken⟩ :=
      wrappingHeader_checked h32 limit found nonce tag (Nat.not_lt.mp large)
    apply broken
    refine (all _ _ ?_).passed _ _ checked
    rw [Header.bytes_length,h32]
    decide
  · intro safe data context _
    refine KeepsLengths.of_delimited ?_
    intro h cipher checked
    obtain h64|roomy := safe
    · exact checked.delimited (noWrap_of_bits (by omega) h)
    · cases bits with
      | inl h32 => exact checked.delimited (checked.noWrap h32 roomy)
      | inr h64 => exact checked.delimited (noWrap_of_bits (by omega) h)

end DataProtector

/-! ### Both receivers -/

/-- No input makes the length arithmetic of either `Unprotect` wrap, and so ask for a buffer larger
than the input, exactly when `size_t` has 64 bits or both limits leave room for the other lengths
that a header can state. -/
theorem lengths_delimit_iff (host : Host ρ) (s : TransportSecurity) (d : DataProtector)
    (bits : host.sizeBits=32 ∨ host.sizeBits=64)
    (limit : s.config.maximumPlaintextBytes<2^host.sizeBits)
    (data_limit : d.config.maximumPlaintextBytes<2^host.sizeBits) :
    ((∀ expectedProtocol input,input.length<2^host.sizeBits →
        TransportSecurity.KeepsLengths host s expectedProtocol input) ∧
      (∀ data context,data.length<2^host.sizeBits →
        DataProtector.KeepsLengths host d data context)) ↔
    (host.sizeBits=64 ∨
      s.config.maximumPlaintextBytes+510<2^32 ∧ DataProtector.Roomy host d) := by
  rw [TransportSecurity.keepsLengths_iff bits limit,DataProtector.keepsLengths_iff bits data_limit]
  exact or_and_left.symm

theorem lengths_delimit_tiny :
    let host : Host UInt8 := {testHost (TinyCipher .testOnly 2 2 2) 1 [1,2] with sizeBits := 32}
    ∀ expectedProtocol input,input.length<2^32 →
      TransportSecurity.KeepsLengths host (.new {}) expectedProtocol input := by
  intro host
  have roomy : DataProtector.Roomy host ⟨{}⟩ := by
    intro algorithm cipher found _ _
    have registered : (testHost (TinyCipher .testOnly 2 2 2) 1 [1,2]).ciphers.find algorithm=
      some cipher := found
    have only : cipher=TinyCipher .testOnly 2 2 2 := testHost_find registered
    subst only
    decide
  exact ((lengths_delimit_iff host (.new {}) ⟨{}⟩ (Or.inl rfl) (by decide) (by decide)).mpr
    (Or.inr ⟨by decide,roomy⟩)).1

/-- 32 bits, the largest limits, and nothing but a header: each `Unprotect` goes past its length check,
and the buffer of 2³²-4 bytes it asks for throws out of the call. -/
theorem length_wraps :
    let host : Host UInt8 := {testHost (TinyCipher .testOnly 2 2 2) 1 [1,2] with sizeBits := 32}
    let s : TransportSecurity := .new {maximumPlaintextBytes := 2^32-1}
    let h : TransportSecurity.Header := {
      TransportSecurity.wrappingHeader 0 with
      nonceLength := 2
      tagLength := 2
      ciphertextLength := 0xFFFFFFFC }
    let d : DataProtector := ⟨{maximumPlaintextBytes := 2^32-1}⟩
    let stored := DataProtector.wrappingHeader .testOnly 2 2
    TransportSecurity.LengthChecked host s h.bytes h ∧
    ¬TransportSecurity.Delimited h.bytes h ∧
    (s.unprotect host 0 (.bytes h.bytes)).effects=[.resized ⟨0xFFFFFFFC,false⟩] ∧
    DataProtector.LengthChecked host d stored.bytes (.bytes []) stored (TinyCipher .testOnly 2 2 2) ∧
    ¬DataProtector.Delimited stored.bytes stored ∧
    (d.unprotect host (.bytes stored.bytes) (.bytes [])).effects=
      [.resized ⟨0xFFFFFFFC,false⟩] := by
  intro host s h d stored
  have length : h.bytes.length=44 := h.bytes_length
  have limit : d.config.maximumPlaintextBytes<2^32 := by decide
  have found : host.ciphers.find .testOnly=some (TinyCipher .testOnly 2 2 2) := rfl
  obtain ⟨checked,broken⟩ :=
    DataProtector.wrappingHeader_checked rfl limit found (by decide) (by decide) (by decide)
  refine ⟨⟨by decide,rfl,rfl,by decide,by decide,by decide,by decide,by decide⟩,?_,by decide,
    checked,broken,by decide⟩
  intro delimited
  have total := delimited.1.total
  rw [length] at total
  exact absurd total (by decide)

end ESPressioSecurity
