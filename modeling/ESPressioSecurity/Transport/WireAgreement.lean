import ESPressioSecurity.Model.TestDoubles
import ESPressioSecurity.Transport.Sessions

namespace ESPressioSecurity

open Framework

namespace TransportSecurity

variable {ρ σ : Type}

/-- The header an emitted envelope carries, in terms of the state before the call. -/
structure Carries (x : TransportSecurity×ρ) (protocol : UInt8) (h : Header) : Prop where
  magic : h.magic=envelopeMagic
  version : h.version=envelopeVersion
  algorithm : (⟨h.algorithm⟩ : AeadAlgorithm)=x.1.config.outboundAlgorithm
  protocol_eq : h.protocol=protocol
  keyID : h.keyID=x.1.config.outboundKeyID
  senderID : h.senderID=x.1.config.senderID
  sequence : h.sequence=x.1.nextSequence

theorem Emits.carries {host : Host ρ} {x : TransportSecurity×ρ} {protocol : UInt8}
    {plaintext : Span} {cipher : IAeadCipher} {key : KeyMaterialView} {e : Envelope}
    (h : Emits host x protocol plaintext cipher key e) : Carries x protocol e.header := by
  have config := (ensureSessionID_follows host x.1 x.2).config
  have counter := ensureSessionID_counter host x.1 x.2
  have found := AeadCipherRegistry.find_algorithm h.ready.cipher_found
  rw [h.seals.header]
  refine ⟨rfl,rfl,found,rfl,?_,?_,counter⟩
  · show (ensureSessionID host x.1 x.2).security.config.outboundKeyID=_
    rw [config]
  · show (ensureSessionID host x.1 x.2).security.config.senderID=_
    rw [config]

theorem Emits.session_ne {host : Host ρ} {x : TransportSecurity×ρ} {protocol : UInt8}
    {plaintext : Span} {cipher : IAeadCipher} {key : KeyMaterialView} {e : Envelope}
    (h : Emits host x protocol plaintext cipher key e) (hc : x.1.Consistent) :
    e.header.sessionID≠0 := by
  rw [h.seals.header]
  exact (ensureSessionID_consistent hc host x.2).ready_iff.mp (ensureSessionID_ready h.session)

/-- Every check that precedes authentication and reads no receiver state holds of an emitted
envelope, save that the key identifier is whatever was configured. -/
theorem Emits.wellFormed {host : Host ρ} {x : TransportSecurity×ρ} {protocol : UInt8}
    {plaintext : Span} {cipher opener : IAeadCipher} {key : KeyMaterialView} {e : Envelope}
    (h : Emits host x protocol plaintext cipher key e) (hc : x.1.Consistent)
    (hk : x.1.config.outboundKeyID≠0) (receiver : Host σ)
    (nonce : opener.nonceSize=cipher.nonceSize) (tag : opener.tagSize=cipher.tagSize)
    (hw : e.bytes.length<2^receiver.sizeBits) : WellFormed receiver opener e.bytes e.header := by
  have carries := h.carries
  refine ⟨e.readHeader_bytes,carries.magic,carries.version,?_,h.session_ne hc,?_,?_,?_,?_⟩
  · rw [expectedSize_eq (Envelope.noWrap hw),e.bytes_length]
  · rw [carries.sequence]
    exact hc.counter
  · rw [carries.keyID]
    exact hk
  · rw [nonce]
    exact h.seals.nonce_size
  · rw [tag]
    exact h.seals.tag_size

/-- Past the structural checks no failure is reported as `MalformedEnvelope`. -/
theorem wellFormed_error {host : Host ρ} {s : TransportSecurity} {input : Span} {h : Header}
    {cipher : IAeadCipher} (valid : input.invalid=false)
    (form : WellFormed host cipher input.content h)
    (found : host.ciphers.find ⟨h.algorithm⟩=some cipher)
    (bounded : h.ciphertextLength.toNat ≤ s.config.maximumPlaintextBytes) (expectedProtocol : UInt8) :
    (unprotect host s expectedProtocol input).result.error≠.malformedEnvelope := by
  rw [unprotect_wellFormed valid form found bounded]
  unfold unprotectKnown
  by_cases hw : s.replay.wouldAccept h.domain h.sequence=false
  · rw [if_pos hw]
    exact SecurityError.noConfusion
  rw [if_neg hw]
  cases host.keys.getKey h.keyID ⟨h.algorithm⟩ with
  | none => exact SecurityError.noConfusion
  | some key =>
    dsimp only
    by_cases hk : key.size≠cipher.keySize
    · rw [if_pos hk]
      exact SecurityError.noConfusion
    · rw [if_neg hk]
      unfold openEnvelope
      dsimp only
      split_ifs
      · exact SecurityError.noConfusion
      · exact SecurityError.noConfusion
      · exact SecurityError.noConfusion
      · exact SecurityError.noConfusion

/-- The checks of `Unprotect` that precede authentication, on a receiver with these ciphers and this
payload limit, with the lengths added up as natural numbers. -/
def StructurallySound (ciphers : AeadCipherRegistry) (maximum : Nat) (b : Bytes) : Prop :=
  ∃ h cipher,readHeader b=some h ∧ h.magic=envelopeMagic ∧ h.version=envelopeVersion ∧
    44+h.nonceLength.toNat+h.ciphertextLength.toNat+h.tagLength.toNat=b.length ∧
    h.keyID≠0 ∧ h.sessionID≠0 ∧ h.sequence≠0 ∧ h.ciphertextLength.toNat ≤ maximum ∧
    ciphers.find ⟨h.algorithm⟩=some cipher ∧ h.nonceLength.toNat=cipher.nonceSize ∧
    h.tagLength.toNat=cipher.tagSize

theorem Emits.sound {host : Host ρ} {x : TransportSecurity×ρ} {protocol : UInt8}
    {plaintext : Span} {cipher : IAeadCipher} {key : KeyMaterialView} {e : Envelope}
    (h : Emits host x protocol plaintext cipher key e) (hc : x.1.Consistent)
    (hk : x.1.config.outboundKeyID≠0) :
    StructurallySound host.ciphers x.1.config.maximumPlaintextBytes e.bytes := by
  have carries := h.carries
  refine ⟨e.header,cipher,e.readHeader_bytes,carries.magic,carries.version,
    e.bytes_length.symm,?_,h.session_ne hc,?_,?_,?_,h.seals.nonce_size,h.seals.tag_size⟩
  · rw [carries.keyID]
    exact hk
  · rw [carries.sequence]
    exact hc.counter
  · rw [h.seals.ciphertext_size]
    exact h.ready.bounded
  · rw [carries.algorithm]
    exact h.ready.cipher_found

/-- An envelope under the key identifier zero is refused by every receiver with room for it. -/
theorem Emits.refused {host : Host ρ} {x : TransportSecurity×ρ} {protocol : UInt8}
    {plaintext : Span} {cipher : IAeadCipher} {key : KeyMaterialView} {e : Envelope}
    (h : Emits host x protocol plaintext cipher key e) (hk : x.1.config.outboundKeyID=0)
    (receiver : Host σ) (t : TransportSecurity)
    (bounded : x.1.config.maximumPlaintextBytes≤t.config.maximumPlaintextBytes)
    (expectedProtocol : UInt8) :
    (unprotect receiver t expectedProtocol (.bytes e.bytes)).result.error=.malformedEnvelope := by
  have carries := h.carries
  have hr : readHeader (Span.bytes e.bytes).content=some e.header := e.readHeader_bytes
  have looks := looksProtected_of_read hr carries.magic
  have hs : ¬Span.size (.bytes e.bytes)<fixedHeaderSize := by
    show ¬e.bytes.length<44
    rw [e.bytes_length]
    omega
  have hm : ¬(e.header.magic≠envelopeMagic ∨ e.header.version≠envelopeVersion) := by
    simp [carries.magic,carries.version]
  have hb : ¬e.header.ciphertextLength.toNat>t.config.maximumPlaintextBytes := by
    rw [h.seals.ciphertext_size]
    exact Nat.not_lt.mpr (h.ready.bounded.trans bounded)
  have he : expectedSize receiver e.header≠Span.size (.bytes e.bytes) ∨ e.header.sessionID=0 ∨
      e.header.sequence=0 ∨ e.header.keyID=0 :=
    Or.inr (Or.inr (Or.inr (carries.keyID.trans hk)))
  unfold unprotect
  rw [if_neg (by simp [Span.invalid]),if_neg (by simp [looks]),if_neg hs,hr]
  dsimp only
  rw [if_neg hm,if_neg hb,if_pos he]
  rfl

/-- In every reachable state a protected `Protect` meets the receiver's structural checks, and no
receiver refuses its envelope as malformed, exactly when the configured key identifier is not zero. -/
theorem emitted_structure_iff (config : TransportSecurityConfig) (r : ρ)
    (ops : List (Operation ρ)) (host : Host ρ) (protocol : UInt8) (plaintext : Span) (b : Bytes)
    (emits : emitted (step (reached config r ops) (.protect host protocol plaintext)).2=some b) :
    (StructurallySound host.ciphers (reached config r ops).1.config.maximumPlaintextBytes b ↔
      (reached config r ops).1.config.outboundKeyID≠0) ∧
    ((∀ (σ : Type) (receiver : Host σ) (t : TransportSecurity) (expectedProtocol : UInt8),
        receiver.ciphers=host.ciphers →
        (reached config r ops).1.config.maximumPlaintextBytes≤t.config.maximumPlaintextBytes →
        b.length<2^receiver.sizeBits →
        (unprotect receiver t expectedProtocol (.bytes b)).result.error≠.malformedEnvelope) ↔
      (reached config r ops).1.config.outboundKeyID≠0) := by
  obtain ⟨cipher,key,e,h,rfl⟩ := emitted_protect emits
  have hc : (reached config r ops).1.Consistent :=
    run_consistent (new config,r) ops (new_consistent config)
  have carries := h.carries
  refine ⟨⟨?_,h.sound hc⟩,?_,?_⟩
  · intro ⟨header,_,hr,_,_,_,hk,_⟩
    rw [e.readHeader_bytes] at hr
    obtain rfl := Option.some.inj hr
    rw [← carries.keyID]
    exact hk
  · intro accepted hk
    obtain ⟨receiver,same,hw⟩ : ∃ receiver : Host ρ,receiver.ciphers=host.ciphers ∧
        e.bytes.length<2^receiver.sizeBits := by
      refine ⟨{host with sizeBits := e.bytes.length},rfl,?_⟩
      generalize e.bytes.length=n
      exact Nat.lt_two_pow_self
    exact accepted ρ receiver (reached config r ops).1 protocol same (le_refl _) hw
      (h.refused hk receiver _ (le_refl _) protocol)
  · intro hk σ receiver t expectedProtocol same bounded hw
    have found : receiver.ciphers.find ⟨e.header.algorithm⟩=some cipher := by
      rw [same,carries.algorithm]
      exact h.ready.cipher_found
    have fits : e.header.ciphertextLength.toNat≤t.config.maximumPlaintextBytes := by
      rw [h.seals.ciphertext_size]
      exact h.ready.bounded.trans bounded
    have form : WellFormed receiver cipher (Span.bytes e.bytes).content e.header :=
      h.wellFormed hc hk receiver rfl rfl hw
    exact wellFormed_error rfl form found fits expectedProtocol

/-- The second envelope after a drawn session, a configured one and an arrival. -/
theorem emitted_structure_key_one :
    let host := testHost (TinyCipher .testOnly 2 2 2) 1 [1,2]
    let config : TransportSecurityConfig := {outboundAlgorithm := .testOnly}
    let ops : List (Operation UInt8) := [.protect host 3 (.bytes [1]),
      .setConfig {config with sessionID := 7},.protect host 3 (.bytes [2]),
      .unprotect host 3 (.bytes [4])]
    let out := protect host (reached config 1 ops).1 (reached config 1 ops).2 3 (.bytes [9])
    StructurallySound host.ciphers config.maximumPlaintextBytes out.output ∧
    (readHeader out.output).map (fun h => (h.sessionID,h.sequence))=some (7,2) := by
  intro host config ops out
  have emits : emitted (step (reached config 1 ops) (.protect host 3 (.bytes [9]))).2=
      some out.output := by decide +kernel
  have limit : (reached config 1 ops).1.config.maximumPlaintextBytes=
      config.maximumPlaintextBytes := by decide +kernel
  have sound := (emitted_structure_iff config 1 ops host 3 (.bytes [9]) _ emits).1.mpr
    (by decide +kernel)
  rw [limit] at sound
  exact ⟨sound,by decide +kernel⟩

/-- A provider that answers for the identifier zero makes `Protect` emit what no receiver takes. -/
theorem emitted_structure_key_zero :
    let host : Host UInt8 := {testHost (TinyCipher .testOnly 2 2 2) 1 [1,2] with
      keys := ⟨fun keyID _ => some ⟨keyID,[1,2]⟩⟩}
    let config : TransportSecurityConfig :=
      {outboundAlgorithm := .testOnly,outboundKeyID := 0,sessionID := 7}
    let out := protect host (new config) 1 3 (.bytes [9])
    out.result=.ok true ∧
    ¬StructurallySound host.ciphers config.maximumPlaintextBytes out.output ∧
    (unprotect host (new config) 3 (.bytes out.output)).result.error=.malformedEnvelope := by
  intro host config out
  have zero : (readHeader out.output).map Header.keyID=some 0 := by decide
  refine ⟨by decide,?_,by decide⟩
  intro ⟨header,_,hr,_,_,_,hk,_⟩
  rw [hr] at zero
  exact hk (Option.some.inj zero)

end TransportSecurity
end ESPressioSecurity
