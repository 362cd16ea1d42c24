import ESPressioSecurity.Transport.Envelope

namespace ESPressioSecurity

open Framework

namespace TransportSecurity

variable {ρ : Type}

/-- The checks on an envelope that need no receiver state: they fail as `MalformedEnvelope` or
`UnsupportedVersion`. -/
structure WellFormed (host : Host ρ) (cipher : IAeadCipher) (input : Bytes) (h : Header) :
    Prop where
  read : readHeader input=some h
  magic : h.magic=envelopeMagic
  version : h.version=envelopeVersion
  size : expectedSize host h=input.length
  session : h.sessionID≠0
  sequence : h.sequence≠0
  keyID : h.keyID≠0
  nonce_size : h.nonceLength.toNat=cipher.nonceSize
  tag_size : h.tagLength.toNat=cipher.tagSize

/-- All that `Unprotect` checks before it asks for the plaintext buffer. -/
structure Checked (host : Host ρ) (s : TransportSecurity) (input : Bytes) (h : Header)
    (cipher : IAeadCipher) (key : KeyMaterialView) : Prop where
  well_formed : WellFormed host cipher input h
  bounded : h.ciphertextLength.toNat ≤ s.config.maximumPlaintextBytes
  cipher_found : host.ciphers.find ⟨h.algorithm⟩=some cipher
  fresh : s.replay.wouldAccept h.domain h.sequence=true
  key_found : host.keys.getKey h.keyID ⟨h.algorithm⟩=some key
  key_size : key.size=cipher.keySize

/-- What gets to `Open`: the checks have passed and the plaintext buffer has been granted. -/
structure Admitted (host : Host ρ) (s : TransportSecurity) (input : Bytes) (h : Header)
    (cipher : IAeadCipher) (key : KeyMaterialView) : Prop
    extends Checked host s input h cipher key where
  room : h.ciphertextLength.toNat≤SecurityBuffer.maxSize host.sizeBits

/-- The input is an envelope with header `h`, as far as its bytes and the registered cipher tell. -/
def IsEnvelope (host : Host ρ) (input : Bytes) (h : Header) : Prop :=
  ∃ cipher,host.ciphers.find ⟨h.algorithm⟩=some cipher ∧ WellFormed host cipher input h

/-- The `Open` call on the parts a header delimits. -/
def opening (input : Bytes) (h : Header) (cipher : IAeadCipher) (key : KeyMaterialView) :
    OpenOutcome (slice input (44+h.nonceLength.toNat) h.ciphertextLength.toNat).length :=
  cipher.aeadOpen key.data (slice input 44 h.nonceLength.toNat) (slice input 0 44)
    (slice input (44+h.nonceLength.toNat) h.ciphertextLength.toNat)
    (slice input (44+h.nonceLength.toNat+h.ciphertextLength.toNat) h.tagLength.toNat)

def openCall (input : Bytes) (h : Header) (cipher : IAeadCipher) (key : KeyMaterialView) : OpenCall :=
  ⟨key.data,slice input 44 h.nonceLength.toNat,slice input 0 44,
    slice input (44+h.nonceLength.toNat) h.ciphertextLength.toNat,
    slice input (44+h.nonceLength.toNat+h.ciphertextLength.toNat) h.tagLength.toNat,
    (opening input h cipher key).ok,(opening input h cipher key).plaintext.val⟩

/-- The plaintext buffer is granted and `Open` called on it. -/
def openingEffects (input : Bytes) (h : Header) (cipher : IAeadCipher) (key : KeyMaterialView) :
    List Effect :=
  [.resized ⟨h.ciphertextLength.toNat,true⟩,.opened (openCall input h cipher key)]

def Header.payload (h : Header) (data : Bytes) : UnprotectedPayload where
  protocol := h.protocol
  keyID := h.keyID
  senderID := h.senderID
  sessionID := h.sessionID
  sequence := h.sequence
  algorithm := ⟨h.algorithm⟩
  isProtected := true
  data := data

def commit (s : TransportSecurity) (h : Header) : TransportSecurity :=
  {s with replay := s.replay.commit h.domain h.sequence}

def accept (s : TransportSecurity) (input : Bytes) (h : Header) (cipher : IAeadCipher)
    (key : KeyMaterialView) : UnprotectOutcome :=
  ⟨.ok true,h.payload (opening input h cipher key).plaintext.val,s.commit h,
    openingEffects input h cipher key⟩

def passPlaintext (s : TransportSecurity) (expectedProtocol : UInt8) (input : Span) :
    UnprotectOutcome :=
  ⟨.ok false,{protocol := expectedProtocol,isProtected := false,data := input.content},s,[]⟩

/-- The outcomes of `Unprotect`: a refusal before authentication, a plaintext exit, a plaintext buffer
larger than any vector, a refusal after `Open`, and acceptance. -/
inductive UnprotectCase (host : Host ρ) (s : TransportSecurity) (expectedProtocol : UInt8)
    (input : Span) : UnprotectOutcome → Prop
  | rejected (error : SecurityError) (message : String) :
      UnprotectCase host s expectedProtocol input (reject s [] error message)
  | passed (valid : input.invalid=false) (plain : looksProtected input=false)
      (policy : s.config.policy≠.required) :
      UnprotectCase host s expectedProtocol input (passPlaintext s expectedProtocol input)
  | thrown (h : Header) (cipher : IAeadCipher) (key : KeyMaterialView)
      (checked : Checked host s input.content h cipher key)
      (large : SecurityBuffer.maxSize host.sizeBits<h.ciphertextLength.toNat) :
      UnprotectCase host s expectedProtocol input (throwLength s h.ciphertextLength.toNat)
  | unopened (h : Header) (cipher : IAeadCipher) (key : KeyMaterialView)
      (admitted : Admitted host s input.content h cipher key)
      (reason : (opening input.content h cipher key).ok=false ∨ h.protocol≠expectedProtocol)
      (error : SecurityError) (message : String) :
      UnprotectCase host s expectedProtocol input
        (reject s (openingEffects input.content h cipher key) error message)
  | accepted (h : Header) (cipher : IAeadCipher) (key : KeyMaterialView)
      (admitted : Admitted host s input.content h cipher key)
      (opened : (opening input.content h cipher key).ok=true)
      (protocol : h.protocol=expectedProtocol) :
      UnprotectCase host s expectedProtocol input (accept s input.content h cipher key)

theorem openEnvelope_case {host : Host ρ} {s : TransportSecurity} {input : Span} {h : Header}
    {cipher : IAeadCipher} {key : KeyMaterialView}
    (checked : Checked host s input.content h cipher key) (expectedProtocol : UInt8) :
    UnprotectCase host s expectedProtocol input
      (openEnvelope host s expectedProtocol input.content h cipher key) := by
  unfold openEnvelope
  dsimp only
  split_ifs with hl ho hp
  · exact .thrown h cipher key checked hl
  all_goals have admitted : Admitted host s input.content h cipher key := ⟨checked,Nat.not_lt.mp hl⟩
  · exact .unopened h cipher key admitted (Or.inl ho) _ _
  · exact .unopened h cipher key admitted (Or.inr hp) _ _
  · exact .accepted h cipher key admitted (Bool.eq_true_of_not_eq_false ho) (not_not.mp hp)

theorem unprotect_case (host : Host ρ) (s : TransportSecurity) (expectedProtocol : UInt8)
    (input : Span) :
    UnprotectCase host s expectedProtocol input (unprotect host s expectedProtocol input) := by
  unfold unprotect
  by_cases hv : input.invalid=true
  · rw [if_pos hv]
    exact .rejected _ _
  have valid := Bool.eq_false_of_not_eq_true hv
  rw [if_neg hv]
  by_cases hl : looksProtected input=false
  · rw [if_pos hl]
    by_cases hp : s.config.policy=.required
    · rw [if_pos hp]
      exact .rejected _ _
    · rw [if_neg hp]
      exact .passed valid hl hp
  rw [if_neg hl]
  by_cases hs : input.size<fixedHeaderSize
  · rw [if_pos hs]
    exact .rejected _ _
  rw [if_neg hs]
  have hsize := input.size_eq valid
  split
  · exact .rejected _ _
  rename_i h hr
  by_cases hm : h.magic≠envelopeMagic ∨ h.version≠envelopeVersion
  · rw [if_pos hm]
    split_ifs <;> exact .rejected _ _
  rw [if_neg hm]
  split
  · exact .rejected _ _
  rename_i hb
  split
  · exact .rejected _ _
  rename_i he
  split
  · exact .rejected _ _
  rename_i cipher hc
  split
  · exact .rejected _ _
  rename_i hn
  split
  · exact .rejected _ _
  rename_i hw
  split
  · exact .rejected _ _
  rename_i key hk
  split
  · exact .rejected _ _
  rename_i hks
  simp only [not_or,not_not,not_lt,gt_iff_lt] at hm he hb hn hks
  apply openEnvelope_case
  exact ⟨⟨hr,hm.1,hm.2,he.1.trans hsize,he.2.1,he.2.2.1,he.2.2.2,hn.1,hn.2⟩,hb,hc,
    Bool.eq_true_of_not_eq_false hw,hk,hks⟩

/-- A header can be read only from input that holds it. -/
theorem looksProtected_of_read {input : Span} {h : Header}
    (hr : readHeader input.content=some h) (hm : h.magic=envelopeMagic) :
    looksProtected input=true := by
  obtain ⟨hl,ht⟩ := (readHeader_iff _ _).mp hr
  cases input with
  | null n => simp [Span.content] at hl
  | bytes b =>
    have hb : b=h.bytes++b.drop 44 := by
      rw [← ht]
      exact (List.take_append_drop 44 b).symm
    rw [hb]
    exact (looksProtected_iff h _).mpr hm

/-- What holds where `Unprotect` has got past its check of the total length. -/
structure LengthChecked (host : Host ρ) (s : TransportSecurity) (input : Bytes) (h : Header) :
    Prop where
  read : readHeader input=some h
  magic : h.magic=envelopeMagic
  version : h.version=envelopeVersion
  bounded : h.ciphertextLength.toNat ≤ s.config.maximumPlaintextBytes
  size : expectedSize host h=input.length
  session : h.sessionID≠0
  sequence : h.sequence≠0
  keyID : h.keyID≠0

/-- What `Unprotect` does once the envelope is well formed and its cipher known. -/
def unprotectKnown (host : Host ρ) (s : TransportSecurity) (expectedProtocol : UInt8)
    (input : Bytes) (h : Header) (cipher : IAeadCipher) : UnprotectOutcome :=
  if s.replay.wouldAccept h.domain h.sequence=false then
    reject s [] .replayDetected "Replay or stale protected transport payload rejected"
  else match host.keys.getKey h.keyID ⟨h.algorithm⟩ with
  | none => reject s [] .missingKey "Inbound key is unavailable"
  | some key =>
    if key.size≠cipher.keySize then
      reject s [] .invalidKeyLength "Inbound key length does not match AEAD algorithm"
    else openEnvelope host s expectedProtocol input h cipher key

/-- What `Unprotect` does after its check of the total length. -/
def unprotectChecked (host : Host ρ) (s : TransportSecurity) (expectedProtocol : UInt8)
    (input : Bytes) (h : Header) : UnprotectOutcome :=
  match host.ciphers.find ⟨h.algorithm⟩ with
  | none => reject s [] .unsupportedAlgorithm "Inbound AEAD algorithm is not registered"
  | some cipher =>
    if h.nonceLength.toNat≠cipher.nonceSize ∨ h.tagLength.toNat≠cipher.tagSize then
      reject s [] .malformedEnvelope "Nonce/tag size does not match AEAD algorithm"
    else unprotectKnown host s expectedProtocol input h cipher

theorem unprotect_lengthChecked {host : Host ρ} {s : TransportSecurity} {input : Span}
    {h : Header} (valid : input.invalid=false) (checked : LengthChecked host s input.content h)
    (expectedProtocol : UInt8) : unprotect host s expectedProtocol input=
      unprotectChecked host s expectedProtocol input.content h := by
  have looks := looksProtected_of_read checked.read checked.magic
  have hl := ((readHeader_iff _ _).mp checked.read).1
  have hsize := input.size_eq valid
  have hs : ¬input.size<fixedHeaderSize := by
    rw [hsize]
    exact Nat.not_lt.mpr hl
  have hm : ¬(h.magic≠envelopeMagic ∨ h.version≠envelopeVersion) := by
    simp [checked.magic,checked.version]
  have he : ¬(expectedSize host h≠input.size ∨ h.sessionID=0 ∨ h.sequence=0 ∨ h.keyID=0) := by
    simp [checked.size,hsize,checked.session,checked.sequence,checked.keyID]
  unfold unprotect
  rw [if_neg (by simp [valid]),if_neg (by simp [looks]),if_neg hs,checked.read]
  dsimp only
  rw [if_neg hm,if_neg (Nat.not_lt.mpr checked.bounded),if_neg he]
  rfl

theorem unprotect_wellFormed {host : Host ρ} {s : TransportSecurity} {input : Span} {h : Header}
    {cipher : IAeadCipher} (valid : input.invalid=false)
    (form : WellFormed host cipher input.content h)
    (found : host.ciphers.find ⟨h.algorithm⟩=some cipher)
    (bounded : h.ciphertextLength.toNat ≤ s.config.maximumPlaintextBytes) (expectedProtocol : UInt8) :
    unprotect host s expectedProtocol input=
      unprotectKnown host s expectedProtocol input.content h cipher := by
  have hn : ¬(h.nonceLength.toNat≠cipher.nonceSize ∨ h.tagLength.toNat≠cipher.tagSize) := by
    simp [form.nonce_size,form.tag_size]
  rw [unprotect_lengthChecked valid ⟨form.read,form.magic,form.version,bounded,form.size,
    form.session,form.sequence,form.keyID⟩]
  unfold unprotectChecked
  rw [found]
  exact if_neg hn

/-- What passes every check gets to the plaintext buffer. -/
theorem Checked.unprotect {host : Host ρ} {s : TransportSecurity} {input : Span} {h : Header}
    {cipher : IAeadCipher} {key : KeyMaterialView}
    (checked : Checked host s input.content h cipher key) (valid : input.invalid=false)
    (expectedProtocol : UInt8) : unprotect host s expectedProtocol input=
      openEnvelope host s expectedProtocol input.content h cipher key := by
  rw [unprotect_wellFormed valid checked.well_formed checked.cipher_found checked.bounded]
  unfold unprotectKnown
  rw [if_neg (by simp [checked.fresh]),checked.key_found]
  exact if_neg (fun hk => hk checked.key_size)

/-- What is admitted and opens under the expected protocol is accepted. -/
theorem unprotect_accept {host : Host ρ} {s : TransportSecurity} {expectedProtocol : UInt8}
    {input : Span} {h : Header} {cipher : IAeadCipher} {key : KeyMaterialView}
    (valid : input.invalid=false) (admitted : Admitted host s input.content h cipher key)
    (opened : (opening input.content h cipher key).ok=true) (protocol : h.protocol=expectedProtocol) :
    unprotect host s expectedProtocol input=accept s input.content h cipher key := by
  have ho : ¬(opening input.content h cipher key).ok=false := by simp [opened]
  have hp : ¬h.protocol≠expectedProtocol := not_not.mpr protocol
  rw [admitted.toChecked.unprotect valid]
  unfold openEnvelope
  exact (if_neg (Nat.not_lt.mpr admitted.room)).trans ((if_neg ho).trans (if_neg hp))

/-- A failing call leaves the payload in its reset state and the receiver as it was. -/
theorem unprotect_failure {host : Host ρ} {s : TransportSecurity} {expectedProtocol : UInt8}
    {input : Span} (h : (unprotect host s expectedProtocol input).result.success=false) :
    (unprotect host s expectedProtocol input).payload={} ∧
      (unprotect host s expectedProtocol input).security=s := by
  have hc := unprotect_case host s expectedProtocol input
  generalize unprotect host s expectedProtocol input=out at hc h ⊢
  cases hc with
  | rejected error message => exact ⟨rfl,rfl⟩
  | passed valid plain policy => exact absurd h (by simp [passPlaintext])
  | thrown header cipher key checked large => exact ⟨rfl,rfl⟩
  | unopened header cipher key admitted reason error message => exact ⟨rfl,rfl⟩
  | accepted header cipher key admitted opened protocol => exact absurd h (by simp [accept])

/-- A successful call is a plaintext exit that changes nothing or an acceptance. -/
theorem unprotect_success {host : Host ρ} {s : TransportSecurity} {expectedProtocol : UInt8}
    {input : Span} (h : (unprotect host s expectedProtocol input).result.success=true) :
    (input.invalid=false ∧ looksProtected input=false ∧ s.config.policy≠.required ∧
      unprotect host s expectedProtocol input=passPlaintext s expectedProtocol input) ∨
    ∃ header cipher key,Admitted host s input.content header cipher key ∧
      (opening input.content header cipher key).ok=true ∧ header.protocol=expectedProtocol ∧
      unprotect host s expectedProtocol input=accept s input.content header cipher key := by
  have hc := unprotect_case host s expectedProtocol input
  generalize unprotect host s expectedProtocol input=out at hc h ⊢
  cases hc with
  | rejected error message => exact absurd h (by simp [reject])
  | passed valid plain policy => exact Or.inl ⟨valid,plain,policy,rfl⟩
  | thrown header cipher key checked large => exact absurd h (by simp [throwLength])
  | unopened header cipher key admitted reason error message => exact absurd h (by simp [reject])
  | accepted header cipher key admitted opened protocol =>
    exact Or.inr ⟨header,cipher,key,admitted,opened,protocol,rfl⟩

/-- A call asks for its plaintext buffer, opens and notifies, and does nothing else that can be
seen. -/
theorem unprotect_only {host : Host ρ} {s : TransportSecurity} {expectedProtocol : UInt8}
    {input : Span} {e : Effect} (h : e∈(unprotect host s expectedProtocol input).effects) :
    (∃ header cipher key,Checked host s input.content header cipher key ∧
      e=.resized ⟨header.ciphertextLength.toNat,
        decide (header.ciphertextLength.toNat≤SecurityBuffer.maxSize host.sizeBits)⟩) ∨
    (∃ header cipher key,Admitted host s input.content header cipher key ∧
      e=.opened (openCall input.content header cipher key)) ∨ ∃ n,e=.notified n := by
  have hc := unprotect_case host s expectedProtocol input
  generalize unprotect host s expectedProtocol input=out at hc h
  have opens : ∀ {header : Header} {cipher : IAeadCipher} {key : KeyMaterialView},
      Admitted host s input.content header cipher key →
      e∈openingEffects input.content header cipher key →
      (∃ header cipher key,Checked host s input.content header cipher key ∧
        e=.resized ⟨header.ciphertextLength.toNat,
          decide (header.ciphertextLength.toNat≤SecurityBuffer.maxSize host.sizeBits)⟩) ∨
      (∃ header cipher key,Admitted host s input.content header cipher key ∧
        e=.opened (openCall input.content header cipher key)) ∨ ∃ n,e=.notified n := by
    intro header cipher key admitted he
    rcases List.mem_cons.mp he with he|he
    · refine Or.inl ⟨header,cipher,key,admitted.toChecked,?_⟩
      rw [he,decide_eq_true admitted.room]
    · exact Or.inr (Or.inl ⟨header,cipher,key,admitted,List.mem_singleton.mp he⟩)
  cases hc with
  | rejected error message => exact Or.inr (Or.inr ⟨_,notify_only h⟩)
  | passed valid plain policy => exact absurd h (by simp [passPlaintext])
  | thrown header cipher key checked large =>
    refine Or.inl ⟨header,cipher,key,checked,?_⟩
    rw [List.mem_singleton.mp h,decide_eq_false (Nat.not_le.mpr large)]
  | unopened header cipher key admitted reason error message =>
    rcases List.mem_append.mp h with h|h
    · exact opens admitted h
    · exact Or.inr (Or.inr ⟨_,notify_only h⟩)
  | accepted header cipher key admitted opened protocol => exact opens admitted h

theorem unprotect_quiet (host : Host ρ) (s : TransportSecurity) (expectedProtocol : UInt8)
    (input : Span) : Quiet (unprotect host s expectedProtocol input).effects := by
  intro call h
  obtain ⟨_,_,_,_,he⟩|⟨_,_,_,_,he⟩|⟨n,he⟩ := unprotect_only h
  · exact absurd he (by simp)
  · exact absurd he (by simp)
  · exact absurd he (by simp)

/-- A success is a return. -/
theorem unprotect_returned {host : Host ρ} {s : TransportSecurity} {expectedProtocol : UInt8}
    {input : Span} (h : (unprotect host s expectedProtocol input).result.success=true) :
    threw (unprotect host s expectedProtocol input).effects=false := by
  obtain ⟨_,_,_,he⟩|⟨header,cipher,key,_,_,_,he⟩ := unprotect_success h
  · rw [he]
    rfl
  · rw [he]
    rfl

/-! ### The envelope in the input -/

/-- The lengths stated by a header and the header itself add up below the range of `size_t`. -/
def NoWrap (host : Host ρ) (h : Header) : Prop :=
  44+h.nonceLength.toNat+h.ciphertextLength.toNat+h.tagLength.toNat<2^host.sizeBits

/-- A `size_t` wider than the length fields never wraps. -/
theorem noWrap_of_bits {host : Host ρ} (bits : 33≤host.sizeBits) (h : Header) : NoWrap host h := by
  have wide : 2^33≤2^host.sizeBits := Nat.pow_le_pow_right (by decide) bits
  have hn := h.nonceLength.toNat_lt
  have hc := h.ciphertextLength.toNat_lt
  have ht := h.tagLength.toNat_lt
  rw [NoWrap]
  omega

theorem expectedSize_eq {host : Host ρ} {h : Header} (hw : NoWrap host h) :
    expectedSize host h=44+h.nonceLength.toNat+h.ciphertextLength.toNat+h.tagLength.toNat :=
  Nat.mod_eq_of_lt hw

/-- Lengths whose plaintext buffer is granted do not wrap `size_t`: those that do ask for more than
half its range. -/
theorem noWrap_of_room {host : Host ρ} (width : 32≤host.sizeBits) {h : Header}
    (room : h.ciphertextLength.toNat≤SecurityBuffer.maxSize host.sizeBits) : NoWrap host h := by
  have half := SecurityBuffer.maxSize_half width
  have hn := h.nonceLength.toNat_lt
  have ht := h.tagLength.toNat_lt
  rw [NoWrap]
  omega

theorem Envelope.noWrap {host : Host ρ} {e : Envelope} (h : e.bytes.length<2^host.sizeBits) :
    NoWrap host e.header := by
  rw [e.bytes_length] at h
  exact h

/-- The plaintext buffer for an envelope in memory is no larger than a vector can be. -/
theorem Envelope.room {host : Host ρ} {e : Envelope}
    (h : e.bytes.length≤SecurityBuffer.maxSize host.sizeBits) :
    e.header.ciphertextLength.toNat≤SecurityBuffer.maxSize host.sizeBits := by
  rw [e.bytes_length] at h
  omega

/-- The slices `Unprotect` takes of an envelope are its parts. -/
theorem opening_envelope (e : Envelope) (cipher : IAeadCipher) (key : KeyMaterialView) :
    (opening e.bytes e.header cipher key).ok=
      (cipher.aeadOpen key.data e.nonce e.header.bytes e.ciphertext e.tag).ok ∧
    (opening e.bytes e.header cipher key).plaintext.val=
      (cipher.aeadOpen key.data e.nonce e.header.bytes e.ciphertext e.tag).plaintext.val := by
  have header : slice e.bytes 0 44=e.header.bytes := by
    rw [Envelope.bytes,List.append_assoc,List.append_assoc,slice_zero]
    exact List.take_left' e.header.bytes_length
  have nonce : slice e.bytes 44 e.header.nonceLength.toNat=e.nonce := by
    rw [Envelope.bytes,List.append_assoc]
    exact slice_middle _ _ _ _ _ e.header.bytes_length e.nonce_length
  have ciphertext : slice e.bytes (44+e.header.nonceLength.toNat) e.header.ciphertextLength.toNat=
      e.ciphertext :=
    slice_middle _ _ _ _ _ (by simp [e.nonce_length]) e.ciphertext_length
  have tag : slice e.bytes (44+e.header.nonceLength.toNat+e.header.ciphertextLength.toNat)
      e.header.tagLength.toNat=e.tag := by
    have last := slice_middle (e.header.bytes++e.nonce++e.ciphertext) e.tag []
      (44+e.header.nonceLength.toNat+e.header.ciphertextLength.toNat) _
      (by simp [e.nonce_length,e.ciphertext_length,Nat.add_assoc]) e.tag_length
    rw [List.append_nil] at last
    exact last
  unfold opening
  rw [header,nonce,ciphertext,tag]
  exact ⟨rfl,rfl⟩

/-- Input that is admitted is an envelope, when its lengths add up within `size_t`. -/
theorem Admitted.envelope {host : Host ρ} {s : TransportSecurity} {input : Bytes} {h : Header}
    {cipher : IAeadCipher} {key : KeyMaterialView} (admitted : Admitted host s input h cipher key)
    (hw : NoWrap host h) : ∃ e : Envelope,e.header=h ∧ e.bytes=input := by
  have form := admitted.well_formed
  obtain ⟨e,hh,hb,_⟩ := Envelope.of_header form.read ((expectedSize_eq hw).symm.trans form.size)
  exact ⟨e,hh,hb⟩

end TransportSecurity
end ESPressioSecurity
