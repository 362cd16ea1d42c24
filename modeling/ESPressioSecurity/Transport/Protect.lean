import ESPressioSecurity.Transport.Envelope

namespace ESPressioSecurity

open Framework

namespace TransportSecurity

variable {ρ : Type}

/-! ### The session step -/

theorem drawSessionID_ne_zero (source : IRandomSource ρ) (n : Nat) (r : ρ) (c : UInt64)
    (h : (drawSessionID source n r).1=some c) : c≠0 := by
  induction n generalizing r with
  | zero => simp [drawSessionID] at h
  | succ n ih =>
    rw [drawSessionID] at h
    dsimp only at h
    split_ifs at h with hk hc
    · have he := Option.some.inj h
      subst he
      exact hc
    · exact ih _ h

theorem drawSessionID_quiet (source : IRandomSource ρ) (n : Nat) (r : ρ) :
    Quiet (drawSessionID source n r).2.2 := by
  induction n generalizing r with
  | zero => exact quiet_nil
  | succ n ih =>
    intro call
    rw [drawSessionID]
    dsimp only
    split_ifs with hk hc
    · simp
    · simp
    · simp [ih _ call]

theorem notify_quiet (s : TransportSecurity) (n : Notification) : Quiet (s.notify n) :=
  quiet_of_notified (fun _ h => ⟨n,notify_only h⟩)

/-- What `EnsureSessionID` leaves: nothing happens to a ready session, and a session becomes ready
only with the configured or a drawn identifier, never with zero. -/
inductive SessionCase (host : Host ρ) (s : TransportSecurity) (r : ρ) : SessionOutcome ρ → Prop
  | ready (h : s.sessionReady=true) : SessionCase host s r ⟨true,s,r,[]⟩
  | established (sessionID : UInt64) (random : ρ) (effects : List Effect)
      (fresh : s.sessionReady=false) (nonzero : sessionID≠0)
      (source : s.config.sessionID=sessionID ∨
        s.config.sessionID=0 ∧ (drawSessionID host.random 4 r).1=some sessionID)
      (quiet : Quiet effects) :
      SessionCase host s r ⟨true,s.establish sessionID,random,effects⟩
  | failed (random : ρ) (effects : List Effect) (fresh : s.sessionReady=false)
      (quiet : Quiet effects) : SessionCase host s r ⟨false,s,random,effects⟩

theorem ensureSessionID_cases (host : Host ρ) (s : TransportSecurity) (r : ρ) :
    SessionCase host s r (ensureSessionID host s r) := by
  unfold ensureSessionID
  split_ifs with hr hc
  · exact .ready hr
  · exact .established _ _ _ (by simpa using hr) hc (Or.inl rfl) (notify_quiet s _)
  · have hz : s.config.sessionID=0 := by simpa using hc
    have quiet := drawSessionID_quiet host.random 4 r
    dsimp only
    split
    · rename_i candidate hd
      exact .established _ _ _ (by simpa using hr)
        (drawSessionID_ne_zero host.random 4 r candidate hd) (Or.inr ⟨hz,hd⟩)
        (quiet_append quiet (notify_quiet s _))
    · exact .failed _ _ (by simpa using hr) quiet

/-! ### The sealing step -/

/-- The envelope `e` comes from one successful `Fill` for its nonce and one successful `Seal` over
its own header. -/
structure Seals (host : Host ρ) (s : TransportSecurity) (r : ρ) (protocol : UInt8)
    (plaintext : Span) (cipher : IAeadCipher) (key : KeyMaterialView) (e : Envelope) : Prop where
  header : e.header=s.outboundHeader cipher protocol plaintext
  nonce_size : e.header.nonceLength.toNat=cipher.nonceSize
  tag_size : e.header.tagLength.toNat=cipher.tagSize
  ciphertext_size : e.header.ciphertextLength.toNat=plaintext.size
  filled : (host.random.fill r cipher.nonceSize).ok=true
  nonce : e.nonce=(host.random.fill r cipher.nonceSize).bytes.val
  sealed : (cipher.aeadSeal key.data e.nonce e.header.bytes plaintext.content cipher.tagSize).ok=true
  ciphertext : e.ciphertext=
    (cipher.aeadSeal key.data e.nonce e.header.bytes plaintext.content cipher.tagSize).ciphertext.val
  tag : e.tag=
    (cipher.aeadSeal key.data e.nonce e.header.bytes plaintext.content cipher.tagSize).tag.val

def consumeSequence (s : TransportSecurity) : TransportSecurity :=
  {s with nextSequence := s.nextSequence+1}

/-- The `Seal` call that made the envelope `e`. -/
def Envelope.sealCall (e : Envelope) (key plaintext : Bytes) : SealCall :=
  ⟨key,e.nonce,e.header.bytes,plaintext,true,e.ciphertext,e.tag⟩

/-- The outcomes of `sealEnvelope`; each of them has consumed the sequence number. -/
inductive SealCase (host : Host ρ) (s : TransportSecurity) (r : ρ) (effects : List Effect)
    (cipher : IAeadCipher) (key : KeyMaterialView) (protocol : UInt8) (plaintext : Span) :
    ProtectOutcome ρ → Prop
  | unallocated : SealCase host s r effects cipher key protocol plaintext
      (refuse s.consumeSequence r effects .bufferLimitExceeded
        "Protected output allocation failed")
  | unfilled (failed : (host.random.fill r cipher.nonceSize).ok=false) :
      SealCase host s r effects cipher key protocol plaintext
      (refuse s.consumeSequence (host.random.fill r cipher.nonceSize).next
        (effects++[.filled ⟨cipher.nonceSize,false,(host.random.fill r cipher.nonceSize).bytes.val⟩])
        .randomFailure "Cryptographic nonce generation failed")
  | unsealed (call : SealCall) (failed : call.ok=false)
      (filled : (host.random.fill r cipher.nonceSize).ok=true)
      (nonce : call.nonce=(host.random.fill r cipher.nonceSize).bytes.val) :
      SealCase host s r effects cipher key protocol plaintext
      (refuse s.consumeSequence (host.random.fill r cipher.nonceSize).next
        (effects++[.filled ⟨cipher.nonceSize,true,call.nonce⟩]++[.sealed call])
        .encryptionFailed "AEAD encryption failed")
  | sealed (e : Envelope) (h : Seals host s r protocol plaintext cipher key e) :
      SealCase host s r effects cipher key protocol plaintext
      ⟨.ok true,e.bytes,s.consumeSequence,(host.random.fill r cipher.nonceSize).next,
        effects++[.filled ⟨cipher.nonceSize,true,e.nonce⟩]++
          [.sealed (e.sealCall key.data plaintext.content)]⟩

/-- A nonce and a `Seal` that succeed make an envelope, when the sizes fit their fields. -/
theorem seals_envelope (host : Host ρ) (s : TransportSecurity) (r : ρ) (cipher : IAeadCipher)
    (key : KeyMaterialView) (protocol : UInt8) (plaintext : Span)
    (valid : plaintext.invalid=false) (hn : cipher.nonceSize≤0xFF) (ht : cipher.tagSize≤0xFF)
    (hp : plaintext.size≤0xFFFFFFFF) (filled : (host.random.fill r cipher.nonceSize).ok=true)
    (ok : (cipher.aeadSeal key.data (host.random.fill r cipher.nonceSize).bytes.val
      (s.outboundHeader cipher protocol plaintext).bytes plaintext.content
      cipher.tagSize).ok=true) :
    ∃ e,Seals host s r protocol plaintext cipher key e := by
  have hn256 : (UInt8.ofNat cipher.nonceSize).toNat=cipher.nonceSize :=
    UInt8.toNat_ofNat_of_lt' (by simp only [UInt8.size]; omega)
  have ht256 : (UInt8.ofNat cipher.tagSize).toNat=cipher.tagSize :=
    UInt8.toNat_ofNat_of_lt' (by simp only [UInt8.size]; omega)
  have hp32 : (UInt32.ofNat plaintext.size).toNat=plaintext.size :=
    UInt32.toNat_ofNat_of_lt' (by simp only [UInt32.size]; omega)
  have hc := (cipher.aeadSeal key.data (host.random.fill r cipher.nonceSize).bytes.val
    (s.outboundHeader cipher protocol plaintext).bytes plaintext.content
    cipher.tagSize).ciphertext.property
  have htag := (cipher.aeadSeal key.data (host.random.fill r cipher.nonceSize).bytes.val
    (s.outboundHeader cipher protocol plaintext).bytes plaintext.content
    cipher.tagSize).tag.property
  let e : Envelope := {
    header := s.outboundHeader cipher protocol plaintext
    nonce := (host.random.fill r cipher.nonceSize).bytes.val
    ciphertext := _
    tag := _
    nonce_length := (host.random.fill r cipher.nonceSize).bytes.property.trans hn256.symm
    ciphertext_length := hc.trans ((plaintext.size_eq valid).symm.trans hp32.symm)
    tag_length := htag.trans ht256.symm }
  exact ⟨e,rfl,hn256,ht256,hp32,filled,rfl,ok,rfl,rfl⟩

theorem sealEnvelope_cases (host : Host ρ) (s : TransportSecurity) (r : ρ) (effects : List Effect)
    (cipher : IAeadCipher) (key : KeyMaterialView) (protocol : UInt8) (plaintext : Span)
    (valid : plaintext.invalid=false) (hn : cipher.nonceSize≤0xFF) (ht : cipher.tagSize≤0xFF)
    (hp : plaintext.size≤0xFFFFFFFF) :
    SealCase host s r effects cipher key protocol plaintext
      (sealEnvelope host s r effects cipher key protocol plaintext) := by
  have hl : (appendHeader [] (s.outboundHeader cipher protocol plaintext)).length=44 :=
    Header.bytes_length _
  have total : fixedHeaderSize+cipher.nonceSize+plaintext.size+cipher.tagSize=
      44+(cipher.nonceSize+(plaintext.size+cipher.tagSize)) := by
    simp only [fixedHeaderSize]
    omega
  have stored := overwrite_zeros _ (host.random.fill r cipher.nonceSize).bytes.val 44 _
    (plaintext.size+cipher.tagSize) hl (host.random.fill r cipher.nonceSize).bytes.property
  have zeros := resize_zeros _ 44 (cipher.nonceSize+(plaintext.size+cipher.tagSize)) hl
  have nonce := slice_middle (appendHeader [] (s.outboundHeader cipher protocol plaintext))
    (host.random.fill r cipher.nonceSize).bytes.val
    (List.replicate (plaintext.size+cipher.tagSize) 0) 44 _ hl
    (host.random.fill r cipher.nonceSize).bytes.property
  have aad : slice (appendHeader [] (s.outboundHeader cipher protocol plaintext)++
      (host.random.fill r cipher.nonceSize).bytes.val++
      List.replicate (plaintext.size+cipher.tagSize) 0) 0 44=
      (s.outboundHeader cipher protocol plaintext).bytes := by
    rw [List.append_assoc,slice_zero]
    exact List.take_left' hl
  rw [sealEnvelope]
  dsimp only
  rw [total]
  simp only [show fixedHeaderSize=44 from rfl,zeros,stored,nonce,aad]
  split_ifs with ha hf hs ho
  · exact .unallocated
  · exact absurd hl hf
  · have h : SealCase host s r effects cipher key protocol plaintext _ := .unfilled hs
    rw [hs]
    exact h
  · have hk := Bool.eq_true_of_not_eq_false hs
    rw [hk]
    exact .unsealed ⟨key.data,_,_,_,_,_,_⟩ ho hk rfl
  · have hk := Bool.eq_true_of_not_eq_false hs
    have hs := Bool.eq_true_of_not_eq_false ho
    obtain ⟨e,h⟩ := seals_envelope host s r cipher key protocol plaintext valid hn ht hp hk hs
    have stores := stored_parts
      ((s.outboundHeader cipher protocol plaintext).bytes++
        (host.random.fill r cipher.nonceSize).bytes.val) e.ciphertext e.tag
      (44+cipher.nonceSize) plaintext.size cipher.tagSize
      (by simp [(host.random.fill r cipher.nonceSize).bytes.property])
      (e.ciphertext_length.trans h.ciphertext_size) (e.tag_length.trans h.tag_size)
    have done : SealCase host s r effects cipher key protocol plaintext _ := .sealed e h
    have parts := h.ciphertext
    have parts' := h.tag
    rw [h.nonce,h.header] at parts parts'
    rw [hk,hs,← parts,← parts']
    rw [Envelope.bytes,Envelope.sealCall,h.header,h.nonce,← stores] at done
    exact done

/-! ### One call of `Protect` -/

/-- The payload is within the limit and both lookups gave a usable cipher and key. -/
structure Ready (host : Host ρ) (s : TransportSecurity) (plaintext : Span) (cipher : IAeadCipher)
    (key : KeyMaterialView) : Prop where
  valid : plaintext.invalid=false
  bounded : plaintext.size ≤ s.config.maximumPlaintextBytes
  enabled : s.config.policy≠.disabled
  cipher_found : host.ciphers.find s.config.outboundAlgorithm=some cipher
  key_found : host.keys.getKey s.config.outboundKeyID s.config.outboundAlgorithm=some key
  key_size : key.size=cipher.keySize

/-- The policy lets the payload through as plaintext. -/
structure Passes (host : Host ρ) (s : TransportSecurity) (plaintext : Span) : Prop where
  valid : plaintext.invalid=false
  bounded : plaintext.size ≤ s.config.maximumPlaintextBytes
  policy : s.config.policy=.disabled ∨ s.config.policy=.preferred ∧
    (host.ciphers.find s.config.outboundAlgorithm=none ∨
      host.keys.getKey s.config.outboundKeyID s.config.outboundAlgorithm=none)

/-- What `Protect` does once cipher and key are known, from the session step on. -/
def protectReady (host : Host ρ) (s : TransportSecurity) (r : ρ) (protocol : UInt8)
    (plaintext : Span) (cipher : IAeadCipher) (key : KeyMaterialView) : ProtectOutcome ρ :=
  let session := ensureSessionID host s r
  if session.ok=false then
    refuse session.security session.random session.effects .randomFailure
      "Transport security session ID generation failed"
  else if session.security.nextSequence=0 ∨ session.security.nextSequence=maxSequence then
    refuse session.security session.random session.effects .sequenceExhausted
      "Outbound sequence exhausted; establish a new session before continuing"
  else if cipher.nonceSize>0xFF ∨ cipher.tagSize>0xFF ∨ plaintext.size>0xFFFFFFFF then
    refuse session.security session.random session.effects .bufferLimitExceeded
      "Transport security envelope fields exceed wire-format limits"
  else
    sealEnvelope host session.security session.random session.effects cipher key protocol plaintext

theorem protect_ready {host : Host ρ} {s : TransportSecurity} {plaintext : Span}
    {cipher : IAeadCipher} {key : KeyMaterialView} (h : Ready host s plaintext cipher key) (r : ρ)
    (protocol : UInt8) : protect host s r protocol plaintext=
      protectReady host s r protocol plaintext cipher key := by
  have hv : ¬(plaintext.invalid=true ∨ plaintext.size>s.config.maximumPlaintextBytes) := by
    have := h.bounded
    simp [h.valid,this]
  have hk : ¬key.size≠cipher.keySize := fun hn => hn h.key_size
  unfold protect
  rw [if_neg hv,if_neg h.enabled,h.cipher_found,h.key_found]
  dsimp only
  rw [if_neg hk]
  rfl

theorem protect_passes {host : Host ρ} {s : TransportSecurity} {plaintext : Span}
    (h : Passes host s plaintext) (r : ρ) (protocol : UInt8) :
    protect host s r protocol plaintext=passThrough s r plaintext := by
  have hv : ¬(plaintext.invalid=true ∨ plaintext.size>s.config.maximumPlaintextBytes) := by
    have := h.bounded
    simp [h.valid,this]
  unfold protect
  rw [if_neg hv]
  obtain hd|⟨hp,hl⟩ := h.policy
  · rw [if_pos hd]
  · rw [if_neg (by rw [hp]; decide)]
    split
    · rename_i c k hc hk
      rw [hc,hk] at hl
      simp at hl
    · rw [if_pos hp]
    · rw [if_pos hp]

/-- Every call of `Protect` fails before anything happened, passes the payload through, or goes on
to the session step. -/
theorem protect_cases (host : Host ρ) (s : TransportSecurity) (r : ρ) (protocol : UInt8)
    (plaintext : Span) :
    (∃ error message,protect host s r protocol plaintext=refuse s r [] error message) ∨
    Passes host s plaintext ∨ ∃ cipher key,Ready host s plaintext cipher key := by
  by_cases hv : plaintext.invalid=true ∨ plaintext.size>s.config.maximumPlaintextBytes
  · exact Or.inl ⟨_,_,if_pos hv⟩
  have valid : plaintext.invalid=false := by
    simpa using (not_or.mp hv).1
  have bounded : plaintext.size ≤ s.config.maximumPlaintextBytes := by
    simpa using (not_or.mp hv).2
  by_cases hd : s.config.policy=.disabled
  · exact Or.inr (Or.inl ⟨valid,bounded,Or.inl hd⟩)
  cases hc : host.ciphers.find s.config.outboundAlgorithm with
  | none =>
    by_cases hp : s.config.policy=.preferred
    · exact Or.inr (Or.inl ⟨valid,bounded,Or.inr ⟨hp,Or.inl hc⟩⟩)
    · refine Or.inl ⟨.unsupportedAlgorithm,"Outbound AEAD algorithm is not registered",?_⟩
      rw [protect,if_neg hv,if_neg hd,hc]
      exact if_neg hp
  | some cipher =>
    cases hk : host.keys.getKey s.config.outboundKeyID s.config.outboundAlgorithm with
    | none =>
      by_cases hp : s.config.policy=.preferred
      · exact Or.inr (Or.inl ⟨valid,bounded,Or.inr ⟨hp,Or.inr hk⟩⟩)
      · refine Or.inl ⟨.missingKey,"Outbound key is unavailable",?_⟩
        rw [protect,if_neg hv,if_neg hd,hc,hk]
        exact if_neg hp
    | some key =>
      by_cases hs : key.size=cipher.keySize
      · exact Or.inr (Or.inr ⟨cipher,key,valid,bounded,hd,hc,hk,hs⟩)
      · refine Or.inl ⟨.invalidKeyLength,
          "Outbound key length does not match AEAD algorithm",?_⟩
        rw [protect,if_neg hv,if_neg hd,hc,hk]
        exact if_pos hs

/-- The outcomes of `Protect`: an early refusal, a plaintext exit, a refusal around the session step,
and the outcomes of the sealing step. -/
inductive ProtectCase (host : Host ρ) (s : TransportSecurity) (r : ρ) (protocol : UInt8)
    (plaintext : Span) : ProtectOutcome ρ → Prop
  | refused (error : SecurityError) (message : String) :
      ProtectCase host s r protocol plaintext (refuse s r [] error message)
  | passed (h : Passes host s plaintext) :
      ProtectCase host s r protocol plaintext (passThrough s r plaintext)
  | stopped (error : SecurityError) (message : String) :
      ProtectCase host s r protocol plaintext (refuse (ensureSessionID host s r).security
        (ensureSessionID host s r).random (ensureSessionID host s r).effects error message)
  | attempted (cipher : IAeadCipher) (key : KeyMaterialView) (out : ProtectOutcome ρ)
      (h : Ready host s plaintext cipher key) (ok : (ensureSessionID host s r).ok=true)
      (counter : (ensureSessionID host s r).security.nextSequence≠0 ∧
        (ensureSessionID host s r).security.nextSequence≠maxSequence)
      (sealing : SealCase host (ensureSessionID host s r).security (ensureSessionID host s r).random
        (ensureSessionID host s r).effects cipher key protocol plaintext out) :
      ProtectCase host s r protocol plaintext out

theorem protect_case (host : Host ρ) (s : TransportSecurity) (r : ρ) (protocol : UInt8)
    (plaintext : Span) :
    ProtectCase host s r protocol plaintext (protect host s r protocol plaintext) := by
  obtain ⟨error,message,he⟩|hp|⟨cipher,key,h⟩ := protect_cases host s r protocol plaintext
  · rw [he]
    exact .refused error message
  · rw [protect_passes hp]
    exact .passed hp
  · rw [protect_ready h]
    unfold protectReady
    dsimp only
    split_ifs with hs hq hw
    · exact .stopped _ _
    · exact .stopped _ _
    · exact .stopped _ _
    · simp only [not_or,not_lt,gt_iff_lt] at hw hq
      exact .attempted cipher key _ h (by simpa using hs) hq
        (sealEnvelope_cases host _ _ _ cipher key protocol plaintext h.valid hw.1 hw.2.1 hw.2.2)

/-- A `Protect` that succeeds either passed its payload through or sealed it. -/
theorem protect_success {host : Host ρ} {s : TransportSecurity} {r : ρ} {protocol : UInt8}
    {plaintext : Span} (h : (protect host s r protocol plaintext).result.success=true) :
    (Passes host s plaintext ∧ protect host s r protocol plaintext=passThrough s r plaintext) ∨
    ∃ cipher key e,Ready host s plaintext cipher key ∧ (ensureSessionID host s r).ok=true ∧
      ((ensureSessionID host s r).security.nextSequence≠0 ∧
        (ensureSessionID host s r).security.nextSequence≠maxSequence) ∧
      Seals host (ensureSessionID host s r).security (ensureSessionID host s r).random protocol
        plaintext cipher key e ∧
      protect host s r protocol plaintext=⟨.ok true,e.bytes,
        (ensureSessionID host s r).security.consumeSequence,
        (host.random.fill (ensureSessionID host s r).random cipher.nonceSize).next,
        (ensureSessionID host s r).effects++[.filled ⟨cipher.nonceSize,true,e.nonce⟩]++
          [.sealed (e.sealCall key.data plaintext.content)]⟩ := by
  have hc := protect_case host s r protocol plaintext
  generalize protect host s r protocol plaintext=out at hc h ⊢
  cases hc with
  | refused error message => exact absurd h (by simp [refuse])
  | passed hp => exact Or.inl ⟨hp,rfl⟩
  | stopped error message => exact absurd h (by simp [refuse])
  | attempted cipher key out hr ok counter hs =>
    cases hs with
    | unallocated => exact absurd h (by simp [refuse])
    | unfilled failed => exact absurd h (by simp [refuse])
    | unsealed call failed filled nonce => exact absurd h (by simp [refuse])
    | sealed e he => exact Or.inr ⟨cipher,key,e,hr,ok,counter,he,rfl⟩

theorem SealCase.security {host : Host ρ} {s : TransportSecurity} {r : ρ} {effects : List Effect}
    {cipher : IAeadCipher} {key : KeyMaterialView} {protocol : UInt8} {plaintext : Span}
    {out : ProtectOutcome ρ} (h : SealCase host s r effects cipher key protocol plaintext out) :
    out.security=s.consumeSequence := by
  cases h <;> rfl

/-- The session state after a call: unchanged, after the session step, or with its number taken. -/
theorem protect_security (host : Host ρ) (s : TransportSecurity) (r : ρ) (protocol : UInt8)
    (plaintext : Span) :
    (protect host s r protocol plaintext).security=s ∨
    (protect host s r protocol plaintext).security=(ensureSessionID host s r).security ∨
    ((ensureSessionID host s r).ok=true ∧
      (ensureSessionID host s r).security.nextSequence≠maxSequence ∧
      (protect host s r protocol plaintext).security=
        (ensureSessionID host s r).security.consumeSequence) := by
  have hc := protect_case host s r protocol plaintext
  generalize protect host s r protocol plaintext=out at hc ⊢
  cases hc with
  | refused error message => exact Or.inl rfl
  | passed hp => exact Or.inl rfl
  | stopped error message => exact Or.inr (Or.inl rfl)
  | attempted cipher key out hr ok counter hs =>
    exact Or.inr (Or.inr ⟨ok,counter.2,hs.security⟩)

theorem ensureSessionID_quiet (host : Host ρ) (s : TransportSecurity) (r : ρ) :
    Quiet (ensureSessionID host s r).effects := by
  have hc := ensureSessionID_cases host s r
  generalize ensureSessionID host s r=out at hc ⊢
  cases hc with
  | ready h => exact quiet_nil
  | established sessionID random effects fresh nonzero source quiet => exact quiet
  | failed random effects fresh quiet => exact quiet

/-- A `Seal` that succeeds is the one that made the output of a protected `Protect`. -/
theorem protect_seals {host : Host ρ} {s : TransportSecurity} {r : ρ} {protocol : UInt8}
    {plaintext : Span} {call : SealCall}
    (h : Effect.sealed call∈(protect host s r protocol plaintext).effects) (ok : call.ok=true) :
    (protect host s r protocol plaintext).result=.ok true ∧
    ∃ e key,(protect host s r protocol plaintext).output=Envelope.bytes e ∧
      e.header.magic=envelopeMagic ∧ e.header.protocol=protocol ∧
      call=e.sealCall key plaintext.content := by
  have quiet := ensureSessionID_quiet host s r
  have hc := protect_case host s r protocol plaintext
  generalize protect host s r protocol plaintext=out at hc h ⊢
  cases hc with
  | refused error message => exact absurd h (notify_quiet _ _ call)
  | passed hp => exact absurd h (quiet_nil call)
  | stopped error message => exact absurd h (quiet_append quiet (notify_quiet _ _) call)
  | attempted cipher key out hr session counter hs =>
    cases hs with
    | unallocated => exact absurd h (quiet_append quiet (notify_quiet _ _) call)
    | unfilled failed =>
      simp only [refuse,List.mem_append,List.mem_singleton,reduceCtorEq,or_false] at h
      exact absurd h (by simp [quiet call,notify_quiet _ _ call])
    | unsealed call' failed filled nonce =>
      simp only [refuse,List.mem_append,List.mem_singleton,Effect.sealed.injEq,reduceCtorEq,
        or_false] at h
      obtain (hq|he)|hn := h
      · exact absurd hq (quiet call)
      · rw [he,failed] at ok
        exact absurd ok (by decide)
      · exact absurd hn (notify_quiet _ _ call)
    | sealed e he =>
      simp only [List.mem_append,List.mem_singleton,Effect.sealed.injEq,reduceCtorEq,
        or_false] at h
      obtain hq|hcall := h
      · exact absurd hq (quiet call)
      · exact ⟨rfl,e,key.data,rfl,by rw [he.header]; rfl,by rw [he.header]; rfl,hcall⟩

end TransportSecurity
end ESPressioSecurity
