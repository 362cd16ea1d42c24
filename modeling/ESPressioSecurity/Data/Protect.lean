import ESPressioSecurity.Data.Envelope

namespace ESPressioSecurity

open Framework

namespace DataProtector

variable {ρ : Type}

/-- The arguments are valid and both lookups gave a usable cipher and key. -/
structure Ready (host : Host ρ) (d : DataProtector) (plaintext context : Span)
    (cipher : IAeadCipher) (key : KeyMaterialView) : Prop where
  valid : plaintext.invalid=false
  context_valid : context.invalid=false
  keyID : d.config.keyID≠0
  bounded : plaintext.size≤d.config.maximumPlaintextBytes
  cipher_found : host.ciphers.find d.config.algorithm=some cipher
  key_found : host.keys.getKey d.config.keyID d.config.algorithm=some key
  key_size : key.size=cipher.keySize

/-- One successful `Protect` with everything its output was made from. -/
structure Emits (host : Host ρ) (d : DataProtector) (r : ρ) (plaintext context : Span)
    (cipher : IAeadCipher) (key : KeyMaterialView) (f : Frame) : Prop where
  ready : Ready host d plaintext context cipher key
  header : f.header=d.outboundHeader cipher plaintext
  nonce_size : f.nonce.length=cipher.nonceSize
  tag_size : f.tag.length=cipher.tagSize
  ciphertext_size : f.ciphertext.length=plaintext.size
  filled : (host.random.fill r cipher.nonceSize).ok=true
  nonce : f.nonce=(host.random.fill r cipher.nonceSize).bytes.val
  sealed : (cipher.aeadSeal key.data f.nonce (f.header.bytes++context.content) plaintext.content
    cipher.tagSize).ok=true
  ciphertext : f.ciphertext=(cipher.aeadSeal key.data f.nonce (f.header.bytes++context.content)
    plaintext.content cipher.tagSize).ciphertext.val
  tag : f.tag=(cipher.aeadSeal key.data f.nonce (f.header.bytes++context.content)
    plaintext.content cipher.tagSize).tag.val

/-- The `Seal` call that made the frame `f`. -/
def Frame.sealCall (f : Frame) (key context plaintext : Bytes) : SealCall :=
  ⟨key,f.nonce,f.header.bytes++context,plaintext,true,f.ciphertext,f.tag⟩

inductive ProtectCase (host : Host ρ) (d : DataProtector) (r : ρ) (plaintext context : Span) :
    ProtectOutcome ρ → Prop
  | refused (early : ∀ cipher key,¬Ready host d plaintext context cipher key)
      (error : SecurityError) (message : String) :
      ProtectCase host d r plaintext context (refuse r [] error message)
  | unfilled (cipher : IAeadCipher) (key : KeyMaterialView)
      (ready : Ready host d plaintext context cipher key)
      (failed : (host.random.fill r cipher.nonceSize).ok=false) :
      ProtectCase host d r plaintext context
        (refuse (host.random.fill r cipher.nonceSize).next
          [.filled ⟨cipher.nonceSize,false,(host.random.fill r cipher.nonceSize).bytes.val⟩]
          .randomFailure "Unable to generate data-protection nonce")
  | unsealed (cipher : IAeadCipher) (key : KeyMaterialView)
      (ready : Ready host d plaintext context cipher key) (call : SealCall)
      (failed : call.ok=false) (filled : (host.random.fill r cipher.nonceSize).ok=true)
      (nonce : call.nonce=(host.random.fill r cipher.nonceSize).bytes.val)
      (attempt : call.ok=(cipher.aeadSeal key.data call.nonce
        ((d.outboundHeader cipher plaintext).bytes++context.content) plaintext.content
        cipher.tagSize).ok) :
      ProtectCase host d r plaintext context
        (refuse (host.random.fill r cipher.nonceSize).next
          [.filled ⟨cipher.nonceSize,true,call.nonce⟩,.sealed call]
          .encryptionFailed "Authenticated data protection failed")
  | sealed (cipher : IAeadCipher) (key : KeyMaterialView) (f : Frame)
      (emits : Emits host d r plaintext context cipher key f) :
      ProtectCase host d r plaintext context
        ⟨.ok true,f.bytes,(host.random.fill r cipher.nonceSize).next,
          [.filled ⟨cipher.nonceSize,true,f.nonce⟩,
            .sealed (f.sealCall key.data context.content plaintext.content)]⟩

theorem sealEnvelope_case {host : Host ρ} {d : DataProtector} {plaintext context : Span}
    {cipher : IAeadCipher} {key : KeyMaterialView}
    (ready : Ready host d plaintext context cipher key) (r : ρ) :
    ProtectCase host d r plaintext context
      (sealEnvelope host d r cipher key plaintext context) := by
  have hsize := plaintext.size_eq ready.valid
  have hl := (d.outboundHeader cipher plaintext).bytes_length
  have hn := (host.random.fill r cipher.nonceSize).bytes.property
  have total : headerSize+cipher.nonceSize+cipher.tagSize+plaintext.size=
      18+(cipher.nonceSize+(cipher.tagSize+plaintext.size)) := by
    simp only [headerSize]
    omega
  have headed : writeHeader (resize [] (18+(cipher.nonceSize+(cipher.tagSize+plaintext.size))))
      d.config.algorithm d.config.keyID (UInt16.ofNat cipher.nonceSize)
      (UInt16.ofNat cipher.tagSize) (UInt32.ofNat plaintext.size)=
      (d.outboundHeader cipher plaintext).bytes++
        List.replicate (cipher.nonceSize+(cipher.tagSize+plaintext.size)) 0 := by
    have empty := overwrite_zeros [] (d.outboundHeader cipher plaintext).bytes 0 18
      (cipher.nonceSize+(cipher.tagSize+plaintext.size)) rfl hl
    rw [← resize_zeros [] 0 _ rfl,Nat.zero_add] at empty
    exact empty
  have stored := overwrite_zeros _ (host.random.fill r cipher.nonceSize).bytes.val 18 _
    (cipher.tagSize+plaintext.size) hl hn
  have nonce := slice_middle (d.outboundHeader cipher plaintext).bytes
    (host.random.fill r cipher.nonceSize).bytes.val
    (List.replicate (cipher.tagSize+plaintext.size) 0) 18 _ hl hn
  have aad := associatedData_eq ((d.outboundHeader cipher plaintext).bytes++
    (host.random.fill r cipher.nonceSize).bytes.val++
    List.replicate (cipher.tagSize+plaintext.size) 0) context ready.context_valid
  rw [List.append_assoc,slice_zero,List.take_left' hl,← List.append_assoc] at aad
  rw [sealEnvelope]
  dsimp only
  rw [total,headed]
  simp only [show headerSize=18 from rfl,stored,nonce,aad]
  split_ifs with hf hs
  · rw [hf]
    exact .unfilled cipher key ready hf
  · have filled := Bool.eq_true_of_not_eq_false hf
    rw [filled]
    exact .unsealed cipher key ready ⟨key.data,_,_,_,_,_,_⟩ hs filled rfl rfl
  · have filled := Bool.eq_true_of_not_eq_false hf
    have ok := Bool.eq_true_of_not_eq_false hs
    let sealing := cipher.aeadSeal key.data (host.random.fill r cipher.nonceSize).bytes.val
      ((d.outboundHeader cipher plaintext).bytes++context.content) plaintext.content cipher.tagSize
    have hc := sealing.ciphertext.property
    have ht := sealing.tag.property
    let f : Frame := {
      header := d.outboundHeader cipher plaintext
      nonce := (host.random.fill r cipher.nonceSize).bytes.val
      tag := sealing.tag.val
      ciphertext := sealing.ciphertext.val }
    have emits : Emits host d r plaintext context cipher key f :=
      ⟨ready,rfl,hn,ht,hc.trans hsize.symm,filled,rfl,ok,rfl,rfl⟩
    have stores := stored_parts ((d.outboundHeader cipher plaintext).bytes++
      (host.random.fill r cipher.nonceSize).bytes.val) f.tag f.ciphertext
      (18+cipher.nonceSize) cipher.tagSize plaintext.size (by simp [hn]) ht (hc.trans hsize.symm)
    rw [filled,ok]
    have done := ProtectCase.sealed cipher key f emits
    rw [Frame.bytes,← stores] at done
    exact done

theorem protect_ready {host : Host ρ} {d : DataProtector} {plaintext context : Span}
    {cipher : IAeadCipher} {key : KeyMaterialView}
    (ready : Ready host d plaintext context cipher key) (r : ρ) :
    protect host d r plaintext context=sealEnvelope host d r cipher key plaintext context := by
  have ha : ¬(plaintext.invalid=true ∨ context.invalid=true ∨ d.config.keyID=0) := by
    simp [ready.valid,ready.context_valid,ready.keyID]
  rw [protect,if_neg ha,if_neg (Nat.not_lt.mpr ready.bounded),ready.cipher_found]
  dsimp only
  rw [ready.key_found]
  exact if_neg (fun hk => hk ready.key_size)

/-- Every `Protect` is refused before anything happened or gets to the sealing step. -/
theorem protect_cases (host : Host ρ) (d : DataProtector) (r : ρ) (plaintext context : Span) :
    (∃ error message,protect host d r plaintext context=refuse r [] error message) ∨
    ∃ cipher key,Ready host d plaintext context cipher key := by
  by_cases ha : plaintext.invalid=true ∨ context.invalid=true ∨ d.config.keyID=0
  · exact Or.inl ⟨_,_,if_pos ha⟩
  by_cases hb : plaintext.size>d.config.maximumPlaintextBytes
  · refine Or.inl ⟨.bufferLimitExceeded,"Plaintext exceeds configured limit",?_⟩
    rw [protect,if_neg ha,if_pos hb]
  cases hc : host.ciphers.find d.config.algorithm with
  | none =>
    refine Or.inl ⟨.unsupportedAlgorithm,
      "Requested data-protection algorithm is unavailable",?_⟩
    rw [protect,if_neg ha,if_neg hb,hc]
  | some cipher =>
    cases hk : host.keys.getKey d.config.keyID d.config.algorithm with
    | none =>
      refine Or.inl ⟨.missingKey,"Data-protection key is unavailable",?_⟩
      rw [protect,if_neg ha,if_neg hb,hc]
      dsimp only
      rw [hk]
    | some key =>
      by_cases hs : key.size=cipher.keySize
      · simp only [not_or,Bool.not_eq_true] at ha
        exact Or.inr ⟨cipher,key,ha.1,ha.2.1,ha.2.2,Nat.not_lt.mp hb,hc,hk,hs⟩
      · refine Or.inl ⟨.invalidKeyLength,"Data-protection key length is invalid",?_⟩
        rw [protect,if_neg ha,if_neg hb,hc]
        dsimp only
        rw [hk]
        exact if_pos hs

theorem protect_case (host : Host ρ) (d : DataProtector) (r : ρ) (plaintext context : Span) :
    ProtectCase host d r plaintext context (protect host d r plaintext context) := by
  by_cases hr : ∃ cipher key,Ready host d plaintext context cipher key
  · obtain ⟨cipher,key,ready⟩ := hr
    rw [protect_ready ready]
    exact sealEnvelope_case ready r
  · obtain ⟨error,message,he⟩|ready := protect_cases host d r plaintext context
    · rw [he]
      exact .refused (fun cipher key h => hr ⟨cipher,key,h⟩) error message
    · exact absurd ready hr

/-- Cipher and key of a call are determined by its surroundings. -/
theorem Ready.unique {host : Host ρ} {d : DataProtector} {plaintext context : Span}
    {cipher cipher' : IAeadCipher} {key key' : KeyMaterialView}
    (h : Ready host d plaintext context cipher key)
    (h' : Ready host d plaintext context cipher' key') : cipher=cipher' ∧ key=key' :=
  ⟨Option.some.inj (h.cipher_found.symm.trans h'.cipher_found),
    Option.some.inj (h.key_found.symm.trans h'.key_found)⟩

/-- A success is the one case that seals. -/
theorem protect_sealed {host : Host ρ} {d : DataProtector} {r : ρ} {plaintext context : Span}
    (h : (protect host d r plaintext context).result.success=true) :
    ∃ cipher key f,Emits host d r plaintext context cipher key f ∧
      protect host d r plaintext context=
        ⟨.ok true,f.bytes,(host.random.fill r cipher.nonceSize).next,
          [.filled ⟨cipher.nonceSize,true,f.nonce⟩,
            .sealed (f.sealCall key.data context.content plaintext.content)]⟩ := by
  have hc := protect_case host d r plaintext context
  generalize protect host d r plaintext context=out at hc h ⊢
  cases hc with
  | refused early error message => exact absurd h (by simp [refuse])
  | unfilled cipher key ready failed => exact absurd h (by simp [refuse])
  | unsealed cipher key ready call failed filled nonce attempt => exact absurd h (by simp [refuse])
  | sealed cipher key f emits => exact ⟨cipher,key,f,emits,rfl⟩

theorem protect_success {host : Host ρ} {d : DataProtector} {r : ρ} {plaintext context : Span}
    (h : (protect host d r plaintext context).result.success=true) :
    ∃ cipher key f,Emits host d r plaintext context cipher key f ∧
      (protect host d r plaintext context).output=f.bytes ∧
      Effect.sealed (f.sealCall key.data context.content plaintext.content)∈
        (protect host d r plaintext context).effects := by
  obtain ⟨cipher,key,f,emits,he⟩ := protect_sealed h
  rw [he]
  exact ⟨cipher,key,f,emits,rfl,by simp⟩

theorem protect_ok {host : Host ρ} {d : DataProtector} {r : ρ} {plaintext context : Span}
    (h : (protect host d r plaintext context).result.success=true) :
    (protect host d r plaintext context).result=.ok true := by
  obtain ⟨cipher,key,f,emits,he⟩ := protect_sealed h
  rw [he]

/-- A `Seal` that succeeds is the one that made the output of a successful `Protect`. -/
theorem protect_seals {host : Host ρ} {d : DataProtector} {r : ρ} {plaintext context : Span}
    {call : SealCall} (h : Effect.sealed call∈(protect host d r plaintext context).effects)
    (ok : call.ok=true) :
    (protect host d r plaintext context).result=.ok true ∧
    ∃ f key,(protect host d r plaintext context).output=Frame.bytes f ∧
      call=f.sealCall key context.content plaintext.content := by
  have hc := protect_case host d r plaintext context
  generalize protect host d r plaintext context=out at hc h ⊢
  cases hc with
  | refused early error message => exact absurd h (by simp [refuse])
  | unfilled cipher key ready failed => exact absurd h (by simp [refuse])
  | unsealed cipher key ready call' failed filled nonce attempt =>
    have same : call=call' := by simpa [refuse] using h
    rw [same,failed] at ok
    exact absurd ok (by decide)
  | sealed cipher key f emits =>
    have same : call=f.sealCall key.data context.content plaintext.content := by simpa using h
    exact ⟨rfl,f,key.data,rfl,same⟩

/-- The arguments pass every check of `Protect`, and neither the random source nor the cipher fails. -/
def Proceeds (host : Host ρ) (d : DataProtector) (r : ρ) (plaintext context : Span)
    (cipher : IAeadCipher) : Prop :=
  ∃ key,Ready host d plaintext context cipher key ∧
    (host.random.fill r cipher.nonceSize).ok=true ∧
    (cipher.aeadSeal key.data (host.random.fill r cipher.nonceSize).bytes.val
      ((d.outboundHeader cipher plaintext).bytes++context.content) plaintext.content
      cipher.tagSize).ok=true

/-- Exactly these calls succeed. -/
theorem proceeds_iff {host : Host ρ} {d : DataProtector} {r : ρ} {plaintext context : Span}
    {cipher : IAeadCipher} (found : host.ciphers.find d.config.algorithm=some cipher) :
    (protect host d r plaintext context).result.success=true ↔
      Proceeds host d r plaintext context cipher := by
  constructor
  · intro h
    obtain ⟨cipher',key,f,emits,_,_⟩ := protect_success h
    obtain rfl := Option.some.inj (found.symm.trans emits.ready.cipher_found)
    refine ⟨key,emits.ready,emits.filled,?_⟩
    rw [← emits.nonce,← emits.header]
    exact emits.sealed
  · intro ⟨key,ready,filled,ok⟩
    have hc := protect_case host d r plaintext context
    generalize protect host d r plaintext context=out at hc ⊢
    cases hc with
    | refused early error message => exact absurd ready (early cipher key)
    | unfilled cipher' key' ready' failed =>
      obtain ⟨rfl,rfl⟩ := ready.unique ready'
      rw [filled] at failed
      exact absurd failed (by decide)
    | unsealed cipher' key' ready' call failed filled' nonce attempt =>
      obtain ⟨rfl,rfl⟩ := ready.unique ready'
      rw [attempt,nonce,ok] at failed
      exact absurd failed (by decide)
    | sealed cipher' key' f emits => rfl

end DataProtector
end ESPressioSecurity
