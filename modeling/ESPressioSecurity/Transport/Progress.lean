import ESPressioSecurity.Transport.Sequences

namespace ESPressioSecurity

open Framework

namespace TransportSecurity

variable {ρ : Type}

/-- Surroundings in which nothing fails on payloads of the given size: memory, random source and the
cipher under the key. -/
structure Works (host : Host ρ) (cipher : IAeadCipher) (key : KeyMaterialView) (size : Nat) :
    Prop where
  memory : ∀ n,host.allocates n=true
  fills : ∀ r n,(host.random.fill r n).ok=true
  seals : ∀ nonce aad plaintext,nonce.length=cipher.nonceSize → aad.length=fixedHeaderSize →
    plaintext.length=size →
    (cipher.aeadSeal key.data nonce aad plaintext cipher.tagSize).ok=true

theorem sealEnvelope_succeeds {host : Host ρ} {cipher : IAeadCipher} {key : KeyMaterialView}
    {plaintext : Span} (works : Works host cipher key plaintext.size)
    (valid : plaintext.invalid=false) (s : TransportSecurity) (r : ρ) (effects : List Effect)
    (protocol : UInt8) :
    (sealEnvelope host s r effects cipher key protocol plaintext).result=.ok true := by
  have header : (appendHeader [] (s.outboundHeader cipher protocol plaintext)).length=44 :=
    Header.bytes_length _
  have whole : (overwrite (resize (appendHeader [] (s.outboundHeader cipher protocol plaintext))
      (fixedHeaderSize+cipher.nonceSize+plaintext.size+cipher.tagSize)) fixedHeaderSize
      (host.random.fill r cipher.nonceSize).bytes.val).length=
      fixedHeaderSize+cipher.nonceSize+plaintext.size+cipher.tagSize := by
    have filled := (host.random.fill r cipher.nonceSize).bytes.property
    simp only [fixedHeaderSize,overwrite,resize,List.length_append,List.length_take,List.length_drop,
      List.length_replicate,header,filled]
    omega
  have nonce := slice_length _ fixedHeaderSize cipher.nonceSize (by rw [whole]; omega)
  have aad := slice_length _ 0 fixedHeaderSize (by rw [whole]; omega)
  have memory := works.memory (fixedHeaderSize+cipher.nonceSize+plaintext.size+cipher.tagSize)
  unfold sealEnvelope
  dsimp only
  rw [if_neg (by simp [memory]),if_neg (by simp [header,fixedHeaderSize]),
    if_neg (by simp [works.fills]),if_neg]
  rw [works.seals _ _ _ nonce aad (plaintext.size_eq valid).symm]
  decide

/-- A payload that fits, with cipher and key at hand and the session up, is sealed. -/
theorem protect_succeeds {host : Host ρ} {s : TransportSecurity} {plaintext : Span}
    {cipher : IAeadCipher} {key : KeyMaterialView} (ready : Ready host s plaintext cipher key)
    (works : Works host cipher key plaintext.size) (r : ρ) (protocol : UInt8)
    (session : (ensureSessionID host s r).ok=true)
    (counter : s.nextSequence≠0 ∧ s.nextSequence≠maxSequence)
    (nonceSize : cipher.nonceSize≤0xFF) (tagSize : cipher.tagSize≤0xFF)
    (size : plaintext.size≤0xFFFFFFFF) :
    (protect host s r protocol plaintext).result=.ok true := by
  rw [protect_ready ready]
  unfold protectReady
  dsimp only
  rw [if_neg (by simp [session]),ensureSessionID_counter,if_neg (by simp [counter.1,counter.2]),
    if_neg (by omega)]
  exact sealEnvelope_succeeds works ready.valid _ _ _ protocol

/-- The session step succeeds where a session is configured or the source yields one. -/
theorem ensureSessionID_succeeds (host : Host ρ) {s : TransportSecurity}
    (source : s.config.sessionID≠0 ∨ ∀ r,(drawSessionID host.random 4 r).1.isSome=true) (r : ρ) :
    (ensureSessionID host s r).ok=true := by
  unfold ensureSessionID
  split_ifs with hs hc
  · rfl
  · rfl
  · have drawn := source.resolve_left hc r
    dsimp only
    cases hd : (drawSessionID host.random 4 r).1 with
    | none =>
      rw [hd] at drawn
      exact absurd drawn (by decide)
    | some candidate => rfl

/-- A call moves the counter up by one at most. -/
theorem protect_counter (host : Host ρ) (s : TransportSecurity) (r : ρ) (protocol : UInt8)
    (plaintext : Span) : (protect host s r protocol plaintext).security.nextSequence.toNat≤
      s.nextSequence.toNat+1 := by
  have accounts := protect_accounts host s r protocol plaintext
  unfold Accounts at accounts
  rw [accounts]
  split_ifs
  · rw [UInt64.toNat_add]
    exact Nat.mod_le _ _
  · omega

end TransportSecurity
end ESPressioSecurity
