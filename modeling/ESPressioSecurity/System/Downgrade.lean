import ESPressioSecurity.Model.TestDoubles
import ESPressioSecurity.System.Site

namespace ESPressioSecurity

open Framework

/-! ### One send -/

namespace SecureTransportDecorator

variable {ρ : Type}

/-- The carrier got a complete envelope under the configured algorithm and identifiers, made by one
successful `Seal` of the registered cipher under the provider's key. -/
structure SendsEnvelope (host : Host ρ) (s : TransportSecurity) (protocol : UInt8) (data : Span)
    (o : SendOutcome ρ) (cipher : IAeadCipher) (key : KeyMaterialView)
    (e : TransportSecurity.Envelope) : Prop where
  result : o.result=.ok true
  handed : o.handed=some (protocol,e.bytes)
  enabled : s.config.policy≠.disabled
  cipher_found : host.ciphers.find s.config.outboundAlgorithm=some cipher
  key_found : host.keys.getKey s.config.outboundKeyID s.config.outboundAlgorithm=some key
  key_size : key.size=cipher.keySize
  magic : e.header.magic=TransportSecurity.envelopeMagic
  version : e.header.version=TransportSecurity.envelopeVersion
  algorithm : (⟨e.header.algorithm⟩ : AeadAlgorithm)=s.config.outboundAlgorithm
  protocol_eq : e.header.protocol=protocol
  keyID : e.header.keyID=s.config.outboundKeyID
  senderID : e.header.senderID=s.config.senderID
  session : e.header.sessionID=o.security.sessionID ∧ o.security.sessionID≠0
  session_kept : s.sessionReady=true → o.security.sessionID=s.sessionID
  seals : sealsOf o.effects=[e.sealCall key.data data.content]
  sealed : (cipher.aeadSeal key.data e.nonce e.header.bytes data.content cipher.tagSize).ok=true ∧
    (cipher.aeadSeal key.data e.nonce e.header.bytes data.content
      cipher.tagSize).ciphertext.val=e.ciphertext ∧
    (cipher.aeadSeal key.data e.nonce e.header.bytes data.content cipher.tagSize).tag.val=e.tag

/-- The carrier got the payload itself, which the policy permits here. -/
structure SendsPlaintext (host : Host ρ) (s : TransportSecurity) (protocol : UInt8) (data : Span)
    (o : SendOutcome ρ) : Prop where
  result : o.result=.ok false
  handed : o.handed=some (protocol,data.content)
  permitted : s.config.policy=.disabled ∨ s.config.policy=.preferred ∧
    (host.ciphers.find s.config.outboundAlgorithm=none ∨
      host.keys.getKey s.config.outboundKeyID s.config.outboundAlgorithm=none)

/-- The carrier was not called. -/
structure SendsNothing (o : SendOutcome ρ) : Prop where
  failed : o.result.success=false
  refused : o.accepted=false
  handed : o.handed=none

inductive SendCase (host : Host ρ) (s : TransportSecurity) (protocol : UInt8) (data : Span)
    (o : SendOutcome ρ) : Prop
  | nothing (h : SendsNothing o)
  | envelope (cipher : IAeadCipher) (key : KeyMaterialView) (e : TransportSecurity.Envelope)
      (h : SendsEnvelope host s protocol data o cipher key e)
  | plaintext (h : SendsPlaintext host s protocol data o)

/-- What the carrier got is an envelope, or the payload by leave of the policy. -/
theorem SendCase.handed_cases {host : Host ρ} {s : TransportSecurity} {protocol : UInt8} {data : Span}
    {o : SendOutcome ρ} (sent : SendCase host s protocol data o) (handed : o.handed≠none) :
    (∃ cipher key e,SendsEnvelope host s protocol data o cipher key e) ∨
      SendsPlaintext host s protocol data o := by
  cases sent with
  | nothing h => exact absurd h.handed handed
  | envelope cipher key e h => exact Or.inl ⟨cipher,key,e,h⟩
  | plaintext h => exact Or.inr h

theorem sealsOf_quiet {effects : List Effect} (h : Quiet effects) : sealsOf effects=[] := by
  rw [List.eq_nil_iff_forall_not_mem]
  intro call hc
  exact h call (mem_sealsOf.mp hc).1

theorem send_case {s : TransportSecurity} (consistent : s.Consistent) (host : Host ρ)
    (carrier : UInt8 → Bytes → Bool) (r : ρ) (protocol : UInt8) (data : Span) :
    SendCase host s protocol data (send host carrier s r protocol data) := by
  cases hs : (s.protect host r protocol data).result.success with
  | false =>
    have he : send host carrier s r protocol data=_ := if_pos hs
    rw [he]
    exact .nothing ⟨hs,rfl,rfl⟩
  | true =>
    have he : send host carrier s r protocol data=_ :=
      if_neg (fun hf => absurd (hs.symm.trans hf) (by decide))
    rw [he]
    obtain ⟨passes,hp⟩|⟨cipher,key,e,ready,session,counter,seals,hp⟩ :=
      TransportSecurity.protect_success hs
    · rw [hp]
      exact .plaintext ⟨rfl,rfl,passes.policy⟩
    · -- the session step decides which session the header names
      have follows := TransportSecurity.ensureSessionID_follows host s r
      have config := follows.config
      have sessionID := (TransportSecurity.ensureSessionID_consistent consistent host r).ready_iff.mp
        (TransportSecurity.ensureSessionID_ready session)
      have quiet := TransportSecurity.ensureSessionID_quiet host s r
      have header := seals.header
      rw [hp]
      refine .envelope cipher key e ⟨rfl,rfl,ready.enabled,ready.cipher_found,ready.key_found,
        ready.key_size,?_,?_,?_,?_,?_,?_,⟨?_,sessionID⟩,?_,?_,
        seals.sealed,seals.ciphertext.symm,seals.tag.symm⟩
      · rw [header]
        rfl
      · rw [header]
        rfl
      · rw [header]
        exact AeadCipherRegistry.find_algorithm ready.cipher_found
      · rw [header]
        rfl
      · rw [header,← config]
        rfl
      · rw [header,← config]
        rfl
      · rw [header]
        rfl
      · intro hr
        exact (follows.session hr).2
      · rw [sealsOf_append,sealsOf_append,sealsOf_quiet quiet]
        rfl

end SecureTransportDecorator

/-! ### Runs -/

namespace Site

variable {ι κ χ μ ρ : Type} [DecidableEq ι] [DecidableEq κ]

/-- A site whose services were just constructed. -/
def new (ciphers : AeadCipherRegistry) (keys : χ) (configs : ι → TransportSecurityConfig)
    (dataConfigs : κ → DataProtectionConfig) (r : ρ) : Site ι κ χ ρ :=
  ⟨ciphers,keys,Deployment.new configs dataConfigs r⟩

theorem run_sessions (store : KeyStore χ μ) (platform : Platform ρ) (ciphers : AeadCipherRegistry)
    (keys : χ) (configs : ι → TransportSecurityConfig) (dataConfigs : κ → DataProtectionConfig)
    (r : ρ) (cs : List (Command ι κ μ)) (i : ι) :
    (((machine ι κ store platform).after (new ciphers keys configs dataConfigs r)
      cs).services.transports i).Consistent := by
  rw [services_after]
  exact Deployment.run_consistent _ _ (Deployment.new_consistent configs dataConfigs r) i

/-- In every reachable state a send hands the carrier a complete envelope sealed as configured, or
the payload where the policy permits it, or nothing. -/
theorem no_silent_downgrade (store : KeyStore χ μ) (platform : Platform ρ)
    (ciphers : AeadCipherRegistry) (keys : χ) (configs : ι → TransportSecurityConfig)
    (dataConfigs : κ → DataProtectionConfig) (r : ρ) (cs : List (Command ι κ μ)) (i : ι)
    (allocates : Nat → Bool) (carrier : UInt8 → Bytes → Bool) (protocol : UInt8) (data : Span) :
    let now := (machine ι κ store platform).after (new ciphers keys configs dataConfigs r) cs
    let host := now.host store platform allocates
    let s := now.services.transports i
    let o := SecureTransportDecorator.send host carrier s now.services.random protocol data
    SecureTransportDecorator.SendCase host s protocol data o ∧
    (s.config.policy=.required → o.handed≠none → ∃ cipher key e,
      SecureTransportDecorator.SendsEnvelope host s protocol data o cipher key e) ∧
    (s.config.policy=.preferred → host.ciphers.find s.config.outboundAlgorithm≠none →
      host.keys.getKey s.config.outboundKeyID s.config.outboundAlgorithm≠none →
      o.handed≠none → ∃ cipher key e,
        SecureTransportDecorator.SendsEnvelope host s protocol data o cipher key e) := by
  intro now host s o
  have sent : SecureTransportDecorator.SendCase host s protocol data o :=
    SecureTransportDecorator.send_case
      (run_sessions store platform ciphers keys configs dataConfigs r cs i) host carrier
      now.services.random protocol data
  refine ⟨sent,?_,?_⟩
  · intro required handed
    obtain envelope|plaintext := sent.handed_cases handed
    · exact envelope
    · obtain disabled|⟨preferred,_⟩ := plaintext.permitted
      · rw [required] at disabled
        exact absurd disabled (by decide)
      · rw [required] at preferred
        exact absurd preferred (by decide)
  · intro preferred found keyed handed
    obtain envelope|plaintext := sent.handed_cases handed
    · exact envelope
    · obtain disabled|⟨_,missing|missing⟩ := plaintext.permitted
      · rw [preferred] at disabled
        exact absurd disabled (by decide)
      · exact absurd missing found
      · exact absurd missing keyed

end Site
end ESPressioSecurity
