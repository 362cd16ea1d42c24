import ESPressioSecurity.Model.MbedTLSAead
import ESPressioSecurity.Transport.RoundTrip

namespace ESPressioSecurity

open Framework

namespace MbedTLSAdapter

variable {ρ σ : Type}

/-- All that a build with every mbedTLS mode registers. -/
def all {χ μ π : Type} (gcm : MbedTLSMode χ) (ccm : MbedTLSMode μ) (chachapoly : MbedTLSMode π) :
    List MbedTLSAdapter :=
  [AES128GCMCipher gcm,AES256GCMCipher gcm,AES128CCMCipher ccm,AES256CCMCipher ccm,
    ChaCha20Poly1305Cipher chachapoly]

/-- A registry takes the first adapter for an algorithm that it was given one for. -/
theorem taken {as : List MbedTLSAdapter} {algorithm : AeadAlgorithm}
    (built : ∃a∈as,a.algorithm=algorithm) :
    ∃a∈as,as.find? (·.algorithm=algorithm)=some a ∧ a.algorithm=algorithm := by
  obtain ⟨b,hb,named⟩ := built
  obtain ⟨a,found⟩ : ∃ a,as.find? (·.algorithm=algorithm)=some a := by
    apply Option.isSome_iff_exists.mp
    rw [List.find?_isSome]
    exact ⟨b,hb,by simpa using named⟩
  exact ⟨a,List.mem_of_find?_eq_some found,found,by simpa using List.find?_some found⟩

/-- Registries of adapters whose modes fit agree on every algorithm the sender has. -/
theorem registries_agree {as bs : List MbedTLSAdapter} {host : Host ρ} {receiver : Host σ}
    (sender : host.ciphers=registry as) (opener : receiver.ciphers=registry bs)
    (covered : ∀a∈as,∃b∈bs,b.algorithm=a.algorithm)
    (fit : ∀a∈as,∀b∈bs,b.algorithm=a.algorithm → b.Inverts a) (algorithm : AeadAlgorithm)
    (keyID : UInt32)
    (shared : ∀ k,host.keys.getKey keyID algorithm=some k →
      ∃ v,receiver.keys.getKey keyID algorithm=some v ∧ v.data=k.data) :
    TransportSecurity.Agrees host receiver algorithm keyID := by
  refine ⟨?_,shared⟩
  intro c found
  rw [sender,find_registry] at found
  obtain ⟨a,picked,rfl⟩ := Option.map_eq_some_iff.mp found
  have ha := List.mem_of_find?_eq_some picked
  have named : a.algorithm=algorithm := by simpa using List.find?_some picked
  obtain ⟨b,hb,same⟩ := covered a ha
  obtain ⟨first,hf,first_found,first_named⟩ := taken ⟨b,hb,same.trans named⟩
  have inverts := fit a ha first hf (first_named.trans named.symm)
  refine ⟨first.cipher,?_,inverts.keyBytes,rfl,rfl,cipher_opens inverts⟩
  rw [opener,find_registry,first_found]
  rfl

/-- Whatever adapters two sides were built with, as long as the receiver has the algorithms of the
sender and its library decrypts what the sender's encrypts: every envelope that leaves the sender in
any state it can reach is opened by any receiver that has not seen its sequence, with the payload
that went in. -/
theorem envelopes_carried (as bs : List MbedTLSAdapter)
    (covered : ∀a∈as,∃b∈bs,b.algorithm=a.algorithm)
    (fit : ∀a∈as,∀b∈bs,b.algorithm=a.algorithm → b.Inverts a)
    (config : TransportSecurityConfig) (r : ρ) (past : List (TransportSecurity.Operation ρ))
    (host : Host ρ) (sender : host.ciphers=registry as) (protocol : UInt8) (plaintext : Span)
    (receiver : Host σ) (opener : receiver.ciphers=registry bs) (t : TransportSecurity) :
    let x := TransportSecurity.reached config r past
    let o := TransportSecurity.protect host x.1 x.2 protocol plaintext
    o.result=.ok true → x.1.config.outboundKeyID≠0 →
    (∀ k,host.keys.getKey x.1.config.outboundKeyID x.1.config.outboundAlgorithm=some k →
      ∃ v,receiver.keys.getKey x.1.config.outboundKeyID x.1.config.outboundAlgorithm=some v ∧
        v.data=k.data) →
    plaintext.size≤t.config.maximumPlaintextBytes →
    o.output.length≤SecurityBuffer.maxSize receiver.sizeBits →
    ∃ h,TransportSecurity.readHeader o.output=some h ∧
      (t.replay.wouldAccept h.domain h.sequence=true →
        (t.unprotect receiver protocol (.bytes o.output)).result=.ok true ∧
        (t.unprotect receiver protocol (.bytes o.output)).payload=h.payload plaintext.content) := by
  intro x o sealed keyed shared bounded room
  have consistent : x.1.Consistent :=
    TransportSecurity.run_consistent _ past (TransportSecurity.new_consistent config)
  have out : TransportSecurity.emitted
      (TransportSecurity.step x (.protect host protocol plaintext)).2=some o.output := by
    simp only [TransportSecurity.step,TransportSecurity.emitted]
    have ok : (TransportSecurity.protect host x.1 x.2 protocol plaintext).result=.ok true := sealed
    rw [ok]
    rfl
  obtain ⟨cipher,key,e,emits,he⟩ := TransportSecurity.emitted_protect out
  have agrees := registries_agree sender opener covered fit x.1.config.outboundAlgorithm
    x.1.config.outboundKeyID shared
  refine ⟨e.header,?_,?_⟩
  · rw [← he]
    exact e.readHeader_bytes
  · intro fresh
    rw [← he] at room ⊢
    exact emits.accepted consistent keyed agrees bounded room fresh

/-- The stub of the tests: the text goes through as it is, with a constant tag. -/
def stubMode (filler : UInt8) : MbedTLSMode Unit where
  init := ()
  setkey _ _ := (true,())
  encryptAndTag _ _ _ plaintext size := ⟨true,⟨plaintext,rfl⟩,⟨List.replicate size filler,by simp⟩⟩
  authDecrypt _ _ _ ciphertext _ := ⟨true,⟨ciphertext,rfl⟩⟩

theorem stub_inverts (f g : UInt8) (algorithm : AeadAlgorithm) (keyBytes : Nat) :
    Inverts ⟨stubMode f,algorithm,keyBytes⟩ ⟨stubMode g,algorithm,keyBytes⟩ :=
  ⟨rfl,fun _ _ _ _ _ _ _ _ => ⟨rfl,rfl,rfl⟩⟩

theorem envelopes_carried_ccm :
    let as := all (stubMode 0xA5) (stubMode 0x5A) (stubMode 0x3C)
    let key := List.replicate 32 1
    let host : Host UInt8 := {testHost (AES256CCMCipher (stubMode 0x5A)).cipher 1 key with
      ciphers := registry as}
    let config : TransportSecurityConfig := {outboundAlgorithm := .aes256CCM,sessionID := 7}
    let x := TransportSecurity.reached config (1 : UInt8) []
    let o := TransportSecurity.protect host x.1 x.2 3 (.bytes [9])
    ((TransportSecurity.new config).unprotect host 3 (.bytes o.output)).payload.data=[9] := by
  intro as key host config x o
  have fit : ∀a∈as,∀b∈as,b.algorithm=a.algorithm → b.Inverts a := by
    intro a ha b hb same
    simp only [as,all,List.mem_cons,List.not_mem_nil,or_false] at ha hb
    rcases ha with rfl|rfl|rfl|rfl|rfl <;> rcases hb with rfl|rfl|rfl|rfl|rfl <;>
      first
      | exact absurd same (by decide)
      | exact stub_inverts _ _ _ _
  obtain ⟨h,read,carried⟩ := envelopes_carried as as (fun a ha => ⟨a,ha,rfl⟩) fit config (1 : UInt8)
    [] host rfl 3 (.bytes [9]) host rfl (TransportSecurity.new config) (by decide +kernel) (by decide)
    (fun k hk => ⟨k,hk,rfl⟩) (by decide) (by decide +kernel)
  have header : (TransportSecurity.readHeader o.output).map (fun g => (g.sessionID,g.sequence))=
      some (7,1) := by decide +kernel
  have shown : TransportSecurity.readHeader o.output=some h := read
  rw [shown,Option.map_some,Option.some.injEq,Prod.mk.injEq] at header
  have fresh : (TransportSecurity.new config).replay.wouldAccept h.domain h.sequence=true := by
    rw [TransportSecurity.Header.domain,header.1,header.2]
    rfl
  have payload := (carried fresh).2
  simp only [o,x]
  rw [payload]
  rfl

end MbedTLSAdapter
end ESPressioSecurity
