import ESPressioSecurity.Model.TestDoubles
import ESPressioSecurity.System.Provenance

namespace ESPressioSecurity

open Framework

variable {σ : Type}

/-! ### One `Open` that succeeds -/

namespace TransportSecurity

/-- A protected `Unprotect` that succeeds opened an envelope whose parts one listed `Seal` made. -/
theorem unprotect_sealed {host : Host σ} {s : TransportSecurity} {expectedProtocol : UInt8}
    {input : Span} {seals : List SealCall} (only : OpensOnly host seals)
    (sized : ∀ h,readHeader input.content=some h →
      h.ciphertextLength.toNat≤SecurityBuffer.maxSize host.sizeBits → NoWrap host h)
    (ok : (unprotect host s expectedProtocol input).result=.ok true) :
    ∃ e : Envelope,∃call∈seals,e.bytes=input.content ∧ e.header.magic=envelopeMagic ∧
      e.header.protocol=expectedProtocol ∧
      s.replay.wouldAccept e.header.domain e.header.sequence=true ∧
      (unprotect host s expectedProtocol input).payload=e.header.payload call.plaintext ∧
      call.aad=e.header.bytes ∧ call.nonce=e.nonce ∧ call.ciphertext=e.ciphertext ∧
      call.tag=e.tag := by
  have success : (unprotect host s expectedProtocol input).result.success=true := by rw [ok]; rfl
  obtain ⟨_,_,_,he⟩|⟨h,cipher,key,admitted,opened,protocol,he⟩ := unprotect_success success
  · rw [he] at ok
    exact absurd ok (by simp [passPlaintext,SecurityResult.ok])
  have form := admitted.well_formed
  obtain ⟨e,rfl,hb⟩ := admitted.envelope (sized h form.read admitted.room)
  rw [← hb] at opened he
  obtain ⟨okay,plain⟩ := opening_envelope e cipher key
  rw [okay] at opened
  obtain ⟨call,mem,_,nonce,aad,ciphertext,tag,plaintext⟩ :=
    only _ cipher admitted.cipher_found _ key admitted.key_found _ _ _ _ opened
  refine ⟨e,call,mem,hb,form.magic,protocol,admitted.fresh,?_,aad,nonce,ciphertext,tag⟩
  rw [he,plaintext]
  exact congrArg e.header.payload plain

end TransportSecurity

namespace DataProtector

theorem unprotect_sealed {host : Host σ} {d : DataProtector} {protectedData context : Span}
    {seals : List SealCall} (only : OpensOnly host seals)
    (sized : ∀ h,readHeader protectedData.content=some h →
      h.plaintextSize.toNat≤SecurityBuffer.maxSize host.sizeBits → NoWrap host h)
    (ok : (unprotect host d protectedData context).result.success=true) :
    ∃ f : Frame,∃call∈seals,f.bytes=protectedData.content ∧
      (unprotect host d protectedData context).plaintext=call.plaintext ∧
      call.aad=f.header.bytes++context.content ∧ call.nonce=f.nonce ∧
      call.ciphertext=f.ciphertext ∧ call.tag=f.tag := by
  obtain ⟨data,h,cipher,key,rfl,admitted,opened,plain⟩ := unprotect_success ok
  obtain ⟨f,rfl,hb,parts⟩ := Frame.of_header admitted.read
    (admitted.length (sized h admitted.read admitted.room))
  subst hb
  obtain ⟨okay,val⟩ := opening_frame parts context admitted.context_valid cipher key
  rw [okay] at opened
  obtain ⟨call,mem,_,nonce,aad,ciphertext,tag,plaintext⟩ :=
    only _ cipher admitted.cipher_found _ key admitted.key_found _ _ _ _ opened
  exact ⟨f,call,mem,rfl,plain.trans (val.trans plaintext.symm),aad,nonce,ciphertext,tag⟩

end DataProtector

/-! ### Runs -/

namespace Deployment

variable {ι κ ρ : Type} [DecidableEq ι] [DecidableEq κ]

theorem transport_authentic {w : Deployment ι κ ρ} {as : List (Action ι κ ρ)} {host : Host σ}
    (only : OpensOnly host (sealsOf (log ((machine ι κ ρ).trace w as)))) {s : TransportSecurity}
    {protocol : UInt8} {input : Span}
    (sized : ∀ h,TransportSecurity.readHeader input.content=some h →
      h.ciphertextLength.toNat≤SecurityBuffer.maxSize host.sizeBits →
      TransportSecurity.NoWrap host h)
    (ok : (s.unprotect host protocol input).result=.ok true) :
    ∃x∈(machine ι κ ρ).trace w as,∃ e : TransportSecurity.Envelope,∃ payload,
      emission x=some ⟨protocol,payload,input.content⟩ ∧ e.bytes=input.content ∧
      s.replay.wouldAccept e.header.domain e.header.sequence=true ∧
      (s.unprotect host protocol input).payload=e.header.payload payload := by
  obtain ⟨e,call,mem,bytes,magic,hp,fresh,payload,aad,nonce,ciphertext,tag⟩ :=
    TransportSecurity.unprotect_sealed only sized ok
  obtain ⟨x,hx,origin⟩ := run_origin mem
  have found := transport_origin origin e magic aad nonce ciphertext tag
  rw [hp,bytes] at found
  exact ⟨x,hx,e,call.plaintext,found,bytes,fresh,payload⟩

theorem data_authentic {w : Deployment ι κ ρ} {as : List (Action ι κ ρ)} {host : Host σ}
    (only : OpensOnly host (sealsOf (log ((machine ι κ ρ).trace w as)))) {d : DataProtector}
    {protectedData context : Span}
    (sized : ∀ h,DataProtector.readHeader protectedData.content=some h →
      h.plaintextSize.toNat≤SecurityBuffer.maxSize host.sizeBits → DataProtector.NoWrap host h)
    (ok : (d.unprotect host protectedData context).result.success=true) :
    ∃x∈(machine ι κ ρ).trace w as,dataEmission x=some ⟨context.content,
      (d.unprotect host protectedData context).plaintext,protectedData.content⟩ := by
  obtain ⟨f,call,mem,bytes,plain,aad,nonce,ciphertext,tag⟩ :=
    DataProtector.unprotect_sealed only sized ok
  obtain ⟨x,hx,origin⟩ := run_origin mem
  have found := data_origin origin f context.content aad nonce ciphertext tag
  rw [bytes] at found
  exact ⟨x,hx,by rw [plain]; exact found⟩

/-- After any run, data unprotects only as what a `DataProtector` put out for the same context, and
a transport payload only as what a `TransportSecurity` put out for the same protocol. -/
theorem envelopes_authentic (w : Deployment ι κ ρ) (as : List (Action ι κ ρ)) (host : Host σ)
    (only : OpensOnly host (sealsOf (log ((machine ι κ ρ).trace w as)))) :
    (∀ (d : DataProtector) (b context : Span),
      (∀ h,DataProtector.readHeader b.content=some h → DataProtector.NoWrap host h) →
      (d.unprotect host b context).result.success=true →
      ∃x∈(machine ι κ ρ).trace w as,dataEmission x=
        some ⟨context.content,(d.unprotect host b context).plaintext,b.content⟩) ∧
    (∀ (s : TransportSecurity) (protocol : UInt8) (b : Span),
      (∀ h,TransportSecurity.readHeader b.content=some h → TransportSecurity.NoWrap host h) →
      (s.unprotect host protocol b).result=.ok true →
      ∃x∈(machine ι κ ρ).trace w as,emission x=
        some ⟨protocol,(s.unprotect host protocol b).payload.data,b.content⟩) := by
  constructor
  · intro d b context sized ok
    exact data_authentic only (fun h read _ => sized h read) ok
  · intro s protocol b sized ok
    obtain ⟨x,hx,e,payload,found,_,_,same⟩ := transport_authentic only
      (fun h read _ => sized h read) ok
    refine ⟨x,hx,?_⟩
    rw [same]
    exact found

theorem envelopes_authentic_byte :
    let host := testHost (TinyCipher .testOnly 2 2 2) 1 [1,2]
    let w : Deployment Unit Unit UInt8 := new (fun _ => {}) (fun _ => {algorithm := .testOnly}) 1
    let t := (machine Unit Unit UInt8).trace w [.dataProtect () host (.bytes [9]) (.bytes [5])]
    let receiver := testHost (LedgerCipher (TinyCipher .testOnly 2 2 2) (sealsOf (log t))) 1 [1,2]
    let b := (DataProtector.protect host (w.protectors ()) 1 (.bytes [9]) (.bytes [5])).output
    ∃x∈t,dataEmission x=some ⟨[5],
      ((w.protectors ()).unprotect receiver (.bytes b) (.bytes [5])).plaintext,b⟩ := by
  intro host w t receiver b
  exact (envelopes_authentic w _ receiver (testHost_opens_only _ _ 1 [1,2])).1 (w.protectors ())
    (.bytes b) (.bytes [5]) (fun h _ => DataProtector.noWrap_of_bits (by decide) h) (by decide)

end Deployment
end ESPressioSecurity
