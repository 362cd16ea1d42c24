import ESPressioSecurity.System.Deployment

namespace ESPressioSecurity

open Framework

namespace Deployment

variable {ι κ ρ : Type}

/-- The call `call` made the bytes that the entry `x` of a history put out. -/
inductive Origin (x : Action ι κ ρ×Response) (call : SealCall) : Prop
  | transport (em : Emission) (e : TransportSecurity.Envelope) (key : Bytes)
      (found : emission x=some em) (bytes : em.bytes=e.bytes)
      (magic : e.header.magic=TransportSecurity.envelopeMagic)
      (protocol : e.header.protocol=em.protocol) (made : call=e.sealCall key em.payload)
  | data (em : DataEmission) (f : DataProtector.Frame) (key : Bytes)
      (found : dataEmission x=some em) (bytes : em.bytes=f.bytes)
      (made : call=f.sealCall key em.context em.plaintext)

/-! ### The two formats do not meet -/

/-- The third byte of the associated data tells the formats apart. -/
theorem header_formats_differ (h : TransportSecurity.Header)
    (magic : h.magic=TransportSecurity.envelopeMagic) (k : DataProtector.Header)
    (context : Bytes) : h.bytes≠k.bytes++context := by
  intro he
  have third := congrArg (fun b : Bytes => b[2]?) he
  rw [TransportSecurity.Header.bytes,TransportSecurity.appendHeader] at third
  simp [TransportSecurity.append16,TransportSecurity.append32,TransportSecurity.append64,magic,
    TransportSecurity.envelopeMagic,DataProtector.Header.bytes,DataProtector.magicBytes,
    toLE] at third

/-- Under a transport header only transport envelopes have been sealed, and the parts of the input
that opens are those of the envelope that was put out. -/
theorem transport_origin {x : Action ι κ ρ×Response} {call : SealCall} (origin : Origin x call)
    (e : TransportSecurity.Envelope) (magic : e.header.magic=TransportSecurity.envelopeMagic)
    (aad : call.aad=e.header.bytes) (nonce : call.nonce=e.nonce)
    (ciphertext : call.ciphertext=e.ciphertext) (tag : call.tag=e.tag) :
    emission x=some ⟨e.header.protocol,call.plaintext,e.bytes⟩ := by
  cases origin with
  | transport em f key found bytes fmagic protocol made =>
    subst made
    have header := TransportSecurity.Header.bytes_injective aad
    have same : f=e := TransportSecurity.Envelope.ext header nonce ciphertext tag
    subst same
    rw [found,protocol,← bytes]
    rfl
  | data em f key found bytes made =>
    subst made
    exact absurd aad.symm (header_formats_differ e.header magic f.header em.context)

theorem data_origin {x : Action ι κ ρ×Response} {call : SealCall} (origin : Origin x call)
    (f : DataProtector.Frame) (context : Bytes)
    (aad : call.aad=f.header.bytes++context) (nonce : call.nonce=f.nonce)
    (ciphertext : call.ciphertext=f.ciphertext) (tag : call.tag=f.tag) :
    dataEmission x=some ⟨context,call.plaintext,f.bytes⟩ := by
  cases origin with
  | transport em e key found bytes magic protocol made =>
    subst made
    exact absurd aad (header_formats_differ e.header magic f.header context)
  | data em g key found bytes made =>
    subst made
    obtain ⟨headers,contexts⟩ := List.append_inj aad (by simp)
    have header := DataProtector.Header.bytes_injective headers
    have same : em.bytes=f.bytes := by
      rw [bytes,DataProtector.Frame.bytes,DataProtector.Frame.bytes,header]
      change g.nonce=f.nonce at nonce
      change g.ciphertext=f.ciphertext at ciphertext
      change g.tag=f.tag at tag
      rw [nonce,ciphertext,tag]
    rw [found,← same,← contexts]
    rfl

/-! ### Every `Seal` of a run -/

theorem setConfig_quiet (s : TransportSecurity) (config : TransportSecurityConfig) :
    Quiet (s.setConfig config).2 :=
  quiet_of_notified (fun _ h => TransportSecurity.setConfig_only h)

theorem origin_protect {host : Host ρ} {s : TransportSecurity} {r : ρ} {protocol : UInt8}
    {plaintext : Span} {call : SealCall} {x : Action ι κ ρ×Response}
    (h : Effect.sealed call∈(s.protect host r protocol plaintext).effects) (ok : call.ok=true)
    (hx : (s.protect host r protocol plaintext).result=.ok true →
      emission x=some ⟨protocol,plaintext.content,(s.protect host r protocol plaintext).output⟩) :
    Origin x call := by
  obtain ⟨hr,e,key,out,magic,hp,made⟩ := TransportSecurity.protect_seals h ok
  exact .transport _ e key (hx hr) out magic hp made

variable [DecidableEq ι] [DecidableEq κ]

/-- Whatever a call seals goes out with it: no successful `Seal` is made for anything else. -/
theorem origin_step (w : Deployment ι κ ρ) (a : Action ι κ ρ) {call : SealCall}
    (h : Effect.sealed call∈(step w a).2.effects) (ok : call.ok=true) :
    Origin (a,(step w a).2) call := by
  cases a with
  | transport i op =>
    cases op with
    | protect host protocol plaintext =>
      apply origin_protect h ok
      intro hr
      simp [step,TransportSecurity.step,emission,hr]
    | unprotect host expectedProtocol input =>
      exact absurd h (TransportSecurity.unprotect_quiet host _ expectedProtocol input call)
    | setConfig config => exact absurd h (setConfig_quiet _ config call)
    | resetReplayProtection => exact absurd h (TransportSecurity.notify_quiet _ _ call)
    | registerObserver => exact absurd h (quiet_nil call)
  | send i host carrier protocol data =>
    simp only [step,Response.effects,SecureTransportDecorator.send] at h
    by_cases hs : ((w.transports i).protect host w.random protocol data).result.success=false
    · rw [if_pos hs] at h
      obtain ⟨hr,_⟩ := TransportSecurity.protect_seals h ok
      rw [hr] at hs
      exact absurd hs (by decide)
    · rw [if_neg hs] at h
      apply origin_protect h ok
      intro hr
      simp [step,SecureTransportDecorator.send,emission,hr]
  | receive i host decorator protocol input =>
    simp only [step,Response.effects,SecureTransportDecorator.handleReceive] at h
    have quiet := TransportSecurity.unprotect_quiet host (w.transports i) protocol input call
    split_ifs at h <;> exact absurd h quiet
  | dataProtect k host plaintext context =>
    obtain ⟨hr,f,key,out,made⟩ := DataProtector.protect_seals h ok
    have found : dataEmission (Action.dataProtect (ι := ι) k host plaintext context,
        (step w (.dataProtect k host plaintext context)).2)=some ⟨context.content,plaintext.content,
          (DataProtector.protect host (w.protectors k) w.random plaintext context).output⟩ := by
      simp only [step,dataEmission,hr]
      rfl
    exact .data _ f key found out made
  | dataUnprotect k host protectedData context =>
    exact absurd h (DataProtector.unprotect_quiet host _ protectedData context call)
  | dataSetConfig k config => exact absurd h (quiet_nil call)

/-- Every successful `Seal` of a run belongs to the output of one of its steps. -/
theorem run_origin {w : Deployment ι κ ρ} {as : List (Action ι κ ρ)} {call : SealCall}
    (h : call∈sealsOf (log ((machine ι κ ρ).trace w as))) :
    ∃ x∈(machine ι κ ρ).trace w as,Origin x call := by
  obtain ⟨hc,ok⟩ := mem_sealsOf.mp h
  obtain ⟨x,hx,he⟩ := List.mem_flatMap.mp hc
  refine ⟨x,hx,?_⟩
  obtain ⟨past,_,_,hr⟩ := (machine ι κ ρ).mem_trace hx
  rw [hr] at he
  have origin := origin_step ((machine ι κ ρ).after w past) x.1 he ok
  rw [show (step ((machine ι κ ρ).after w past) x.1).2=x.2 from hr.symm] at origin
  exact origin

end Deployment
end ESPressioSecurity
