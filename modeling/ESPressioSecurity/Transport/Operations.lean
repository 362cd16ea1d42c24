import ESPressioSecurity.Framework.Machine
import ESPressioSecurity.Transport.Protect
import ESPressioSecurity.Transport.Unprotect

namespace ESPressioSecurity

open Framework

/-- The replay domain that an accepted payload belongs to. -/
def UnprotectedPayload.domain (p : UnprotectedPayload) : ReplayDomain :=
  ⟨p.senderID,p.keyID,p.sessionID⟩

namespace TransportSecurity

variable {ρ : Type}

/-- The calls made on a `TransportSecurity`, each with the surroundings it meets. -/
inductive Operation (ρ : Type)
  | protect (host : Host ρ) (protocol : UInt8) (plaintext : Span)
  | unprotect (host : Host ρ) (expectedProtocol : UInt8) (input : Span)
  | setConfig (config : TransportSecurityConfig)
  | resetReplayProtection
  | registerObserver

inductive Response
  | outbound (result : SecurityResult) (output : Bytes) (effects : List Effect)
  | inbound (result : SecurityResult) (payload : UnprotectedPayload) (effects : List Effect)
  | control (effects : List Effect)

def Response.effects : Response → List Effect
  | outbound _ _ effects => effects
  | inbound _ _ effects => effects
  | control effects => effects

def UnprotectOutcome.response (o : UnprotectOutcome) : Response :=
  .inbound o.result o.payload o.effects

def step (x : TransportSecurity×ρ) : Operation ρ → (TransportSecurity×ρ)×Response
  | .protect host protocol plaintext =>
    let o := protect host x.1 x.2 protocol plaintext
    ((o.security,o.random),.outbound o.result o.output o.effects)
  | .unprotect host expectedProtocol input =>
    let o := unprotect host x.1 expectedProtocol input
    ((o.security,x.2),.inbound o.result o.payload o.effects)
  | .setConfig config => (((x.1.setConfig config).1,x.2),.control (x.1.setConfig config).2)
  | .resetReplayProtection =>
    ((x.1.resetReplayProtection.1,x.2),.control x.1.resetReplayProtection.2)
  | .registerObserver => ((x.1.registerObserver,x.2),.control [])

def machine (ρ : Type) : Machine (TransportSecurity×ρ) (Operation ρ) Response := ⟨step⟩

/-- State and history of a freshly constructed instance after some calls. -/
def reached (config : TransportSecurityConfig) (r : ρ) (ops : List (Operation ρ)) :
    TransportSecurity×ρ := (machine ρ).after (new config,r) ops

def history (config : TransportSecurityConfig) (r : ρ) (ops : List (Operation ρ)) :
    List (Operation ρ×Response) := (machine ρ).trace (new config,r) ops

def Operation.isSetConfig : Operation ρ → Bool
  | setConfig _ => true
  | _ => false

def Operation.isControl : Operation ρ → Bool
  | setConfig _ => true
  | resetReplayProtection => true
  | _ => false

/-- The envelope that a call put out under protection. -/
def emitted : Response → Option Bytes
  | .outbound result output _ => if result.success ∧ result.isProtected then some output else none
  | _ => none

/-- Domain and sequence that a call committed to the replay window. -/
def committed : Response → Option (ReplayDomain×UInt64)
  | .inbound result payload _ =>
    if result.success ∧ result.isProtected then
      some (⟨payload.senderID,payload.keyID,payload.sessionID⟩,payload.sequence)
    else none
  | _ => none

/-- What `Unprotect` commits is named in the header of its input. -/
theorem committed_header {host : Host ρ} {s : TransportSecurity} {expectedProtocol : UInt8}
    {input : Span} {x : ReplayDomain×UInt64}
    (h : committed (unprotect host s expectedProtocol input).response=some x) :
    ∃ header,IsEnvelope host input.content header ∧ x=(header.domain,header.sequence) := by
  have hc := unprotect_case host s expectedProtocol input
  generalize unprotect host s expectedProtocol input=out at hc h
  cases hc with
  | rejected error message => exact absurd h (by simp [reject,committed,UnprotectOutcome.response])
  | passed valid plain policy =>
    exact absurd h (by simp [passPlaintext,committed,UnprotectOutcome.response])
  | thrown header cipher key checked large =>
    exact absurd h (by simp [throwLength,committed,UnprotectOutcome.response])
  | unopened header cipher key admitted reason error message =>
    exact absurd h (by simp [reject,committed,UnprotectOutcome.response])
  | accepted header cipher key admitted opened protocol =>
    have pair := Option.some.inj h
    exact ⟨header,⟨cipher,admitted.cipher_found,admitted.well_formed⟩,pair.symm⟩

/-- One protected `Protect` with everything its envelope was made from. -/
structure Emits (host : Host ρ) (x : TransportSecurity×ρ) (protocol : UInt8) (plaintext : Span)
    (cipher : IAeadCipher) (key : KeyMaterialView) (e : Envelope) : Prop where
  ready : Ready host x.1 plaintext cipher key
  session : (ensureSessionID host x.1 x.2).ok=true
  counter : (ensureSessionID host x.1 x.2).security.nextSequence≠0 ∧
    (ensureSessionID host x.1 x.2).security.nextSequence≠maxSequence
  seals : Seals host (ensureSessionID host x.1 x.2).security (ensureSessionID host x.1 x.2).random
    protocol plaintext cipher key e
  after : (protect host x.1 x.2 protocol plaintext).security=
    (ensureSessionID host x.1 x.2).security.consumeSequence
  sealed : Effect.sealed (e.sealCall key.data plaintext.content)∈
    (protect host x.1 x.2 protocol plaintext).effects

theorem emitted_protect {host : Host ρ} {x : TransportSecurity×ρ} {protocol : UInt8}
    {plaintext : Span} {b : Bytes}
    (h : emitted (step x (.protect host protocol plaintext)).2=some b) :
    ∃ cipher key e,Emits host x protocol plaintext cipher key e ∧ e.bytes=b := by
  simp only [step,emitted] at h
  split_ifs at h with hs
  obtain ⟨_,he⟩|⟨cipher,key,e,ready,ok,counter,seals,he⟩ := protect_success hs.1
  · rw [he] at hs
    exact absurd hs.2 (by simp [passThrough])
  · refine ⟨cipher,key,e,⟨ready,ok,counter,seals,?_,?_⟩,?_⟩
    · rw [he]
    · rw [he]
      simp
    · rw [he] at h
      exact Option.some.inj h

/-- Only `Protect` puts out envelopes. -/
theorem emitted_some {x : TransportSecurity×ρ} {op : Operation ρ} {b : Bytes}
    (h : emitted (step x op).2=some b) :
    ∃ host protocol plaintext cipher key e,op=.protect host protocol plaintext ∧
      Emits host x protocol plaintext cipher key e ∧ e.bytes=b := by
  cases op with
  | protect host protocol plaintext =>
    obtain ⟨cipher,key,e,he,hb⟩ := emitted_protect h
    exact ⟨host,protocol,plaintext,cipher,key,e,rfl,he,hb⟩
  | unprotect host expectedProtocol input => exact absurd h (by simp [step,emitted])
  | setConfig config => exact absurd h (by simp [step,emitted])
  | resetReplayProtection => exact absurd h (by simp [step,emitted])
  | registerObserver => exact absurd h (by simp [step,emitted])

/-- Under `Required` a success is a protected one, and it is committed. -/
theorem required_commits {host : Host ρ} {s : TransportSecurity} {r : ρ} {expectedProtocol : UInt8}
    {input : Span} (policy : s.config.policy=.required)
    (h : (s.unprotect host expectedProtocol input).result.success=true) :
    (s.unprotect host expectedProtocol input).result=.ok true ∧
    committed (step (s,r) (.unprotect host expectedProtocol input)).2=
      some ((s.unprotect host expectedProtocol input).payload.domain,
        (s.unprotect host expectedProtocol input).payload.sequence) := by
  obtain ⟨_,_,hp,_⟩|⟨header,cipher,key,_,_,_,he⟩ := unprotect_success h
  · exact absurd policy hp
  · simp only [step,he]
    exact ⟨rfl,rfl⟩

theorem required_fresh {host : Host ρ} {s : TransportSecurity} {expectedProtocol : UInt8}
    {input : Span} (policy : s.config.policy=.required)
    (h : (s.unprotect host expectedProtocol input).result.success=true) :
    s.replay.wouldAccept (s.unprotect host expectedProtocol input).payload.domain
      (s.unprotect host expectedProtocol input).payload.sequence=true := by
  obtain ⟨_,_,hp,_⟩|⟨header,cipher,key,admitted,_,_,he⟩ := unprotect_success h
  · exact absurd policy hp
  · rw [he]
    exact admitted.fresh

end TransportSecurity
end ESPressioSecurity
