import ESPressioSecurity.Transport.Operations

namespace ESPressioSecurity

open Framework

namespace TransportSecurity

variable {ρ : Type}

/-- `Protect` from the return of `EnsureSessionID` on. -/
def protectEstablished (host : Host ρ) (s : TransportSecurity) (r : ρ) (effects : List Effect)
    (cipher : IAeadCipher) (key : KeyMaterialView) (protocol : UInt8) (plaintext : Span) :
    ProtectOutcome ρ :=
  if s.nextSequence=0 ∨ s.nextSequence=maxSequence then
    refuse s r effects .sequenceExhausted
      "Outbound sequence exhausted; establish a new session before continuing"
  else if cipher.nonceSize>0xFF ∨ cipher.tagSize>0xFF ∨ plaintext.size>0xFFFFFFFF then
    refuse s r effects .bufferLimitExceeded
      "Transport security envelope fields exceed wire-format limits"
  else sealEnvelope host s r effects cipher key protocol plaintext

/-- Cipher and key of a `Protect` that announces a new session on its way. -/
def announcing (host : Host ρ) (s : TransportSecurity) (r : ρ) (plaintext : Span) :
    Option (IAeadCipher×KeyMaterialView) :=
  if plaintext.invalid=true ∨ plaintext.size>s.config.maximumPlaintextBytes ∨
      s.config.policy=.disabled ∨ s.sessionReady=true ∨ s.observable=false ∨
      (ensureSessionID host s r).ok=false then none
  else
    match host.ciphers.find s.config.outboundAlgorithm,
      host.keys.getKey s.config.outboundKeyID s.config.outboundAlgorithm with
    | some cipher,some key => if key.size=cipher.keySize then some (cipher,key) else none
    | _,_ => none

end TransportSecurity

namespace Reentrant

open TransportSecurity

variable {ρ : Type}

/-- What is left of a call while an observer that it notified is running. -/
inductive Frame (ρ : Type)
  | establishing (host : Host ρ) (protocol : UInt8) (plaintext : Span) (cipher : IAeadCipher)
      (key : KeyMaterialView)
  | configurationChanged (previousSessionID : UInt64)
  | sessionReset (previousSessionID : UInt64)
  | returning

/-- A service together with the calls whose observers are running, the innermost first. -/
structure Service (ρ : Type) where
  security : TransportSecurity
  random : ρ
  calls : List (Frame ρ)

def Service.new (config : TransportSecurityConfig) (r : ρ) : Service ρ :=
  ⟨TransportSecurity.new config,r,[]⟩

/-- A call is made, from outside or by the observer that is running, or this observer returns. -/
inductive Move (ρ : Type)
  | enter (op : Operation ρ)
  | leave

/-- A `Protect` or `Unprotect` that has its result. -/
inductive Outcome
  | sent (protocol : UInt8) (plaintext : Span) (result : SecurityResult) (output : Bytes)
  | received (protocol : UInt8) (input : Span) (result : SecurityResult)
      (payload : UnprotectedPayload)

structure Report where
  effects : List Effect
  outcome : Option Outcome

/-- The result is there; a failure is still reported to the observers. -/
def Service.finish (calls : List (Frame ρ)) (s : TransportSecurity) (r : ρ)
    (result : SecurityResult) : Service ρ :=
  ⟨s,r,if result.success=false ∧ s.observable=true then .returning::calls else calls⟩

def enter (x : Service ρ) : Operation ρ → Service ρ×Report
  | .protect host protocol plaintext =>
    match announcing host x.security x.random plaintext with
    | some (cipher,key) =>
      let session := ensureSessionID host x.security x.random
      (⟨session.security,session.random,
        .establishing host protocol plaintext cipher key::x.calls⟩,⟨session.effects,none⟩)
    | none =>
      let o := protect host x.security x.random protocol plaintext
      (.finish x.calls o.security o.random o.result,
        ⟨o.effects,some (.sent protocol plaintext o.result o.output)⟩)
  | .unprotect host expectedProtocol input =>
    let o := unprotect host x.security expectedProtocol input
    (.finish x.calls o.security x.random o.result,
      ⟨o.effects,some (.received expectedProtocol input o.result o.payload)⟩)
  | .setConfig config =>
    (⟨(x.security.setConfig config).1,x.random,
      if x.security.observable then .configurationChanged x.security.sessionID::x.calls
      else x.calls⟩,
      ⟨x.security.notify (.configurationChanged x.security.config config),none⟩)
  | .resetReplayProtection =>
    (⟨x.security.resetReplayProtection.1,x.random,
      if x.security.observable then .returning::x.calls else x.calls⟩,
      ⟨x.security.resetReplayProtection.2,none⟩)
  | .registerObserver => (⟨x.security.registerObserver,x.random,x.calls⟩,⟨[],none⟩)

/-- The last notification of `SetConfig`; it reads the members as the observers left them. -/
def announceSession (x : Service ρ) (calls : List (Frame ρ)) (previousSessionID : UInt64) :
    Service ρ×Report :=
  if x.security.sessionReady=true ∧ x.security.sessionID≠previousSessionID then
    ({x with calls := .returning::calls},
      ⟨x.security.notify (.sessionEstablished x.security.sessionID),none⟩)
  else ({x with calls := calls},⟨[],none⟩)

def leave (x : Service ρ) : Service ρ×Report :=
  match x.calls with
  | [] => (x,⟨[],none⟩)
  | .establishing host protocol plaintext cipher key::calls =>
    let o := protectEstablished host x.security x.random [] cipher key protocol plaintext
    (.finish calls o.security o.random o.result,
      ⟨o.effects,some (.sent protocol plaintext o.result o.output)⟩)
  | .configurationChanged previousSessionID::calls =>
    if previousSessionID≠0 ∧ previousSessionID≠x.security.sessionID then
      ({x with calls := .sessionReset previousSessionID::calls},
        ⟨x.security.notify (.sessionReset previousSessionID),none⟩)
    else announceSession x calls previousSessionID
  | .sessionReset previousSessionID::calls => announceSession x calls previousSessionID
  | .returning::calls => ({x with calls := calls},⟨[],none⟩)

def step (x : Service ρ) : Move ρ → Service ρ×Report
  | .enter op => enter x op
  | .leave => leave x

def machine (ρ : Type) : Machine (Service ρ) (Move ρ) Report := ⟨step⟩

theorem machine_step : (machine ρ).step=step := rfl

/-! ### Observers that return at once -/

theorem announcing_some {host : Host ρ} {s : TransportSecurity} {r : ρ} {plaintext : Span}
    {cipher : IAeadCipher} {key : KeyMaterialView}
    (h : announcing host s r plaintext=some (cipher,key)) :
    Ready host s plaintext cipher key ∧ s.sessionReady=false ∧ s.observable=true ∧
      (ensureSessionID host s r).ok=true := by
  unfold announcing at h
  split_ifs at h with hn
  simp only [not_or,Bool.not_eq_true,Nat.not_lt,gt_iff_lt,Bool.not_eq_false] at hn
  obtain ⟨valid,bounded,enabled,fresh,observable,ok⟩ := hn
  cases hc : host.ciphers.find s.config.outboundAlgorithm with
  | none =>
    rw [hc] at h
    exact absurd h (by simp)
  | some c =>
    cases hk : host.keys.getKey s.config.outboundKeyID s.config.outboundAlgorithm with
    | none =>
      rw [hc,hk] at h
      exact absurd h (by simp)
    | some k =>
      rw [hc,hk] at h
      dsimp only at h
      split_ifs at h with size
      obtain ⟨rfl,rfl⟩ := Prod.mk.inj (Option.some.inj h)
      exact ⟨⟨valid,bounded,enabled,hc,hk,size⟩,fresh,observable,ok⟩

theorem protect_established {host : Host ρ} {s : TransportSecurity} {r : ρ} {plaintext : Span}
    {cipher : IAeadCipher} {key : KeyMaterialView} (h : Ready host s plaintext cipher key)
    (ok : (ensureSessionID host s r).ok=true) (protocol : UInt8) :
    protect host s r protocol plaintext=
      protectEstablished host (ensureSessionID host s r).security (ensureSessionID host s r).random
        (ensureSessionID host s r).effects cipher key protocol plaintext := by
  rw [protect_ready h]
  unfold protectReady
  exact if_neg (by simp [ok])

theorem protectEstablished_effects (host : Host ρ) (s : TransportSecurity) (r : ρ)
    (effects : List Effect) (cipher : IAeadCipher) (key : KeyMaterialView) (protocol : UInt8)
    (plaintext : Span) :
    protectEstablished host s r effects cipher key protocol plaintext=
      {protectEstablished host s r [] cipher key protocol plaintext with
        effects := effects++
          (protectEstablished host s r [] cipher key protocol plaintext).effects} := by
  unfold protectEstablished
  split_ifs
  · simp [refuse]
  · simp [refuse]
  · unfold sealEnvelope
    dsimp only
    split_ifs <;> simp [eraseAndRefuse]

theorem finish_returns (calls : List (Frame ρ)) (s : TransportSecurity) (r : ρ)
    (result : SecurityResult) :
    ∃ n,(machine ρ).after (.finish calls s r result) (List.replicate n .leave)=⟨s,r,calls⟩ ∧
      ((machine ρ).trace (.finish calls s r result) (List.replicate n .leave)).flatMap
        (fun y => y.2.effects)=[] := by
  unfold Service.finish
  split_ifs
  · exact ⟨1,rfl,rfl⟩
  · exact ⟨0,rfl,rfl⟩

theorem announceSession_returns (x : Service ρ) (calls : List (Frame ρ)) (previous : UInt64) :
    ∃ n,(machine ρ).after (announceSession x calls previous).1 (List.replicate n .leave)=
        {x with calls := calls} ∧
      (announceSession x calls previous).2.effects++
        ((machine ρ).trace (announceSession x calls previous).1 (List.replicate n .leave)).flatMap
          (fun y => y.2.effects)=
        if x.security.sessionReady=true ∧ x.security.sessionID≠previous then
          x.security.notify (.sessionEstablished x.security.sessionID) else [] := by
  unfold announceSession
  split_ifs
  · exact ⟨1,rfl,by simp [Machine.trace,machine,step,leave]⟩
  · exact ⟨0,rfl,by simp [Machine.trace]⟩

theorem setConfig_notifies (s : TransportSecurity) (config : TransportSecurityConfig) :
    (s.setConfig config).2=s.notify (.configurationChanged s.config config)++
      ((if s.sessionID≠0 ∧ s.sessionID≠(s.setConfig config).1.sessionID then
          (s.setConfig config).1.notify (.sessionReset s.sessionID) else [])++
        if (s.setConfig config).1.sessionReady=true ∧ (s.setConfig config).1.sessionID≠s.sessionID then
          (s.setConfig config).1.notify (.sessionEstablished (s.setConfig config).1.sessionID)
        else []) := List.append_assoc _ _ _

/-- When the observers call nothing back, a call and the returns of its observers make one plain step. -/
theorem call_returns (x : Service ρ) (op : Operation ρ) :
    ∃ n,(machine ρ).after x (.enter op::List.replicate n .leave)=
        ⟨(TransportSecurity.step (x.security,x.random) op).1.1,
          (TransportSecurity.step (x.security,x.random) op).1.2,x.calls⟩ ∧
      ((machine ρ).trace x (.enter op::List.replicate n .leave)).flatMap (fun y => y.2.effects)=
        (TransportSecurity.step (x.security,x.random) op).2.effects := by
  cases op with
  | protect host protocol plaintext =>
    cases ha : announcing host x.security x.random plaintext with
    | none =>
      obtain ⟨n,state,effects⟩ := finish_returns x.calls
        (protect host x.security x.random protocol plaintext).security
        (protect host x.security x.random protocol plaintext).random
        (protect host x.security x.random protocol plaintext).result
      refine ⟨n,?_,?_⟩
      · simp only [Machine.after,machine_step,step,enter,ha]
        exact state
      · simp only [Machine.trace,machine_step,step,enter,ha,List.flatMap_cons,effects]
        exact List.append_nil _
    | some ck =>
      obtain ⟨cipher,key⟩ := ck
      obtain ⟨ready,_,_,ok⟩ := announcing_some ha
      have whole := protect_established ready ok protocol
      rw [protectEstablished_effects] at whole
      have out := finish_returns x.calls
        (protectEstablished host (ensureSessionID host x.security x.random).security
          (ensureSessionID host x.security x.random).random [] cipher key protocol plaintext).security
        (protectEstablished host (ensureSessionID host x.security x.random).security
          (ensureSessionID host x.security x.random).random [] cipher key protocol plaintext).random
        (protectEstablished host (ensureSessionID host x.security x.random).security
          (ensureSessionID host x.security x.random).random [] cipher key protocol plaintext).result
      obtain ⟨n,state,effects⟩ := out
      refine ⟨n+1,?_,?_⟩
      · simp only [List.replicate_succ,Machine.after,machine_step,step,enter,leave,ha,
          TransportSecurity.step,whole]
        exact state
      · simp only [List.replicate_succ,Machine.trace,machine_step,step,enter,leave,ha,
          List.flatMap_cons,effects,List.append_nil,TransportSecurity.step,whole]
        rfl
  | unprotect host protocol input =>
    obtain ⟨n,state,effects⟩ := finish_returns x.calls
      (unprotect host x.security protocol input).security x.random
      (unprotect host x.security protocol input).result
    refine ⟨n,state,?_⟩
    simp only [Machine.trace,machine_step,step,enter,List.flatMap_cons,effects]
    exact List.append_nil _
  | setConfig config =>
    cases observable : x.security.observable with
    | false =>
      refine ⟨0,?_,?_⟩
      · simp [Machine.after,machine_step,step,enter,observable,TransportSecurity.step]
      · simp [Machine.trace,machine_step,step,enter,observable,TransportSecurity.step,setConfig,notify,
          Response.effects]
    | true =>
      let next := (x.security.setConfig config).1
      let changed : Service ρ :=
        ⟨next,x.random,.configurationChanged x.security.sessionID::x.calls⟩
      have after : (machine ρ).step x (.enter (.setConfig config))=
          (changed,⟨x.security.notify (.configurationChanged x.security.config config),none⟩) := by
        simp only [machine_step,step,enter,observable,if_true]
        rfl
      have notified := setConfig_notifies x.security config
      by_cases reset : x.security.sessionID≠0 ∧ x.security.sessionID≠next.sessionID
      · let waits : Service ρ := {changed with calls := .sessionReset x.security.sessionID::x.calls}
        obtain ⟨n,state,effects⟩ := announceSession_returns waits x.calls x.security.sessionID
        have first : (machine ρ).step changed .leave=
            (waits,⟨next.notify (.sessionReset x.security.sessionID),none⟩) := if_pos reset
        have second : (machine ρ).step waits .leave=
          announceSession waits x.calls x.security.sessionID := rfl
        refine ⟨n+2,?_,?_⟩
        · simp only [List.replicate_succ,Machine.after,after,first,second]
          exact state
        · simp only [List.replicate_succ,Machine.trace,after,first,second,List.flatMap_cons,effects]
          rw [if_pos reset] at notified
          exact notified.symm
      · obtain ⟨n,state,effects⟩ := announceSession_returns changed x.calls x.security.sessionID
        have first : (machine ρ).step changed .leave=
          announceSession changed x.calls x.security.sessionID := if_neg reset
        refine ⟨n+1,?_,?_⟩
        · simp only [List.replicate_succ,Machine.after,after,first]
          exact state
        · simp only [List.replicate_succ,Machine.trace,after,first,List.flatMap_cons,effects]
          rw [if_neg reset] at notified
          exact notified.symm
  | resetReplayProtection =>
    cases observable : x.security.observable with
    | false =>
      refine ⟨0,?_,?_⟩
      · simp [Machine.after,machine_step,step,enter,observable,TransportSecurity.step]
      · simp [Machine.trace,machine_step,step,enter,TransportSecurity.step,Response.effects]
    | true =>
      refine ⟨1,?_,?_⟩
      · simp [Machine.after,machine_step,step,enter,leave,observable,TransportSecurity.step]
      · simp [Machine.trace,machine_step,step,enter,leave,observable,TransportSecurity.step,
          Response.effects]
  | registerObserver => exact ⟨0,rfl,rfl⟩

end Reentrant
end ESPressioSecurity
