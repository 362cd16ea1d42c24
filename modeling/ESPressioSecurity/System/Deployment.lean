import Mathlib.Logic.Function.Basic
import ESPressioSecurity.Data.Protect
import ESPressioSecurity.Data.Unprotect
import ESPressioSecurity.Transport.SecureTransportDecorator
import ESPressioSecurity.Transport.Sessions

namespace ESPressioSecurity

open Framework

/-- Any number of `TransportSecurity` and `DataProtector` instances; `ρ` is the state of whatever
random sources they draw from. -/
structure Deployment (ι κ ρ : Type) where
  transports : ι → TransportSecurity
  protectors : κ → DataProtector
  random : ρ

namespace Deployment

variable {ι κ ρ : Type}

def new (configs : ι → TransportSecurityConfig) (dataConfigs : κ → DataProtectionConfig) (r : ρ) :
    Deployment ι κ ρ :=
  ⟨fun i => TransportSecurity.new (configs i),fun k => ⟨dataConfigs k⟩,r⟩

/-- A call on one of the instances, direct or through its decorator. What the network does to a
message is the choice of the next call and its input. -/
inductive Action (ι κ ρ : Type)
  | transport (i : ι) (op : TransportSecurity.Operation ρ)
  | send (i : ι) (host : Host ρ) (carrier : UInt8 → Bytes → Bool) (protocol : UInt8) (data : Span)
  | receive (i : ι) (host : Host ρ) (decorator : SecureTransportDecorator) (protocol : UInt8)
      (input : Span)
  | dataProtect (k : κ) (host : Host ρ) (plaintext context : Span)
  | dataUnprotect (k : κ) (host : Host ρ) (protectedData context : Span)
  | dataSetConfig (k : κ) (config : DataProtectionConfig)

inductive Response
  | transport (response : TransportSecurity.Response)
  | sent (accepted : Bool) (result : SecurityResult) (handed : Option (UInt8×Bytes))
      (effects : List Effect)
  | received (delivered : Option (UInt8×UnprotectedPayload))
      (reported : Option (UInt8×SecurityResult)) (effects : List Effect)
  | dataProtected (result : SecurityResult) (output : Bytes) (effects : List Effect)
  | dataUnprotected (result : SecurityResult) (plaintext : Bytes) (effects : List Effect)
  | configured

def Response.effects : Response → List Effect
  | transport response => response.effects
  | sent _ _ _ effects => effects
  | received _ _ effects => effects
  | dataProtected _ _ effects => effects
  | dataUnprotected _ _ effects => effects
  | configured => []

variable [DecidableEq ι] [DecidableEq κ]

def step (w : Deployment ι κ ρ) : Action ι κ ρ → Deployment ι κ ρ×Response
  | .transport i op =>
    let o := TransportSecurity.step (w.transports i,w.random) op
    ({w with transports := Function.update w.transports i o.1.1,random := o.1.2},.transport o.2)
  | .send i host carrier protocol data =>
    let o := SecureTransportDecorator.send host carrier (w.transports i) w.random protocol data
    ({w with transports := Function.update w.transports i o.security,random := o.random},
      .sent o.accepted o.result o.handed o.effects)
  | .receive i host decorator protocol input =>
    let o := SecureTransportDecorator.handleReceive host decorator (w.transports i) protocol input
    ({w with transports := Function.update w.transports i o.security},
      .received o.delivered o.reported o.effects)
  | .dataProtect k host plaintext context =>
    let o := DataProtector.protect host (w.protectors k) w.random plaintext context
    ({w with random := o.random},.dataProtected o.result o.output o.effects)
  | .dataUnprotect k host protectedData context =>
    let o := DataProtector.unprotect host (w.protectors k) protectedData context
    (w,.dataUnprotected o.result o.plaintext o.effects)
  | .dataSetConfig k config =>
    ({w with protectors := Function.update w.protectors k ((w.protectors k).setConfig config)},
      .configured)

def machine (ι κ ρ : Type) [DecidableEq ι] [DecidableEq κ] :
    Machine (Deployment ι κ ρ) (Action ι κ ρ) Response := ⟨step⟩

/-! ### One instance in a deployment -/

/-- The call an action makes on instance `i`. -/
def Action.on (i : ι) : Action ι κ ρ → Option (TransportSecurity.Operation ρ)
  | transport j op => if j=i then some op else none
  | send j host _ protocol data => if j=i then some (.protect host protocol data) else none
  | receive j host _ protocol input => if j=i then some (.unprotect host protocol input) else none
  | _ => none

/-- A step acts on one instance, and there as the call it makes. -/
theorem step_on (w : Deployment ι κ ρ) (a : Action ι κ ρ) (i : ι) :
    (step w a).1.transports i=match a.on i with
      | none => w.transports i
      | some op => (TransportSecurity.step (w.transports i,w.random) op).1.1 := by
  have updated : ∀ (j : ι) (s : TransportSecurity),
      Function.update w.transports j s i=if j=i then s else w.transports i := by
    intro j s
    rw [Function.update_apply]
    by_cases hj : j=i
    · rw [if_pos hj,if_pos hj.symm]
    · rw [if_neg hj,if_neg (Ne.symm hj)]
  cases a with
  | transport j op =>
    simp only [step,Action.on,updated]
    by_cases hj : j=i
    · subst hj
      simp
    · simp [hj]
  | send j host carrier protocol data =>
    simp only [step,Action.on,updated,SecureTransportDecorator.send_security]
    by_cases hj : j=i
    · subst hj
      simp [TransportSecurity.step]
    · simp [hj]
  | receive j host decorator protocol input =>
    simp only [step,Action.on,updated,SecureTransportDecorator.handleReceive_security]
    by_cases hj : j=i
    · subst hj
      simp [TransportSecurity.step]
    · simp [hj]
  | dataProtect k host plaintext context => rfl
  | dataUnprotect k host protectedData context => rfl
  | dataSetConfig k config => rfl

/-! ### What a history put out -/

/-- The calls made on the borrowed objects during a history. -/
def log (past : List (Action ι κ ρ×Response)) : List Effect := past.flatMap (·.2.effects)

/-- One successful `Protect` of a transport payload under protection. -/
structure Emission where
  protocol : UInt8
  payload : Bytes
  bytes : Bytes
  deriving DecidableEq,Repr

def emission : Action ι κ ρ×Response → Option Emission
  | (.transport _ (.protect _ protocol plaintext),.transport (.outbound result output _)) =>
    if result.success ∧ result.isProtected then some ⟨protocol,plaintext.content,output⟩ else none
  | (.send _ _ _ protocol data,.sent _ result (some (_,output)) _) =>
    if result.success ∧ result.isProtected then some ⟨protocol,data.content,output⟩ else none
  | _ => none

/-- One successful `Protect` of a `DataProtector`. -/
structure DataEmission where
  context : Bytes
  plaintext : Bytes
  bytes : Bytes
  deriving DecidableEq,Repr

def dataEmission : Action ι κ ρ×Response → Option DataEmission
  | (.dataProtect _ _ plaintext context,.dataProtected result output _) =>
    if result.success then some ⟨context.content,plaintext.content,output⟩ else none
  | _ => none

/-- The delivery that a decorator on instance `i` made to its receiver. -/
def delivery (i : ι) : Action ι κ ρ×Response → Option (UInt8×UnprotectedPayload)
  | (.receive j _ _ _ _,.received delivered _ _) => if j=i then delivered else none
  | _ => none

end Deployment
end ESPressioSecurity
