import ESPressioSecurity.Transport.Protect
import ESPressioSecurity.Transport.Unprotect

namespace ESPressioSecurity

open Framework

/-- `SecureTransportDecorator`: which of its callbacks are set. The carrier and the security service
it borrows are arguments of its calls. -/
structure SecureTransportDecorator where
  receiver : Bool
  errorObserver : Bool

namespace SecureTransportDecorator

variable {ρ : Type}

structure SendOutcome (ρ : Type) where
  accepted : Bool
  result : SecurityResult
  handed : Option (UInt8×Bytes)
  security : TransportSecurity
  random : ρ
  effects : List Effect

/-- `Send`; `carrier` is what the carrier answers to the bytes handed to it. -/
def send (host : Host ρ) (carrier : UInt8 → Bytes → Bool) (s : TransportSecurity) (r : ρ)
    (protocol : UInt8) (data : Span) : SendOutcome ρ :=
  let current := s.protect host r protocol data
  if current.result.success=false then
    ⟨false,current.result,none,current.security,current.random,current.effects⟩
  else ⟨carrier protocol current.output,current.result,some (protocol,current.output),
    current.security,current.random,current.effects⟩

structure ReceiveOutcome where
  delivered : Option (UInt8×UnprotectedPayload)
  reported : Option (UInt8×SecurityResult)
  security : TransportSecurity
  effects : List Effect

def handleReceive (host : Host ρ) (d : SecureTransportDecorator) (s : TransportSecurity)
    (protocol : UInt8) (input : Span) : ReceiveOutcome :=
  let o := s.unprotect host protocol input
  if threw o.effects then ⟨none,none,o.security,o.effects⟩
  else if o.result.success=false then
    ⟨none,if d.errorObserver then some (protocol,o.result) else none,o.security,o.effects⟩
  else ⟨if d.receiver then some (protocol,o.payload) else none,none,o.security,o.effects⟩

/-- A delivery is the payload of an `Unprotect` that succeeded for the carrier's protocol. -/
theorem delivered_some {host : Host ρ} {d : SecureTransportDecorator} {s : TransportSecurity}
    {protocol p : UInt8} {input : Span} {payload : UnprotectedPayload}
    (h : (handleReceive host d s protocol input).delivered=some (p,payload)) :
    (s.unprotect host protocol input).result.success=true ∧ p=protocol ∧
      payload=(s.unprotect host protocol input).payload := by
  unfold handleReceive at h
  dsimp only at h
  split_ifs at h with ht hs hd
  have pair := Option.some.inj h
  exact ⟨Bool.eq_true_of_not_eq_false hs,(congrArg Prod.fst pair).symm,
    (congrArg Prod.snd pair).symm⟩

/-- Nothing is handed up when `Unprotect` fails, throwing included. -/
theorem delivered_none {host : Host ρ} {s : TransportSecurity} {protocol : UInt8} {input : Span}
    (h : (s.unprotect host protocol input).result.success=false) (d : SecureTransportDecorator) :
    (handleReceive host d s protocol input).delivered=none := by
  unfold handleReceive
  dsimp only
  split_ifs <;> rfl

theorem send_security (host : Host ρ) (carrier : UInt8 → Bytes → Bool) (s : TransportSecurity)
    (r : ρ) (protocol : UInt8) (data : Span) :
    (send host carrier s r protocol data).security=(s.protect host r protocol data).security := by
  rw [send]
  split_ifs <;> rfl

theorem handleReceive_security (host : Host ρ) (d : SecureTransportDecorator)
    (s : TransportSecurity) (protocol : UInt8) (input : Span) :
    (handleReceive host d s protocol input).security=
      (s.unprotect host protocol input).security := by
  rw [handleReceive]
  split_ifs <;> rfl

end SecureTransportDecorator
end ESPressioSecurity
