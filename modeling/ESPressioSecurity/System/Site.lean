import ESPressioSecurity.System.Deployment

namespace ESPressioSecurity

open Framework

/-- An `IKeyProvider` implementation: its states, the changes to them with what they answer, and the
lookups in a state. -/
structure KeyStore (χ μ : Type) where
  change : χ → μ → Bool×χ
  provider : χ → IKeyProvider

namespace StaticKeyProvider

inductive Change
  | add (memory : AddAllocation) (keyID : UInt32) (algorithm : AeadAlgorithm) (key : Span)
  | remove (keyID : UInt32) (algorithm : AeadAlgorithm)
  | clear

def apply (p : StaticKeyProvider) : Change → Bool×StaticKeyProvider
  | .add memory keyID algorithm key => p.add memory keyID algorithm key
  | .remove keyID algorithm => p.remove keyID algorithm
  | .clear => (true,p.clear)

def store : KeyStore StaticKeyProvider Change := ⟨apply,toProvider⟩

end StaticKeyProvider

/-- The parts of the surroundings that stay the same: the random source and the width of `size_t`. -/
structure Platform (ρ : Type) where
  random : IRandomSource ρ
  sizeBits : Nat

/-- Services that share one cipher registry and one key provider. -/
structure Site (ι κ χ ρ : Type) where
  ciphers : AeadCipherRegistry
  keys : χ
  services : Deployment ι κ ρ

/-- A call on one of the services; the objects it borrows are those of the site. -/
inductive Call (ι κ : Type)
  | protect (i : ι) (protocol : UInt8) (plaintext : Span)
  | unprotect (i : ι) (expectedProtocol : UInt8) (input : Span)
  | setConfig (i : ι) (config : TransportSecurityConfig)
  | resetReplayProtection (i : ι)
  | registerObserver (i : ι)
  | send (i : ι) (carrier : UInt8 → Bytes → Bool) (protocol : UInt8) (data : Span)
  | receive (i : ι) (decorator : SecureTransportDecorator) (protocol : UInt8) (input : Span)
  | dataProtect (k : κ) (plaintext context : Span)
  | dataUnprotect (k : κ) (protectedData context : Span)
  | dataSetConfig (k : κ) (config : DataProtectionConfig)

def Call.action {ι κ ρ : Type} (host : Host ρ) : Call ι κ → Deployment.Action ι κ ρ
  | protect i protocol plaintext => .transport i (.protect host protocol plaintext)
  | unprotect i expectedProtocol input => .transport i (.unprotect host expectedProtocol input)
  | setConfig i config => .transport i (.setConfig config)
  | resetReplayProtection i => .transport i .resetReplayProtection
  | registerObserver i => .transport i .registerObserver
  | send i carrier protocol data => .send i host carrier protocol data
  | receive i decorator protocol input => .receive i host decorator protocol input
  | dataProtect k plaintext context => .dataProtect k host plaintext context
  | dataUnprotect k protectedData context => .dataUnprotect k host protectedData context
  | dataSetConfig k config => .dataSetConfig k config

namespace Site

variable {ι κ χ μ ρ : Type}

inductive Command (ι κ μ : Type)
  | registerCipher (cipher : IAeadCipher)
  | unregisterCipher (algorithm : AeadAlgorithm)
  | changeKeys (change : μ)
  | call (allocates : Nat → Bool) (c : Call ι κ)

inductive Response
  | changed (done : Bool)
  | answered (response : Deployment.Response)

def host (store : KeyStore χ μ) (platform : Platform ρ) (allocates : Nat → Bool)
    (s : Site ι κ χ ρ) : Host ρ :=
  ⟨s.ciphers,store.provider s.keys,platform.random,allocates,platform.sizeBits⟩

variable [DecidableEq ι] [DecidableEq κ]

def step (store : KeyStore χ μ) (platform : Platform ρ) (s : Site ι κ χ ρ) :
    Command ι κ μ → Site ι κ χ ρ×Response
  | .registerCipher cipher =>
    let o := s.ciphers.register cipher
    ({s with ciphers := o.2},.changed o.1)
  | .unregisterCipher algorithm =>
    let o := s.ciphers.unregister algorithm
    ({s with ciphers := o.2},.changed o.1)
  | .changeKeys change =>
    let o := store.change s.keys change
    ({s with keys := o.2},.changed o.1)
  | .call allocates c =>
    let o := s.services.step (c.action (s.host store platform allocates))
    ({s with services := o.1},.answered o.2)

def machine (ι κ : Type) [DecidableEq ι] [DecidableEq κ] (store : KeyStore χ μ)
    (platform : Platform ρ) : Machine (Site ι κ χ ρ) (Command ι κ μ) Response :=
  ⟨step store platform⟩

/-! ### A site is a deployment -/

/-- The calls of a run as a deployment sees them, each with the registry and key provider it meets. -/
def actions (store : KeyStore χ μ) (platform : Platform ρ) (s : Site ι κ χ ρ) :
    List (Command ι κ μ) → List (Deployment.Action ι κ ρ)
  | [] => []
  | c::cs =>
    let rest := actions store platform (step store platform s c).1 cs
    match c with
    | .call allocates c => c.action (s.host store platform allocates)::rest
    | _ => rest

/-- The services of a site go through a run of the deployment. -/
theorem services_after (store : KeyStore χ μ) (platform : Platform ρ) (s : Site ι κ χ ρ)
    (cs : List (Command ι κ μ)) : ((machine ι κ store platform).after s cs).services=
      (Deployment.machine ι κ ρ).after s.services (actions store platform s cs) := by
  induction cs generalizing s with
  | nil => rfl
  | cons c cs ih =>
    have next := ih (step store platform s c).1
    cases c with
    | registerCipher cipher => exact next
    | unregisterCipher algorithm => exact next
    | changeKeys change => exact next
    | call allocates c => exact next

end Site

/-! ### Sessions across a run -/

namespace Deployment

variable {ι κ ρ : Type}

theorem new_consistent (configs : ι → TransportSecurityConfig)
    (dataConfigs : κ → DataProtectionConfig) (r : ρ) (i : ι) :
    ((new configs dataConfigs r).transports i).Consistent :=
  TransportSecurity.new_consistent (configs i)

variable [DecidableEq ι] [DecidableEq κ]

theorem step_consistent (w : Deployment ι κ ρ) (a : Action ι κ ρ)
    (h : ∀ i,(w.transports i).Consistent) (i : ι) :
    ((step w a).1.transports i).Consistent := by
  rw [step_on w a i]
  cases a.on i with
  | none => exact h i
  | some op => exact TransportSecurity.step_consistent (w.transports i,w.random) op (h i)

theorem run_consistent (w : Deployment ι κ ρ) (as : List (Action ι κ ρ))
    (h : ∀ i,(w.transports i).Consistent) :
    ∀ i,(((machine ι κ ρ).after w as).transports i).Consistent :=
  (machine ι κ ρ).invariant_state (I := fun u => ∀ i,(u.transports i).Consistent) as h
    (fun u a _ hu => step_consistent u a hu)

end Deployment
end ESPressioSecurity
