import ESPressioSecurity.Model.TestDoubles
import ESPressioSecurity.Transport.Operations

namespace ESPressioSecurity

open Framework

namespace TransportSecurity

variable {ρ : Type}

/-- The payload limit as one call of `Protect` keeps it. -/
structure BoundsOutbound (s : TransportSecurity) (plaintext : Span) (o : ProtectOutcome ρ) :
    Prop where
  accepted : o.result.success=true → plaintext.size ≤ s.config.maximumPlaintextBytes
  refused : s.config.maximumPlaintextBytes<plaintext.size →
    o.result=.fail .invalidArgument "Invalid or oversized plaintext payload" ∧ o.output=[]

/-- The payload limit as one call of `Unprotect` should keep it. -/
structure BoundsInbound (s : TransportSecurity) (input : Span) (o : UnprotectOutcome) : Prop where
  delivered : o.result.success=true → o.payload.data.length ≤ s.config.maximumPlaintextBytes
  stated : ∀ h,readHeader input.content=some h → h.magic=envelopeMagic →
    h.version=envelopeVersion → s.config.maximumPlaintextBytes<h.ciphertextLength.toNat →
    o.result=.fail .bufferLimitExceeded "Protected payload exceeds configured limit"
  nothing : o.result.success=false → o.payload={}

/-- A call is within the limit unless it hands in a larger payload as plaintext that the policy lets
through. -/
def WithinLimit (s : TransportSecurity) : Operation ρ → Prop
  | .unprotect _ _ input => s.config.policy=.required ∨ looksProtected input=true ∨
      input.content.length ≤ s.config.maximumPlaintextBytes
  | _ => True

def KeepsLimit (x : TransportSecurity×ρ) : Operation ρ → Prop
  | .protect host protocol plaintext =>
    BoundsOutbound x.1 plaintext (protect host x.1 x.2 protocol plaintext)
  | .unprotect host expectedProtocol input =>
    BoundsInbound x.1 input (unprotect host x.1 expectedProtocol input)
  | _ => True

theorem protect_bounded (host : Host ρ) (s : TransportSecurity) (r : ρ) (protocol : UInt8)
    (plaintext : Span) : BoundsOutbound s plaintext (protect host s r protocol plaintext) := by
  constructor
  · intro h
    obtain ⟨passes,_⟩|⟨cipher,key,e,ready,_⟩ := protect_success h
    · exact passes.bounded
    · exact ready.bounded
  · intro large
    have he : protect host s r protocol plaintext=refuse s r [] .invalidArgument
        "Invalid or oversized plaintext payload" := if_pos (Or.inr large)
    rw [he]
    exact ⟨rfl,rfl⟩

/-- What is opened is no longer than the header states. -/
theorem opening_bounded {host : Host ρ} {s : TransportSecurity} {input : Bytes} {h : Header}
    {cipher : IAeadCipher} {key : KeyMaterialView} (admitted : Admitted host s input h cipher key) :
    (opening input h cipher key).plaintext.val.length ≤ s.config.maximumPlaintextBytes := by
  have length := (opening input h cipher key).plaintext.property
  have sliced : (slice input (44+h.nonceLength.toNat) h.ciphertextLength.toNat).length ≤
      h.ciphertextLength.toNat := List.length_take_le _ _
  rw [length]
  exact sliced.trans admitted.bounded

theorem unprotect_stated {host : Host ρ} {s : TransportSecurity} {input : Span} {h : Header}
    (read : readHeader input.content=some h) (magic : h.magic=envelopeMagic)
    (version : h.version=envelopeVersion)
    (large : s.config.maximumPlaintextBytes<h.ciphertextLength.toNat) (expectedProtocol : UInt8) :
    unprotect host s expectedProtocol input=reject s [] .bufferLimitExceeded
      "Protected payload exceeds configured limit" := by
  have looks := looksProtected_of_read read magic
  have hl := ((readHeader_iff _ _).mp read).1
  have valid : input.invalid=false := by
    cases input with
    | null n => exact absurd hl (by simp [Span.content])
    | bytes b => rfl
  have hs : ¬input.size<fixedHeaderSize := by
    rw [input.size_eq valid]
    exact Nat.not_lt.mpr hl
  have hm : ¬(h.magic≠envelopeMagic ∨ h.version≠envelopeVersion) := by
    simp [magic,version]
  unfold unprotect
  rw [if_neg (by simp [valid]),if_neg (by simp [looks]),if_neg hs,read]
  dsimp only
  rw [if_neg hm,if_pos large]

theorem unprotect_bounded_iff (host : Host ρ) (s : TransportSecurity) (expectedProtocol : UInt8)
    (input : Span) :
    BoundsInbound s input (unprotect host s expectedProtocol input) ↔
      WithinLimit s (.unprotect host expectedProtocol input) := by
  constructor
  · intro bounds
    by_contra hn
    simp only [WithinLimit,not_or,Bool.not_eq_true,Nat.not_le] at hn
    obtain ⟨policy,plain,large⟩ := hn
    have valid : input.invalid=false := by
      cases input with
      | null n => exact absurd large (by simp [Span.content])
      | bytes b => rfl
    have passed : unprotect host s expectedProtocol input=
        passPlaintext s expectedProtocol input := by
      unfold unprotect
      rw [if_neg (by simp [valid]),if_pos plain,if_neg policy]
      rfl
    have short := bounds.delivered
    rw [passed] at short
    exact absurd (short rfl) (Nat.not_le.mpr large)
  · intro within
    refine ⟨?_,?_,fun failed => (unprotect_failure failed).1⟩
    · intro ok
      obtain ⟨_,plain,policy,he⟩|⟨h,cipher,key,admitted,_,_,he⟩ := unprotect_success ok
      · rw [he]
        obtain required|looks|short := within
        · exact absurd required policy
        · exact absurd looks (by simp [plain])
        · exact short
      · rw [he]
        exact opening_bounded admitted
    · intro h read magic version large
      rw [unprotect_stated read magic version large]
      rfl

theorem step_limit_iff (x : TransportSecurity×ρ) (op : Operation ρ) :
    KeepsLimit x op ↔ WithinLimit x.1 op := by
  cases op with
  | protect host protocol plaintext =>
    exact iff_of_true (protect_bounded host x.1 x.2 protocol plaintext) trivial
  | unprotect host expectedProtocol input =>
    exact unprotect_bounded_iff host x.1 expectedProtocol input
  | setConfig config => exact Iff.rfl
  | resetReplayProtection => exact Iff.rfl
  | registerObserver => exact Iff.rfl

/-- The limit holds at every step of a run exactly when no step of it hands in an oversized payload
as plaintext under a policy that lets plaintext through. -/
theorem payload_limit_iff (config : TransportSecurityConfig) (r : ρ) (ops : List (Operation ρ)) :
    (machine ρ).Along (fun _ => KeepsLimit) (new config,r) ops ↔
      (machine ρ).Along (fun _ x => WithinLimit x.1) (new config,r) ops := by
  constructor
  · intro kept past op future he
    exact (step_limit_iff _ op).mp (kept past op future he)
  · intro within past op future he
    exact (step_limit_iff _ op).mpr (within past op future he)

/-- Five bytes under a limit of four. -/
theorem payload_limit_passed :
    let host := testHost (TinyCipher .testOnly 2 2 2) 1 [1,2]
    let s : TransportSecurity := new {policy := .preferred,maximumPlaintextBytes := 4}
    let o := s.unprotect host 9 (.bytes [1,2,3,4,5])
    o.result.success=true ∧ s.config.maximumPlaintextBytes<o.payload.data.length := by
  decide

end TransportSecurity
end ESPressioSecurity
