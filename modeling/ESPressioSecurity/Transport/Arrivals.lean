import ESPressioSecurity.Model.ReplayHistory
import ESPressioSecurity.Model.TestDoubles
import ESPressioSecurity.Transport.Interference

namespace ESPressioSecurity

open Framework

namespace TransportSecurity

variable {ρ : Type}

/-! ### Two inputs of different domains -/

/-- Both inputs are envelopes, and their headers name one replay domain. -/
def SameDomain (host host' : Host ρ) (a b : Span) : Prop :=
  ∃ h h',IsEnvelope host a.content h ∧ IsEnvelope host' b.content h' ∧ h.domain=h'.domain

theorem SameDomain.symm {host host' : Host ρ} {a b : Span} (h : SameDomain host host' a b) :
    SameDomain host' host b a := by
  obtain ⟨header,header',ha,hb,hd⟩ := h
  exact ⟨header',header,hb,ha,hd.symm⟩

theorem committed_apart {host host' : Host ρ} {a b : Span} (apart : ¬SameDomain host host' a b)
    {s t : TransportSecurity} {protocol protocol' : UInt8} {x y : ReplayDomain×UInt64}
    (hx : committed (unprotect host s protocol a).response=some x)
    (hy : committed (unprotect host' t protocol' b).response=some y) : x.1≠y.1 := by
  obtain ⟨header,envelope,rfl⟩ := committed_header hx
  obtain ⟨header',envelope',rfl⟩ := committed_header hy
  intro same
  exact apart ⟨header,header',envelope,envelope',same⟩

/-- An input is answered as if the other one had not arrived before it. -/
theorem unprotect_undisturbed {host host' : Host ρ} {a b : Span}
    (apart : ¬SameDomain host host' a b) (s : TransportSecurity) (protocol protocol' : UInt8) :
    (unprotect host (unprotect host' s protocol' b).security protocol a).response=
      (unprotect host s protocol a).response := by
  rw [unprotect_security host']
  apply unprotect_response
  · rfl
  · rfl
  · intro h envelope
    apply ReplayWindow.wouldAccept_record_ne
    intro x hx same
    obtain ⟨h',envelope',rfl⟩ := committed_header hx
    exact apart ⟨h,h',envelope,envelope',same⟩

/-- Both inputs leave the commits that each would have made alone. -/
theorem unprotect_both {host host' : Host ρ} {a b : Span} (apart : ¬SameDomain host host' a b)
    (s : TransportSecurity) (protocol protocol' : UInt8) :
    (unprotect host' (unprotect host s protocol a).security protocol' b).security=
      s.withReplay ((s.replay.record (committed (unprotect host s protocol a).response)).record
        (committed (unprotect host' s protocol' b).response)) := by
  have second := unprotect_undisturbed (fun h => apart h.symm) s protocol' protocol
  rw [unprotect_security host',second,unprotect_security host]
  rfl

/-! ### States that answer alike -/

/-- The states differ at most in the order of the replay entries. -/
def Reordered (x y : TransportSecurity×ρ) : Prop :=
  ∃ w,x.1.replay.Alike w ∧ y=(x.1.withReplay w,x.2)

theorem reordered_step {x y : TransportSecurity×ρ} (h : Reordered x y) (op : Operation ρ) :
    Reordered (step x op).1 (step y op).1 ∧ (step x op).2=(step y op).2 := by
  obtain ⟨s,r⟩ := x
  obtain ⟨w,alike,rfl⟩ := h
  cases op with
  | protect host protocol plaintext =>
    obtain ⟨a,b,c,he⟩ := protect_keeps host s r protocol plaintext
    have hp := protect_replay host s w r protocol plaintext
    simp only [step,hp]
    refine ⟨⟨w,?_,rfl⟩,rfl⟩
    rw [he]
    exact alike
  | unprotect host expectedProtocol input =>
    have same : (unprotect host (s.withReplay w) expectedProtocol input).response=
        (unprotect host s expectedProtocol input).response := by
      apply unprotect_response
      · rfl
      · rfl
      · intro h _
        exact alike.wouldAccept h.domain h.sequence
    refine ⟨?_,same.symm⟩
    simp only [step,unprotect_security,same]
    exact ⟨_,alike.record _,rfl⟩
  | setConfig config => exact ⟨⟨_,ReplayWindow.Alike.refl _,rfl⟩,rfl⟩
  | resetReplayProtection => exact ⟨⟨_,alike.reset,rfl⟩,rfl⟩
  | registerObserver => exact ⟨⟨w,alike,rfl⟩,rfl⟩

theorem Reordered.equivalent {x y : TransportSecurity×ρ} (h : Reordered x y) :
    (machine ρ).Equivalent x y := by
  apply (machine ρ).equivalent_of_related Reordered
  · intro x y op related
    exact reordered_step related op
  · exact h

theorem arrivals_reordered {host host' : Host ρ} {a b : Span} (apart : ¬SameDomain host host' a b)
    (x : TransportSecurity×ρ) (protocol protocol' : UInt8) :
    Reordered ((machine ρ).after x [.unprotect host protocol a,.unprotect host' protocol' b])
      ((machine ρ).after x [.unprotect host' protocol' b,.unprotect host protocol a]) := by
  have forth := unprotect_both apart x.1 protocol protocol'
  have back := unprotect_both (fun h => apart h.symm) x.1 protocol' protocol
  simp only [Machine.after,machine,step,forth,back]
  refine ⟨_,?_,rfl⟩
  apply ReplayWindow.record_comm
  intro u v hu hv
  exact committed_apart apart hu hv

/-- Two inputs that are not envelopes of one replay domain are answered alike in either order, and
no later call tells the two orders apart. -/
theorem arrival_order (x : TransportSecurity×ρ) (host host' : Host ρ) (protocol protocol' : UInt8)
    (a b : Span) (apart : ¬SameDomain host host' a b) :
    let A : Operation ρ := .unprotect host protocol a
    let B : Operation ρ := .unprotect host' protocol' b
    (step (step x B).1 A).2=(step x A).2 ∧
    (step (step x A).1 B).2=(step x B).2 ∧
    ∀ later,(machine ρ).trace ((machine ρ).after x [A,B]) later=
      (machine ρ).trace ((machine ρ).after x [B,A]) later := by
  intro A B
  refine ⟨?_,?_,?_⟩
  · exact unprotect_undisturbed apart x.1 protocol protocol'
  · exact unprotect_undisturbed (fun h => apart h.symm) x.1 protocol' protocol
  · exact (arrivals_reordered apart x protocol protocol').equivalent

/-- Of two senders both envelopes are accepted, and the replay entries stand in the order of arrival. -/
theorem arrival_order_two_senders :
    let host := testHost (TinyCipher .testOnly 2 2 2) 1 [1,2]
    let sender := fun id : UInt64 =>
      new {outboundAlgorithm := .testOnly,senderID := id,sessionID := 5}
    let A : Operation UInt8 := .unprotect host 3 (.bytes (protect host (sender 1) 1 3 (.bytes [9])).output)
    let B : Operation UInt8 := .unprotect host 3 (.bytes (protect host (sender 2) 1 3 (.bytes [9])).output)
    let x : TransportSecurity×UInt8 := (new {},0)
    ((committed (step x A).2).isSome=true ∧ (committed (step x B).2).isSome=true ∧
      ((machine UInt8).after x [A,B]).1.replay.states≠
        ((machine UInt8).after x [B,A]).1.replay.states) ∧
    (step (step x B).1 A).2=(step x A).2 ∧
    (step (step x A).1 B).2=(step x B).2 ∧
    ∀ later,(machine UInt8).trace ((machine UInt8).after x [A,B]) later=
      (machine UInt8).trace ((machine UInt8).after x [B,A]) later := by
  intro host sender A B x
  refine ⟨by decide,?_⟩
  apply arrival_order x host host 3 3
  rintro ⟨h,h',⟨_,_,form⟩,⟨_,_,form'⟩,same⟩
  have differ : (readHeader (protect host (sender 1) 1 3 (.bytes [9])).output).map Header.domain≠
      (readHeader (protect host (sender 2) 1 3 (.bytes [9])).output).map Header.domain := by decide
  have read := form.read
  have read' := form'.read
  simp only [Span.content] at read read'
  rw [read,read'] at differ
  exact differ (congrArg some same)

end TransportSecurity
end ESPressioSecurity
