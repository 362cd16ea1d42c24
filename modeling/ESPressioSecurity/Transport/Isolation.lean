import ESPressioSecurity.Transport.Arrivals

namespace ESPressioSecurity

open Framework

namespace ReplayWindow

/-- The same window for the domains in `S`. -/
structure AlikeOn (S : Set ReplayDomain) (v w : ReplayWindow) : Prop where
  size : w.windowSize=v.windowSize
  entries : ∀d∈S,w.find d=v.find d

theorem AlikeOn.refl (S : Set ReplayDomain) (w : ReplayWindow) : AlikeOn S w w :=
  ⟨rfl,fun _ _ => rfl⟩

theorem AlikeOn.symm {S : Set ReplayDomain} {v w : ReplayWindow} (h : AlikeOn S v w) :
    AlikeOn S w v :=
  ⟨h.size.symm,fun d hd => (h.entries d hd).symm⟩

theorem AlikeOn.wouldAccept {S : Set ReplayDomain} {v w : ReplayWindow} (h : AlikeOn S v w)
    {d : ReplayDomain} (hd : d∈S) (q : UInt64) : w.wouldAccept d q=v.wouldAccept d q := by
  unfold ReplayWindow.wouldAccept
  rw [h.size,h.entries d hd]

theorem AlikeOn.record {S : Set ReplayDomain} {v w : ReplayWindow} (h : AlikeOn S v w)
    (c : Option (ReplayDomain×UInt64)) : AlikeOn S (v.record c) (w.record c) := by
  cases c with
  | none => exact h
  | some x =>
    refine ⟨by simp [h.size],?_⟩
    intro e he
    simp only [ReplayWindow.record,find_commit]
    split_ifs with same
    · subst same
      rw [h.entries x.1 he]
    · exact h.entries e he

theorem AlikeOn.reset {S : Set ReplayDomain} {v w : ReplayWindow} (h : AlikeOn S v w) :
    AlikeOn S v.reset w.reset :=
  ⟨h.size,fun _ _ => rfl⟩

/-- A commit to a domain outside `S` is not seen from `S`. -/
theorem AlikeOn.foreign {S : Set ReplayDomain} {v w : ReplayWindow} (h : AlikeOn S v w)
    {c : Option (ReplayDomain×UInt64)} (outside : ∀ x,c=some x → x.1∉S) :
    AlikeOn S (v.record c) w := by
  cases c with
  | none => exact h
  | some x =>
    refine ⟨by simp [h.size],?_⟩
    intro e he
    have apart : e≠x.1 := fun same => outside x rfl (same ▸ he)
    simp only [ReplayWindow.record,find_commit,if_neg apart]
    exact h.entries e he

end ReplayWindow

namespace TransportSecurity

variable {ρ : Type}

/-- An arriving message that is no envelope of a domain in `S`: one of another domain, a malformed one
or plaintext. -/
def Foreign (S : Set ReplayDomain) (op : Operation ρ) : Prop :=
  ∃ host expectedProtocol input,op=.unprotect host expectedProtocol input ∧
    ∀ h,IsEnvelope host input.content h → h.domain∉S

/-- Any call but the arrival of an envelope of a domain outside `S`. -/
def Domestic (S : Set ReplayDomain) (op : Operation ρ) : Prop :=
  ∀ host expectedProtocol input,op=.unprotect host expectedProtocol input →
    ∀ h,IsEnvelope host input.content h → h.domain∈S

/-- The states differ at most in what the replay window has of domains outside `S`. -/
def SameWithin (S : Set ReplayDomain) (x y : TransportSecurity×ρ) : Prop :=
  ∃ w,x.1.replay.AlikeOn S w ∧ y=(x.1.withReplay w,x.2)

theorem domestic_step {S : Set ReplayDomain} {x y : TransportSecurity×ρ} (h : SameWithin S x y)
    {op : Operation ρ} (domestic : Domestic S op) :
    SameWithin S (step x op).1 (step y op).1 ∧ (step x op).2=(step y op).2 := by
  obtain ⟨s,r⟩ := x
  obtain ⟨w,alike,rfl⟩ := h
  cases op with
  | protect host protocol plaintext =>
    obtain ⟨a,b,c,he⟩ := protect_keeps host s r protocol plaintext
    have hp := protect_replay host s w r protocol plaintext
    simp only [step,hp]
    refine ⟨⟨w,?_,rfl⟩,rfl⟩
    rw [he]
    exact alike
  | unprotect host expectedProtocol input =>
    have same : (unprotect host (s.withReplay w) expectedProtocol input).response=
        (unprotect host s expectedProtocol input).response := by
      apply unprotect_response
      · rfl
      · rfl
      · intro header envelope
        exact alike.wouldAccept (domestic host expectedProtocol input rfl header envelope) _
    refine ⟨?_,same.symm⟩
    simp only [step,unprotect_security,same]
    exact ⟨_,alike.record _,rfl⟩
  | setConfig config => exact ⟨⟨_,ReplayWindow.AlikeOn.refl S _,rfl⟩,rfl⟩
  | resetReplayProtection => exact ⟨⟨_,alike.reset,rfl⟩,rfl⟩
  | registerObserver => exact ⟨⟨w,alike,rfl⟩,rfl⟩

theorem foreign_step {S : Set ReplayDomain} {x y : TransportSecurity×ρ} (h : SameWithin S x y)
    {op : Operation ρ} (foreign : Foreign S op) : SameWithin S (step x op).1 y := by
  obtain ⟨s,r⟩ := x
  obtain ⟨w,alike,rfl⟩ := h
  obtain ⟨host,expectedProtocol,input,rfl,outside⟩ := foreign
  simp only [step,unprotect_security]
  refine ⟨w,alike.foreign ?_,rfl⟩
  intro c hc
  obtain ⟨header,envelope,rfl⟩ := committed_header hc
  exact outside header envelope

theorem SameWithin.symm {S : Set ReplayDomain} {x y : TransportSecurity×ρ} (h : SameWithin S x y) :
    SameWithin S y x := by
  obtain ⟨w,alike,rfl⟩ := h
  exact ⟨x.1.replay,alike.symm,rfl⟩

/-- A call that is not domestic is the arrival of a foreign envelope. -/
theorem foreign_of_not_domestic {S : Set ReplayDomain} {op : Operation ρ} (h : ¬Domestic S op) :
    Foreign S op := by
  simp only [Domestic,not_forall] at h
  obtain ⟨host,expectedProtocol,input,rfl,header,⟨_,_,form⟩,outside⟩ := h
  refine ⟨host,expectedProtocol,input,rfl,?_⟩
  rintro header' ⟨_,_,form'⟩
  have same := form.read.symm.trans form'.read
  rw [← Option.some.inj same]
  exact outside

open Classical in
/-- What the calls that concern the domains in `S` are answered. -/
noncomputable def viewFrom (S : Set ReplayDomain) (op : Operation ρ) (response : Response) :
    Option Response :=
  if Domestic S op then some response else none

/-- What arrives from elsewhere, authentic or forged, changes no answer to the calls that concern the
domains in `S`: drop any of it, and these calls are answered as before. -/
theorem domains_isolated (S : Set ReplayDomain) (x : TransportSecurity×ρ)
    (marked : List (Operation ρ×Bool)) (dropped : ∀ op,(op,false)∈marked → Foreign S op) :
    (machine ρ).keptViews (viewFrom S) x marked=
      ((machine ρ).trace x (Machine.kept marked)).map (fun z => viewFrom S z.1 z.2) := by
  apply (machine ρ).unwinding (SameWithin S) (viewFrom S) marked x x
    ⟨x.1.replay,ReplayWindow.AlikeOn.refl S _,rfl⟩
  · intro u v op _ related
    by_cases domestic : Domestic S op
    · obtain ⟨next,same⟩ := domestic_step related domestic
      exact ⟨next,congrArg (viewFrom S op) same⟩
    · have foreign := foreign_of_not_domestic domestic
      have here := (foreign_step related foreign).symm
      refine ⟨(foreign_step here foreign).symm,?_⟩
      rw [viewFrom,viewFrom,if_neg domestic,if_neg domestic]
  · intro n op v hop related
    exact foreign_step related (dropped op (List.mem_of_getElem? hop))

/-- Around two arrivals from one sender envelopes of another are accepted. One is dropped and one stays,
and the two are answered as before. -/
theorem domains_isolated_between :
    let host := testHost (TinyCipher .testOnly 2 2 2) 1 [1,2]
    let sender := fun id : UInt64 =>
      new {outboundAlgorithm := .testOnly,senderID := id,sessionID := 5}
    let first := protect host (sender 1) 1 3 (.bytes [9])
    let second := protect host first.security 1 3 (.bytes [8])
    let other := protect host (sender 2) 1 3 (.bytes [7])
    let another := protect host other.security 1 3 (.bytes [6])
    let arrival := fun b : Bytes => (Operation.unprotect host 3 (.bytes b) : Operation UInt8)
    let marked := [(arrival second.output,true),(arrival other.output,false),
      (arrival another.output,true),(arrival first.output,true)]
    let x : TransportSecurity×UInt8 := (new {},0)
    ((machine UInt8).trace x (marked.map (·.1))).map (fun z => (committed z.2).isSome)=
      [true,true,true,true] ∧
    (machine UInt8).keptViews (viewFrom {d | d.senderID=1}) x marked=
      ((machine UInt8).trace x (Machine.kept marked)).map
        (fun z => viewFrom {d | d.senderID=1} z.1 z.2) := by
  intro host sender first second other another arrival marked x
  refine ⟨by decide +kernel,?_⟩
  have id : (readHeader other.output).map Header.senderID=some 2 := by decide +kernel
  apply domains_isolated {d | d.senderID=1} x marked
  intro op hop
  simp only [marked,List.mem_cons,Prod.mk.injEq,List.not_mem_nil,or_false] at hop
  obtain ⟨_,hf⟩|⟨rfl,_⟩|⟨_,hf⟩|⟨_,hf⟩ := hop
  · exact absurd hf (by decide)
  · refine ⟨host,3,_,rfl,?_⟩
    rintro h ⟨_,_,form⟩ inside
    have read : readHeader other.output=some h := form.read
    rw [read] at id
    rw [Set.mem_ofPred_eq,show h.domain.senderID=2 from Option.some.inj id] at inside
    exact absurd inside (by decide)
  · exact absurd hf (by decide)
  · exact absurd hf (by decide)

end TransportSecurity
end ESPressioSecurity
