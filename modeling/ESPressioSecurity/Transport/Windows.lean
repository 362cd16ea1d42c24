import ESPressioSecurity.Transport.Interference
import ESPressioSecurity.Transport.RoundTrip

namespace ESPressioSecurity

open Framework

namespace TransportSecurity

variable {ρ : Type}

/-- The part of a history after the calls that empty the replay window. -/
def sinceReset (past : List (Operation ρ×Response)) : List (Operation ρ×Response) :=
  past.foldl (fun since y => if y.1.isControl then [] else since++[y]) []

/-- The payload that a call handed to its caller. -/
def arrived : Response → Option UnprotectedPayload
  | .inbound result payload _ => if result.success then some payload else none
  | _ => none

theorem sinceReset_snoc (past : List (Operation ρ×Response)) (y : Operation ρ×Response) :
    sinceReset (past++[y])=if y.1.isControl then [] else sinceReset past++[y] := by
  rw [sinceReset,List.foldl_append]
  rfl

theorem acceptedIn_nil (d : ReplayDomain) : acceptedIn (ρ := ρ) d []=∅ := by
  ext q
  simp [acceptedIn]

/-- The replay window stands for what was accepted since it was last emptied. -/
theorem step_sinceReset {past : List (Operation ρ×Response)} {y : TransportSecurity×ρ} (op : Operation ρ)
    {d : ReplayDomain} (h : y.1.replay.Committed d (acceptedIn d (sinceReset past))) :
    (step y op).1.1.replay.Committed d
      (acceptedIn d (sinceReset (past++[(op,(step y op).2)]))) := by
  rw [sinceReset_snoc]
  cases other : op.isControl with
  | false => exact acceptedIn_step d other h
  | true =>
    rw [if_pos rfl,acceptedIn_nil]
    cases op with
    | setConfig config => rfl
    | resetReplayProtection => rfl
    | protect host protocol plaintext => exact absurd other (by simp [Operation.isControl])
    | unprotect host expectedProtocol input => exact absurd other (by simp [Operation.isControl])
    | registerObserver => exact absurd other (by simp [Operation.isControl])

/-- Where a window takes all that another one takes, `Unprotect` answers alike or the other window
refused the envelope. -/
theorem unprotect_wider (host : Host ρ) (s : TransportSecurity) (n : Nat) {w : ReplayWindow}
    (keeps : ∀ d q,s.replay.wouldAccept d q=true → w.wouldAccept d q=true)
    (expectedProtocol : UInt8) (input : Span) :
    (unprotect host (s.withWindow n w) expectedProtocol input).response=
      (unprotect host s expectedProtocol input).response ∨
    ∃ h,IsEnvelope host input.content h ∧ s.replay.wouldAccept h.domain h.sequence=false ∧
      w.wouldAccept h.domain h.sequence=true ∧
      unprotect host s expectedProtocol input=
        reject s [] .replayDetected "Replay or stale protected transport payload rejected" := by
  by_cases same : input.invalid=false → ∀ h,IsEnvelope host input.content h →
      h.ciphertextLength.toNat ≤ s.config.maximumPlaintextBytes →
      w.wouldAccept h.domain h.sequence=s.replay.wouldAccept h.domain h.sequence
  · exact Or.inl (unprotect_reads host expectedProtocol input rfl rfl rfl same)
  · push Not at same
    obtain ⟨valid,h,envelope,bounded,differ⟩ := same
    have refused : s.replay.wouldAccept h.domain h.sequence=false := by
      rw [← Bool.not_eq_true]
      intro taken
      exact differ ((keeps _ _ taken).trans taken.symm)
    rw [refused,Bool.ne_false_iff] at differ
    obtain ⟨cipher,found,form⟩ := envelope
    refine Or.inr ⟨h,⟨cipher,found,form⟩,refused,differ,?_⟩
    rw [unprotect_wellFormed valid form found bounded,unprotectKnown,if_pos refused]

/-- Two runs of the same calls that differ in the size of the replay window. -/
structure Wider (past past' : List (Operation ρ×Response)) (x y : TransportSecurity×ρ) : Prop where
  same : ∃ n,y.1=x.1.withWindow n y.1.replay
  random : y.2=x.2
  size : x.1.replay.windowSize≤y.1.replay.windowSize
  narrow : ∀ d,x.1.replay.Committed d (acceptedIn d (sinceReset past))
  wide : ∀ d,y.1.replay.Committed d (acceptedIn d (sinceReset past'))
  outgrown : ∀ d,SlidingWindow.Outgrown x.1.replay.windowSize (acceptedIn d (sinceReset past))
    (acceptedIn d (sinceReset past'))
  arrivals : (past.filterMap (fun z => arrived z.2)).Sublist (past'.filterMap (fun z => arrived z.2))

theorem Wider.keeps {past past' : List (Operation ρ×Response)} {x y : TransportSecurity×ρ}
    (h : Wider past past' x y) (d : ReplayDomain) (q : UInt64)
    (taken : x.1.replay.wouldAccept d q=true) : y.1.replay.wouldAccept d q=true := by
  obtain ⟨session,sequence,admitted⟩ := (ReplayWindow.wouldAccept_iff _ d q _ (h.narrow d)).mp taken
  refine (ReplayWindow.wouldAccept_iff _ d q _ (h.wide d)).mpr ⟨session,sequence,?_⟩
  exact (h.outgrown d).admits h.size admitted

/-- The narrower window refuses an envelope that the wider one takes: one that is new to both, and
lies at least the narrower width below a sequence accepted since that window was last emptied. -/
def Late (past past' : List (Operation ρ×Response)) (s : TransportSecurity) (op : Operation ρ) :
    Prop :=
  ∃ host expectedProtocol input h,op=.unprotect host expectedProtocol input ∧
    IsEnvelope host input.content h ∧
    unprotect host s expectedProtocol input=
      reject s [] .replayDetected "Replay or stale protected transport payload rejected" ∧
    h.sequence.toNat∉acceptedIn h.domain (sinceReset past') ∧
    ∃q∈acceptedIn h.domain (sinceReset past),h.sequence.toNat+s.replay.windowSize≤q

theorem Wider.late {past past' : List (Operation ρ×Response)} {x y : TransportSecurity×ρ}
    (h : Wider past past' x y) {d : ReplayDomain} {q : UInt64} (session : d.sessionID≠0)
    (sequence : q≠0) (refused : x.1.replay.wouldAccept d q=false)
    (taken : y.1.replay.wouldAccept d q=true) :
    ¬SlidingWindow.Admits x.1.replay.windowSize (acceptedIn d (sinceReset past)) q.toNat ∧
    q.toNat∉acceptedIn d (sinceReset past') ∧
    ∃c∈acceptedIn d (sinceReset past),q.toNat+x.1.replay.windowSize≤c := by
  have outside : ¬SlidingWindow.Admits x.1.replay.windowSize (acceptedIn d (sinceReset past))
      q.toNat := by
    intro admitted
    rw [(ReplayWindow.wouldAccept_iff _ d q _ (h.narrow d)).mpr ⟨session,sequence,admitted⟩] at refused
    exact absurd refused (by decide)
  obtain ⟨_,_,fresh,_⟩ := (ReplayWindow.wouldAccept_iff _ d q _ (h.wide d)).mp taken
  refine ⟨outside,fresh,?_⟩
  exact (SlidingWindow.not_admits (fun seen => fresh ((h.outgrown d).subset seen))).mp outside

/-- A call that leaves the replay windows alone or commits to them what its responses say. -/
theorem Wider.snoc {past past' : List (Operation ρ×Response)} {x y : TransportSecurity×ρ}
    (h : Wider past past' x y) {op : Operation ρ} (other : op.isControl=false)
    (same : ∃ n,(step y op).1.1=(step x op).1.1.withWindow n (step y op).1.1.replay)
    (random : (step y op).1.2=(step x op).1.2)
    (outgrown : ∀ d,SlidingWindow.Outgrown x.1.replay.windowSize
      (acceptedIn d (sinceReset past++[(op,(step x op).2)]))
      (acceptedIn d (sinceReset past'++[(op,(step y op).2)])))
    (arrivals : arrived (step x op).2=none ∨ arrived (step x op).2=arrived (step y op).2) :
    Wider (past++[(op,(step x op).2)]) (past'++[(op,(step y op).2)]) (step x op).1 (step y op).1 := by
  have size : (step x op).1.1.replay.windowSize=x.1.replay.windowSize := by
    rw [(step_replay x op other).2,ReplayWindow.record_windowSize]
  have size' : (step y op).1.1.replay.windowSize=y.1.replay.windowSize := by
    rw [(step_replay y op other).2,ReplayWindow.record_windowSize]
  have since : sinceReset (past++[(op,(step x op).2)])=sinceReset past++[(op,(step x op).2)] := by
    simp [sinceReset_snoc,other]
  have since' : sinceReset (past'++[(op,(step y op).2)])=sinceReset past'++[(op,(step y op).2)] := by
    simp [sinceReset_snoc,other]
  refine ⟨same,random,?_,fun d => step_sinceReset op (h.narrow d),fun d => step_sinceReset op (h.wide d),
    ?_,?_⟩
  · rw [size,size']
    exact h.size
  · intro d
    rw [size,since,since']
    exact outgrown d
  · rw [List.filterMap_append,List.filterMap_append]
    refine h.arrivals.append ?_
    rcases arrivals with ha|ha
    · simp only [List.filterMap_cons,ha]
      exact List.nil_sublist _
    · simp only [List.filterMap_cons,ha]
      exact List.Sublist.refl _

/-- Both calls answer alike. -/
theorem Wider.alike {past past' : List (Operation ρ×Response)} {x y : TransportSecurity×ρ}
    (h : Wider past past' x y) {op : Operation ρ} (other : op.isControl=false)
    (same : ∃ n,(step y op).1.1=(step x op).1.1.withWindow n (step y op).1.1.replay)
    (random : (step y op).1.2=(step x op).1.2)
    (response : (step y op).2=(step x op).2) :
    Wider (past++[(op,(step x op).2)]) (past'++[(op,(step y op).2)]) (step x op).1 (step y op).1 := by
  apply h.snoc other same random
  · intro d
    rw [response,acceptedIn_append,acceptedIn_append]
    exact (h.outgrown d).both _
  · exact Or.inr (congrArg arrived response.symm)

/-- Both calls empty the window. -/
theorem Wider.emptied {past past' : List (Operation ρ×Response)} {x y : TransportSecurity×ρ}
    (h : Wider past past' x y) {op : Operation ρ} (control : op.isControl=true)
    (same : ∃ n,(step y op).1.1=(step x op).1.1.withWindow n (step y op).1.1.replay)
    (random : (step y op).1.2=(step x op).1.2)
    (size : (step x op).1.1.replay.windowSize≤(step y op).1.1.replay.windowSize) :
    Wider (past++[(op,(step x op).2)]) (past'++[(op,(step y op).2)]) (step x op).1 (step y op).1 := by
  have silent : ∀ z : TransportSecurity×ρ,arrived (step z op).2=none := by
    intro z
    cases op with
    | setConfig config => rfl
    | resetReplayProtection => rfl
    | protect host protocol plaintext => rfl
    | registerObserver => rfl
    | unprotect host expectedProtocol input => exact absurd control (by simp [Operation.isControl])
  refine ⟨same,random,size,fun d => step_sinceReset op (h.narrow d),
    fun d => step_sinceReset op (h.wide d),?_,?_⟩
  · intro d
    rw [sinceReset_snoc,sinceReset_snoc,if_pos control,if_pos control]
    apply SlidingWindow.outgrown_self
  · rw [List.filterMap_append,List.filterMap_append]
    refine h.arrivals.append ?_
    simp only [List.filterMap_cons,silent]
    exact List.Sublist.refl _

theorem wider_unprotect {past past' : List (Operation ρ×Response)} {x y : TransportSecurity×ρ}
    (h : Wider past past' x y) (host : Host ρ) (expectedProtocol : UInt8) (input : Span) :
    let op : Operation ρ := .unprotect host expectedProtocol input
    Wider (past++[(op,(step x op).2)]) (past'++[(op,(step y op).2)]) (step x op).1 (step y op).1 ∧
    ((step x op).2=(step y op).2 ∨ Late past past' x.1 op) := by
  intro op
  obtain ⟨n,state⟩ := h.same
  have kept : ∃ n,(step y op).1.1=(step x op).1.1.withWindow n (step y op).1.1.replay := by
    obtain ⟨v,hv⟩ := unprotect_keeps host x.1 expectedProtocol input
    obtain ⟨u,hu⟩ := unprotect_keeps host y.1 expectedProtocol input
    refine ⟨n,?_⟩
    simp only [op,step,hv,hu]
    rw [state]
    rfl
  obtain alike|⟨header,envelope,refused,taken,rejected⟩ :=
    unprotect_wider host x.1 n h.keeps expectedProtocol input
  · rw [← state] at alike
    have response : (step y op).2=(step x op).2 := alike
    exact ⟨h.alike rfl kept h.random response,Or.inl response.symm⟩
  · obtain ⟨cipher,found,form⟩ := envelope
    obtain ⟨outside,fresh,late⟩ := h.late form.session form.sequence refused taken
    have response : (step x op).2=
        (reject x.1 [] .replayDetected
          "Replay or stale protected transport payload rejected").response :=
      congrArg UnprotectOutcome.response rejected
    refine ⟨h.snoc rfl kept h.random ?_ (Or.inl ?_),
      Or.inr ⟨host,expectedProtocol,input,header,rfl,⟨cipher,found,form⟩,rejected,fresh,late⟩⟩
    · intro d
      have nothing : acceptedIn d (sinceReset past++[(op,(step x op).2)])=
          acceptedIn d (sinceReset past) := by
        rw [acceptedIn_append,response]
        ext q
        simp [committed,reject,UnprotectOutcome.response]
      rw [nothing,acceptedIn_append]
      apply (h.outgrown d).more
      -- the wider window can only have committed the sequence in the header of the input
      rintro q ⟨c,hc,rfl⟩
      obtain ⟨other,⟨_,_,form'⟩,pair⟩ := committed_header hc
      obtain rfl : header=other := Option.some.inj (form.read.symm.trans form'.read)
      obtain ⟨rfl,rfl⟩ := Prod.mk.inj pair
      exact outside
    · rw [response]
      rfl

/-- One call in both runs. -/
theorem wider_step {past past' : List (Operation ρ×Response)} {x y : TransportSecurity×ρ}
    (h : Wider past past' x y) (op : Operation ρ) :
    Wider (past++[(op,(step x op).2)]) (past'++[(op,(step y op).2)]) (step x op).1 (step y op).1 ∧
    (op.isSetConfig=false → (step x op).2=(step y op).2 ∨ Late past past' x.1 op) := by
  obtain ⟨n,state⟩ := h.same
  cases op with
  | protect host protocol plaintext =>
    have hp := protect_window host x.1 n y.1.replay x.2 protocol plaintext
    rw [← state] at hp
    have response : (step y (.protect host protocol plaintext)).2=
        (step x (.protect host protocol plaintext)).2 := by
      simp only [step,h.random,hp]
      rfl
    refine ⟨h.alike rfl ⟨n,?_⟩ ?_ response,fun _ => Or.inl response.symm⟩
    · simp only [step,h.random,hp]
      rfl
    · simp only [step,h.random,hp]
      rfl
  | unprotect host expectedProtocol input =>
    obtain ⟨next,answer⟩ := wider_unprotect h host expectedProtocol input
    exact ⟨next,fun _ => answer⟩
  | registerObserver =>
    refine ⟨h.alike rfl ⟨n,?_⟩ h.random rfl,fun _ => Or.inl rfl⟩
    simp only [step]
    rw [state]
    rfl
  | setConfig config =>
    refine ⟨h.emptied rfl ⟨config.replayWindowSize,?_⟩ h.random (le_refl _),?_⟩
    · simp only [step]
      rw [state]
      rfl
    · intro other
      exact absurd other (by simp [Operation.isSetConfig])
  | resetReplayProtection =>
    refine ⟨h.emptied rfl ⟨n,?_⟩ h.random h.size,fun _ => Or.inl ?_⟩
    · simp only [step]
      rw [state]
      rfl
    · simp only [step]
      rw [state]
      rfl

theorem wider_new (config : TransportSecurityConfig) (r : ρ) {n m : Nat} (wider : n ≤ m) :
    Wider ([] : List (Operation ρ×Response)) [] (new {config with replayWindowSize := n},r)
      (new {config with replayWindowSize := m},r) := by
  have empty : ∀ d,acceptedIn d (sinceReset ([] : List (Operation ρ×Response)))=∅ := acceptedIn_nil
  have windowSize : ∀ k,(new {config with replayWindowSize := k}).replay=ReplayWindow.new k := by
    intro k
    unfold new
    dsimp only
    split_ifs <;> rfl
  refine ⟨⟨m,?_⟩,rfl,?_,?_,?_,?_,List.Sublist.refl _⟩
  · unfold new
    dsimp only
    split_ifs <;> rfl
  · rw [windowSize,windowSize]
    exact ReplayWindow.clamp_mono wider
  · intro d
    rw [windowSize,empty]
    exact ReplayWindow.committed_new n d
  · intro d
    rw [windowSize,empty]
    exact ReplayWindow.committed_new m d
  · intro d
    apply SlidingWindow.outgrown_self

/-- A larger `ReplayWindowSize` loses nothing: of the same calls every answer is the same but where the
narrower window is too narrow for a new envelope, and all that arrived still arrives, in order. -/
theorem wider_window (config : TransportSecurityConfig) (r : ρ) {n m : Nat} (wider : n ≤ m) :
    let narrow := {config with replayWindowSize := n}
    let wide := {config with replayWindowSize := m}
    (∀ past op,op.isSetConfig=false →
      (step (reached narrow r past) op).2=(step (reached wide r past) op).2 ∨
      Late (history narrow r past) (history wide r past) (reached narrow r past).1 op) ∧
    ∀ ops,((history narrow r ops).filterMap (fun z => arrived z.2)).Sublist
      ((history wide r ops).filterMap (fun z => arrived z.2)) := by
  intro narrow wide
  have run : ∀ ops,Wider (history narrow r ops) (history wide r ops) (reached narrow r ops)
      (reached wide r ops) :=
    (machine ρ).lockstep (machine ρ) Wider (fun _ _ _ _ op h => (wider_step h op).1)
      (wider_new config r wider)
  refine ⟨?_,fun ops => (run ops).arrivals⟩
  intro past op other
  exact (wider_step (run past) op).2 other

/-- Of two envelopes that change places a window of one place takes the second, one of two places both. -/
theorem wider_window_swapped :
    let host := testHost (TinyCipher .testOnly 2 2 2) 1 [1,2]
    let config : TransportSecurityConfig :=
      {outboundAlgorithm := .testOnly,senderID := 7,sessionID := 5}
    let first := protect host (new config) 1 3 (.bytes [9])
    let second := protect host first.security first.random 3 (.bytes [8])
    let arrivals := fun k => ((history {config with replayWindowSize := k} (0 : UInt8)
      [.unprotect host 3 (.bytes second.output),.unprotect host 3 (.bytes first.output)]).filterMap
        (fun z => arrived z.2))
    (arrivals 1).map (fun p => (p.data,p.sequence))=[([8],2)] ∧
    (arrivals 2).map (fun p => (p.data,p.sequence))=[([8],2),([9],1)] ∧
    (arrivals 1).Sublist (arrivals 2) := by
  intro host config first second arrivals
  refine ⟨by decide +kernel,by decide +kernel,?_⟩
  exact (wider_window config (0 : UInt8) (show 1≤2 by decide)).2 _

end TransportSecurity
end ESPressioSecurity
