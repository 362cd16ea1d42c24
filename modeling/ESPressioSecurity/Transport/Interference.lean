import ESPressioSecurity.Transport.Sessions

namespace ESPressioSecurity

open Framework

namespace TransportSecurity

variable {ρ : Type}

def Operation.isProtect : Operation ρ → Bool
  | protect _ _ _ => true
  | _ => false

/-- The calls on the inbound side that leave the configuration alone. -/
def Operation.isInbound : Operation ρ → Bool
  | unprotect _ _ _ => true
  | resetReplayProtection => true
  | _ => false

/-- What the caller of each operation gets back. -/
def returned (_ : Operation ρ) (response : Response) :
    Option (SecurityResult×Bytes)×Option (SecurityResult×UnprotectedPayload) :=
  match response with
  | .outbound result output _ => (some (result,output),none)
  | .inbound result payload _ => (none,some (result,payload))
  | .control _ => (none,none)

def sent (op : Operation ρ) (response : Response) : Option (SecurityResult×Bytes) :=
  (returned op response).1

def delivered (op : Operation ρ) (response : Response) :
    Option (SecurityResult×UnprotectedPayload) := (returned op response).2

/-! ### `Protect` and the replay window -/

/-- Another replay window, and another configured size for the next one. -/
def withWindow (s : TransportSecurity) (n : Nat) (w : ReplayWindow) : TransportSecurity :=
  {s with config := {s.config with replayWindowSize := n},replay := w}

def SessionOutcome.withWindow (o : SessionOutcome ρ) (n : Nat) (w : ReplayWindow) :
    SessionOutcome ρ :=
  {o with security := o.security.withWindow n w}

def ProtectOutcome.withWindow (o : ProtectOutcome ρ) (n : Nat) (w : ReplayWindow) :
    ProtectOutcome ρ :=
  {o with security := o.security.withWindow n w}

def ProtectOutcome.withReplay (o : ProtectOutcome ρ) (w : ReplayWindow) : ProtectOutcome ρ :=
  {o with security := o.security.withReplay w}

theorem ensureSessionID_window (host : Host ρ) (s : TransportSecurity) (n : Nat) (w : ReplayWindow)
    (r : ρ) :
    ensureSessionID host (s.withWindow n w) r=(ensureSessionID host s r).withWindow n w := by
  obtain ⟨config,replay,sessionID,nextSequence,sessionReady,observable⟩ := s
  unfold ensureSessionID withWindow
  dsimp only
  cases sessionReady with
  | true => rfl
  | false =>
    by_cases hc : config.sessionID≠0
    · simp only [if_pos hc]
      rfl
    · simp only [if_neg hc]
      cases (drawSessionID host.random 4 r).1 with
      | none => rfl
      | some candidate => rfl

theorem sealEnvelope_window (host : Host ρ) (s : TransportSecurity) (n : Nat) (w : ReplayWindow)
    (r : ρ) (effects : List Effect) (cipher : IAeadCipher) (key : KeyMaterialView) (protocol : UInt8)
    (plaintext : Span) :
    sealEnvelope host (s.withWindow n w) r effects cipher key protocol plaintext=
      (sealEnvelope host s r effects cipher key protocol plaintext).withWindow n w := by
  have header : (s.withWindow n w).outboundHeader cipher protocol plaintext=
      s.outboundHeader cipher protocol plaintext := rfl
  unfold sealEnvelope
  rw [header]
  dsimp only
  split_ifs <;> rfl

/-- `Protect` does not read the replay window or its size, and keeps whatever is there. -/
theorem protect_window (host : Host ρ) (s : TransportSecurity) (n : Nat) (w : ReplayWindow) (r : ρ)
    (protocol : UInt8) (plaintext : Span) :
    protect host (s.withWindow n w) r protocol plaintext=
      (protect host s r protocol plaintext).withWindow n w := by
  have session := ensureSessionID_window host s n w r
  obtain ⟨config,replay,sessionID,nextSequence,sessionReady,observable⟩ := s
  unfold protect
  rw [session]
  unfold withWindow SessionOutcome.withWindow
  dsimp only
  by_cases hv : plaintext.invalid=true ∨ plaintext.size>config.maximumPlaintextBytes
  · simp only [if_pos hv]
    rfl
  simp only [if_neg hv]
  by_cases hd : config.policy=.disabled
  · simp only [if_pos hd]
    rfl
  simp only [if_neg hd]
  cases host.ciphers.find config.outboundAlgorithm with
  | none =>
    dsimp only
    split_ifs <;> rfl
  | some cipher =>
    cases host.keys.getKey config.outboundKeyID config.outboundAlgorithm with
    | none =>
      dsimp only
      split_ifs <;> rfl
    | some key =>
      dsimp only
      generalize ensureSessionID host _ r=outcome
      obtain ⟨ok,security,random,effects⟩ := outcome
      have sealing := sealEnvelope_window host security n w random effects cipher key protocol
        plaintext
      obtain ⟨config,replay,sessionID,nextSequence,sessionReady,observable⟩ := security
      unfold withWindow at sealing ⊢
      dsimp only at sealing ⊢
      rw [sealing]
      split_ifs <;> rfl

theorem protect_replay (host : Host ρ) (s : TransportSecurity) (w : ReplayWindow) (r : ρ)
    (protocol : UInt8) (plaintext : Span) :
    protect host (s.withReplay w) r protocol plaintext=
      (protect host s r protocol plaintext).withReplay w := by
  have window := protect_window host s s.config.replayWindowSize w r protocol plaintext
  have config := (protect_follows host s r protocol plaintext).config
  have same : (protect host s r protocol plaintext).security.withWindow s.config.replayWindowSize w=
      (protect host s r protocol plaintext).security.withReplay w := by
    rw [← config]
    rfl
  rw [ProtectOutcome.withWindow,same] at window
  exact window

/-! ### What `Unprotect` reads -/

theorem notify_congr {s t : TransportSecurity} (h : t.observable=s.observable) (n : Notification) :
    t.notify n=s.notify n := by
  rw [notify,notify,h]

theorem reject_response {s t : TransportSecurity} (h : t.observable=s.observable)
    (effects : List Effect) (error : SecurityError) (message : String) :
    (reject t effects error message).response=(reject s effects error message).response := by
  simp only [reject,UnprotectOutcome.response,notify_congr h]

theorem openEnvelope_response (host : Host ρ) {s t : TransportSecurity}
    (h : t.observable=s.observable) (expectedProtocol : UInt8) (input : Bytes) (header : Header)
    (cipher : IAeadCipher) (key : KeyMaterialView) :
    (openEnvelope host t expectedProtocol input header cipher key).response=
      (openEnvelope host s expectedProtocol input header cipher key).response := by
  unfold openEnvelope
  dsimp only
  split_ifs
  · rfl
  · apply reject_response h
  · apply reject_response h
  · rfl

theorem unprotectKnown_response (host : Host ρ) {s t : TransportSecurity} (expectedProtocol : UInt8)
    (input : Bytes) (h : Header) (cipher : IAeadCipher) (observed : t.observable=s.observable)
    (window : t.replay.wouldAccept h.domain h.sequence=s.replay.wouldAccept h.domain h.sequence) :
    (unprotectKnown host t expectedProtocol input h cipher).response=
      (unprotectKnown host s expectedProtocol input h cipher).response := by
  have refused := reject_response observed []
  unfold unprotectKnown
  rw [window]
  by_cases hw : s.replay.wouldAccept h.domain h.sequence=false
  · simp only [if_pos hw]
    apply refused
  simp only [if_neg hw]
  cases host.keys.getKey h.keyID ⟨h.algorithm⟩ with
  | none => apply refused
  | some key =>
    dsimp only
    split_ifs
    · apply refused
    · exact openEnvelope_response host observed expectedProtocol input h cipher key

/-- Of its state `Unprotect` reads the policy and the limit, whether it is observed, and what the
replay window says of an envelope within the limit. -/
theorem unprotect_reads (host : Host ρ) {s t : TransportSecurity} (expectedProtocol : UInt8)
    (input : Span) (policy : t.config.policy=s.config.policy)
    (limit : t.config.maximumPlaintextBytes=s.config.maximumPlaintextBytes)
    (observed : t.observable=s.observable)
    (window : input.invalid=false → ∀ h,IsEnvelope host input.content h →
      h.ciphertextLength.toNat ≤ s.config.maximumPlaintextBytes →
      t.replay.wouldAccept h.domain h.sequence=s.replay.wouldAccept h.domain h.sequence) :
    (unprotect host t expectedProtocol input).response=
      (unprotect host s expectedProtocol input).response := by
  have refused := reject_response observed []
  unfold unprotect
  by_cases hv : input.invalid=true
  · simp only [if_pos hv]
    apply refused
  have hsize := input.size_eq (Bool.eq_false_of_not_eq_true hv)
  simp only [if_neg hv]
  by_cases hp : looksProtected input=false
  · simp only [if_pos hp,policy]
    split_ifs
    · apply refused
    · rfl
  simp only [if_neg hp]
  by_cases hs : input.size<fixedHeaderSize
  · simp only [if_pos hs]
    apply refused
  simp only [if_neg hs]
  cases hr : readHeader input.content with
  | none => apply refused
  | some h =>
    dsimp only
    by_cases hm : h.magic≠envelopeMagic ∨ h.version≠envelopeVersion
    · simp only [if_pos hm]
      split_ifs <;> apply refused
    simp only [if_neg hm,limit]
    by_cases hb : h.ciphertextLength.toNat>s.config.maximumPlaintextBytes
    · simp only [if_pos hb]
      apply refused
    simp only [if_neg hb]
    by_cases he : expectedSize host h≠input.size ∨ h.sessionID=0 ∨ h.sequence=0 ∨ h.keyID=0
    · simp only [if_pos he]
      apply refused
    simp only [if_neg he]
    cases hc : host.ciphers.find ⟨h.algorithm⟩ with
    | none => apply refused
    | some cipher =>
      dsimp only
      by_cases hn : h.nonceLength.toNat≠cipher.nonceSize ∨ h.tagLength.toNat≠cipher.tagSize
      · simp only [if_pos hn]
        apply refused
      simp only [if_neg hn]
      have envelope : IsEnvelope host input.content h := by
        simp only [not_or,not_not] at hm he hn
        exact ⟨cipher,hc,hr,hm.1,hm.2,he.1.trans hsize,he.2.1,he.2.2.1,he.2.2.2,hn.1,hn.2⟩
      exact unprotectKnown_response host expectedProtocol input.content h cipher observed
        (window (Bool.eq_false_of_not_eq_true hv) h envelope (Nat.not_lt.mp hb))

theorem unprotect_response (host : Host ρ) {s t : TransportSecurity} (expectedProtocol : UInt8)
    (input : Span) (config : t.config=s.config) (observed : t.observable=s.observable)
    (window : ∀ h,IsEnvelope host input.content h →
      t.replay.wouldAccept h.domain h.sequence=s.replay.wouldAccept h.domain h.sequence) :
    (unprotect host t expectedProtocol input).response=
      (unprotect host s expectedProtocol input).response :=
  unprotect_reads host expectedProtocol input (by rw [config]) (by rw [config]) observed
    (fun _ h envelope _ => window h envelope)

/-! ### `Unprotect` and the outbound session -/

def UnprotectOutcome.withSession (o : UnprotectOutcome) (sessionID nextSequence : UInt64)
    (sessionReady : Bool) : UnprotectOutcome :=
  {o with security := o.security.withSession sessionID nextSequence sessionReady}

theorem UnprotectOutcome.ext_response {o o' : UnprotectOutcome} (response : o.response=o'.response)
    (security : o.security=o'.security) : o=o' := by
  obtain ⟨result,payload,s,effects⟩ := o
  obtain ⟨result',payload',s',effects'⟩ := o'
  obtain ⟨rfl,rfl,rfl⟩ := Response.inbound.inj response
  obtain rfl : s=s' := security
  rfl

/-- `Unprotect` does not read the outbound session, and keeps whatever is there. -/
theorem unprotect_session (host : Host ρ) (s : TransportSecurity) (a b : UInt64) (c : Bool)
    (expectedProtocol : UInt8) (input : Span) :
    unprotect host (s.withSession a b c) expectedProtocol input=
      (unprotect host s expectedProtocol input).withSession a b c := by
  have same : (unprotect host (s.withSession a b c) expectedProtocol input).response=
      (unprotect host s expectedProtocol input).response :=
    unprotect_response host expectedProtocol input rfl rfl (fun _ _ => rfl)
  apply UnprotectOutcome.ext_response
  · exact same
  · rw [unprotect_security,same,UnprotectOutcome.withSession,unprotect_security]
    rfl

/-! ### Runs with calls left out -/

/-- Alike for `Protect`: only the replay windows may differ. -/
def SameOutbound (x y : TransportSecurity×ρ) : Prop :=
  (∃ w,y.1=x.1.withReplay w) ∧ y.2=x.2

/-- Alike for `Unprotect`: only the outbound sessions and the random source may differ. -/
def SameInbound (x y : TransportSecurity×ρ) : Prop :=
  ∃ a b c,y.1=x.1.withSession a b c

theorem sameOutbound_step {x y : TransportSecurity×ρ} (h : SameOutbound x y) (op : Operation ρ) :
    SameOutbound (step x op).1 (step y op).1 ∧
      sent op (step x op).2=sent op (step y op).2 := by
  obtain ⟨s,r⟩ := x
  obtain ⟨t,r'⟩ := y
  obtain ⟨⟨w,hw⟩,hr⟩ := h
  change t=s.withReplay w at hw
  change r'=r at hr
  subst hw; subst hr
  cases op with
  | protect host protocol plaintext =>
    have hp := protect_replay host s w r' protocol plaintext
    simp only [step,hp]
    exact ⟨⟨⟨w,rfl⟩,rfl⟩,rfl⟩
  | unprotect host expectedProtocol input =>
    obtain ⟨v,hv⟩ := unprotect_keeps host s expectedProtocol input
    obtain ⟨u,hu⟩ := unprotect_keeps host (s.withReplay w) expectedProtocol input
    simp only [step,hv,hu]
    exact ⟨⟨⟨u,rfl⟩,rfl⟩,rfl⟩
  | setConfig config => exact ⟨⟨⟨_,rfl⟩,rfl⟩,rfl⟩
  | resetReplayProtection => exact ⟨⟨⟨_,rfl⟩,rfl⟩,rfl⟩
  | registerObserver => exact ⟨⟨⟨w,rfl⟩,rfl⟩,rfl⟩

theorem sameOutbound_drop {x y : TransportSecurity×ρ} (h : SameOutbound x y) (op : Operation ρ)
    (hop : op.isInbound=true) : SameOutbound (step x op).1 y := by
  obtain ⟨⟨w,hw⟩,hr⟩ := h
  cases op with
  | unprotect host expectedProtocol input =>
    obtain ⟨v,hv⟩ := unprotect_keeps host x.1 expectedProtocol input
    refine ⟨⟨w,?_⟩,hr⟩
    simp only [step,hv,hw]
    rfl
  | resetReplayProtection => exact ⟨⟨w,hw⟩,hr⟩
  | protect host protocol plaintext => exact absurd hop (by simp [Operation.isInbound])
  | setConfig config => exact absurd hop (by simp [Operation.isInbound])
  | registerObserver => exact absurd hop (by simp [Operation.isInbound])

theorem sameInbound_step {x y : TransportSecurity×ρ} (h : SameInbound x y) (op : Operation ρ) :
    SameInbound (step x op).1 (step y op).1 ∧
      delivered op (step x op).2=delivered op (step y op).2 := by
  obtain ⟨s,r⟩ := x
  obtain ⟨t,r'⟩ := y
  obtain ⟨a,b,c,hs⟩ := h
  change t=s.withSession a b c at hs
  subst hs
  cases op with
  | protect host protocol plaintext =>
    obtain ⟨d,e,f,hx⟩ := protect_keeps host s r protocol plaintext
    obtain ⟨d',e',f',hy⟩ := protect_keeps host (s.withSession a b c) r' protocol plaintext
    simp only [step,hx,hy]
    exact ⟨⟨d',e',f',rfl⟩,rfl⟩
  | unprotect host expectedProtocol input =>
    have hu := unprotect_session host s a b c expectedProtocol input
    simp only [step,hu]
    exact ⟨⟨a,b,c,rfl⟩,rfl⟩
  | setConfig config => exact ⟨⟨_,_,_,rfl⟩,rfl⟩
  | resetReplayProtection => exact ⟨⟨a,b,c,rfl⟩,rfl⟩
  | registerObserver => exact ⟨⟨a,b,c,rfl⟩,rfl⟩

theorem sameInbound_drop {x y : TransportSecurity×ρ} (h : SameInbound x y) (op : Operation ρ)
    (hop : op.isProtect=true) : SameInbound (step x op).1 y := by
  obtain ⟨a,b,c,hs⟩ := h
  cases op with
  | protect host protocol plaintext =>
    obtain ⟨d,e,f,hx⟩ := protect_keeps host x.1 x.2 protocol plaintext
    refine ⟨a,b,c,?_⟩
    simp only [step,hx,hs]
    rfl
  | unprotect host expectedProtocol input => exact absurd hop (by simp [Operation.isProtect])
  | setConfig config => exact absurd hop (by simp [Operation.isProtect])
  | resetReplayProtection => exact absurd hop (by simp [Operation.isProtect])
  | registerObserver => exact absurd hop (by simp [Operation.isProtect])

/-- The call is an `Unprotect` that fails or passes plaintext through. -/
def Ineffective (x : TransportSecurity×ρ) (op : Operation ρ) : Prop :=
  ∃ host expectedProtocol input,op=.unprotect host expectedProtocol input ∧
    ¬((unprotect host x.1 expectedProtocol input).result.success=true ∧
      (unprotect host x.1 expectedProtocol input).result.isProtected=true)

theorem ineffective_step {x : TransportSecurity×ρ} {op : Operation ρ} (h : Ineffective x op) :
    (step x op).1=x := by
  obtain ⟨host,expectedProtocol,input,rfl,hn⟩ := h
  have hs : (unprotect host x.1 expectedProtocol input).security=x.1 := by
    cases ok : (unprotect host x.1 expectedProtocol input).result.success with
    | false => exact (unprotect_failure ok).2
    | true =>
      obtain ⟨_,_,_,he⟩|⟨header,cipher,key,_,_,_,he⟩ := unprotect_success ok
      · rw [he]
        rfl
      · rw [he] at hn
        exact absurd ⟨rfl,rfl⟩ hn
  simp only [step,hs]

/-- Rejected input and plaintext leave no trace, and the two directions do not see each other. -/
theorem rejected_input_inert (x : TransportSecurity×ρ) (marked : List (Operation ρ×Bool)) :
    (∀ past host expectedProtocol input future,
      marked.map (·.1)=past++.unprotect host expectedProtocol input::future →
      (unprotect host ((machine ρ).after x past).1 expectedProtocol input).result.success=false →
      (unprotect host ((machine ρ).after x past).1 expectedProtocol input).payload={} ∧
      (unprotect host ((machine ρ).after x past).1 expectedProtocol input).security=
        ((machine ρ).after x past).1) ∧
    ((∀ n op,marked[n]?=some (op,false) →
        Ineffective ((machine ρ).after x ((marked.take n).map (·.1))) op) →
      (machine ρ).keptViews returned x marked=
        ((machine ρ).trace x (Machine.kept marked)).map (fun y => returned y.1 y.2)) ∧
    ((∀ op,(op,false)∈marked → op.isInbound=true) →
      (machine ρ).keptViews sent x marked=
        ((machine ρ).trace x (Machine.kept marked)).map (fun y => sent y.1 y.2)) ∧
    ((∀ op,(op,false)∈marked → op.isProtect=true) →
      (machine ρ).keptViews delivered x marked=
        ((machine ρ).trace x (Machine.kept marked)).map (fun y => delivered y.1 y.2)) := by
  refine ⟨?_,?_,?_,?_⟩
  · intro past host expectedProtocol input future _ failed
    exact unprotect_failure failed
  · intro dropped
    apply (machine ρ).unwinding Eq returned marked x x rfl
    · intro u v a _ he
      subst he
      exact ⟨rfl,rfl⟩
    · intro n a v hn he
      exact (ineffective_step (dropped n a hn)).trans he
  · intro dropped
    apply (machine ρ).unwinding SameOutbound sent marked x x ⟨⟨x.1.replay,rfl⟩,rfl⟩
    · intro u v a _ h
      exact sameOutbound_step h a
    · intro n a v hn h
      exact sameOutbound_drop h a (dropped a (List.mem_of_getElem? hn))
  · intro dropped
    apply (machine ρ).unwinding SameInbound delivered marked x x
      ⟨x.1.sessionID,x.1.nextSequence,x.1.sessionReady,rfl⟩
    · intro u v a _ h
      exact sameInbound_step h a
    · intro n a v hn h
      exact sameInbound_drop h a (dropped a (List.mem_of_getElem? hn))

end TransportSecurity
end ESPressioSecurity
