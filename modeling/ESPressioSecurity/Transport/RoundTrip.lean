import ESPressioSecurity.Transport.Identities
import ESPressioSecurity.Transport.WireAgreement

namespace ESPressioSecurity

open Framework

namespace TransportSecurity

variable {ρ σ : Type}

/-! ### One envelope -/

/-- The receiving surroundings resolve what the sending ones did: the same algorithm to a cipher of
the same sizes that opens what the other seals, and the same key to the same bytes. -/
structure Agrees (sender : Host ρ) (receiver : Host σ) (algorithm : AeadAlgorithm)
    (keyID : UInt32) : Prop where
  cipher : ∀ c,sender.ciphers.find algorithm=some c →
    ∃ o,receiver.ciphers.find algorithm=some o ∧ o.keySize=c.keySize ∧
      o.nonceSize=c.nonceSize ∧ o.tagSize=c.tagSize ∧ OpensSealed o c
  key : ∀ k,sender.keys.getKey keyID algorithm=some k →
    ∃ v,receiver.keys.getKey keyID algorithm=some v ∧ v.data=k.data

theorem Emits.admitted {host : Host ρ} {x : TransportSecurity×ρ} {protocol : UInt8}
    {plaintext : Span} {cipher : IAeadCipher} {key : KeyMaterialView} {e : Envelope}
    (h : Emits host x protocol plaintext cipher key e) (hc : x.1.Consistent)
    (hk : x.1.config.outboundKeyID≠0) {receiver : Host σ} {t : TransportSecurity}
    (agrees : Agrees host receiver x.1.config.outboundAlgorithm x.1.config.outboundKeyID)
    (bounded : plaintext.size≤t.config.maximumPlaintextBytes)
    (sized : e.bytes.length≤SecurityBuffer.maxSize receiver.sizeBits)
    (fresh : t.replay.wouldAccept e.header.domain e.header.sequence=true) :
    ∃ opener view,Admitted receiver t e.bytes e.header opener view ∧
      (opening e.bytes e.header opener view).ok=true ∧
      (opening e.bytes e.header opener view).plaintext.val=plaintext.content := by
  have carries := h.carries
  obtain ⟨opener,found,keySize,nonceSize,tagSize,opens⟩ := agrees.cipher cipher h.ready.cipher_found
  obtain ⟨view,viewed,data⟩ := agrees.key key h.ready.key_found
  have form := h.wellFormed hc hk receiver nonceSize tagSize
    (sized.trans_lt (SecurityBuffer.maxSize_lt _))
  have opened := opens key.data e.nonce e.header.bytes plaintext.content h.seals.sealed
  dsimp only at opened
  rw [← h.seals.ciphertext,← h.seals.tag] at opened
  obtain ⟨ok,val⟩ := opening_envelope e opener view
  rw [data] at ok val
  refine ⟨opener,view,⟨⟨form,?_,?_,fresh,?_,?_⟩,e.room sized⟩,ok.trans opened.1,
    val.trans opened.2⟩
  · rw [h.seals.ciphertext_size]
    exact bounded
  · rw [carries.algorithm]
    exact found
  · rw [carries.algorithm,carries.keyID]
    exact viewed
  · rw [keySize,← h.ready.key_size,KeyMaterialView.size,KeyMaterialView.size,data]

/-! ### The receiver's replay state over a run -/

/-- The sequences a run committed in a domain. -/
def acceptedIn (d : ReplayDomain) (past : List (Operation ρ×Response)) : Set Nat :=
  {q | ∃x∈past,∃ s,committed x.2=some (d,s) ∧ s.toNat=q}

theorem acceptedIn_append (d : ReplayDomain) (past : List (Operation ρ×Response))
    (x : Operation ρ×Response) : acceptedIn d (past++[x])=
      acceptedIn d past ∪ {q | ∃ s,committed x.2=some (d,s) ∧ s.toNat=q} := by
  ext q
  simp only [acceptedIn,Set.mem_ofPred_eq,List.mem_append,List.mem_singleton,Set.mem_union]
  constructor
  · intro ⟨y,hy,hs⟩
    rcases hy with hy|rfl
    · exact Or.inl ⟨y,hy,hs⟩
    · exact Or.inr hs
  · intro h
    rcases h with ⟨y,hy,hs⟩|hs
    · exact ⟨y,Or.inl hy,hs⟩
    · exact ⟨x,Or.inr rfl,hs⟩

theorem acceptedIn_step {y : TransportSecurity×ρ} {op : Operation ρ}
    {past : List (Operation ρ×Response)} (d : ReplayDomain) (h : op.isControl=false)
    (hc : y.1.replay.Committed d (acceptedIn d past)) :
    (step y op).1.1.replay.Committed d (acceptedIn d (past++[(op,(step y op).2)])) := by
  have hr := (step_replay y op h).2
  rw [acceptedIn_append,hr]
  cases hk : committed (step y op).2 with
  | none =>
    have none_new : {q : Nat | ∃ s : UInt64,none=some (d,s) ∧ s.toNat=q}=∅ := by
      ext q
      simp
    rw [none_new,Set.union_empty]
    exact hc
  | some dq =>
    obtain ⟨d',s⟩ := dq
    by_cases hd : d'=d
    · subst hd
      have one_new : {q : Nat | ∃ s' : UInt64,some (d',s)=some (d',s') ∧ s'.toNat=q}={s.toNat} := by
        ext q
        simp only [Option.some.injEq,Prod.mk.injEq,true_and,Set.mem_ofPred_eq,
          Set.mem_singleton_iff,exists_eq_left']
        exact eq_comm
      rw [one_new,Set.union_comm,← Set.insert_eq]
      exact ReplayWindow.committed_commit _ d' s _ hc
    · have none_new : {q : Nat | ∃ s' : UInt64,some (d',s)=some (d,s') ∧ s'.toNat=q}=∅ := by
        ext q
        simp [hd]
      rw [none_new,Set.union_empty]
      exact ReplayWindow.committed_commit_ne _ d' d s _ (Ne.symm hd) hc

/-! ### The sender's envelopes of one session -/

/-- The run `ops` from `x` put out the envelope `e` for this payload and protocol. -/
def Sent (x : TransportSecurity×ρ) (ops : List (Operation ρ)) (host : Host ρ) (protocol : UInt8)
    (plaintext : Span) (e : Envelope) : Prop :=
  ∃ past future,ops=past++.protect host protocol plaintext::future ∧
    emitted (step ((machine ρ).after x past) (.protect host protocol plaintext)).2=some e.bytes

theorem Sent.emits {x : TransportSecurity×ρ} {ops : List (Operation ρ)} {host : Host ρ}
    {protocol : UInt8} {plaintext : Span} {e : Envelope}
    (h : Sent x ops host protocol plaintext e) (hops : ∀op∈ops,op.isSetConfig=false) :
    ∃ past cipher key,Follows x.1 ((machine ρ).after x past).1 ∧
      Emits host ((machine ρ).after x past) protocol plaintext cipher key e := by
  obtain ⟨past,future,hsplit,he⟩ := h
  obtain ⟨cipher,key,f,emits,hf⟩ := emitted_protect he
  have same := Envelope.bytes_injective hf
  subst same
  refine ⟨past,cipher,key,?_,emits⟩
  exact run_follows x past (fun op hop => hops op (by rw [hsplit]; simp [hop]))

theorem Sent.outboundID {x : TransportSecurity×ρ} {op : Operation ρ} {e : Envelope}
    (h : emitted (step x op).2=some e.bytes) :
    TransportSecurity.outboundID (op,(step x op).2)=
      some (e.header.sessionID,e.header.sequence) := by
  simp [TransportSecurity.outboundID,h,identity,e.readHeader_bytes]

/-- An envelope emitted later in the session carries the same session and a larger sequence. -/
theorem Sent.later {x : TransportSecurity×ρ} (hc : x.1.Consistent) {past mid : List (Operation ρ)}
    {a b : Operation ρ} (hmid : ∀op∈mid,op.isSetConfig=false) {e f : Envelope}
    (he : emitted (step ((machine ρ).after x past) a).2=some e.bytes)
    (hf : emitted (step ((machine ρ).after x (past++a::mid)) b).2=some f.bytes) :
    e.header.sessionID=f.header.sessionID ∧ e.header.sequence≠f.header.sequence := by
  rw [(machine ρ).after_append] at hf
  obtain ⟨same,_,_,lt⟩ := epoch_order (run_consistent x past hc) hmid (Sent.outboundID he)
    (Sent.outboundID hf)
  refine ⟨same,?_⟩
  intro hq
  change e.header.sequence.toNat<f.header.sequence.toNat at lt
  rw [hq] at lt
  exact lt_irrefl _ lt

/-- Two envelopes of one session belong to one domain, and share a sequence only if they are the
same envelope. -/
theorem Sent.agree {x : TransportSecurity×ρ} (hc : x.1.Consistent) {ops : List (Operation ρ)}
    (hops : ∀op∈ops,op.isSetConfig=false) {host host' : Host ρ} {p p' : UInt8} {a a' : Span}
    {e e' : Envelope} (h : Sent x ops host p a e) (h' : Sent x ops host' p' a' e') :
    e.header.domain=e'.header.domain ∧ (e.header.sequence=e'.header.sequence → e=e' ∧ p=p') := by
  obtain ⟨_,_,_,follows,emits⟩ := h.emits hops
  obtain ⟨_,_,_,follows',emits'⟩ := h'.emits hops
  have carries := emits.carries
  have carries' := emits'.carries
  have sender : e.header.senderID=e'.header.senderID := by
    rw [carries.senderID,carries'.senderID,follows.config,follows'.config]
  have keyID : e.header.keyID=e'.header.keyID := by
    rw [carries.keyID,carries'.keyID,follows.config,follows'.config]
  obtain ⟨past,future,hs,he⟩ := h
  obtain ⟨past',future',hs',he'⟩ := h'
  have session : e.header.sessionID=e'.header.sessionID ∧
      (e.header.sequence=e'.header.sequence → e=e' ∧ p=p') := by
    obtain ⟨rfl,hop⟩|⟨mid,rfl,hmid⟩|⟨mid,rfl,hmid⟩ := Machine.occurrences hs hs'
    · injection hop with hhost hprotocol hplain
      subst hhost; subst hprotocol; subst hplain
      rw [he] at he'
      have same := Envelope.bytes_injective (Option.some.inj he')
      exact ⟨by rw [same],fun _ => ⟨same,rfl⟩⟩
    · obtain ⟨same,ne⟩ := Sent.later hc (fun op hop => hops op (hmid op hop)) he he'
      exact ⟨same,fun hq => absurd hq ne⟩
    · obtain ⟨same,ne⟩ := Sent.later hc (fun op hop => hops op (hmid op hop)) he' he
      exact ⟨same.symm,fun hq => absurd hq.symm ne⟩
  exact ⟨by rw [Header.domain,Header.domain,sender,keyID,session.1],session.2⟩

/-! ### Arrivals at the receiver -/

/-- The width of the window follows the configuration. -/
theorem step_window (y : TransportSecurity×σ) (op : Operation σ)
    (h : y.1.replay.windowSize=ReplayWindow.clamp y.1.config.replayWindowSize) :
    (step y op).1.1.replay.windowSize=
      ReplayWindow.clamp (step y op).1.1.config.replayWindowSize := by
  cases op with
  | protect host protocol plaintext =>
    obtain ⟨a,b,c,he⟩ := protect_keeps host y.1 y.2 protocol plaintext
    simp only [step,he]
    exact h
  | unprotect host expectedProtocol input =>
    obtain ⟨hc,hr⟩ := step_replay y (.unprotect host expectedProtocol input) rfl
    rw [hc,hr,← h]
    exact ReplayWindow.record_windowSize _ _
  | setConfig config => rfl
  | resetReplayProtection => exact h
  | registerObserver => exact h

theorem run_window (config : TransportSecurityConfig) (r : σ) (ops : List (Operation σ)) :
    (reached config r ops).1.replay.windowSize=
      ReplayWindow.clamp (reached config r ops).1.config.replayWindowSize := by
  have start : (new config).replay.windowSize=
      ReplayWindow.clamp (new config).config.replayWindowSize := by
    unfold new
    dsimp only
    split_ifs <;> rfl
  exact (machine σ).invariant_state (I := fun u => u.1.replay.windowSize=
    ReplayWindow.clamp u.1.config.replayWindowSize) ops start (fun u op _ hu => step_window u op hu)

/-- A call that takes a protected input commits what its header says. -/
theorem committed_envelope {y : TransportSecurity×σ} {receiver : Host σ} {protocol : UInt8}
    {e : Envelope} {d : ReplayDomain} {q : UInt64}
    (h : committed (step y (.unprotect receiver protocol (.bytes e.bytes))).2=some (d,q)) :
    d=e.header.domain ∧ q=e.header.sequence := by
  obtain ⟨header,⟨cipher,_,form⟩,pair⟩ := committed_header h
  have read : some header=some e.header := form.read.symm.trans e.readHeader_bytes
  have same : header=e.header := Option.some.inj read
  rw [← same]
  exact ⟨congrArg Prod.fst pair,congrArg Prod.snd pair⟩

theorem succeeded_envelope {y : TransportSecurity×σ} {receiver : Host σ} {protocol : UInt8}
    {e : Envelope} (magic : e.header.magic=envelopeMagic)
    (h : (unprotect receiver y.1 protocol (.bytes e.bytes)).result.success=true) :
    committed (step y (.unprotect receiver protocol (.bytes e.bytes))).2=
      some (e.header.domain,e.header.sequence) := by
  have hb : readHeader (Span.bytes e.bytes).content=some e.header := e.readHeader_bytes
  obtain ⟨_,plain,_,_⟩|⟨header,cipher,key,admitted,_,_,he⟩ := unprotect_success h
  · rw [looksProtected_of_read hb magic] at plain
    exact absurd plain (by decide)
  · have hr := admitted.well_formed.read
    rw [hb] at hr
    obtain rfl := Option.some.inj hr
    simp only [step,committed,he]
    rfl

/-- An envelope succeeds only on a window that admits it. -/
theorem succeeded_fresh {t : TransportSecurity} {receiver : Host σ} {protocol : UInt8}
    {e : Envelope} (magic : e.header.magic=envelopeMagic)
    (h : (unprotect receiver t protocol (.bytes e.bytes)).result.success=true) :
    t.replay.wouldAccept e.header.domain e.header.sequence=true := by
  have hb : readHeader (Span.bytes e.bytes).content=some e.header := e.readHeader_bytes
  obtain ⟨_,plain,_,_⟩|⟨header,cipher,key,admitted,_,_,_⟩ := unprotect_success h
  · rw [looksProtected_of_read hb magic] at plain
    exact absurd plain (by decide)
  · have hr := admitted.well_formed.read
    rw [hb] at hr
    obtain rfl := Option.some.inj hr
    exact admitted.fresh

/-- On a window that admits it an envelope is accepted, with the payload that was sealed. -/
theorem Emits.accepted {host : Host ρ} {x : TransportSecurity×ρ} {protocol : UInt8}
    {plaintext : Span} {cipher : IAeadCipher} {key : KeyMaterialView} {e : Envelope}
    (h : Emits host x protocol plaintext cipher key e) (hc : x.1.Consistent)
    (hk : x.1.config.outboundKeyID≠0) {receiver : Host σ} {t : TransportSecurity}
    (agrees : Agrees host receiver x.1.config.outboundAlgorithm x.1.config.outboundKeyID)
    (bounded : plaintext.size≤t.config.maximumPlaintextBytes)
    (sized : e.bytes.length≤SecurityBuffer.maxSize receiver.sizeBits)
    (fresh : t.replay.wouldAccept e.header.domain e.header.sequence=true) :
    (unprotect receiver t protocol (.bytes e.bytes)).result=.ok true ∧
    (unprotect receiver t protocol (.bytes e.bytes)).payload=e.header.payload plaintext.content := by
  obtain ⟨opener,view,admitted,opened,plain⟩ := h.admitted hc hk agrees bounded sized fresh
  have arrived : Admitted receiver t (Span.bytes e.bytes).content e.header opener view := admitted
  rw [unprotect_accept rfl arrived opened h.carries.protocol_eq,← plain]
  exact ⟨rfl,rfl⟩

/-- A receiver's call is the arrival of one of the sender's envelopes, or commits nothing into their
domain. -/
def ReceiverStep (x : TransportSecurity×ρ) (ops : List (Operation ρ)) (d : ReplayDomain)
    (_ : List (Operation σ×Response)) (y : TransportSecurity×σ) (op : Operation σ) : Prop :=
  op.isControl=false ∧
  ((∃ host receiver protocol plaintext e,Sent x ops host protocol plaintext e ∧
      op=.unprotect receiver protocol (.bytes e.bytes)) ∨
    ∀ q,committed (step y op).2≠some (d,q))

structure Receives (x : TransportSecurity×ρ) (ops : List (Operation ρ)) (d : ReplayDomain)
    (start : TransportSecurity×σ) (past : List (Operation σ×Response)) (y : TransportSecurity×σ) :
    Prop where
  config : y.1.config=start.1.config
  window : y.1.replay.windowSize=start.1.replay.windowSize
  committed : y.1.replay.Committed d (acceptedIn d past)
  arrivals : ∀z∈past,∀ q,TransportSecurity.committed z.2=some (d,q) →
    ∃ host receiver protocol plaintext e,Sent x ops host protocol plaintext e ∧
      z.1=.unprotect receiver protocol (.bytes e.bytes) ∧ e.header.sequence=q

theorem receives_step {x : TransportSecurity×ρ} {ops : List (Operation ρ)} {d : ReplayDomain}
    {start y : TransportSecurity×σ} {past : List (Operation σ×Response)} {op : Operation σ}
    (h : Receives x ops d start past y) (hop : ReceiverStep x ops d past y op) :
    Receives x ops d start (past++[(op,(step y op).2)]) (step y op).1 := by
  obtain ⟨hctl,hkind⟩ := hop
  obtain ⟨hc,hr⟩ := step_replay y op hctl
  refine ⟨hc.trans h.config,?_,acceptedIn_step d hctl h.committed,?_⟩
  · rw [hr,← h.window]
    exact ReplayWindow.record_windowSize _ _
  · intro z hz q hq
    rcases List.mem_append.mp hz with hz|hz
    · exact h.arrivals z hz q hq
    · obtain rfl := List.mem_singleton.mp hz
      obtain ⟨host,receiver,protocol,plaintext,e,sent,rfl⟩|none_new := hkind
      · exact ⟨host,receiver,protocol,plaintext,e,sent,rfl,(committed_envelope hq).2.symm⟩
      · exact absurd hq (none_new q)

theorem run_receives {x : TransportSecurity×ρ} {ops : List (Operation ρ)} {d : ReplayDomain}
    {start : TransportSecurity×σ} (unknown : start.1.replay.find d=none)
    (received : List (Operation σ)) (h : (machine σ).Along (ReceiverStep x ops d) start received) :
    Receives x ops d start ((machine σ).trace start received)
      ((machine σ).after start received) := by
  have empty : acceptedIn d ([] : List (Operation σ×Response))=∅ := by
    ext q
    simp [acceptedIn]
  have first : Receives x ops d start [] start := by
    refine ⟨rfl,rfl,?_,by simp⟩
    rw [empty]
    unfold ReplayWindow.Committed
    rw [unknown]
  exact (machine σ).invariant first (fun _ _ _ hi hop => receives_step hi hop) received h

/-- What `Unprotect` hands up for a payload sent under a configuration. -/
def received (config : TransportSecurityConfig) (sessionID sequence : UInt64) (protocol : UInt8)
    (data : Bytes) : UnprotectedPayload where
  protocol := protocol
  keyID := config.outboundKeyID
  senderID := config.senderID
  sessionID := sessionID
  sequence := sequence
  algorithm := config.outboundAlgorithm
  isProtected := true
  data := data

theorem Carries.payload {x : TransportSecurity×ρ} {protocol : UInt8} {h : Header}
    (c : Carries x protocol h) (data : Bytes) :
    h.payload data=received x.1.config h.sessionID h.sequence protocol data := by
  simp only [Header.payload,received,c.protocol_eq,c.keyID,c.senderID,c.algorithm]

/-- No earlier arrival of the envelope succeeded, and nothing accepted in its domain lies a window
or more above it. -/
def Admissible (past : List (Operation σ×Response)) (width : Nat) (protocol : UInt8)
    (e : Envelope) : Prop :=
  (∀z∈past,∀ receiver,z.1=.unprotect receiver protocol (.bytes e.bytes) →
    ∀ result payload effects,z.2=.inbound result payload effects → result.success=false) ∧
  ∀q∈acceptedIn e.header.domain past,q<e.header.sequence.toNat+width

theorem step_unprotect (y : TransportSecurity×σ) (receiver : Host σ) (protocol : UInt8)
    (input : Span) : (step y (.unprotect receiver protocol input)).2=
      .inbound (unprotect receiver y.1 protocol input).result
        (unprotect receiver y.1 protocol input).payload
        (unprotect receiver y.1 protocol input).effects := rfl

theorem entry_unprotect {start : TransportSecurity×σ} {run : List (Operation σ)}
    {z : Operation σ×Response} (hz : z∈(machine σ).trace start run) {receiver : Host σ}
    {protocol : UInt8} {input : Span} (hop : z.1=.unprotect receiver protocol input) :
    ∃ before,z.2=
      .inbound (unprotect receiver ((machine σ).after start before).1 protocol input).result
        (unprotect receiver ((machine σ).after start before).1 protocol input).payload
        (unprotect receiver ((machine σ).after start before).1 protocol input).effects := by
  obtain ⟨before,_,_,hs⟩ := (machine σ).mem_trace hz
  rw [hop] at hs
  exact ⟨before,hs⟩

theorem committed_inbound {result : SecurityResult} {payload : UnprotectedPayload}
    {effects : List Effect} {dq : ReplayDomain×UInt64}
    (h : committed (.inbound result payload effects)=some dq) : result.success=true := by
  simp only [committed] at h
  split_ifs at h with hs
  exact hs.1

theorem fresh_iff_of_unique {x : TransportSecurity×ρ} (hx : x.1.Consistent)
    {ops : List (Operation ρ)} {host : Host ρ} {protocol : UInt8} {plaintext : Span} {e : Envelope}
    (sent : Sent x ops host protocol plaintext e)
    (unique : ∀ host' protocol' plaintext' f,Sent x ops host' protocol' plaintext' f →
      e.header.domain=f.header.domain → e.header.sequence=f.header.sequence → e=f ∧ protocol=protocol')
    {start : TransportSecurity×σ} {run : List (Operation σ)}
    (h : Receives x ops e.header.domain start ((machine σ).trace start run)
      ((machine σ).after start run)) :
    ((machine σ).after start run).1.replay.wouldAccept e.header.domain e.header.sequence=true ↔
      Admissible ((machine σ).trace start run) start.1.replay.windowSize protocol e := by
  obtain ⟨past,future,_,out⟩ := sent
  obtain ⟨cipher,key,f,emits,hf⟩ := emitted_protect out
  rw [Envelope.bytes_injective hf] at emits
  have hp := run_consistent x past hx
  have session := emits.session_ne hp
  have sequence : e.header.sequence≠0 := by
    rw [emits.carries.sequence]
    exact hp.counter
  rw [ReplayWindow.wouldAccept_iff _ _ _ _ h.committed,h.window]
  constructor
  · intro ⟨_,_,unseen,near⟩
    refine ⟨?_,near⟩
    intro z hz receiver hop result payload effects hr
    obtain ⟨before,hs⟩ := entry_unprotect hz hop
    cases ok : result.success with
    | false => rfl
    | true =>
      have shape := Response.inbound.inj (hs.symm.trans hr)
      rw [← shape.1] at ok
      have hcm := succeeded_envelope emits.carries.magic ok
      rw [step_unprotect,← hs] at hcm
      exact absurd ⟨z,hz,_,hcm,rfl⟩ unseen
  · intro ⟨unopened,near⟩
    refine ⟨session,sequence,?_,near⟩
    intro ⟨z,hz,s,hcm,hs⟩
    obtain ⟨host',receiver,protocol',plaintext',f,sent',hop,hq⟩ := h.arrivals z hz s hcm
    obtain ⟨before,hstep⟩ := entry_unprotect hz hop
    have named := hcm
    rw [hstep,← step_unprotect] at named
    have hseq : e.header.sequence=f.header.sequence := by
      rw [hq]
      exact (UInt64.toNat_inj.mp hs).symm
    obtain ⟨rfl,rfl⟩ := unique host' protocol' plaintext' f sent' (committed_envelope named).1 hseq
    have closed := unopened z hz receiver hop _ _ _ hstep
    rw [hstep] at hcm
    rw [committed_inbound hcm] at closed
    exact absurd closed (by decide)

theorem fresh_iff {x : TransportSecurity×ρ} (hx : x.1.Consistent) {ops : List (Operation ρ)}
    (hops : ∀op∈ops,op.isSetConfig=false) {host : Host ρ} {protocol : UInt8} {plaintext : Span}
    {e : Envelope} (sent : Sent x ops host protocol plaintext e) {start : TransportSecurity×σ}
    {run : List (Operation σ)}
    (h : Receives x ops e.header.domain start ((machine σ).trace start run)
      ((machine σ).after start run)) :
    ((machine σ).after start run).1.replay.wouldAccept e.header.domain e.header.sequence=true ↔
      Admissible ((machine σ).trace start run) start.1.replay.windowSize protocol e := by
  apply fresh_iff_of_unique hx sent
  · intro host' protocol' plaintext' f sent' _ sequence
    exact (Sent.agree hx hops sent sent').2 sequence
  · exact h

/-- An envelope of the sender's session, arriving under its own protocol at a receiver that knows
nothing of its domain at the start, is accepted exactly when no earlier arrival of it was and
everything accepted in the domain is less than the window above it; its payload comes out as sent. -/
theorem arrival_accepted_iff (config : TransportSecurityConfig) (r : ρ)
    (before ops : List (Operation ρ)) (hops : ∀op∈ops,op.isSetConfig=false)
    (keyed : (reached config r before).1.config.outboundKeyID≠0)
    (host : Host ρ) (protocol : UInt8) (plaintext : Span) (e : Envelope)
    (sent : Sent (reached config r before) ops host protocol plaintext e)
    (config' : TransportSecurityConfig) (r' : σ) (before' run : List (Operation σ))
    (unknown : (reached config' r' before').1.replay.find e.header.domain=none)
    (arrivals : (machine σ).Along (ReceiverStep (reached config r before) ops e.header.domain)
      (reached config' r' before') run)
    (receiver : Host σ)
    (agrees : Agrees host receiver (reached config r before).1.config.outboundAlgorithm
      (reached config r before).1.config.outboundKeyID)
    (bounded : plaintext.size≤(reached config' r' before').1.config.maximumPlaintextBytes)
    (sized : e.bytes.length≤SecurityBuffer.maxSize receiver.sizeBits) :
    ((unprotect receiver ((machine σ).after (reached config' r' before') run).1 protocol
        (.bytes e.bytes)).result.success=true ↔
      Admissible ((machine σ).trace (reached config' r' before') run)
        (ReplayWindow.clamp (reached config' r' before').1.config.replayWindowSize) protocol e) ∧
    ((unprotect receiver ((machine σ).after (reached config' r' before') run).1 protocol
        (.bytes e.bytes)).result.success=true →
      (unprotect receiver ((machine σ).after (reached config' r' before') run).1 protocol
          (.bytes e.bytes)).result=.ok true ∧
      (unprotect receiver ((machine σ).after (reached config' r' before') run).1 protocol
          (.bytes e.bytes)).payload=
        received (reached config r before).1.config e.header.sessionID e.header.sequence protocol
          plaintext.content) := by
  have hx : (reached config r before).1.Consistent :=
    run_consistent (new config,r) before (new_consistent config)
  obtain ⟨past,cipher,key,follows,emits⟩ := sent.emits hops
  have hp := run_consistent (reached config r before) past hx
  have h := run_receives unknown run arrivals
  have fresh := fresh_iff hx hops sent h
  rw [run_window] at fresh
  rw [← follows.config] at agrees keyed
  rw [← h.config] at bounded
  have accepts := emits.accepted hp keyed agrees bounded sized
  refine ⟨⟨fun ok => fresh.mp (succeeded_fresh emits.carries.magic ok),?_⟩,?_⟩
  · intro admissible
    rw [(accepts (fresh.mpr admissible)).1]
    rfl
  · intro ok
    obtain ⟨result,payload⟩ := accepts (succeeded_fresh emits.carries.magic ok)
    refine ⟨result,payload.trans ?_⟩
    rw [emits.carries.payload,follows.config]

theorem testHost_agrees (algorithm : AeadAlgorithm) (keySize nonceSize tagSize : Nat)
    (keyID : UInt32) (key : Bytes) :
    Agrees (testHost (TinyCipher algorithm keySize nonceSize tagSize) keyID key)
      (testHost (TinyCipher algorithm keySize nonceSize tagSize) keyID key) algorithm keyID := by
  have found : (testHost (TinyCipher algorithm keySize nonceSize tagSize) keyID key).ciphers.find
      algorithm=some (TinyCipher algorithm keySize nonceSize tagSize) := by
    have h := AeadCipherRegistry.find_register AeadCipherRegistry.empty
      (TinyCipher algorithm keySize nonceSize tagSize) algorithm
    exact h.trans (by simp [TinyCipher,AeadCipherRegistry.find,AeadCipherRegistry.empty,
      KeyedTable.lookup])
  refine ⟨?_,fun k hk => ⟨k,hk,rfl⟩⟩
  intro c hc
  rw [found] at hc
  obtain rfl := Option.some.inj hc
  exact ⟨_,found,rfl,rfl,rfl,TinyCipher.opens algorithm keySize nonceSize tagSize⟩

/-- The second envelope arrives first, arrives again, and something else does; then the first one is
accepted, and is refused when it arrives again. -/
theorem arrival_accepted_overtaken :
    let host := testHost (TinyCipher .testOnly 2 2 2) 1 [1,2]
    let config : TransportSecurityConfig := {outboundAlgorithm := .testOnly,sessionID := 7}
    let sender := protect host (new config) 1 3 (.bytes [9])
    let second := (protect host sender.security sender.random 3 (.bytes [8])).output
    let run : List (Operation UInt8) := [.unprotect host 3 (.bytes second),
      .unprotect host 3 (.bytes second),.unprotect host 3 (.bytes [1,2,3])]
    let arrival : Operation UInt8 := .unprotect host 3 (.bytes sender.output)
    let now := ((machine UInt8).after (reached config 1 []) run).1
    let later := ((machine UInt8).after (reached config 1 []) (run++[arrival])).1
    (history config 1 run).map (fun z => committed z.2)=[some (⟨0,1,7⟩,2),none,none] ∧
    (unprotect host now 3 (.bytes sender.output)).result.success=true ∧
    (unprotect host now 3 (.bytes sender.output)).payload=received config 7 1 3 [9] ∧
    (unprotect host later 3 (.bytes sender.output)).result.success=false := by
  intro host config sender second run arrival now later
  let ops : List (Operation UInt8) := [.protect host 3 (.bytes [9]),.protect host 3 (.bytes [8])]
  have out : emitted (step (reached config 1 []) (.protect host 3 (.bytes [9]))).2=
      some sender.output := by decide
  have out' : emitted (step (reached config 1 [.protect host 3 (.bytes [9])])
      (.protect host 3 (.bytes [8]))).2=some second := by decide
  obtain ⟨_,_,e,_,he⟩ := emitted_protect out
  obtain ⟨_,_,f,_,hf⟩ := emitted_protect out'
  have header : e.header.domain=⟨0,1,7⟩ ∧ e.header.sequence=1 := by
    have hr := e.readHeader_bytes
    rw [he] at hr
    have hs : (readHeader sender.output).map (fun h => (h.domain,h.sequence))=
      some (⟨0,1,7⟩,1) := by decide
    rw [hr] at hs
    exact Prod.mk.inj (Option.some.inj hs)
  have differ : second≠sender.output := by decide
  rw [← he] at out
  rw [← hf] at out'
  have sent : Sent (reached config 1 []) ops host 3 (.bytes [9]) e := ⟨[],_,rfl,out⟩
  have sent' : Sent (reached config 1 []) ops host 3 (.bytes [8]) f := ⟨[_],[],rfl,out'⟩
  have overtakes : ∀ past y,ReceiverStep (reached config 1 []) ops e.header.domain past y
      (.unprotect host 3 (.bytes second)) :=
    fun _ _ => ⟨rfl,Or.inl ⟨host,host,3,_,f,sent',by rw [hf]⟩⟩
  have arrives : ∀ past y,ReceiverStep (reached config 1 []) ops e.header.domain past y arrival :=
    fun _ _ => ⟨rfl,Or.inl ⟨host,host,3,_,e,sent,by rw [he]⟩⟩
  have commits : (history config 1 run).map (fun z => committed z.2)=
      [some (⟨0,1,7⟩,2),none,none] := by decide
  have arrivals : (machine UInt8).Along (ReceiverStep (reached config 1 []) ops e.header.domain)
      (reached config 1 []) run := by
    refine Machine.Along.push _ (Machine.Along.push _
      (Machine.Along.push _ ((machine UInt8).along_nil _ _) (overtakes _ _)) (overtakes _ _)) ?_
    refine ⟨rfl,Or.inr ?_⟩
    intro q hq
    have none_new : committed (step ((machine UInt8).after (reached config 1 [])
        [.unprotect host 3 (.bytes second),.unprotect host 3 (.bytes second)])
        (.unprotect host 3 (.bytes [1,2,3]))).2=none := by decide
    exact absurd (none_new.symm.trans hq) (by simp)
  have accepted := arrival_accepted_iff config (1 : UInt8) [] ops
    (by simp [ops,Operation.isSetConfig]) (by decide) host 3 (.bytes [9]) e sent config (1 : UInt8) []
  have agrees := testHost_agrees .testOnly 2 2 2 1 [1,2]
  have sized : e.bytes.length≤SecurityBuffer.maxSize 64 := by rw [he]; decide
  have first := accepted run rfl arrivals host agrees (by decide) sized
  have again := accepted (run++[arrival]) rfl (Machine.Along.push _ arrivals (arrives _ _)) host
    agrees (by decide) sized
  have session : e.header.sessionID=7 := congrArg ReplayDomain.sessionID header.1
  rw [he,header.2,session] at first again
  have ok := first.1.mpr ?_
  · have refused := mt again.1.mp ?_
    · simp only [now,later]
      exact ⟨commits,ok,(first.2 ok).2,Bool.eq_false_of_not_eq_true refused⟩
    · intro admissible
      have closed := admissible.1 (arrival,(step ((machine UInt8).after (reached config 1 []) run)
        arrival).2) (by rw [(machine UInt8).trace_snoc]; simp [machine]) host (by rw [he]) _ _ _ rfl
      rw [ok] at closed
      exact absurd closed (by decide)
  · constructor
    · intro z hz receiver hop
      have mem : z.1∈run := by
        obtain ⟨past,future,split,_⟩ := (machine UInt8).mem_trace hz
        rw [split]
        simp
      rw [hop,he] at mem
      simp only [run,List.mem_cons,List.not_mem_nil,or_false,Operation.unprotect.injEq,
        Span.bytes.injEq] at mem
      obtain ⟨_,_,same⟩|⟨_,_,same⟩|⟨_,_,same⟩ := mem
      · exact absurd same.symm differ
      · exact absurd same.symm differ
      · exact absurd same (by decide)
    · rintro q ⟨z,hz,s,hc,rfl⟩
      have mem := List.mem_map_of_mem (f := fun z : Operation UInt8×Response => committed z.2) hz
      have listed : committed z.2∈[some (⟨0,1,7⟩,2),none,none] := commits ▸ mem
      rw [hc] at listed
      simp only [List.mem_cons,List.not_mem_nil,or_false,Option.some.injEq,Prod.mk.injEq,
        reduceCtorEq] at listed
      rw [listed.2,header.2]
      decide

end TransportSecurity
end ESPressioSecurity
