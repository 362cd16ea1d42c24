import ESPressioSecurity.Transport.RoundTrip

namespace ESPressioSecurity

open Framework

namespace TransportSecurity

variable {ρ σ : Type}

/-- Over a run in which no session comes back, the identity of an envelope tells which call put it
out, whatever keys, senders and sessions the calls before and after it worked with. -/
theorem Sent.unique {config : TransportSecurityConfig} {r : ρ} {ops : List (Operation ρ)}
    (fresh : (machine ρ).Along FreshSession (new config,r) ops) {host host' : Host ρ} {p p' : UInt8}
    {a a' : Span} {e e' : Envelope} (h : Sent (new config,r) ops host p a e)
    (h' : Sent (new config,r) ops host' p' a' e') (session : e.header.sessionID=e'.header.sessionID)
    (sequence : e.header.sequence=e'.header.sequence) : e=e' ∧ p=p' := by
  -- a later envelope has a number that none of the earlier ones had
  have later : ∀ past mid future a b (e e' : Envelope),ops=past++a::mid++b::future →
      emitted (step (reached config r past) a).2=some e.bytes →
      emitted (step (reached config r (past++a::mid)) b).2=some e'.bytes →
      (e.header.sessionID,e.header.sequence)≠(e'.header.sessionID,e'.header.sequence) := by
    intro past mid future a b e e' split he he' same
    have whole : ops=(past++a::mid++[b])++future := by simp [split]
    rw [whole] at fresh
    have nodup := (run_identities config r _ (Machine.Along.left (machine ρ) fresh)).nodup
    rw [(machine ρ).trace_snoc,List.filterMap_append] at nodup
    have old : (e.header.sessionID,e.header.sequence)∈
        ((machine ρ).trace (new config,r) (past++a::mid)).filterMap TransportSecurity.outboundID := by
      apply List.mem_filterMap.mpr
      refine ⟨(a,(step (reached config r past) a).2),?_,Sent.outboundID he⟩
      rw [(machine ρ).trace_append]
      exact List.mem_append_right _ List.mem_cons_self
    have again : (e.header.sessionID,e.header.sequence)∈
        [(b,(step (reached config r (past++a::mid)) b).2)].filterMap TransportSecurity.outboundID := by
      apply List.mem_filterMap.mpr
      refine ⟨_,List.mem_cons_self,?_⟩
      rw [same]
      exact Sent.outboundID he'
    exact (List.disjoint_of_nodup_append nodup) old again
  obtain ⟨past,future,hs,he⟩ := h
  obtain ⟨past',future',hs',he'⟩ := h'
  obtain ⟨rfl,hop⟩|⟨mid,rfl,_⟩|⟨mid,rfl,_⟩ := Machine.occurrences hs hs'
  · injection hop with hhost hprotocol hplain
    subst hhost; subst hprotocol; subst hplain
    rw [he] at he'
    exact ⟨Envelope.bytes_injective (Option.some.inj he'),rfl⟩
  · exact absurd (Prod.ext session sequence) (later past mid future' _ _ e e' hs' he he')
  · exact absurd (Prod.ext session.symm sequence.symm) (later past' mid future _ _ e' e hs he' he)

/-- An envelope put out at any point of a run that changes keys, algorithms, senders and sessions as it
likes, as long as no session comes back, and presented under its own protocol: with the key of that
moment still resolved, it is accepted exactly when no earlier arrival of it was and everything accepted
in its domain is less than the window above it; its payload comes out as sent. -/
theorem rollover_accepted_iff (config : TransportSecurityConfig) (r : ρ)
    (past future : List (Operation ρ)) (host : Host ρ) (protocol : UInt8) (plaintext : Span)
    (e : Envelope)
    (fresh : (machine ρ).Along FreshSession (new config,r)
      (past++.protect host protocol plaintext::future))
    (out : emitted (step (reached config r past) (.protect host protocol plaintext)).2=some e.bytes)
    (keyed : (reached config r past).1.config.outboundKeyID≠0)
    (config' : TransportSecurityConfig) (r' : σ) (before run : List (Operation σ))
    (unknown : (reached config' r' before).1.replay.find e.header.domain=none)
    (arrivals : (machine σ).Along
      (ReceiverStep (new config,r) (past++.protect host protocol plaintext::future) e.header.domain)
      (reached config' r' before) run)
    (receiver : Host σ)
    (agrees : Agrees host receiver (reached config r past).1.config.outboundAlgorithm
      (reached config r past).1.config.outboundKeyID)
    (bounded : plaintext.size≤(reached config' r' before).1.config.maximumPlaintextBytes)
    (sized : e.bytes.length≤SecurityBuffer.maxSize receiver.sizeBits) :
    ((unprotect receiver ((machine σ).after (reached config' r' before) run).1 protocol
        (.bytes e.bytes)).result.success=true ↔
      Admissible ((machine σ).trace (reached config' r' before) run)
        (ReplayWindow.clamp (reached config' r' before).1.config.replayWindowSize) protocol e) ∧
    ((unprotect receiver ((machine σ).after (reached config' r' before) run).1 protocol
        (.bytes e.bytes)).result.success=true →
      (unprotect receiver ((machine σ).after (reached config' r' before) run).1 protocol
          (.bytes e.bytes)).result=.ok true ∧
      (unprotect receiver ((machine σ).after (reached config' r' before) run).1 protocol
          (.bytes e.bytes)).payload=
        received (reached config r past).1.config e.header.sessionID e.header.sequence protocol
          plaintext.content) := by
  have start : (new config).Consistent := new_consistent config
  have hp : (reached config r past).1.Consistent := run_consistent (new config,r) past start
  have sent : Sent (new config,r) (past++.protect host protocol plaintext::future) host protocol
    plaintext e := ⟨past,future,rfl,out⟩
  obtain ⟨cipher,key,f,emits,hf⟩ := emitted_protect out
  rw [Envelope.bytes_injective hf] at emits
  have h := run_receives unknown run arrivals
  have admitted := fresh_iff_of_unique (x := (new config,r)) start sent
    (fun _ _ _ f sent' domain sequence =>
      sent.unique fresh sent' (congrArg ReplayDomain.sessionID domain) sequence) h
  rw [run_window] at admitted
  rw [← h.config] at bounded
  have accepts := emits.accepted hp keyed agrees bounded sized
  refine ⟨⟨fun ok => admitted.mp (succeeded_fresh emits.carries.magic ok),?_⟩,?_⟩
  · intro admissible
    rw [(accepts (admitted.mpr admissible)).1]
    rfl
  · intro ok
    obtain ⟨result,payload⟩ := accepts (succeeded_fresh emits.carries.magic ok)
    refine ⟨result,payload.trans ?_⟩
    rw [emits.carries.payload]

theorem agrees_self (host : Host ρ) (algorithm : AeadAlgorithm) (keyID : UInt32)
    (opens : ∀ c,host.ciphers.find algorithm=some c → OpensSealed c c) :
    Agrees host host algorithm keyID :=
  ⟨fun c hc => ⟨c,hc,rfl,rfl,rfl,opens c hc⟩,fun k hk => ⟨k,hk,rfl⟩⟩

/-- The sender goes over to another key and session. An envelope of before, overtaken by one of after,
is accepted by a receiver that holds both keys. -/
theorem rollover_accepted_overtaken :
    let keys := ((StaticKeyProvider.empty.add {} 1 .testOnly (.bytes [1,2])).2.add {} 2 .testOnly
      (.bytes [3,4])).2
    let host : Host UInt8 :=
      {testHost (TinyCipher .testOnly 2 2 2) 1 [1,2] with keys := keys.toProvider}
    let config : TransportSecurityConfig := {outboundAlgorithm := .testOnly,sessionID := 5}
    let next := {config with outboundKeyID := 2,sessionID := 6}
    let first := (protect host (new config) 1 3 (.bytes [9])).output
    let second := (protect host (new next) 3 3 (.bytes [8])).output
    let after := (machine UInt8).after (reached {} 0 []) [.unprotect host 3 (.bytes second)]
    after.1.replay.states.map ReplayWindow.State.domain=[⟨0,2,6⟩] ∧
    (unprotect host after.1 3 (.bytes first)).result.success=true ∧
    (unprotect host after.1 3 (.bytes first)).payload=received config 5 1 3 [9] := by
  intro keys host config next first second after
  refine ⟨by decide,?_⟩
  have out : emitted (step (reached config 1 []) (.protect host 3 (.bytes [9]))).2=some first := by
    decide
  obtain ⟨_,_,e,_,he⟩ := emitted_protect out
  have header : e.header.domain=⟨0,1,5⟩ ∧ e.header.sequence=1 := by
    have hr := e.readHeader_bytes
    rw [he] at hr
    have hs : (readHeader first).map (fun h => (h.domain,h.sequence))=some (⟨0,1,5⟩,1) := by decide
    rw [hr] at hs
    exact Prod.mk.inj (Option.some.inj hs)
  rw [← he] at out ⊢
  have fresh : (machine UInt8).Along FreshSession (new config,1)
      [.protect host 3 (.bytes [9]),.setConfig next,.protect host 3 (.bytes [8])] := by
    have one : (machine UInt8).Along FreshSession (new config,1) [.protect host 3 (.bytes [9])] :=
      Machine.Along.push _ ((machine UInt8).along_nil _ _)
        (fun _ _ id hid => absurd hid (by simp [Machine.trace]))
    have used : ((machine UInt8).trace (new config,1) [.protect host 3 (.bytes [9])]).filterMap
        outboundID=[(5,1)] := by decide
    have two : (machine UInt8).Along FreshSession (new config,1)
        [.protect host 3 (.bytes [9]),.setConfig next] := by
      refine Machine.Along.push _ one ?_
      intro _ _ id hid
      rw [used] at hid
      rw [List.mem_singleton.mp hid]
      decide
    exact Machine.Along.push _ two (fun hn => absurd hn (by decide))
  have apart : ∀ q,committed (step (reached {} (0 : UInt8) [])
      (.unprotect host 3 (.bytes second))).2≠some (e.header.domain,q) := by
    intro q hq
    have other : (committed (step (reached {} (0 : UInt8) [])
        (.unprotect host 3 (.bytes second))).2).map (·.1)=some ⟨0,2,6⟩ := by decide
    rw [hq,header.1] at other
    have key : (1 : UInt32)=2 := congrArg ReplayDomain.keyID (Option.some.inj other)
    exact absurd key (by decide)
  have arrivals : (machine UInt8).Along (ReceiverStep (new config,1)
      [.protect host 3 (.bytes [9]),.setConfig next,.protect host 3 (.bytes [8])] e.header.domain)
      (reached {} 0 []) [.unprotect host 3 (.bytes second)] :=
    Machine.Along.push _ ((machine UInt8).along_nil _ _) ⟨rfl,Or.inr apart⟩
  have agrees : Agrees host host .testOnly 1 := by
    apply agrees_self
    intro c hc
    rw [@testHost_find _ c 1 [1,2] _ hc]
    exact TinyCipher.opens .testOnly 2 2 2
  have arrival := rollover_accepted_iff config (1 : UInt8) []
    [.setConfig next,.protect host 3 (.bytes [8])] host 3 (.bytes [9]) e fresh out (by decide) {}
    (0 : UInt8) [] [.unprotect host 3 (.bytes second)] rfl arrivals host agrees (by decide)
    (by rw [he]; decide)
  have ok := arrival.1.mpr ?_
  · have session : e.header.sessionID=5 := congrArg ReplayDomain.sessionID header.1
    rw [session,header.2] at arrival
    simp only [after]
    exact ⟨ok,(arrival.2 ok).2⟩
  · have differ : second≠e.bytes := by
      rw [he]
      decide
    constructor
    · intro z hz receiver hop
      obtain rfl := List.mem_singleton.mp hz
      injection hop with _ _ hinput
      exact absurd (Span.bytes.inj hinput) differ
    · rintro q ⟨z,hz,sequence,hc,_⟩
      obtain rfl := List.mem_singleton.mp hz
      exact absurd hc (apart sequence)

end TransportSecurity
end ESPressioSecurity
