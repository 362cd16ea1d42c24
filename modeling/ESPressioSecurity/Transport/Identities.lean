import ESPressioSecurity.Model.TestDoubles
import ESPressioSecurity.Transport.Sessions

namespace ESPressioSecurity

open Framework

namespace TransportSecurity

variable {ρ : Type}

/-- Session and sequence in the header of an envelope. -/
def identity (envelope : Bytes) : Option (UInt64×UInt64) :=
  (readHeader envelope).map (fun h => (h.sessionID,h.sequence))

/-- The identity a call put on the wire. -/
def outboundID (x : Operation ρ×Response) : Option (UInt64×UInt64) := (emitted x.2).bind identity

/-- A call that makes a session ready must not bring back one that envelopes were emitted in: an
installed identifier is zero or new, and so is one that `Protect` draws. -/
def FreshSession (past : List (Operation ρ×Response)) (x : TransportSecurity×ρ)
    (op : Operation ρ) : Prop :=
  op.isSetConfig=true ∨ x.1.sessionReady=false →
  (step x op).1.1.sessionReady=true →
  ∀ id∈past.filterMap outboundID,id.1≠(step x op).1.1.sessionID

/-- The identities emitted so far: each session's lie below the counter while it lasts. -/
structure Identities (past : List (Operation ρ×Response)) (x : TransportSecurity×ρ) : Prop where
  consistent : x.1.Consistent
  nonzero : ∀ id∈past.filterMap outboundID,id.1≠0 ∧ id.2≠0
  below : ∀ id∈past.filterMap outboundID,id.1=x.1.sessionID →
    id.2.toNat<x.1.nextSequence.toNat
  nodup : (past.filterMap outboundID).Nodup

/-- The identity of an emitted envelope is the session that is ready afterwards with the number
just taken. -/
theorem outboundID_some {x : TransportSecurity×ρ} {op : Operation ρ} {id : UInt64×UInt64}
    (h : outboundID (op,(step x op).2)=some id) :
    op.isSetConfig=false ∧ id.2=x.1.nextSequence ∧ x.1.nextSequence≠0 ∧
      (step x op).1.1.sessionReady=true ∧ id.1=(step x op).1.1.sessionID ∧
      (step x op).1.1.nextSequence.toNat=id.2.toNat+1 := by
  obtain ⟨b,hb,hi⟩ := Option.bind_eq_some_iff.mp h
  obtain ⟨host,protocol,plaintext,cipher,key,e,rfl,he,rfl⟩ := emitted_some hb
  have hid : (e.header.sessionID,e.header.sequence)=id := by
    rw [identity,e.readHeader_bytes] at hi
    exact Option.some.inj hi
  have hc := ensureSessionID_counter host x.1 x.2
  have hq : id.2=x.1.nextSequence := by
    rw [← hid,he.seals.header]
    exact hc
  have after : (step x (.protect host protocol plaintext)).1.1=
      (ensureSessionID host x.1 x.2).security.consumeSequence := he.after
  have hne : x.1.nextSequence≠maxSequence := hc ▸ he.counter.2
  refine ⟨rfl,hq,hc ▸ he.counter.1,?_,?_,?_⟩
  · rw [after]
    exact ensureSessionID_ready he.session
  · rw [after,← hid,he.seals.header]
    rfl
  · rw [after,hq]
    show ((ensureSessionID host x.1 x.2).security.nextSequence+1).toNat=_
    rw [hc]
    exact succ_toNat hne

theorem identities_new (config : TransportSecurityConfig) (r : ρ) :
    Identities [] ((new config : TransportSecurity),r) :=
  ⟨new_consistent config,by simp,by simp,by simp⟩

/-- A ready session after a call was ready before it or is fresh. -/
theorem session_kept {past : List (Operation ρ×Response)} {x : TransportSecurity×ρ}
    {op : Operation ρ} (hf : FreshSession past x op) (hc : x.1.Consistent)
    {id : UInt64×UInt64} (hid : id∈past.filterMap outboundID) (hz : id.1≠0)
    (he : id.1=(step x op).1.1.sessionID) : op.isSetConfig=false ∧ id.1=x.1.sessionID := by
  have ready : (step x op).1.1.sessionReady=true :=
    (step_consistent x op hc).ready_iff.mpr (he ▸ hz)
  have old : ¬(op.isSetConfig=true ∨ x.1.sessionReady=false) :=
    fun hn => hf hn ready id hid he
  simp only [not_or,Bool.not_eq_true,Bool.not_eq_false] at old
  refine ⟨old.1,?_⟩
  rw [he]
  exact ((step_follows x op old.1).session old.2).2

theorem identities_step {past : List (Operation ρ×Response)} {x : TransportSecurity×ρ}
    {op : Operation ρ} (h : Identities past x) (hf : FreshSession past x op) :
    Identities (past++[(op,(step x op).2)]) (step x op).1 := by
  have consistent := step_consistent x op h.consistent
  have below : ∀ id∈past.filterMap outboundID,id.1=(step x op).1.1.sessionID →
      id.2.toNat<(step x op).1.1.nextSequence.toNat := by
    intro id hid he
    obtain ⟨hop,hold⟩ := session_kept hf h.consistent hid (h.nonzero id hid).1 he
    exact lt_of_lt_of_le (h.below id hid hold) (step_follows x op hop).counter
  cases hi : outboundID (op,(step x op).2) with
  | none =>
    have same : (past++[(op,(step x op).2)]).filterMap outboundID=past.filterMap outboundID := by
      simp [hi]
    refine ⟨consistent,?_,?_,?_⟩
    · rw [same]
      exact h.nonzero
    · rw [same]
      exact below
    · rw [same]
      exact h.nodup
  | some id =>
    obtain ⟨hop,hq,hz,ready,hs,hn⟩ := outboundID_some hi
    have more : (past++[(op,(step x op).2)]).filterMap outboundID=
        past.filterMap outboundID++[id] := by
      simp [hi]
    refine ⟨consistent,?_,?_,?_⟩
    · rw [more]
      intro j hj
      rcases List.mem_append.mp hj with hj|hj
      · exact h.nonzero j hj
      · have hji : j=id := by simpa using hj
        rw [hji,hs,hq]
        exact ⟨consistent.ready_iff.mp ready,hz⟩
    · rw [more]
      intro j hj he
      rcases List.mem_append.mp hj with hj|hj
      · exact below j hj he
      · have hji : j=id := by simpa using hj
        rw [hji,hn]
        omega
    · rw [more]
      apply List.Nodup.append h.nodup (by simp)
      intro j hj hji
      have he : j=id := by simpa using hji
      subst he
      obtain ⟨_,hold⟩ := session_kept hf h.consistent hj (h.nonzero j hj).1 hs
      have hlt := h.below j hj hold
      rw [hq] at hlt
      omega

theorem run_identities (config : TransportSecurityConfig) (r : ρ) (ops : List (Operation ρ))
    (h : (machine ρ).Along FreshSession (new config,r) ops) :
    Identities ((machine ρ).trace (new config,r) ops) ((machine ρ).after (new config,r) ops) :=
  (machine ρ).invariant (identities_new config r) (fun _ _ _ hi hf => identities_step hi hf) ops h

/-- With the counter at its last value, a call that gets past the session step fails. -/
theorem protect_exhausted {host : Host ρ} {s : TransportSecurity} {plaintext : Span}
    {cipher : IAeadCipher} {key : KeyMaterialView} (ready : Ready host s plaintext cipher key)
    (r : ρ) (protocol : UInt8) (session : (ensureSessionID host s r).ok=true)
    (last : s.nextSequence=maxSequence) :
    (protect host s r protocol plaintext).result=.fail .sequenceExhausted
        "Outbound sequence exhausted; establish a new session before continuing" ∧
      (protect host s r protocol plaintext).output=[] := by
  have hc := (ensureSessionID_counter host s r).trans last
  have hs : ¬(ensureSessionID host s r).ok=false := by simp [session]
  rw [protect_ready ready]
  unfold protectReady
  dsimp only
  rw [if_neg hs,if_pos (Or.inr hc)]
  exact ⟨rfl,rfl⟩

/-- Within an epoch an emitted identity names the session for good and moves the counter past it. -/
theorem epoch_order {x : TransportSecurity×ρ} {a b : Operation ρ} {mid : List (Operation ρ)}
    {i j : UInt64×UInt64} (hc : x.1.Consistent) (hmid : ∀op∈mid,op.isSetConfig=false)
    (ha : outboundID (a,(step x a).2)=some i)
    (hb : outboundID (b,(step ((machine ρ).after (step x a).1 mid) b).2)=some j) :
    i.1=j.1 ∧ i.1≠0 ∧ 0 < i.2.toNat ∧ i.2.toNat<j.2.toNat := by
  obtain ⟨_,hi,hz,ready,hs,hn⟩ := outboundID_some ha
  obtain ⟨hop,hj,_,_,ht,_⟩ := outboundID_some hb
  have hca := step_consistent x a hc
  have hf := run_follows (step x a).1 mid hmid
  obtain ⟨ready',same⟩ := hf.session ready
  have same' := ((step_follows ((machine ρ).after (step x a).1 mid) b hop).session ready').2
  refine ⟨?_,?_,?_,?_⟩
  · rw [hs,ht,same',same]
  · rw [hs]
    exact hca.ready_iff.mp ready
  · rw [hi]
    have : x.1.nextSequence.toNat≠0 := fun he => hz (UInt64.toNat_inj.mp he)
    omega
  · have hle := hf.counter
    rw [hj]
    omega

/-- With the counter at its last value nothing is emitted, and it stays there until `SetConfig`. -/
theorem exhausted_quiet {x : TransportSecurity×ρ} (last : x.1.nextSequence=maxSequence)
    (op : Operation ρ) : emitted (step x op).2=none := by
  cases he : emitted (step x op).2 with
  | none => rfl
  | some b =>
    obtain ⟨host,protocol,plaintext,cipher,key,e,rfl,h,_⟩ := emitted_some he
    exact absurd ((ensureSessionID_counter host x.1 x.2).trans last) h.counter.2

theorem follows_last {s t : TransportSecurity} (h : Follows s t)
    (last : s.nextSequence=maxSequence) : t.nextSequence=maxSequence := by
  have hle := h.counter
  have hlt := t.nextSequence.toNat_lt
  rw [last] at hle
  apply UInt64.toNat_inj.mp
  change 2^64-1≤t.nextSequence.toNat at hle
  show t.nextSequence.toNat=2^64-1
  omega

/-- Over every run in which no session comes back: no identity is emitted twice; the envelopes of
one epoch share a session and count up; and the counter stops at its last value, where a call that
gets past the session step fails, until `SetConfig` starts another epoch. -/
theorem outbound_identity_unique (config : TransportSecurityConfig) (r : ρ)
    (ops : List (Operation ρ)) (fresh : (machine ρ).Along FreshSession (new config,r) ops) :
    ((history config r ops).filterMap outboundID).Nodup ∧
    (∀ id∈(history config r ops).filterMap outboundID,id.1≠0 ∧ id.2≠0) ∧
    (∀ past a mid b future,ops=past++a::(mid++b::future) → (∀op∈mid,op.isSetConfig=false) →
      ∀ i j,outboundID (a,(step (reached config r past) a).2)=some i →
      outboundID (b,(step (reached config r (past++a::mid)) b).2)=some j → i.1=j.1 ∧ i.2<j.2) ∧
    (∀ past mid future,ops=past++mid++future → (∀op∈mid,op.isSetConfig=false) →
      (reached config r past).1.nextSequence≤(reached config r (past++mid)).1.nextSequence ∧
      ((reached config r past).1.nextSequence=maxSequence →
        (reached config r (past++mid)).1.nextSequence=maxSequence ∧
        (∀ op,emitted (step (reached config r (past++mid)) op).2=none) ∧
        ∀ (host : Host ρ) plaintext cipher key protocol,
          Ready host (reached config r (past++mid)).1 plaintext cipher key →
          (ensureSessionID host (reached config r (past++mid)).1
            (reached config r (past++mid)).2).ok=true →
          ∃ message effects,(step (reached config r (past++mid))
            (.protect host protocol plaintext)).2=
              .outbound (.fail .sequenceExhausted message) [] effects)) := by
  have h := run_identities config r ops fresh
  refine ⟨h.nodup,h.nonzero,?_,?_⟩
  · intro past a mid b future _ hmid i j ha hb
    have hc := run_consistent (new config,r) past (new_consistent config)
    rw [reached,(machine ρ).after_append] at hb
    obtain ⟨same,_,_,lt⟩ := epoch_order hc hmid ha hb
    exact ⟨same,UInt64.lt_iff_toNat_lt.mpr lt⟩
  · intro past mid future _ hmid
    have hf := run_follows (reached config r past) mid hmid
    rw [reached,← (machine ρ).after_append] at hf
    refine ⟨UInt64.le_iff_toNat_le.mpr hf.counter,?_⟩
    intro last
    have stays := follows_last hf last
    refine ⟨stays,exhausted_quiet stays,?_⟩
    intro host plaintext cipher key protocol ready session
    obtain ⟨he,ho⟩ := protect_exhausted ready _ protocol session stays
    refine ⟨"Outbound sequence exhausted; establish a new session before continuing",
      (protect host (reached config r (past++mid)).1 (reached config r (past++mid)).2 protocol
        plaintext).effects,?_⟩
    simp only [step,he,ho]

/-- `FreshSession` as a check on the identities emitted so far. -/
theorem freshSession_of_all {past : List (Operation ρ×Response)} {x : TransportSecurity×ρ}
    {op : Operation ρ} (h : op.isSetConfig=false ∧ x.1.sessionReady=true ∨
      (past.filterMap outboundID).all (fun id => id.1≠(step x op).1.1.sessionID)=true) :
    FreshSession past x op := by
  intro starts _ id hid
  obtain ⟨plain,ready⟩|all := h
  · rw [plain,ready] at starts
    exact absurd starts (by decide)
  · simpa using List.all_eq_true.mp all id hid

/-- Two payloads under one session, one under the next and one under a drawn session: every session
counts from one. -/
theorem outbound_identity_unique_sessions :
    let config : TransportSecurityConfig := {outboundAlgorithm := .testOnly,sessionID := 7}
    let host := testHost (TinyCipher .testOnly 2 2 2) 1 [1,2]
    let protects : Operation UInt8 := .protect host 3 (.bytes [9])
    let ops : List (Operation UInt8) := [protects,protects,.setConfig {config with sessionID := 8},
      protects,.setConfig {config with sessionID := 0},protects]
    (history config 1 ops).filterMap outboundID=
      [(7,1),(7,2),(8,1),(0x0E0D0C0B0A090807,1)] ∧
    ((history config 1 ops).filterMap outboundID).Nodup := by
  intro config host protects ops
  refine ⟨by decide +kernel,(outbound_identity_unique config 1 ops ?_).1⟩
  have start := (machine UInt8).along_nil FreshSession (new config,1)
  have first := Machine.Along.push _ start (a := protects) (freshSession_of_all (by decide +kernel))
  have second := Machine.Along.push _ first (a := protects) (freshSession_of_all (by decide +kernel))
  have third := Machine.Along.push _ second (a := .setConfig {config with sessionID := 8})
    (freshSession_of_all (by decide +kernel))
  have fourth := Machine.Along.push _ third (a := protects) (freshSession_of_all (by decide +kernel))
  have fifth := Machine.Along.push _ fourth (a := .setConfig {config with sessionID := 0})
    (freshSession_of_all (by decide +kernel))
  exact Machine.Along.push _ fifth (a := protects) (freshSession_of_all (by decide +kernel))

end TransportSecurity
end ESPressioSecurity
