import ESPressioSecurity.Transport.Operations

namespace ESPressioSecurity

open Framework

namespace TransportSecurity

variable {ρ : Type}

/-- Session flag, identifier and counter agree. -/
structure Consistent (s : TransportSecurity) : Prop where
  ready_iff : s.sessionReady=true ↔ s.sessionID≠0
  counter : s.nextSequence≠0

/-- What the calls between two `SetConfig` leave alone: a ready session stays, and the counter does
not go back. -/
structure Follows (s t : TransportSecurity) : Prop where
  config : t.config=s.config
  session : s.sessionReady=true → t.sessionReady=true ∧ t.sessionID=s.sessionID
  counter : s.nextSequence.toNat≤t.nextSequence.toNat

theorem Follows.refl (s : TransportSecurity) : Follows s s :=
  ⟨rfl,fun h => ⟨h,rfl⟩,le_refl _⟩

theorem Follows.trans {s t u : TransportSecurity} (h : Follows s t) (k : Follows t u) :
    Follows s u := by
  refine ⟨k.config.trans h.config,?_,le_trans h.counter k.counter⟩
  intro hs
  obtain ⟨ht,he⟩ := h.session hs
  obtain ⟨hu,hf⟩ := k.session ht
  exact ⟨hu,hf.trans he⟩

/-- The session step as a relation: a ready session is kept, another one may be established. -/
theorem ensureSessionID_step (host : Host ρ) (s : TransportSecurity) (r : ρ) :
    (ensureSessionID host s r).security=s ∨
    ∃ sessionID,s.sessionReady=false ∧ sessionID≠0 ∧
      (ensureSessionID host s r).security=s.establish sessionID := by
  have hc := ensureSessionID_cases host s r
  generalize ensureSessionID host s r=out at hc ⊢
  cases hc with
  | ready h => exact Or.inl rfl
  | established sessionID random effects fresh nonzero source quiet =>
    exact Or.inr ⟨sessionID,fresh,nonzero,rfl⟩
  | failed random effects fresh quiet => exact Or.inl rfl

theorem ensureSessionID_ready {host : Host ρ} {s : TransportSecurity} {r : ρ}
    (h : (ensureSessionID host s r).ok=true) :
    (ensureSessionID host s r).security.sessionReady=true := by
  have hc := ensureSessionID_cases host s r
  generalize ensureSessionID host s r=out at hc h ⊢
  cases hc with
  | ready hs => exact hs
  | established sessionID random effects fresh nonzero source quiet => rfl
  | failed random effects fresh quiet => exact absurd h (by simp)

theorem establish_follows (s : TransportSecurity) (sessionID : UInt64)
    (h : s.sessionReady=false) : Follows s (s.establish sessionID) := by
  refine ⟨rfl,?_,le_refl _⟩
  intro hs
  rw [h] at hs
  exact absurd hs (by decide)

theorem ensureSessionID_follows (host : Host ρ) (s : TransportSecurity) (r : ρ) :
    Follows s (ensureSessionID host s r).security := by
  obtain he|⟨sessionID,hs,_,he⟩ := ensureSessionID_step host s r
  · rw [he]
    exact Follows.refl s
  · rw [he]
    exact establish_follows s sessionID hs

theorem ensureSessionID_counter (host : Host ρ) (s : TransportSecurity) (r : ρ) :
    (ensureSessionID host s r).security.nextSequence=s.nextSequence := by
  obtain he|⟨sessionID,_,_,he⟩ := ensureSessionID_step host s r
  · rw [he]
  · rw [he]
    rfl

theorem ensureSessionID_consistent {s : TransportSecurity} (h : s.Consistent) (host : Host ρ)
    (r : ρ) : (ensureSessionID host s r).security.Consistent := by
  obtain he|⟨sessionID,_,hz,he⟩ := ensureSessionID_step host s r
  · rw [he]
    exact h
  · rw [he]
    exact ⟨iff_of_true rfl hz,h.counter⟩

theorem succ_toNat {q : UInt64} (h : q≠maxSequence) : (q+1).toNat=q.toNat+1 := by
  have hlt : q.toNat<2^64 := q.toNat_lt
  have hne : q.toNat≠2^64-1 := fun he => h (UInt64.toNat_inj.mp he)
  rw [UInt64.toNat_add]
  exact Nat.mod_eq_of_lt (by simp; omega)

theorem consume_follows {s : TransportSecurity} (h : s.nextSequence≠maxSequence) :
    Follows s s.consumeSequence := by
  refine ⟨rfl,fun hs => ⟨hs,rfl⟩,?_⟩
  show s.nextSequence.toNat≤(s.nextSequence+1).toNat
  rw [succ_toNat h]
  omega

theorem consume_consistent {s : TransportSecurity} (hc : s.Consistent)
    (h : s.nextSequence≠maxSequence) : s.consumeSequence.Consistent := by
  refine ⟨hc.ready_iff,?_⟩
  intro hz
  have he : (s.nextSequence+1).toNat=0 := by
    change s.nextSequence+1=0 at hz
    rw [hz]
    rfl
  rw [succ_toNat h] at he
  omega

theorem protect_follows (host : Host ρ) (s : TransportSecurity) (r : ρ) (protocol : UInt8)
    (plaintext : Span) : Follows s (protect host s r protocol plaintext).security := by
  obtain he|he|⟨_,hm,he⟩ := protect_security host s r protocol plaintext
  · rw [he]
    exact Follows.refl s
  · rw [he]
    exact ensureSessionID_follows host s r
  · rw [he]
    exact (ensureSessionID_follows host s r).trans (consume_follows hm)

theorem protect_consistent {s : TransportSecurity} (h : s.Consistent) (host : Host ρ) (r : ρ)
    (protocol : UInt8) (plaintext : Span) :
    (protect host s r protocol plaintext).security.Consistent := by
  obtain he|he|⟨_,hm,he⟩ := protect_security host s r protocol plaintext
  · rw [he]
    exact h
  · rw [he]
    exact ensureSessionID_consistent h host r
  · rw [he]
    exact consume_consistent (ensureSessionID_consistent h host r) hm

def withReplay (s : TransportSecurity) (w : ReplayWindow) : TransportSecurity :=
  {s with replay := w}

def withSession (s : TransportSecurity) (sessionID nextSequence : UInt64) (sessionReady : Bool) :
    TransportSecurity :=
  {s with sessionID := sessionID,nextSequence := nextSequence,sessionReady := sessionReady}

/-- `Unprotect` commits to the replay window what its response says. -/
theorem unprotect_security (host : Host ρ) (s : TransportSecurity) (expectedProtocol : UInt8)
    (input : Span) :
    (unprotect host s expectedProtocol input).security=
      s.withReplay (s.replay.record (committed (unprotect host s expectedProtocol input).response)) := by
  have hc := unprotect_case host s expectedProtocol input
  generalize unprotect host s expectedProtocol input=out at hc ⊢
  cases hc with
  | rejected error message => rfl
  | passed valid plain policy => rfl
  | thrown h cipher key checked large => rfl
  | unopened h cipher key admitted reason error message => rfl
  | accepted h cipher key admitted opened protocol => rfl

/-- `Unprotect` changes nothing but the replay window. -/
theorem unprotect_keeps (host : Host ρ) (s : TransportSecurity) (expectedProtocol : UInt8)
    (input : Span) :
    ∃ w,(unprotect host s expectedProtocol input).security=s.withReplay w :=
  ⟨_,unprotect_security host s expectedProtocol input⟩

/-- `Protect` changes nothing but the outbound session. -/
theorem protect_keeps (host : Host ρ) (s : TransportSecurity) (r : ρ) (protocol : UInt8)
    (plaintext : Span) :
    ∃ a b c,(protect host s r protocol plaintext).security=s.withSession a b c := by
  have session : ∃ a b c,(ensureSessionID host s r).security=s.withSession a b c := by
    obtain he|⟨sessionID,_,_,he⟩ := ensureSessionID_step host s r
    · exact ⟨s.sessionID,s.nextSequence,s.sessionReady,he⟩
    · exact ⟨sessionID,s.nextSequence,true,he⟩
  obtain he|he|⟨_,_,he⟩ := protect_security host s r protocol plaintext
  · exact ⟨s.sessionID,s.nextSequence,s.sessionReady,he⟩
  · rw [he]
    exact session
  · obtain ⟨a,b,c,hs⟩ := session
    rw [he,hs]
    exact ⟨a,b+1,c,rfl⟩

theorem new_consistent (config : TransportSecurityConfig) : (new config).Consistent := by
  have one : (1 : UInt64)≠0 := by decide
  unfold new
  dsimp only
  split_ifs with h
  · exact ⟨iff_of_true rfl h,one⟩
  · exact ⟨iff_of_false Bool.false_ne_true (fun hz => hz rfl),one⟩

theorem setConfig_consistent (s : TransportSecurity) (config : TransportSecurityConfig) :
    (s.setConfig config).1.Consistent := by
  have one : (1 : UInt64)≠0 := by decide
  refine ⟨?_,one⟩
  simp [setConfig]

theorem step_consistent (x : TransportSecurity×ρ) (op : Operation ρ) (h : x.1.Consistent) :
    (step x op).1.1.Consistent := by
  cases op with
  | protect host protocol plaintext => exact protect_consistent h host x.2 protocol plaintext
  | unprotect host expectedProtocol input =>
    obtain ⟨w,he⟩ := unprotect_keeps host x.1 expectedProtocol input
    show (unprotect host x.1 expectedProtocol input).security.Consistent
    rw [he]
    exact ⟨h.ready_iff,h.counter⟩
  | setConfig config => exact setConfig_consistent x.1 config
  | resetReplayProtection => exact ⟨h.ready_iff,h.counter⟩
  | registerObserver => exact ⟨h.ready_iff,h.counter⟩

theorem step_follows (x : TransportSecurity×ρ) (op : Operation ρ) (h : op.isSetConfig=false) :
    Follows x.1 (step x op).1.1 := by
  cases op with
  | protect host protocol plaintext => exact protect_follows host x.1 x.2 protocol plaintext
  | unprotect host expectedProtocol input =>
    obtain ⟨w,he⟩ := unprotect_keeps host x.1 expectedProtocol input
    show Follows x.1 (unprotect host x.1 expectedProtocol input).security
    rw [he]
    exact ⟨rfl,fun hs => ⟨hs,rfl⟩,le_refl _⟩
  | setConfig config => exact absurd h (by simp [Operation.isSetConfig])
  | resetReplayProtection => exact ⟨rfl,fun hs => ⟨hs,rfl⟩,le_refl _⟩
  | registerObserver => exact ⟨rfl,fun hs => ⟨hs,rfl⟩,le_refl _⟩

theorem run_consistent (x : TransportSecurity×ρ) (ops : List (Operation ρ))
    (h : x.1.Consistent) : ((machine ρ).after x ops).1.Consistent :=
  (machine ρ).invariant_state (I := fun u => u.1.Consistent) ops h
    (fun u op _ hu => step_consistent u op hu)

theorem run_follows (x : TransportSecurity×ρ) (ops : List (Operation ρ))
    (h : ∀op∈ops,op.isSetConfig=false) : Follows x.1 ((machine ρ).after x ops).1 :=
  (machine ρ).invariant_state (I := fun u => Follows x.1 u.1) ops (Follows.refl x.1)
    (fun u op hop hu => hu.trans (step_follows u op (h op hop)))

/-- A step commits to the replay window what its response says, and nothing else. -/
theorem step_replay (y : TransportSecurity×ρ) (op : Operation ρ) (h : op.isControl=false) :
    (step y op).1.1.config=y.1.config ∧
    (step y op).1.1.replay=y.1.replay.record (committed (step y op).2) := by
  cases op with
  | protect host protocol plaintext =>
    obtain ⟨a,b,c,he⟩ := protect_keeps host y.1 y.2 protocol plaintext
    simp only [step,committed,he]
    exact ⟨rfl,rfl⟩
  | unprotect host expectedProtocol input =>
    have he := unprotect_security host y.1 expectedProtocol input
    simp only [step,he]
    exact ⟨rfl,rfl⟩
  | setConfig config => exact absurd h (by simp [Operation.isControl])
  | resetReplayProtection => exact absurd h (by simp [Operation.isControl])
  | registerObserver => exact ⟨rfl,rfl⟩

end TransportSecurity
end ESPressioSecurity
