import ESPressioSecurity.Transport.Sessions

namespace ESPressioSecurity

open Framework

namespace TransportSecurity

variable {ρ : Type}

/-- The notifications among the effects, in order. -/
def heard (effects : List Effect) : List Notification :=
  effects.filterMap fun
    | .notified n => some n
    | _ => none

/-- An observer's account of the session identifier: a reset must name the tracked session, and only
an empty place can be filled. -/
def track (tracked : UInt64) : Notification → Option UInt64
  | .sessionReset previous => if tracked=previous ∧ previous≠0 then some 0 else none
  | .sessionEstablished sessionID =>
    if tracked=0 ∧ sessionID≠0 then some sessionID else none
  | _ => some tracked

/-- What an observer should be told about a call that returned this result. -/
def reported (result : SecurityResult) : List Notification :=
  if result.success then [] else [.failure result]

theorem heard_append (a b : List Effect) : heard (a++b)=heard a++heard b :=
  List.filterMap_append

@[simp] theorem heard_filled (call : FillCall) : heard [.filled call]=[] := rfl
@[simp] theorem heard_sealed (call : SealCall) : heard [.sealed call]=[] := rfl
@[simp] theorem heard_opening (input : Bytes) (h : Header) (cipher : IAeadCipher)
    (key : KeyMaterialView) : heard (openingEffects input h cipher key)=[] := rfl

theorem heard_notify {s : TransportSecurity} (watched : s.observable=true) (n : Notification) :
    heard (s.notify n)=[n] := by
  rw [notify,if_pos watched]
  rfl

theorem heard_draws (source : IRandomSource ρ) (n : Nat) (r : ρ) :
    heard (drawSessionID source n r).2.2=[] := by
  induction n generalizing r with
  | zero => rfl
  | succ n ih =>
    rw [drawSessionID]
    dsimp only
    split_ifs with hk hz
    · rfl
    · rfl
    · exact ih _

/-! ### The session as one call tells it -/

/-- The session notifications of a call of `Protect`: none, or that a session was established where
there was none. -/
inductive Tells (s t : TransportSecurity) : List Notification → Prop
  | same (h : t.sessionID=s.sessionID) : Tells s t []
  | established (fresh : s.sessionReady=false) (nonzero : t.sessionID≠0) :
      Tells s t [.sessionEstablished t.sessionID]

theorem Tells.tracked {s t : TransportSecurity} {ns : List Notification} (h : Tells s t ns)
    (consistent : s.Consistent) : ns.foldlM track s.sessionID=some t.sessionID := by
  cases h with
  | same h =>
    rw [h]
    rfl
  | established fresh nonzero =>
    have none : s.sessionID=0 := by
      by_contra hz
      rw [consistent.ready_iff.mpr hz] at fresh
      exact absurd fresh (by decide)
    have told : track s.sessionID (.sessionEstablished t.sessionID)=some t.sessionID :=
      if_pos ⟨none,nonzero⟩
    rw [List.foldlM_cons,told]
    rfl

/-- Only the session identifier of the later state matters. -/
theorem Tells.congr {s t u : TransportSecurity} {ns : List Notification} (h : Tells s t ns)
    (same : u.sessionID=t.sessionID) : Tells s u ns := by
  cases h with
  | same h => exact .same (same.trans h)
  | established fresh nonzero =>
    rw [← same] at nonzero ⊢
    exact .established fresh nonzero

theorem ensureSessionID_observable (host : Host ρ) (s : TransportSecurity) (r : ρ) :
    (ensureSessionID host s r).security.observable=s.observable := by
  obtain he|⟨sessionID,_,_,he⟩ := ensureSessionID_step host s r
  · rw [he]
  · rw [he]
    rfl

theorem ensureSessionID_tells {s : TransportSecurity} (watched : s.observable=true)
    (host : Host ρ) (r : ρ) : Tells s (ensureSessionID host s r).security
      (heard (ensureSessionID host s r).effects) := by
  have silent := heard_draws host.random 4 r
  unfold ensureSessionID
  split_ifs with hr hc
  · exact .same rfl
  · rw [heard_notify watched]
    exact .established (by simpa using hr) hc
  · dsimp only
    split
    · rename_i c hd
      rw [heard_append,silent,heard_notify watched]
      exact .established (by simpa using hr) (drawSessionID_ne_zero host.random 4 r c hd)
    · rw [silent]
      exact .same rfl

/-- A call of `Protect` tells about its session first and about its failure last. -/
theorem protect_heard {s : TransportSecurity} (watched : s.observable=true) (host : Host ρ) (r : ρ)
    (protocol : UInt8) (plaintext : Span) :
    ∃ session,Tells s (protect host s r protocol plaintext).security session ∧
      heard (protect host s r protocol plaintext).effects=
        session++reported (protect host s r protocol plaintext).result := by
  have tells := ensureSessionID_tells watched host r
  have still : (ensureSessionID host s r).security.observable=true := by
    rw [ensureSessionID_observable]
    exact watched
  have hc := protect_case host s r protocol plaintext
  generalize protect host s r protocol plaintext=out at hc ⊢
  cases hc with
  | refused error message => exact ⟨[],.same rfl,heard_notify watched _⟩
  | passed h => exact ⟨[],.same rfl,rfl⟩
  | stopped error message =>
    refine ⟨_,tells,?_⟩
    rw [refuse,heard_append,heard_notify still]
    rfl
  | attempted cipher key out h ok counter sealing =>
    have consumed : (ensureSessionID host s r).security.consumeSequence.observable=true := still
    refine ⟨heard (ensureSessionID host s r).effects,?_,?_⟩
    · rw [sealing.security]
      exact tells.congr rfl
    · cases sealing with
      | unallocated =>
        rw [refuse,heard_append,heard_notify consumed]
        rfl
      | unfilled failed =>
        rw [refuse,heard_append,heard_append,heard_filled,List.append_nil,heard_notify consumed]
        rfl
      | unsealed call failed filled nonce =>
        rw [refuse,heard_append,heard_append,heard_append,heard_filled,heard_sealed,
          List.append_nil,List.append_nil,heard_notify consumed]
        rfl
      | sealed e he =>
        rw [heard_append,heard_append,heard_filled,heard_sealed,List.append_nil]
        rfl

/-- A call of `Unprotect` tells about its failure and nothing else; where it throws it tells nothing. -/
theorem unprotect_heard {s : TransportSecurity} (watched : s.observable=true) (host : Host ρ)
    (expectedProtocol : UInt8) (input : Span) :
    heard (unprotect host s expectedProtocol input).effects=
      if threw (unprotect host s expectedProtocol input).effects then []
      else reported (unprotect host s expectedProtocol input).result := by
  have hc := unprotect_case host s expectedProtocol input
  generalize unprotect host s expectedProtocol input=out at hc ⊢
  have failing : ∀ effects error message,heard effects=[] → threw effects=false →
      heard (reject s effects error message).effects=
        if threw (reject s effects error message).effects then []
        else reported (reject s effects error message).result := by
    intro effects error message silent returned
    rw [reject,heard_append,silent,heard_notify watched,threw_append,returned,notify_returned]
    rfl
  cases hc with
  | rejected error message => exact failing [] error message rfl rfl
  | passed valid plain policy => rfl
  | thrown h cipher key checked large => rfl
  | unopened h cipher key admitted reason error message =>
    exact failing _ error message (heard_opening ..) rfl
  | accepted h cipher key admitted opened protocol => rfl

theorem setConfig_heard {s : TransportSecurity} (watched : s.observable=true)
    (config : TransportSecurityConfig) : heard (s.setConfig config).2=
      [.configurationChanged s.config config]++
      (if s.sessionID≠0 ∧ s.sessionID≠config.sessionID then [.sessionReset s.sessionID] else [])++
      (if config.sessionID≠0 ∧ config.sessionID≠s.sessionID then
        [.sessionEstablished config.sessionID] else []) := by
  unfold setConfig
  simp only [heard_append,heard_notify watched,apply_ite heard,decide_eq_true_eq]
  rfl

/-! ### The session as a run tells it -/

theorem tracked_failure (tracked : UInt64) (result : SecurityResult) :
    (reported result).foldlM track tracked=some tracked := by
  unfold reported
  split_ifs <;> rfl

theorem setConfig_tracked {s : TransportSecurity} (watched : s.observable=true)
    (config : TransportSecurityConfig) :
    (heard (s.setConfig config).2).foldlM track s.sessionID=some config.sessionID := by
  have changed : [Notification.configurationChanged s.config config].foldlM track s.sessionID=
      some s.sessionID := rfl
  rw [setConfig_heard watched,List.append_assoc,List.foldlM_append,changed]
  by_cases same : s.sessionID=config.sessionID
  · simp [same]
  by_cases old : s.sessionID=0
  · by_cases new : config.sessionID=0
    · exact absurd (old.trans new.symm) same
    · simp [old,new,track]
  · by_cases new : config.sessionID=0
    · simp [old,new,track]
    · simp [old,new,same,Ne.symm same,track]

theorem step_observable (x : TransportSecurity×ρ) (op : Operation ρ)
    (watched : x.1.observable=true) : (step x op).1.1.observable=true := by
  cases op with
  | protect host protocol plaintext =>
    obtain ⟨a,b,c,he⟩ := protect_keeps host x.1 x.2 protocol plaintext
    show (protect host x.1 x.2 protocol plaintext).security.observable=true
    rw [he]
    exact watched
  | unprotect host expectedProtocol input =>
    obtain ⟨w,he⟩ := unprotect_keeps host x.1 expectedProtocol input
    show (unprotect host x.1 expectedProtocol input).security.observable=true
    rw [he]
    exact watched
  | setConfig config => exact watched
  | resetReplayProtection => exact watched
  | registerObserver => rfl

theorem step_tracked (x : TransportSecurity×ρ) (op : Operation ρ) (consistent : x.1.Consistent)
    (watched : x.1.observable=true) :
    (heard (step x op).2.effects).foldlM track x.1.sessionID=some (step x op).1.1.sessionID := by
  cases op with
  | protect host protocol plaintext =>
    obtain ⟨session,tells,he⟩ := protect_heard watched host x.2 protocol plaintext
    simp only [step,Response.effects]
    rw [he,List.foldlM_append,tells.tracked consistent]
    exact tracked_failure _ _
  | unprotect host expectedProtocol input =>
    obtain ⟨w,he⟩ := unprotect_keeps host x.1 expectedProtocol input
    simp only [step,Response.effects]
    rw [unprotect_heard watched,he]
    split_ifs
    · rfl
    · exact tracked_failure _ _
  | setConfig config => exact setConfig_tracked watched config
  | resetReplayProtection =>
    simp only [step,Response.effects,resetReplayProtection,heard_notify watched]
    rfl
  | registerObserver => rfl

end TransportSecurity
end ESPressioSecurity
