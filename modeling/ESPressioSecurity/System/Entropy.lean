import ESPressioSecurity.System.Deployment

namespace ESPressioSecurity

open Framework

/-- No call of the random source and no `Seal` among the effects. -/
def Idle (effects : List Effect) : Prop :=
  Quiet effects ∧ ∀ call,Effect.filled call∉effects

theorem idle_nil : Idle [] := ⟨quiet_nil,fun _ h => absurd h (by simp)⟩

theorem idle_of_notified {effects : List Effect} (h : ∀e∈effects,∃ n,e=Effect.notified n) :
    Idle effects := by
  refine ⟨quiet_of_notified h,?_⟩
  intro call hc
  obtain ⟨n,he⟩ := h _ hc
  exact absurd he (by simp)

/-- How one call spends random bytes: `draws` serve the session identifier alone, and after them
comes at most one `Fill`, for the nonce of the one `Seal` that follows it at once. -/
inductive Spends (found : Option IAeadCipher) (draws : List Effect) : List Effect → Prop
  | idle (rest : List Effect) (h : Idle rest) : Spends found draws (draws++rest)
  | unfilled (cipher : IAeadCipher) (h : found=some cipher) (bytes : Bytes) (rest : List Effect)
      (idle : Idle rest) :
      Spends found draws (draws++[.filled ⟨cipher.nonceSize,false,bytes⟩]++rest)
  | used (cipher : IAeadCipher) (h : found=some cipher) (call : SealCall)
      (length : call.nonce.length=cipher.nonceSize) (rest : List Effect) (idle : Idle rest) :
      Spends found draws
        (draws++[.filled ⟨cipher.nonceSize,true,call.nonce⟩]++[.sealed call]++rest)

/-- Every `Seal` comes right after a successful `Fill` of its nonce. -/
def Preceded (effects : List Effect) : Prop :=
  ∀ (i : Nat) (call : SealCall),effects[i]?=some (.sealed call) →
    ∃ j,i=j+1 ∧ effects[j]?=some (.filled ⟨call.nonce.length,true,call.nonce⟩)

theorem Quiet.preceded {effects : List Effect} (h : Quiet effects) : Preceded effects :=
  fun _ call hc => absurd (List.mem_of_getElem? hc) (h call)

theorem preceded_append {a b : List Effect} (ha : Preceded a) (hb : Preceded b) :
    Preceded (a++b) := by
  intro i call hc
  by_cases hi : i<a.length
  · rw [List.getElem?_append_left hi] at hc
    obtain ⟨j,rfl,hj⟩ := ha i call hc
    refine ⟨j,rfl,?_⟩
    rw [List.getElem?_append_left (by omega)]
    exact hj
  · rw [List.getElem?_append_right (Nat.not_lt.mp hi)] at hc
    obtain ⟨j,he,hj⟩ := hb _ call hc
    refine ⟨a.length+j,by omega,?_⟩
    rw [List.getElem?_append_right (by omega),Nat.add_sub_cancel_left]
    exact hj

theorem preceded_pair (n : Nat) (call : SealCall) (h : call.nonce.length=n) :
    Preceded [.filled ⟨n,true,call.nonce⟩,.sealed call] := by
  intro i c hc
  cases i with
  | zero => exact absurd hc (by simp)
  | succ i =>
    cases i with
    | zero =>
      have same : call=c := by simpa using hc
      subst same
      exact ⟨0,rfl,by simp [h]⟩
    | succ i => exact absurd hc (by simp)

theorem Spends.preceded {found : Option IAeadCipher} {draws effects : List Effect}
    (h : Spends found draws effects) (quiet : Quiet draws) : Preceded effects := by
  cases h with
  | idle rest h => exact preceded_append quiet.preceded h.1.preceded
  | unfilled cipher h bytes rest idle =>
    have single : Quiet [.filled ⟨cipher.nonceSize,false,bytes⟩] :=
      fun _ hc => absurd hc (by simp)
    exact preceded_append (preceded_append quiet.preceded single.preceded) idle.1.preceded
  | used cipher h call length rest idle =>
    have pair := preceded_append quiet.preceded (preceded_pair cipher.nonceSize call length)
    rw [List.append_cons] at pair
    exact preceded_append pair idle.1.preceded

/-- The successful fills with `n` bytes all gave different bytes. -/
def FillsDistinct (effects : List Effect) (n : Nat) : Prop :=
  ∀ (i j : Nat) (a b : FillCall),i≠j → effects[i]?=some (.filled a) →
    effects[j]?=some (.filled b) → a.ok=true → b.ok=true → a.size=n → b.size=n → a.bytes≠b.bytes

def NoncesDistinct (effects : List Effect) : Prop :=
  ∀ (i j : Nat) (a b : SealCall),i≠j → effects[i]?=some (.sealed a) →
    effects[j]?=some (.sealed b) → a.nonce≠b.nonce

/-- A source that does not repeat itself gives nonces that do not repeat. -/
theorem Preceded.distinct {effects : List Effect} (h : Preceded effects)
    (distinct : ∀ (i : Nat) (call : SealCall),effects[i]?=some (.sealed call) →
      FillsDistinct effects call.nonce.length) : NoncesDistinct effects := by
  intro i j a b hne ha hb same
  obtain ⟨k,rfl,hk⟩ := h i a ha
  obtain ⟨l,rfl,hl⟩ := h j b hb
  have fills := distinct (k+1) a ha
  exact fills k l _ _ (by omega) hk hl rfl rfl rfl (congrArg List.length same.symm) same

namespace TransportSecurity

variable {ρ : Type}

/-- Where the session identifier after a call comes from: it is the one before, the configured one,
or eight of the drawn bytes. -/
def SessionFrom (draws : List Effect) (s t : TransportSecurity) : Prop :=
  t.sessionID=s.sessionID ∨ t.sessionID=t.config.sessionID ∨
  ∃ bytes,Effect.filled ⟨8,true,bytes⟩∈draws ∧ t.sessionID=UInt64.ofNat (ofLE bytes)

theorem drawSessionID_drawn (source : IRandomSource ρ) (n : Nat) (r : ρ) (c : UInt64)
    (h : (drawSessionID source n r).1=some c) :
    ∃ bytes,Effect.filled ⟨8,true,bytes⟩∈(drawSessionID source n r).2.2 ∧
      c=UInt64.ofNat (ofLE bytes) := by
  induction n generalizing r with
  | zero => exact absurd h (by simp [drawSessionID])
  | succ n ih =>
    rw [drawSessionID] at h ⊢
    dsimp only at h ⊢
    split_ifs at h ⊢ with hk hz
    · have ok := Bool.eq_true_of_not_eq_false hk
      exact ⟨_,by simp [ok],(Option.some.inj h).symm⟩
    · obtain ⟨bytes,hb,hc⟩ := ih _ h
      exact ⟨bytes,List.mem_cons_of_mem _ hb,hc⟩

/-- A drawn identifier means that every `Fill` for it succeeded. -/
theorem drawSessionID_filled (source : IRandomSource ρ) (n : Nat) (r : ρ) (c : UInt64)
    (h : (drawSessionID source n r).1=some c) (call : FillCall)
    (hc : Effect.filled call∈(drawSessionID source n r).2.2) : call.ok=true := by
  induction n generalizing r with
  | zero => exact absurd h (by simp [drawSessionID])
  | succ n ih =>
    rw [drawSessionID] at h hc
    dsimp only at h hc
    split_ifs at h hc with hk hz
    · have same : call=⟨8,(source.fill r 8).ok,(source.fill r 8).bytes.val⟩ := by
        simpa using hc
      rw [same]
      exact Bool.eq_true_of_not_eq_false hk
    · rcases List.mem_cons.mp hc with same|hc
      · rw [Effect.filled.inj same]
        exact Bool.eq_true_of_not_eq_false hk
      · exact ih _ h hc

theorem notify_idle (s : TransportSecurity) (n : Notification) : Idle (s.notify n) :=
  idle_of_notified (fun _ h => ⟨n,notify_only h⟩)

theorem ensureSessionID_from (host : Host ρ) (s : TransportSecurity) (r : ρ) :
    SessionFrom (ensureSessionID host s r).effects s (ensureSessionID host s r).security := by
  unfold ensureSessionID
  split_ifs with hr hc
  · exact Or.inl rfl
  · exact Or.inr (Or.inl rfl)
  · dsimp only
    split
    · rename_i c hd
      obtain ⟨bytes,hb,he⟩ := drawSessionID_drawn host.random 4 r c hd
      exact Or.inr (Or.inr ⟨bytes,List.mem_append_left _ hb,he⟩)
    · exact Or.inl rfl

theorem ensureSessionID_filled {host : Host ρ} {s : TransportSecurity} {r : ρ}
    (ok : (ensureSessionID host s r).ok=true) (call : FillCall)
    (h : Effect.filled call∈(ensureSessionID host s r).effects) : call.ok=true := by
  unfold ensureSessionID at ok h
  split_ifs at ok h with hr hc
  · exact absurd h (by simp)
  · exact absurd h ((notify_idle s _).2 call)
  · dsimp only at ok h
    split at ok
    · rename_i c hd
      rw [hd] at h
      rcases List.mem_append.mp h with h|h
      · exact drawSessionID_filled host.random 4 r c hd call h
      · exact absurd h ((notify_idle s _).2 call)
    · exact absurd ok (by simp)

/-- The session step comes first, and its draws go nowhere but into the session identifier. -/
theorem protect_spends (host : Host ρ) (s : TransportSecurity) (r : ρ) (protocol : UInt8)
    (plaintext : Span) :
    ∃ draws,Quiet draws ∧ SessionFrom draws s (protect host s r protocol plaintext).security ∧
      Spends (host.ciphers.find s.config.outboundAlgorithm) draws
        (protect host s r protocol plaintext).effects := by
  have session := ensureSessionID_from host s r
  have quiet := ensureSessionID_quiet host s r
  have hc := protect_case host s r protocol plaintext
  generalize protect host s r protocol plaintext=out at hc ⊢
  cases hc with
  | refused error message =>
    exact ⟨[],quiet_nil,Or.inl rfl,.idle _ (notify_idle s _)⟩
  | passed h => exact ⟨[],quiet_nil,Or.inl rfl,.idle [] idle_nil⟩
  | stopped error message =>
    exact ⟨_,quiet,session,.idle _ (notify_idle _ _)⟩
  | attempted cipher key out h ok counter sealing =>
    refine ⟨_,quiet,?_,?_⟩
    · rw [sealing.security]
      exact session
    · cases sealing with
      | unallocated => exact .idle _ (notify_idle _ _)
      | unfilled failed => exact .unfilled cipher h.cipher_found _ _ (notify_idle _ _)
      | unsealed call failed filled nonce =>
        have length : call.nonce.length=cipher.nonceSize := by
          rw [nonce]
          exact (host.random.fill (ensureSessionID host s r).random cipher.nonceSize).bytes.property
        exact .used cipher h.cipher_found call length _ (notify_idle _ _)
      | sealed e he =>
        have length : e.nonce.length=cipher.nonceSize := e.nonce_length.trans he.nonce_size
        have shape : Spends _ (ensureSessionID host s r).effects _ := .used cipher
          h.cipher_found (e.sealCall key.data plaintext.content) length [] idle_nil
        rw [List.append_nil] at shape
        exact shape

/-- Where the session step has not failed, a failing `Fill` is the one for the nonce, and the last
thing the sealing step does. -/
theorem SealCase.unfilled_last {host : Host ρ} {s : TransportSecurity} {r : ρ}
    {effects : List Effect} {cipher : IAeadCipher} {key : KeyMaterialView} {protocol : UInt8}
    {plaintext : Span} {out : ProtectOutcome ρ} {call : FillCall}
    (hc : SealCase host s r effects cipher key protocol plaintext out) (quiet : Quiet effects)
    (drawn : Effect.filled call∉effects) (h : Effect.filled call∈out.effects)
    (failed : call.ok=false) :
    Quiet out.effects ∧ (∃ message,out.result=.fail .randomFailure message) ∧ out.output=[] := by
  have other : ∀ {e : List Effect} {n : Nat} {b : Bytes} {c : SealCall},
      (∀ x∈e,∃ m,x=.notified m) →
      Effect.filled call∉effects++[.filled ⟨n,true,b⟩]++[.sealed c]++e := by
    intro e n b c notes hn
    simp only [List.mem_append,List.mem_singleton,Effect.filled.injEq,reduceCtorEq,
      or_false] at hn
    obtain (hd|same)|hr := hn
    · exact drawn hd
    · rw [same] at failed
      exact absurd failed (by simp)
    · obtain ⟨m,hm⟩ := notes _ hr
      exact absurd hm (by simp)
  cases hc with
  | unallocated => exact ((List.mem_append.mp h).elim drawn ((notify_idle _ _).2 call)).elim
  | unfilled lost =>
    refine ⟨?_,⟨_,rfl⟩,rfl⟩
    apply quiet_append (quiet_append quiet ?_) (notify_quiet _ _)
    exact fun _ hc => absurd hc (by simp)
  | unsealed c lost ok nonce =>
    apply absurd h (other ?_)
    intro x hx
    exact ⟨_,notify_only hx⟩
  | sealed e he =>
    apply absurd h
    have bare := other (e := []) (n := cipher.nonceSize) (b := e.nonce)
      (c := e.sealCall key.data plaintext.content) (fun _ hx => absurd hx (by simp))
    rw [List.append_nil] at bare
    exact bare

/-- Any failing `Fill` is the last thing a call does. -/
theorem protect_unfilled {host : Host ρ} {s : TransportSecurity} {r : ρ} {protocol : UInt8}
    {plaintext : Span} {call : FillCall}
    (h : Effect.filled call∈(protect host s r protocol plaintext).effects) (failed : call.ok=false) :
    Quiet (protect host s r protocol plaintext).effects ∧
    (∃ message,(protect host s r protocol plaintext).result=.fail .randomFailure message) ∧
    (protect host s r protocol plaintext).output=[] := by
  have quiet := ensureSessionID_quiet host s r
  obtain ⟨error,message,he⟩|passes|⟨cipher,key,ready⟩ := protect_cases host s r protocol plaintext
  · rw [he] at h
    exact absurd h ((notify_idle s _).2 call)
  · rw [protect_passes passes] at h
    exact absurd h (by simp [passThrough])
  rw [protect_ready ready] at h ⊢
  unfold protectReady at h ⊢
  dsimp only at h ⊢
  by_cases hs : (ensureSessionID host s r).ok=false
  · rw [if_pos hs]
    exact ⟨quiet_append quiet (notify_quiet _ _),⟨_,rfl⟩,rfl⟩
  have drawn : Effect.filled call∉(ensureSessionID host s r).effects := by
    intro hd
    rw [ensureSessionID_filled (Bool.eq_true_of_not_eq_false hs) call hd] at failed
    exact absurd failed (by decide)
  have stopped : ∀ (t : TransportSecurity) (n : Notification),
      Effect.filled call∉(ensureSessionID host s r).effects++t.notify n := by
    intro t n hn
    exact (List.mem_append.mp hn).elim drawn ((notify_idle t n).2 call)
  rw [if_neg hs] at h ⊢
  split_ifs at h ⊢ with hq hw
  · exact absurd h (stopped _ _)
  · exact absurd h (stopped _ _)
  · simp only [not_or,not_lt,gt_iff_lt] at hw
    have hc := sealEnvelope_cases host (ensureSessionID host s r).security
      (ensureSessionID host s r).random (ensureSessionID host s r).effects cipher key protocol
      plaintext ready.valid hw.1 hw.2.1 hw.2.2
    exact hc.unfilled_last quiet drawn h failed

theorem setConfig_idle (s : TransportSecurity) (config : TransportSecurityConfig) :
    Idle (s.setConfig config).2 :=
  idle_of_notified (fun _ h => setConfig_only h)

theorem unprotect_idle (host : Host ρ) (s : TransportSecurity) (expectedProtocol : UInt8)
    (input : Span) : Idle (unprotect host s expectedProtocol input).effects := by
  refine ⟨unprotect_quiet host s expectedProtocol input,?_⟩
  intro call h
  obtain ⟨_,_,_,_,he⟩|⟨_,_,_,_,he⟩|⟨n,he⟩ := unprotect_only h
  · exact absurd he (by simp)
  · exact absurd he (by simp)
  · exact absurd he (by simp)

theorem unprotect_from (host : Host ρ) (s : TransportSecurity) (expectedProtocol : UInt8)
    (input : Span) : SessionFrom [] s (unprotect host s expectedProtocol input).security := by
  obtain ⟨w,he⟩ := unprotect_keeps host s expectedProtocol input
  rw [he]
  exact Or.inl rfl

end TransportSecurity

namespace DataProtector

variable {ρ : Type}

theorem unprotect_idle (host : Host ρ) (d : DataProtector) (protectedData context : Span) :
    Idle (unprotect host d protectedData context).effects := by
  refine ⟨unprotect_quiet host d protectedData context,?_⟩
  intro call h
  obtain ⟨_,_,_,_,_,_,he|⟨_,he⟩⟩ := unprotect_only h
  · exact absurd he (by simp)
  · exact absurd he (by simp)

theorem protect_spends (host : Host ρ) (d : DataProtector) (r : ρ) (plaintext context : Span) :
    Spends (host.ciphers.find d.config.algorithm) [] (protect host d r plaintext context).effects := by
  have hc := protect_case host d r plaintext context
  generalize protect host d r plaintext context=out at hc ⊢
  cases hc with
  | refused early error message => exact .idle [] idle_nil
  | unfilled cipher key ready failed =>
    exact .unfilled cipher ready.cipher_found _ [] idle_nil
  | unsealed cipher key ready call failed filled nonce attempt =>
    have length : call.nonce.length=cipher.nonceSize := by
      rw [nonce]
      exact (host.random.fill r cipher.nonceSize).bytes.property
    exact .used cipher ready.cipher_found call length [] idle_nil
  | sealed cipher key f emits =>
    exact .used cipher emits.ready.cipher_found
      (f.sealCall key.data context.content plaintext.content) emits.nonce_size [] idle_nil

theorem protect_unfilled {host : Host ρ} {d : DataProtector} {r : ρ} {plaintext context : Span}
    {call : FillCall} (h : Effect.filled call∈(protect host d r plaintext context).effects)
    (failed : call.ok=false) :
    Quiet (protect host d r plaintext context).effects ∧
    (∃ message,(protect host d r plaintext context).result=.fail .randomFailure message) ∧
    (protect host d r plaintext context).output=[] := by
  have hc := protect_case host d r plaintext context
  generalize protect host d r plaintext context=out at hc h ⊢
  cases hc with
  | refused early error message => exact absurd h (by simp [refuse])
  | unfilled cipher key ready lost => exact ⟨fun _ hc => absurd hc (by simp [refuse]),⟨_,rfl⟩,rfl⟩
  | unsealed cipher key ready c lost filled nonce attempt =>
    have same : call=⟨cipher.nonceSize,true,c.nonce⟩ := by simpa [refuse] using h
    rw [same] at failed
    exact absurd failed (by simp)
  | sealed cipher key f emits =>
    have same : call=⟨cipher.nonceSize,true,f.nonce⟩ := by simpa using h
    rw [same] at failed
    exact absurd failed (by simp)

end DataProtector

/-! ### Every call of a run -/

namespace Deployment

variable {ι κ ρ : Type}

/-- The cipher that a `Protect` called by the action looks up. -/
def Action.sealer (w : Deployment ι κ ρ) : Action ι κ ρ → Option IAeadCipher
  | transport i (.protect host _ _) => host.ciphers.find (w.transports i).config.outboundAlgorithm
  | send i host _ _ _ => host.ciphers.find (w.transports i).config.outboundAlgorithm
  | dataProtect k host _ _ => host.ciphers.find (w.protectors k).config.algorithm
  | _ => none

/-- The call failed as `RandomFailure` and left nothing in the output. -/
def Response.RandomFailed : Response → Prop
  | transport (.outbound result output _) =>
    (∃ message,result=.fail .randomFailure message) ∧ output=[]
  | sent accepted result handed _ =>
    accepted=false ∧ (∃ message,result=.fail .randomFailure message) ∧ handed=none
  | dataProtected result output _ =>
    (∃ message,result=.fail .randomFailure message) ∧ output=[]
  | _ => False

variable [DecidableEq ι]

/-- The identifiers of the other instances stay as they are. -/
theorem session_update {draws : List Effect} {w : Deployment ι κ ρ} {i : ι} {s : TransportSecurity}
    (h : TransportSecurity.SessionFrom draws (w.transports i) s) (j : ι) :
    TransportSecurity.SessionFrom draws (w.transports j) (Function.update w.transports i s j) := by
  by_cases hj : j=i
  · subst hj
    rw [Function.update_self]
    exact h
  · rw [Function.update_of_ne hj]
    exact Or.inl rfl

variable [DecidableEq κ]

/-- What one action does with random bytes: the draws for a session identifier come first, every
other `Fill` is a nonce for one `Seal` of the looked-up cipher, and a failed `Fill` ends the call. -/
structure Frugal (w : Deployment ι κ ρ) (a : Action ι κ ρ) : Prop where
  spends : ∃ draws,Quiet draws ∧ Spends (a.sealer w) draws (step w a).2.effects ∧
    ∀ i,TransportSecurity.SessionFrom draws (w.transports i) ((step w a).1.transports i)
  failing : ∀ call,Effect.filled call∈(step w a).2.effects → call.ok=false →
    Quiet (step w a).2.effects ∧ (step w a).2.RandomFailed

/-- A call that neither draws nor seals, and no session identifier but a configured one appears. -/
theorem idle_frugal {w : Deployment ι κ ρ} {a : Action ι κ ρ} (idle : Idle (step w a).2.effects)
    (session : ∀ i,TransportSecurity.SessionFrom [] (w.transports i) ((step w a).1.transports i)) :
    Frugal w a :=
  ⟨⟨[],quiet_nil,.idle _ idle,session⟩,fun call hc => absurd hc (idle.2 call)⟩

theorem frugal_protect (w : Deployment ι κ ρ) (i : ι) (host : Host ρ) (protocol : UInt8)
    (plaintext : Span) : Frugal w (.transport i (.protect host protocol plaintext)) := by
  obtain ⟨draws,quiet,session,spends⟩ := TransportSecurity.protect_spends host (w.transports i)
    w.random protocol plaintext
  refine ⟨⟨draws,quiet,spends,session_update session⟩,?_⟩
  intro call hc failed
  exact TransportSecurity.protect_unfilled hc failed

theorem frugal_send (w : Deployment ι κ ρ) (i : ι) (host : Host ρ) (carrier : UInt8 → Bytes → Bool)
    (protocol : UInt8) (data : Span) : Frugal w (.send i host carrier protocol data) := by
  obtain ⟨draws,quiet,session,spends⟩ := TransportSecurity.protect_spends host (w.transports i)
    w.random protocol data
  have effects : (step w (.send i host carrier protocol data)).2.effects=
      ((w.transports i).protect host w.random protocol data).effects := by
    simp only [step,Response.effects,SecureTransportDecorator.send]
    split_ifs <;> rfl
  have security := SecureTransportDecorator.send_security host carrier (w.transports i) w.random
    protocol data
  rw [← security] at session
  refine ⟨⟨draws,quiet,?_,session_update session⟩,?_⟩
  · rw [effects]
    exact spends
  · intro call hc failed
    rw [effects] at hc ⊢
    obtain ⟨silent,⟨message,result⟩,_⟩ := TransportSecurity.protect_unfilled hc failed
    refine ⟨silent,?_⟩
    simp only [step,SecureTransportDecorator.send,result]
    exact ⟨rfl,⟨message,rfl⟩,rfl⟩

theorem frugal_step (w : Deployment ι κ ρ) (a : Action ι κ ρ) : Frugal w a := by
  have kept : ∀ i,TransportSecurity.SessionFrom [] (w.transports i) (w.transports i) :=
    fun i => Or.inl rfl
  cases a with
  | transport i op =>
    cases op with
    | protect host protocol plaintext => exact frugal_protect w i host protocol plaintext
    | unprotect host expectedProtocol input =>
      have session := TransportSecurity.unprotect_from host (w.transports i) expectedProtocol input
      exact idle_frugal (TransportSecurity.unprotect_idle host _ expectedProtocol input)
        (session_update session)
    | setConfig config =>
      exact idle_frugal (TransportSecurity.setConfig_idle (w.transports i) config)
        (session_update (Or.inr (Or.inl rfl)))
    | resetReplayProtection =>
      exact idle_frugal (TransportSecurity.notify_idle _ _) (session_update (Or.inl rfl))
    | registerObserver =>
      exact idle_frugal idle_nil (session_update (Or.inl rfl))
  | send i host carrier protocol data => exact frugal_send w i host carrier protocol data
  | receive i host decorator protocol input =>
    have idle := TransportSecurity.unprotect_idle host (w.transports i) protocol input
    apply idle_frugal
    · simp only [step,Response.effects,SecureTransportDecorator.handleReceive]
      split_ifs <;> exact idle
    · have session := TransportSecurity.unprotect_from host (w.transports i) protocol input
      rw [← SecureTransportDecorator.handleReceive_security host decorator] at session
      exact session_update session
  | dataProtect k host plaintext context =>
    refine ⟨⟨[],quiet_nil,DataProtector.protect_spends host _ w.random plaintext context,kept⟩,?_⟩
    intro call hc failed
    exact DataProtector.protect_unfilled hc failed
  | dataUnprotect k host protectedData context =>
    exact idle_frugal (DataProtector.unprotect_idle host _ protectedData context) kept
  | dataSetConfig k config => exact idle_frugal idle_nil kept

theorem run_preceded (w : Deployment ι κ ρ) (as : List (Action ι κ ρ)) :
    Preceded (log ((machine ι κ ρ).trace w as)) := by
  induction as generalizing w with
  | nil => exact quiet_nil.preceded
  | cons a as ih =>
    obtain ⟨draws,quiet,spends,_⟩ := (frugal_step w a).spends
    exact preceded_append (spends.preceded quiet) (ih (step w a).1)

/-- In any interleaving every call spends random bytes frugally, every `Seal` has a `Fill` of its own
right before it, and a source whose outputs of nonce size are distinct never repeats a nonce. -/
theorem nonces_fresh (w : Deployment ι κ ρ) (as : List (Action ι κ ρ)) :
    let run := (machine ι κ ρ).trace w as
    (∀ past a future,as=past++a::future → Frugal ((machine ι κ ρ).after w past) a) ∧
    Preceded (log run) ∧
    ((∀ (i : Nat) (call : SealCall),(log run)[i]?=some (.sealed call) →
        FillsDistinct (log run) call.nonce.length) → NoncesDistinct (log run)) := by
  intro run
  have preceded := run_preceded w as
  refine ⟨?_,preceded,preceded.distinct⟩
  intro past a future _
  exact frugal_step _ a

end Deployment
end ESPressioSecurity
