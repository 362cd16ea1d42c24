import ESPressioSecurity.Model.TestDoubles
import ESPressioSecurity.System.Entropy

namespace ESPressioSecurity

open Framework

/-- The System entropy provider with state `ρ`: what it says of itself and what it fills. -/
structure EntropyProvider (ρ : Type) where
  isCryptographicallySuitable : ρ → Bool
  fill : ρ → (size : Nat) → FillOutcome ρ size

theorem zeroed_length (size : Nat) : (List.replicate size (0 : UInt8)).length=size :=
  List.length_replicate

/-- A provider that is not suitable is not asked, and the zeroed storage stays as it is. -/
def RandomSource {ρ : Type} (p : EntropyProvider ρ) : IRandomSource ρ where
  fill r size :=
    if p.isCryptographicallySuitable r=false then ⟨false,⟨List.replicate size 0,zeroed_length size⟩,r⟩
    else p.fill r size

theorem RandomSource.fill_ok {ρ : Type} {p : EntropyProvider ρ} {r : ρ} {size : Nat}
    (h : ((RandomSource p).fill r size).ok=true) :
    p.isCryptographicallySuitable r=true ∧ (p.fill r size).ok=true ∧
      ((RandomSource p).fill r size).bytes=(p.fill r size).bytes := by
  unfold RandomSource at h ⊢
  dsimp only at h ⊢
  split_ifs at h ⊢ with hs
  exact ⟨Bool.eq_true_of_not_eq_false hs,h,rfl⟩

variable {ρ : Type}

/-! ### The random source as a stream -/

/-- The `Fill` calls among the effects. -/
def fillsOf (effects : List Effect) : List FillCall :=
  effects.filterMap fun
    | .filled call => some call
    | _ => none

theorem fillsOf_append (a b : List Effect) : fillsOf (a++b)=fillsOf a++fillsOf b :=
  List.filterMap_append

theorem mem_fillsOf {effects : List Effect} {call : FillCall} (h : Effect.filled call∈effects) :
    call∈fillsOf effects :=
  List.mem_filterMap.mpr ⟨_,h,rfl⟩

theorem Spends.draws_subset {found : Option IAeadCipher} {draws effects : List Effect}
    (h : Spends found draws effects) : draws⊆effects := by
  cases h <;> simp

theorem Idle.fills {effects : List Effect} (h : Idle effects) : fillsOf effects=[] := by
  rw [fillsOf,List.filterMap_eq_nil_iff]
  intro e he
  cases e with
  | filled call => exact absurd he (h.2 call)
  | _ => rfl

def fillOf (source : IRandomSource ρ) (r : ρ) (size : Nat) : FillCall :=
  ⟨size,(source.fill r size).ok,(source.fill r size).bytes.val⟩

/-- The calls are what the source gives one after the other from `r` on, which leave it at the last
state. -/
def Draws (source : IRandomSource ρ) : ρ → List FillCall → ρ → Prop
  | r,[],last => r=last
  | r,call::calls,last =>
    call=fillOf source r call.size ∧ Draws source (source.fill r call.size).next calls last

theorem Draws.append {source : IRandomSource ρ} {r s t : ρ} {as bs : List FillCall}
    (h : Draws source r as s) (k : Draws source s bs t) : Draws source r (as++bs) t := by
  induction as generalizing r with
  | nil =>
    have same : r=s := h
    subst same
    exact k
  | cons call as ih => exact ⟨h.1,ih h.2⟩

theorem draws_one (source : IRandomSource ρ) (r : ρ) (size : Nat) :
    Draws source r [fillOf source r size] (source.fill r size).next := ⟨rfl,rfl⟩

/-- Any call of the stream was made in the state that the calls before it led to. -/
theorem Draws.split {source : IRandomSource ρ} {r last : ρ} {before after : List FillCall}
    {call : FillCall} (h : Draws source r (before++call::after) last) :
    ∃ s,Draws source r before s ∧ call=fillOf source s call.size := by
  induction before generalizing r with
  | nil => exact ⟨r,rfl,h.1⟩
  | cons b before ih =>
    obtain ⟨s,draws,same⟩ := ih h.2
    exact ⟨s,⟨h.1,draws⟩,same⟩

/-- What a random source is seen to do: a `Fill`, or a change of its state that no `Fill` made. -/
inductive Drawn (ρ : Type)
  | fill (call : FillCall)
  | drift (r : ρ)

/-- The entries are what the source gives one after the other from `r` on, up to the changes of state
in between. -/
def Stream (source : IRandomSource ρ) : ρ → List (Drawn ρ) → ρ → Prop
  | r,[],last => r=last
  | r,.fill call::entries,last =>
    call=fillOf source r call.size ∧ Stream source (source.fill r call.size).next entries last
  | _,.drift r::entries,last => Stream source r entries last

theorem Stream.append {source : IRandomSource ρ} {r s t : ρ} {as bs : List (Drawn ρ)}
    (h : Stream source r as s) (k : Stream source s bs t) : Stream source r (as++bs) t := by
  induction as generalizing r with
  | nil =>
    have same : r=s := h
    subst same
    exact k
  | cons entry as ih =>
    cases entry with
    | fill call => exact ⟨h.1,ih h.2⟩
    | drift u => exact ih (r := u) h

theorem Draws.stream {source : IRandomSource ρ} {r last : ρ} {calls : List FillCall}
    (h : Draws source r calls last) : Stream source r (calls.map .fill) last := by
  induction calls generalizing r with
  | nil => exact h
  | cons call calls ih => exact ⟨h.1,ih h.2⟩

/-- A provider that is not suitable is never asked, so it stays as it is. -/
theorem Draws.unsuitable {p : EntropyProvider ρ} {r s : ρ} {calls : List FillCall}
    (h : Draws (RandomSource p) r calls s) (bad : p.isCryptographicallySuitable r=false) : s=r := by
  induction calls generalizing r with
  | nil => exact Eq.symm h
  | cons call calls ih =>
    have still : ((RandomSource p).fill r call.size).next=r := by simp [RandomSource,bad]
    have rest := h.2
    rw [still] at rest
    exact ih rest bad

namespace TransportSecurity

theorem drawSessionID_draws (source : IRandomSource ρ) (n : Nat) (r : ρ) :
    Draws source r (fillsOf (drawSessionID source n r).2.2) (drawSessionID source n r).2.1 := by
  induction n generalizing r with
  | zero => rfl
  | succ n ih =>
    rw [drawSessionID]
    dsimp only
    split_ifs
    · exact draws_one source r 8
    · exact draws_one source r 8
    · exact (draws_one source r 8).append (ih _)

theorem ensureSessionID_draws (host : Host ρ) (s : TransportSecurity) (r : ρ) :
    Draws host.random r (fillsOf (ensureSessionID host s r).effects)
      (ensureSessionID host s r).random := by
  unfold ensureSessionID
  split_ifs
  · rfl
  · rw [(notify_idle s _).fills]
    rfl
  · have drawn := drawSessionID_draws host.random 4 r
    dsimp only
    split
    · rw [fillsOf_append,(notify_idle s _).fills,List.append_nil]
      exact drawn
    · exact drawn

theorem SealCase.draws {host : Host ρ} {s : TransportSecurity} {r : ρ} {effects : List Effect}
    {cipher : IAeadCipher} {key : KeyMaterialView} {protocol : UInt8} {plaintext : Span}
    {out : ProtectOutcome ρ} {first : ρ}
    (h : SealCase host s r effects cipher key protocol plaintext out)
    (earlier : Draws host.random first (fillsOf effects) r) :
    Draws host.random first (fillsOf out.effects) out.random := by
  have nonce : ∀ {ok : Bool} {b : Bytes},(host.random.fill r cipher.nonceSize).ok=ok →
      b=(host.random.fill r cipher.nonceSize).bytes.val →
      Draws host.random first (fillsOf effects++[⟨cipher.nonceSize,ok,b⟩])
        (host.random.fill r cipher.nonceSize).next := by
    intro ok b hok hb
    subst hok
    subst hb
    exact earlier.append (draws_one host.random r cipher.nonceSize)
  cases h with
  | unallocated =>
    rw [refuse,fillsOf_append,(notify_idle _ _).fills,List.append_nil]
    exact earlier
  | unfilled failed =>
    rw [refuse,fillsOf_append,(notify_idle _ _).fills,List.append_nil,fillsOf_append]
    exact nonce failed rfl
  | unsealed call failed filled same =>
    rw [refuse,fillsOf_append,(notify_idle _ _).fills,List.append_nil,fillsOf_append,fillsOf_append]
    exact (nonce filled same).append rfl
  | sealed e he =>
    rw [fillsOf_append,fillsOf_append]
    exact (nonce he.filled he.nonce).append rfl

theorem protect_draws (host : Host ρ) (s : TransportSecurity) (r : ρ) (protocol : UInt8)
    (plaintext : Span) :
    Draws host.random r (fillsOf (protect host s r protocol plaintext).effects)
      (protect host s r protocol plaintext).random := by
  have session := ensureSessionID_draws host s r
  have hc := protect_case host s r protocol plaintext
  generalize protect host s r protocol plaintext=out at hc ⊢
  cases hc with
  | refused error message =>
    rw [refuse,List.nil_append,(notify_idle s _).fills]
    rfl
  | passed h => rfl
  | stopped error message =>
    rw [refuse,fillsOf_append,(notify_idle _ _).fills,List.append_nil]
    exact session
  | attempted cipher key out h ok counter sealing => exact sealing.draws session

end TransportSecurity

theorem DataProtector.protect_draws (host : Host ρ) (d : DataProtector) (r : ρ)
    (plaintext context : Span) :
    Draws host.random r (fillsOf (protect host d r plaintext context).effects)
      (protect host d r plaintext context).random := by
  have nonce : ∀ {n : Nat} {ok : Bool} {b : Bytes},(host.random.fill r n).ok=ok →
      b=(host.random.fill r n).bytes.val →
      Draws host.random r [⟨n,ok,b⟩] (host.random.fill r n).next := by
    intro n ok b hok hb
    subst hok
    subst hb
    exact draws_one host.random r n
  have hc := protect_case host d r plaintext context
  generalize protect host d r plaintext context=out at hc ⊢
  cases hc with
  | refused early error message => rfl
  | unfilled cipher key ready failed => exact nonce failed rfl
  | unsealed cipher key ready call failed filled same attempt => exact nonce filled same
  | sealed cipher key f emits => exact nonce emits.filled emits.nonce

namespace Deployment

variable {ι κ : Type}

/-- A `Protect` that the action calls draws from this source. -/
def Action.DrawsFrom (source : IRandomSource ρ) : Action ι κ ρ → Prop
  | transport _ (.protect host _ _) => host.random=source
  | send _ host _ _ _ => host.random=source
  | dataProtect _ host _ _ => host.random=source
  | _ => True

variable [DecidableEq ι] [DecidableEq κ]

theorem step_draws {source : IRandomSource ρ} (w : Deployment ι κ ρ) {a : Action ι κ ρ}
    (h : a.DrawsFrom source) :
    Draws source w.random (fillsOf (step w a).2.effects) (step w a).1.random := by
  have still : ∀ {effects : List Effect},Idle effects →
      Draws source w.random (fillsOf effects) w.random := by
    intro effects idle
    rw [idle.fills]
    rfl
  cases a with
  | transport i op =>
    cases op with
    | protect host protocol plaintext =>
      obtain rfl : host.random=source := h
      exact TransportSecurity.protect_draws host (w.transports i) w.random protocol plaintext
    | unprotect host expectedProtocol input =>
      exact still (TransportSecurity.unprotect_idle host (w.transports i) expectedProtocol input)
    | setConfig config => exact still (TransportSecurity.setConfig_idle (w.transports i) config)
    | resetReplayProtection => exact still (TransportSecurity.notify_idle _ _)
    | registerObserver => rfl
  | send i host carrier protocol data =>
    obtain rfl : host.random=source := h
    have drawn := TransportSecurity.protect_draws host (w.transports i) w.random protocol data
    simp only [step,Response.effects,SecureTransportDecorator.send]
    split_ifs <;> exact drawn
  | receive i host decorator protocol input =>
    have idle := TransportSecurity.unprotect_idle host (w.transports i) protocol input
    simp only [step,Response.effects,SecureTransportDecorator.handleReceive]
    split_ifs <;> exact still idle
  | dataProtect k host plaintext context =>
    obtain rfl : host.random=source := h
    exact DataProtector.protect_draws host (w.protectors k) w.random plaintext context
  | dataUnprotect k host protectedData context =>
    exact still (DataProtector.unprotect_idle host (w.protectors k) protectedData context)
  | dataSetConfig k config => rfl

/-- The provider gave these bytes during a call, in a state in which it was suitable. -/
def Given (p : EntropyProvider ρ) (r : ρ) (fills : List FillCall) (bytes : Bytes) : Prop :=
  ∃ before after s,fills=before++⟨bytes.length,true,bytes⟩::after ∧
    Draws (RandomSource p) r before s ∧ p.isCryptographicallySuitable s=true ∧
    (p.fill s bytes.length).ok=true ∧ (p.fill s bytes.length).bytes.val=bytes

omit [DecidableEq ι] [DecidableEq κ] in
theorem given_of_mem {p : EntropyProvider ρ} {r last : ρ} {fills : List FillCall} {bytes : Bytes}
    (draws : Draws (RandomSource p) r fills last)
    (h : ⟨bytes.length,true,bytes⟩∈fills) : Given p r fills bytes := by
  obtain ⟨before,after,split⟩ := List.append_of_mem h
  subst split
  obtain ⟨s,earlier,same⟩ := draws.split
  have parts := FillCall.mk.inj same
  obtain ⟨suitable,ok,given⟩ := RandomSource.fill_ok parts.2.1.symm
  refine ⟨before,after,s,rfl,earlier,suitable,ok,?_⟩
  rw [← given]
  exact parts.2.2.symm

omit [DecidableEq ι] [DecidableEq κ] in
/-- A call that is given anything finds the provider suitable when it begins. -/
theorem Given.suitable {p : EntropyProvider ρ} {r : ρ} {fills : List FillCall} {bytes : Bytes}
    (h : Given p r fills bytes) : p.isCryptographicallySuitable r=true := by
  obtain ⟨_,_,s,_,draws,suitable,_,_⟩ := h
  by_contra bad
  rw [Bool.not_eq_true] at bad
  rw [draws.unsuitable bad,bad] at suitable
  exact absurd suitable (by decide)

/-- Every nonce of a call is given to it. -/
theorem step_given {p : EntropyProvider ρ} (w : Deployment ι κ ρ) {a : Action ι κ ρ}
    (h : a.DrawsFrom (RandomSource p)) {call : SealCall}
    (made : Effect.sealed call∈(step w a).2.effects) :
    Given p w.random (fillsOf (step w a).2.effects) call.nonce := by
  obtain ⟨draws,quiet,spends,_⟩ := (frugal_step w a).spends
  obtain ⟨n,at_n⟩ := List.getElem?_of_mem made
  obtain ⟨m,_,filled⟩ := spends.preceded quiet n call at_n
  exact given_of_mem (step_draws w h) (mem_fillsOf (List.mem_of_getElem? filled))

/-- A session identifier that was drawn is given too. -/
theorem step_session {p : EntropyProvider ρ} (w : Deployment ι κ ρ) {a : Action ι κ ρ}
    (h : a.DrawsFrom (RandomSource p)) (i : ι) :
    let after := (step w a).1.transports i
    after.sessionID=(w.transports i).sessionID ∨ after.sessionID=after.config.sessionID ∨
    ∃ bytes,bytes.length=8 ∧ Given p w.random (fillsOf (step w a).2.effects) bytes ∧
      after.sessionID=UInt64.ofNat (ofLE bytes) := by
  have draws := step_draws w h
  obtain ⟨drawn,_,spends,session⟩ := (frugal_step w a).spends
  obtain same|configured|⟨bytes,filled,same⟩ := session i
  · exact Or.inl same
  · exact Or.inr (Or.inl configured)
  · have taken := mem_fillsOf (spends.draws_subset filled)
    have sized : bytes.length=8 := by
      obtain ⟨front,rest,parts⟩ := List.append_of_mem taken
      rw [parts] at draws
      obtain ⟨s,_,made⟩ := draws.split
      rw [(FillCall.mk.inj made).2.2]
      exact ((RandomSource p).fill s 8).bytes.property
    refine Or.inr (Or.inr ⟨bytes,sized,given_of_mem (step_draws w h) ?_,same⟩)
    rw [sized]
    exact taken

/-! ### A provider that changes between calls -/

/-- A call of one of the services, or a moment between calls at which the provider changes by itself:
it fails or passes a test of its own, or gives way to another. -/
inductive Moment (ι κ ρ : Type)
  | call (a : Action ι κ ρ)
  | drift (r : ρ)

def pass (w : Deployment ι κ ρ) : Moment ι κ ρ → Deployment ι κ ρ×List Effect
  | .call a => ((step w a).1,(step w a).2.effects)
  | .drift r => ({w with random := r},[])

def gated (ι κ ρ : Type) [DecidableEq ι] [DecidableEq κ] :
    Machine (Deployment ι κ ρ) (Moment ι κ ρ) (List Effect) := ⟨pass⟩

/-- What the provider is seen to do in a moment. -/
def drawn : Moment ι κ ρ×List Effect → List (Drawn ρ)
  | (.call _,effects) => (fillsOf effects).map .fill
  | (.drift r,_) => [.drift r]

/-- The services of a run take from a shared source what it gives, in order, and nothing else. -/
theorem run_stream {source : IRandomSource ρ} (w : Deployment ι κ ρ) (ms : List (Moment ι κ ρ))
    (h : ∀ a,.call a∈ms → a.DrawsFrom source) :
    Stream source w.random (((gated ι κ ρ).trace w ms).flatMap drawn)
      ((gated ι κ ρ).after w ms).random := by
  induction ms generalizing w with
  | nil => rfl
  | cons m ms ih =>
    have rest := ih (pass w m).1 (fun a ha => h a (List.mem_cons_of_mem m ha))
    rw [Machine.trace,List.flatMap_cons]
    refine Stream.append (s := (pass w m).1.random) ?_ rest
    cases m with
    | call a => exact (step_draws w (h a List.mem_cons_self)).stream
    | drift r => exact rfl

/-- The provider gave these bytes during the run, in a state in which it was suitable. -/
def Vouched (p : EntropyProvider ρ) (r : ρ) (stream : List (Drawn ρ)) (bytes : Bytes) : Prop :=
  ∃ before after s,stream=before++.fill ⟨bytes.length,true,bytes⟩::after ∧
    Stream (RandomSource p) r before s ∧ p.isCryptographicallySuitable s=true ∧
    (p.fill s bytes.length).ok=true ∧ (p.fill s bytes.length).bytes.val=bytes

omit [DecidableEq ι] [DecidableEq κ] in
theorem Given.vouched {p : EntropyProvider ρ} {first r : ρ} {fills : List FillCall} {bytes : Bytes}
    (h : Given p r fills bytes) {earlier : List (Drawn ρ)}
    (past : Stream (RandomSource p) first earlier r) (later : List (Drawn ρ)) :
    Vouched p first (earlier++(fills.map .fill++later)) bytes := by
  obtain ⟨before,after,s,rfl,draws,suitable,ok,same⟩ := h
  refine ⟨earlier++before.map .fill,after.map .fill++later,s,?_,past.append draws.stream,suitable,ok,
    same⟩
  simp

/-- What a call of the run was given is vouched for in the stream of the whole run. -/
theorem run_vouched {p : EntropyProvider ρ} (w : Deployment ι κ ρ) {ms past future : List (Moment ι κ ρ)}
    {a : Action ι κ ρ} (h : ∀ a,.call a∈ms → a.DrawsFrom (RandomSource p))
    (split : ms=past++.call a::future) {bytes : Bytes}
    (given : Given p ((gated ι κ ρ).after w past).random
      (fillsOf (step ((gated ι κ ρ).after w past) a).2.effects) bytes) :
    Vouched p w.random (((gated ι κ ρ).trace w ms).flatMap drawn) bytes := by
  have earlier := run_stream w past (fun b hb => h b (by rw [split]; exact List.mem_append_left _ hb))
  rw [split,Machine.trace_append,List.flatMap_append,Machine.trace,List.flatMap_cons]
  exact given.vouched earlier _

/-- Over `RandomSource` the services of a run share one stream of random bytes, however the provider
changes between their calls. Every `Seal` takes its nonce, and every session identifier that was not
configured its bytes, from a `Fill` that the provider made in a state in which it was
cryptographically suitable; and a call that finds the provider not suitable seals nothing. -/
theorem sealing_gated (p : EntropyProvider ρ) (w : Deployment ι κ ρ) (ms : List (Moment ι κ ρ))
    (h : ∀ a,.call a∈ms → a.DrawsFrom (RandomSource p)) :
    let run := (gated ι κ ρ).trace w ms
    let stream := run.flatMap drawn
    Stream (RandomSource p) w.random stream ((gated ι κ ρ).after w ms).random ∧
    (∀ call,Effect.sealed call∈run.flatMap (·.2) → Vouched p w.random stream call.nonce) ∧
    ∀ past a future,ms=past++.call a::future →
      let before := (gated ι κ ρ).after w past
      (p.isCryptographicallySuitable before.random=false →
        ∀ call,Effect.sealed call∉(step before a).2.effects) ∧
      ∀ i,
        let after := (step before a).1.transports i
        after.sessionID=(before.transports i).sessionID ∨ after.sessionID=after.config.sessionID ∨
        ∃ bytes,bytes.length=8 ∧ Vouched p w.random stream bytes ∧
          after.sessionID=UInt64.ofNat (ofLE bytes) := by
  intro run stream
  refine ⟨run_stream w ms h,?_,?_⟩
  · intro call made
    obtain ⟨x,hx,made⟩ := List.mem_flatMap.mp made
    obtain ⟨past,future,split,answer⟩ := (gated ι κ ρ).mem_trace hx
    obtain ⟨m,effects⟩ := x
    cases m with
    | call a =>
      have same : effects=(step ((gated ι κ ρ).after w past) a).2.effects := answer
      rw [same] at made
      exact run_vouched w h split (step_given _ (h a (by rw [split]; simp)) made)
    | drift r =>
      have none : effects=[] := answer
      rw [none] at made
      exact absurd made (by simp)
  · intro past a future split before
    have source := h a (by rw [split]; simp)
    refine ⟨?_,?_⟩
    · intro bad call made
      have good := (step_given before source made).suitable
      rw [bad] at good
      exact absurd good (by decide)
    · intro i after
      obtain same|configured|⟨bytes,sized,given,same⟩ := step_session before source i
      · exact Or.inl same
      · exact Or.inr (Or.inl configured)
      · exact Or.inr (Or.inr ⟨bytes,sized,run_vouched w h split given,same⟩)

/-- The provider fails between two calls and recovers before the third: the second seals nothing. -/
theorem sealing_gated_outage :
    let p : EntropyProvider UInt8 := ⟨fun r => r≠0,DeterministicRandom.fill⟩
    let host : Host UInt8 := {testHost (TinyCipher .testOnly 2 2 2) 1 [1,2] with
      random := RandomSource p}
    let w : Deployment Unit Unit UInt8 := new (fun _ => {outboundAlgorithm := .testOnly}) (fun _ => {}) 1
    let seals : Action Unit Unit UInt8 := .transport () (.protect host 3 (.bytes [9]))
    let ms : List (Moment Unit Unit UInt8) := [.call seals,.drift 0,.call seals,.drift 40,.call seals]
    let run := (gated Unit Unit UInt8).trace w ms
    let down := (gated Unit Unit UInt8).after w [.call seals,.drift 0]
    (sealsOf (run.flatMap (·.2))).map SealCall.nonce=[[9,10],[40,41]] ∧
    (∀ call,Effect.sealed call∉(step down seals).2.effects) ∧
    Vouched p 1 (run.flatMap drawn) [40,41] := by
  intro p host w seals ms run down
  obtain ⟨_,vouched,calls⟩ := sealing_gated p w ms (by simp [ms,seals,Action.DrawsFrom,host])
  have nonces : (sealsOf (run.flatMap (·.2))).map SealCall.nonce=[[9,10],[40,41]] := by
    decide +kernel
  refine ⟨nonces,?_,?_⟩
  · exact (calls [.call seals,.drift 0] seals [.drift 40,.call seals] rfl).1 (by decide +kernel)
  · obtain ⟨call,hc,nonce⟩ : ∃call∈sealsOf (run.flatMap (·.2)),call.nonce=[40,41] := by
      rw [← List.mem_map,nonces]
      exact List.mem_cons_of_mem _ List.mem_cons_self
    rw [← nonce]
    exact vouched call (mem_sealsOf.mp hc).1

end Deployment
end ESPressioSecurity
