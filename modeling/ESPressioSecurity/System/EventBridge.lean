import ESPressioSecurity.Framework.Broadcast
import ESPressioSecurity.Model.TestDoubles
import ESPressioSecurity.System.Site
import ESPressioSecurity.Transport.Notifications

namespace ESPressioSecurity

open Framework

/-! ### What one instance of a deployment tells -/

namespace Deployment

variable {ι κ ρ : Type}

/-- The instance that an action calls. -/
def Action.target : Action ι κ ρ → Option ι
  | transport i _ => some i
  | send i _ _ _ _ => some i
  | receive i _ _ _ _ => some i
  | _ => none

variable [DecidableEq ι] [DecidableEq κ]

omit [DecidableEq κ] in
theorem on_target (a : Action ι κ ρ) (i : ι) : (a.on i).isSome=true ↔ a.target=some i := by
  cases a with
  | transport j op => by_cases h : j=i <;> simp [Action.on,Action.target,h]
  | send j host carrier protocol data => by_cases h : j=i <;> simp [Action.on,Action.target,h]
  | receive j host decorator protocol input =>
    by_cases h : j=i <;> simp [Action.on,Action.target,h]
  | _ => simp [Action.on,Action.target]

/-- The effects of an action are those of the call it makes. -/
theorem effects_on (w : Deployment ι κ ρ) {a : Action ι κ ρ} {i : ι}
    {op : TransportSecurity.Operation ρ} (h : a.on i=some op) :
    (step w a).2.effects=(TransportSecurity.step (w.transports i,w.random) op).2.effects := by
  cases a with
  | transport j o =>
    simp only [Action.on,Option.ite_none_right_eq_some,Option.some.injEq] at h
    obtain ⟨rfl,rfl⟩ := h
    rfl
  | send j host carrier protocol data =>
    simp only [Action.on,Option.ite_none_right_eq_some,Option.some.injEq] at h
    obtain ⟨rfl,rfl⟩ := h
    simp only [step,Response.effects,SecureTransportDecorator.send]
    split_ifs <;> rfl
  | receive j host decorator protocol input =>
    simp only [Action.on,Option.ite_none_right_eq_some,Option.some.injEq] at h
    obtain ⟨rfl,rfl⟩ := h
    simp only [step,Response.effects,SecureTransportDecorator.handleReceive]
    split_ifs <;> rfl
  | dataProtect k host plaintext context => exact absurd h (by simp [Action.on])
  | dataUnprotect k host protectedData context => exact absurd h (by simp [Action.on])
  | dataSetConfig k config => exact absurd h (by simp [Action.on])

/-- The notifications of instance `i` among a history. -/
def heardFrom (i : ι) (x : Action ι κ ρ×Response) : List Notification :=
  if x.1.target=some i then TransportSecurity.heard x.2.effects else []

theorem step_watched (w : Deployment ι κ ρ) (a : Action ι κ ρ) (i : ι)
    (watched : (w.transports i).observable=true) :
    ((step w a).1.transports i).observable=true := by
  rw [step_on w a i]
  cases a.on i with
  | none => exact watched
  | some op => exact TransportSecurity.step_observable (w.transports i,w.random) op watched

theorem step_tracked (w : Deployment ι κ ρ) (a : Action ι κ ρ) (i : ι)
    (consistent : (w.transports i).Consistent) (watched : (w.transports i).observable=true) :
    (heardFrom i (a,(step w a).2)).foldlM TransportSecurity.track (w.transports i).sessionID=
      some ((step w a).1.transports i).sessionID := by
  have called := on_target a i
  rw [heardFrom,step_on w a i]
  cases hop : a.on i with
  | none =>
    rw [hop] at called
    rw [if_neg (fun h => absurd (called.mpr h) (by simp))]
    rfl
  | some op =>
    rw [hop] at called
    rw [if_pos (called.mp rfl),effects_on w hop]
    exact TransportSecurity.step_tracked (w.transports i,w.random) op consistent watched

end Deployment

/-- The library's `ThreadSafeObservable` for observers `β`: what registering, unregistering and the end
of a handle do to its state, and `withObservers`, which runs a callback on the observers in turn. -/
structure ThreadSafeObservable (β : Type) where
  State : Type
  Handle : Type
  initial : State
  registerObserver : State → β → State×Option Handle
  unregisterObserver : State → β → State
  release : State → Handle → State
  withObservers : {τ : Type} → State → (τ → β → τ) → τ → τ

/-- What the library promises, with the observers that a state lists and the one that a handle stands
for: an observer is listed from its registration on until it is unregistered or its handle ends, and
`withObservers` gets to each listed one once. -/
structure ThreadSafeObservable.Lawful {β : Type} (o : ThreadSafeObservable β)
    (observers : o.State → List β) (holder : o.Handle → β) : Prop where
  initial : observers o.initial=[]
  once : ∀ s,(observers s).Nodup
  told : ∀ {τ : Type} (s : o.State) (f : τ → β → τ) (x : τ),
    o.withObservers s f x=(observers s).foldl f x
  registered : ∀ {s t : o.State} {b : β} {h : o.Handle},b∉observers s →
    o.registerObserver s b=(t,some h) → holder h=b ∧ ∀ c,c∈observers t ↔ c=b ∨ c∈observers s
  refused : ∀ {s t : o.State} {b : β},b∉observers s → o.registerObserver s b=(t,none) →
    ∀ c,c∈observers t ↔ c∈observers s
  unregistered : ∀ (s : o.State) (b c : β),
    c∈observers (o.unregisterObserver s b) ↔ c≠b ∧ c∈observers s
  released : ∀ (s : o.State) (h : o.Handle) (c : β),
    c∈observers (o.release s h) ↔ c≠holder h ∧ c∈observers s

/-- `TransportSecurityEventBridge`; its handle `η` knows where it is registered. -/
structure EventBridge (η : Type) where
  observerHandle : Option η
  initialized : Bool

/-- Services with their observables, the bridges `β`, and the events that each bridge has queued: one
kind of event for each kind of notification. -/
structure Observatory {β : Type} (o : ThreadSafeObservable β) (ι κ ρ : Type) where
  services : Deployment ι κ ρ
  observables : ι → o.State
  bridges : β → EventBridge (ι×o.Handle)
  queue : β → List Notification

namespace Observatory

variable {ι κ β ρ : Type} {o : ThreadSafeObservable β}

def new (services : Deployment ι κ ρ) : Observatory o ι κ ρ :=
  ⟨services,fun _ => o.initial,fun _ => ⟨none,false⟩,fun _ => []⟩

/-- A call says which callbacks throw, `initializeOn` whether the observable can be allocated. -/
inductive Action (ι κ β ρ : Type)
  | call (a : Deployment.Action ι κ ρ) (throws : β → Notification → Bool)
  | initializeOn (b : β) (i : ι) (allocates : Bool)
  | shutdown (b : β)
  | unregister (i : ι) (b : β)

inductive Response (ι κ ρ : Type)
  | answered (a : Deployment.Action ι κ ρ) (response : Deployment.Response)
  | initialized (done : Bool)
  | done

variable [DecidableEq ι] [DecidableEq κ] [DecidableEq β]

/-- `Notify`: a callback that throws is caught, and its bridge queues nothing. -/
def notify (throws : β → Notification → Bool) (s : o.State) (queue : β → List Notification)
    (n : Notification) : β → List Notification :=
  o.withObservers s (fun q b => if throws b n then q else Function.update q b (q b++[n])) queue

def step (p : Observatory o ι κ ρ) : Action ι κ β ρ → Observatory o ι κ ρ×Response ι κ ρ
  | .call a throws =>
    let r := p.services.step a
    let queue := match a.target with
      | none => p.queue
      | some i =>
        (TransportSecurity.heard r.2.effects).foldl (notify throws (p.observables i)) p.queue
    ({p with services := r.1,queue := queue},.answered a r.2)
  | .initializeOn b i allocates =>
    if (p.bridges b).initialized then (p,.initialized true)
    else if (p.services.transports i).observable=false ∧ allocates=false then
      ({p with bridges := Function.update p.bridges b ⟨none,false⟩},.initialized false)
    else
      -- the observable is there from now on, whether or not it gives a handle
      let a : Deployment.Action ι κ ρ := .transport i .registerObserver
      let r := o.registerObserver (p.observables i) b
      let t : Observatory o ι κ ρ := {p with
        services := (p.services.step a).1
        observables := Function.update p.observables i r.1}
      match r.2 with
      | some h => ({t with bridges := Function.update p.bridges b ⟨some (i,h),true⟩},.initialized true)
      | none => ({t with bridges := Function.update p.bridges b ⟨none,false⟩},.initialized false)
  | .shutdown b =>
    let observables := match (p.bridges b).observerHandle with
      | none => p.observables
      | some (i,h) => Function.update p.observables i (o.release (p.observables i) h)
    ({p with
        observables := observables
        bridges := Function.update p.bridges b ⟨none,false⟩},.done)
  | .unregister i b =>
    if (p.services.transports i).observable then
      let t := o.unregisterObserver (p.observables i) b
      ({p with observables := Function.update p.observables i t},.done)
    else (p,.done)

def machine (o : ThreadSafeObservable β) (ι κ ρ : Type) [DecidableEq ι] [DecidableEq κ] :
    Machine (Observatory o ι κ ρ) (Action ι κ β ρ) (Response ι κ ρ) := ⟨step⟩

/-! ### Registrations -/

variable {observers : o.State → List β} {holder : o.Handle → β}

omit [DecidableEq κ] [DecidableEq β] in
theorem mem_updated {f : ι → o.State} {i j : ι} {s : o.State} {c : β} :
    c∈observers (Function.update f i s j) ↔
      j=i ∧ c∈observers s ∨ j≠i ∧ c∈observers (f j) := by
  by_cases hj : j=i
  · subst hj
    simp
  · simp [hj]

/-- A bridge that an observable lists holds a handle of it, and every handle stands for the bridge that
holds it. -/
structure Sound (observers : o.State → List β) (holder : o.Handle → β) (p : Observatory o ι κ ρ) :
    Prop where
  consistent : ∀ i,(p.services.transports i).Consistent
  owned : ∀ b i h,(p.bridges b).observerHandle=some (i,h) → holder h=b
  held : ∀ i,∀b∈observers (p.observables i),∃ h,p.bridges b=⟨some (i,h),true⟩
  watched : ∀ i,∀b∈observers (p.observables i),(p.services.transports i).observable=true

omit [DecidableEq ι] [DecidableEq κ] [DecidableEq β] in
theorem new_sound (lawful : o.Lawful observers holder) (configs : ι → TransportSecurityConfig)
    (dataConfigs : κ → DataProtectionConfig) (r : ρ) :
    Sound observers holder (new (Deployment.new configs dataConfigs r) : Observatory o ι κ ρ) := by
  have nobody : ∀ b,b∉observers o.initial := by simp [lawful.initial]
  refine ⟨Deployment.new_consistent configs dataConfigs r,?_,?_,?_⟩
  · intro b i h held
    exact absurd held (by simp [new])
  · intro i b hb
    exact absurd hb (nobody b)
  · intro i b hb
    exact absurd hb (nobody b)

omit [DecidableEq ι] [DecidableEq κ] [DecidableEq β] in
/-- Losing registrations, and the handles of bridges that are not registered, does no harm. -/
theorem Sound.lessened {p q : Observatory o ι κ ρ} (h : p.Sound observers holder)
    (services : q.services=p.services)
    (fewer : ∀ i c,c∈observers (q.observables i) → c∈observers (p.observables i))
    (kept : ∀ c,q.bridges c=p.bridges c ∨
      (q.bridges c).observerHandle=none ∧ ∀ i,c∉observers (q.observables i)) :
    q.Sound observers holder := by
  refine ⟨?_,?_,?_,?_⟩
  · intro i
    rw [services]
    exact h.consistent i
  · intro c i x hx
    rcases kept c with same|⟨none,_⟩
    · rw [same] at hx
      exact h.owned c i x hx
    · exact absurd (none.symm.trans hx) (by simp)
  · intro i c hc
    rcases kept c with same|⟨_,unlisted⟩
    · rw [same]
      exact h.held i c (fewer i c hc)
    · exact absurd hc (unlisted i)
  · intro i c hc
    rw [services]
    exact h.watched i c (fewer i c hc)

omit [DecidableEq β] in
theorem Sound.served {p : Observatory o ι κ ρ} (h : p.Sound observers holder)
    (a : Deployment.Action ι κ ρ) (queue : β → List Notification) :
    Sound observers holder {p with services := (p.services.step a).1,queue := queue} := by
  refine ⟨Deployment.step_consistent p.services a h.consistent,h.owned,h.held,?_⟩
  intro i b hb
  exact Deployment.step_watched p.services a i (h.watched i b hb)

omit [DecidableEq ι] [DecidableEq κ] [DecidableEq β] in
theorem Sound.unlisted {p : Observatory o ι κ ρ} (h : p.Sound observers holder) {b : β}
    (off : (p.bridges b).initialized=false) (i : ι) : b∉observers (p.observables i) := by
  intro hb
  obtain ⟨x,held⟩ := h.held i b hb
  rw [held] at off
  exact absurd off (by simp)

omit [DecidableEq ι] [DecidableEq κ] [DecidableEq β] in
/-- A bridge is listed by no other observable than that of its handle. -/
theorem Sound.elsewhere {p : Observatory o ι κ ρ} (h : p.Sound observers holder) {b : β} {i j : ι}
    {x : o.Handle} (held : (p.bridges b).observerHandle=some (i,x)) (other : j≠i) :
    b∉observers (p.observables j) := by
  intro hb
  obtain ⟨y,same⟩ := h.held j b hb
  rw [same] at held
  exact other (congrArg Prod.fst (Option.some.inj held))

/-- A started bridge is listed by its observable beside those listed before. -/
theorem started_sound (lawful : o.Lawful observers holder) {p : Observatory o ι κ ρ}
    (h : p.Sound observers holder) {b : β} (off : (p.bridges b).initialized=false) {i : ι}
    {s : o.State} {x : o.Handle} (made : o.registerObserver (p.observables i) b=(s,some x)) :
    Sound observers holder {p with
      services := (p.services.step (.transport i .registerObserver)).1
      observables := Function.update p.observables i s
      bridges := Function.update p.bridges b ⟨some (i,x),true⟩} := by
  obtain ⟨mine,listed⟩ := lawful.registered (h.unlisted off i) made
  have t := h.served (.transport i .registerObserver) p.queue
  have before : ∀ j c,c≠b → c∈observers (Function.update p.observables i s j) →
      c∈observers (p.observables j) := by
    intro j c other hc
    obtain ⟨rfl,now⟩|⟨_,now⟩ := mem_updated.mp hc
    · exact ((listed c).mp now).resolve_left other
    · exact now
  refine ⟨t.consistent,?_,?_,?_⟩
  · intro c j y hy
    by_cases same : c=b
    · subst same
      simp only [Function.update_self,Option.some.injEq,Prod.mk.injEq] at hy
      rw [← hy.2]
      exact mine
    · simp only [Function.update_of_ne same] at hy
      exact h.owned c j y hy
  · intro j c hc
    by_cases same : c=b
    · subst same
      obtain ⟨rfl,_⟩|⟨_,hc⟩ := mem_updated.mp hc
      · exact ⟨x,by simp⟩
      · exact absurd hc (h.unlisted off j)
    · simp only [Function.update_of_ne same]
      exact h.held j c (before j c same hc)
  · intro j c hc
    obtain ⟨rfl,_⟩|⟨_,hc⟩ := mem_updated.mp hc
    · simp [Deployment.step,TransportSecurity.step,TransportSecurity.registerObserver]
    · exact t.watched j c hc

theorem initialize_sound (lawful : o.Lawful observers holder) {p : Observatory o ι κ ρ}
    (h : p.Sound observers holder) (b : β) (i : ι) (allocates : Bool) :
    (step p (.initializeOn b i allocates)).1.Sound observers holder := by
  rw [step]
  split_ifs with started refused
  · exact h
  · have off := Bool.eq_false_of_not_eq_true started
    refine h.lessened rfl (fun _ _ hc => hc) ?_
    intro c
    by_cases same : c=b
    · subst same
      exact Or.inr ⟨by simp,fun j => h.unlisted off j⟩
    · exact Or.inl (by simp [same])
  · have off := Bool.eq_false_of_not_eq_true started
    rcases made : o.registerObserver (p.observables i) b with ⟨s,_|x⟩
    · have listed := lawful.refused (h.unlisted off i) made
      have t := h.served (.transport i .registerObserver) p.queue
      have fewer : ∀ j c,c∈observers (Function.update p.observables i s j) →
          c∈observers (p.observables j) := by
        intro j c hc
        obtain ⟨rfl,now⟩|⟨_,now⟩ := mem_updated.mp hc
        · exact (listed c).mp now
        · exact now
      refine t.lessened rfl fewer ?_
      intro c
      by_cases same : c=b
      · subst same
        exact Or.inr ⟨by simp,fun j hc => h.unlisted off j (fewer j c hc)⟩
      · exact Or.inl (by simp [same])
    · exact started_sound lawful h off made

/-- A bridge that is shut down is listed nowhere. -/
theorem shutdown_sound (lawful : o.Lawful observers holder) {p : Observatory o ι κ ρ}
    (h : p.Sound observers holder) (b : β) :
    (step p (.shutdown b : Action ι κ β ρ)).1.Sound observers holder := by
  rcases hb : (p.bridges b).observerHandle with _|⟨i,x⟩
  · simp only [step,hb]
    refine h.lessened rfl (fun _ _ hc => hc) ?_
    intro c
    by_cases same : c=b
    · subst same
      refine Or.inr ⟨by simp,?_⟩
      intro j hc
      obtain ⟨x,held⟩ := h.held j c hc
      rw [held] at hb
      exact absurd hb (by simp)
    · exact Or.inl (by simp [same])
  · have mine := h.owned b i x hb
    simp only [step,hb]
    refine h.lessened rfl ?_ ?_
    · intro j c hc
      obtain ⟨rfl,still⟩|⟨_,still⟩ := mem_updated.mp hc
      · exact ((lawful.released _ _ _).mp still).2
      · exact still
    · intro c
      by_cases same : c=b
      · subst same
        refine Or.inr ⟨by simp,?_⟩
        intro j hc
        obtain ⟨rfl,still⟩|⟨hj,still⟩ := mem_updated.mp hc
        · exact ((lawful.released _ _ _).mp still).1 mine.symm
        · exact h.elsewhere hb hj still
      · exact Or.inl (by simp [same])

theorem step_sound (lawful : o.Lawful observers holder) {p : Observatory o ι κ ρ}
    (h : p.Sound observers holder) (a : Action ι κ β ρ) : (step p a).1.Sound observers holder := by
  cases a with
  | call a throws => exact h.served a _
  | initializeOn b i allocates => exact initialize_sound lawful h b i allocates
  | shutdown b => exact shutdown_sound lawful h b
  | unregister i b =>
    rw [step]
    split_ifs
    · refine h.lessened rfl ?_ (fun c => Or.inl rfl)
      intro j c hc
      obtain ⟨rfl,still⟩|⟨_,still⟩ := mem_updated.mp hc
      · exact ((lawful.unregistered _ _ _).mp still).2
      · exact still
    · exact h

theorem run_sound (lawful : o.Lawful observers holder) (configs : ι → TransportSecurityConfig)
    (dataConfigs : κ → DataProtectionConfig) (r : ρ) (as : List (Action ι κ β ρ)) :
    ((machine o ι κ ρ).after (new (Deployment.new configs dataConfigs r)) as).Sound observers
      holder :=
  (machine o ι κ ρ).invariant_state (I := Sound observers holder) as
    (new_sound lawful configs dataConfigs r) (fun _ a _ h => step_sound lawful h a)

/-! ### One bridge during a run -/

theorem notify_eq (lawful : o.Lawful observers holder) (throws : β → Notification → Bool)
    (s : o.State) : notify throws s=Broadcast.tell throws (observers s) := by
  funext queue n
  rw [notify,lawful.told,Broadcast.tell]

/-- Bridge `b` is neither shut down nor unregistered from service `i`, and its own callbacks do not
throw. -/
def Action.Leaves (i : ι) (b : β) : Action ι κ β ρ → Prop
  | .call _ throws => ∀ n,throws b n=false
  | .initializeOn _ _ _ => True
  | .shutdown c => c≠b
  | .unregister j c => j=i → c≠b

/-- What service `i` told its observers at an entry of the history. -/
def told (i : ι) (x : Action ι κ β ρ×Response ι κ ρ) : List Notification :=
  match x.2 with
  | .answered a response => Deployment.heardFrom i (a,response)
  | _ => []

/-- The bridge queued what service `i` told in the step, and that accounts for the session. -/
structure Reported (observers : o.State → List β) (p q : Observatory o ι κ ρ) (i : ι) (b : β)
    (ns : List Notification) : Prop where
  listed : b∈observers (q.observables i)
  queued : q.queue b=p.queue b++ns
  tracked : ns.foldlM TransportSecurity.track (p.services.transports i).sessionID=
    some (q.services.transports i).sessionID

omit [DecidableEq ι] [DecidableEq κ] [DecidableEq β] in
theorem Reported.unaffected {p q : Observatory o ι κ ρ} {i : ι} {b : β}
    (listed : b∈observers (q.observables i)) (queue : q.queue b=p.queue b)
    (session : (q.services.transports i).sessionID=(p.services.transports i).sessionID) :
    Reported observers p q i b [] :=
  ⟨listed,by simp [queue],by rw [session]; rfl⟩

omit [DecidableEq ι] [DecidableEq κ] [DecidableEq β] in
theorem Reported.trans {p q u : Observatory o ι κ ρ} {i : ι} {b : β} {ns ms : List Notification}
    (h : Reported observers p q i b ns) (k : Reported observers q u i b ms) :
    Reported observers p u i b (ns++ms) := by
  refine ⟨k.listed,?_,?_⟩
  · rw [k.queued,h.queued,List.append_assoc]
  · rw [List.foldlM_append,h.tracked]
    exact k.tracked

theorem call_reported (lawful : o.Lawful observers holder) {p : Observatory o ι κ ρ}
    (h : p.Sound observers holder) {i : ι} {b : β} (listed : b∈observers (p.observables i))
    (a : Deployment.Action ι κ ρ) (throws : β → Notification → Bool)
    (calm : ∀ n,throws b n=false) :
    Reported observers p (step p (.call a throws)).1 i b
      (told i ((.call a throws : Action ι κ β ρ),(step p (.call a throws)).2)) := by
  refine ⟨listed,?_,?_⟩
  · simp only [step,told,Deployment.heardFrom,notify_eq lawful]
    cases ht : a.target with
    | none => simp
    | some j =>
      by_cases hj : j=i
      · subst hj
        have all := Broadcast.tellAll_of_mem throws (lawful.once (p.observables j)) p.queue
          (TransportSecurity.heard (p.services.step a).2.effects) listed
        simpa [calm,Broadcast.tellAll] using all
      · obtain ⟨x,held⟩ := h.held i b listed
        have elsewhere := h.elsewhere (b := b) (by rw [held]) hj
        have none_told := Broadcast.tellAll_of_not_mem throws (observers (p.observables j)) p.queue
          (TransportSecurity.heard (p.services.step a).2.effects) elsewhere
        simpa [hj,Broadcast.tellAll] using none_told
  · exact Deployment.step_tracked p.services a i (h.consistent i) (h.watched i b listed)

theorem initialize_reported (lawful : o.Lawful observers holder) {p : Observatory o ι κ ρ}
    (h : p.Sound observers holder) {i : ι} {b : β} (listed : b∈observers (p.observables i)) (c : β)
    (j : ι) (allocates : Bool) :
    Reported observers p (step p (.initializeOn c j allocates)).1 i b [] := by
  have session : ((p.services.step (.transport j .registerObserver)).1.transports i).sessionID=
      (p.services.transports i).sessionID := by
    by_cases hj : i=j
    · subst hj
      simp [Deployment.step,TransportSecurity.step,TransportSecurity.registerObserver]
    · simp [Deployment.step,hj]
  rw [step]
  split_ifs with started refused
  · exact .unaffected listed rfl rfl
  · exact .unaffected listed rfl rfl
  · have fresh := h.unlisted (Bool.eq_false_of_not_eq_true started) j
    have still : ∀ s,(∀ d,d∈observers (p.observables j) → d∈observers s) →
        b∈observers (Function.update p.observables j s i) := by
      intro s more
      refine mem_updated.mpr ?_
      by_cases hj : i=j
      · subst hj
        exact Or.inl ⟨rfl,more b listed⟩
      · exact Or.inr ⟨hj,listed⟩
    rcases made : o.registerObserver (p.observables j) c with ⟨s,_|x⟩
    · have all := lawful.refused fresh made
      exact .unaffected (still s (fun d hd => (all d).mpr hd)) rfl session
    · obtain ⟨_,all⟩ := lawful.registered fresh made
      exact .unaffected (still s (fun d hd => (all d).mpr (Or.inr hd))) rfl session

theorem step_reported (lawful : o.Lawful observers holder) {p : Observatory o ι κ ρ}
    (h : p.Sound observers holder) {i : ι} {b : β} (listed : b∈observers (p.observables i))
    {a : Action ι κ β ρ} (leaves : a.Leaves i b) :
    Reported observers p (step p a).1 i b (told i (a,(step p a).2)) := by
  cases a with
  | call a throws => exact call_reported lawful h listed a throws leaves
  | initializeOn c j allocates =>
    have silent : told i ((.initializeOn c j allocates : Action ι κ β ρ),
        (step p (.initializeOn c j allocates)).2)=[] := by
      rw [step]
      split_ifs
      · rfl
      · rfl
      · dsimp only
        cases (o.registerObserver (p.observables j) c).2 <;> rfl
    rw [silent]
    exact initialize_reported lawful h listed c j allocates
  | shutdown c =>
    have other : b≠c := Ne.symm leaves
    refine .unaffected ?_ rfl rfl
    rcases hc : (p.bridges c).observerHandle with _|⟨j,x⟩
    · simpa [step,hc] using listed
    · have theirs := h.owned c j x hc
      simp only [step,hc]
      refine mem_updated.mpr ?_
      by_cases hj : i=j
      · subst hj
        exact Or.inl ⟨rfl,(lawful.released _ _ _).mpr ⟨theirs ▸ other,listed⟩⟩
      · exact Or.inr ⟨hj,listed⟩
  | unregister j c =>
    rw [step]
    split_ifs
    · refine .unaffected (mem_updated.mpr ?_) rfl rfl
      by_cases hj : i=j
      · subst hj
        exact Or.inl ⟨rfl,(lawful.unregistered _ _ _).mpr ⟨Ne.symm (leaves rfl),listed⟩⟩
      · exact Or.inr ⟨hj,listed⟩
    · exact .unaffected listed rfl rfl

theorem run_reported (lawful : o.Lawful observers holder) {p : Observatory o ι κ ρ}
    (h : p.Sound observers holder) {i : ι} {b : β} (listed : b∈observers (p.observables i))
    (as : List (Action ι κ β ρ)) (leaves : ∀a∈as,a.Leaves i b) :
    Reported observers p ((machine o ι κ ρ).after p as) i b
      (((machine o ι κ ρ).trace p as).flatMap (told i)) := by
  induction as generalizing p with
  | nil => exact .unaffected listed rfl rfl
  | cons a as ih =>
    have first := step_reported lawful h listed (leaves a (by simp))
    have rest := ih (step_sound lawful h a) first.listed (fun c hc => leaves c (by simp [hc]))
    exact first.trans rest

/-- A bridge that is not started queues nothing. -/
theorem idle_step (lawful : o.Lawful observers holder) {p : Observatory o ι κ ρ}
    (h : p.Sound observers holder) {b : β} (off : (p.bridges b).initialized=false)
    {a : Action ι κ β ρ} (unasked : ∀ j allocates,a≠.initializeOn b j allocates) :
    ((step p a).1.bridges b).initialized=false ∧ (step p a).1.queue b=p.queue b := by
  cases a with
  | call a throws =>
    refine ⟨off,?_⟩
    simp only [step,notify_eq lawful]
    cases a.target with
    | none => rfl
    | some j => exact Broadcast.tellAll_of_not_mem throws _ p.queue _ (h.unlisted off j)
  | initializeOn c j allocates =>
    have other : b≠c := fun same => unasked j allocates (by rw [same])
    simp only [step]
    split_ifs
    · exact ⟨off,rfl⟩
    · simp [off,other]
    · cases (o.registerObserver (p.observables j) c).2 <;> simp [off,other]
  | shutdown c =>
    by_cases hc : b=c <;> simp [step,off,hc]
  | unregister j c =>
    rw [step]
    split_ifs <;> exact ⟨off,rfl⟩

theorem run_idle (lawful : o.Lawful observers holder) {p : Observatory o ι κ ρ}
    (h : p.Sound observers holder) {b : β} (off : (p.bridges b).initialized=false)
    (as : List (Action ι κ β ρ)) (unasked : ∀a∈as,∀ j allocates,a≠.initializeOn b j allocates) :
    ((machine o ι κ ρ).after p as).queue b=p.queue b := by
  induction as generalizing p with
  | nil => rfl
  | cons a as ih =>
    obtain ⟨still,same⟩ := idle_step lawful h off (unasked a (by simp))
    exact (ih (step_sound lawful h a) still (fun c hc => unasked c (by simp [hc]))).trans same

/-- A start that succeeds on a bridge that was off lists it and leaves queue and session. -/
theorem initialize_listed (lawful : o.Lawful observers holder) {p : Observatory o ι κ ρ}
    (h : p.Sound observers holder) {b : β} (off : (p.bridges b).initialized=false) {i : ι}
    {allocates : Bool} (started : (step p (.initializeOn b i allocates)).2=.initialized true) :
    let u := (step p (.initializeOn b i allocates)).1
    b∈observers (u.observables i) ∧ u.queue b=p.queue b ∧
      (u.services.transports i).sessionID=(p.services.transports i).sessionID := by
  rw [step] at started ⊢
  split_ifs at started ⊢ with on refused
  · exact absurd off (by simp [on])
  · exact absurd started (by simp)
  · rcases made : o.registerObserver (p.observables i) b with ⟨s,_|x⟩
    · rw [made] at started
      exact absurd started (by simp)
    · obtain ⟨_,listed⟩ := lawful.registered (h.unlisted off i) made
      refine ⟨?_,rfl,?_⟩
      · exact mem_updated.mpr (Or.inl ⟨rfl,(listed b).mpr (Or.inl rfl)⟩)
      · simp [Deployment.step,TransportSecurity.step,TransportSecurity.registerObserver]

/-- From its first successful start on service `i` since it was made or shut down, a bridge queues every
notification of `i`, in order and once, until it is shut down, and nothing afterwards: as long as it is
not unregistered from `i` and its own callbacks do not throw, whatever other bridges do, throw or hear,
and though it be asked to start on another service. The events from any such start tell the session
identifier of the service. -/
theorem bridge_reconstructs (lawful : o.Lawful observers holder)
    (configs : ι → TransportSecurityConfig) (dataConfigs : κ → DataProtectionConfig) (r : ρ)
    (earlier later idle : List (Action ι κ β ρ)) (b : β) (i : ι) (allocates : Bool)
    (off : (((machine o ι κ ρ).after (new (Deployment.new configs dataConfigs r))
      earlier).bridges b).initialized=false)
    (started : (step ((machine o ι κ ρ).after (new (Deployment.new configs dataConfigs r)) earlier)
      (.initializeOn b i allocates)).2=.initialized true)
    (leaves : ∀a∈later,a.Leaves i b)
    (unasked : ∀a∈idle,∀ j allocates,a≠.initializeOn b j allocates) :
    let p := (machine o ι κ ρ).after (new (Deployment.new configs dataConfigs r)) earlier
    let u := (step p (.initializeOn b i allocates)).1
    let events := ((machine o ι κ ρ).trace u later).flatMap (told i)
    let now := (machine o ι κ ρ).after u later
    now.queue b=p.queue b++events ∧
    events.foldlM TransportSecurity.track (p.services.transports i).sessionID=
      some (now.services.transports i).sessionID ∧
    ((machine o ι κ ρ).after (step now (.shutdown b)).1 idle).queue b=now.queue b := by
  intro p u events now
  have sound : p.Sound observers holder := run_sound lawful configs dataConfigs r earlier
  obtain ⟨listed,queue,session⟩ := initialize_listed lawful sound off started
  have reported := run_reported lawful (step_sound lawful sound _) listed later leaves
  refine ⟨?_,?_,?_⟩
  · rw [← queue]
    exact reported.queued
  · rw [← session]
    exact reported.tracked
  · have live : now.Sound observers holder :=
      (machine o ι κ ρ).invariant_state (I := Sound observers holder) later
        (step_sound lawful sound _) (fun _ a _ h => step_sound lawful h a)
    have closed : ((step now (.shutdown b)).1.bridges b).initialized=false := by simp [step]
    exact run_idle lawful (step_sound lawful live _) closed idle unasked

/-- An observable that keeps its observers in a list, and whose handles name theirs. -/
def listObservable (β : Type) [DecidableEq β] : ThreadSafeObservable β where
  State := {l : List β // l.Nodup}
  Handle := β
  initial := ⟨[],List.nodup_nil⟩
  registerObserver s b :=
    if h : b∈s.val then (s,none)
    else (⟨b::s.val,List.nodup_cons.mpr ⟨h,s.property⟩⟩,some b)
  unregisterObserver s b := ⟨s.val.erase b,s.property.erase b⟩
  release s b := ⟨s.val.erase b,s.property.erase b⟩
  withObservers s f x := s.val.foldl f x

theorem listObservable_lawful (β : Type) [DecidableEq β] :
    (listObservable β).Lawful Subtype.val id := by
  have erased : ∀ (s : {l : List β // l.Nodup}) (b c : β),c∈s.val.erase b ↔ c≠b ∧ c∈s.val :=
    fun s b c => s.property.mem_erase_iff
  refine ⟨rfl,fun s => s.property,fun _ _ _ => rfl,?_,?_,erased,erased⟩
  · intro s t b h fresh made
    simp only [listObservable,dif_neg fresh] at made
    obtain ⟨rfl,same⟩ := Prod.mk.inj made
    obtain rfl := Option.some.inj same
    exact ⟨rfl,fun c => List.mem_cons⟩
  · intro s t b fresh made
    simp only [listObservable,dif_neg fresh] at made
    exact absurd (Prod.mk.inj made).2 (by simp)

/-- A second bridge throws on every notification, and the first is asked to start elsewhere. -/
theorem bridge_reconstructs_once :
    let host := testHost (TinyCipher .testOnly 2 2 2) 1 [1,2]
    let config : TransportSecurityConfig := {outboundAlgorithm := .testOnly}
    let start : Observatory (listObservable Bool) Bool Unit UInt8 :=
      new (Deployment.new (fun _ => config) (fun _ => {}) 1)
    let send : Action Bool Unit Bool UInt8 :=
      .call (.transport false (.protect host 3 (.bytes [9]))) (fun c _ => c)
    let later := [.initializeOn true false true,send,.initializeOn false true true]
    let u := (step start (.initializeOn false false true)).1
    let now := (machine (listObservable Bool) Bool Unit UInt8).after u later
    now.queue false=[.sessionEstablished 578437695752307201] ∧
    ((machine (listObservable Bool) Bool Unit UInt8).after (step now (.shutdown false)).1
      [send]).queue false=now.queue false := by
  intro host config start send later u now
  have calm : ∀a∈later,a.Leaves false false := by
    intro a ha
    simp only [later,List.mem_cons,List.not_mem_nil,or_false] at ha
    rcases ha with rfl|rfl|rfl
    · exact trivial
    · exact fun _ => rfl
    · exact trivial
  obtain ⟨queue,_,closed⟩ := bridge_reconstructs (listObservable_lawful Bool) (fun _ => config)
    (fun _ => {}) (1 : UInt8) [] later [send] false false true rfl rfl calm (by simp [send])
  exact ⟨queue.trans (by decide +kernel),closed⟩

end Observatory
end ESPressioSecurity
