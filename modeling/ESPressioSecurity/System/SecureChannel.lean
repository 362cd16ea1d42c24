import ESPressioSecurity.System.Authenticity

namespace ESPressioSecurity

open Framework

namespace Deployment

variable {ι κ ρ : Type} [DecidableEq ι] [DecidableEq κ]

/-! ### What the receiver has delivered -/

/-- A delivery is made by a receive call whose `Unprotect` succeeded. -/
theorem delivery_step {w : Deployment ι κ ρ} {a : Action ι κ ρ} {rx : ι} {protocol : UInt8}
    {payload : UnprotectedPayload} (h : delivery rx (a,(step w a).2)=some (protocol,payload)) :
    ∃ host decorator input,a=.receive rx host decorator protocol input ∧
      ((w.transports rx).unprotect host protocol input).result.success=true ∧
      payload=((w.transports rx).unprotect host protocol input).payload := by
  cases a with
  | receive j host decorator p input =>
    simp only [step,delivery] at h
    by_cases hj : j=rx
    · rw [if_pos hj] at h
      obtain ⟨ok,rfl,rfl⟩ := SecureTransportDecorator.delivered_some h
      subst hj
      exact ⟨host,decorator,input,rfl,ok,rfl⟩
    · rw [if_neg hj] at h
      exact absurd h (by simp)
  | transport i op => exact absurd h (by simp [delivery])
  | send i host carrier p data => exact absurd h (by simp [delivery])
  | dataProtect k host plaintext context => exact absurd h (by simp [delivery])
  | dataUnprotect k host protectedData context => exact absurd h (by simp [delivery])
  | dataSetConfig k config => exact absurd h (by simp [delivery])

/-- Neither `SetConfig` nor `ResetReplayProtection` is called on the receiver, and whenever it
receives, `Open` succeeds only on what the calls so far have sealed and no size wraps. -/
structure OnChannel (rx : ι) (past : List (Action ι κ ρ×Response)) (_ : Deployment ι κ ρ)
    (a : Action ι κ ρ) : Prop where
  undisturbed : ∀ op,a.on rx=some op → op.isControl=false
  authentic : ∀ host decorator protocol input,a=.receive rx host decorator protocol input →
    OpensOnly host (sealsOf (log past)) ∧ ∀ h,TransportSecurity.readHeader input.content=some h →
      TransportSecurity.NoWrap host h

/-- Every sequence delivered in the domain `d` is in `C`. -/
def Seen (rx : ι) (d : ReplayDomain) (past : List (Action ι κ ρ×Response)) (C : Set Nat) : Prop :=
  ∀x∈past,∀ protocol payload,delivery rx x=some (protocol,payload) → payload.domain=d →
    payload.sequence.toNat∈C

omit [DecidableEq κ] in
theorem Seen.push {rx : ι} {d : ReplayDomain} {past : List (Action ι κ ρ×Response)} {C D : Set Nat}
    (h : Seen rx d past C) (larger : C⊆D) {x : Action ι κ ρ×Response}
    (last : ∀ protocol payload,delivery rx x=some (protocol,payload) → payload.domain=d →
      payload.sequence.toNat∈D) : Seen rx d (past++[x]) D := by
  intro y hy protocol payload hd same
  rcases List.mem_append.mp hy with hy|hy
  · exact larger (h y hy protocol payload hd same)
  · rw [List.mem_singleton.mp hy] at hd
    exact last protocol payload hd same

/-- The policy stands, and the replay window holds every sequence that was delivered. -/
structure Watches (rx : ι) (past : List (Action ι κ ρ×Response)) (w : Deployment ι κ ρ) : Prop where
  policy : (w.transports rx).config.policy=.required
  seen : ∀ d,∃ C,(w.transports rx).replay.Committed d C ∧ Seen rx d past C

omit [DecidableEq κ] in
theorem watches_new (configs : ι → TransportSecurityConfig) (dataConfigs : κ → DataProtectionConfig)
    (r : ρ) (rx : ι) (required : (configs rx).policy=.required) :
    Watches rx [] (new configs dataConfigs r) := by
  have config : (TransportSecurity.new (configs rx)).config=configs rx := by
    rw [TransportSecurity.new]
    split_ifs <;> rfl
  have replay : (TransportSecurity.new (configs rx)).replay=
      ReplayWindow.new (configs rx).replayWindowSize := by
    rw [TransportSecurity.new]
    split_ifs <;> rfl
  refine ⟨(congrArg TransportSecurityConfig.policy config).trans required,?_⟩
  intro d
  refine ⟨∅,?_,fun x hx => absurd hx (by simp)⟩
  show (TransportSecurity.new (configs rx)).replay.Committed d ∅
  rw [replay]
  exact ReplayWindow.committed_new _ d

/-- A delivery under `Required` is what the step commits. -/
theorem delivery_commits {w : Deployment ι κ ρ} {a : Action ι κ ρ} {rx : ι}
    {op : TransportSecurity.Operation ρ} (hop : a.on rx=some op)
    (policy : (w.transports rx).config.policy=.required) {protocol : UInt8}
    {payload : UnprotectedPayload} (hd : delivery rx (a,(step w a).2)=some (protocol,payload)) :
    TransportSecurity.committed (TransportSecurity.step (w.transports rx,w.random) op).2=
      some (payload.domain,payload.sequence) := by
  obtain ⟨host,decorator,input,rfl,ok,rfl⟩ := delivery_step hd
  have same : op=.unprotect host protocol input := by simpa [Action.on] using hop.symm
  subst same
  exact (TransportSecurity.required_commits policy ok).2

theorem watches_undisturbed {rx : ι} {past : List (Action ι κ ρ×Response)} {w : Deployment ι κ ρ}
    {a : Action ι κ ρ} (h : Watches rx past w) (ha : ∀ op,a.on rx=some op → op.isControl=false) :
    Watches rx (past++[(a,(step w a).2)]) (step w a).1 := by
  have next := step_on w a rx
  cases hop : a.on rx with
  | none =>
    rw [hop] at next
    refine ⟨by rw [next]; exact h.policy,?_⟩
    intro d
    obtain ⟨C,hC,seen⟩ := h.seen d
    refine ⟨C,by rw [next]; exact hC,seen.push (subset_refl C) ?_⟩
    intro protocol payload hd
    obtain ⟨host,decorator,input,rfl,_⟩ := delivery_step hd
    exact absurd hop (by simp [Action.on])
  | some op =>
    rw [hop] at next
    obtain ⟨config,replay⟩ := TransportSecurity.step_replay (w.transports rx,w.random) op
      (ha op hop)
    refine ⟨by rw [next,config]; exact h.policy,?_⟩
    intro d
    obtain ⟨C,hC,seen⟩ := h.seen d
    rw [next]
    dsimp only
    rw [replay]
    cases hk : TransportSecurity.committed
        (TransportSecurity.step (w.transports rx,w.random) op).2 with
    | none =>
      refine ⟨C,hC,seen.push (subset_refl C) ?_⟩
      intro protocol payload hd
      have pair := delivery_commits hop h.policy hd
      rw [hk] at pair
      exact absurd pair (by simp)
    | some dq =>
      obtain ⟨d',q⟩ := dq
      by_cases he : d'=d
      · subst he
        refine ⟨insert q.toNat C,ReplayWindow.committed_commit _ d' q C hC,
          seen.push (Set.subset_insert _ C) ?_⟩
        intro protocol payload hd _
        have pair := delivery_commits hop h.policy hd
        rw [hk,Option.some.injEq,Prod.mk.injEq] at pair
        rw [pair.2]
        exact Set.mem_insert _ _
      · refine ⟨C,ReplayWindow.committed_commit_ne _ d' d q C (Ne.symm he) hC,
          seen.push (subset_refl C) ?_⟩
        intro protocol payload hd same
        have pair := delivery_commits hop h.policy hd
        rw [hk,Option.some.injEq,Prod.mk.injEq] at pair
        exact absurd (pair.1.trans same) he

theorem watches_step {rx : ι} {past : List (Action ι κ ρ×Response)} {w : Deployment ι κ ρ}
    {a : Action ι κ ρ} (h : Watches rx past w) (ha : OnChannel rx past w a) :
    Watches rx (past++[(a,(step w a).2)]) (step w a).1 :=
  watches_undisturbed h ha.undisturbed

/-- Under `Required` and without a reset no two deliveries share domain and sequence, whatever the
ciphers do. -/
theorem deliveries_distinct (configs : ι → TransportSecurityConfig)
    (dataConfigs : κ → DataProtectionConfig) (r : ρ) (rx : ι)
    (required : (configs rx).policy=.required) (as : List (Action ι κ ρ))
    (undisturbed : ∀a∈as,∀ op,a.on rx=some op → op.isControl=false) :
    (((machine ι κ ρ).trace (new configs dataConfigs r) as).filterMap (delivery rx)).Pairwise
      (fun x y => x.2.domain=y.2.domain → x.2.sequence≠y.2.sequence) := by
  induction as using List.reverseRecOn with
  | nil => exact List.Pairwise.nil
  | append_singleton as a ih =>
    have before := ih (fun b hb => undisturbed b (by simp [hb]))
    rw [(machine ι κ ρ).trace_snoc,List.filterMap_append,List.pairwise_append]
    refine ⟨before,?_,?_⟩
    · cases hd : delivery rx (a,((machine ι κ ρ).step
          ((machine ι κ ρ).after (new configs dataConfigs r) as) a).2) <;> simp [hd]
    · intro x hx y hy domain sequence
      obtain ⟨z,hz,earlier⟩ := List.mem_filterMap.mp hx
      obtain ⟨protocol,payload⟩ := y
      have now := by simpa using hy
      have watches : Watches rx ((machine ι κ ρ).trace (new configs dataConfigs r) as)
          ((machine ι κ ρ).after (new configs dataConfigs r) as) := by
        apply (machine ι κ ρ).invariant (P := fun _ _ b => ∀ op,b.on rx=some op → op.isControl=false)
          (watches_new configs dataConfigs r rx required)
          (fun _ _ _ h hb => watches_undisturbed h hb)
        intro past b future split
        exact undisturbed b (by simp [split])
      obtain ⟨C,hC,seen⟩ := watches.seen payload.domain
      obtain ⟨host,decorator,input,_,ok,same⟩ := delivery_step now
      have fresh := TransportSecurity.required_fresh watches.policy ok
      rw [← same] at fresh
      have admits := ((ReplayWindow.wouldAccept_iff _ _ _ C hC).mp fresh).2.2
      apply admits.1
      rw [← sequence]
      exact seen z hz x.1 x.2 earlier domain

/-! ### Deliveries and emissions -/

/-- The delivery of entry `x` is what the emission `em` sent: its very bytes arrived, under its own
protocol, and gave its payload with the identifiers of its header. -/
structure Conveys (rx : ι) (x : Action ι κ ρ×Response) (protocol : UInt8)
    (payload : UnprotectedPayload) (em : Emission) : Prop where
  sent_under : em.protocol=protocol
  arrived : ∃ host decorator input,
    x.1=.receive rx host decorator protocol input ∧ input.content=em.bytes
  content : ∃ h,TransportSecurity.readHeader em.bytes=some h ∧ payload=h.payload em.payload

section Run

variable {configs : ι → TransportSecurityConfig} {dataConfigs : κ → DataProtectionConfig} {r : ρ}
variable {rx : ι} {as : List (Action ι κ ρ)}

theorem delivery_fresh (required : (configs rx).policy=.required)
    (h : (machine ι κ ρ).Along (OnChannel rx) (new configs dataConfigs r) as) {n : Nat}
    {x : Action ι κ ρ×Response} {protocol : UInt8} {payload : UnprotectedPayload}
    (hx : ((machine ι κ ρ).trace (new configs dataConfigs r) as)[n]?=some x)
    (hd : delivery rx x=some (protocol,payload)) :
    (((machine ι κ ρ).after (new configs dataConfigs r) (as.take n)).transports rx).replay.wouldAccept
      payload.domain payload.sequence=true ∧
    ∃y∈(machine ι κ ρ).trace (new configs dataConfigs r) (as.take n),
      ∃ em,emission y=some em ∧ Conveys rx x protocol payload em := by
  obtain ⟨watches,permitted,response⟩ := (machine ι κ ρ).invariant_at
    (watches_new configs dataConfigs r rx required) (fun _ _ _ => watches_step) h hx
  have hs : delivery rx (x.1,(step ((machine ι κ ρ).after (new configs dataConfigs r)
      (as.take n)) x.1).2)=some (protocol,payload) := by
    rw [← hd]
    exact congrArg (fun o => delivery rx (x.1,o)) response.symm
  obtain ⟨host,decorator,input,ha,ok,rfl⟩ := delivery_step hs
  obtain ⟨only,sized⟩ := permitted.authentic host decorator protocol input ha
  have protected_ok := (TransportSecurity.required_commits (r := r) watches.policy ok).1
  obtain ⟨y,hy,e,plain,found,bytes,fresh,same⟩ := transport_authentic only
    (fun h read _ => sized h read) protected_ok
  rw [same]
  refine ⟨fresh,y,hy,_,found,rfl,⟨host,decorator,input,ha,rfl⟩,e.header,?_,rfl⟩
  rw [← bytes]
  exact e.readHeader_bytes

/-- No two deliveries share domain and sequence. -/
theorem delivered_once (required : (configs rx).policy=.required)
    (h : (machine ι κ ρ).Along (OnChannel rx) (new configs dataConfigs r) as) {n n' : Nat}
    (before : n<n') {x x' : Action ι κ ρ×Response} {protocol protocol' : UInt8}
    {payload payload' : UnprotectedPayload}
    (hx : ((machine ι κ ρ).trace (new configs dataConfigs r) as)[n]?=some x)
    (hd : delivery rx x=some (protocol,payload))
    (hx' : ((machine ι κ ρ).trace (new configs dataConfigs r) as)[n']?=some x')
    (hd' : delivery rx x'=some (protocol',payload'))
    (domain : payload.domain=payload'.domain) : payload.sequence≠payload'.sequence := by
  intro sequence
  obtain ⟨watches,_,_⟩ := (machine ι κ ρ).invariant_at
    (watches_new configs dataConfigs r rx required) (fun _ _ _ => watches_step) h hx'
  obtain ⟨C,hC,seen⟩ := watches.seen payload'.domain
  have fresh := (delivery_fresh required h hx' hd').1
  have earlier : x∈(machine ι κ ρ).trace (new configs dataConfigs r) (as.take n') := by
    rw [(machine ι κ ρ).trace_take]
    apply List.mem_of_getElem? (i := n)
    rw [List.getElem?_take_of_lt before]
    exact hx
  have inside := seen x earlier protocol payload hd domain
  have admits := ((ReplayWindow.wouldAccept_iff _ _ _ C hC).mp fresh).2.2
  rw [sequence] at inside
  exact admits.1 inside

theorem delivery_matched (required : (configs rx).policy=.required)
    (h : (machine ι κ ρ).Along (OnChannel rx) (new configs dataConfigs r) as) (n : Nat) :
    ∃ m,∀ x protocol payload,((machine ι κ ρ).trace (new configs dataConfigs r) as)[n]?=some x →
      delivery rx x=some (protocol,payload) →
        m<n ∧ ∃ y em,((machine ι κ ρ).trace (new configs dataConfigs r) as)[m]?=some y ∧
          emission y=some em ∧ Conveys rx x protocol payload em := by
  by_cases hn : ∃ x dl,((machine ι κ ρ).trace (new configs dataConfigs r) as)[n]?=some x ∧
      delivery rx x=some dl
  · obtain ⟨x,⟨protocol,payload⟩,hx,hd⟩ := hn
    obtain ⟨_,y,hy,em,he,conveys⟩ := delivery_fresh required h hx hd
    rw [(machine ι κ ρ).trace_take] at hy
    obtain ⟨m,hm⟩ := List.getElem?_of_mem hy
    rw [List.getElem?_take] at hm
    split_ifs at hm with lt
    refine ⟨m,?_⟩
    intro x' protocol' payload' hx' hd'
    rw [hx] at hx'
    obtain rfl := Option.some.inj hx'
    rw [hd] at hd'
    obtain ⟨rfl,rfl⟩ := Prod.mk.inj (Option.some.inj hd')
    exact ⟨lt,y,em,hm,he,conveys⟩
  · refine ⟨0,?_⟩
    intro x protocol payload hx hd
    exact absurd ⟨x,_,hx,hd⟩ hn

/-- Two deliveries of one emission would share the identifiers of its header. -/
theorem conveyed_once (required : (configs rx).policy=.required)
    (h : (machine ι κ ρ).Along (OnChannel rx) (new configs dataConfigs r) as) {n n' : Nat}
    (before : n<n') {x x' : Action ι κ ρ×Response} {protocol protocol' : UInt8}
    {payload payload' : UnprotectedPayload} {em : Emission}
    (hx : ((machine ι κ ρ).trace (new configs dataConfigs r) as)[n]?=some x)
    (hd : delivery rx x=some (protocol,payload))
    (hx' : ((machine ι κ ρ).trace (new configs dataConfigs r) as)[n']?=some x')
    (hd' : delivery rx x'=some (protocol',payload'))
    (conveys : Conveys rx x protocol payload em) : ¬Conveys rx x' protocol' payload' em := by
  intro conveys'
  obtain ⟨header,hr,same⟩ := conveys.content
  obtain ⟨header',hr',same'⟩ := conveys'.content
  rw [hr] at hr'
  obtain rfl := Option.some.inj hr'
  have equal : payload=payload' := same.trans same'.symm
  exact delivered_once required h before hx hd hx' hd' (congrArg _ equal) (congrArg _ equal)

end Run

/-- Against any network, deliveries map one to one to earlier protected emissions of the same
protocol, payload and identifiers. -/
theorem deliveries_injective (configs : ι → TransportSecurityConfig)
    (dataConfigs : κ → DataProtectionConfig) (r : ρ) (rx : ι)
    (required : (configs rx).policy=.required) (as : List (Action ι κ ρ))
    (h : (machine ι κ ρ).Along (OnChannel rx) (new configs dataConfigs r) as) :
    let t := (machine ι κ ρ).trace (new configs dataConfigs r) as
    ∃ f : Nat → Nat,Set.InjOn f {n | ∃ x dl,t[n]?=some x ∧ delivery rx x=some dl} ∧
      ∀ n x protocol payload,t[n]?=some x → delivery rx x=some (protocol,payload) →
        f n<n ∧ ∃ y em,t[f n]?=some y ∧ emission y=some em ∧
          Conveys rx x protocol payload em := by
  intro t
  choose f hf using delivery_matched required h
  refine ⟨f,?_,hf⟩
  have apart : ∀ n n' : Nat,n<n' → ∀ x dl x' dl',t[n]?=some x → delivery rx x=some dl →
      t[n']?=some x' → delivery rx x'=some dl' → f n≠f n' := by
    intro n n' lt x dl x' dl' hx hd hx' hd' he
    obtain ⟨_,y,em,hy,hem,conveys⟩ := hf n x dl.1 dl.2 hx hd
    obtain ⟨_,y',em',hy',hem',conveys'⟩ := hf n' x' dl'.1 dl'.2 hx' hd'
    rw [he,hy'] at hy
    obtain rfl := Option.some.inj hy
    rw [hem] at hem'
    obtain rfl := Option.some.inj hem'
    exact conveyed_once required h lt hx hd hx' hd' conveys conveys'
  intro n ⟨x,dl,hx,hd⟩ n' ⟨x',dl',hx',hd'⟩ he
  rcases lt_trichotomy n n' with lt|same|lt
  · exact absurd he (apart n n' lt x dl x' dl' hx hd hx' hd')
  · exact same
  · exact absurd he.symm (apart n' n lt x' dl' x dl hx' hd' hx hd)

/-- An altered copy, a relabelled one, the message itself and a duplicate arrive, in this order: the one
delivery is of the one emission. -/
theorem deliveries_injective_hostile :
    let config : TransportSecurityConfig := {outboundAlgorithm := .testOnly,sessionID := 7}
    let start : Deployment Bool Unit UInt8 := new (fun _ => config) (fun _ => {}) 1
    let host := testHost (TinyCipher .testOnly 2 2 2) 1 [1,2]
    let carried : Action Bool Unit UInt8 := .send false host (fun _ _ => true) 3 (.bytes [9])
    let seals := sealsOf (log ((machine Bool Unit UInt8).trace start [carried]))
    let receiver := testHost (LedgerCipher (TinyCipher .testOnly 2 2 2) seals) 1 [1,2]
    let b := ((start.transports false).protect host 1 3 (.bytes [9])).output
    let arrive (protocol : UInt8) (b : Bytes) : Action Bool Unit UInt8 :=
      .receive true receiver ⟨true,true⟩ protocol (.bytes b)
    let t := (machine Bool Unit UInt8).trace start
      [carried,arrive 3 (b.set 46 0),arrive 4 b,arrive 3 b,arrive 3 b]
    let payload : UnprotectedPayload := ⟨3,1,0,7,1,.testOnly,true,[9]⟩
    t.map (delivery true)=[none,none,none,some (3,payload),none] ∧
    ∃ m<3,∃ x y em,t[3]?=some x ∧ t[m]?=some y ∧ emission y=some em ∧
      Conveys true x 3 payload em := by
  intro config start host carried seals receiver b arrive t payload
  have sends : ∀ past w,OnChannel true past w carried := by
    intro past w
    refine ⟨?_,?_⟩
    · intro op hop
      exact absurd hop (by simp [carried,Action.on])
    · intro _ _ _ _ ha
      exact absurd ha (by simp [carried])
  have arrival : ∀ past w protocol b,sealsOf (log past)=seals →
      OnChannel true past w (arrive protocol b) := by
    intro past w protocol b same
    refine ⟨?_,?_⟩
    · intro op hop
      simp only [arrive,Action.on,if_true,Option.some.injEq] at hop
      subst hop
      rfl
    · intro _ _ _ _ ha
      injection ha with _ hh
      subst hh
      rw [same]
      exact ⟨testHost_opens_only _ _ 1 [1,2],
        fun h _ => TransportSecurity.noWrap_of_bits (by decide) h⟩
  have along := Machine.Along.push (machine Bool Unit UInt8)
    (Machine.Along.push (machine Bool Unit UInt8)
      (Machine.Along.push (machine Bool Unit UInt8)
        (Machine.Along.push (machine Bool Unit UInt8)
          (Machine.Along.push (machine Bool Unit UInt8)
            ((machine Bool Unit UInt8).along_nil (OnChannel true) start) (sends _ _))
          (arrival _ _ 3 (b.set 46 0) rfl))
        (arrival _ _ 4 b (by decide +kernel)))
      (arrival _ _ 3 b (by decide +kernel)))
    (arrival _ _ 3 b (by decide +kernel))
  obtain ⟨f,_,matched⟩ := deliveries_injective (fun _ => config) (fun _ => {}) (1 : UInt8) true rfl
    _ along
  have delivered : t.map (delivery true)=[none,none,none,some (3,payload),none] := by decide +kernel
  obtain ⟨x,hx,hd⟩ : ∃ x,t[3]?=some x ∧ delivery true x=some (3,payload) := by
    have third := congrArg (·[3]?) delivered
    rw [List.getElem?_map] at third
    exact Option.map_eq_some_iff.mp third
  obtain ⟨lt,y,em,hy,hem,conveys⟩ := matched 3 x 3 payload hx hd
  exact ⟨delivered,f 3,lt,x,y,em,hx,hy,hem,conveys⟩

end Deployment
end ESPressioSecurity
