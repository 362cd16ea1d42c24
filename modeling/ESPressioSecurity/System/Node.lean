import ESPressioSecurity.Framework.History
import ESPressioSecurity.System.SecureChannel

namespace ESPressioSecurity

open Framework

/-- A live decorator: the carrier and the service it borrows, and its callbacks. -/
structure Decoration (γ ι : Type) where
  carrier : γ
  security : ι
  callbacks : SecureTransportDecorator

def Decoration.place {γ ι : Type} (x : Decoration γ ι) : γ×ι := (x.carrier,x.security)

/-- The objects of one program: carriers `γ`, decorators `δ`, and the services. A carrier has the
callback installed last, which holds the address of a decorator whether that is still alive or not. -/
structure Node (γ δ ι κ ρ : Type) where
  services : Deployment ι κ ρ
  live : δ → Option (Decoration γ ι)
  handler : γ → Option δ

namespace Node

variable {γ δ ι κ ρ : Type}

def new (services : Deployment ι κ ρ) : Node γ δ ι κ ρ := ⟨services,fun _ => none,fun _ => none⟩

inductive Action (γ δ ι κ ρ : Type)
  | construct (d : δ) (c : γ) (i : ι)
  | destroy (d : δ)
  | setReceiver (d : δ) (present : Bool)
  | setErrorObserver (d : δ) (present : Bool)
  | send (d : δ) (host : Host ρ) (carrier : UInt8 → Bytes → Bool) (protocol : UInt8) (data : Span)
  | arrive (c : γ) (host : Host ρ) (protocol : UInt8) (input : Span)
  | call (a : Deployment.Action ι κ ρ)

/-- `bound` is a call of the carrier's `SetReceiver`, `undefined` the use of a decorator outside its
lifetime. -/
inductive Response (γ δ ι κ ρ : Type)
  | bound (c : γ) (handler : Option δ)
  | set
  | answered (a : Deployment.Action ι κ ρ) (response : Deployment.Response)
  | handled (d : δ) (a : Deployment.Action ι κ ρ) (response : Deployment.Response)
  | dropped
  | undefined

variable [DecidableEq γ] [DecidableEq δ] [DecidableEq ι] [DecidableEq κ]

/-- A callback of a live decorator is replaced. -/
def configure (p : Node γ δ ι κ ρ) (d : δ) (f : SecureTransportDecorator → SecureTransportDecorator) :
    Node γ δ ι κ ρ×Response γ δ ι κ ρ :=
  match p.live d with
  | none => (p,.undefined)
  | some x => ({p with live := Function.update p.live d (some {x with callbacks := f x.callbacks})},.set)

def step (p : Node γ δ ι κ ρ) : Action γ δ ι κ ρ → Node γ δ ι κ ρ×Response γ δ ι κ ρ
  | .construct d c i =>
    match p.live d with
    | some _ => (p,.undefined)
    | none =>
      ({p with
          live := Function.update p.live d (some ⟨c,i,⟨false,false⟩⟩)
          handler := Function.update p.handler c (some d)},.bound c (some d))
  | .destroy d =>
    match p.live d with
    | none => (p,.undefined)
    | some x =>
      -- the destructor empties the carrier's callback without asking whose it is
      ({p with
          live := Function.update p.live d none
          handler := Function.update p.handler x.carrier none},.bound x.carrier none)
  | .setReceiver d present => p.configure d (fun b => {b with receiver := present})
  | .setErrorObserver d present => p.configure d (fun b => {b with errorObserver := present})
  | .send d host carrier protocol data =>
    match p.live d with
    | none => (p,.undefined)
    | some x =>
      let a : Deployment.Action ι κ ρ := .send x.security host carrier protocol data
      let o := p.services.step a
      ({p with services := o.1},.answered a o.2)
  | .arrive c host protocol input =>
    match p.handler c with
    | none => (p,.dropped)
    | some d =>
      match p.live d with
      | none => (p,.undefined)
      | some x =>
        let a : Deployment.Action ι κ ρ := .receive x.security host x.callbacks protocol input
        let o := p.services.step a
        ({p with services := o.1},.handled d a o.2)
  | .call a =>
    let o := p.services.step a
    ({p with services := o.1},.answered a o.2)

def machine (γ δ ι κ ρ : Type) [DecidableEq γ] [DecidableEq δ] [DecidableEq ι] [DecidableEq κ] :
    Machine (Node γ δ ι κ ρ) (Action γ δ ι κ ρ) (Response γ δ ι κ ρ) := ⟨step⟩

/-! ### The services of a node are a deployment -/

/-- The call on a service that an entry of the history made, with its answer. -/
def served (x : Action γ δ ι κ ρ×Response γ δ ι κ ρ) :
    Option (Deployment.Action ι κ ρ×Deployment.Response) :=
  match x.2 with
  | .answered a response => some (a,response)
  | .handled _ a response => some (a,response)
  | _ => none

theorem step_silent (p : Node γ δ ι κ ρ) (a : Action γ δ ι κ ρ)
    (h : served (a,(step p a).2)=none) : (step p a).1.services=p.services := by
  cases a with
  | construct d c i => cases hd : p.live d <;> simp [step,hd]
  | destroy d => cases hd : p.live d <;> simp [step,hd]
  | setReceiver d present => cases hd : p.live d <;> simp [step,configure,hd]
  | setErrorObserver d present => cases hd : p.live d <;> simp [step,configure,hd]
  | send d host carrier protocol data => cases hd : p.live d <;> simp_all [step,served]
  | arrive c host protocol input =>
    cases hc : p.handler c with
    | none => simp [step,hc]
    | some d => cases hd : p.live d <;> simp_all [step,served]
  | call a => exact absurd h (by simp [step,served])

theorem step_served (p : Node γ δ ι κ ρ) (a : Action γ δ ι κ ρ)
    (x : Deployment.Action ι κ ρ×Deployment.Response) (h : served (a,(step p a).2)=some x) :
    p.services.step x.1=((step p a).1.services,x.2) := by
  cases a with
  | construct d c i => cases hd : p.live d <;> simp [step,hd,served] at h
  | destroy d => cases hd : p.live d <;> simp [step,hd,served] at h
  | setReceiver d present => cases hd : p.live d <;> simp [step,configure,hd,served] at h
  | setErrorObserver d present => cases hd : p.live d <;> simp [step,configure,hd,served] at h
  | send d host carrier protocol data =>
    cases hd : p.live d with
    | none => simp [step,hd,served] at h
    | some b =>
      simp only [step,hd,served,Option.some.injEq] at h ⊢
      rw [← h]
  | arrive c host protocol input =>
    cases hc : p.handler c with
    | none => simp [step,hc,served] at h
    | some d =>
      cases hd : p.live d with
      | none => simp [step,hc,hd,served] at h
      | some b =>
        simp only [step,hc,hd,served,Option.some.injEq] at h ⊢
        rw [← h]
  | call a =>
    simp only [step,served,Option.some.injEq] at h ⊢
    rw [← h]

/-- What the decorators and the program call on the services is a run of the deployment. -/
theorem run_served (p : Node γ δ ι κ ρ) (as : List (Action γ δ ι κ ρ)) :
    let calls := ((machine γ δ ι κ ρ).trace p as).filterMap served
    ((machine γ δ ι κ ρ).after p as).services=
      (Deployment.machine ι κ ρ).after p.services (calls.map (·.1)) ∧
    (Deployment.machine ι κ ρ).trace p.services (calls.map (·.1))=calls :=
  (machine γ δ ι κ ρ).projection (Deployment.machine ι κ ρ) served services step_silent
    step_served p as

/-! ### Whom a carrier calls -/

/-- The callback of a carrier is that of a live decorator on this carrier. -/
def Sound (p : Node γ δ ι κ ρ) : Prop :=
  ∀ c d,p.handler c=some d → ∃ x,p.live d=some x ∧ x.carrier=c

omit [DecidableEq γ] [DecidableEq ι] [DecidableEq κ] in
theorem configure_place (p : Node γ δ ι κ ρ) (d e : δ)
    (f : SecureTransportDecorator → SecureTransportDecorator) :
    ((p.configure d f).1.live e).map Decoration.place=(p.live e).map Decoration.place := by
  cases hd : p.live d with
  | none => simp [configure,hd]
  | some x =>
    by_cases he : e=d
    · subst he
      simp [configure,hd,Decoration.place]
    · simp [configure,hd,he]

omit [DecidableEq γ] [DecidableEq ι] [DecidableEq κ] in
theorem configure_handler (p : Node γ δ ι κ ρ) (d : δ)
    (f : SecureTransportDecorator → SecureTransportDecorator) :
    (p.configure d f).1.handler=p.handler := by
  cases hd : p.live d <;> simp [configure,hd]

omit [DecidableEq γ] [DecidableEq ι] [DecidableEq κ] in
theorem Sound.configured {p : Node γ δ ι κ ρ} (h : p.Sound) (d : δ)
    (f : SecureTransportDecorator → SecureTransportDecorator) : (p.configure d f).1.Sound := by
  intro c e hc
  rw [configure_handler] at hc
  obtain ⟨x,hx,carrier⟩ := h c e hc
  have place := configure_place p d e f
  rw [hx] at place
  obtain ⟨y,hy,same⟩ := Option.map_eq_some_iff.mp place
  exact ⟨y,hy,(congrArg Prod.fst same).trans carrier⟩

theorem step_sound {p : Node γ δ ι κ ρ} (h : p.Sound) (a : Action γ δ ι κ ρ) :
    (step p a).1.Sound := by
  cases a with
  | construct d c i =>
    cases hd : p.live d with
    | some x => simpa only [step,hd] using h
    | none =>
      simp only [step,hd]
      intro c' e he
      by_cases hc : c'=c
      · subst hc
        have same : d=e := by simpa using he
        subst same
        exact ⟨⟨c',i,⟨false,false⟩⟩,by simp,rfl⟩
      · obtain ⟨x,hx,carrier⟩ := h c' e (by simpa [hc] using he)
        have other : e≠d := by
          intro same
          rw [same,hd] at hx
          exact absurd hx (by simp)
        exact ⟨x,by simpa [other] using hx,carrier⟩
  | destroy d =>
    cases hd : p.live d with
    | none => simpa only [step,hd] using h
    | some x =>
      simp only [step,hd]
      intro c e he
      by_cases hc : c=x.carrier
      · subst hc
        exact absurd he (by simp)
      · obtain ⟨y,hy,carrier⟩ := h c e (by simpa [hc] using he)
        -- a callback of `d` can only be on its own carrier
        have other : e≠d := by
          intro same
          rw [same,hd] at hy
          obtain rfl := Option.some.inj hy
          exact hc carrier.symm
        exact ⟨y,by simpa [other] using hy,carrier⟩
  | setReceiver d present => exact h.configured d _
  | setErrorObserver d present => exact h.configured d _
  | send d host carrier protocol data =>
    cases hd : p.live d with
    | none => simpa only [step,hd] using h
    | some x =>
      simp only [step,hd]
      exact h
  | arrive c host protocol input =>
    cases hc : p.handler c with
    | none => simpa only [step,hc] using h
    | some d =>
      cases hd : p.live d with
      | none => simpa only [step,hc,hd] using h
      | some x =>
        simp only [step,hc,hd]
        exact h
  | call a => exact h

theorem run_sound (services : Deployment ι κ ρ) (as : List (Action γ δ ι κ ρ)) :
    ((machine γ δ ι κ ρ).after (new services) as).Sound := by
  apply (machine γ δ ι κ ρ).invariant_state (I := Sound) as
  · intro c d hd
    exact absurd hd (by simp [new])
  · intro p a _ h
    exact step_sound h a

/-- The last call of `SetReceiver` on carrier `c` installed the callback of `d`. -/
def Bound (c : γ) (past : List (Action γ δ ι κ ρ×Response γ δ ι κ ρ)) (d : δ) : Prop :=
  Standing (fun x d => x.2=.bound c (some d)) (fun x => ∃ handler,x.2=.bound c handler) past d

theorem handler_step (p : Node γ δ ι κ ρ) (a : Action γ δ ι κ ρ) (c : γ) (d : δ) :
    (step p a).1.handler c=some d ↔ (step p a).2=.bound c (some d) ∨
      p.handler c=some d ∧ ¬∃ handler,(step p a).2=.bound c handler := by
  cases a with
  | construct e c' i =>
    cases he : p.live e with
    | some x => simp [step,he]
    | none => by_cases hc : c=c' <;> simp [step,he,hc,eq_comm]
  | destroy e =>
    cases he : p.live e with
    | none => simp [step,he]
    | some x => by_cases hc : c=x.carrier <;> simp [step,he,hc,eq_comm]
  | setReceiver e present => cases he : p.live e <;> simp [step,configure,he]
  | setErrorObserver e present => cases he : p.live e <;> simp [step,configure,he]
  | send e host carrier protocol data => cases he : p.live e <;> simp [step,he]
  | arrive c' host protocol input =>
    cases hc : p.handler c' with
    | none => simp [step,hc]
    | some e => cases he : p.live e <;> simp [step,hc,he]
  | call b => simp [step]

/-- The history constructed `d` on a carrier over a service and has not destroyed it since. -/
def Constructed (d : δ) (past : List (Action γ δ ι κ ρ×Response γ δ ι κ ρ)) (b : γ×ι) : Prop :=
  Standing (fun x b => x=(.construct d b.1 b.2,.bound b.1 (some d))) (fun x => x.1=.destroy d) past b

theorem live_step (p : Node γ δ ι κ ρ) (a : Action γ δ ι κ ρ) (d : δ) (b : γ×ι) :
    ((step p a).1.live d).map Decoration.place=some b ↔
      (a,(step p a).2)=(.construct d b.1 b.2,.bound b.1 (some d)) ∨
      (p.live d).map Decoration.place=some b ∧ a≠.destroy d := by
  obtain ⟨c',i'⟩ := b
  cases a with
  | construct e c i =>
    cases he : p.live e with
    | some x => simp [step,he]
    | none =>
      by_cases hd : d=e
      · subst hd
        simp only [step,he,Function.update_self,Option.map_some,Decoration.place,Option.some.injEq,
          Prod.mk.injEq,Action.construct.injEq,Response.bound.injEq,true_and,and_true]
        simp only [Option.map_none,reduceCtorEq,false_and,or_false]
        exact ⟨fun h => ⟨h,h.1⟩,fun h => h.1⟩
      · simp [step,he,hd,Ne.symm hd]
  | destroy e =>
    cases he : p.live e with
    | none =>
      by_cases hd : d=e
      · subst hd
        simp [step,he]
      · simp [step,he,Ne.symm hd]
    | some x => by_cases hd : d=e <;> simp [step,he,hd,eq_comm]
  | setReceiver e present => simp [step,configure_place]
  | setErrorObserver e present => simp [step,configure_place]
  | send e host carrier protocol data => cases he : p.live e <;> simp [step,he]
  | arrive c host protocol input =>
    cases hc : p.handler c with
    | none => simp [step,hc]
    | some e => cases he : p.live e <;> simp [step,hc,he]
  | call b => simp [step]

/-- The two callbacks of a decorator. -/
inductive Callback
  | receiver
  | errorObserver
  deriving DecidableEq,Repr

def Callback.isSet (b : SecureTransportDecorator) : Callback → Bool
  | receiver => b.receiver
  | errorObserver => b.errorObserver

def Callback.setting (d : δ) (present : Bool) : Callback → Action γ δ ι κ ρ
  | receiver => .setReceiver d present
  | errorObserver => .setErrorObserver d present

/-- The history set the callback of `d`, and neither emptied it nor destroyed `d` since. -/
def Installed (d : δ) (k : Callback) (past : List (Action γ δ ι κ ρ×Response γ δ ι κ ρ)) : Prop :=
  Standing (fun x (_ : Unit) => x=(k.setting d true,.set))
    (fun x => x.1=k.setting d false ∨ x.1=.destroy d) past ()

theorem setting_step (p : Node γ δ ι κ ρ) (d e : δ) (present : Bool) (k l : Callback) :
    let a : Action γ δ ι κ ρ := l.setting e present
    (∃x∈(step p a).1.live d,k.isSet x.callbacks=true) ↔
      (a,(step p a).2)=(k.setting d true,.set) ∨
      (∃x∈p.live d,k.isSet x.callbacks=true) ∧ ¬(a=k.setting d false ∨ a=.destroy d) := by
  intro a
  cases he : p.live e with
  | none =>
    by_cases hd : d=e
    · subst hd
      cases k <;> cases l <;> simp [a,step,configure,he,Callback.setting]
    · cases k <;> cases l <;> simp [a,step,configure,he,Callback.setting,Ne.symm hd]
  | some x =>
    by_cases hd : d=e
    · subst hd
      cases k <;> cases l <;> cases present <;>
        simp [a,step,configure,he,Callback.setting,Callback.isSet]
    · cases k <;> cases l <;> simp [a,step,configure,he,hd,Callback.setting,Ne.symm hd]

theorem callback_step (p : Node γ δ ι κ ρ) (a : Action γ δ ι κ ρ) (d : δ) (k : Callback) :
    (∃x∈(step p a).1.live d,k.isSet x.callbacks=true) ↔
      (a,(step p a).2)=(k.setting d true,.set) ∨
      (∃x∈p.live d,k.isSet x.callbacks=true) ∧ ¬(a=k.setting d false ∨ a=.destroy d) := by
  cases a with
  | construct e c i =>
    cases he : p.live e with
    | some x => cases k <;> simp [step,he,Callback.setting]
    | none =>
      by_cases hd : d=e
      · subst hd
        cases k <;> simp [step,he,Callback.setting,Callback.isSet]
      · cases k <;> simp [step,he,hd,Callback.setting]
  | destroy e =>
    cases he : p.live e with
    | none =>
      by_cases hd : d=e
      · subst hd
        cases k <;> simp [step,he,Callback.setting]
      · cases k <;> simp [step,he,Ne.symm hd,Callback.setting]
    | some x =>
      by_cases hd : d=e
      · subst hd
        simp [step,he]
      · cases k <;> simp [step,he,hd,Ne.symm hd,Callback.setting]
  | setReceiver e present => exact setting_step p d e present k .receiver
  | setErrorObserver e present => exact setting_step p d e present k .errorObserver
  | send e host carrier protocol data =>
    cases k <;> cases he : p.live e <;> simp [step,he,Callback.setting]
  | arrive c host protocol input =>
    cases hc : p.handler c with
    | none => cases k <;> simp [step,hc,Callback.setting]
    | some e => cases k <;> cases he : p.live e <;> simp [step,hc,he,Callback.setting]
  | call b => cases k <;> simp [step,Callback.setting]

/-! ### Runs -/

theorem handler_history (services : Deployment ι κ ρ) (as : List (Action γ δ ι κ ρ)) (c : γ)
    (d : δ) : ((machine γ δ ι κ ρ).after (new services) as).handler c=some d ↔
      Bound c ((machine γ δ ι κ ρ).trace (new services) as) d := by
  apply (machine γ δ ι κ ρ).standing_of_step _ _ (fun p d => p.handler c=some d)
  · intro d h
    exact absurd h (by simp [new])
  · intro p a d
    exact handler_step p a c d

theorem live_history (services : Deployment ι κ ρ) (as : List (Action γ δ ι κ ρ)) (d : δ)
    (b : γ×ι) :
    (((machine γ δ ι κ ρ).after (new services) as).live d).map Decoration.place=some b ↔
      Constructed d ((machine γ δ ι κ ρ).trace (new services) as) b := by
  apply (machine γ δ ι κ ρ).standing_of_step _ _
    (fun p b => (p.live d).map Decoration.place=some b)
  · intro b h
    exact absurd h (by simp [new])
  · intro p a b
    exact live_step p a d b

theorem callback_history (services : Deployment ι κ ρ) (as : List (Action γ δ ι κ ρ)) (d : δ)
    (k : Callback) :
    (∃x∈((machine γ δ ι κ ρ).after (new services) as).live d,k.isSet x.callbacks=true) ↔
      Installed d k ((machine γ δ ι κ ρ).trace (new services) as) := by
  apply (machine γ δ ι κ ρ).standing_of_step _ _
    (fun p (_ : Unit) => ∃x∈p.live d,k.isSet x.callbacks=true)
  · intro _ h
    exact absurd h (by simp [new])
  · intro p a _
    exact callback_step p a d k

/-- Every arrival of every run. A carrier left without a callback drops the message. Otherwise the
callback is that of a live decorator constructed on this carrier, and the message goes through the
service of that decorator to the callbacks set since its construction: a carrier never calls a
decorator that is gone, and a decorator is deaf from the next construction or destruction on its
carrier. -/
theorem arrivals_routed (services : Deployment ι κ ρ) (past : List (Action γ δ ι κ ρ)) (c : γ)
    (host : Host ρ) (protocol : UInt8) (input : Span) :
    let p := (machine γ δ ι κ ρ).after (new services) past
    let t := (machine γ δ ι κ ρ).trace (new services) past
    let next := step p (.arrive c host protocol input)
    ((∀ d,¬Bound c t d) → next=(p,.dropped)) ∧
    ∀ d,Bound c t d → ∃ i callbacks,Constructed d t (c,i) ∧
      (∀ k : Callback,k.isSet callbacks=true ↔ Installed d k t) ∧
      let o := SecureTransportDecorator.handleReceive host callbacks (p.services.transports i)
        protocol input
      next.2=.handled d (.receive i host callbacks protocol input)
        (.received o.delivered o.reported o.effects) ∧
      next.1.services.transports=Function.update p.services.transports i o.security := by
  intro p t next
  constructor
  · intro unbound
    have empty : p.handler c=none := by
      cases hc : p.handler c with
      | none => rfl
      | some d => exact absurd ((handler_history services past c d).mp hc) (unbound d)
    simp only [next,step,empty]
  · intro d bound
    have handler : p.handler c=some d := (handler_history services past c d).mpr bound
    obtain ⟨x,alive,carrier⟩ := run_sound services past c d handler
    have place : (p.live d).map Decoration.place=some (c,x.security) := by
      show (((machine γ δ ι κ ρ).after (new services) past).live d).map _=_
      rw [alive,Option.map_some,Decoration.place,carrier]
    refine ⟨x.security,x.callbacks,(live_history services past d _).mp place,?_,?_⟩
    · intro k
      rw [← callback_history,alive]
      simp
    · have alive' : p.live d=some x := alive
      simp [next,step,handler,alive',Deployment.step]

/-- What a decorator over service `i` delivered to its receiver. -/
def delivered (i : ι) (x : Action γ δ ι κ ρ×Response γ δ ι κ ρ) :
    Option (UInt8×UnprotectedPayload) :=
  (served x).bind (Deployment.delivery i)

/-- The call does not reset the service `i`. -/
def Action.Spares (i : ι) : Action γ δ ι κ ρ → Prop
  | .call a => ∀ op,a.on i=some op → op.isControl=false
  | _ => True

theorem spares_served {p : Node γ δ ι κ ρ} {a : Action γ δ ι κ ρ} {i : ι} (h : a.Spares i)
    {x : Deployment.Action ι κ ρ×Deployment.Response} (hx : served (a,(step p a).2)=some x) :
    ∀ op,x.1.on i=some op → op.isControl=false := by
  intro op hop
  cases a with
  | construct d c j => cases hd : p.live d <;> simp [step,hd,served] at hx
  | destroy d => cases hd : p.live d <;> simp [step,hd,served] at hx
  | setReceiver d present => cases hd : p.live d <;> simp [step,configure,hd,served] at hx
  | setErrorObserver d present => cases hd : p.live d <;> simp [step,configure,hd,served] at hx
  | send d host carrier protocol data =>
    cases hd : p.live d with
    | none => simp [step,hd,served] at hx
    | some b =>
      simp only [step,hd,served,Option.some.injEq] at hx
      rw [← hx] at hop
      simp only [Deployment.Action.on,Option.ite_none_right_eq_some,Option.some.injEq] at hop
      rw [← hop.2]
      rfl
  | arrive c host protocol input =>
    cases hc : p.handler c with
    | none => simp [step,hc,served] at hx
    | some d =>
      cases hd : p.live d with
      | none => simp [step,hc,hd,served] at hx
      | some b =>
        simp only [step,hc,hd,served,Option.some.injEq] at hx
        rw [← hx] at hop
        simp only [Deployment.Action.on,Option.ite_none_right_eq_some,Option.some.injEq] at hop
        rw [← hop.2]
        rfl
  | call b =>
    simp only [step,served,Option.some.injEq] at hx
    rw [← hx] at hop
    exact h op hop

/-- Whatever decorators come and go on whatever carriers, a service under `Required` that is not
reset lets through no two payloads with one domain and sequence. -/
theorem payloads_once (configs : ι → TransportSecurityConfig)
    (dataConfigs : κ → DataProtectionConfig) (r : ρ) (as : List (Action γ δ ι κ ρ)) (i : ι)
    (required : (configs i).policy=.required) (spared : ∀a∈as,a.Spares i) :
    let start : Node γ δ ι κ ρ := new (Deployment.new configs dataConfigs r)
    (((machine γ δ ι κ ρ).trace start as).filterMap (delivered i)).Pairwise
      (fun x y => x.2.domain=y.2.domain → x.2.sequence≠y.2.sequence) := by
  intro start
  obtain ⟨_,run⟩ := run_served start as
  have same : ((machine γ δ ι κ ρ).trace start as).filterMap (delivered i)=
      (((machine γ δ ι κ ρ).trace start as).filterMap served).filterMap (Deployment.delivery i) := by
    rw [List.filterMap_filterMap]
    rfl
  rw [same,← run]
  apply Deployment.deliveries_distinct configs dataConfigs r i required
  intro b hb op hop
  obtain ⟨x,hx,rfl⟩ := List.mem_map.mp hb
  obtain ⟨y,hy,hyx⟩ := List.mem_filterMap.mp hx
  obtain ⟨past,future,split,answer⟩ := (machine γ δ ι κ ρ).mem_trace hy
  have spares : y.1.Spares i := spared y.1 (by rw [split]; simp)
  refine spares_served (p := (machine γ δ ι κ ρ).after start past) spares ?_ op hop
  rw [← hyx]
  exact congrArg (fun response => served (y.1,response)) answer.symm

theorem payloads_once_two_decorators :
    let host := testHost (TinyCipher .testOnly 2 2 2) 1 [1,2]
    let config : TransportSecurityConfig := {outboundAlgorithm := .testOnly,sessionID := 7}
    let first := TransportSecurity.protect host (TransportSecurity.new config) 1 3 (.bytes [9])
    let second := TransportSecurity.protect host first.security first.random 3 (.bytes [8])
    let as : List (Action Bool Bool Unit Unit UInt8) := [.construct true true (),
      .setReceiver true true,.arrive true host 3 (.bytes first.output),.construct false false (),
      .setReceiver false true,.arrive false host 3 (.bytes second.output),
      .arrive false host 3 (.bytes first.output),.destroy true,
      .arrive true host 3 (.bytes second.output)]
    let start : Node Bool Bool Unit Unit UInt8 := new (Deployment.new (fun _ => config) (fun _ => {}) 1)
    let deliveries := ((machine Bool Bool Unit Unit UInt8).trace start as).filterMap (delivered ())
    deliveries.Pairwise (fun x y => x.2.domain=y.2.domain → x.2.sequence≠y.2.sequence) ∧
      deliveries.map (fun x => x.2.sequence)=[1,2] := by
  intro host config first second as start deliveries
  refine ⟨payloads_once (fun _ => config) (fun _ => {}) 1 as () rfl ?_,by decide +kernel⟩
  intro a ha
  simp only [as,List.mem_cons,List.not_mem_nil,or_false] at ha
  rcases ha with rfl|rfl|rfl|rfl|rfl|rfl|rfl|rfl|rfl <;> exact trivial

end Node
end ESPressioSecurity
