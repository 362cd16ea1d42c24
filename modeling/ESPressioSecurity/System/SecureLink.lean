import ESPressioSecurity.Framework.Fifo
import ESPressioSecurity.Transport.RoundTrip
import ESPressioSecurity.Transport.SecureTransportDecorator

namespace ESPressioSecurity

open Framework

inductive Side
  | near
  | far
  deriving DecidableEq,Repr

def Side.other : Side → Side
  | near => far
  | far => near

/-- A decorator with its security service at each side, and between them a carrier that keeps the
order. `wire` has what a side sent and the other has not got, `arrived` what it has got. -/
structure SecureLink (ρ : Type) where
  security : Side → TransportSecurity
  random : Side → ρ
  wire : Side → List (UInt8×Bytes)
  arrived : Side → List (UInt8×Bytes)

namespace SecureLink

variable {ρ : Type}

def new (configs : Side → TransportSecurityConfig) (random : Side → ρ) : SecureLink ρ :=
  ⟨fun i => TransportSecurity.new (configs i),random,fun _ => [],fun _ => []⟩

/-- Either side sends. The carrier hands the oldest message over, loses it, or hands over once more one
that has arrived. -/
inductive Action (ρ : Type)
  | send (i : Side) (host : Host ρ) (accepts : Bool) (protocol : UInt8) (data : Span)
  | deliver (i : Side) (host : Host ρ)
  | lose (i : Side)
  | duplicate (i : Side) (host : Host ρ) (n : Nat)

inductive Response
  | sent (accepted : Bool)
  | received (delivered : Option (UInt8×UnprotectedPayload))
  | silent
  deriving DecidableEq

/-- Both callbacks of the decorators are set. -/
def decorator : SecureTransportDecorator := ⟨true,true⟩

/-- A message of side `i` reaches the decorator of the other side. -/
def receive (s : SecureLink ρ) (i : Side) (host : Host ρ) (message : UInt8×Bytes) :
    SecureLink ρ×Response :=
  let o := SecureTransportDecorator.handleReceive host decorator (s.security i.other) message.1
    (.bytes message.2)
  ({s with security := Function.update s.security i.other o.security},.received o.delivered)

def step (s : SecureLink ρ) : Action ρ → SecureLink ρ×Response
  | .send i host accepts protocol data =>
    let o := SecureTransportDecorator.send host (fun _ _ => accepts) (s.security i) (s.random i)
      protocol data
    let t : SecureLink ρ := {s with
      security := Function.update s.security i o.security
      random := Function.update s.random i o.random}
    if o.accepted then
      ({t with wire := Function.update s.wire i (s.wire i++o.handed.toList)},.sent true)
    else (t,.sent false)
  | .deliver i host =>
    match s.wire i with
    | [] => (s,.silent)
    | message::rest =>
      let o := s.receive i host message
      ({o.1 with
          wire := Function.update s.wire i rest
          arrived := Function.update s.arrived i (s.arrived i++[message])},o.2)
  | .lose i => ({s with wire := Function.update s.wire i (s.wire i).tail},.silent)
  | .duplicate i host n =>
    match (s.arrived i)[n]? with
    | none => (s,.silent)
    | some message => s.receive i host message

def machine (ρ : Type) : Machine (SecureLink ρ) (Action ρ) Response := ⟨step⟩

/-! ### The link as a pair of queues -/

/-- What the application does to the queue of its messages. -/
def input : Action ρ → Response → Fifo.Input Side (UInt8×Bytes)
  | .send i _ _ protocol data,.sent true => .put i (protocol,data.content)
  | .deliver i _,_ => .take i
  | .lose i,_ => .lose i
  | _,_ => .idle

/-- What the application at the other end gets. -/
def output (_ : Action ρ) : Response → Option (UInt8×Bytes)
  | .received (some (protocol,payload)) => some (protocol,payload.data)
  | _ => none

/-- A message as it was sent, with its envelope. -/
structure Item where
  envelope : TransportSecurity.Envelope
  protocol : UInt8
  plaintext : Bytes

def Item.message (x : Item) : UInt8×Bytes := (x.protocol,x.envelope.bytes)

def Item.content (x : Item) : UInt8×Bytes := (x.protocol,x.plaintext)

def Item.sequence (x : Item) : Nat := x.envelope.header.sequence.toNat

/-- The item comes from a `Send` of side `i` among `as`. -/
def Item.Genuine (as : List (Action ρ)) (i : Side) (config : TransportSecurityConfig) (x : Item) :
    Prop :=
  ∃ (host : Host ρ) (accepts : Bool) (data : Span) (y : TransportSecurity×ρ) (cipher : IAeadCipher)
    (key : KeyMaterialView),Action.send i host accepts x.protocol data∈as ∧
    data.content=x.plaintext ∧ y.1.Consistent ∧ y.1.config=config ∧
    TransportSecurity.Emits host y x.protocol data cipher key x.envelope

/-- One direction: the messages that have arrived and those on the way, in the order of their
sequence numbers, and what the receiver's replay window knows of them. -/
structure Direction (as : List (Action ρ)) (configs : Side → TransportSecurityConfig) (i : Side)
    (s : SecureLink ρ) (q : List (UInt8×Bytes)) (past way : List Item) : Prop where
  arrived : s.arrived i=past.map Item.message
  wire : s.wire i=way.map Item.message
  queue : q=way.map Item.content
  ordered : (past++way).Pairwise (fun x y => x.sequence<y.sequence)
  below : ∀x∈past++way,x.sequence<(s.security i).nextSequence.toNat
  session : ∀x∈past++way,(s.security i).sessionReady=true ∧
    x.envelope.header.sessionID=(s.security i).sessionID
  genuine : ∀x∈past++way,x.Genuine as i (configs i)
  committed : ∀ d,(s.security i.other).replay.Committed d
    {n | ∃x∈past,x.envelope.header.domain=d ∧ x.sequence=n}

structure Follows (as : List (Action ρ)) (configs : Side → TransportSecurityConfig)
    (s : SecureLink ρ) (q : Side → List (UInt8×Bytes)) : Prop where
  config : ∀ i,(s.security i).config=configs i
  consistent : ∀ i,(s.security i).Consistent
  directions : ∀ i,∃ past way,Direction as configs i s (q i) past way

/-- What the two sides must have in common for a payload sent by side `i`: cipher, key, and room. -/
structure Carried (configs : Side → TransportSecurityConfig) (i : Side) (host : Host ρ) (data : Span)
    (receiver : Host ρ) : Prop where
  bounded : data.size ≤ (configs i.other).maximumPlaintextBytes
  agrees : TransportSecurity.Agrees host receiver (configs i).outboundAlgorithm
    (configs i).outboundKeyID
  room : 44+255+data.size+255≤SecurityBuffer.maxSize receiver.sizeBits

def Compatible (configs : Side → TransportSecurityConfig) : Action ρ → Action ρ → Prop
  | .send i host _ _ data,.deliver j receiver => i=j → Carried configs i host data receiver
  | _,_ => True

/-! ### One direction under a step -/

theorem other_ne (i : Side) : i.other≠i := by cases i <;> decide

theorem other_other (i : Side) : i.other.other=i := by cases i <;> rfl

theorem side_cases (i j : Side) : j=i ∨ j=i.other := by cases i <;> cases j <;> decide

variable {as : List (Action ρ)} {configs : Side → TransportSecurityConfig}

/-- The sender went on in its session and the receiver's window is as it was. -/
theorem Direction.kept {i : Side} {s u : SecureLink ρ} {q : List (UInt8×Bytes)}
    {past way : List Item} (d : Direction as configs i s q past way)
    (arrived : u.arrived i=s.arrived i) (wire : u.wire i=s.wire i)
    (follows : (s.security i).Follows (u.security i))
    (replay : (u.security i.other).replay=(s.security i.other).replay) :
    Direction as configs i u q past way := by
  refine ⟨arrived.trans d.arrived,wire.trans d.wire,d.queue,d.ordered,?_,?_,d.genuine,?_⟩
  · intro x hx
    exact Nat.lt_of_lt_of_le (d.below x hx) follows.counter
  · intro x hx
    obtain ⟨ready,same⟩ := d.session x hx
    obtain ⟨ready',same'⟩ := follows.session ready
    exact ⟨ready',same.trans same'.symm⟩
  · intro e
    rw [replay]
    exact d.committed e

/-- The oldest message is taken off the wire and is not heard of again. -/
theorem Direction.lost {i : Side} {s u : SecureLink ρ} {q : List (UInt8×Bytes)}
    {past way : List Item} (d : Direction as configs i s q past way)
    (arrived : u.arrived i=s.arrived i) (wire : u.wire i=(s.wire i).tail)
    (security : u.security=s.security) : Direction as configs i u q.tail past way.tail := by
  have fewer : (past++way.tail).Sublist (past++way) := (List.tail_sublist way).append_left past
  refine ⟨arrived.trans d.arrived,?_,?_,d.ordered.sublist fewer,?_,?_,?_,?_⟩
  · rw [wire,d.wire,List.map_tail]
  · rw [d.queue,List.map_tail]
  · intro x hx
    rw [security]
    exact d.below x (fewer.subset hx)
  · intro x hx
    rw [security]
    exact d.session x (fewer.subset hx)
  · exact fun x hx => d.genuine x (fewer.subset hx)
  · rw [security]
    exact d.committed

/-- A sent message is the last of its direction. -/
theorem Direction.sent {i : Side} {s u : SecureLink ρ} {q : List (UInt8×Bytes)}
    {past way : List Item} (d : Direction as configs i s q past way) {x : Item}
    (arrived : u.arrived i=s.arrived i) (wire : u.wire i=s.wire i++[x.message])
    (follows : (s.security i).Follows (u.security i))
    (replay : (u.security i.other).replay=(s.security i.other).replay)
    (genuine : x.Genuine as i (configs i))
    (sequence : x.sequence=(s.security i).nextSequence.toNat)
    (counter : (s.security i).nextSequence.toNat<(u.security i).nextSequence.toNat)
    (ready : (u.security i).sessionReady=true)
    (session : x.envelope.header.sessionID=(u.security i).sessionID) :
    Direction as configs i u (q++[x.content]) past (way++[x]) := by
  have all : ∀y∈past++(way++[x]),y∈past++way ∨ y=x := by
    intro y hy
    rw [← List.append_assoc] at hy
    exact (List.mem_append.mp hy).imp_right List.mem_singleton.mp
  have old : ∀y∈past++way,y.sequence<x.sequence := fun y hy => sequence ▸ d.below y hy
  refine ⟨arrived.trans d.arrived,?_,?_,?_,?_,?_,?_,?_⟩
  · rw [wire,d.wire,List.map_append]
    rfl
  · rw [d.queue,List.map_append]
    rfl
  · rw [← List.append_assoc,List.pairwise_append]
    refine ⟨d.ordered,by simp,?_⟩
    intro y hy z hz
    rw [List.mem_singleton.mp hz]
    exact old y hy
  · intro y hy
    rcases all y hy with hy|rfl
    · exact Nat.lt_of_lt_of_le (d.below y hy) follows.counter
    · rw [sequence]
      exact counter
  · intro y hy
    refine ⟨ready,?_⟩
    rcases all y hy with hy|rfl
    · obtain ⟨was,same⟩ := d.session y hy
      exact same.trans (follows.session was).2.symm
    · exact session
  · intro y hy
    rcases all y hy with hy|rfl
    · exact d.genuine y hy
    · exact genuine
  · intro e
    rw [replay]
    exact d.committed e

/-! ### Sending -/

theorem required_emits {host : Host ρ} {x : TransportSecurity×ρ} {protocol : UInt8} {data : Span}
    (required : x.1.config.policy=.required)
    (success : (x.1.protect host x.2 protocol data).result.success=true) :
    ∃ cipher key e,TransportSecurity.Emits host x protocol data cipher key e ∧
      e.bytes=(x.1.protect host x.2 protocol data).output := by
  obtain ⟨passes,_⟩|⟨cipher,key,e,ready,ok,counter,seals,he⟩ :=
    TransportSecurity.protect_success success
  · rcases passes.policy with disabled|⟨preferred,_⟩
    · exact absurd (required.symm.trans disabled) (by decide)
    · exact absurd (required.symm.trans preferred) (by decide)
  · refine ⟨cipher,key,e,⟨ready,ok,counter,seals,?_,?_⟩,?_⟩
    · rw [he]
    · rw [he]
      simp
    · rw [he]

theorem emits_sequence {host : Host ρ} {x : TransportSecurity×ρ} {protocol : UInt8} {data : Span}
    {cipher : IAeadCipher} {key : KeyMaterialView} {e : TransportSecurity.Envelope}
    (emits : TransportSecurity.Emits host x protocol data cipher key e) :
    (x.1.protect host x.2 protocol data).security.nextSequence.toNat=x.1.nextSequence.toNat+1 ∧
    (x.1.protect host x.2 protocol data).security.sessionReady=true ∧
    e.header.sessionID=(x.1.protect host x.2 protocol data).security.sessionID := by
  rw [emits.after]
  refine ⟨?_,TransportSecurity.ensureSessionID_ready emits.session,by rw [emits.seals.header]; rfl⟩
  show ((TransportSecurity.ensureSessionID host x.1 x.2).security.nextSequence+1).toNat=_
  rw [TransportSecurity.succ_toNat emits.counter.2,TransportSecurity.ensureSessionID_counter]

/-- The state after a `Protect` on side `i`, whatever the carrier says. -/
def afterProtect (s : SecureLink ρ) (i : Side) (host : Host ρ) (protocol : UInt8) (data : Span)
    (wire : Side → List (UInt8×Bytes)) : SecureLink ρ where
  security := Function.update s.security i
    ((s.security i).protect host (s.random i) protocol data).security
  random := Function.update s.random i
    ((s.security i).protect host (s.random i) protocol data).random
  wire := wire
  arrived := s.arrived

theorem step_send (s : SecureLink ρ) (i : Side) (host : Host ρ) (accepts : Bool) (protocol : UInt8)
    (data : Span) :
    let o := (s.security i).protect host (s.random i) protocol data
    step s (.send i host accepts protocol data)=
      if o.result.success=true ∧ accepts=true then
        (s.afterProtect i host protocol data
          (Function.update s.wire i (s.wire i++[(protocol,o.output)])),.sent true)
      else (s.afterProtect i host protocol data s.wire,.sent false) := by
  cases success : ((s.security i).protect host (s.random i) protocol data).result.success <;>
    cases accepts <;>
    simp [step,SecureTransportDecorator.send,afterProtect,success]

theorem Follows.protect {s : SecureLink ρ} {q : Side → List (UInt8×Bytes)}
    (h : Follows as configs s q) (i : Side) (host : Host ρ) (protocol : UInt8) (data : Span)
    (wire : Side → List (UInt8×Bytes)) :
    (∀ j,((s.afterProtect i host protocol data wire).security j).config=configs j) ∧
    (∀ j,((s.afterProtect i host protocol data wire).security j).Consistent) ∧
    (∀ j,(s.security j).Follows ((s.afterProtect i host protocol data wire).security j)) ∧
    ∀ j,((s.afterProtect i host protocol data wire).security j).replay=(s.security j).replay := by
  have follows := TransportSecurity.protect_follows host (s.security i) (s.random i) protocol data
  obtain ⟨a,b,c,kept⟩ := TransportSecurity.protect_keeps host (s.security i) (s.random i) protocol data
  have every : ∀ (P : Side → TransportSecurity → Prop),
      P i ((s.security i).protect host (s.random i) protocol data).security →
      (∀ j,j≠i → P j (s.security j)) →
      ∀ j,P j ((s.afterProtect i host protocol data wire).security j) := by
    intro P here there j
    by_cases same : j=i
    · subst same
      simpa [afterProtect] using here
    · simpa [afterProtect,same] using there j same
  refine ⟨?_,?_,?_,?_⟩
  · exact every (fun j t => t.config=configs j) (follows.config.trans (h.config i))
      (fun j _ => h.config j)
  · exact every (fun _ t => t.Consistent)
      (TransportSecurity.protect_consistent (h.consistent i) host (s.random i) protocol data)
      (fun j _ => h.consistent j)
  · exact every (fun j t => (s.security j).Follows t) follows
      (fun j _ => TransportSecurity.Follows.refl (s.security j))
  · exact every (fun j t => t.replay=(s.security j).replay) (by rw [kept]; rfl) (fun _ _ => rfl)

/-- The step of the link and the step of the queues it stands for. -/
def Refines (as : List (Action ρ)) (configs : Side → TransportSecurityConfig) (s : SecureLink ρ)
    (q : Side → List (UInt8×Bytes)) (a : Action ρ) : Prop :=
  Follows as configs (step s a).1 (Fifo.step q (input a (step s a).2)).1 ∧
  (Fifo.step q (input a (step s a).2)).2=output a (step s a).2

theorem send_refines {s : SecureLink ρ} {q : Side → List (UInt8×Bytes)}
    (h : Follows as configs s q) (required : ∀ i,(configs i).policy=.required) {i : Side}
    {host : Host ρ} {accepts : Bool} {protocol : UInt8} {data : Span}
    (ha : Action.send i host accepts protocol data∈as) :
    Refines as configs s q (.send i host accepts protocol data) := by
  have one := step_send s i host accepts protocol data
  dsimp only at one
  split_ifs at one with done
  · obtain ⟨success,_⟩ := done
    obtain ⟨cipher,key,e,emits,bytes⟩ := required_emits (x := (s.security i,s.random i))
      ((congrArg TransportSecurityConfig.policy (h.config i)).trans (required i)) success
    obtain ⟨next,ready,session⟩ := emits_sequence emits
    rw [Refines,one]
    obtain ⟨config,consistent,follows,replay⟩ := h.protect i host protocol data
      (Function.update s.wire i (s.wire i++
        [(protocol,((s.security i).protect host (s.random i) protocol data).output)]))
    refine ⟨⟨config,consistent,?_⟩,rfl⟩
    intro j
    obtain ⟨past,way,d⟩ := h.directions j
    rcases side_cases i j with rfl|other
    · let x : Item := ⟨e,protocol,data.content⟩
      refine ⟨past,way++[x],?_⟩
      have queue : (Fifo.step q (.put j (protocol,data.content))).1 j=q j++[x.content] := by
        simp [Fifo.step,x,Item.content]
      show Direction as configs j _ ((Fifo.step q (.put j (protocol,data.content))).1 j) _ _
      rw [queue]
      refine d.sent rfl ?_ (follows j) (replay j.other) ?_ ?_ ?_ ?_ ?_
      · simp [afterProtect,x,Item.message,bytes]
      · exact ⟨host,accepts,data,(s.security j,s.random j),cipher,key,ha,rfl,h.consistent j,
          h.config j,emits⟩
      · rw [Item.sequence,emits.carries.sequence]
      · simp [afterProtect,next]
      · simpa [afterProtect] using ready
      · simpa [afterProtect] using session
    · have ne : j≠i := other ▸ other_ne i
      refine ⟨past,way,?_⟩
      have queue : (Fifo.step q (.put i (protocol,data.content))).1 j=q j := by
        simp [Fifo.step,ne]
      show Direction as configs j _ ((Fifo.step q (.put i (protocol,data.content))).1 j) _ _
      rw [queue]
      exact d.kept rfl (by simp [afterProtect,ne]) (follows j) (replay j.other)
  · rw [Refines,one]
    obtain ⟨config,consistent,follows,replay⟩ := h.protect i host protocol data s.wire
    refine ⟨⟨config,consistent,?_⟩,rfl⟩
    intro j
    obtain ⟨past,way,d⟩ := h.directions j
    exact ⟨past,way,d.kept rfl rfl (follows j) (replay j.other)⟩

/-! ### Receiving -/

/-- Receiving changes nothing but the receiver's replay window. -/
theorem Follows.receive {s : SecureLink ρ} {q : Side → List (UInt8×Bytes)}
    (h : Follows as configs s q) (i : Side) (host : Host ρ) (message : UInt8×Bytes) :
    (∀ j,((s.receive i host message).1.security j).config=configs j) ∧
    (∀ j,((s.receive i host message).1.security j).Consistent) ∧
    (∀ j,(s.security j).Follows ((s.receive i host message).1.security j)) ∧
    ((s.receive i host message).1.security i).replay=(s.security i).replay := by
  obtain ⟨w,kept⟩ := TransportSecurity.unprotect_keeps host (s.security i.other) message.1
    (.bytes message.2)
  have every : ∀ (P : Side → TransportSecurity → Prop),
      P i.other ((s.security i.other).withReplay w) → (∀ j,P j (s.security j)) →
      ∀ j,P j ((s.receive i host message).1.security j) := by
    intro P here there j
    by_cases same : j=i.other
    · subst same
      simpa [SecureLink.receive,SecureTransportDecorator.handleReceive_security,kept] using here
    · simpa [SecureLink.receive,same] using there j
  have own := h.consistent i.other
  refine ⟨?_,?_,?_,?_⟩
  · exact every (fun j t => t.config=configs j) (h.config i.other) h.config
  · exact every (fun _ t => t.Consistent) ⟨own.ready_iff,own.counter⟩ h.consistent
  · exact every (fun j t => (s.security j).Follows t) ⟨rfl,fun hs => ⟨hs,rfl⟩,Nat.le_refl _⟩
      (fun j => TransportSecurity.Follows.refl (s.security j))
  · simp [SecureLink.receive,(other_ne i).symm]

theorem Item.Genuine.carried {x : Item} {i : Side} (genuine : x.Genuine as i (configs i))
    {host : Host ρ} (compatible : ∀ host' accepts protocol data,
      Action.send i host' accepts protocol data∈as → Carried configs i host' data host)
    (keyed : (configs i).outboundKeyID≠0) {t : TransportSecurity}
    (config : t.config=configs i.other)
    (fresh : t.replay.wouldAccept x.envelope.header.domain x.envelope.header.sequence=true) :
    (t.unprotect host x.protocol (.bytes x.envelope.bytes)).result=.ok true ∧
    (t.unprotect host x.protocol (.bytes x.envelope.bytes)).payload=
      x.envelope.header.payload x.plaintext ∧
    TransportSecurity.committed
      (t.unprotect host x.protocol (.bytes x.envelope.bytes)).response=
      some (x.envelope.header.domain,x.envelope.header.sequence) := by
  obtain ⟨host',accepts,data,y,cipher,key,ha,content,consistent,own,emits⟩ := genuine
  obtain ⟨z,rfl⟩ : ∃ z : TransportSecurity×ρ,z.1=t := ⟨(t,y.2),rfl⟩
  have carried := compatible host' accepts x.protocol data ha
  have agrees := carried.agrees
  have bounded := carried.bounded
  have room := carried.room
  rw [← own] at keyed agrees
  rw [← config] at bounded
  have nonce := x.envelope.header.nonceLength.toNat_lt
  have tag := x.envelope.header.tagLength.toNat_lt
  have sized : x.envelope.bytes.length≤SecurityBuffer.maxSize host.sizeBits := by
    refine le_trans ?_ room
    rw [x.envelope.bytes_length,emits.seals.ciphertext_size]
    omega
  obtain ⟨result,payload⟩ := emits.accepted consistent keyed agrees bounded sized fresh
  rw [content] at payload
  refine ⟨result,payload,?_⟩
  have success : (z.1.unprotect host x.protocol (.bytes x.envelope.bytes)).result.success=true := by
    rw [result]
    rfl
  exact TransportSecurity.succeeded_envelope emits.carries.magic success

/-- The next message in order is new to the receiver. -/
theorem Direction.fresh {i : Side} {s : SecureLink ρ} {q : List (UInt8×Bytes)} {past way : List Item}
    {x : Item} (d : Direction as configs i s q past (x::way)) :
    (s.security i.other).replay.wouldAccept x.envelope.header.domain
      x.envelope.header.sequence=true := by
  have here : x∈past++(x::way) := by simp
  obtain ⟨_,_,_,y,_,_,_,_,consistent,_,emits⟩ := d.genuine x here
  have earlier : ∀z∈past,z.sequence<x.sequence := fun z hz =>
    (List.pairwise_append.mp d.ordered).2.2 z hz x List.mem_cons_self
  rw [ReplayWindow.wouldAccept_iff _ _ _ _ (d.committed _)]
  refine ⟨emits.session_ne consistent,?_,?_,?_⟩
  · rw [emits.carries.sequence]
    exact consistent.counter
  · rintro ⟨z,hz,_,same⟩
    exact absurd same (Nat.ne_of_lt (earlier z hz))
  · rintro n ⟨z,hz,_,rfl⟩
    exact Nat.lt_of_lt_of_le (earlier z hz) (Nat.le_add_right _ _)

/-- What has arrived is not accepted again. -/
theorem Direction.stale {i : Side} {s : SecureLink ρ} {q : List (UInt8×Bytes)} {past way : List Item}
    {x : Item} (d : Direction as configs i s q past way) (hx : x∈past) (host : Host ρ) :
    ((s.security i.other).unprotect host x.protocol (.bytes x.envelope.bytes)).result.success=
      false := by
  obtain ⟨_,_,_,_,_,_,_,_,_,_,emits⟩ := d.genuine x (List.mem_append_left way hx)
  by_contra success
  have fresh := TransportSecurity.succeeded_fresh emits.carries.magic
    (Bool.eq_true_of_not_eq_false success)
  rw [ReplayWindow.wouldAccept_iff _ _ _ _ (d.committed _)] at fresh
  exact fresh.2.2.1 ⟨x,hx,rfl,rfl⟩

/-- The window after one more message of the direction. -/
theorem committed_next {w : ReplayWindow} {past : List Item}
    (known : ∀ d,w.Committed d {n | ∃y∈past,y.envelope.header.domain=d ∧ y.sequence=n}) (x : Item)
    (d : ReplayDomain) :
    (w.commit x.envelope.header.domain x.envelope.header.sequence).Committed d
      {n | ∃y∈past++[x],y.envelope.header.domain=d ∧ y.sequence=n} := by
  by_cases same : x.envelope.header.domain=d
  · subst same
    have now := ReplayWindow.committed_commit w x.envelope.header.domain
      x.envelope.header.sequence _ (known x.envelope.header.domain)
    convert now using 1
    ext n
    simp only [List.mem_append,List.mem_singleton,Set.mem_ofPred_eq,Set.mem_insert_iff]
    constructor
    · rintro ⟨y,hy|rfl,hd,hn⟩
      · exact Or.inr ⟨y,hy,hd,hn⟩
      · exact Or.inl hn.symm
    · rintro (rfl|⟨y,hy,hd,hn⟩)
      · exact ⟨x,Or.inr rfl,rfl,rfl⟩
      · exact ⟨y,Or.inl hy,hd,hn⟩
  · have now := ReplayWindow.committed_commit_ne w x.envelope.header.domain d
      x.envelope.header.sequence _ (Ne.symm same) (known d)
    convert now using 1
    ext n
    simp only [List.mem_append,List.mem_singleton,Set.mem_ofPred_eq]
    constructor
    · rintro ⟨y,hy|rfl,hd,hn⟩
      · exact ⟨y,hy,hd,hn⟩
      · exact absurd hd same
    · rintro ⟨y,hy,hd,hn⟩
      exact ⟨y,Or.inl hy,hd,hn⟩

/-- The oldest message arrives. -/
theorem Direction.handed {i : Side} {s u : SecureLink ρ} {q : List (UInt8×Bytes)}
    {past way : List Item} {x : Item} (d : Direction as configs i s q past (x::way))
    (arrived : u.arrived i=s.arrived i++[x.message]) (wire : u.wire i=(s.wire i).tail)
    (follows : (s.security i).Follows (u.security i))
    (replay : (u.security i.other).replay=
      (s.security i.other).replay.commit x.envelope.header.domain x.envelope.header.sequence) :
    Direction as configs i u q.tail (past++[x]) way := by
  have moved : past++(x::way)=past++[x]++way := by simp
  refine ⟨?_,?_,?_,moved ▸ d.ordered,?_,?_,?_,?_⟩
  · rw [arrived,d.arrived,List.map_append]
    rfl
  · rw [wire,d.wire]
    rfl
  · rw [d.queue]
    rfl
  · intro y hy
    rw [← moved] at hy
    exact Nat.lt_of_lt_of_le (d.below y hy) follows.counter
  · intro y hy
    rw [← moved] at hy
    obtain ⟨ready,same⟩ := d.session y hy
    obtain ⟨ready',same'⟩ := follows.session ready
    exact ⟨ready',same.trans same'.symm⟩
  · intro y hy
    rw [← moved] at hy
    exact d.genuine y hy
  · intro e
    rw [replay]
    exact committed_next d.committed x e

theorem deliver_refines {s : SecureLink ρ} {q : Side → List (UInt8×Bytes)}
    (h : Follows as configs s q) (keyed : ∀ i,(configs i).outboundKeyID≠0)
    (compatible : ∀a∈as,∀b∈as,Compatible configs a b) {i : Side} {host : Host ρ}
    (ha : Action.deliver i host∈as) : Refines as configs s q (.deliver i host) := by
  obtain ⟨past,way,d⟩ := h.directions i
  rw [Refines,step]
  cases way with
  | nil =>
    have silent : s.wire i=[] := d.wire
    have empty : q i=[] := d.queue
    rw [silent]
    have still : Function.update q i (q i).tail=q := by
      rw [empty]
      exact Function.update_eq_self_iff.mpr empty.symm
    refine ⟨?_,by simp [input,Fifo.step,empty,output]⟩
    show Follows as configs s (Function.update q i (q i).tail)
    rw [still]
    exact h
  | cons x way =>
    have oldest : s.wire i=x.message::way.map Item.message := d.wire
    have head : q i=x.content::way.map Item.content := d.queue
    have genuine := d.genuine x (by simp)
    obtain ⟨result,payload,committed⟩ := genuine.carried
      (fun host' accepts protocol data hs => compatible _ hs _ ha rfl) (keyed i)
      (h.config i.other) d.fresh
    have returned := TransportSecurity.unprotect_returned (congrArg SecurityResult.success result)
    have window := congrArg TransportSecurity.replay (TransportSecurity.unprotect_security host
      (s.security i.other) x.protocol (.bytes x.envelope.bytes))
    rw [committed] at window
    have handed : (s.receive i host x.message).2=
        .received (some (x.protocol,x.envelope.header.payload x.plaintext)) := by
      simp [receive,SecureTransportDecorator.handleReceive,decorator,Item.message,returned,result,
        payload,SecurityResult.ok]
    have replay : ((s.receive i host x.message).1.security i.other).replay=
        (s.security i.other).replay.commit x.envelope.header.domain x.envelope.header.sequence := by
      simp only [receive,SecureTransportDecorator.handleReceive_security,Function.update_self,
        Item.message,window]
      rfl
    obtain ⟨config,consistent,follows,own⟩ := h.receive i host x.message
    rw [oldest]
    dsimp only
    rw [handed]
    refine ⟨⟨config,consistent,?_⟩,by simp [input,Fifo.step,head,output,Item.content,
      TransportSecurity.Header.payload]⟩
    intro j
    show ∃ past way,Direction as configs j _ (Function.update q i (q i).tail j) past way
    by_cases same : j=i
    · subst same
      rw [Function.update_self]
      exact ⟨past++[x],way,d.handed (by simp) (by simp [oldest]) (follows j) replay⟩
    · obtain ⟨past',way',d'⟩ := h.directions j
      have other : j=i.other := (side_cases i j).resolve_left same
      refine ⟨past',way',?_⟩
      rw [Function.update_of_ne same]
      refine d'.kept (by simp [same]) (by simp [same]) (follows j) ?_
      rw [other,other_other]
      exact own

theorem lose_refines {s : SecureLink ρ} {q : Side → List (UInt8×Bytes)}
    (h : Follows as configs s q) (i : Side) : Refines as configs s q (.lose i) := by
  refine ⟨⟨h.config,h.consistent,?_⟩,rfl⟩
  intro j
  obtain ⟨past,way,d⟩ := h.directions j
  show ∃ past way,Direction as configs j _ (Function.update q i (q i).tail j) past way
  by_cases same : j=i
  · subst same
    rw [Function.update_self]
    exact ⟨past,way.tail,d.lost rfl (by simp [step]) rfl⟩
  · rw [Function.update_of_ne same]
    exact ⟨past,way,d.kept rfl (by simp [step,same]) (TransportSecurity.Follows.refl _) rfl⟩

theorem duplicate_refines {s : SecureLink ρ} {q : Side → List (UInt8×Bytes)}
    (h : Follows as configs s q) (i : Side) (host : Host ρ) (n : Nat) :
    Refines as configs s q (.duplicate i host n) := by
  obtain ⟨past,way,d⟩ := h.directions i
  rw [Refines,step]
  cases hx : past[n]? with
  | none =>
    have missing : (s.arrived i)[n]?=none := by rw [d.arrived,List.getElem?_map,hx]; rfl
    rw [missing]
    exact ⟨h,rfl⟩
  | some x =>
    have again : (s.arrived i)[n]?=some x.message := by rw [d.arrived,List.getElem?_map,hx]; rfl
    have stale := d.stale (List.mem_of_getElem? hx) host
    have kept := TransportSecurity.unprotect_security host (s.security i.other) x.protocol
      (.bytes x.envelope.bytes)
    have nothing : TransportSecurity.committed
        ((s.security i.other).unprotect host x.protocol (.bytes x.envelope.bytes)).response=none := by
      simp [TransportSecurity.committed,TransportSecurity.UnprotectOutcome.response,stale]
    rw [nothing] at kept
    have refused : (s.receive i host x.message).2=.received none :=
      congrArg Response.received (SecureTransportDecorator.delivered_none stale decorator)
    obtain ⟨config,consistent,follows,own⟩ := h.receive i host x.message
    rw [again]
    dsimp only
    rw [refused]
    refine ⟨⟨config,consistent,?_⟩,rfl⟩
    intro j
    obtain ⟨past',way',d'⟩ := h.directions j
    refine ⟨past',way',d'.kept rfl rfl (follows j) ?_⟩
    rcases side_cases i j with rfl|other
    · simp only [receive,SecureTransportDecorator.handleReceive_security,Function.update_self,
        Item.message,kept]
      rfl
    · rw [other,other_other]
      exact own

/-! ### Runs -/

theorem new_follows (as : List (Action ρ)) (configs : Side → TransportSecurityConfig)
    (random : Side → ρ) : Follows as configs (new configs random) (fun _ => []) := by
  have parts : ∀ config : TransportSecurityConfig,(TransportSecurity.new config).config=config ∧
      (TransportSecurity.new config).replay=ReplayWindow.new config.replayWindowSize := by
    intro config
    unfold TransportSecurity.new
    dsimp only
    split_ifs <;> exact ⟨rfl,rfl⟩
  refine ⟨fun i => (parts (configs i)).1,fun i => TransportSecurity.new_consistent (configs i),?_⟩
  intro i
  refine ⟨[],[],rfl,rfl,rfl,List.Pairwise.nil,by simp,by simp,by simp,?_⟩
  intro d
  have none : {n | ∃x∈([] : List Item),x.envelope.header.domain=d ∧ x.sequence=n}=∅ := by
    ext n
    simp
  rw [none]
  show (TransportSecurity.new (configs i.other)).replay.Committed d ∅
  rw [(parts (configs i.other)).2]
  exact ReplayWindow.committed_new _ d

theorem step_refines (required : ∀ i,(configs i).policy=.required)
    (keyed : ∀ i,(configs i).outboundKeyID≠0)
    (compatible : ∀a∈as,∀b∈as,Compatible configs a b) {s : SecureLink ρ}
    {q : Side → List (UInt8×Bytes)} {a : Action ρ} (ha : a∈as) (h : Follows as configs s q) :
    Refines as configs s q a := by
  cases a with
  | send i host accepts protocol data => exact send_refines h required ha
  | deliver i host => exact deliver_refines h keyed compatible ha
  | lose i => exact lose_refines h i
  | duplicate i host n => exact duplicate_refines h i host n

theorem run_refines (configs : Side → TransportSecurityConfig) (random : Side → ρ)
    (as : List (Action ρ)) (required : ∀ i,(configs i).policy=.required)
    (keyed : ∀ i,(configs i).outboundKeyID≠0)
    (compatible : ∀a∈as,∀b∈as,Compatible configs a b) :
    let run := (machine ρ).trace (new configs random) as
    Follows as configs ((machine ρ).after (new configs random) as)
      ((Fifo.machine Side (UInt8×Bytes)).after (fun _ => []) (run.map (fun x => input x.1 x.2))) ∧
    (Fifo.machine Side (UInt8×Bytes)).trace (fun _ => []) (run.map (fun x => input x.1 x.2))=
      run.map (fun x => (input x.1 x.2,output x.1 x.2)) :=
  (machine ρ).refinement (Fifo.machine Side (UInt8×Bytes)) input output (Follows as configs) as
    (fun _ _ _ ha h => step_refines required keyed compatible ha h) (new_follows as configs random)

/-- The messages side `i` sent with success. -/
def sentBy (i : Side) (x : Action ρ×Response) : Option (UInt8×Bytes) :=
  match x with
  | (.send j _ _ protocol data,.sent true) => if j=i then some (protocol,data.content) else none
  | _ => none

/-- What reached the receiver opposite side `i`. -/
def receivedFrom (i : Side) (x : Action ρ×Response) : Option (UInt8×Bytes) :=
  match x with
  | (.deliver j _,.received (some (protocol,payload))) =>
    if j=i then some (protocol,payload.data) else none
  | (.duplicate j _ _,.received (some (protocol,payload))) =>
    if j=i then some (protocol,payload.data) else none
  | _ => none

def Action.loses (i : Side) : Action ρ → Prop
  | .lose j => j=i
  | _ => False

theorem put_input (i : Side) (x : Action ρ×Response) : Fifo.put i (input x.1 x.2)=sentBy i x := by
  obtain ⟨a,response⟩ := x
  cases a with
  | send j host accepts protocol data =>
    cases response with
    | sent accepted => cases accepted <;> rfl
    | _ => rfl
  | _ => cases response <;> rfl

theorem input_loses {i : Side} {x : Action ρ×Response} (loses : (input x.1 x.2).loses i) :
    x.1.loses i := by
  obtain ⟨a,response⟩ := x
  cases a with
  | send j host accepts protocol data =>
    cases response with
    | sent accepted => cases accepted <;> exact absurd loses (by simp [input,Fifo.Input.loses])
    | _ => exact absurd loses (by simp [input,Fifo.Input.loses])
  | lose j => exact loses
  | deliver j host => exact absurd loses (by simp [input,Fifo.Input.loses])
  | duplicate j host n => exact absurd loses (by simp [input,Fifo.Input.loses])

/-- Nothing is received but by taking from the queue. -/
theorem taken_output {i : Side} {x : Action ρ×Response}
    (silent : input x.1 x.2=.idle → output x.1 x.2=none) :
    Fifo.taken i (input x.1 x.2,output x.1 x.2)=receivedFrom i x := by
  obtain ⟨a,response⟩ := x
  cases a with
  | send j host accepts protocol data =>
    cases response with
    | sent accepted => cases accepted <;> rfl
    | _ => rfl
  | deliver j host =>
    rcases response with _|⟨_|_⟩|_ <;> simp [input,Fifo.taken,output,receivedFrom]
  | lose j => rfl
  | duplicate j host n =>
    have none := silent rfl
    rcases response with _|⟨_|_⟩|_
    · rfl
    · rfl
    · exact absurd none (by simp [output])
    · rfl

/-- The queue of a direction, over the messages sent and received. -/
theorem run_queued {configs : Side → TransportSecurityConfig} {random : Side → ρ}
    {as : List (Action ρ)}
    (same : (Fifo.machine Side (UInt8×Bytes)).trace (fun _ => [])
        (((machine ρ).trace (new configs random) as).map (fun x => input x.1 x.2))=
      ((machine ρ).trace (new configs random) as).map (fun x => (input x.1 x.2,output x.1 x.2)))
    (i : Side) :
    let run := (machine ρ).trace (new configs random) as
    let queued := (Fifo.machine Side (UInt8×Bytes)).after (fun _ => [])
      (run.map (fun x => input x.1 x.2)) i
    (run.filterMap (receivedFrom i)++queued).Sublist (run.filterMap (sentBy i)) ∧
    ((∀a∈as,¬a.loses i) →
      run.filterMap (receivedFrom i)++queued=run.filterMap (sentBy i)) := by
  intro run queued
  let inputs := run.map (fun x => input x.1 x.2)
  obtain ⟨ordered,whole⟩ := Fifo.conserved (fun _ => []) inputs i
  have put : inputs.filterMap (Fifo.put i)=run.filterMap (sentBy i) := by
    rw [List.filterMap_map]
    exact List.filterMap_congr (fun x _ => put_input i x)
  have taken : ((Fifo.machine Side (UInt8×Bytes)).trace (fun _ => []) inputs).filterMap
      (Fifo.taken i)=run.filterMap (receivedFrom i) := by
    rw [same,List.filterMap_map]
    apply List.filterMap_congr
    intro x hx
    apply taken_output
    intro idle
    have entry : (input x.1 x.2,output x.1 x.2)∈
        (Fifo.machine Side (UInt8×Bytes)).trace (fun _ => []) inputs := by
      rw [same]
      exact List.mem_map_of_mem hx
    obtain ⟨_,_,_,answer⟩ := (Fifo.machine Side (UInt8×Bytes)).mem_trace entry
    rw [idle] at answer
    exact answer
  rw [put,taken] at ordered whole
  refine ⟨ordered,?_⟩
  intro lossless
  apply whole
  intro y hy loses
  obtain ⟨x,hx,rfl⟩ := List.mem_map.mp hy
  obtain ⟨before,_,split,_⟩ := (machine ρ).mem_trace hx
  exact lossless x.1 (by rw [split]; simp) (input_loses loses)

end SecureLink
end ESPressioSecurity
