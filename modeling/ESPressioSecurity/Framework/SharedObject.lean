import ESPressioSecurity.Framework.Machine
import Mathlib.Logic.Function.Basic

namespace ESPressioSecurity.Framework.SharedObject

variable {τ σ α β : Type*}

/-- What clients see of an object they share: their calls, and the returns that answer them. -/
inductive Event (τ α β : Type*)
  | call (t : τ) (a : α)
  | ret (t : τ) (b : β)

def Event.client : Event τ α β → τ
  | .call t _ => t
  | .ret t _ => t

/-- Where the current call of a client stands. -/
inductive Status (α β : Type*)
  | idle
  | pending (a : α)
  | answered (b : β)

/-- The sequential object and the calls its clients have open. -/
structure Shared (τ σ α β : Type*) where
  object : σ
  status : τ → Status α β

def start (s : σ) : Shared τ σ α β := ⟨s,fun _ => .idle⟩

variable [DecidableEq τ]

def Shared.turn (w : Shared τ σ α β) (t : τ) (s : σ) (x : Status α β) : Shared τ σ α β :=
  ⟨s,Function.update w.status t x⟩

@[simp] theorem Shared.turn_self (w : Shared τ σ α β) (t : τ) (s : σ) (x : Status α β) :
    (w.turn t s x).status t=x := Function.update_self ..

theorem Shared.turn_other (w : Shared τ σ α β) {t u : τ} (ne : u≠t) (s : σ) (x : Status α β) :
    (w.turn t s x).status u=w.status u := Function.update_of_ne ne ..

/-- A run of the shared object: what the clients saw, and the operations in the order in which they
took effect, each between its call and its return and as one step of the sequential object. -/
inductive Path (m : Machine σ α β) (w : Shared τ σ α β) :
    List (Event τ α β) → List (τ×α×β) → Shared τ σ α β → Prop
  | refl : Path m w [] [] w
  | call {h ops v} (t : τ) (a : α) (before : Path m w h ops v) (idle : v.status t=.idle) :
      Path m w (h++[.call t a]) ops (v.turn t v.object (.pending a))
  | effect {h ops v} (t : τ) (a : α) (before : Path m w h ops v) (pending : v.status t=.pending a) :
      Path m w h (ops++[(t,a,(m.step v.object a).2)])
        (v.turn t (m.step v.object a).1 (.answered (m.step v.object a).2))
  | ret {h ops v} (t : τ) (b : β) (before : Path m w h ops v) (answered : v.status t=.answered b) :
      Path m w (h++[.ret t b]) ops (v.turn t v.object .idle)

theorem Path.trans {m : Machine σ α β} {w v u : Shared τ σ α β} {h h' : List (Event τ α β)}
    {ops ops' : List (τ×α×β)} (x : Path m w h ops v) (y : Path m v h' ops' u) :
    Path m w (h++h') (ops++ops') u := by
  induction y with
  | refl =>
    rw [List.append_nil,List.append_nil]
    exact x
  | call t a _ idle ih =>
    rw [← List.append_assoc]
    exact ih.call t a idle
  | effect t a _ pending ih =>
    rw [← List.append_assoc]
    exact ih.effect t a pending
  | ret t b _ answered ih =>
    rw [← List.append_assoc]
    exact ih.ret t b answered

/-! ### Sequential order -/

/-- The operations in order, each call at once followed by its return. -/
def dialogue (ops : List (τ×α×β)) : List (Event τ α β) :=
  ops.flatMap (fun o => [.call o.1 o.2.1,.ret o.1 o.2.2])

def seen (t : τ) (h : List (Event τ α β)) : List (Event τ α β) := h.filter (fun e => e.client=t)

def done (t : τ) (ops : List (τ×α×β)) : List (τ×α×β) := ops.filter (fun o => o.1=t)

/-- Every client sees its operations answered as in the sequential order. Only its last call may be
open, before or after it took effect. -/
def Explains (ops : List (τ×α×β)) (h : List (Event τ α β)) : Prop :=
  ∀ t,seen t h=dialogue (done t ops) ∨
    (∃ a,seen t h=dialogue (done t ops)++[.call t a]) ∨
    ∃ b,seen t h++[.ret t b]=dialogue (done t ops)

/-- The order of the operations is a run of the sequential object and explains the history, and at
every moment of the history a first part of that order explains what was seen so far. -/
structure Linearizes (m : Machine σ α β) (s : σ) (ops : List (τ×α×β)) (h : List (Event τ α β)) :
    Prop where
  legal : m.trace s (ops.map (·.2.1))=ops.map (·.2)
  explains : Explains ops h
  moments : ∀ n,∃ k,Explains (ops.take k) (h.take n)

@[simp] theorem seen_append (t : τ) (h h' : List (Event τ α β)) :
    seen t (h++h')=seen t h++seen t h' := List.filter_append ..

@[simp] theorem done_append (t : τ) (ops ops' : List (τ×α×β)) :
    done t (ops++ops')=done t ops++done t ops' := List.filter_append ..

theorem Path.legal {m : Machine σ α β} {w v : Shared τ σ α β} {h : List (Event τ α β)}
    {ops : List (τ×α×β)} (x : Path m w h ops v) :
    v.object=m.after w.object (ops.map (·.2.1)) ∧
    m.trace w.object (ops.map (·.2.1))=ops.map (·.2) := by
  induction x with
  | refl => exact ⟨rfl,rfl⟩
  | call t a _ _ ih => exact ih
  | effect t a _ _ ih =>
    obtain ⟨reached,legal⟩ := ih
    rw [List.map_append,List.map_append,List.map_singleton,m.after_snoc,m.trace_snoc,← reached,legal]
    exact ⟨rfl,rfl⟩
  | ret t b _ _ ih => exact ih

/-- What client `t` has seen, by the status of its call. -/
def Stands (t : τ) (h : List (Event τ α β)) (ops : List (τ×α×β)) : Status α β → Prop
  | .idle => seen t h=dialogue (done t ops)
  | .pending a => seen t h=dialogue (done t ops)++[.call t a]
  | .answered b => seen t h++[.ret t b]=dialogue (done t ops)

theorem Stands.other {t u : τ} (ne : u≠t) {h : List (Event τ α β)} {ops : List (τ×α×β)}
    {x : Status α β} (e : Event τ α β) (he : e.client=t) (stands : Stands u h ops x) :
    Stands u (h++[e]) ops x := by
  have unseen : seen u [e]=[] := by simp [seen,he,ne.symm]
  cases x <;> simpa [Stands,unseen] using stands

theorem Path.stands {m : Machine σ α β} {s : σ} {v : Shared τ σ α β} {h : List (Event τ α β)}
    {ops : List (τ×α×β)} (x : Path m (start s) h ops v) (u : τ) : Stands u h ops (v.status u) := by
  induction x with
  | refl => rfl
  | call t a _ idle ih =>
    by_cases same : u=t
    · subst same
      rw [idle] at ih
      have mine : seen u [Event.call u a]=[Event.call (β := β) u a] := by simp [seen,Event.client]
      simpa [Stands,mine] using ih
    · rw [Shared.turn_other _ same]
      exact ih.other same _ rfl
  | @effect h ops v t a _ pending ih =>
    by_cases same : u=t
    · subst same
      rw [pending] at ih
      have mine : done u [(u,a,(m.step v.object a).2)]=[(u,a,(m.step v.object a).2)] := by
        simp [done]
      have whole : seen u h=dialogue (done u ops)++[.call u a] := ih
      simp [Stands,mine,whole,dialogue]
    · have none : done u [(t,a,(m.step v.object a).2)]=[] := by simp [done,Ne.symm same]
      rw [Shared.turn_other _ same]
      cases hx : v.status u <;> rw [hx] at ih <;> simpa [Stands,none] using ih
  | ret t b _ answered ih =>
    by_cases same : u=t
    · subst same
      rw [answered] at ih
      have mine : seen u [Event.ret u b]=[Event.ret (α := α) u b] := by simp [seen,Event.client]
      simpa [Stands,mine] using ih
    · rw [Shared.turn_other _ same]
      exact ih.other same _ rfl

theorem Path.explains {m : Machine σ α β} {s : σ} {v : Shared τ σ α β} {h : List (Event τ α β)}
    {ops : List (τ×α×β)} (x : Path m (start s) h ops v) : Explains ops h := by
  intro t
  have stands := x.stands t
  cases hx : v.status t with
  | idle =>
    rw [hx] at stands
    exact Or.inl stands
  | pending a =>
    rw [hx] at stands
    exact Or.inr (Or.inl ⟨a,stands⟩)
  | answered b =>
    rw [hx] at stands
    exact Or.inr (Or.inr ⟨b,stands⟩)

/-- The run up to a moment of the history. -/
theorem Path.upto {m : Machine σ α β} {w v : Shared τ σ α β} {h : List (Event τ α β)}
    {ops : List (τ×α×β)} (x : Path m w h ops v) (n : Nat) :
    ∃ k u,Path m w (h.take n) (ops.take k) u := by
  have whole : ∀ {g : List (Event τ α β)} {e},n≤g.length → (g++[e]).take n=g.take n :=
    fun hn => List.take_append_of_le_length hn
  have past : ∀ {g : List (Event τ α β)} {e},¬n≤g.length → (g++[e]).take n=g++[e] :=
    fun hn => List.take_of_length_le (by simp; omega)
  induction x with
  | refl => exact ⟨0,w,by simpa using Path.refl⟩
  | @call h ops v t a before idle ih =>
    by_cases hn : n≤h.length
    · rw [whole hn]
      exact ih
    · rw [past hn]
      exact ⟨ops.length,_,by simpa using before.call t a idle⟩
  | @effect h ops v t a before pending ih =>
    by_cases hn : n≤h.length
    · obtain ⟨k,u,path⟩ := ih
      refine ⟨min k ops.length,u,?_⟩
      rw [List.take_append_of_le_length (Nat.min_le_right ..),← List.take_eq_take_min]
      exact path
    · refine ⟨ops.length+1,v.turn t (m.step v.object a).1 (.answered (m.step v.object a).2),?_⟩
      rw [List.take_of_length_le (i := n) (by omega),List.take_of_length_le (by simp)]
      exact before.effect t a pending
  | @ret h ops v t b before answered ih =>
    by_cases hn : n≤h.length
    · rw [whole hn]
      exact ih
    · rw [past hn]
      exact ⟨ops.length,_,by simpa using before.ret t b answered⟩

theorem Path.linearizes {m : Machine σ α β} {s : σ} {v : Shared τ σ α β}
    {h : List (Event τ α β)} {ops : List (τ×α×β)} (x : Path m (start s) h ops v) :
    Linearizes m s ops h := by
  refine ⟨x.legal.2,x.explains,?_⟩
  intro n
  obtain ⟨k,u,path⟩ := x.upto n
  exact ⟨k,path.explains⟩

/-! ### Simulation -/

variable {ς κ : Type*}

/-- The events of a run of a machine whose steps may each show one. -/
def shown (c : Machine ς κ (Option (Event τ α β))) (x : ς) (as : List κ) : List (Event τ α β) :=
  (c.trace x as).filterMap (·.2)

omit [DecidableEq τ] in
theorem shown_cons (c : Machine ς κ (Option (Event τ α β))) (x : ς) (a : κ) (as : List κ) :
    shown c x (a::as)=(c.step x a).2.toList++shown c (c.step x a).1 as := by
  rw [shown,Machine.trace,List.filterMap_cons]
  cases (c.step x a).2 <;> rfl

/-- A machine whose every step is matched by a path of the shared object shows the events of one. -/
theorem simulated (c : Machine ς κ (Option (Event τ α β))) (m : Machine σ α β)
    (R : ς → Shared τ σ α β → Prop)
    (keep : ∀ x w a,R x w →
      ∃ ops v,Path m w (c.step x a).2.toList ops v ∧ R (c.step x a).1 v)
    {x : ς} {w : Shared τ σ α β} (related : R x w) (as : List κ) :
    ∃ ops v,Path m w (shown c x as) ops v ∧ R (c.after x as) v := by
  induction as generalizing x w with
  | nil => exact ⟨[],w,Path.refl,related⟩
  | cons a as ih =>
    obtain ⟨ops,v,path,next⟩ := keep x w a related
    obtain ⟨ops',u,rest,last⟩ := ih next
    rw [shown_cons]
    exact ⟨ops++ops',u,path.trans rest,last⟩

end ESPressioSecurity.Framework.SharedObject
