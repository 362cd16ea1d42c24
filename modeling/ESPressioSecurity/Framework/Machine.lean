import Mathlib.Data.List.Induction

namespace ESPressioSecurity.Framework

/-- A deterministic machine: each step consumes an action and gives a response. -/
structure Machine (σ α β : Type*) where
  step : σ → α → σ×β

namespace Machine

variable {σ α β γ : Type*} (m : Machine σ α β)

def after (s : σ) : List α → σ
  | [] => s
  | a::as => after (m.step s a).1 as

/-- Every action of a run beside its response. -/
def trace (s : σ) : List α → List (α×β)
  | [] => []
  | a::as => (a,(m.step s a).2)::trace (m.step s a).1 as

@[simp] theorem trace_length (s : σ) (as : List α) : (m.trace s as).length=as.length := by
  induction as generalizing s with
  | nil => rfl
  | cons a as ih => simp [trace,ih]

theorem after_append (s : σ) (as bs : List α) :
    m.after s (as++bs)=m.after (m.after s as) bs := by
  induction as generalizing s with
  | nil => rfl
  | cons a as ih => exact ih _

theorem trace_append (s : σ) (as bs : List α) :
    m.trace s (as++bs)=m.trace s as++m.trace (m.after s as) bs := by
  induction as generalizing s with
  | nil => rfl
  | cons a as ih => simp only [List.cons_append,trace,after,ih]

theorem trace_snoc (s : σ) (as : List α) (a : α) :
    m.trace s (as++[a])=m.trace s as++[(a,(m.step (m.after s as) a).2)] :=
  m.trace_append s as [a]

theorem after_snoc (s : σ) (as : List α) (a : α) :
    m.after s (as++[a])=(m.step (m.after s as) a).1 :=
  m.after_append s as [a]

/-- The entry at position `n` is the step taken from the state reached by the first `n` actions. -/
theorem trace_getElem? (s : σ) (as : List α) (n : Nat) :
    (m.trace s as)[n]?=as[n]?.map (fun a => (a,(m.step (m.after s (as.take n)) a).2)) := by
  induction as generalizing s n with
  | nil => simp [trace]
  | cons a as ih =>
    cases n with
    | zero => simp [trace,after]
    | succ n => simp [trace,after,ih]

theorem trace_take (s : σ) (as : List α) (n : Nat) :
    m.trace s (as.take n)=(m.trace s as).take n := by
  induction as generalizing s n with
  | nil => simp [trace]
  | cons a as ih =>
    cases n with
    | zero => simp [trace]
    | succ n => simp [trace,ih]

/-- Every entry of a trace is a step taken from some state on the way. -/
theorem mem_trace {s : σ} {as : List α} {x : α×β} (h : x∈m.trace s as) :
    ∃ past future,as=past++x.1::future ∧ x.2=(m.step (m.after s past) x.1).2 := by
  induction as generalizing s with
  | nil => simp [trace] at h
  | cons a as ih =>
    rcases List.mem_cons.mp h with rfl|h
    · exact ⟨[],as,rfl,rfl⟩
    · obtain ⟨past,future,he,hx⟩ := ih h
      exact ⟨a::past,future,by rw [he]; rfl,hx⟩

/-- `P` holds of the history, the state and the action at every step of the run. -/
def Along (P : List (α×β) → σ → α → Prop) (s : σ) (as : List α) : Prop :=
  ∀ past a future, as=past++a::future → P (m.trace s past) (m.after s past) a

theorem Along.snoc {P : List (α×β) → σ → α → Prop} {s : σ} {as : List α} {a : α}
    (h : m.Along P s (as++[a])) : m.Along P s as ∧ P (m.trace s as) (m.after s as) a := by
  refine ⟨?_,h as a [] rfl⟩
  intro past b future he
  exact h past b (future++[a]) (by simp [he])

theorem Along.left {P : List (α×β) → σ → α → Prop} {s : σ} {as bs : List α}
    (h : m.Along P s (as++bs)) : m.Along P s as := by
  intro past a future he
  exact h past a (future++bs) (by simp [he])

theorem along_nil (P : List (α×β) → σ → α → Prop) (s : σ) : m.Along P s [] := by
  intro past a future he
  exact absurd he.symm (by simp)

theorem Along.push {P : List (α×β) → σ → α → Prop} {s : σ} {as : List α} {a : α}
    (h : m.Along P s as) (ha : P (m.trace s as) (m.after s as) a) : m.Along P s (as++[a]) := by
  intro past b future he
  cases future using List.reverseRecOn with
  | nil =>
    obtain ⟨hp,hb⟩ := List.append_inj' he rfl
    obtain ⟨rfl,_⟩ := List.cons.inj hb
    rw [← hp]
    exact ha
  | append_singleton future c =>
    rw [← List.cons_append,← List.append_assoc] at he
    exact h past b future (List.append_inj' he rfl).1

/-- A statement about history and state that every permitted step keeps holds after every run. -/
theorem invariant {I : List (α×β) → σ → Prop} {P : List (α×β) → σ → α → Prop} {s : σ}
    (start : I [] s)
    (keep : ∀ t u a,I t u → P t u a → I (t++[(a,(m.step u a).2)]) (m.step u a).1)
    (as : List α) (h : m.Along P s as) : I (m.trace s as) (m.after s as) := by
  induction as using List.reverseRecOn with
  | nil => exact start
  | append_singleton as a ih =>
    obtain ⟨hp,ha⟩ := Along.snoc m h
    rw [m.trace_snoc,m.after_snoc]
    exact keep _ _ _ (ih hp) ha

theorem Along.take {P : List (α×β) → σ → α → Prop} {s : σ} {as : List α} (h : m.Along P s as)
    (n : Nat) : m.Along P s (as.take n) := by
  intro past a future he
  apply h past a (future++as.drop n)
  have whole := List.take_append_drop n as
  rw [he] at whole
  simpa using whole.symm

/-- The invariant holds before the step at position `n`, which was a permitted one. -/
theorem invariant_at {I : List (α×β) → σ → Prop} {P : List (α×β) → σ → α → Prop} {s : σ}
    (start : I [] s)
    (keep : ∀ t u a,I t u → P t u a → I (t++[(a,(m.step u a).2)]) (m.step u a).1)
    {as : List α} (h : m.Along P s as) {n : Nat} {x : α×β} (hx : (m.trace s as)[n]?=some x) :
    I (m.trace s (as.take n)) (m.after s (as.take n)) ∧
    P (m.trace s (as.take n)) (m.after s (as.take n)) x.1 ∧
    x.2=(m.step (m.after s (as.take n)) x.1).2 := by
  rw [m.trace_getElem?,Option.map_eq_some_iff] at hx
  obtain ⟨a,ha,rfl⟩ := hx
  obtain ⟨hn,he⟩ := List.getElem?_eq_some_iff.mp ha
  refine ⟨m.invariant start keep _ (Along.take m h n),h _ a (as.drop (n+1)) ?_,rfl⟩
  rw [← he,List.getElem_cons_drop,List.take_append_drop]

/-- A state predicate that every step of `as` keeps. -/
theorem invariant_state {I : σ → Prop} {s : σ} (as : List α) (start : I s)
    (keep : ∀ u,∀a∈as,I u → I (m.step u a).1) : I (m.after s as) := by
  induction as generalizing s with
  | nil => exact start
  | cons a as ih =>
    exact ih (keep s a (by simp) start) (fun u b hb => keep u b (by simp [hb]))

/-- Two machines in step: from related states they answer alike and stay related. -/
theorem simulation {τ : Type*} (n : Machine τ α β) (R : σ → τ → Prop)
    (keep : ∀ s t a,R s t → R (m.step s a).1 (n.step t a).1 ∧ (m.step s a).2=(n.step t a).2)
    {s : σ} {t : τ} (start : R s t) (as : List α) :
    R (m.after s as) (n.after t as) ∧ m.trace s as=n.trace t as := by
  induction as generalizing s t with
  | nil => exact ⟨start,rfl⟩
  | cons a as ih =>
    obtain ⟨next,same⟩ := keep s t a start
    obtain ⟨last,rest⟩ := ih next
    exact ⟨last,by rw [trace,trace,same,rest]⟩

/-- Two machines given the same actions: what every pair of steps keeps holds of both histories. -/
theorem lockstep {τ β' : Type*} (n : Machine τ α β')
    (R : List (α×β) → List (α×β') → σ → τ → Prop)
    (keep : ∀ past past' u v a,R past past' u v →
      R (past++[(a,(m.step u a).2)]) (past'++[(a,(n.step v a).2)]) (m.step u a).1 (n.step v a).1)
    {s : σ} {t : τ} (start : R [] [] s t) (as : List α) :
    R (m.trace s as) (n.trace t as) (m.after s as) (n.after t as) := by
  induction as using List.reverseRecOn with
  | nil => exact start
  | append_singleton as a ih =>
    rw [m.trace_snoc,n.trace_snoc,m.after_snoc,n.after_snoc]
    exact keep _ _ _ _ a ih

/-- The second machine is given what the steps of the first one show, and answers as they show. -/
theorem refinement {τ α' β' : Type*} (n : Machine τ α' β') (input : α → β → α') (output : α → β → β')
    (R : σ → τ → Prop) (as : List α)
    (keep : ∀ s t a,a∈as → R s t →
      R (m.step s a).1 (n.step t (input a (m.step s a).2)).1 ∧
      (n.step t (input a (m.step s a).2)).2=output a (m.step s a).2)
    {s : σ} {t : τ} (start : R s t) :
    R (m.after s as) (n.after t ((m.trace s as).map (fun x => input x.1 x.2))) ∧
    n.trace t ((m.trace s as).map (fun x => input x.1 x.2))=
      (m.trace s as).map (fun x => (input x.1 x.2,output x.1 x.2)) := by
  induction as generalizing s t with
  | nil => exact ⟨start,rfl⟩
  | cons a as ih =>
    obtain ⟨next,same⟩ := keep s t a List.mem_cons_self start
    obtain ⟨last,rest⟩ := ih (fun u v b hb => keep u v b (List.mem_cons_of_mem a hb)) next
    refine ⟨last,?_⟩
    rw [trace,List.map_cons,List.map_cons,trace,same,rest]

/-- A part of the state that only moves as a second machine: what the steps show of that machine is a
run of it. -/
theorem projection {τ α' β' : Type*} (n : Machine τ α' β') (view : α×β → Option (α'×β'))
    (part : σ → τ)
    (silent : ∀ s a,view (a,(m.step s a).2)=none → part (m.step s a).1=part s)
    (shown : ∀ s a x,view (a,(m.step s a).2)=some x →
      n.step (part s) x.1=(part (m.step s a).1,x.2))
    (s : σ) (as : List α) :
    part (m.after s as)=n.after (part s) (((m.trace s as).filterMap view).map (·.1)) ∧
    n.trace (part s) (((m.trace s as).filterMap view).map (·.1))=(m.trace s as).filterMap view := by
  induction as generalizing s with
  | nil => exact ⟨rfl,rfl⟩
  | cons a as ih =>
    obtain ⟨last,rest⟩ := ih (m.step s a).1
    rw [after,trace,List.filterMap_cons]
    cases hx : view (a,(m.step s a).2) with
    | none =>
      rw [silent s a hx] at last rest
      exact ⟨last,rest⟩
    | some x =>
      have taken := shown s a x hx
      refine ⟨?_,?_⟩
      · rw [last,List.map_cons,after,taken]
      · rw [List.map_cons,trace,taken,rest]

/-- The actions of a second machine that stand for those of a run, some for each step. -/
def expanded {α' : Type*} (expand : σ → α → List α') (s : σ) : List α → List α'
  | [] => []
  | a::as => expand s a++expanded expand (m.step s a).1 as

theorem mem_expanded {α' : Type*} {expand : σ → α → List α'} {s : σ} {as : List α} {b : α'}
    (h : b∈m.expanded expand s as) : ∃ u,∃a∈as,b∈expand u a := by
  induction as generalizing s with
  | nil => exact absurd h (by simp [expanded])
  | cons a as ih =>
    rcases List.mem_append.mp h with h|h
    · exact ⟨s,a,by simp,h⟩
    · obtain ⟨u,c,hc,hb⟩ := ih h
      exact ⟨u,c,by simp [hc],hb⟩

theorem expanded_append {α' : Type*} (expand : σ → α → List α') (s : σ) (as bs : List α) :
    m.expanded expand s (as++bs)=
      m.expanded expand s as++m.expanded expand (m.after s as) bs := by
  induction as generalizing s with
  | nil => rfl
  | cons a as ih => simp only [List.cons_append,expanded,after,ih,List.append_assoc]

/-- Each permitted step matched by some steps of a second machine, seen from a part of the state: so is
each run, and what is observed of the one is observed of the other. -/
theorem expansion {τ α' β' : Type*} (n : Machine τ α' β') (view : σ → τ)
    (expand : σ → α → List α') (seen : α×β → Option γ) (shown : α'×β' → Option γ) {I : σ → Prop}
    {P : σ → α → Prop} (keep : ∀ s a,I s → P s a → I (m.step s a).1)
    (matched : ∀ s a,I s → P s a → n.after (view s) (expand s a)=view (m.step s a).1 ∧
      (n.trace (view s) (expand s a)).filterMap shown=(seen (a,(m.step s a).2)).toList)
    {s : σ} (start : I s) (as : List α) (h : m.Along (fun _ => P) s as) :
    n.after (view s) (m.expanded expand s as)=view (m.after s as) ∧
    (n.trace (view s) (m.expanded expand s as)).filterMap shown=(m.trace s as).filterMap seen := by
  induction as generalizing s with
  | nil => exact ⟨rfl,rfl⟩
  | cons a as ih =>
    have now : P s a := h [] a as rfl
    obtain ⟨next,same⟩ := matched s a start now
    obtain ⟨last,rest⟩ := ih (keep s a start now)
      (fun past b future he => h (a::past) b future (by rw [he]; rfl))
    rw [expanded,n.after_append,n.trace_append,List.filterMap_append,next,same]
    refine ⟨last,?_⟩
    rw [rest,trace,List.filterMap_cons]
    cases seen (a,(m.step s a).2) <;> rfl

/-- No run of actions tells the two states apart. -/
def Equivalent (s t : σ) : Prop := ∀ as,m.trace s as=m.trace t as

/-- States related by a bisimulation are equivalent. -/
theorem equivalent_of_related (R : σ → σ → Prop)
    (keep : ∀ s t a,R s t → R (m.step s a).1 (m.step t a).1 ∧ (m.step s a).2=(m.step t a).2)
    {s t : σ} (start : R s t) : m.Equivalent s t := by
  intro as
  exact (m.simulation m R keep start as).2

/-- The actions marked to stay. -/
def kept (marked : List (α×Bool)) : List α := (marked.filter (·.2)).map (·.1)

/-- What a viewer sees of the marked actions in the run of all of them. -/
def keptViews (view : α → β → γ) (s : σ) (marked : List (α×Bool)) : List γ :=
  (((m.trace s (marked.map (·.1))).zip (marked.map (·.2))).filter (·.2)).map
    (fun x => view x.1.1 x.1.2)

/-- Unwinding: when kept actions respect a relation and look alike under it, and dropped actions
stay inside it, the viewer cannot tell the full run from the run without the dropped actions. -/
theorem unwinding (R : σ → σ → Prop) (view : α → β → γ) (marked : List (α×Bool)) (s t : σ)
    (start : R s t)
    (keep : ∀ u v a,(a,true)∈marked → R u v →
      R (m.step u a).1 (m.step v a).1 ∧ view a (m.step u a).2=view a (m.step v a).2)
    (drop : ∀ n a v,marked[n]?=some (a,false) → R (m.after s ((marked.take n).map (·.1))) v →
      R (m.step (m.after s ((marked.take n).map (·.1))) a).1 v) :
    m.keptViews view s marked=(m.trace t (kept marked)).map (fun x => view x.1 x.2) := by
  induction marked generalizing s t with
  | nil => rfl
  | cons x marked ih =>
    obtain ⟨a,b⟩ := x
    have keep' : ∀ u v c,(c,true)∈marked → R u v →
        R (m.step u c).1 (m.step v c).1 ∧ view c (m.step u c).2=view c (m.step v c).2 :=
      fun u v c hc => keep u v c (List.mem_cons_of_mem _ hc)
    have drop' : ∀ n c v,marked[n]?=some (c,false) →
        R (m.after (m.step s a).1 ((marked.take n).map (·.1))) v →
        R (m.step (m.after (m.step s a).1 ((marked.take n).map (·.1))) c).1 v :=
      fun n c v hc => drop (n+1) c v (by simpa using hc)
    cases b with
    | true =>
      obtain ⟨next,same⟩ := keep s t a (by simp) start
      have rest := ih (m.step s a).1 (m.step t a).1 next keep' drop'
      simp only [keptViews,kept] at rest ⊢
      simp [trace,same,rest]
    | false =>
      have rest := ih (m.step s a).1 t (drop 0 a t rfl start) keep' drop'
      simp only [keptViews,kept] at rest ⊢
      simp [trace,rest]

/-- Of two actions of a run, either both are the same occurrence or one comes before the other. -/
theorem occurrences {as past past' future future' : List α} {a a' : α}
    (h : as=past++a::future) (h' : as=past'++a'::future') :
    (past=past' ∧ a=a') ∨
    (∃ mid,past'=past++a::mid ∧ ∀x∈mid,x∈as) ∨ ∃ mid,past=past'++a'::mid ∧ ∀x∈mid,x∈as := by
  rcases List.append_eq_append_iff.mp (h.symm.trans h') with ⟨mid,hp,hm⟩|⟨mid,hp,hm⟩
  · cases mid with
    | nil =>
      obtain ⟨ha,_⟩ := List.cons.inj hm
      exact Or.inl ⟨by simp [hp],ha⟩
    | cons b mid =>
      obtain ⟨hb,_⟩ := List.cons.inj hm
      subst hb
      refine Or.inr (Or.inl ⟨mid,hp,?_⟩)
      intro x hx
      rw [h',hp]
      simp [hx]
  · cases mid with
    | nil =>
      obtain ⟨ha,_⟩ := List.cons.inj hm
      exact Or.inl ⟨by simp [hp],ha.symm⟩
    | cons b mid =>
      obtain ⟨hb,_⟩ := List.cons.inj hm
      subst hb
      refine Or.inr (Or.inr ⟨mid,hp,?_⟩)
      intro x hx
      rw [h,hp]
      simp [hx]

end Machine
end ESPressioSecurity.Framework
