import ESPressioSecurity.Framework.Machine
import Mathlib.Logic.Function.Basic

namespace ESPressioSecurity.Framework.Fifo

variable {ι μ : Type*} [DecidableEq ι]

/-- What is done to a family of queues. A queue may lose its oldest message. -/
inductive Input (ι μ : Type*)
  | put (i : ι) (x : μ)
  | take (i : ι)
  | lose (i : ι)
  | idle

def step (q : ι → List μ) : Input ι μ → (ι → List μ)×Option μ
  | .put i x => (Function.update q i (q i++[x]),none)
  | .take i => (Function.update q i (q i).tail,(q i).head?)
  | .lose i => (Function.update q i (q i).tail,none)
  | .idle => (q,none)

def machine (ι μ : Type*) [DecidableEq ι] : Machine (ι → List μ) (Input ι μ) (Option μ) := ⟨step⟩

def put (i : ι) : Input ι μ → Option μ
  | .put j x => if j=i then some x else none
  | _ => none

def taken (i : ι) (x : Input ι μ×Option μ) : Option μ :=
  match x.1 with
  | .take j => if j=i then x.2 else none
  | _ => none

def Input.loses (i : ι) : Input ι μ → Prop
  | .lose j => j=i
  | _ => False

/-- One step moves messages from what was put to what was taken, at the two ends of the queue. -/
theorem step_conserves (q : ι → List μ) (x : Input ι μ) (i : ι) :
    ((taken i (x,(step q x).2)).toList++(step q x).1 i).Sublist (q i++(put i x).toList) ∧
    (¬x.loses i → (taken i (x,(step q x).2)).toList++(step q x).1 i=q i++(put i x).toList) := by
  have kept : ∀ (j : ι) (xs : List μ),j≠i → Function.update q j xs i=q i :=
    fun j xs ne => Function.update_of_ne (Ne.symm ne) xs q
  cases x with
  | put j y =>
    by_cases same : j=i
    · subst same
      simp [step,taken,put]
    · simp [step,taken,put,kept j _ same,same]
  | take j =>
    by_cases same : j=i
    · subst same
      cases hq : q j <;> simp [step,taken,put,hq]
    · simp [step,taken,put,kept j _ same,same]
  | lose j =>
    by_cases same : j=i
    · subst same
      simp [step,taken,put,Input.loses,List.tail_sublist]
    · simp [step,taken,put,kept j _ same]
  | idle => simp [step,taken,put]

/-- What was taken and what still waits is what was put, in order, but for what was lost. -/
theorem conserved (q : ι → List μ) (xs : List (Input ι μ)) (i : ι) :
    (((machine ι μ).trace q xs).filterMap (taken i)++(machine ι μ).after q xs i).Sublist
      (q i++xs.filterMap (put i)) ∧
    ((∀x∈xs,¬x.loses i) →
      ((machine ι μ).trace q xs).filterMap (taken i)++(machine ι μ).after q xs i=
        q i++xs.filterMap (put i)) := by
  induction xs generalizing q with
  | nil => simp [Machine.trace,Machine.after]
  | cons x xs ih =>
    obtain ⟨rest,same⟩ := ih (step q x).1
    obtain ⟨one,all⟩ := step_conserves q x i
    have front : ∀ {γ δ : Type _} (f : γ → Option δ) (y : γ) (ys : List γ),
        (y::ys).filterMap f=(f y).toList++ys.filterMap f := by
      intro γ δ f y ys
      rw [List.filterMap_cons]
      cases f y <;> rfl
    have shape : ((machine ι μ).trace q (x::xs)).filterMap (taken i)=
        (taken i (x,(step q x).2)).toList++
          ((machine ι μ).trace (step q x).1 xs).filterMap (taken i) := front _ _ _
    rw [shape,front,List.append_assoc,← List.append_assoc (q i)]
    constructor
    · have both := rest.append_left (taken i (x,(step q x).2)).toList
      rw [← List.append_assoc _ ((step q x).1 i)] at both
      exact both.trans (one.append_right _)
    · intro lossless
      have later := same (fun y hy => lossless y (List.mem_cons_of_mem x hy))
      rw [← all (lossless x List.mem_cons_self),List.append_assoc]
      exact congrArg _ later

end ESPressioSecurity.Framework.Fifo
