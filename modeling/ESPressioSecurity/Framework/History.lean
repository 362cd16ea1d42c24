import Mathlib.Data.Set.Operations
import ESPressioSecurity.Framework.Machine

namespace ESPressioSecurity.Framework

variable {σ α β γ : Type*}

/-- Some event of the history set `b` and no later one ended it. -/
def Standing (sets : α → β → Prop) (ends : α → Prop) (xs : List α) (b : β) : Prop :=
  ∃ before x after,xs=before++x::after ∧ sets x b ∧ ∀y∈after,¬ends y

theorem standing_nil (sets : α → β → Prop) (ends : α → Prop) (b : β) :
    ¬Standing sets ends [] b := by
  intro ⟨before,x,after,he,_⟩
  exact absurd he.symm (by simp)

theorem standing_snoc (sets : α → β → Prop) (ends : α → Prop) (xs : List α) (x : α) (b : β) :
    Standing sets ends (xs++[x]) b ↔ sets x b ∨ Standing sets ends xs b ∧ ¬ends x := by
  constructor
  · intro ⟨before,y,after,he,hy,rest⟩
    -- the event that set `b` is the last one or an earlier one
    cases after using List.reverseRecOn with
    | nil =>
      obtain ⟨_,hx⟩ := List.append_inj' he rfl
      obtain ⟨rfl,_⟩ := List.cons.inj hx
      exact Or.inl hy
    | append_singleton after z =>
      rw [← List.cons_append,← List.append_assoc] at he
      obtain ⟨hxs,hz⟩ := List.append_inj' he rfl
      obtain ⟨rfl,_⟩ := List.cons.inj hz
      refine Or.inr ⟨⟨before,y,after,hxs,hy,?_⟩,rest x (by simp)⟩
      intro w hw
      exact rest w (by simp [hw])
  · intro h
    rcases h with hx|⟨⟨before,y,after,rfl,hy,rest⟩,hx⟩
    · exact ⟨xs,x,[],rfl,hx,by simp⟩
    · refine ⟨before,y,after++[x],by simp,hy,?_⟩
      intro w hw
      rcases List.mem_append.mp hw with hw|hw
      · exact rest w hw
      · rw [List.mem_singleton.mp hw]
        exact hx

/-- An observation that every step sets or ends as its event says is, after a whole run, what
stands in the history. -/
theorem Machine.standing_of_step (m : Machine σ α γ) (sets : α×γ → β → Prop) (ends : α×γ → Prop)
    (look : σ → β → Prop) {s : σ} (start : ∀ b,¬look s b)
    (step : ∀ u a b,look (m.step u a).1 b ↔
      sets (a,(m.step u a).2) b ∨ look u b ∧ ¬ends (a,(m.step u a).2))
    (as : List α) (b : β) : look (m.after s as) b ↔ Standing sets ends (m.trace s as) b := by
  induction as using List.reverseRecOn with
  | nil => exact iff_of_false (start b) (standing_nil sets ends b)
  | append_singleton as a ih =>
    rw [m.after_snoc,m.trace_snoc,standing_snoc,step,ih]

/-- If every position with a property is matched to one of `R`, and no position is matched to two of
them, the matching can be chosen one to one. -/
theorem matched_injOn {D : Nat → Prop} {R : Nat → Nat → Prop} (each : ∀ n,D n → ∃ m,R m n)
    (once : ∀ m n n',n<n' → R m n → ¬R m n') :
    ∃ f : Nat → Nat,Set.InjOn f {n | D n} ∧ ∀ n,D n → R (f n) n := by
  classical
  have total : ∀ n,∃ m,D n → R m n := by
    intro n
    by_cases hn : D n
    · obtain ⟨m,hm⟩ := each n hn
      exact ⟨m,fun _ => hm⟩
    · exact ⟨0,fun h => absurd h hn⟩
  choose f hf using total
  refine ⟨f,?_,hf⟩
  intro n hn n' hn' he
  rcases Nat.lt_trichotomy n n' with lt|same|lt
  · exact absurd (he ▸ hf n' hn') (once (f n) n n' lt (hf n hn))
  · exact same
  · exact absurd (he ▸ hf n hn) (once (f n') n' n lt (hf n' hn'))

end ESPressioSecurity.Framework
