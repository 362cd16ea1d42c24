import Mathlib.Data.List.Nodup
import Mathlib.Data.List.Basic

namespace ESPressioSecurity.Framework.KeyedTable

variable {α κ : Type*} [DecidableEq κ] (key : α → κ)

/-- A vector searched from the front for the first entry with a key. -/
def lookup (k : κ) (xs : List α) : Option α := xs.find? (fun x => key x=k)

/-- In-place update of the entry `lookup` finds. -/
def modify (k : κ) (f : α → α) (xs : List α) : List α :=
  xs.replaceF (fun x => if key x=k then some (f x) else none)

/-- Erasing the entry `lookup` finds. -/
def erase (k : κ) (xs : List α) : List α := xs.eraseP (fun x => key x=k)

/-- No two entries share a key. -/
def Distinct (xs : List α) : Prop := (xs.map key).Nodup

theorem lookup_key {k : κ} {xs : List α} {x : α} (h : lookup key k xs=some x) :
    x∈xs ∧ key x=k := by
  refine ⟨List.mem_of_find?_eq_some h,?_⟩
  simpa using List.find?_some h

theorem lookup_none_iff {k : κ} {xs : List α} :
    lookup key k xs=none ↔ k∉xs.map key := by
  simp [lookup,List.find?_eq_none]

theorem lookup_of_mem {xs : List α} {x : α} (hd : Distinct key xs) (hx : x∈xs) :
    lookup key (key x) xs=some x := by
  induction xs with
  | nil => exact absurd hx (by simp)
  | cons y ys ih =>
    obtain ⟨hy,hd⟩ := List.nodup_cons.mp hd
    rcases List.mem_cons.mp hx with rfl|hx
    · simp [lookup]
    · have ne : key y≠key x := fun he => hy (he ▸ List.mem_map_of_mem hx)
      have rest := ih hd hx
      simpa [lookup,ne] using rest

theorem lookup_cons (k : κ) (x : α) (xs : List α) :
    lookup key k (x::xs)=if key x=k then some x else lookup key k xs := by
  by_cases h : key x=k <;> simp [lookup,h]

theorem lookup_push (k : κ) (xs : List α) (x : α) :
    lookup key k (xs++[x])=
      (lookup key k xs).or (if key x=k then some x else none) := by
  rw [lookup,List.find?_append]
  by_cases h : key x=k <;> simp [lookup,h]

theorem distinct_push {xs : List α} {x : α} (hd : Distinct key xs)
    (hx : lookup key (key x) xs=none) : Distinct key (xs++[x]) := by
  rw [lookup_none_iff] at hx
  rw [Distinct,List.map_append,List.nodup_append]
  refine ⟨hd,by simp,?_⟩
  intro a ha b hb he
  have hk : b=key x := by simpa using hb
  exact hx (hk ▸ he ▸ ha)

theorem modify_cons (k : κ) (f : α → α) (x : α) (xs : List α) :
    modify key k f (x::xs)=if key x=k then f x::xs else x::modify key k f xs := by
  by_cases h : key x=k <;> simp [modify,h]

theorem modify_keys (k : κ) (f : α → α) (hf : ∀ x,key (f x)=key x) (xs : List α) :
    (modify key k f xs).map key=xs.map key := by
  induction xs with
  | nil => rfl
  | cons x xs ih =>
    rw [modify_cons]
    split_ifs with h <;> simp [hf,ih]

theorem lookup_modify (j k : κ) (f : α → α) (hf : ∀ x,key (f x)=key x) (xs : List α) :
    lookup key j (modify key k f xs)=
      if j=k then (lookup key j xs).map f else lookup key j xs := by
  induction xs with
  | nil => simp [modify,lookup]
  | cons x xs ih =>
    rw [modify_cons]
    by_cases hk : key x=k
    · subst hk
      by_cases hj : j=key x
      · subst hj
        simp [lookup_cons,hf]
      · simp [lookup_cons,hf,hj,Ne.symm hj]
    · rw [if_neg hk,lookup_cons,lookup_cons,ih]
      by_cases hx : key x=j
      · subst hx
        simp [hk]
      · simp [hx]

theorem distinct_erase {k : κ} {xs : List α} (hd : Distinct key xs) :
    Distinct key (erase key k xs) :=
  hd.sublist ((List.eraseP_sublist).map key)

theorem lookup_erase_ne {j k : κ} (h : j≠k) (xs : List α) :
    lookup key j (erase key k xs)=lookup key j xs := by
  induction xs with
  | nil => rfl
  | cons x xs ih =>
    by_cases hk : key x=k
    · have hj : key x≠j := fun he => h (he.symm.trans hk)
      rw [lookup_cons,if_neg hj]
      simp [erase,hk]
    · have step : erase key k (x::xs)=x::erase key k xs := by simp [erase,hk]
      rw [step,lookup_cons,lookup_cons,ih]

/-- With distinct keys no second entry takes the erased one's place. -/
theorem lookup_erase_self {k : κ} {xs : List α} (hd : Distinct key xs) :
    lookup key k (erase key k xs)=none := by
  induction xs with
  | nil => rfl
  | cons x xs ih =>
    obtain ⟨hx,hd⟩ := List.nodup_cons.mp hd
    by_cases hk : key x=k
    · have step : erase key k (x::xs)=xs := by simp [erase,hk]
      rw [step,lookup_none_iff,← hk]
      exact hx
    · have step : erase key k (x::xs)=x::erase key k xs := by simp [erase,hk]
      rw [step,lookup_cons,if_neg hk,ih hd]

/-! ### The entry found and those around it -/

theorem lookup_split {k : κ} {xs : List α} {x : α} (h : lookup key k xs=some x) :
    ∃ before after,xs=before++x::after ∧ key x=k ∧ ∀y∈before,key y≠k := by
  obtain ⟨hx,before,after,he,hb⟩ := List.find?_eq_some_iff_append.mp h
  refine ⟨before,after,he,by simpa using hx,?_⟩
  intro y hy
  simpa using hb y hy

theorem modify_middle {k : κ} {f : α → α} {before after : List α} {x : α} (hx : key x=k)
    (hb : ∀y∈before,key y≠k) : modify key k f (before++x::after)=before++f x::after := by
  induction before with
  | nil => rw [List.nil_append,modify_cons,if_pos hx,List.nil_append]
  | cons y before ih =>
    have rest := ih (fun z hz => hb z (List.mem_cons_of_mem y hz))
    rw [List.cons_append,modify_cons,if_neg (hb y List.mem_cons_self),rest,List.cons_append]

theorem erase_middle {k : κ} {before after : List α} {x : α} (hx : key x=k)
    (hb : ∀y∈before,key y≠k) : erase key k (before++x::after)=before++after := by
  rw [erase,List.eraseP_append_right _ (by simpa using hb)]
  simp [hx]

theorem lookup_map {γ : Type*} (key' : γ → κ) (f : α → γ) (hf : ∀ x,key' (f x)=key x) (k : κ)
    (xs : List α) : lookup key' k (xs.map f)=(lookup key k xs).map f := by
  induction xs with
  | nil => rfl
  | cons x xs ih =>
    rw [List.map_cons,lookup_cons,lookup_cons,hf,ih]
    by_cases hx : key x=k <;> simp [hx]

/-! ### Tables read through a function that keeps the keys -/

theorem modify_map {γ : Type*} (key' : γ → κ) {f : α → γ} (hf : ∀ x,key' (f x)=key x)
    {g : α → α} {g' : γ → γ} (hg : ∀ x,f (g x)=g' (f x)) (k : κ) (xs : List α) :
    (modify key k g xs).map f=modify key' k g' (xs.map f) := by
  induction xs with
  | nil => rfl
  | cons x xs ih =>
    rw [List.map_cons,modify_cons,modify_cons,hf]
    by_cases hx : key x=k
    · rw [if_pos hx,if_pos hx,List.map_cons,hg]
    · rw [if_neg hx,if_neg hx,List.map_cons,ih]

theorem erase_map {γ : Type*} (key' : γ → κ) {f : α → γ} (hf : ∀ x,key' (f x)=key x) (k : κ)
    (xs : List α) : (erase key k xs).map f=erase key' k (xs.map f) := by
  induction xs with
  | nil => rfl
  | cons x xs ih =>
    by_cases hx : key x=k
    · simp [erase,hf,hx]
    · simpa [erase,hf,hx] using ih

theorem mem_modify {k : κ} {f : α → α} {xs : List α} {y : α} (hy : y∈modify key k f xs) :
    y∈xs ∨ ∃x∈xs,y=f x := by
  induction xs with
  | nil => exact absurd hy (by simp [modify])
  | cons x xs ih =>
    rw [modify_cons] at hy
    split_ifs at hy with hx
    · rcases List.mem_cons.mp hy with rfl|hy
      · exact Or.inr ⟨x,List.mem_cons_self,rfl⟩
      · exact Or.inl (List.mem_cons_of_mem x hy)
    · rcases List.mem_cons.mp hy with rfl|hy
      · exact Or.inl List.mem_cons_self
      · rcases ih hy with old|⟨z,hz,rfl⟩
        · exact Or.inl (List.mem_cons_of_mem x old)
        · exact Or.inr ⟨z,List.mem_cons_of_mem x hz,rfl⟩

end ESPressioSecurity.Framework.KeyedTable
