import Mathlib.Logic.Function.Basic
import Mathlib.Data.List.Nodup

namespace ESPressioSecurity.Framework.Broadcast

variable {β ν : Type*} [DecidableEq β]

/-- Every listener is told `n` in turn; one that throws takes nothing and keeps nobody else from
being told. -/
def tell (throws : β → ν → Bool) (listeners : List β) (queues : β → List ν) (n : ν) : β → List ν :=
  listeners.foldl (fun q b => if throws b n then q else Function.update q b (q b++[n])) queues

def tellAll (throws : β → ν → Bool) (listeners : List β) (queues : β → List ν) (ns : List ν) :
    β → List ν := ns.foldl (tell throws listeners) queues

theorem tell_of_not_mem (throws : β → ν → Bool) (listeners : List β) (queues : β → List ν) (n : ν)
    {b : β} (h : b∉listeners) : tell throws listeners queues n b=queues b := by
  induction listeners generalizing queues with
  | nil => rfl
  | cons c listeners ih =>
    rw [List.mem_cons,not_or] at h
    obtain ⟨other,rest⟩ := h
    rw [tell,List.foldl_cons,← tell,ih _ rest]
    split_ifs
    · rfl
    · rw [Function.update_of_ne other]

theorem tell_of_mem (throws : β → ν → Bool) {listeners : List β} (distinct : listeners.Nodup)
    (queues : β → List ν) (n : ν) {b : β} (h : b∈listeners) :
    tell throws listeners queues n b=queues b++if throws b n then [] else [n] := by
  induction listeners generalizing queues with
  | nil => exact absurd h (by simp)
  | cons c listeners ih =>
    obtain ⟨fresh,rest⟩ := List.nodup_cons.mp distinct
    rw [tell,List.foldl_cons,← tell]
    by_cases hc : b=c
    · subst hc
      rw [tell_of_not_mem throws listeners _ n fresh]
      split_ifs
      · simp
      · simp
    · rw [ih rest _ ((List.mem_cons.mp h).resolve_left hc)]
      split_ifs <;> simp [hc]

theorem tellAll_of_not_mem (throws : β → ν → Bool) (listeners : List β) (queues : β → List ν)
    (ns : List ν) {b : β} (h : b∉listeners) : tellAll throws listeners queues ns b=queues b := by
  induction ns generalizing queues with
  | nil => rfl
  | cons n ns ih =>
    rw [tellAll,List.foldl_cons,← tellAll,ih,tell_of_not_mem throws listeners queues n h]

/-- A listener gets what it does not throw on, in order, whatever the others do. -/
theorem tellAll_of_mem (throws : β → ν → Bool) {listeners : List β} (distinct : listeners.Nodup)
    (queues : β → List ν) (ns : List ν) {b : β} (h : b∈listeners) :
    tellAll throws listeners queues ns b=queues b++ns.filter (fun n => !throws b n) := by
  induction ns generalizing queues with
  | nil => simp [tellAll]
  | cons n ns ih =>
    rw [tellAll,List.foldl_cons,← tellAll,ih,tell_of_mem throws distinct queues n h]
    cases hn : throws b n <;> simp [hn]

end ESPressioSecurity.Framework.Broadcast
