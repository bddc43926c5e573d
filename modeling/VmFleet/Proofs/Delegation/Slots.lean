import Mathlib.Data.List.Perm.Subperm
import VmFleet.Proofs.Delegation.Custody

/-!
# The slots of the pool

An errand whose payload is a machine has a slot or is in line for one, and nobody else is. Only those
who have a slot provision, and nobody stands in line while a slot is free.
-/

set_option autoImplicit false

namespace VmFleet.Delegation

namespace Errand.Stage

/-- Whether an errand has a slot or is in line for one. -/
def isAdmitted : Errand.Stage → Bool
  | .waiting _ => true
  | .provisioning _ _ => true
  | _ => false

def isRunning : Errand.Stage → Bool
  | .provisioning _ _ => true
  | _ => false

end Errand.Stage

/-- The ticket of a request that is not over with. -/
def Errand.live (e : Errand) : List Nat :=
  match e.stage with
  | .over => []
  | _ => [e.request.ticket]

namespace Worker

def stage? (w : Worker) (n : Nat) : Option Errand.Stage := (w.errands[n]?).map Errand.stage

def admits (w : Worker) (n : Nat) : Bool := (w.stage? n).any Errand.Stage.isAdmitted

def runs (w : Worker) (n : Nat) : Bool := (w.stage? n).any Errand.Stage.isRunning

/-- The errands for which the provisioner is at work. -/
def running (w : Worker) : List Nat := (List.range w.errands.length).filter w.runs

def live (w : Worker) : List Nat := w.errands.flatMap Errand.live

def dispatched (w : Worker) (r : Request) : Worker := { w with errands := w.errands ++ [⟨r,.taken⟩] }

structure Pool (w : Worker) : Prop where
  bound : w.busy.length ≤ w.poolSize
  full : w.line ≠ [] → w.busy.length = w.poolSize
  nodup : (w.busy ++ w.line).Nodup
  admitted : ∀ n, n ∈ w.busy ++ w.line ↔ w.admits n = true
  running : ∀ n, w.runs n = true → n ∈ w.busy

variable {w v : Worker} {n k : Nat} {s t : Errand.Stage}

theorem stage_of_errand {e : Errand} (he : w.errands[n]? = some e) : w.stage? n = some e.stage := by
  rw [stage?, he]
  rfl

theorem Pool.running_le (h : w.Pool) : w.running.length ≤ w.poolSize := by
  have hnodup : w.running.Nodup := List.nodup_range.filter _
  have hsub : w.running ⊆ w.busy := fun k hk => h.running k (List.mem_filter.mp hk).2
  exact Nat.le_trans (hnodup.subperm hsub).length_le h.bound

/-! ## Errands that come and go on -/

theorem stage_setStage (w : Worker) (n k : Nat) (s : Errand.Stage) :
    (w.setStage n s).stage? k = if n = k then (w.stage? k).map fun _ => s else w.stage? k := by
  rw [setStage, stage?, stage?, List.getElem?_modify]
  split <;> simp [Function.comp_def]

theorem any_setStage (hn : w.stage? n = some s) (p : Errand.Stage → Bool) (k : Nat) :
    ((w.setStage n t).stage? k).any p = if n = k then p t else (w.stage? k).any p := by
  rw [stage_setStage]
  split
  · next hk =>
    subst hk
    rw [hn]
    rfl
  · rfl

/-- Nothing changes in the pool as long as no errand gets a claim to a slot or loses it. -/
theorem Pool.of_same (h : w.Pool) (hbusy : v.busy = w.busy) (hline : v.line = w.line)
    (hsize : v.poolSize = w.poolSize) (hadmits : ∀ k, v.admits k = w.admits k)
    (hruns : ∀ k, v.runs k = true → k ∈ w.busy) : v.Pool := by
  constructor
  · rw [hbusy, hsize]
    exact h.bound
  · rw [hbusy, hline, hsize]
    exact h.full
  · rw [hbusy, hline]
    exact h.nodup
  · intro k
    rw [hbusy, hline, hadmits]
    exact h.admitted k
  · rw [hbusy]
    exact hruns

theorem Pool.setStage (h : w.Pool) (hn : w.stage? n = some s) (hclaim : t.isAdmitted = s.isAdmitted)
    (hrun : t.isRunning = true → n ∈ w.busy) : (w.setStage n t).Pool := by
  refine h.of_same rfl rfl rfl ?_ ?_
  · intro k
    rw [admits, any_setStage hn]
    split
    · next hk =>
      rw [hclaim, ← hk, admits, hn]
      rfl
    · rfl
  · intro k hk
    rw [runs, any_setStage hn] at hk
    split at hk
    · next heq => exact heq ▸ hrun hk
    · exact h.running k hk

theorem stage_dispatched (w : Worker) (r : Request) (k : Nat) :
    (w.dispatched r).stage? k = if k = w.errands.length then some .taken else w.stage? k := by
  rw [stage?, dispatched, stage?, List.getElem?_append]
  split
  · next hk => rw [if_neg (Nat.ne_of_lt hk)]
  · next hk =>
    rw [List.getElem?_singleton, List.getElem?_eq_none (Nat.le_of_not_lt hk)]
    by_cases heq : k = w.errands.length
    · simp [heq]
    · have hpos : k - w.errands.length ≠ 0 := by omega
      simp [heq, hpos]

theorem errand_dispatched (w : Worker) (r : Request) (k : Nat) (e : Errand)
    (he : (w.dispatched r).errands[k]? = some e) :
    w.errands[k]? = some e ∨ k = w.errands.length ∧ e = ⟨r,.taken⟩ := by
  rw [dispatched, List.getElem?_append] at he
  split at he
  · exact Or.inl he
  · next hk =>
    rw [List.getElem?_singleton] at he
    split at he
    · cases he
      exact Or.inr ⟨by omega,rfl⟩
    · cases he

theorem stage_length (w : Worker) : w.stage? w.errands.length = none := by
  rw [stage?, List.getElem?_eq_none (Nat.le_refl _)]
  rfl

theorem Pool.dispatched (h : w.Pool) (r : Request) : (w.dispatched r).Pool := by
  refine h.of_same rfl rfl rfl ?_ ?_
  · intro k
    rw [admits, stage_dispatched]
    split
    · next hk =>
      rw [hk, admits, stage_length]
      rfl
    · rfl
  · intro k hk
    rw [runs, stage_dispatched] at hk
    split at hk
    · cases hk
    · exact h.running k hk

theorem Pool.admits_waiting (h : w.Pool) (hn : w.stage? n = some s) (m : Machine) (k : Nat) :
    (w.setStage n (.waiting m)).admits k = true ↔ k ∈ w.busy ++ w.line ∨ k = n := by
  rw [admits, any_setStage hn, h.admitted]
  by_cases hk : n = k
  · simp [hk, Errand.Stage.isAdmitted]
  · simp [hk, Ne.symm hk, admits]

theorem Pool.runs_waiting (h : w.Pool) (hn : w.stage? n = some s) (m : Machine) (k : Nat)
    (hk : (w.setStage n (.waiting m)).runs k = true) : k ∈ w.busy := by
  rw [runs, any_setStage hn] at hk
  split at hk
  · cases hk
  · exact h.running k hk

/-- An errand whose payload is a machine gets a slot, or a place in line when there is none. -/
theorem Pool.accept (h : w.Pool) (hn : w.stage? n = some s) (hs : s.isAdmitted = false)
    (m : Machine) : ((w.setStage n (.waiting m)).acquire n).Pool := by
  have hnew : n ∉ w.busy ++ w.line := by
    rw [h.admitted, admits, hn]
    simp [hs]
  have hadmits := h.admits_waiting hn m
  have hruns := h.runs_waiting hn m
  have hnodup : (w.busy ++ w.line ++ [n]).Nodup :=
    List.nodup_append.mpr ⟨h.nodup,List.pairwise_singleton _ n,by
      rintro a ha b hb rfl
      exact hnew (List.mem_singleton.mp hb ▸ ha)⟩
  unfold acquire
  split
  · next hfree =>
    obtain ⟨hroom, hempty⟩ := Bool.and_eq_true_iff.mp hfree
    have hroom : w.busy.length < w.poolSize := of_decide_eq_true hroom
    have hempty : w.line = [] := List.isEmpty_iff.mp hempty
    constructor
    · change (w.busy ++ [n]).length ≤ w.poolSize
      rw [List.length_append, List.length_singleton]
      exact hroom
    · exact fun hline => absurd hempty hline
    · change (w.busy ++ [n] ++ w.line).Nodup
      rw [hempty, List.append_nil] at hnodup ⊢
      exact hnodup
    · intro k
      refine Iff.trans ?_ (hadmits k).symm
      simp only [List.mem_append, List.mem_singleton]
      exact or_right_comm
    · exact fun k hk => List.mem_append_left _ (hruns k hk)
  · next hfull =>
    constructor
    · exact h.bound
    · intro _
      change w.busy.length = w.poolSize
      by_cases hline : w.line = []
      · have hroom : ¬ w.busy.length < w.poolSize := by
          intro hroom
          exact hfull (Bool.and_eq_true_iff.mpr ⟨decide_eq_true hroom,List.isEmpty_iff.mpr hline⟩)
        exact Nat.le_antisymm h.bound (Nat.le_of_not_lt hroom)
      · exact h.full hline
    · change (w.busy ++ (w.line ++ [n])).Nodup
      rw [← List.append_assoc]
      exact hnodup
    · intro k
      refine Iff.trans ?_ (hadmits k).symm
      change k ∈ w.busy ++ (w.line ++ [n]) ↔ _
      rw [← List.append_assoc, List.mem_append, List.mem_singleton]
    · exact hruns

theorem length_filter_ne (l : List Nat) (h : l.Nodup) (hn : n ∈ l) :
    (l.filter (· ≠ n)).length + 1 = l.length := by
  have herase : l.filter (· ≠ n) = l.erase n := by
    rw [h.erase_eq_filter]
    exact List.filter_congr fun k _ => by grind
  have hpos := List.length_pos_of_mem hn
  rw [herase, List.length_erase_of_mem hn]
  omega

/-- The slot of an errand that is over goes to the first in line. -/
theorem Pool.retire (h : w.Pool) (hn : n ∈ w.busy) : ((w.setStage n .over).release n).Pool := by
  have hnodup : w.busy.Nodup := (List.nodup_append.mp h.nodup).1
  have hout : n ∉ w.line := fun hline => (List.nodup_append.mp h.nodup).2.2 n hn n hline rfl
  obtain ⟨s, hs⟩ : ∃ s, w.stage? n = some s := by
    have hadmits := (h.admitted n).mp (List.mem_append_left _ hn)
    obtain ⟨s, hs, -⟩ := (Option.any_eq_true _ _).mp hadmits
    exact ⟨s,hs⟩
  have hlength := length_filter_ne w.busy hnodup hn
  have hall : w.busy.filter (· ≠ n) ++ w.line.take 1 ++ w.line.drop 1 =
      w.busy.filter (· ≠ n) ++ w.line := by
    rw [List.append_assoc, List.take_append_drop]
  constructor
  · change (w.busy.filter (· ≠ n) ++ w.line.take 1).length ≤ w.poolSize
    have hbound := h.bound
    rw [List.length_append, List.length_take]
    omega
  · intro hline
    change (w.busy.filter (· ≠ n) ++ w.line.take 1).length = w.poolSize
    have hmore : w.line.drop 1 ≠ [] := hline
    have hpos : 0 < w.line.length := by
      apply Nat.pos_of_ne_zero
      intro hzero
      rw [List.length_eq_zero_iff.mp hzero] at hmore
      exact hmore rfl
    have hfull := h.full (List.ne_nil_of_length_pos hpos)
    rw [List.length_append, List.length_take]
    omega
  · change (w.busy.filter (· ≠ n) ++ w.line.take 1 ++ w.line.drop 1).Nodup
    rw [hall]
    exact h.nodup.sublist (List.filter_sublist.append (List.Sublist.refl _))
  · intro k
    change k ∈ w.busy.filter (· ≠ n) ++ w.line.take 1 ++ w.line.drop 1 ↔
      (w.setStage n .over).admits k = true
    rw [hall, admits, any_setStage hs]
    have hadmitted := h.admitted k
    rw [List.mem_append] at hadmitted
    by_cases hk : n = k
    · subst hk
      simp [hout, Errand.Stage.isAdmitted]
    · rw [if_neg hk, ← admits, ← hadmitted]
      simp [Ne.symm hk]
  · intro k hk
    change (w.setStage n .over).runs k = true at hk
    rw [runs, any_setStage hs] at hk
    split at hk
    · cases hk
    · next hne =>
      have hbusy := h.running k hk
      exact List.mem_append_left _ (List.mem_filter.mpr ⟨hbusy,decide_eq_true (Ne.symm hne)⟩)

/-! ## The requests that are not over with -/

theorem count_live_setStage (w : Worker) (n t : Nat) (e : Errand) (s : Errand.Stage)
    (he : w.errands[n]? = some e) :
    (w.setStage n s).live.count t + e.live.count t =
      w.live.count t + ({ e with stage := s } : Errand).live.count t :=
  count_modify Errand.live _ t w.errands n e he

theorem live_dispatched (w : Worker) (r : Request) :
    (w.dispatched r).live = w.live ++ [r.ticket] := by
  rw [live, dispatched, List.flatMap_append]
  rfl

theorem live_of_ne_over (e : Errand) (h : e.stage ≠ .over) : e.live = [e.request.ticket] := by
  unfold Errand.live
  split
  · exact absurd ‹_› h
  · rfl

theorem mem_live (w : Worker) (n : Nat) (e : Errand) (he : w.errands[n]? = some e)
    (h : e.stage ≠ .over) : e.request.ticket ∈ w.live := by
  refine List.mem_flatMap.mpr ⟨e,List.mem_of_getElem? he,?_⟩
  rw [live_of_ne_over e h]
  exact List.mem_singleton_self _

end Worker
end VmFleet.Delegation
