import VmFleet.Proofs.Delegation.Depot
import VmFleet.Proofs.Delegation.Replies

/-!
# Every request is answered in the end

The stage of an errand only leads onwards, and whoever is in line moves up when an errand that has a
slot is over. So all errands are over in the end, provided that no errand that can go on is left
standing for ever; for one that is provisioning this says that the provisioner returns.
-/

set_option autoImplicit false

namespace VmFleet.Delegation

/-- How many times an errand goes on from here, at most. -/
def Errand.Stage.rest : Errand.Stage → Nat
  | .taken => 3
  | .waiting _ => 2
  | .provisioning _ _ => 1
  | .over => 0

theorem Errand.Stage.eq_over (s : Errand.Stage) (h : s.rest = 0) : s = .over := by
  cases s with
  | taken => cases h
  | waiting m => cases h
  | provisioning m due => cases h
  | _ => rfl

namespace Worker

/-- An errand goes on by itself, except that it waits in line for a slot. -/
def CanGo (w : Worker) (n : Nat) : Prop :=
  match w.stage? n with
  | some .taken => True
  | some (.waiting _) => n ∈ w.busy
  | some (.provisioning _ _) => True
  | _ => False

theorem canGo_of_errand {w : Worker} {n : Nat} {e : Errand} (he : w.errands[n]? = some e)
    (hslot : ∀ m, e.stage = .waiting m → n ∈ w.busy) (hopen : e.stage ≠ .over) : w.CanGo n := by
  unfold CanGo
  rw [stage_of_errand he]
  cases hs : e.stage with
  | taken => trivial
  | waiting m => exact hslot m hs
  | provisioning m due => trivial
  | _ => exact absurd hs hopen

/-- The errand is in line with so many before it, or fewer. -/
def InLine (w : Worker) (n k : Nat) : Prop :=
  ∃ front back, w.line = front ++ n :: back ∧ front.length ≤ k

end Worker

namespace Depot

open Exchange

variable {d d' d'' : Depot} {n k : Nat} {e : Errand}

/-! ## What a step leaves as it is -/

/-- Of the errands, a step adds one or makes one go on, and it tells of no other. -/
theorem step_errands (h : Step d d') :
    d'.worker.errands = d.worker.errands ∧ d'.log = d.log ∨
      (∃ r, d'.worker.errands = d.worker.errands ++ [⟨r,.taken⟩] ∧ d'.log = d.log) ∨
      ∃ n e s, d.worker.errands[n]? = some e ∧ s.rest < e.stage.rest ∧
        d'.worker.errands = (d.worker.setStage n s).errands ∧
        ∀ k, n ≠ k → d'.history k = d.history k := by
  have hothers : ∀ (n : Nat) (events : List Event) (k : Nat), n ≠ k →
      history { d with log := d.tell n events } k = d.history k := by
    intro n events k hk
    rw [history_tell, if_neg hk, List.append_nil]
  cases h with
  | dispatch cue w x hphase hheed =>
    obtain ⟨r, htake, rfl⟩ := dispatch_cases _ _ _ _ cue hheed
    exact Or.inr (Or.inl ⟨r,rfl,rfl⟩)
  | reconfigure change =>
    obtain ⟨latency, hw⟩ := reconfigure_eq d.worker change
    rw [hw]
    exact Or.inl ⟨rfl,rfl⟩
  | refuse n e problem he hs hd =>
    refine Or.inr (Or.inr ⟨n,e,.over,he,?_,rfl,hothers n _⟩)
    rw [hs]
    decide
  | accept n e m he hs hd =>
    refine Or.inr (Or.inr ⟨n,e,.waiting m,he,?_,acquire_errands _ n,fun _ _ => rfl⟩)
    rw [hs]
    exact Nat.lt_succ_self 2
  | begin n e m due he hs hbusy =>
    refine Or.inr (Or.inr ⟨n,e,.provisioning m due,he,?_,rfl,hothers n _⟩)
    rw [hs]
    exact Nat.lt_succ_self 1
  | finish n e m due result he hs =>
    refine Or.inr (Or.inr ⟨n,e,.over,he,?_,rfl,hothers n _⟩)
    rw [hs]
    exact Nat.lt_succ_self 0
  | _ => exact Or.inl ⟨rfl,rfl⟩

/-- Slots are kept and the line grows at its end, or an errand that is over gives its slot to the
first in line. -/
theorem step_slots (h : Step d d') :
    (d.worker.busy ⊆ d'.worker.busy ∧ ∃ more, d'.worker.line = d.worker.line ++ more) ∨
      ∃ n, d'.worker.stage? n = some .over ∧
        d'.worker.busy = d.worker.busy.filter (· ≠ n) ++ d.worker.line.take 1 ∧
        d'.worker.line = d.worker.line.drop 1 := by
  have hsame : d'.worker.busy = d.worker.busy → d'.worker.line = d.worker.line →
      d.worker.busy ⊆ d'.worker.busy ∧ ∃ more, d'.worker.line = d.worker.line ++ more := by
    intro hbusy hline
    rw [hbusy, hline]
    exact ⟨List.Subset.refl _,[],(List.append_nil _).symm⟩
  cases h with
  | dispatch cue w x hphase hheed =>
    obtain ⟨r, htake, rfl⟩ := dispatch_cases _ _ _ _ cue hheed
    exact Or.inl (hsame rfl rfl)
  | reconfigure change =>
    obtain ⟨latency, hw⟩ := reconfigure_eq d.worker change
    exact Or.inl (hsame (by rw [hw]) (by rw [hw]))
  | accept n e m he hs hd =>
    left
    dsimp only
    unfold Worker.acquire
    split
    · exact ⟨List.subset_append_left _ _,[],(List.append_nil _).symm⟩
    · exact ⟨List.Subset.refl _,[n],rfl⟩
  | finish n e m due result he hs =>
    refine Or.inr ⟨n,?_,rfl,rfl⟩
    change (d.worker.setStage n .over).stage? n = some .over
    rw [Worker.stage_setStage, if_pos rfl, Worker.stage_of_errand he]
    rfl
  | _ => exact Or.inl (hsame rfl rfl)

theorem step_size (h : Step d d') : d'.worker.poolSize = d.worker.poolSize := by
  cases h with
  | dispatch cue w x hphase hheed =>
    obtain ⟨r, htake, rfl⟩ := dispatch_cases _ _ _ _ cue hheed
    rfl
  | reconfigure change =>
    obtain ⟨latency, hw⟩ := reconfigure_eq d.worker change
    rw [hw]
  | accept n e m he hs hd =>
    dsimp only
    unfold Worker.acquire
    split <;> rfl
  | _ => rfl

/-! ## Errands lead onwards -/

/-- Errands are as far as they were or further, and of those that were over nothing more is told. -/
structure Onward (d d' : Depot) : Prop where
  size : d'.worker.poolSize = d.worker.poolSize
  later : d.exchange.Later d'.exchange
  errands : ∀ (n : Nat) (e : Errand), d.worker.errands[n]? = some e →
    ∃ s, d'.worker.errands[n]? = some ⟨e.request,s⟩ ∧ (s = e.stage ∨ s.rest < e.stage.rest)
  history : ∀ n, d.worker.stage? n = some .over → d'.history n = d.history n

theorem Onward.refl (d : Depot) : Onward d d :=
  ⟨rfl,.refl _,fun _ e he => ⟨e.stage,he,Or.inl rfl⟩,fun _ _ => rfl⟩

theorem Onward.over (h : Onward d d') (hover : d.worker.stage? n = some .over) :
    d'.worker.stage? n = some .over := by
  obtain ⟨e, he, hs⟩ := Option.map_eq_some_iff.mp hover
  obtain ⟨s, he', hrest⟩ := h.errands n e he
  rw [Worker.stage_of_errand he']
  rcases hrest with rfl | hrest
  · rw [hs]
  · rw [hs] at hrest
    exact absurd hrest (Nat.not_lt_zero _)

theorem Onward.trans (h : Onward d d') (h' : Onward d' d'') : Onward d d'' := by
  refine ⟨h'.size.trans h.size,h.later.trans h'.later,?_,?_⟩
  · intro n e he
    obtain ⟨s, he', hs⟩ := h.errands n e he
    obtain ⟨t, he'', ht⟩ := h'.errands n _ he'
    refine ⟨t,he'',?_⟩
    rcases ht with rfl | ht
    · exact hs
    · rcases hs with rfl | hs
      · exact Or.inr ht
      · exact Or.inr (Nat.lt_trans ht hs)
  · intro n hover
    rw [h'.history n (h.over hover), h.history n hover]

theorem step_onward (h : Step d d') : Onward d d' := by
  have hlater := step_later h
  have hsize := step_size h
  rcases step_errands h with ⟨herrands, hlog⟩ | ⟨r, herrands, hlog⟩ | ⟨n, e, s, he, hrest,
    herrands, hothers⟩
  · refine ⟨hsize,hlater,?_,?_⟩
    · intro k f hf
      exact ⟨f.stage,herrands ▸ hf,Or.inl rfl⟩
    · intro k _
      rw [history, hlog, history]
  · refine ⟨hsize,hlater,?_,?_⟩
    · intro k f hf
      refine ⟨f.stage,?_,Or.inl rfl⟩
      rw [herrands, List.getElem?_append_left (List.getElem?_eq_some_iff.mp hf).1]
      exact hf
    · intro k _
      rw [history, hlog, history]
  · refine ⟨hsize,hlater,?_,?_⟩
    · intro k f hf
      rw [herrands, Worker.setStage, List.getElem?_modify, hf]
      by_cases hk : n = k
      · subst hk
        cases he.symm.trans hf
        exact ⟨s,by simp,Or.inr hrest⟩
      · exact ⟨f.stage,by simp [hk],Or.inl rfl⟩
    · intro k hover
      apply hothers
      rintro rfl
      have hs : e.stage = .over := Option.some.inj ((Worker.stage_of_errand he).symm.trans hover)
      rw [hs] at hrest
      exact Nat.not_lt_zero _ hrest

/-! ## Those in line move up -/

/-- A slot is kept until the errand is over. -/
theorem step_busy (h : Step d d') (hn : n ∈ d.worker.busy) :
    n ∈ d'.worker.busy ∨ d'.worker.stage? n = some .over := by
  rcases step_slots h with ⟨hkept, -⟩ | ⟨k, hover, hbusy, -⟩
  · exact Or.inl (hkept hn)
  · by_cases hk : n = k
    · exact Or.inr (hk ▸ hover)
    · left
      rw [hbusy]
      exact List.mem_append_left _ (List.mem_filter.mpr ⟨hn,decide_eq_true hk⟩)

/-- In a step, somebody in line gets a slot, moves up, or stays; if they stay, so do those who have
slots. -/
theorem step_line (h : Step d d') (hl : d.worker.InLine n k) :
    n ∈ d'.worker.busy ∨ (∃ i < k, d'.worker.InLine n i) ∨
      d'.worker.InLine n k ∧ d.worker.busy ⊆ d'.worker.busy := by
  obtain ⟨front, back, hline, hfront⟩ := hl
  rcases step_slots h with ⟨hkept, more, hmore⟩ | ⟨i, -, hbusy, hrest⟩
  · refine Or.inr (Or.inr ⟨⟨front,back ++ more,?_,hfront⟩,hkept⟩)
    rw [hmore, hline, List.append_assoc, List.cons_append]
  · cases front with
    | nil =>
      left
      rw [hbusy, hline]
      exact List.mem_append_right _ List.mem_cons_self
    | cons first front =>
      refine Or.inr (Or.inl ⟨front.length,hfront,front,back,?_,Nat.le_refl _⟩)
      rw [hrest, hline]
      rfl

/-! ## Nobody is held up -/

theorem stage_setStage_self (w : Worker) (he : w.errands[n]? = some e) (s : Errand.Stage) :
    (w.setStage n s).stage? n = some s := by
  rw [Worker.stage_setStage, if_pos rfl, Worker.stage_of_errand he]
  rfl

/-- An errand that can go on may do so at once. -/
theorem canGo_step (d : Depot) (n : Nat) (h : d.worker.CanGo n) :
    ∃ d', Step d d' ∧ d'.worker.stage? n ≠ d.worker.stage? n := by
  unfold Worker.CanGo at h
  cases he : d.worker.errands[n]? with
  | none =>
    rw [Worker.stage?, he] at h
    exact h.elim
  | some e =>
    have hstage := Worker.stage_of_errand he
    rw [hstage] at h ⊢
    cases hs : e.stage with
    | taken =>
      cases hd : Machine.decode e.request.envelope.payload with
      | error problem =>
        refine ⟨_,.refuse n e problem he hs hd,?_⟩
        rw [answer, stage_setStage_self _ he]
        simp
      | ok m =>
        refine ⟨_,.accept n e m he hs hd,?_⟩
        rw [Worker.stage?, acquire_errands, ← Worker.stage?, stage_setStage_self _ he]
        simp
    | waiting m =>
      rw [hs] at h
      refine ⟨_,.begin n e m 0 he hs h,?_⟩
      rw [stage_setStage_self _ he]
      simp
    | provisioning m due =>
      refine ⟨_,.finish n e m due (.ok ()) he hs,?_⟩
      change (d.worker.setStage n .over).stage? n ≠ _
      rw [stage_setStage_self _ he]
      simp
    | _ =>
      rw [hs] at h
      exact h.elim

/-- Until it does, it can. -/
theorem canGo_stays (h : Step d d') (hgo : d.worker.CanGo n)
    (hsame : d'.worker.stage? n = d.worker.stage? n) : d'.worker.CanGo n := by
  unfold Worker.CanGo at hgo ⊢
  rw [hsame]
  split
  · trivial
  · next m hm =>
    rw [hm] at hgo
    rcases step_busy h hgo with hbusy | hover
    · exact hbusy
    · rw [hsame, hm] at hover
      cases hover
  · trivial
  · next htaken hwaiting hprovisioning =>
    split at hgo
    · next hs => exact htaken hs
    · next m hs => exact hwaiting m hs
    · next m due hs => exact hprovisioning m due hs
    · exact hgo

end Depot

/-! ## All that may happen in the course of time -/

/-- What others have made of an empty exchange, and what they hold by then. -/
def Exchange.Known (x : Exchange) (hands : List Nat) : Prop :=
  Relation.ReflTransGen (fun p q : Exchange × List Nat => Exchange.Others [] p.1 p.2 q.1 q.2)
    (.empty, []) (x, hands)

theorem Exchange.known_custody {x : Exchange} {hands : List Nat} (h : x.Known hands) :
    x.Custody hands := by
  have hall : ∀ p : Exchange × List Nat, Relation.ReflTransGen
      (fun p q : Exchange × List Nat => Exchange.Others [] p.1 p.2 q.1 q.2) (.empty, []) p →
      p.1.Custody p.2 := by
    intro p hp
    induction hp with
    | refl => exact Exchange.empty_custody
    | tail _ hstep ih =>
      have hc := Exchange.others_custody hstep [] (by rwa [List.append_nil])
      rwa [List.append_nil] at hc
  exact hall (x, hands) h

namespace Depot

open Exchange

/-- A worker is opened with a pool of this size, and then takes a step at a time or rests. -/
structure Run (poolSize : Nat) (σ : Nat → Depot) : Prop where
  start : ∃ x theirs latencyMillis fault, x.Known theirs ∧
    σ 0 = opened x theirs poolSize latencyMillis fault
  next : ∀ k, σ (k + 1) = σ k ∨ Step (σ k) (σ (k + 1))

/-- No errand that can go on from some time on is left standing for ever. -/
def Fair (σ : Nat → Depot) : Prop :=
  ∀ n start, (∀ k, start ≤ k → (σ k).worker.CanGo n) →
    ∃ k, start ≤ k ∧ (σ (k + 1)).worker.stage? n ≠ (σ k).worker.stage? n

/-- Some time after this one, the errand is over. -/
def EndsFrom (σ : Nat → Depot) (n k : Nat) : Prop := ∃ j, k ≤ j ∧ (σ j).worker.stage? n = some .over

theorem EndsFrom.earlier {σ : Nat → Depot} {n j k : Nat} (h : EndsFrom σ n j) (hk : k ≤ j) :
    EndsFrom σ n k := by
  obtain ⟨i, hi, hover⟩ := h
  exact ⟨i,Nat.le_trans hk hi,hover⟩

theorem opened_sane (x : Exchange) (theirs : List Nat) (poolSize latencyMillis : Nat)
    (fault : Option String) (h : x.Custody theirs) :
    (opened x theirs poolSize latencyMillis fault).Sane := by
  refine ⟨?_,?_,fun _ hentry => absurd hentry List.not_mem_nil,fun _ _ he => nomatch he⟩
  · change Exchange.Custody _ (theirs ++ [])
    rw [List.append_nil]
    exact register_custody (register_custody h _) _
  · exact ⟨Nat.zero_le _,fun hline => absurd rfl hline,List.nodup_nil,fun _ => by
      simp [opened, Worker.start, Worker.admits, Worker.stage?],fun _ hruns => nomatch hruns⟩

section Run

variable {poolSize : Nat} {σ : Nat → Depot} {n k j : Nat} {e : Errand}

theorem run_sane (h : Run poolSize σ) (k : Nat) : (σ k).Sane := by
  induction k with
  | zero =>
    obtain ⟨x, theirs, latency, fault, hx, hstart⟩ := h.start
    rw [hstart]
    exact opened_sane x theirs poolSize latency fault (known_custody hx)
  | succ k ih =>
    rcases h.next k with hrest | hstep
    · rw [hrest]
      exact ih
    · exact step_sane ih hstep

theorem run_onward (h : Run poolSize σ) (hj : k ≤ j) : Onward (σ k) (σ j) := by
  induction hj with
  | refl => exact .refl _
  | @step j _ ih =>
    rcases h.next j with hrest | hstep
    · rw [hrest]
      exact ih
    · exact ih.trans (step_onward hstep)

theorem run_size (h : Run poolSize σ) (k : Nat) : (σ k).worker.poolSize = poolSize := by
  obtain ⟨x, theirs, latency, fault, hx, hstart⟩ := h.start
  rw [(run_onward h (Nat.zero_le k)).size, hstart]
  rfl

/-- An errand that can go on is further some time later. -/
theorem goes_on (h : Run poolSize σ) (hfair : Fair σ) (he : (σ k).worker.errands[n]? = some e)
    (hgo : (σ k).worker.CanGo n) : ∃ j s, k ≤ j ∧
      (σ j).worker.errands[n]? = some ⟨e.request,s⟩ ∧ s.rest < e.stage.rest := by
  apply Classical.byContradiction
  intro hnever
  have hsame : ∀ j, k ≤ j → (σ j).worker.stage? n = some e.stage := by
    intro j hj
    obtain ⟨s, he', hs⟩ := (run_onward h hj).errands n e he
    rcases hs with rfl | hs
    · exact Worker.stage_of_errand he'
    · exact (hnever ⟨j,s,hj,he',hs⟩).elim
  have hcan : ∀ j, k ≤ j → (σ j).worker.CanGo n := by
    intro j hj
    induction hj with
    | refl => exact hgo
    | @step j hj ih =>
      rcases h.next j with hrest | hstep
      · rw [hrest]
        exact ih
      · exact canGo_stays hstep ih ((hsame (j + 1) (Nat.le_succ_of_le hj)).trans (hsame j hj).symm)
  obtain ⟨j, hj, hmoved⟩ := hfair n k hcan
  exact hmoved ((hsame (j + 1) (Nat.le_succ_of_le hj)).trans (hsame j hj).symm)

theorem provisioning_over (h : Run poolSize σ) (hfair : Fair σ)
    (he : (σ k).worker.errands[n]? = some e) (m : Machine) (due : Nat)
    (hs : e.stage = .provisioning m due) : EndsFrom σ n k := by
  have hgo : (σ k).worker.CanGo n := Worker.canGo_of_errand he (by simp [hs]) (by simp [hs])
  obtain ⟨j, s, hj, he', hrest⟩ := goes_on h hfair he hgo
  rw [hs] at hrest
  exact ⟨j,hj,(Worker.stage_of_errand he').trans (congrArg some (s.eq_over (Nat.lt_one_iff.mp hrest)))⟩

/-- Whoever has a slot is over some time later. -/
theorem busy_over (h : Run poolSize σ) (hfair : Fair σ) (hn : n ∈ (σ k).worker.busy) :
    EndsFrom σ n k := by
  have hadmits := ((run_sane h k).pool.admitted n).mp (List.mem_append_left _ hn)
  obtain ⟨stage, hstage, hadmitted⟩ := (Option.any_eq_true _ _).mp hadmits
  obtain ⟨e, he, rfl⟩ := Option.map_eq_some_iff.mp hstage
  cases hs : e.stage with
  | taken =>
    rw [hs] at hadmitted
    cases hadmitted
  | waiting m =>
    have hgo : (σ k).worker.CanGo n :=
      Worker.canGo_of_errand he (fun _ _ => hn) (by simp [hs])
    obtain ⟨j, s, hj, he', hrest⟩ := goes_on h hfair he hgo
    rw [hs] at hrest
    cases s with
    | taken => exact absurd hrest (Nat.not_lt_of_le (Nat.le_succ 2))
    | waiting m => exact absurd hrest (Nat.lt_irrefl _)
    | provisioning m due => exact (provisioning_over h hfair he' m due rfl).earlier hj
    | _ => exact ⟨j,hj,Worker.stage_of_errand he'⟩
  | provisioning m due => exact provisioning_over h hfair he m due hs
  | _ => exact ⟨k,Nat.le_refl _,hs ▸ hstage⟩

/-- As long as nobody in front gets a slot, nobody who has one gives it up. -/
theorem line_stays (h : Run poolSize σ) (hl : (σ k).worker.InLine n j) (b : Nat)
    (hb : b ∈ (σ k).worker.busy) (i : Nat) (hi : k ≤ i) :
    (∃ t, k ≤ t ∧ n ∈ (σ t).worker.busy) ∨ (∃ t q, k ≤ t ∧ q < j ∧ (σ t).worker.InLine n q) ∨
      (σ i).worker.InLine n j ∧ b ∈ (σ i).worker.busy := by
  induction hi with
  | refl => exact Or.inr (Or.inr ⟨hl,hb⟩)
  | @step i hi ih =>
    rcases ih with hgot | hup | ⟨hline, hkept⟩
    · exact Or.inl hgot
    · exact Or.inr (Or.inl hup)
    · rcases h.next i with hrest | hstep
      · rw [hrest]
        exact Or.inr (Or.inr ⟨hline,hkept⟩)
      · rcases step_line hstep hline with hgot | ⟨q, hq, hup⟩ | ⟨hline, hsub⟩
        · exact Or.inl ⟨i + 1,Nat.le_succ_of_le hi,hgot⟩
        · exact Or.inr (Or.inl ⟨i + 1,q,Nat.le_succ_of_le hi,hq,hup⟩)
        · exact Or.inr (Or.inr ⟨hline,hsub hkept⟩)

/-- Whoever is in line has a slot some time later. -/
theorem line_busy (h : Run poolSize σ) (hfair : Fair σ) (hsize : 1 ≤ poolSize)
    (hl : (σ k).worker.InLine n j) : ∃ i, k ≤ i ∧ n ∈ (σ i).worker.busy := by
  induction j using Nat.strongRecOn generalizing k with
  | _ j ih =>
    have hpool := (run_sane h k).pool
    obtain ⟨b, hb⟩ : ∃ b, b ∈ (σ k).worker.busy := by
      obtain ⟨front, back, hline, -⟩ := hl
      have hfull := hpool.full (by simp [hline])
      rw [run_size h] at hfull
      exact List.exists_mem_of_length_pos (by omega)
    obtain ⟨i, hi, hover⟩ := busy_over h hfair hb
    rcases line_stays h hl b hb i hi with hgot | ⟨t, q, ht, hq, hup⟩ | ⟨-, hkept⟩
    · exact hgot
    · obtain ⟨u, hu, hgot⟩ := ih q hq hup
      exact ⟨u,Nat.le_trans ht hu,hgot⟩
    · -- the slot that is kept is that of an errand that is over
      have hadmits := ((run_sane h i).pool.admitted b).mp (List.mem_append_left _ hkept)
      rw [Worker.admits, hover] at hadmits
      cases hadmits

theorem admitted_over (h : Run poolSize σ) (hfair : Fair σ) (hsize : 1 ≤ poolSize)
    (hn : (σ k).worker.admits n = true) : EndsFrom σ n k := by
  rcases List.mem_append.mp (((run_sane h k).pool.admitted n).mpr hn) with hbusy | hline
  · exact busy_over h hfair hbusy
  · obtain ⟨front, back, hsplit⟩ := List.append_of_mem hline
    obtain ⟨i, hi, hbusy⟩ := line_busy h hfair hsize ⟨front,back,hsplit,Nat.le_refl _⟩
    exact (busy_over h hfair hbusy).earlier hi

/-- Whoever was looked at is over some time later. -/
theorem seen_over (h : Run poolSize σ) (hfair : Fair σ) (hsize : 1 ≤ poolSize)
    (he : (σ k).worker.errands[n]? = some e) (hseen : e.stage ≠ .taken) : EndsFrom σ n k := by
  have hstage := Worker.stage_of_errand he
  by_cases hadmitted : e.stage.isAdmitted = true
  · apply admitted_over h hfair hsize
    rw [Worker.admits, hstage]
    exact hadmitted
  · refine ⟨k,Nat.le_refl _,?_⟩
    rw [hstage]
    cases hs : e.stage with
    | taken => exact absurd hs hseen
    | waiting m => exact absurd (by rw [hs]; rfl) hadmitted
    | provisioning m due => exact absurd (by rw [hs]; rfl) hadmitted
    | _ => rfl

theorem errand_over (h : Run poolSize σ) (hfair : Fair σ) (hsize : 1 ≤ poolSize)
    (he : (σ k).worker.errands[n]? = some e) : EndsFrom σ n k := by
  by_cases hs : e.stage = .taken
  · have hgo : (σ k).worker.CanGo n := Worker.canGo_of_errand he (by simp [hs]) (by simp [hs])
    obtain ⟨j, s, hj, he', hrest⟩ := goes_on h hfair he hgo
    have hseen : s ≠ .taken := by
      rintro rfl
      rw [hs] at hrest
      exact Nat.lt_irrefl _ hrest
    exact (seen_over h hfair hsize he' hseen).earlier hj
  · exact seen_over h hfair hsize he hs

/-- An errand that is over has been answered, and nothing more happens to it. -/
theorem over_settled (h : Run poolSize σ) (he : (σ k).worker.errands[n]? = some e) (hj : k ≤ j)
    (hover : (σ j).worker.stage? n = some .over) :
    ∃ events reply, Course e.request.envelope.payload events reply ∧ ∀ i, j ≤ i →
      (σ i).history n = events ∧ (σ i).exchange.slots[e.request.ticket]? = some (.answered reply) := by
  obtain ⟨s, he', -⟩ := (run_onward h hj).errands n e he
  have hstanding := (run_sane h j).standings n _ he'
  rw [Option.some.inj ((Worker.stage_of_errand he').symm.trans hover)] at hstanding
  obtain ⟨reply, hcourse, hslot⟩ := hstanding.of_over
  refine ⟨_,reply,hcourse,?_⟩
  intro i hi
  have honward := run_onward h hi
  exact ⟨honward.history n hover,honward.later.filled _ _ hslot (by simp)⟩

/-- In every state, the provisioner is at work for no more requests than the pool has slots, each
request has been handed over and answered as far as it is, and only those that are machines ever have
a slot or are in line. If nothing is left standing for ever, every request is answered in the end, as
its payload and the provisioner have it, and that is all that ever happens to it. -/
theorem requests_are_answered_once (h : Run poolSize σ) :
    (∀ k, (σ k).worker.running.length ≤ poolSize) ∧
      (∀ k n e, (σ k).worker.errands[n]? = some e →
        Standing e.request.envelope.payload e.stage ((σ k).history n)
            (σ k).exchange.slots[e.request.ticket]? ∧
          (e.stage ≠ .over → (σ k).exchange.slots[e.request.ticket]? = some .pending) ∧
          (n ∈ (σ k).worker.busy ++ (σ k).worker.line →
            ∃ m, Machine.decode e.request.envelope.payload = .ok m)) ∧
      (1 ≤ poolSize → Fair σ → ∀ k n e, (σ k).worker.errands[n]? = some e →
        ∃ j events reply, k ≤ j ∧ Course e.request.envelope.payload events reply ∧
          ∀ i, j ≤ i → (σ i).history n = events ∧
            (σ i).exchange.slots[e.request.ticket]? = some (.answered reply)) := by
  refine ⟨?_,?_,?_⟩
  · intro k
    exact Nat.le_trans (run_sane h k).pool.running_le (Nat.le_of_eq (run_size h k))
  · intro k n e he
    have hsane := run_sane h k
    exact ⟨hsane.standings n e he,hsane.unanswered he,hsane.decodes he⟩
  · intro hsize hfair k n e he
    obtain ⟨j, hj, hover⟩ := errand_over h hfair hsize he
    obtain ⟨events, reply, hcourse, hsettled⟩ := over_settled h he hj hover
    exact ⟨j,events,reply,hj,hcourse,hsettled⟩

end Run

/-- A worker with one slot brings a machine up, and nothing else happens. -/
def lone (m : Machine) (k : Nat) : Depot :=
  let request : Request := ⟨0,⟨resourceCreate,m.encode⟩⟩
  let start := opened .empty [] 1 0 none
  let sent := { start with exchange := (start.exchange.send resourceCreate m.encode).2 }
  let taken := { sent with
    exchange := (sent.exchange.take 0).2
    worker := sent.worker.dispatched request }
  let waiting := { taken with worker := (taken.worker.setStage 0 (.waiting m)).acquire 0 }
  let provisioning := { waiting with
    worker := waiting.worker.setStage 0 (.provisioning m 0)
    log := waiting.tell 0 [.handed m] }
  let done := provisioning.answer 0 ⟨request,.provisioning m 0⟩
    ((provisioning.worker.setStage 0 .over).release 0) [.returned (.ok ())] (outcome m (.ok ()))
  match k with
  | 0 => start
  | 1 => sent
  | 2 => taken
  | 3 => waiting
  | 4 => provisioning
  | _ => done

theorem lone_run (m : Machine) : Run 1 (lone m) := by
  refine ⟨⟨.empty,[],0,none,.refl,rfl⟩,?_⟩
  intro k
  match k with
  | 0 => exact Or.inr (.others _ _ (.send resourceCreate m.encode))
  | 1 => exact Or.inr (.dispatch (.mailbox .create) _ _ rfl rfl)
  | 2 => exact Or.inr (.accept 0 _ m rfl rfl (Machine.decode_encode m))
  | 3 => exact Or.inr (.begin 0 _ m 0 rfl rfl List.mem_cons_self)
  | 4 => exact Or.inr (.finish 0 _ m 0 (.ok ()) rfl rfl)
  | _ + 5 => exact Or.inl rfl

theorem lone_fair (m : Machine) : Fair (lone m) := by
  intro n start hcan
  -- in the end nothing is left to do
  have hlast := hcan (start + 5) (Nat.le_add_right _ _)
  cases n with
  | zero => exact hlast.elim
  | succ n => exact hlast.elim

theorem lone_request_is_answered_once :
    let m : Machine := ⟨"VM:1",.aws,.initializing,"USER:1"⟩
    Run 1 (lone m) ∧ Fair (lone m) ∧ (∀ k, (lone m k).worker.running.length ≤ 1) ∧
      ∃ j events reply, Course m.encode events reply ∧ ∀ i, j ≤ i →
        (lone m i).history 0 = events ∧ (lone m i).exchange.slots[0]? = some (.answered reply) := by
  intro m
  have hall := requests_are_answered_once (lone_run m)
  obtain ⟨j, events, reply, -, hcourse, hsettled⟩ :=
    hall.2.2 (Nat.le_refl 1) (lone_fair m) 2 0 _ rfl
  exact ⟨lone_run m,lone_fair m,hall.1,j,events,reply,hcourse,hsettled⟩

end Depot
end VmFleet.Delegation
