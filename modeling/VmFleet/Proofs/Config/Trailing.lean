import Mathlib.Logic.Basic
import VmFleet.Proofs.Config.Reloads

/-!
# Subscribers that trail behind

A subscriber applies one change after the other, later than they are announced, and may lose some of
them. What it has not read yet still leads to the settings in force, since the newest change is never
the one that is lost. When nothing is left to read, the settings in force are those applied last.
-/

set_option autoImplicit false

namespace VmFleet.Config

/-! ## One queue -/

/-- The changes to come lead to the current value; when there are none, it has been applied. -/
structure Trails {α : Type} (applied : α) (q : Subscription (Change α)) (current : α) : Prop where
  isOpen : q.closed = false
  leads : ∃ start, Chain Eq start q.unread current
  done : q.unread = [] → applied = current

section

variable {α : Type} {applied mid current : α} {q : Subscription (Change α)}

theorem trails_new (current : α) : Trails current .new current :=
  ⟨rfl,⟨current,rfl⟩,fun _ => rfl⟩

theorem chain_drop (first last : α) (cs : List (Change α)) (n : Nat) (h : Chain Eq first cs last) :
    ∃ start, Chain Eq start (cs.drop n) last := by
  rw [← List.take_append_drop n cs, chain_append eq_equivalence] at h
  obtain ⟨start, -, hrest⟩ := h
  exact ⟨start,hrest⟩

theorem Trails.push (h : Trails applied q mid) (c : Change α) (hc : Chain Eq mid [c] current) :
    Trails applied (q.push c) current := by
  obtain ⟨start, hchain⟩ := h.leads
  have hall : Chain Eq start (q.unread ++ [c]) current :=
    (chain_append eq_equivalence _ _ _ _).mpr ⟨mid,hchain,hc⟩
  unfold Subscription.push
  simp only [h.isOpen, Bool.false_eq_true, if_false]
  by_cases hroom : q.unread.length < Subscription.capacity
  · rw [if_pos hroom]
    exact ⟨rfl,⟨start,hall⟩,by simp⟩
  · -- the change that is lost is the oldest one, and there are others
    rw [if_neg hroom]
    have hlong : 1 ≤ q.unread.length := by
      simp only [Subscription.capacity] at hroom
      omega
    have hdrop := chain_drop start current _ 1 hall
    rw [List.drop_append_of_le_length hlong] at hdrop
    exact ⟨rfl,hdrop,by simp⟩

theorem Trails.pushAll (cs : List (Change α)) (mid : α) (q : Subscription (Change α))
    (h : Trails applied q mid) (hcs : Chain Eq mid cs current) :
    Trails applied (q.pushAll cs) current := by
  induction cs generalizing mid q with
  | nil =>
    have heq : mid = current := hcs
    exact heq ▸ h
  | cons c cs ih =>
    obtain ⟨old, next, hc, hold, hne, hrest⟩ := hcs
    exact ih next (q.push c) (h.push c ⟨old,next,hc,hold,hne,rfl⟩) hrest

/-- What a read comes to: word of losses, a change with both sides, or nothing. -/
inductive Reading (applied : α) (current : α) : Delivery (Change α) × Subscription (Change α) → Prop
  | lagged (count : Nat) (rest : Subscription (Change α)) (h : Trails applied rest current) :
      Reading applied current (.lagged count, rest)
  | item (old next : α) (rest : Subscription (Change α)) (h : Trails next rest current) :
      Reading applied current (.item ⟨some old, some next⟩, rest)
  | empty (rest : Subscription (Change α)) (h : Trails applied rest current) :
      Reading applied current (.empty, rest)

theorem Trails.receive (h : Trails applied q current) : Reading applied current q.receive := by
  obtain ⟨start, hchain⟩ := h.leads
  unfold Subscription.receive
  by_cases hlost : 0 < q.lost
  · rw [if_pos hlost]
    exact .lagged q.lost _ ⟨h.isOpen,⟨start,hchain⟩,h.done⟩
  · rw [if_neg hlost]
    cases hunread : q.unread with
    | nil =>
      simp only [h.isOpen]
      exact .empty q h
    | cons c rest =>
      rw [hunread] at hchain
      obtain ⟨old, next, rfl, -, -, hrest⟩ := hchain
      have hdone : rest = [] → next = current := by
        intro hnil
        rw [hnil] at hrest
        exact hrest
      exact .item old next _ ⟨h.isOpen,⟨next,hrest⟩,hdone⟩

theorem Trails.drained (h : Trails applied q current) (hnews : q.hasNews = false) :
    applied = current := by
  simp only [Subscription.hasNews, Bool.or_eq_false_iff, Bool.not_eq_false'] at hnews
  exact h.done (List.isEmpty_iff.mp hnews.2)

end

/-! ## The subscriptions under one name -/

namespace Notifier

def under (n : Notifier) (name : String) : List Subscriber :=
  n.subscribers.filter fun s => s.name = name

/-- There is exactly one subscription of the name, of this part and with this queue. -/
def Has (n : Notifier) (name : String) (p : Part) (q : Subscription (Change p.Value)) : Prop :=
  n.under name = [⟨name, p, q⟩]

variable (n : Notifier) (name other : String)

theorem under_unsubscribe (h : other ≠ name) : (n.unsubscribe other).under name = n.under name := by
  simp only [under, unsubscribe, List.filter_filter]
  apply List.filter_congr
  intro s _
  by_cases hs : s.name = name
  · simp [hs, Ne.symm h]
  · simp [hs]

theorem under_unsubscribe_self : (n.unsubscribe name).under name = [] := by
  simp [under, unsubscribe, List.filter_filter]

theorem under_subscribe_self (p : Part) : (n.subscribe name p).Has name p .new := by
  have hnone := n.under_unsubscribe_self name
  unfold under at hnone
  unfold Has under subscribe
  rw [List.filter_append, hnone]
  simp

theorem under_subscribe (p : Part) (h : other ≠ name) :
    (n.subscribe other p).under name = n.under name := by
  have hsame := n.under_unsubscribe name other h
  unfold under at hsame
  unfold under subscribe
  rw [List.filter_append, hsame]
  simp [h]

theorem delivering_under (changes : (p : Part) → List (Change p.Value)) :
    (n.delivering changes).under name = (n.under name).map fun s =>
      { s with queue := s.queue.pushAll (changes s.part) } := by
  simp only [under, delivering, List.filter_map]
  rfl

theorem Has.delivering {n : Notifier} {name : String} {p : Part}
    {q : Subscription (Change p.Value)} (h : n.Has name p q)
    (changes : (p : Part) → List (Change p.Value)) :
    (n.delivering changes).Has name p (q.pushAll (changes p)) := by
  rw [Has, delivering_under, h]
  rfl

theorem Has.find {n : Notifier} {name : String} {p : Part} {q : Subscription (Change p.Value)}
    (h : n.Has name p q) : n.subscribers.find? (fun s => s.name = name) = some ⟨name, p, q⟩ := by
  rw [← List.head?_filter]
  exact congrArg List.head? h

theorem Has.receive {n : Notifier} {name : String} {p : Part} {q : Subscription (Change p.Value)}
    (h : n.Has name p q) : (n.receive name).1 = some ⟨p, q.receive.1⟩ ∧
      (n.receive name).2.Has name p q.receive.2 := by
  unfold Notifier.receive
  rw [h.find]
  refine ⟨rfl,?_⟩
  unfold Has under at h ⊢
  have hnames : ∀ s : Subscriber, (if s.name = name then
      (⟨name, p, q.receive.2⟩ : Subscriber) else s).name = s.name := by
    intro s
    by_cases hs : s.name = name
    · simp [hs]
    · simp [hs]
  simp only [List.filter_map, Function.comp_def, hnames, h]
  simp

theorem receive_under (h : other ≠ name) : (n.receive other).2.under name = n.under name := by
  unfold Notifier.receive
  cases hfind : n.subscribers.find? fun s => s.name = other with
  | none => rfl
  | some found =>
    have hname : found.name = other := by simpa using List.find?_some hfind
    obtain ⟨foundName, p, q⟩ := found
    subst hname
    simp only [under, List.filter_map]
    have hkeep : ∀ s : Subscriber, s.name = name →
        (if s.name = foundName then (⟨foundName, p, q.receive.2⟩ : Subscriber) else s) = s := by
      intro s hs
      rw [if_neg (by rw [hs]; exact Ne.symm h)]
    have hfilter : n.subscribers.filter ((fun s => decide (s.name = name)) ∘ fun s =>
        if s.name = foundName then (⟨foundName, p, q.receive.2⟩ : Subscriber) else s) =
        n.subscribers.filter fun s => s.name = name := by
      apply List.filter_congr
      intro s _
      by_cases hs : s.name = foundName
      · simp [hs]
      · simp [hs]
    rw [hfilter]
    refine (List.map_congr_left fun s hs => hkeep s ?_).trans (List.map_id _)
    simpa using (List.mem_filter.mp hs).2

end Notifier
end VmFleet.Config
