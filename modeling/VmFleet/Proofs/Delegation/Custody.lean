import VmFleet.Proofs.Delegation.Deals

/-!
# Who holds a request

A request that is still open is in one mailbox, or in the hands of one who has taken it; only those who
hold a request reply to it or let go of it. So whoever has taken one may count on its slot to be empty
until they fill it.
-/

set_option autoImplicit false

namespace VmFleet.Delegation

/-- When one member of a list is changed, what is counted in the others remains. -/
theorem count_modify {α : Type} (g : α → List Nat) (f : α → α) (t : Nat) (l : List α) (n : Nat) (a : α)
    (hn : l[n]? = some a) :
    ((l.modify n f).flatMap g).count t + (g a).count t = (l.flatMap g).count t + (g (f a)).count t := by
  induction l generalizing n with
  | nil => cases hn
  | cons b l ih =>
    cases n with
    | zero =>
      cases hn
      simp only [List.modify_zero_cons, List.flatMap_cons, List.count_append]
      omega
    | succ n =>
      have hrest := ih n hn
      simp only [List.modify_succ_cons, List.flatMap_cons, List.count_append]
      omega

def Mailbox.tickets (m : Mailbox) : List Nat := m.untaken.map Request.ticket

namespace Mailbox

variable (m : Mailbox) (t : Nat)

theorem count_accept (r : Request) :
    (m.accept r).tickets.count t = m.tickets.count t + [r.ticket].count t := by
  unfold accept tickets untaken
  dsimp only
  split
  · simp only [List.map_append, List.count_append, List.map_singleton]
    omega
  · simp only [List.map_append, List.count_append, List.map_singleton]
    omega

theorem count_take (n : Mailbox) (r : Request) (h : m.take = some (r, n)) :
    m.tickets.count t = n.tickets.count t + [r.ticket].count t := by
  rw [tickets, untaken_take m n r h, List.map_cons, ← List.singleton_append, List.count_append,
    Nat.add_comm]
  rfl

theorem count_enter (ticket : Nat) : (m.enter ticket).tickets.count t = m.tickets.count t := by
  have hperm := List.filter_append_perm (fun r : Request => r.ticket = ticket) m.admitted
  have hcount := (hperm.map Request.ticket).count_eq t
  simp only [List.map_append, List.count_append, ← decide_not] at hcount
  simp only [enter, tickets, untaken, List.map_append, List.count_append, ne_eq]
  omega

end Mailbox

namespace Exchange

/-- The tickets of all requests that nobody has taken. -/
def queued (x : Exchange) : List Nat := x.mailboxes.flatMap Mailbox.tickets

/-- Every request that is in a mailbox or in these hands is open, and is nowhere else. -/
structure Custody (x : Exchange) (hands : List Nat) : Prop where
  once : ∀ t, x.queued.count t + hands.count t ≤ 1
  pending : ∀ t, 0 < x.queued.count t + hands.count t → x.slots[t]? = some .pending

variable {x y : Exchange} {hands hands' : List Nat}

theorem empty_custody : empty.Custody [] :=
  ⟨fun _ => Nat.zero_le _,fun _ h => absurd h (Nat.not_lt_zero _)⟩

theorem Custody.hands_pending (h : x.Custody hands) (t : Nat) (ht : t ∈ hands) :
    x.slots[t]? = some .pending :=
  h.pending t (Nat.add_pos_right _ (List.count_pos_iff.mpr ht))

/-- Requests may go from one to another or be dropped, as long as none is made up and no slot filled. -/
theorem Custody.lapse (h : x.Custody hands)
    (hcount : ∀ t, y.queued.count t + hands'.count t ≤ x.queued.count t + hands.count t)
    (hslots : ∀ t, 0 < y.queued.count t + hands'.count t → y.slots[t]? = x.slots[t]?) :
    y.Custody hands' := by
  refine ⟨fun t => Nat.le_trans (hcount t) (h.once t),?_⟩
  intro t ht
  rw [hslots t ht]
  exact h.pending t (Nat.lt_of_lt_of_le ht (hcount t))

/-- It does not matter in which order one holds requests. -/
theorem Custody.of_count (h : x.Custody hands) (hcount : ∀ t, hands'.count t = hands.count t) :
    x.Custody hands' := by
  apply h.lapse
  · intro t
    exact Nat.le_of_eq (by rw [hcount])
  · intro t _
    rfl

/-- All mailboxes but one remain as they are. -/
theorem count_onMailbox (x : Exchange) (n t : Nat) (f : Mailbox → Mailbox) (m : Mailbox)
    (hn : x.mailboxes[n]? = some m) :
    (x.onMailbox n f).queued.count t + m.tickets.count t =
      x.queued.count t + (f m).tickets.count t :=
  count_modify Mailbox.tickets f t x.mailboxes n m hn

theorem onMailbox_of_none (x : Exchange) (n : Nat) (f : Mailbox → Mailbox)
    (hn : x.mailboxes[n]? = none) : x.onMailbox n f = x := by
  rw [onMailbox, List.modify_eq_self (List.getElem?_eq_none_iff.mp hn)]

theorem mailbox_of_getElem (x : Exchange) (n : Nat) (m : Mailbox) (hn : x.mailboxes[n]? = some m) :
    x.mailbox n = m := by
  rw [mailbox, List.getD_eq_getElem?_getD, hn, Option.getD_some]

/-- A mailbox in which the same requests remain. -/
theorem Custody.onMailbox (h : x.Custody hands) (n : Nat) (f : Mailbox → Mailbox)
    (hf : ∀ m t, (f m).tickets.count t = m.tickets.count t) : (x.onMailbox n f).Custody hands := by
  cases hn : x.mailboxes[n]? with
  | none =>
    rw [onMailbox_of_none x n f hn]
    exact h
  | some m =>
    apply h.lapse
    · intro t
      have hcount := count_onMailbox x n t f m hn
      rw [hf] at hcount
      omega
    · intro t _
      rfl

/-! ## What happens to requests -/

theorem register_custody (h : x.Custody hands) (channel : String) :
    (x.register channel).2.Custody hands := by
  have hqueued : (x.register channel).2.queued = x.queued := by
    change (x.mailboxes ++ [Mailbox.empty]).flatMap Mailbox.tickets = x.queued
    rw [List.flatMap_append]
    exact List.append_nil _
  apply h.lapse
  · intro t
    exact Nat.le_of_eq (by rw [hqueued])
  · intro t _
    rfl

theorem unregister_custody (h : x.Custody hands) (channel : String) :
    (x.unregister channel).Custody hands := ⟨h.once,h.pending⟩

/-- What is sent, if anything, goes to a mailbox under a new ticket. -/
theorem send_cases (x : Exchange) (channel : String) (payload : Json) :
    (x.send channel payload).2 = x ∨ ∃ number m, x.mailboxes[number]? = some m ∧
      (x.send channel payload).2 =
        { x.onMailbox number fun m => m.accept ⟨x.slots.length,⟨channel,payload⟩⟩ with
          slots := x.slots ++ [.pending] } := by
  unfold send
  split
  · exact Or.inl rfl
  · rename_i number _
    split
    · exact Or.inl rfl
    · rename_i hopen
      cases hn : x.mailboxes[number]? with
      | none =>
        rw [mailbox, List.getD_eq_getElem?_getD, hn] at hopen
        exact absurd rfl hopen
      | some m => exact Or.inr ⟨number,m,hn,rfl⟩

theorem send_custody (h : x.Custody hands) (channel : String) (payload : Json) :
    (x.send channel payload).2.Custody hands := by
  rcases send_cases x channel payload with hsend | ⟨number, m, hn, hsend⟩
  · rw [hsend]
    exact h
  · rw [hsend]
    -- the slots of all others are there already
    have hnew : x.queued.count x.slots.length + hands.count x.slots.length = 0 := by
      apply Nat.eq_zero_of_not_pos
      intro hheld
      have hopen := h.pending x.slots.length hheld
      exact Nat.lt_irrefl _ (List.getElem?_eq_some_iff.mp hopen).1
    have hcount : ∀ t, (x.onMailbox number fun m =>
        m.accept ⟨x.slots.length,⟨channel,payload⟩⟩).queued.count t =
          x.queued.count t + [x.slots.length].count t := by
      intro t
      have hone := count_onMailbox x number t (fun m => m.accept ⟨x.slots.length,⟨channel,payload⟩⟩) m hn
      rw [Mailbox.count_accept] at hone
      change _ = _ + (_ + [x.slots.length].count t) at hone
      omega
    constructor
    · intro t
      have honce := h.once t
      refine Nat.le_trans (Nat.le_of_eq (congrArg (· + hands.count t) (hcount t))) ?_
      by_cases ht : t = x.slots.length
      · subst ht
        rw [List.count_singleton_self]
        omega
      · rw [List.count_singleton, if_neg (by simpa using Ne.symm ht)]
        exact honce
    · intro t ht
      have hheld := Nat.lt_of_lt_of_eq ht (congrArg (· + hands.count t) (hcount t))
      by_cases heq : t = x.slots.length
      · rw [heq]
        exact List.getElem?_concat_length
      · rw [List.count_singleton, if_neg (by simpa using Ne.symm heq)] at hheld
        have hopen := h.pending t hheld
        exact (List.getElem?_append_left (List.getElem?_eq_some_iff.mp hopen).1).trans hopen

theorem enter_custody (h : x.Custody hands) (p : Pending) : (x.enter p).Custody hands :=
  h.onMailbox p.number _ fun m t => m.count_enter t p.ticket

theorem finish_custody (h : x.Custody hands) (p : Pending) : (x.finish p).Custody hands :=
  h.onMailbox p.number _ fun _ _ => rfl

theorem take_custody (h : x.Custody hands) (n : Nat) (r : Request)
    (htake : x.take n = (.request r, y)) : y.Custody (r.ticket :: hands) := by
  unfold take at htake
  split at htake
  · rename_i q m hm
    cases htake
    cases hn : x.mailboxes[n]? with
    | none =>
      rw [mailbox, List.getD_eq_getElem?_getD, hn] at hm
      cases hm
    | some k =>
      rw [mailbox_of_getElem x n k hn] at hm
      apply h.lapse
      · intro t
        have hcount := count_onMailbox x n t (fun _ => m) k hn
        rw [Mailbox.count_take k t m r hm] at hcount
        rw [← List.singleton_append, List.count_append]
        omega
      · intro t _
        rfl
  · split at htake <;> cases htake

theorem settle_slot_of_ne (x : Exchange) (t s : Nat) (outcome : Slot) (hne : t ≠ s) :
    (x.settle t outcome).slots[s]? = x.slots[s]? := by
  rw [settle, List.getElem?_modify]
  simp [hne]

/-- Whoever holds a request fills its slot, and has it no longer. -/
theorem settle_custody (h : x.Custody hands) (t : Nat) (ht : t ∈ hands) (outcome : Slot) :
    (x.settle t outcome).Custody (hands.erase t) := by
  have hheld : 0 < hands.count t := List.count_pos_iff.mpr ht
  have honce := h.once t
  apply h.lapse
  · intro s
    exact Nat.add_le_add_left (List.erase_sublist.count_le s) _
  · intro s hs
    apply settle_slot_of_ne
    rintro rfl
    change 0 < x.queued.count t + _ at hs
    rw [List.count_erase_self] at hs
    omega

theorem settle_slot (h : x.Custody hands) (t : Nat) (ht : t ∈ hands) (outcome : Slot) :
    (x.settle t outcome).slots[t]? = some outcome := by
  rw [settle, List.getElem?_modify, h.hands_pending t ht]
  simp

theorem loseAll_slot (tickets : List Nat) (x : Exchange) (t : Nat) (ht : t ∉ tickets) :
    (x.loseAll tickets).slots[t]? = x.slots[t]? := by
  induction tickets generalizing x with
  | nil => rfl
  | cons ticket tickets ih =>
    obtain ⟨hne, hrest⟩ := List.ne_and_not_mem_of_not_mem_cons ht
    exact (ih (x.lose ticket) hrest).trans (settle_slot_of_ne x ticket t .lost (Ne.symm hne))

theorem loseAll_queued (tickets : List Nat) (x : Exchange) :
    (x.loseAll tickets).queued = x.queued := by
  induction tickets generalizing x with
  | nil => rfl
  | cons ticket tickets ih => exact ih (x.lose ticket)

theorem close_custody (h : x.Custody hands) (n : Nat) : (x.close n).Custody hands := by
  cases hn : x.mailboxes[n]? with
  | none =>
    have hnone : (x.mailbox n).untaken = [] := by
      rw [mailbox, List.getD_eq_getElem?_getD, hn]
      rfl
    rw [close, hnone, onMailbox_of_none x n _ hn]
    exact h
  | some m =>
    have hcount : ∀ t, (x.close n).queued.count t + m.tickets.count t = x.queued.count t := by
      intro t
      rw [close, loseAll_queued]
      exact count_onMailbox x n t Mailbox.close m hn
    apply h.lapse
    · intro t
      have hone := hcount t
      omega
    · intro t ht
      have hone := hcount t
      have honce := h.once t
      have hnot : t ∉ m.tickets := by
        intro hmem
        have hpos : 0 < m.tickets.count t := List.count_pos_iff.mpr hmem
        omega
      rw [close, mailbox_of_getElem x n m hn]
      exact loseAll_slot m.tickets _ t hnot

/-! ## What others do -/

/-- What may be done by others, who hold these requests, and to whom all mailboxes belong but these. -/
inductive Others (ours : List Nat) (x : Exchange) (hands : List Nat) : Exchange → List Nat → Prop
  | register (channel : String) : Others ours x hands (x.register channel).2 hands
  | unregister (channel : String) : Others ours x hands (x.unregister channel) hands
  | send (channel : String) (payload : Json) : Others ours x hands (x.send channel payload).2 hands
  | enter (p : Pending) : Others ours x hands (x.enter p) hands
  | finish (p : Pending) : Others ours x hands (x.finish p) hands
  | take (y : Exchange) (n : Nat) (r : Request) (hn : n ∉ ours) (h : x.take n = (.request r, y)) :
      Others ours x hands y (r.ticket :: hands)
  | reply (t : Nat) (r : Reply) (ht : t ∈ hands) : Others ours x hands (x.reply t r) (hands.erase t)
  | lose (t : Nat) (ht : t ∈ hands) : Others ours x hands (x.lose t) (hands.erase t)
  | close (n : Nat) (hn : n ∉ ours) : Others ours x hands (x.close n) hands

variable {ours : List Nat}

theorem others_deals (h : Others ours x hands y hands') : x.Deals y := by
  cases h with
  | register channel => exact .single (.register x channel)
  | unregister channel => exact .single (.unregister x channel)
  | send channel payload => exact .single (.send x channel payload)
  | enter p => exact .single (.enter x p)
  | finish p => exact .single (.finish x p)
  | take y n r hn h => exact take_deals x y n _ h
  | reply t r ht => exact .single (.reply x t r)
  | lose t ht => exact .single (.lose x t)
  | close n hn => exact .single (.close x n)

/-- Whatever others do with requests of their own, it does not touch those that somebody else holds. -/
theorem others_custody (h : Others ours x hands y hands') (held : List Nat)
    (hc : x.Custody (hands ++ held)) : y.Custody (hands' ++ held) := by
  cases h with
  | register channel => exact register_custody hc channel
  | unregister channel => exact unregister_custody hc channel
  | send channel payload => exact send_custody hc channel payload
  | enter p => exact enter_custody hc p
  | finish p => exact finish_custody hc p
  | take y n r hn h => exact take_custody hc n r h
  | reply t r ht =>
    rw [← List.erase_append_left _ ht]
    exact settle_custody hc t (List.mem_append_left _ ht) _
  | lose t ht =>
    rw [← List.erase_append_left _ ht]
    exact settle_custody hc t (List.mem_append_left _ ht) _
  | close n hn => exact close_custody hc n

end Exchange
end VmFleet.Delegation
