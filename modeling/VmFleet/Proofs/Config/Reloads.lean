import VmFleet.Config.Watcher

/-!
# What reloads announce

Over any number of reloads, of files good and bad, the watcher's settings are those of the last good
file. For each part of the settings the announced changes are a chain that leads from the value in the
beginning to the value in force: each change starts from where the one before it ended. A path that is
only written in another way is the same value, and nothing is announced of it.
-/

set_option autoImplicit false

namespace VmFleet.Config

/-- Changes that lead from one value to another, step by step, and none of them on the spot. -/
def Chain {α : Type} (same : α → α → Prop) : α → List (Change α) → α → Prop
  | first, [], last => same first last
  | first, c :: rest, last => ∃ old next, c = ⟨some old, some next⟩ ∧ same first old ∧
    ¬ same old next ∧ Chain same next rest last

theorem chain_append {α : Type} {same : α → α → Prop} (hs : Equivalence same) (first last : α)
    (cs rest : List (Change α)) : Chain same first (cs ++ rest) last ↔
      ∃ mid, Chain same first cs mid ∧ Chain same mid rest last := by
  induction cs generalizing first with
  | nil =>
    constructor
    · intro hrest
      exact ⟨first,hs.refl first,hrest⟩
    · rintro ⟨mid, hmid, hrest⟩
      cases rest with
      | nil => exact hs.trans hmid hrest
      | cons c rest =>
        obtain ⟨old, next, hc, hold, hchain⟩ := hrest
        exact ⟨old,next,hc,hs.trans hmid hold,hchain⟩
  | cons c cs ih =>
    simp only [List.cons_append, Chain, ih]
    constructor
    · rintro ⟨old, next, hc, hold, hne, mid, hcs, hrest⟩
      exact ⟨mid,⟨old,next,hc,hold,hne,hcs⟩,hrest⟩
    · rintro ⟨mid, ⟨old, next, hc, hold, hne, hcs⟩, hrest⟩
      exact ⟨old,next,hc,hold,hne,mid,hcs,hrest⟩

theorem chain_changeOf (s next : Settings) (p : Part) :
    Chain p.Same (s.part p) (changeOf (some s) next p).toList (next.part p) := by
  have hs := p.same_equivalence
  by_cases h : p.Same (s.part p) (next.part p)
  · rw [changeOf_same s next p h]
    exact h
  · rw [changeOf_different s next p h]
    exact ⟨_,_,rfl,hs.refl _,h,hs.refl _⟩

/-- The changes of a part from settings to those that come after them, one after the other. -/
def changesAlong (p : Part) : Settings → List Settings → List (Change p.Value)
  | _, [] => []
  | s, next :: rest => (changeOf (some s) next p).toList ++ changesAlong p next rest

/-! ## What is announced reaches the subscribers -/

namespace Notifier

/-- Every subscriber of a part gets the changes of that part. -/
def delivering (n : Notifier) (changes : (p : Part) → List (Change p.Value)) : Notifier :=
  ⟨n.subscribers.map fun s => { s with queue := s.queue.pushAll (changes s.part) }⟩

theorem delivering_append (n : Notifier) (cs ds : (p : Part) → List (Change p.Value)) :
    (n.delivering cs).delivering ds = n.delivering fun p => cs p ++ ds p := by
  simp [delivering, Subscription.pushAll_append]

theorem delivering_nil (n : Notifier) : (n.delivering fun _ => []) = n := by
  simp [delivering, Subscription.pushAll]

theorem announcePart_eq (previous : Option Settings) (current : Settings)
    (r : List Part × Notifier) (p : Part) :
    announcePart previous current r p =
      (r.1 ++ [p].filter fun p => (changeOf previous current p).isSome,
        r.2.delivering fun q => if q = p then (changeOf previous current q).toList else []) := by
  unfold announcePart
  cases hc : changeOf previous current p with
  | none =>
    have hnone : (fun q : Part => if q = p then (changeOf previous current q).toList else []) =
        fun _ => [] := by
      funext q
      by_cases hq : q = p
      · subst hq
        simp [hc]
      · simp [hq]
    rw [hnone, delivering_nil]
    simp [hc]
  | some c =>
    have hdeliver : r.2.announce p c = r.2.delivering fun q =>
        if q = p then (changeOf previous current q).toList else [] := by
      unfold announce delivering
      congr 1
      apply List.map_congr_left
      intro s _
      obtain ⟨name, q, queue⟩ := s
      by_cases hq : q = p
      · subst hq
        simp [hc, Subscription.pushAll]
      · simp [hq, Subscription.pushAll]
    simp [hc, hdeliver]

theorem announceParts_eq (previous : Option Settings) (current : Settings) (ps : List Part)
    (hps : ps.Nodup) (r : List Part × Notifier) :
    ps.foldl (announcePart previous current) r =
      (r.1 ++ ps.filter fun p => (changeOf previous current p).isSome,
        r.2.delivering fun q => if q ∈ ps then (changeOf previous current q).toList else []) := by
  induction ps generalizing r with
  | nil => simp [delivering_nil]
  | cons p ps ih =>
    obtain ⟨hnotin, hps⟩ := List.nodup_cons.mp hps
    rw [List.foldl_cons, ih hps, announcePart_eq, delivering_append]
    congr 1
    · rw [List.append_assoc, ← List.filter_append, List.singleton_append]
    · congr 1
      funext q
      by_cases hq : q = p
      · subst hq
        simp [hnotin]
      · simp [hq]

theorem publish_eq (n : Notifier) (previous : Option Settings) (current : Settings) :
    n.publish previous current = (Part.all.filter fun p => (changeOf previous current p).isSome,
      n.delivering fun p => (changeOf previous current p).toList) := by
  rw [publish, announceParts_eq previous current Part.all (by decide) ([], n)]
  simp [Part.mem_all]

end Notifier

/-! ## One reload -/

namespace Watcher

/-- The change of a part that a reload announces, if it announces one. -/
def announced? (w : Watcher) (disk : Disk) (p : Part) : Option (Change p.Value) :=
  match load disk w.flags (some w.path) with
  | .error _ => none
  | .ok next => changeOf (some w.current) next p

variable (w : Watcher) (disk : Disk) (n : Notifier)

theorem refresh_error (e : ConfigError) (h : load disk w.flags (some w.path) = .error e) :
    w.refresh disk n = (w, n) ∧ ∀ p, w.announced? disk p = none := by
  simp [refresh, reload, announced?, h]

theorem refresh_ok (next : Settings) (h : load disk w.flags (some w.path) = .ok next) :
    w.refresh disk n = ({ w with current := next },
        n.delivering fun p => (changeOf (some w.current) next p).toList) ∧
      ∀ p, w.announced? disk p = changeOf (some w.current) next p := by
  simp [refresh, reload, announced?, h, Notifier.publish_eq]

theorem refresh_delivers :
    (w.refresh disk n).2 = n.delivering fun p => (w.announced? disk p).toList := by
  cases h : load disk w.flags (some w.path) with
  | error e =>
    obtain ⟨hsame, hnone⟩ := w.refresh_error disk n e h
    simp [hsame, hnone, Notifier.delivering_nil]
  | ok next =>
    obtain ⟨hnext, hchanges⟩ := w.refresh_ok disk n next h
    simp [hnext, hchanges]

theorem refresh_chain (p : Part) :
    Chain p.Same (w.current.part p) (w.announced? disk p).toList
      ((w.refresh disk n).1.current.part p) := by
  cases h : load disk w.flags (some w.path) with
  | error e =>
    obtain ⟨hsame, hnone⟩ := w.refresh_error disk n e h
    rw [hsame, hnone]
    exact p.same_equivalence.refl _
  | ok next =>
    obtain ⟨hnext, hchanges⟩ := w.refresh_ok disk n next h
    rw [hnext, hchanges]
    exact chain_changeOf w.current next p

theorem refresh_source :
    (w.refresh disk n).1.flags = w.flags ∧ (w.refresh disk n).1.path = w.path := by
  cases h : load disk w.flags (some w.path) with
  | error e => simp [w.refresh_error disk n e h]
  | ok next => simp [w.refresh_ok disk n next h]

/-- The topics that a reload is told to have announced are those it has announced. -/
theorem reload_topics (parts : List Part) (r : Watcher × Notifier)
    (h : w.reload disk n = .ok (parts, r)) (p : Part) :
    p ∈ parts ↔ (w.announced? disk p).isSome = true := by
  unfold reload at h
  cases hl : load disk w.flags (some w.path) with
  | error e => simp [hl] at h
  | ok next =>
    simp only [hl, Notifier.publish_eq, Except.ok.injEq, Prod.mk.injEq] at h
    simp [← h.1, announced?, hl, Part.mem_all]

end Watcher

/-! ## Any number of reloads -/

/-- A watcher and whom it announces to, after reloads of these files one after the other. -/
def Watcher.after (r : Watcher × Notifier) (disks : List Disk) : Watcher × Notifier :=
  disks.foldl (fun r disk => r.1.refresh disk r.2) r

def Watcher.published (p : Part) (r : Watcher × Notifier) : List Disk → List (Change p.Value)
  | [] => []
  | disk :: disks =>
    (r.1.announced? disk p).toList ++ Watcher.published p (r.1.refresh disk r.2) disks

/-- What the files say that can be read, parsed and resolved, in order. -/
def good (flags : Flags) (path : String) (disks : List Disk) : List Settings :=
  disks.filterMap fun disk => (load disk flags (some path)).toOption

theorem current_after (r : Watcher × Notifier) (disks : List Disk) :
    (Watcher.after r disks).1.current =
      ((good r.1.flags r.1.path disks).getLast?).getD r.1.current := by
  induction disks generalizing r with
  | nil => rfl
  | cons disk disks ih =>
    obtain ⟨hflags, hpath⟩ := r.1.refresh_source disk r.2
    have hrest := ih (r.1.refresh disk r.2)
    rw [hflags, hpath] at hrest
    refine hrest.trans ?_
    simp only [good, List.filterMap_cons]
    cases h : load disk r.1.flags (some r.1.path) with
    | error e => simp [Except.toOption, r.1.refresh_error disk r.2 e h]
    | ok next => simp [Except.toOption, r.1.refresh_ok disk r.2 next h, List.getLast?_cons]

theorem published_chain (p : Part) (r : Watcher × Notifier) (disks : List Disk) :
    Chain p.Same (r.1.current.part p) (Watcher.published p r disks)
      ((Watcher.after r disks).1.current.part p) := by
  induction disks generalizing r with
  | nil => exact p.same_equivalence.refl _
  | cons disk disks ih =>
    rw [Watcher.published, chain_append p.same_equivalence]
    exact ⟨_,r.1.refresh_chain disk r.2 p,ih (r.1.refresh disk r.2)⟩

/-- Only the good files count, each after the one before it. -/
theorem published_eq (p : Part) (r : Watcher × Notifier) (disks : List Disk) :
    Watcher.published p r disks =
      changesAlong p r.1.current (good r.1.flags r.1.path disks) := by
  induction disks generalizing r with
  | nil => rfl
  | cons disk disks ih =>
    obtain ⟨hflags, hpath⟩ := r.1.refresh_source disk r.2
    rw [Watcher.published, ih (r.1.refresh disk r.2), hflags, hpath]
    simp only [good, List.filterMap_cons]
    cases h : load disk r.1.flags (some r.1.path) with
    | error e =>
      obtain ⟨hsame, hnone⟩ := r.1.refresh_error disk r.2 e h
      rw [hsame, hnone p]
      rfl
    | ok next =>
      obtain ⟨hnext, hchanges⟩ := r.1.refresh_ok disk r.2 next h
      rw [hnext, hchanges p]
      rfl

theorem published_delivered (r : Watcher × Notifier) (disks : List Disk) :
    (Watcher.after r disks).2 = r.2.delivering fun p => Watcher.published p r disks := by
  induction disks generalizing r with
  | nil => exact (Notifier.delivering_nil r.2).symm
  | cons disk disks ih =>
    have hrest := ih (r.1.refresh disk r.2)
    rw [Watcher.refresh_delivers, Notifier.delivering_append] at hrest
    exact hrest

theorem published_concat (p : Part) (r : Watcher × Notifier) (disks : List Disk) (disk : Disk) :
    Watcher.published p r (disks ++ [disk]) =
      Watcher.published p r disks ++ ((Watcher.after r disks).1.announced? disk p).toList := by
  induction disks generalizing r with
  | nil => simp [Watcher.published, Watcher.after]
  | cons first disks ih =>
    rw [List.cons_append, Watcher.published, ih (r.1.refresh first r.2), Watcher.published,
      List.append_assoc]
    rfl

theorem after_concat (r : Watcher × Notifier) (disks : List Disk) (disk : Disk) :
    Watcher.after r (disks ++ [disk]) =
      (Watcher.after r disks).1.refresh disk (Watcher.after r disks).2 := by
  simp [Watcher.after]

/-- After reloads of any files the settings are those of the last file that was good, and the changes
announced for each part, which all its subscribers have got, lead from the settings in the beginning
to these. They are the changes from good file to good file, as they are written there. A further reload
that fails changes and announces nothing; any other announces the parts that it names. -/
theorem reloads_announce_chains (w : Watcher) (n : Notifier) (disks : List Disk) :
    let last := Watcher.after (w, n) disks
    last.1.current = ((good w.flags w.path disks).getLast?).getD w.current ∧
      (∀ p, Chain p.Same (w.current.part p) (Watcher.published p (w, n) disks)
        (last.1.current.part p)) ∧
      (∀ p, Watcher.published p (w, n) disks =
        changesAlong p w.current (good w.flags w.path disks)) ∧
      last.2.subscribers = n.subscribers.map (fun s =>
        { s with queue := s.queue.pushAll (Watcher.published s.part (w, n) disks) }) ∧
      (∀ disk e, last.1.reload disk last.2 = .error e →
        Watcher.after (w, n) (disks ++ [disk]) = last ∧
          ∀ p, Watcher.published p (w, n) (disks ++ [disk]) = Watcher.published p (w, n) disks) ∧
      ∀ disk parts r, last.1.reload disk last.2 = .ok (parts, r) →
        Watcher.after (w, n) (disks ++ [disk]) = r ∧
          ∀ p, p ∈ parts ↔
            Watcher.published p (w, n) (disks ++ [disk]) ≠ Watcher.published p (w, n) disks := by
  intro last
  have hdelivered := published_delivered (w, n) disks
  refine ⟨current_after (w, n) disks,fun p => published_chain p (w, n) disks,
    fun p => published_eq p (w, n) disks,congrArg Notifier.subscribers hdelivered,?_,?_⟩
  · intro disk e he
    have hload : load disk last.1.flags (some last.1.path) = .error e := by
      unfold Watcher.reload at he
      split at he
      · rename_i hl
        rw [hl]
        exact congrArg Except.error (Except.error.inj he)
      · cases he
    obtain ⟨hsame, hnone⟩ := last.1.refresh_error disk last.2 e hload
    refine ⟨(after_concat (w, n) disks disk).trans hsame,?_⟩
    intro p
    rw [published_concat, hnone p]
    simp
  · intro disk parts r hr
    refine ⟨?_,?_⟩
    · rw [after_concat]
      change last.1.refresh disk last.2 = r
      rw [Watcher.refresh, hr]
    · intro p
      rw [published_concat, last.1.reload_topics disk last.2 parts r hr p]
      cases last.1.announced? disk p with
      | none => simp
      | some c => simp

end VmFleet.Config
