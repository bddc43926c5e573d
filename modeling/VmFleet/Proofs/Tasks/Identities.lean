import VmFleet.Proofs.Tasks.Writebacks

/-!
# What replies leave of a machine

Tasks create machines, and in the background the worker is asked for each of them; whatever it replies
with may be stored in the place of the machine. It is put down which machines have been created, and
for each reply that was taken, which machine was asked for, what stood in its place, and what was put
there.
-/

set_option autoImplicit false

namespace VmFleet

/-- What a reply must agree in with the machine that was asked for. -/
def Machine.title (m : Machine) : String × String := (m.id, m.ownerId)

/-- All of a machine but how far it has come. -/
def Machine.identity (m : Machine) : String × Provider × String := (m.id, m.provider, m.ownerId)

theorem Machine.identity_eq_iff (m n : Machine) :
    m.identity = n.identity ↔ m.title = n.title ∧ m.provider = n.provider := by
  simp only [identity, title, Prod.mk.injEq]
  tauto

theorem Machine.eq_withStatus_iff (m n : Machine) : n = m.withStatus n.status ↔ n.identity = m.identity := by
  obtain ⟨id, provider, status, ownerId⟩ := m
  obtain ⟨id', provider', status', ownerId'⟩ := n
  simp [withStatus, identity]

namespace Tasks

open Security Store Delegation

/-- Programs that run a task, other than one that puts machines in a batch. -/
def RunsApart (q : Program Unit) : Prop :=
  ∃ t : Task, (∀ ms, t ≠ .bulkUpdateVms ms) ∧
    ((∃ p, q = (t.submitTrusted p).run.forget) ∨ ∃ id, q = (t.submit id).run.forget)

/-- Somebody at work: for a task, or to provision the machine that was asked for. -/
structure Labour where
  asked : Option Machine
  rest : Program Unit

/-- A reply that was taken. -/
structure Landing where
  asked : Machine
  before : Option Machine
  put : Machine
  deriving DecidableEq, Repr

/-- The reply names the provider of the machine that was asked for. -/
def Landing.IsFaithful (k : Landing) : Prop := k.put.provider = k.asked.provider

/-- Of what stood there, nothing but the status has changed. -/
def Landing.KeepsRest (k : Landing) : Prop :=
  ∃ b, k.before = some b ∧ k.put = b.withStatus k.put.status

structure Yard where
  records : Records
  labours : List Labour
  /-- All machines that have been created, as they were then. -/
  created : List Machine
  landings : List Landing

namespace Yard

/-- One of those at work has been answered. -/
def went (f : Yard) (before after : List Labour) (asked : Option Machine) (e : Effect)
    (answer : e.Answer) (rest : Program Unit) (records : Records) (started : List Machine) : Yard :=
  { records
    labours := before ++ ⟨asked,rest⟩ :: (after ++ started.map fun m => ⟨some m,provisioning m⟩)
    created := if asked.isNone then f.created ++ stores e answer else f.created
    landings := f.landings ++ asked.toList.flatMap fun m =>
      (stores e answer).map fun w => ⟨m,standing f.records w.id,w⟩ }

inductive Step : Yard → Yard → Prop
  | begin (f : Yard) (q : Program Unit) (hq : RunsApart q) :
      Step f { f with labours := ⟨none,q⟩ :: f.labours }
  | go (f : Yard) (before after : List Labour) (asked : Option Machine) (e : Effect)
      (next : e.Answer → Program Unit) (answer : e.Answer) (r' : Records) (started : List Machine)
      (hf : f.labours = before ++ ⟨asked,.perform e next⟩ :: after)
      (hreply : Reply f.records e answer r' started) :
      Step f (f.went before after asked e answer (next answer) r' started)

def Run : Yard → Yard → Prop := Relation.ReflTransGen Step

/-- Nobody is at work yet, and these machines are stored. -/
def quiet (r : Records) (ms : List Machine) : Yard := ⟨r,[],ms,[]⟩

/-- Of every machine that has been created the reply that was taken for it last, or else the machine. -/
def settled (f : Yard) : List Machine :=
  f.created.map fun m => (Memory.last? m.id (f.landings.map Landing.put)).getD m

/-- The machines that are stored are those that have been created, at most their status aside. -/
def Kept (f : Yard) : Prop :=
  ∃ ms, f.records.machines.repository.records = .ok ms ∧
    ms.map Machine.identity = f.created.map Machine.identity

/-! ## Yards as crowds -/

def crowd (f : Yard) : Crowd := ⟨f.records,f.labours.map Labour.rest⟩

variable {f f' : Yard} {ms : List Machine}

/-- A yard is a crowd that runs tasks other than batches. -/
theorem step_crowd (hs : Step f f') : Crowd.Step RunsApart f.crowd f'.crowd := by
  cases hs with
  | begin q hq => exact .start _ _ hq
  | go before after asked e next answer r' started hf hreply =>
    have hgo : Crowd.Step RunsApart _ _ := .go (before.map Labour.rest) (after.map Labour.rest) e next
      answer f.records r' started hreply
    simpa [crowd, went, hf, Function.comp_def] using hgo

/-- Whatever a crowd does, it can be told who was at work for what. -/
theorem crowd_step (c : Crowd) (hs : Crowd.Step RunsApart f.crowd c) : ∃ f', Step f f' ∧ f'.crowd = c := by
  generalize hc : f.crowd = d at hs
  cases hs with
  | start _ q hq =>
    cases hc
    exact ⟨_,.begin f q hq,rfl⟩
  | go before after e next answer r r' started hreply =>
    obtain ⟨hrecords, hrunning⟩ := Crowd.mk.inj hc
    obtain ⟨first, rest, hlabours, rfl, hrest⟩ := List.map_eq_append_iff.mp hrunning
    obtain ⟨h, last, rfl, hrest, rfl⟩ := List.map_eq_cons_iff.mp hrest
    obtain ⟨asked, program⟩ := h
    cases hrest
    cases hrecords
    refine ⟨_,.go f first last asked e next answer r' started hlabours hreply,?_⟩
    simp [crowd, went, Function.comp_def]

theorem crowd_run (c : Crowd) (hrun : Crowd.Run RunsApart f.crowd c) : ∃ f', Run f f' ∧ f'.crowd = c := by
  induction hrun with
  | refl => exact ⟨f,.refl,rfl⟩
  | tail _ hs ih =>
    obtain ⟨g, hg, rfl⟩ := ih
    obtain ⟨f', hf', hc⟩ := crowd_step _ hs
    exact ⟨f',hg.tail hf',hc⟩

/-! ## What those at work ask for -/

/-- The terms of somebody at work for a task, when the machines created are among these. -/
def creating (created : List Machine) : Terms where
  allows
    | .machines .getAll => True
    | .machines (.get _) => True
    | .machines (.add _ ensureUnique) => ensureUnique = true
    | .machines _ => False
    | .provision m => m ∈ created
    | _ => True
  grants
    | .machines (.add _ _), answer => ∀ m, answer = .ok m → m ∈ created
    | _, _ => True

/-- The terms of provisioning. -/
def settling (asked : Machine) : Terms where
  allows
    | .machines (.put w) => w.title = asked.title
    | .machines _ => False
    | .provision _ => False
    | _ => True
  grants _ _ := True

theorem provisioning_settling (m : Machine) : (provisioning m).Within (settling m) := by
  apply provisioning_within
  · intro channel payload
    trivial
  · intro event
    trivial
  · intro reply hid howner
    exact Prod.ext hid howner

theorem createVm_creating (created : List Machine) (p : Principal) (provider : Provider) :
    (createVm p provider).run.Within (creating created) := by
  apply Attempt.within_authorize
  intro _
  apply Attempt.within_bind
  · exact checkOwner_within p _ trivial
  · intro _
    apply Attempt.within_bind
    · exact freshId_within _ _ trivial
    · intro id
      apply Attempt.within_machines
      · rfl
      · intro stored hg
        exact Attempt.within_ask _ _ _ (hg stored rfl) fun _ _ => trivial

theorem execute_creating (created : List Machine) (t : Task) (p : Principal)
    (ht : ∀ ms, t ≠ .bulkUpdateVms ms) : (t.execute p).run.Within (creating created) := by
  apply execute_within_each
  · intro id firstName lastName _
    apply Attempt.within_authorize
    intro _
    exact Attempt.within_accounts _ _ _ trivial fun _ _ => ⟨trivial,fun _ _ => trivial⟩
  · intro provider _
    exact createVm_creating created p provider
  · intro ms hms
    exact absurd hms (ht ms)
  · intro call _
    trivial
  · intro call hread
    cases call with
    | getAll => trivial
    | get id => trivial
    | _ => cases hread
  · intro count
    trivial

theorem runsApart_creating (created : List Machine) (q : Program Unit) (hq : RunsApart q) :
    q.Within (creating created) := by
  have htrusted : ∀ (t : Task) (p : Principal), (∀ ms, t ≠ .bulkUpdateVms ms) →
      (t.submitTrusted p).run.Within (creating created) := fun t p ht =>
    submitTrusted_within _ t p (fun _ => trivial) (execute_creating created t p ht)
  obtain ⟨t, ht, ⟨p, rfl⟩ | ⟨id, rfl⟩⟩ := hq
  · exact Program.forget_within _ _ (htrusted t p ht)
  · apply Program.forget_within
    exact submit_within _ t id trivial fun a _ => htrusted t (.ofAccount a) ht

/-! ## What an answer does to the machines -/

theorem stores_error (call : Call Machine) (e : StoreError) : stores (.machines call) (.error e) = [] := by
  cases call with
  | add m ensureUnique => cases ensureUnique <;> rfl
  | _ => rfl

theorem error_granted (created : List Machine) (call : Call Machine) (e : StoreError) :
    (creating created).grants (.machines call) (.error e) := by
  cases call with
  | add m ensureUnique =>
    intro stored h
    cases h
  | _ => trivial

/-- Memory only adds what it says to have stored. -/
theorem run_creates (ms created : List Machine) (call : Call Machine)
    (he : (creating created).allows (.machines call)) :
    (Memory.run ms call).2 = ms ++ stores (.machines call) (Memory.run ms call).1 ∧
      ∀ more, (∀ m ∈ stores (.machines call) (Memory.run ms call).1, m ∈ more) →
        (creating more).grants (.machines call) (Memory.run ms call).1 := by
  cases call with
  | getAll => exact ⟨(List.append_nil ms).symm,fun _ _ => trivial⟩
  | get id => exact ⟨(List.append_nil ms).symm,fun _ _ => trivial⟩
  | add m ensureUnique =>
    cases he
    rcases Memory.add_cases ms m true with ⟨_, -, hadd⟩ | ⟨-, hadd⟩
    · simp only [Memory.run, hadd]
      exact ⟨(List.append_nil ms).symm,fun more _ => error_granted more _ _⟩
    · simp only [Memory.run, hadd]
      refine ⟨rfl,?_⟩
      intro more hmore stored hstored
      cases hstored
      exact hmore m (List.mem_singleton_self m)
  | _ => cases he

/-- Somebody at work for a task adds machines to those that are stored, and has nothing provisioned but
what has been added. -/
theorem reply_creates (r r' : Records) (e : Effect) (answer : e.Answer) (started : List Machine)
    (created : List Machine) (hms : r.machines.repository.Holds ms)
    (hreply : Reply r e answer r' started) (he : (creating created).allows e) :
    r'.machines.repository.Holds (ms ++ stores e answer) ∧
      (∀ more, (∀ m ∈ stores e answer, m ∈ more) → (creating more).grants e answer) ∧
      ∀ m ∈ started, m ∈ created := by
  have hstill : r.machines.repository.Holds (ms ++ []) := by rwa [List.append_nil]
  cases hreply with
  | machines call =>
    obtain ⟨hadded, hgranted⟩ := run_creates ms created call he
    rcases machines_held r call ms hms with ⟨⟨reason, hf⟩, h⟩ | ⟨hanswer, h⟩
    · rw [hf, stores_error, List.append_nil]
      exact ⟨h,fun more _ => error_granted more call _,by simp⟩
    · rw [hanswer, ← hadded]
      exact ⟨h,hgranted,by simp⟩
  | provision m =>
    refine ⟨hstill,fun _ _ => trivial,?_⟩
    intro n hn
    rw [List.mem_singleton.mp hn]
    exact he
  | _ => exact ⟨hstill,fun _ _ => trivial,by simp⟩

/-- Provisioning leaves the stored machines as they are, or puts one that agrees with the machine that
was asked for, and starts nothing. -/
theorem reply_settles (r r' : Records) (e : Effect) (answer : e.Answer) (started : List Machine)
    (asked : Machine) (hms : r.machines.repository.Holds ms)
    (hreply : Reply r e answer r' started) (he : (settling asked).allows e) :
    started = [] ∧ (stores e answer = [] ∧ r'.machines.repository.Holds ms ∨
      ∃ w, stores e answer = [w] ∧ w.title = asked.title ∧
        r'.machines.repository.Holds (Memory.place w ms)) := by
  cases hreply with
  | machines call =>
    refine ⟨rfl,?_⟩
    cases call with
    | put w =>
      rcases machines_held r (.put w) ms hms with ⟨⟨reason, hf⟩, h⟩ | ⟨hanswer, h⟩
      · rw [hf]
        exact Or.inl ⟨rfl,h⟩
      · rw [hanswer]
        rcases Memory.put_cases ms w with ⟨-, hput⟩ | ⟨-, hput⟩
        · simp only [Memory.run, hput] at h ⊢
          exact Or.inl ⟨rfl,h⟩
        · simp only [Memory.run, hput] at h ⊢
          exact Or.inr ⟨w,rfl,he,h⟩
    | _ => cases he
  | provision m => cases he
  | _ => exact ⟨rfl,Or.inl ⟨rfl,hms⟩⟩

end Yard

/-! ## What holds throughout -/

/-- The machine that was asked for has been created; the reply agrees with it, and so does what stood in
its place. -/
structure Landing.Matches (k : Landing) (created : List Machine) : Prop where
  asked : k.asked ∈ created
  put : k.put.title = k.asked.title
  before : ∃ b, k.before = some b ∧ b.title = k.asked.title

def Labour.Fine (h : Labour) (created : List Machine) : Prop :=
  match h.asked with
  | none => ∀ more, created ⊆ more → h.rest.Within (Yard.creating more)
  | some m => m ∈ created ∧ h.rest.Within (Yard.settling m)

theorem Labour.Fine.later {h : Labour} {created more : List Machine} (hf : h.Fine created)
    (hmore : created ⊆ more) : h.Fine more := by
  obtain ⟨_ | m, rest⟩ := h
  · exact fun others hothers => hf others (List.Subset.trans hmore hothers)
  · exact ⟨hmore hf.1,hf.2⟩

namespace Yard

structure Sane (f : Yard) : Prop where
  machines : f.records.machines.repository.Holds f.settled
  labours : ∀ h ∈ f.labours, h.Fine f.created
  landings : ∀ k ∈ f.landings, k.Matches f.created
  faithful : (∀ k ∈ f.landings, k.IsFaithful) ↔ ∀ k ∈ f.landings, k.KeepsRest

variable {f f' : Yard} {ms : List Machine}

theorem last_getD_id (m : Machine) (puts : List Machine) :
    ((Memory.last? m.id puts).getD m).id = m.id := by
  cases h : Memory.last? m.id puts with
  | none => rfl
  | some w => exact (Memory.last_eq_some m.id _ w h).2

theorem settled_ids (f : Yard) : f.settled.map Machine.id = f.created.map Machine.id := by
  rw [settled, List.map_map]
  exact List.map_congr_left fun m _ => last_getD_id m _

theorem quiet_sane (r : Records) (hms : r.machines.repository.Holds ms) : (quiet r ms).Sane := by
  have hsettled : (quiet r ms).settled = ms := List.map_id ms
  refine ⟨?_,by simp [quiet],by simp [quiet],by simp [quiet]⟩
  rw [hsettled]
  exact hms

theorem Sane.created_ids (h : f.Sane) : (f.created.map Machine.id).Nodup := by
  rw [← settled_ids]
  exact Repository.holds_nodup _ _ h.machines

/-- Nothing is put under an id but that of a machine that has been created. -/
theorem Sane.last_eq_none (h : f.Sane) (id : String) (hid : id ∉ f.created.map Machine.id) :
    Memory.last? id (f.landings.map Landing.put) = none := by
  cases hw : Memory.last? id (f.landings.map Landing.put) with
  | none => rfl
  | some w =>
    obtain ⟨hmem, rfl⟩ := Memory.last_eq_some id _ w hw
    obtain ⟨k, hk, rfl⟩ := List.mem_map.mp hmem
    obtain ⟨hasked, hput, -⟩ := h.landings k hk
    have hsame : k.asked.id = k.put.id := (congrArg Prod.fst hput).symm
    have hold : k.asked.id ∈ f.created.map Machine.id := List.mem_map_of_mem hasked
    rw [hsame] at hold
    exact absurd hold hid

/-- A reply that was taken for a machine with this id was taken for this machine. -/
theorem Sane.landed (h : f.Sane) (m : Machine) (hm : m ∈ f.created) (w : Machine)
    (hw : Memory.last? m.id (f.landings.map Landing.put) = some w) :
    ∃ k ∈ f.landings, k.asked = m ∧ k.put = w := by
  obtain ⟨hmem, hid⟩ := Memory.last_eq_some m.id _ w hw
  obtain ⟨k, hk, rfl⟩ := List.mem_map.mp hmem
  obtain ⟨hasked, hput, -⟩ := h.landings k hk
  have hsame : k.asked.id = m.id := (congrArg Prod.fst hput).symm.trans hid
  exact ⟨k,hk,List.inj_on_of_nodup_map h.created_ids hasked hm hsame,rfl⟩

theorem Sane.title (h : f.Sane) (m : Machine) (hm : m ∈ f.created) :
    ((Memory.last? m.id (f.landings.map Landing.put)).getD m).title = m.title := by
  cases hw : Memory.last? m.id (f.landings.map Landing.put) with
  | none => rfl
  | some w =>
    obtain ⟨k, hk, rfl, rfl⟩ := h.landed m hm w hw
    exact (h.landings k hk).put

theorem Sane.titles (h : f.Sane) : f.settled.map Machine.title = f.created.map Machine.title := by
  rw [settled, List.map_map]
  exact List.map_congr_left h.title

/-- Machines keep their identities exactly when the replies taken last are faithful. -/
theorem Sane.kept_iff (h : f.Sane) : f.Kept ↔ ∀ m ∈ f.created, ∀ w,
    Memory.last? m.id (f.landings.map Landing.put) = some w → w.identity = m.identity := by
  have hrecords := Repository.holds_records _ _ h.machines
  have hkept : f.Kept ↔ f.settled.map Machine.identity = f.created.map Machine.identity := by
    constructor
    · rintro ⟨ms, hms, hsame⟩
      cases hrecords.symm.trans hms
      exact hsame
    · exact fun hsame => ⟨_,hrecords,hsame⟩
  rw [hkept, settled, List.map_map, List.map_inj_left]
  apply forall₂_congr
  intro m _
  rw [Function.comp_apply]
  cases Memory.last? m.id (f.landings.map Landing.put) with
  | none => simp
  | some w => simp

/-- What stands under the id of a machine that was created. -/
theorem Sane.standing_eq (h : f.Sane) (m : Machine) (hm : m ∈ f.created) :
    standing f.records m.id = some ((Memory.last? m.id (f.landings.map Landing.put)).getD m) := by
  rw [Scene.standing_of_holds f.records h.machines]
  have hmem : (Memory.last? m.id (f.landings.map Landing.put)).getD m ∈ f.settled :=
    List.mem_map.mpr ⟨m,hm,rfl⟩
  have hfind := Memory.find_eq_of_mem f.settled (Repository.holds_nodup _ _ h.machines) _ hmem
  rwa [show Keyed.id _ = m.id from last_getD_id m _] at hfind

/-- While all replies that were taken are faithful, what stands there has the identity of the machine that
was created. -/
theorem Sane.identity (h : f.Sane) (hall : ∀ k ∈ f.landings, k.IsFaithful) (m : Machine)
    (hm : m ∈ f.created) :
    ((Memory.last? m.id (f.landings.map Landing.put)).getD m).identity = m.identity := by
  cases hw : Memory.last? m.id (f.landings.map Landing.put) with
  | none => rfl
  | some w =>
    obtain ⟨k, hk, rfl, rfl⟩ := h.landed m hm w hw
    exact (Machine.identity_eq_iff _ _).mpr ⟨(h.landings k hk).put,hall k hk⟩

section

variable (before after : List Labour) (asked : Option Machine) (e : Effect)
  (next : e.Answer → Program Unit) (answer : e.Answer) (r' : Records) (started : List Machine)

theorem Sane.later (hs : f.Sane) (hf : f.labours = before ++ ⟨asked,.perform e next⟩ :: after)
    (created : List Machine) (hcreated : f.created ⊆ created)
    (hnext : Labour.Fine ⟨asked,next answer⟩ created) (hstarted : ∀ m ∈ started, m ∈ created) :
    ∀ h ∈ before ++ ⟨asked,next answer⟩ :: (after ++ started.map fun m => ⟨some m,provisioning m⟩),
      h.Fine created := by
  intro h hh
  simp only [List.mem_append, List.mem_cons, List.mem_map] at hh
  rcases hh with hh | rfl | hh | ⟨m, hm, rfl⟩
  · exact (hs.labours h (by simp [hf, hh])).later hcreated
  · exact hnext
  · exact (hs.labours h (by simp [hf, hh])).later hcreated
  · exact ⟨hstarted m hm,provisioning_settling m⟩

theorem create_sane (hs : f.Sane) (hf : f.labours = before ++ ⟨none,.perform e next⟩ :: after)
    (hreply : Reply f.records e answer r' started) :
    (f.went before after none e answer (next answer) r' started).Sane := by
  have hfine : Labour.Fine ⟨none,.perform e next⟩ f.created := hs.labours _ (by simp [hf])
  obtain ⟨hms', hgranted, hstarted⟩ :=
    reply_creates f.records r' e answer started f.created hs.machines hreply (hfine _ (List.Subset.refl _)).1
  have hcreated : f.created ⊆ f.created ++ stores e answer := List.subset_append_left _ _
  have hnext : Labour.Fine ⟨none,next answer⟩ (f.created ++ stores e answer) := by
    intro more hmore
    apply (hfine more (List.Subset.trans hcreated hmore)).2
    exact hgranted more fun m hm => hmore (List.mem_append_right _ hm)
  have hlabours := hs.later before after none e next answer started hf _ hcreated hnext
    fun m hm => hcreated (hstarted m hm)
  have hlandings : (f.went before after none e answer (next answer) r' started).landings = f.landings :=
    List.append_nil _
  have hids : ((f.settled ++ stores e answer).map Machine.id).Nodup := Repository.holds_nodup _ _ hms'
  rw [List.map_append, settled_ids] at hids
  have hsettled : (f.went before after none e answer (next answer) r' started).settled =
      f.settled ++ stores e answer := by
    rw [settled, hlandings]
    refine (List.map_append ..).trans (congrArg _ ?_)
    refine (List.map_congr_left ?_).trans (List.map_id _)
    intro m hm
    have hnew : m.id ∉ f.created.map Machine.id := fun hold =>
      List.disjoint_of_nodup_append hids hold (List.mem_map_of_mem hm)
    rw [hs.last_eq_none m.id hnew]
    rfl
  constructor
  · rw [hsettled]
    exact hms'
  · exact hlabours
  · intro k hk
    rw [hlandings] at hk
    obtain ⟨hasked, hput, hbefore⟩ := hs.landings k hk
    exact ⟨hcreated hasked,hput,hbefore⟩
  · rw [hlandings]
    exact hs.faithful

/-- A reply that is taken takes the place of the machine that was asked for. -/
theorem settled_landed (hs : f.Sane) (m w : Machine) (hm : m ∈ f.created) (hid : w.id = m.id)
    (landing : Landing) (hput : landing.put = w) :
    ({ f with landings := f.landings ++ [landing] } : Yard).settled = Memory.place w f.settled := by
  have hany : ∃ c ∈ f.settled, Keyed.id c = Keyed.id w := by
    have hmem : m.id ∈ f.settled.map Machine.id := by
      rw [settled_ids]
      exact List.mem_map_of_mem hm
    obtain ⟨c, hc, hcid⟩ := List.mem_map.mp hmem
    exact ⟨c,hc,hcid.trans hid.symm⟩
  rw [Memory.place_eq_map w _ (Repository.holds_nodup _ _ hs.machines) hany, settled, settled,
    List.map_map]
  apply List.map_congr_left
  intro c _
  have hkeyed : Keyed.id ((Memory.last? c.id (f.landings.map Landing.put)).getD c) = c.id :=
    last_getD_id c _
  rw [Function.comp_apply, hkeyed, List.map_append, Memory.last_append, List.map_singleton, hput,
    Memory.last?, Memory.last?, Option.none_or]
  by_cases hcid : Keyed.id w = c.id
  · rw [if_pos hcid, if_pos hcid.symm]
    rfl
  · rw [if_neg hcid, if_neg (Ne.symm hcid)]
    rfl

theorem land_sane (hs : f.Sane) (m w : Machine)
    (hf : f.labours = before ++ ⟨some m,.perform e next⟩ :: after)
    (hms' : r'.machines.repository.Holds (Memory.place w f.settled)) (hstores : stores e answer = [w])
    (htitle : w.title = m.title) :
    (f.went before after (some m) e answer (next answer) r' []).Sane := by
  obtain ⟨hm, hwithin⟩ : Labour.Fine ⟨some m,.perform e next⟩ f.created := hs.labours _ (by simp [hf])
  have hid : w.id = m.id := congrArg Prod.fst htitle
  have hlabours := hs.later before after (some m) e next answer [] hf f.created (List.Subset.refl _)
    ⟨hm,hwithin.2 answer trivial⟩ (by simp)
  set b := (Memory.last? m.id (f.landings.map Landing.put)).getD m with hb
  have hstanding : standing f.records w.id = some b := hid ▸ hs.standing_eq m hm
  have hlandings : (f.went before after (some m) e answer (next answer) r' []).landings =
      f.landings ++ [⟨m,some b,w⟩] := by
    simp [went, hstores, hstanding]
  have hfaithful : (Landing.mk m (some b) w).IsFaithful ↔ w.identity = m.identity := by
    rw [Machine.identity_eq_iff, Landing.IsFaithful]
    exact ⟨fun h => ⟨htitle,h⟩,And.right⟩
  have hkeeps : (Landing.mk m (some b) w).KeepsRest ↔ w.identity = b.identity := by
    rw [← Machine.eq_withStatus_iff]
    constructor
    · rintro ⟨c, hc, h⟩
      cases hc
      exact h
    · exact fun h => ⟨b,rfl,h⟩
  constructor
  · rw [← settled_landed hs m w hm hid ⟨m,some b,w⟩ rfl] at hms'
    rw [settled, hlandings]
    exact hms'
  · exact hlabours
  · rw [hlandings]
    intro k hk
    rcases List.mem_append.mp hk with hk | hk
    · exact hs.landings k hk
    · cases List.mem_singleton.mp hk
      exact ⟨hm,htitle,b,rfl,hs.title m hm⟩
  · rw [hlandings, List.forall_mem_append, List.forall_mem_append, List.forall_mem_singleton,
      List.forall_mem_singleton, hfaithful, hkeeps, ← hs.faithful]
    apply and_congr_right
    intro hall
    rw [hb, hs.identity hall m hm]

end

/-- A step keeps things sane, and at most one reply is taken. -/
theorem step_sane (hs : Step f f') (h : f.Sane) :
    f'.Sane ∧ (f'.landings = f.landings ∨ ∃ k, f'.landings = f.landings ++ [k]) := by
  cases hs with
  | begin q hq =>
    refine ⟨⟨h.machines,?_,h.landings,h.faithful⟩,Or.inl rfl⟩
    intro labour hlabour
    rcases List.mem_cons.mp hlabour with rfl | hlabour
    · exact fun more _ => runsApart_creating more q hq
    · exact h.labours labour hlabour
  | go before after asked e next answer r' started hf hreply =>
    cases asked with
    | none =>
      exact ⟨create_sane before after e next answer r' started h hf hreply,Or.inl (List.append_nil _)⟩
    | some m =>
      obtain ⟨hm, hwithin⟩ : Labour.Fine ⟨some m,.perform e next⟩ f.created :=
        h.labours _ (by simp [hf])
      obtain ⟨rfl, ⟨hstores, hms'⟩ | ⟨w, hstores, htitle, hms'⟩⟩ :=
        reply_settles f.records r' e answer started m h.machines hreply hwithin.1
      · have hlabours := h.later before after (some m) e next answer [] hf f.created
          (List.Subset.refl _) ⟨hm,hwithin.2 answer trivial⟩ (by simp)
        have hlandings : (f.went before after (some m) e answer (next answer) r' []).landings =
            f.landings := by simp [went, hstores]
        refine ⟨⟨?_,hlabours,hlandings ▸ h.landings,hlandings ▸ h.faithful⟩,Or.inl hlandings⟩
        rw [settled, hlandings]
        exact hms'
      · refine ⟨land_sane before after e next answer r' h m w hf hms' hstores htitle,Or.inr ?_⟩
        exact ⟨⟨m,standing f.records w.id,w⟩,by simp [went, hstores]⟩

theorem run_sane (hr : Run f f') (h : f.Sane) : f'.Sane := by
  induction hr with
  | refl => exact h
  | tail _ hs ih => exact (step_sane hs ih).1

/-! ## Faithful replies -/

theorem step_landings (hs : Step f f') : f.landings ⊆ f'.landings := by
  cases hs with
  | begin q hq => exact List.Subset.refl _
  | go before after asked e next answer r' started hf hreply => exact List.subset_append_left _ _

theorem run_landings (hr : Run f f') : f.landings ⊆ f'.landings := by
  induction hr with
  | refl => exact List.Subset.refl _
  | tail _ hs ih => exact List.Subset.trans ih (step_landings hs)

theorem Sane.kept_of_faithful (h : f.Sane) (hall : ∀ k ∈ f.landings, k.IsFaithful) : f.Kept := by
  rw [h.kept_iff]
  intro m hm w hw
  have hidentity := h.identity hall m hm
  rwa [hw] at hidentity

/-- A reply that is taken while the machines keep their identities is faithful. -/
theorem step_faithful (hs : Step f f') (h : f.Sane) (hall : ∀ k ∈ f.landings, k.IsFaithful)
    (hkept : f'.Kept) : ∀ k ∈ f'.landings, k.IsFaithful := by
  obtain ⟨hsane, hlandings | ⟨k, hlandings⟩⟩ := step_sane hs h
  · rwa [hlandings]
  · obtain ⟨hasked, hput, -⟩ := hsane.landings k (by simp [hlandings])
    have hid : k.put.id = k.asked.id := congrArg Prod.fst hput
    have hlast : Memory.last? k.asked.id (f'.landings.map Landing.put) = some k.put := by
      rw [hlandings, List.map_append, Memory.last_append, List.map_singleton, Memory.last?,
        Memory.last?, Option.none_or, if_pos (show Keyed.id k.put = k.asked.id from hid), Option.some_or]
    have hidentity := hsane.kept_iff.mp hkept k.asked hasked k.put hlast
    rw [hlandings, List.forall_mem_append, List.forall_mem_singleton]
    exact ⟨hall,((Machine.identity_eq_iff _ _).mp hidentity).2⟩

/-- Machines keep their identities all along a run exactly when all replies that are taken are faithful. -/
theorem kept_throughout_iff (start : Yard) (h : start.Sane) (hquiet : start.landings = [])
    (hr : Run start f) :
    (∀ g, Run start g → Run g f → g.Kept) ↔ ∀ k ∈ f.landings, k.IsFaithful := by
  constructor
  · intro hkept
    induction hr with
    | refl => simp [hquiet]
    | tail hr hs ih =>
      have hbefore := ih fun g hg hrest => hkept g hg (hrest.tail hs)
      exact step_faithful hs (run_sane hr h) hbefore (hkept _ (hr.tail hs) .refl)
  · intro hall g hg hrest
    exact (run_sane hg h).kept_of_faithful fun k hk => hall k (run_landings hrest hk)

/-! ## Runs with a given reply -/

/-- Records answer for themselves, and whoever handles requests replies with this. -/
def respond (reply : Except TransportError Json) (r : Records) :
    (e : Effect) → e.Answer × Records × List Machine
  | .delegate _ _ => (reply,r,[])
  | e => Scene.serve r e

theorem respond_reply (reply : Except TransportError Json) (r : Records) (e : Effect) :
    Reply r e (respond reply r e).1 (respond reply r e).2.1 (respond reply r e).2.2 := by
  cases e with
  | delegate channel payload => exact .delegate channel payload reply
  | _ => exact (Scene.serve_reply r _).1

def began (f : Yard) (t : Task) (p : Principal) : Yard :=
  { f with labours := ⟨none,(t.submitTrusted p).run.forget⟩ :: f.labours }

/-- The next step of somebody at work, if there is one. -/
def turn (reply : Except TransportError Json) (f : Yard) (n : Nat) : Yard :=
  match f.labours[n]? with
  | some ⟨asked,.perform e next⟩ =>
    f.went (f.labours.take n) (f.labours.drop (n + 1)) asked e (respond reply f.records e).1
      (next (respond reply f.records e).1) (respond reply f.records e).2.1
      (respond reply f.records e).2.2
  | _ => f

def turns (reply : Except TransportError Json) (f : Yard) (ns : List Nat) : Yard :=
  ns.foldl (turn reply) f

theorem turn_run (reply : Except TransportError Json) (f : Yard) (n : Nat) :
    Run f (f.turn reply n) := by
  unfold turn
  split
  · rename_i asked e next hn
    obtain ⟨hlt, hget⟩ := List.getElem?_eq_some_iff.mp hn
    have hlabours : f.labours = f.labours.take n ++ ⟨asked,.perform e next⟩ :: f.labours.drop (n + 1) := by
      rw [← hget, List.getElem_cons_drop, List.take_append_drop]
    exact .single (.go f _ _ asked e next _ _ _ hlabours (respond_reply reply f.records e))
  · exact .refl

theorem turns_run (reply : Except TransportError Json) (ns : List Nat) (f : Yard) :
    Run f (f.turns reply ns) := by
  induction ns generalizing f with
  | nil => exact .refl
  | cons n ns ih => exact (turn_run reply f n).trans (ih (f.turn reply n))

theorem began_run (f : Yard) (t : Task) (p : Principal) (ht : ∀ ms, t ≠ .bulkUpdateVms ms) :
    Run f (f.began t p) := .single (.begin f _ ⟨t,ht,Or.inl ⟨p,rfl⟩⟩)

/-! ## Main statement -/

/-- Along any run of tasks that put no machines in batches, whatever is replied to requests: stored are the
machines that have been created, none more and none less, with their ids and owners; in the place of each
there is at most a reply that was taken for it. Nothing but statuses has been changed exactly when every
reply that was taken names the provider of its machine, and this is also when all machines have kept their
ids, providers and owners all along. -/
theorem faithful_replies_keep_machines (r : Records) (ms : List Machine)
    (hms : r.machines.repository.Holds ms) (f : Yard) (hrun : Run (quiet r ms) f) :
    f.records.machines.repository.records = .ok f.settled ∧
      f.settled.map Machine.title = f.created.map Machine.title ∧
      (∀ k ∈ f.landings, k.Matches f.created) ∧
      ((∀ k ∈ f.landings, k.KeepsRest) ↔ ∀ k ∈ f.landings, k.IsFaithful) ∧
      ((∀ g, Run (quiet r ms) g → Run g f → g.Kept) ↔ ∀ k ∈ f.landings, k.IsFaithful) := by
  have hquiet := quiet_sane r hms
  have hsane := run_sane hrun hquiet
  exact ⟨Repository.holds_records _ _ hsane.machines,hsane.titles,hsane.landings,hsane.faithful.symm,
    kept_throughout_iff (quiet r ms) hquiet rfl hrun⟩

/-- The worker replies with the machine that was created, moved up. -/
theorem faithful_reply_keeps_machine :
    let root := Principal.ofSystem .root
    let asked : Machine :=
      ⟨"VM:" ++ Text.Base64.encode .addressSafe (Records.bytesOf idBytes 1),.aws,.initializing,root.id⟩
    let start := quiet (Scene.inMemory []) []
    let f := (start.began (.createVm .aws) root).turns (.ok (asked.withStatus .up).encode)
      [0, 0, 0, 0, 1, 1, 1]
    Run start f ∧ f.created = [asked] ∧ f.landings = [⟨asked,some asked,asked.withStatus .up⟩] ∧
      (∀ k ∈ f.landings, k.KeepsRest) ∧ ∀ g, Run start g → Run g f → g.Kept := by
  intro root asked start f
  have hrun : Run start f := (began_run start _ root (by simp)).trans (turns_run _ _ _)
  have hholds : (Scene.inMemory []).machines.repository.Holds [] := ⟨rfl,List.nodup_nil⟩
  obtain ⟨-, -, -, hkeeps, hkept⟩ := faithful_replies_keep_machines _ [] hholds f hrun
  have hlandings : f.landings = [⟨asked,some asked,asked.withStatus .up⟩] := by decide +kernel
  have hfaithful : ∀ k ∈ f.landings, k.IsFaithful := by
    rw [hlandings, List.forall_mem_singleton]
    rfl
  exact ⟨hrun,by decide +kernel,hlandings,hkeeps.mpr hfaithful,hkept.mpr hfaithful⟩

/-- A reply that names another provider is taken as well, and the machine is somewhere else. -/
theorem reply_moves_machine :
    let root := Principal.ofSystem .root
    let asked : Machine :=
      ⟨"VM:" ++ Text.Base64.encode .addressSafe (Records.bytesOf idBytes 1),.aws,.initializing,root.id⟩
    let moved : Machine := ⟨asked.id,.gcp,.up,asked.ownerId⟩
    let start := quiet (Scene.inMemory []) []
    let f := (start.began (.createVm .aws) root).turns (.ok moved.encode) [0, 0, 0, 0, 1, 1, 1]
    Run start f ∧ f.created = [asked] ∧ f.landings = [⟨asked,some asked,moved⟩] ∧
      f.records.machines.repository.records = .ok [moved] ∧ ¬ f.Kept := by
  intro root asked moved start f
  have hrun : Run start f := (began_run start _ root (by simp)).trans (turns_run _ _ _)
  have hcreated : f.created = [asked] := by decide +kernel
  have hrecords : f.records.machines.repository.records = .ok [moved] := by decide +kernel
  refine ⟨hrun,hcreated,by decide +kernel,hrecords,?_⟩
  rintro ⟨ms, hms, hsame⟩
  cases hrecords.symm.trans hms
  rw [hcreated] at hsame
  exact absurd hsame (by decide)

end Yard
end Tasks
end VmFleet
