import DockerEngine.Native.Commands
import DockerEngine.Spec.Restore

/-!
# What `ps` shows and what `rm` removes

In every run the directory of a container has its id as name, also when the file in it is that of
an older container with the same id. So no two containers in the list have the same id, and
this is what `ps` and `rm` rest on.

- `ps_shows`: every listing is in the order of the creation times, the newest first, with each
  container once; a restart of the daemon changes neither the containers nor their order
- `rm_removes`: `rm` against everything else that is going on
- `rm_all`: `docker rm $(docker ps -a -q)`
-/

namespace Docker.Restore

open Go

variable {α : Type} {s s' : Site α} {k : Nat}

/-! ## The list of the daemon -/

/-- The step is one of a `Destroy` that has found its container. -/
def SiteOp.destroys : SiteOp → Bool
  | .act _ (.destroy ..) => true
  | _ => false

namespace Site

/-- The id of the container at a position of the heap. -/
def idAt (s : Site α) (k : Nat) : Option GoString := (s.heap[k]?).map fun o => o.container.id

theorem idAt_of_some {o : Object} (ho : s.heap[k]? = some o) : s.idAt k = some o.container.id := by
  rw [idAt, ho, Option.map_some]

theorem idAt_setObj {o o' : Object} (ho : s.heap[k]? = some o)
    (hid : o'.container.id = o.container.id) (j : Nat) : (s.setObj k o').idAt j = s.idAt j := by
  rw [idAt, idAt, Site.setObj, List.getElem?_set]
  split
  · next heq =>
    subst heq
    have hlt := (List.getElem?_eq_some_iff.mp ho).1
    rw [if_pos hlt, ho, Option.map_some, Option.map_some, hid]
  · rfl

theorem getContainerElement_mem {id : GoString} (h : s.getContainerElement id = some k) :
    k ∈ s.containers ∧ s.idAt k = some id := by
  unfold getContainerElement at h
  refine ⟨List.mem_of_find?_eq_some h, ?_⟩
  have hid := List.find?_some h
  obtain ⟨o, ho, heq⟩ := (Option.any_eq_true _ _).mp hid
  rw [idAt_of_some ho, of_decide_eq_true heq]

theorem getContainerElement_free {id : GoString} (h : s.getContainerElement id = none)
    (hk : k ∈ s.containers) : s.idAt k ≠ some id := by
  intro hid
  obtain ⟨o, ho, hid⟩ := Option.map_eq_some_iff.mp hid
  have hnot := List.find?_eq_none.mp h k hk
  rw [ho, Option.any_some, decide_eq_true_eq] at hnot
  exact hnot hid

/-- What a step leaves as it is: the ids, and the list except for one container that leaves it or
    is new. -/
structure Listing (s s' : Site α) (destroys : Bool) : Prop where
  length : s.heap.length ≤ s'.heap.length
  ids : ∀ k < s.heap.length, s'.idAt k = s.idAt k
  list : s'.containers = s.containers ∨
    destroys = true ∧ (∃ element, s'.containers = s.containers.erase element) ∨
    s'.containers = s.containers ++ [s.heap.length] ∧ s.heap.length < s'.heap.length ∧
      ∃ id, s'.idAt s.heap.length = some id ∧ s.getContainerElement id = none

theorem Listing.frame {destroys : Bool} (hlength : s'.heap.length = s.heap.length)
    (hids : ∀ k, s'.idAt k = s.idAt k) (hlist : s'.containers = s.containers) :
    Listing s s' destroys :=
  ⟨Nat.le_of_eq hlength.symm, fun k _ => hids k, .inl hlist⟩

/-- A step of a `Destroy`: it goes on, `Stop` has failed, or the container leaves the list. -/
theorem destroyStep_cases {c : Container} {call : DestroyCall} {ok : Bool}
    {next : Option DestroyPc} (h : s.destroyStep c call ok = some (s', next)) :
    s'.heap = s.heap ∧
      ((∃ pc, next = some pc) ∧ s'.containers = s.containers ∨
        next = none ∧ call.pc = .stop ∧ ok = false ∧ s'.containers = s.containers ∨
        next = none ∧ call.pc = .remove ∧ s'.containers = s.containers.erase call.element) := by
  unfold destroyStep at h
  split at h
  · next hpc =>
    split at h
    · split at h
      · cases h
      · cases h
        exact ⟨rfl, .inl ⟨⟨_, rfl⟩, rfl⟩⟩
    · next hok =>
      cases h
      exact ⟨rfl, .inr (.inl ⟨rfl, hpc, Bool.eq_false_iff.mpr hok, rfl⟩)⟩
  · split at h <;> cases h <;> exact ⟨rfl, .inl ⟨⟨_, rfl⟩, rfl⟩⟩
  · split at h <;> cases h <;> exact ⟨rfl, .inl ⟨⟨_, rfl⟩, rfl⟩⟩
  · cases h
    exact ⟨rfl, .inl ⟨⟨_, rfl⟩, rfl⟩⟩
  · split at h <;> cases h <;> exact ⟨rfl, .inl ⟨⟨_, rfl⟩, rfl⟩⟩
  · next hpc =>
    cases h
    exact ⟨rfl, .inr (.inr ⟨rfl, hpc, rfl⟩)⟩

theorem Listing.destroyStep {c : Container} {call : DestroyCall} {ok : Bool}
    {next : Option DestroyPc} (h : s.destroyStep c call ok = some (s', next)) :
    Listing s s' true := by
  obtain ⟨hheap, hlist⟩ := destroyStep_cases h
  refine ⟨Nat.le_of_eq (congrArg _ hheap.symm), fun k _ => ?_, ?_⟩
  · rw [idAt, idAt, hheap]
  · obtain ⟨-, hlist⟩ | ⟨-, -, -, hlist⟩ | ⟨-, -, hlist⟩ := hlist
    · exact .inl hlist
    · exact .inl hlist
    · exact .inr (.inl ⟨rfl, call.element, hlist⟩)

/-- A `Destroy` only ever waits in `Stop`. -/
theorem destroyStep_waits (s : Site α) (c : Container) (call : DestroyCall) :
    call = ⟨call.element, .stop⟩ ∧ c.state.running = true ∨
      (s.destroyStep c call true).isSome = true := by
  obtain ⟨element, pc⟩ := call
  cases pc with
  | stop =>
    cases hrunning : c.state.running with
    | true => exact .inl ⟨rfl, rfl⟩
    | false =>
      refine .inr ?_
      simp [Site.destroyStep, hrunning]
  | delete => exact .inr rfl
  | remove => exact .inr rfl
  | umount =>
    refine .inr ?_
    simp only [Site.destroyStep]
    split <;> rfl
  | deregister =>
    refine .inr ?_
    simp only [Site.destroyStep]
    split <;> rfl
  | removeAll =>
    refine .inr ?_
    simp only [Site.destroyStep]
    split <;> rfl

theorem Listing.trans_setObj {destroys : Bool} (h : Listing s s' destroys)
    (hheap : s'.heap = s.heap) {o o' : Object} (ho : s.heap[k]? = some o)
    (hid : o'.container.id = o.container.id) : Listing s (s'.setObj k o') destroys := by
  have ho' : s'.heap[k]? = some o := by rw [hheap, ho]
  obtain ⟨hlength, hids, hlist⟩ := h
  refine ⟨?_, fun j hj => (idAt_setObj ho' hid j).trans (hids j hj), ?_⟩
  · rw [Site.setObj, List.length_set]
    exact hlength
  · obtain hlist | hlist | ⟨-, hlt, -⟩ := hlist
    · exact .inl hlist
    · exact .inr (.inl hlist)
    · rw [hheap] at hlt
      omega

/-- What a step on a container does besides, to the rest of the site. -/
inductive Touches (s : Site α) (o : Object) : Act → Site α → Prop where
  | rows {a : Act} (store : Store α) (mounted : List GoString) :
      Touches s o a { s with store, mounted }
  | save {a : Act} : Touches s o a (s.save o.container)
  | destroy {i : Nat} {ok : Bool} {call : DestroyCall} {next : Option DestroyPc} {s' : Site α}
      (hstep : s.destroyStep o.container call ok = some (s', next)) :
      Touches s o (.destroy i ok) s'

theorem ensureMounted_rows {mp : Mountpoint} {ok : Bool}
    (h : s.ensureMounted mp = .ret (ok, s')) :
    ∃ store mounted, s' = { s with store, mounted } := by
  unfold ensureMounted at h
  split at h
  · cases h
    exact ⟨_, _, rfl⟩
  · split at h
    · cases h
    · split at h
      · cases h
        exact ⟨_, _, rfl⟩
      · split at h <;> cases h <;> exact ⟨_, _, rfl⟩

/-- A step on a container, of which at most the state is another one after it. -/
theorem act_cases {o : Object} (ho : s.heap[k]? = some o) {a : Act}
    (hact : s.act k o a = some s') : ∃ s₁ o', Touches s o a s₁ ∧ s' = s₁.setObj k o' ∧
      o'.container.id = o.container.id ∧ o'.container.root = o.container.root := by
  have hsame : ∀ s₁ : Site α, s₁.heap = s.heap → s₁ = s₁.setObj k o := by
    intro s₁ hheap
    obtain ⟨hlt, hget⟩ := List.getElem?_eq_some_iff.mp ho
    rw [Site.setObj, ← hget, hheap, List.set_getElem_self, ← hheap]
  cases a with
  | ensureMounted =>
    simp only [Site.act] at hact
    split at hact
    · next hret =>
      obtain ⟨store, mounted, rfl⟩ := ensureMounted_rows hret
      cases hact
      exact ⟨_, _, .rows store mounted, rfl, rfl, rfl⟩
    · next hret =>
      obtain ⟨store, mounted, rfl⟩ := ensureMounted_rows hret
      cases hact
      exact ⟨_, o, .rows store mounted, hsame _ rfl, rfl, rfl⟩
    · cases hact
    · cases hact
  | launch pid =>
    simp only [Site.act] at hact
    split at hact
    · cases hact
    · cases pid with
      | none =>
        cases hact
        exact ⟨_, _, .rows s.store s.mounted, rfl, rfl, rfl⟩
      | some pid =>
        simp only at hact
        split at hact <;> cases hact <;> exact ⟨_, _, .rows s.store s.mounted, rfl, rfl, rfl⟩
  | saveStarted =>
    simp only [Site.act] at hact
    split at hact
    · cases hact
    · cases hact
      exact ⟨_, _, .save, rfl, rfl, rfl⟩
  | exit =>
    simp only [Site.act] at hact
    split at hact
    · cases hact
    · cases hact
      exact ⟨_, _, .rows s.store _, rfl, rfl, rfl⟩
  | report exitCode =>
    simp only [Site.act] at hact
    split at hact
    · cases hact
    · cases hact
      exact ⟨_, _, .rows s.store s.mounted, rfl, rfl, rfl⟩
  | saveStopped =>
    simp only [Site.act] at hact
    split at hact
    · cases hact
    · cases hact
      exact ⟨_, _, .save, rfl, rfl, rfl⟩
  | lookup =>
    simp only [Site.act] at hact
    split at hact
    · cases hact
      exact ⟨_, o, .rows s.store s.mounted, hsame _ rfl, rfl, rfl⟩
    · cases hact
      exact ⟨_, _, .rows s.store s.mounted, rfl, rfl, rfl⟩
  | destroy i ok =>
    obtain ⟨call, -, hact⟩ := Option.bind_eq_some_iff.mp hact
    obtain ⟨⟨s₁, next⟩, hstep, rfl⟩ := Option.map_eq_some_iff.mp hact
    exact ⟨_, _, .destroy hstep, rfl, rfl, rfl⟩

theorem Touches.heap {o : Object} {a : Act} (h : s.Touches o a s') : s'.heap = s.heap := by
  cases h with
  | rows store mounted => rfl
  | save => rfl
  | destroy hstep => exact (destroyStep_cases hstep).1

theorem Listing.act {o : Object} (ho : s.heap[k]? = some o) {a : Act}
    (hact : s.act k o a = some s') : Listing s s' (SiteOp.act k a).destroys := by
  obtain ⟨s₁, o', htouches, rfl, hid, -⟩ := act_cases ho hact
  have hlisting : Listing s s₁ (SiteOp.act k a).destroys := by
    cases htouches with
    | rows store mounted => exact .frame rfl (fun _ => rfl) rfl
    | save => exact .frame rfl (fun _ => rfl) rfl
    | destroy hstep => exact .destroyStep hstep
  exact hlisting.trans_setObj htouches.heap ho hid

theorem Listing.create (s : Site α) (id : GoString) (created : Int) (command : GoString)
    (args : List GoString) (image : Image) (config : Config) :
    Listing s (s.create id created command args image config).2 false := by
  unfold Site.create
  split
  · exact .frame rfl (fun _ => rfl) rfl
  · next hnone =>
    split
    · next hcreate =>
      obtain ⟨store, -, rfl⟩ := Inv.createContainer_error hcreate
      exact .frame rfl (fun _ => rfl) rfl
    · next c s' hcreate =>
      obtain ⟨store, -, -, -, rfl, -, -, -, rfl⟩ := Inv.createContainer_ok hcreate
      refine ⟨?_, fun k hk => ?_, .inr (.inr ⟨rfl, ?_, c.id, ?_, by simpa using hnone⟩)⟩
      · simp [Site.pushBack, Site.save]
      · show ((s.heap ++ [_])[k]?).map _ = _
        rw [List.getElem?_append_left hk]
        rfl
      · simp [Site.pushBack, Site.save]
      · show ((s.heap ++ [_])[s.heap.length]?).map _ = _
        rw [List.getElem?_concat_length]
        rfl

/-- Every step but a restart. -/
theorem Listing.step {op : SiteOp} (hop : op ≠ .restart) (hstep : s.step op = some s') :
    Listing s s' op.destroys := by
  cases op with
  | create id created command args image config =>
    simp only [Site.step] at hstep
    split at hstep
    · cases hstep
      exact .create s id created command args image config
    · cases hstep
  | act k a =>
    obtain ⟨o, ho, hact⟩ := Option.bind_eq_some_iff.mp hstep
    exact .act ho hact
  | restart => exact absurd rfl hop

/-- Known containers have different ids. -/
structure Listed (s : Site α) : Prop where
  nodup : s.containers.Nodup
  inHeap : ∀ k ∈ s.containers, k < s.heap.length
  distinct : ∀ j ∈ s.containers, ∀ k ∈ s.containers, s.idAt j = s.idAt k → j = k

variable {destroys : Bool}

theorem Listed.step (h : s.Listed) (hlisting : Listing s s' destroys) : s'.Listed := by
  obtain ⟨hlength, hids, hlist | ⟨-, element, hlist⟩ | ⟨hlist, hlt, id, hid, hfree⟩⟩ := hlisting
  · refine ⟨hlist ▸ h.nodup, fun k hk => ?_, fun j hj k hk heq => ?_⟩
    · rw [hlist] at hk
      exact Nat.lt_of_lt_of_le (h.inHeap k hk) hlength
    · rw [hlist] at hj hk
      rw [hids j (h.inHeap j hj), hids k (h.inHeap k hk)] at heq
      exact h.distinct j hj k hk heq
  · refine ⟨hlist ▸ h.nodup.erase _, fun k hk => ?_, fun j hj k hk heq => ?_⟩
    · rw [hlist] at hk
      exact Nat.lt_of_lt_of_le (h.inHeap k (List.mem_of_mem_erase hk)) hlength
    · rw [hlist] at hj hk
      have hj' := List.mem_of_mem_erase hj
      have hk' := List.mem_of_mem_erase hk
      rw [hids j (h.inHeap j hj'), hids k (h.inHeap k hk')] at heq
      exact h.distinct j hj' k hk' heq
  · have hnew : ∀ j ∈ s.containers, s'.idAt j ≠ s'.idAt s.heap.length := by
      intro j hj heq
      rw [hids j (h.inHeap j hj), hid] at heq
      exact getContainerElement_free hfree hj heq
    refine ⟨?_, fun k hk => ?_, fun j hj k hk heq => ?_⟩
    · rw [hlist, List.nodup_append]
      refine ⟨h.nodup, List.nodup_singleton _, fun a ha b hb hab => ?_⟩
      rw [List.mem_singleton] at hb
      subst hab
      exact Nat.lt_irrefl _ (hb ▸ h.inHeap a ha)
    · rw [hlist, List.mem_append, List.mem_singleton] at hk
      obtain hk | rfl := hk
      · exact Nat.lt_of_lt_of_le (h.inHeap k hk) hlength
      · exact hlt
    · rw [hlist, List.mem_append, List.mem_singleton] at hj hk
      obtain hj | rfl := hj
      · obtain hk | rfl := hk
        · rw [hids j (h.inHeap j hj), hids k (h.inHeap k hk)] at heq
          exact h.distinct j hj k hk heq
        · exact absurd heq (hnew j hj)
      · obtain hk | rfl := hk
        · exact absurd heq.symm (hnew k hk)
        · rfl

/-- A container that has left the list does not come back. -/
theorem Listing.gone (h : Listing s s' destroys) (hk : k < s.heap.length)
    (hgone : k ∉ s.containers) : k ∉ s'.containers := by
  intro hmem
  obtain hlist | ⟨-, element, hlist⟩ | ⟨hlist, -⟩ := h.list
  · exact hgone (hlist ▸ hmem)
  · rw [hlist] at hmem
    exact hgone (List.mem_of_mem_erase hmem)
  · rw [hlist, List.mem_append, List.mem_singleton] at hmem
    obtain hmem | rfl := hmem
    · exact hgone hmem
    · exact Nat.lt_irrefl _ hk

/-- Without a `Destroy` nothing leaves the list. -/
theorem Listing.keeps (h : Listing s s' false) (hk : k ∈ s.containers) : k ∈ s'.containers := by
  obtain hlist | ⟨hfalse, -⟩ | ⟨hlist, -⟩ := h.list
  · exact hlist ▸ hk
  · cases hfalse
  · exact hlist ▸ List.mem_append_left _ hk

theorem Listing.of_list (h : Listing s s' destroys) (hlist : s'.containers = s.containers) :
    Listing s s' false :=
  ⟨h.length, h.ids, .inl hlist⟩

theorem lt_of_idAt {id : GoString} (h : s.idAt k = some id) : k < s.heap.length := by
  obtain ⟨o, ho, -⟩ := Option.map_eq_some_iff.mp h
  exact (List.getElem?_eq_some_iff.mp ho).1

theorem Listing.idAt (h : Listing s s' destroys) {id : GoString} (hid : s.idAt k = some id) :
    s'.idAt k = some id :=
  (h.ids k (lt_of_idAt hid)).trans hid

/-- The site `s'` has come from `s` by steps without a restart. -/
structure Since (s s' : Site α) : Prop where
  listed : s'.Listed
  length : s.heap.length ≤ s'.heap.length
  ids : ∀ k < s.heap.length, s'.idAt k = s.idAt k

theorem Since.refl (h : s.Listed) : s.Since s := ⟨h, Nat.le_refl _, fun _ _ => rfl⟩

theorem Since.listing (h : s.Since s') {s₂ : Site α} (hlisting : Listing s' s₂ destroys) :
    s.Since s₂ where
  listed := h.listed.step hlisting
  length := Nat.le_trans h.length hlisting.length
  ids k hk := (hlisting.ids k (Nat.lt_of_lt_of_le hk h.length)).trans (h.ids k hk)

/-! ## The ids -/

/-- The id of a container and its root. -/
def Homed (s : Site α) (c : Container) : Prop := PlainName c.id ∧ c.root = s.dirPath c.id

/-- What is in the directories has their names as ids. -/
structure Filed (s : Site α) : Prop where
  homed : ∀ o ∈ s.heap, s.Homed o.container
  names : (s.dirs.map Prod.fst).Nodup
  plain : ∀ d ∈ s.dirs, PlainName d.1
  files : ∀ d ∈ s.dirs, ∀ c ∈ d.2, s.Homed c ∧ c.id = d.1

namespace Filed

theorem fresh (h : s.Fresh) : s.Filed := by
  obtain ⟨hdirs, hheap, -⟩ := h
  refine ⟨?_, ?_, ?_, ?_⟩
  · simp [hheap]
  · simp [hdirs]
  · simp [hdirs]
  · simp [hdirs]

/-- A step that changes at most the directories, and the list. -/
theorem withDirs (h : s.Filed) (hrepository : s'.repository = s.repository)
    (hheap : s'.heap = s.heap) (hdirs : ∀ d' ∈ s'.dirs, ∃ d ∈ s.dirs, d'.1 = d.1 ∧
      ∀ c ∈ d'.2, c ∈ d.2 ∨ s.Homed c ∧ c.id = d.1)
    (hnames : (s'.dirs.map Prod.fst).Sublist (s.dirs.map Prod.fst)) : s'.Filed := by
  have hhomed : ∀ c, s'.Homed c ↔ s.Homed c := by
    intro c
    rw [Homed, Homed, dirPath, dirPath, hrepository]
  refine ⟨fun o ho => ?_, h.names.sublist hnames, fun d' hd' => ?_, fun d' hd' c hc => ?_⟩
  · rw [hheap] at ho
    exact (hhomed _).mpr (h.homed o ho)
  · obtain ⟨d, hd, hname, -⟩ := hdirs d' hd'
    exact hname ▸ h.plain d hd
  · obtain ⟨d, hd, hname, hfile⟩ := hdirs d' hd'
    rw [hhomed, hname]
    obtain hc | hc := hfile c hc
    · exact h.files d hd c hc
    · exact hc

theorem frame (h : s.Filed) (hrepository : s'.repository = s.repository)
    (hheap : s'.heap = s.heap) (hdirs : s'.dirs = s.dirs) : s'.Filed := by
  refine h.withDirs hrepository hheap (fun d' hd' => ?_) (hdirs ▸ List.Sublist.refl _)
  exact ⟨d', hdirs ▸ hd', rfl, fun c hc => .inl hc⟩

theorem setObj (h : s.Filed) {o o' : Object} (ho : s.heap[k]? = some o)
    (hid : o'.container.id = o.container.id) (hroot : o'.container.root = o.container.root) :
    (s.setObj k o').Filed := by
  refine ⟨fun o₁ ho₁ => ?_, h.names, h.plain, h.files⟩
  obtain ho₁ | rfl := List.mem_or_eq_of_mem_set ho₁
  · exact h.homed o₁ ho₁
  · obtain ⟨hplain, hpath⟩ := h.homed o (List.mem_of_getElem? ho)
    exact ⟨hid ▸ hplain, by rw [hroot, hid, hpath]; rfl⟩

/-- A container is saved in the directory that has its id as name. -/
theorem save (h : s.Filed) {c : Container} (hc : s.Homed c) : (s.save c).Filed := by
  refine h.withDirs rfl rfl (fun d' hd' => ?_) ?_
  · obtain ⟨d, hd, rfl⟩ := List.mem_map.mp hd'
    refine ⟨d, hd, ?_, ?_⟩
    · split <;> rfl
    · split
      · next hpath =>
        intro c' hc'
        cases hc'
        rw [hc.2] at hpath
        exact .inr ⟨hc, (pathJoin_injective s.repository (h.plain d hd) hc.1 hpath).symm⟩
      · exact fun c' hc' => .inl hc'
  · have hnames : (s.save c).dirs.map Prod.fst = s.dirs.map Prod.fst := by
      rw [Site.save, List.map_map]
      apply List.map_congr_left
      intro d _
      rw [Function.comp_apply]
      split <;> rfl
    rw [hnames]

theorem destroyStep (h : s.Filed) {c : Container} {call : DestroyCall} {ok : Bool}
    {next : Option DestroyPc} (hstep : s.destroyStep c call ok = some (s', next)) : s'.Filed := by
  unfold Site.destroyStep at hstep
  split at hstep
  · split at hstep
    · split at hstep <;> cases hstep
      exact h
    · cases hstep
      exact h
  · split at hstep <;> cases hstep <;> exact h.frame rfl rfl rfl
  · split at hstep <;> cases hstep <;> exact h
  · cases hstep
    exact h.frame rfl rfl rfl
  · split at hstep
    · cases hstep
      refine h.withDirs rfl rfl (fun d' hd' => ?_) ?_
      · obtain ⟨d, hd, rfl⟩ := List.mem_map.mp hd'
        refine ⟨d, hd, ?_, ?_⟩
        · split <;> rfl
        · split
          · exact fun c' hc' => absurd hc' (Option.not_mem_none c')
          · exact fun c' hc' => .inl hc'
      · have hnames : (s.removeContents c.root).dirs.map Prod.fst = s.dirs.map Prod.fst := by
          rw [removeContents, List.map_map]
          apply List.map_congr_left
          intro d _
          rw [Function.comp_apply]
          split <;> rfl
        rw [hnames]
    · cases hstep
      refine h.withDirs rfl rfl (fun d' hd' => ?_) (List.filter_sublist.map _)
      exact ⟨d', List.mem_of_mem_filter hd', rfl, fun c' hc' => .inl hc'⟩
  · cases hstep
    exact h.frame rfl rfl rfl

theorem act (h : s.Filed) {o : Object} (ho : s.heap[k]? = some o) {a : Act}
    (hact : s.act k o a = some s') : s'.Filed := by
  obtain ⟨s₁, o', htouches, rfl, hid, hroot⟩ := act_cases ho hact
  have ho' : s₁.heap[k]? = some o := by rw [htouches.heap, ho]
  have hfiled : s₁.Filed := by
    cases htouches with
    | rows store mounted => exact h.frame rfl rfl rfl
    | save => exact h.save (h.homed o (List.mem_of_getElem? ho))
    | destroy hstep => exact h.destroyStep hstep
  exact hfiled.setObj ho' hid hroot

theorem create (h : s.Filed) {id : GoString} (hid : PlainName id) (created : Int)
    (command : GoString) (args : List GoString) (image : Image) (config : Config) :
    (s.create id created command args image config).2.Filed := by
  unfold Site.create
  split
  · exact h
  split
  · next hcreate =>
    obtain ⟨store, -, rfl⟩ := Inv.createContainer_error hcreate
    exact h.frame rfl rfl rfl
  · next c s' hcreate =>
    obtain ⟨store, -, -, hdir, rfl, hroot, -, -, rfl⟩ := Inv.createContainer_ok hcreate
    have hhomed : s.Homed c := ⟨hid, hroot⟩
    -- the directory is new
    have hname : c.id ∉ s.dirs.map Prod.fst := by
      intro hmem
      obtain ⟨d, hd, hname⟩ := List.mem_map.mp hmem
      have hno := List.any_eq_false.mp hdir d hd
      rw [decide_eq_true_eq, hroot] at hno
      exact hno (congrArg _ hname)
    have hdirs := Inv.save_new (s := { s with store }) hdir hroot
    refine ⟨fun o ho => ?_, ?_, fun d hd => ?_, fun d hd c' hc' => ?_⟩
    · obtain ho | ho := List.mem_append.mp ho
      · exact h.homed o ho
      · rw [List.mem_singleton.mp ho]
        exact hhomed
    · show ((Site.save _ c).dirs.map Prod.fst).Nodup
      rw [hdirs, List.map_append]
      have hnodup := h.names.concat hname
      rwa [List.concat_eq_append] at hnodup
    · replace hd : d ∈ (Site.save _ c).dirs := hd
      rw [hdirs] at hd
      obtain hd | hd := List.mem_append.mp hd
      · exact h.plain d hd
      · rw [List.mem_singleton.mp hd]
        exact hid
    · replace hd : d ∈ (Site.save _ c).dirs := hd
      rw [hdirs] at hd
      obtain hd | hd := List.mem_append.mp hd
      · exact h.files d hd c' hc'
      · obtain rfl := List.mem_singleton.mp hd
        cases hc'
        exact ⟨hhomed, rfl⟩

theorem restore_homed (h : s.Filed) : ∀ c ∈ s.restore, s.Homed c := by
  intro c hc
  obtain ⟨name, -, hload⟩ := List.mem_filterMap.mp hc
  obtain ⟨d, hd, -, data, hdata, hid, hroot, -⟩ := loadContainer_eq_some hload
  obtain ⟨⟨hplain, hpath⟩, -⟩ := h.files d hd data hdata
  exact ⟨hid ▸ hplain, by rw [hroot, hid, hpath]⟩

theorem newFromDirectory (h : s.Filed) :
    s.newFromDirectory.Filed ∧ s.newFromDirectory.Listed := by
  have hids := restore_ids_nodup h.names fun d hd c hc => (h.files d hd c hc).2
  have hlength : s.newFromDirectory.heap.length = s.restore.length := List.length_map _
  have hidAt : ∀ j, s.newFromDirectory.idAt j = (s.restore.map Container.id)[j]? := by
    intro j
    show ((s.restore.map Object.idle)[j]?).map _ = _
    rw [List.getElem?_map, List.getElem?_map, Option.map_map]
    rfl
  refine ⟨⟨fun o ho => ?_, h.names, h.plain, h.files⟩, List.nodup_range, fun j hj => ?_,
    fun i hi j _ heq => ?_⟩
  · obtain ⟨c, hc, rfl⟩ := List.mem_map.mp ho
    exact h.restore_homed c hc
  · rw [hlength]
    exact List.mem_range.mp hj
  · rw [hidAt, hidAt] at heq
    refine (List.getElem?_inj ?_ hids).mp heq
    rw [List.length_map]
    exact List.mem_range.mp hi

end Filed

theorem listed_fresh (h : s.Fresh) : s.Listed := by
  obtain ⟨-, -, hcontainers⟩ := h
  refine ⟨?_, ?_, ?_⟩
  · simp [hcontainers]
  · simp [hcontainers]
  · simp [hcontainers]

/-- A step of the daemon, a restart among them. -/
theorem Filed.step (h : s.Filed) (hlisted : s.Listed) {op : SiteOp} (hstep : s.step op = some s') :
    s'.Filed ∧ s'.Listed := by
  cases op with
  | create id created command args image config =>
    have hlisted' := hlisted.step (Listing.step (by simp) hstep)
    simp only [Site.step] at hstep
    split at hstep
    · next hid =>
      cases hstep
      exact ⟨h.create hid.1 created command args image config, hlisted'⟩
    · cases hstep
  | act k a =>
    have hlisted' := hlisted.step (Listing.step (by simp) hstep)
    obtain ⟨o, ho, hact⟩ := Option.bind_eq_some_iff.mp hstep
    exact ⟨h.act ho hact, hlisted'⟩
  | restart =>
    cases hstep
    exact h.newFromDirectory

theorem reachable_listed (h : (siteSystem α).Reachable s) : s.Listed :=
  (h.invariant (P := fun s => s.Filed ∧ s.Listed)
    (fun _ hs => ⟨Filed.fresh hs, listed_fresh hs⟩)
    fun _ _ _ hs _ hstep => hs.1.step hs.2 hstep).2

theorem known_ids (s : Site α) : s.known.map Container.id = s.containers.filterMap s.idAt := by
  rw [known, List.map_filterMap]
  apply List.filterMap_congr
  intro k _
  rw [Option.map_map]
  rfl

theorem Listed.known_ids_nodup (h : s.Listed) : (s.known.map Container.id).Nodup := by
  rw [known_ids, List.Nodup, List.pairwise_filterMap]
  apply List.Pairwise.imp_of_mem _ h.nodup
  intro j k hj hk hne id hid id' hid' heq
  apply hne
  apply h.distinct j hj k hk
  rw [hid, hid', heq]

end Site

/-! ## Listing -/

namespace Site

theorem list_perm (s : Site α) (history : History) : (s.list history).Perm s.known := by
  have h := (history.foldl_sort s.known [] .nil).1
  rwa [List.nil_append] at h

theorem list_pairwise (s : Site α) (history : History) :
    (s.list history).Pairwise fun c c' => c'.created ≤ c.created :=
  (history.foldl_sort s.known [] .nil).2

/-- A container that was loaded is not running, whatever the file says. -/
theorem list_newFromDirectory_stopped (s : Site α) (history : History) :
    ∀ c ∈ s.newFromDirectory.list history, c.state.running = false := by
  intro c hc
  have hknown := (s.newFromDirectory.list_perm history).subset hc
  rw [Inv.known_newFromDirectory] at hknown
  obtain ⟨name, -, hload⟩ := List.mem_filterMap.mp hknown
  obtain ⟨-, -, -, -, -, -, -, hstate⟩ := loadContainer_eq_some hload
  rw [hstate]
  rfl

/-- The next daemon lists the same containers, in the same order if no two of them were created
    at the same time. -/
theorem Inv.list_newFromDirectory_eq (h : s.Inv) (hs : s.Settled) (history : History)
    (hcreated : (s.known.map Container.created).Nodup) :
    s.newFromDirectory.list history = (s.list history).map Container.stopped := by
  have hperm : (s.newFromDirectory.list history).Perm ((s.list history).map Container.stopped) := by
    have hlist := s.newFromDirectory.list_perm history
    rw [Inv.known_newFromDirectory] at hlist
    have hkept := hlist.trans (h.restore_perm hs)
    rw [kept_eq] at hkept
    exact hkept.trans ((s.list_perm history).symm.map _)
  apply eq_of_descending hperm (s.newFromDirectory.list_pairwise history)
  · rw [List.pairwise_map]
    exact s.list_pairwise history
  · rw [(hperm.map Container.created).nodup_iff, List.map_map]
    exact ((s.list_perm history).map _).nodup_iff.mpr hcreated

end Site

theorem idLines_eq (containers : List Container) :
    idLines containers = (containers.map Container.id).flatMap fun id => id ++ [newline] := by
  rw [List.flatMap_map]
  rfl

/-- `Create` from the one image. -/
def createPlain (id : String) (created : Int) : SiteOp :=
  .create (str id) created (str "x") [] ⟨str "base", [], [], 0⟩ ⟨[], [], 0, 0, [], false, false⟩

def plainView : PsView := ⟨0, fun _ => 0, fun _ _ => [], fun _ => [], fun text => text⟩

/-- The containers that had the id at the site `s` are not listed at `s'`. -/
def Gone (s s' : Site α) (id : GoString) : Prop :=
  ∀ k ∈ s.containers, s.idAt k = some id → k ∉ s'.containers

/-- The container `Destroy` has is one with the name. Once it has been looked up, its element of the
    list is the one that had the name in the beginning, if that is still listed. -/
def Destroying.Aims (s s' : Site α) (name : GoString) : Destroying → Prop
  | .lookup k => s'.idAt k = some name
  | .call k c => s'.idAt k = some name ∧
    ∀ j ∈ s.containers, s.idAt j = some name → j = c.element ∨ j ∉ s'.containers

/-- What `CmdRm` has written about the names it failed to remove. -/
def errorLines (failed : List (GoString × GoString)) : GoString :=
  failed.flatMap fun e => destroyError e.1 e.2

theorem errorLines_concat (failed : List (GoString × GoString)) (name err : GoString) :
    errorLines (failed ++ [(name, err)]) = errorLines failed ++ destroyError name err := by
  rw [errorLines, errorLines, List.flatMap_append, List.flatMap_singleton]

/-- How far a `CmdRm` with `names` has got, which began at the site `s`. -/
structure Rm.Inv (s : Site α) (names : List GoString) (r : Rm α) : Prop where
  since : s.Since r.site
  aims : ∀ name d, r.current = some (name, d) → d.Aims s r.site name
  passed : ∃ done failed, names = done ++ ((r.current.map Prod.fst).toList ++ r.todo) ∧
    r.stdout = errorLines failed ∧
    ∀ id ∈ done, id ∈ failed.map Prod.fst ∨ Gone s r.site id
  returned : ∀ err, r.returned = some err → r.current = none ∧
    (err = none ∧ r.todo = [] ∨
      ∃ name rest, r.todo = name :: rest ∧ err = some (noSuchContainer name) ∧
        Gone s r.site name)

namespace Rm

variable {names : List GoString} {r r' : Rm α}

/-- A step of `Destroy`: it goes on, `Stop` has failed, or the element leaves the list. -/
theorem destroy_cases {name : GoString} {k : Nat} {call : DestroyCall} {err : Option GoString}
    (hcurrent : r.current = some (name, .call k call)) (hstep : r.step (.destroy err) = some r') :
    ∃ site, Site.Listing r.site site true ∧
      ((∃ pc, site.containers = r.site.containers ∧
          r' = { r with site, current := some (name, .call k { call with pc }) }) ∨
        (∃ text, err = some text ∧ site.containers = r.site.containers ∧
          r' = { r with site }.report name text) ∨
        site.containers = r.site.containers.erase call.element ∧
          r' = { r with site, current := none }) := by
  simp only [step, hcurrent] at hstep
  obtain ⟨o, -, hstep⟩ := Option.bind_eq_some_iff.mp hstep
  obtain ⟨⟨site, next⟩, hdestroy, heq⟩ := Option.map_eq_some_iff.mp hstep
  refine ⟨site, .destroyStep hdestroy, ?_⟩
  obtain ⟨-, ⟨⟨pc, rfl⟩, hlist⟩ | ⟨rfl, hpc, hok, hlist⟩ | ⟨rfl, hpc, hlist⟩⟩ :=
    Site.destroyStep_cases hdestroy
  · exact .inl ⟨pc, hlist, heq.symm⟩
  · cases err with
    | none => cases hok
    | some text =>
      simp only [hpc] at heq
      exact .inr (.inl ⟨text, rfl, hlist, heq.symm⟩)
  · simp only [hpc] at heq
    exact .inr (.inr ⟨hlist, heq.symm⟩)

theorem current_of_destroy {err : Option GoString} (hstep : r.step (.destroy err) = some r') :
    ∃ name k call, r.current = some (name, .call k call) := by
  simp only [step] at hstep
  split at hstep
  · next hcurrent => exact ⟨_, _, _, hcurrent⟩
  · cases hstep

theorem start_inv (hs : s.Listed) (names : List GoString) : Inv s names (start s names) where
  since := .refl hs
  aims _ _ h := by cases h
  passed := ⟨[], [], rfl, rfl, fun _ h => absurd h List.not_mem_nil⟩
  returned _ h := by cases h

namespace Inv

theorem gone (hs : s.Listed) (h : Inv s names r) {site : Site α} {destroys : Bool}
    (hlisting : Site.Listing r.site site destroys) {id : GoString} (hgone : Gone s r.site id) :
    Gone s site id := fun k hk hid =>
  hlisting.gone (Nat.lt_of_lt_of_le (hs.inHeap k hk) h.since.length) (hgone k hk hid)

/-- Whatever happens to the site, what is gone stays so. -/
theorem listing (hs : s.Listed) (h : Inv s names r) {site : Site α} {destroys : Bool}
    (hlisting : Site.Listing r.site site destroys) : Inv s names { r with site } where
  since := h.since.listing hlisting
  aims name d hd := by
    have haims := h.aims name d hd
    cases d with
    | lookup k => exact hlisting.idAt haims
    | call k call =>
      obtain ⟨hid, hold⟩ := haims
      refine ⟨hlisting.idAt hid, fun j hj hid' => ?_⟩
      obtain heq | hgone := hold j hj hid'
      · exact .inl heq
      · exact .inr (hlisting.gone (Nat.lt_of_lt_of_le (hs.inHeap j hj) h.since.length) hgone)
  passed := by
    obtain ⟨done, failed, hnames, hstdout, hdone⟩ := h.passed
    exact ⟨done, failed, hnames, hstdout, fun id hid => (hdone id hid).imp_right
      (h.gone hs hlisting)⟩
  returned err herr := by
    obtain ⟨hcurrent, hall | ⟨name, rest, htodo, hname, hgone⟩⟩ := h.returned err herr
    · exact ⟨hcurrent, .inl hall⟩
    · exact ⟨hcurrent, .inr ⟨name, rest, htodo, hname, h.gone hs hlisting hgone⟩⟩

/-- `Destroy` goes on with the name at hand. -/
theorem goOn (h : Inv s names r) {name : GoString} {d d' : Destroying}
    (hcurrent : r.current = some (name, d)) (haims : d'.Aims s r.site name) :
    Inv s names { r with current := some (name, d') } where
  since := h.since
  aims name' d hd := by
    cases hd
    exact haims
  passed := by
    obtain ⟨done, failed, hnames, hstdout, hdone⟩ := h.passed
    rw [hcurrent] at hnames
    exact ⟨done, failed, hnames, hstdout, hdone⟩
  returned err herr := by
    obtain ⟨hnone, -⟩ := h.returned err herr
    rw [hcurrent] at hnone
    cases hnone

/-- The name at hand has been dealt with: its container is gone, or there is a line about it. -/
theorem next (h : Inv s names r) {name : GoString} {d : Destroying}
    (hcurrent : r.current = some (name, d)) {lines : GoString}
    (hlines : lines = [] ∧ Gone s r.site name ∨ ∃ err, lines = destroyError name err) :
    Inv s names { r with current := none, stdout := r.stdout ++ lines } where
  since := h.since
  aims _ _ hd := by cases hd
  passed := by
    obtain ⟨done, failed, hnames, hstdout, hdone⟩ := h.passed
    rw [hcurrent] at hnames
    have hnames' : names = (done ++ [name]) ++ r.todo := by
      rw [hnames, List.append_assoc]
      rfl
    obtain ⟨rfl, hgone⟩ | ⟨err, rfl⟩ := hlines
    · refine ⟨done ++ [name], failed, hnames', ?_, fun id hid => ?_⟩
      · show r.stdout ++ [] = _
        rw [List.append_nil, hstdout]
      · obtain hid | hid := List.mem_append.mp hid
        · exact hdone id hid
        · rw [List.mem_singleton.mp hid]
          exact .inr hgone
    · refine ⟨done ++ [name], failed ++ [(name, err)], hnames', ?_, fun id hid => ?_⟩
      · show r.stdout ++ destroyError name err = _
        rw [hstdout, errorLines_concat]
      · rw [List.map_append, List.mem_append]
        obtain hid | hid := List.mem_append.mp hid
        · exact (hdone id hid).imp_left .inl
        · rw [List.mem_singleton.mp hid]
          exact .inl (.inr List.mem_cons_self)
  returned err herr := by
    obtain ⟨hnone, -⟩ := h.returned err herr
    rw [hcurrent] at hnone
    cases hnone

end Inv

/-- Every step of the loop, and of anybody else. -/
theorem step_inv (hs : s.Listed) {op : RmOp} (h : Inv s names r) (hstep : r.step op = some r') :
    Inv s names r' := by
  cases op with
  | other op =>
    cases op with
    | restart => cases hstep
    | create id created command args image config =>
      obtain ⟨site, hsite, rfl⟩ := Option.map_eq_some_iff.mp hstep
      exact h.listing hs (Site.Listing.step (by simp) hsite)
    | act k a =>
      obtain ⟨site, hsite, rfl⟩ := Option.map_eq_some_iff.mp hstep
      exact h.listing hs (Site.Listing.step (by simp) hsite)
  | get =>
    simp only [step] at hstep
    split at hstep
    · next hreturned hcurrent htodo =>
      cases hstep
      exact ⟨h.since, h.aims, h.passed,
        fun err herr => ⟨hcurrent, .inl ⟨(Option.some.inj herr).symm, htodo⟩⟩⟩
    · next name rest hreturned hcurrent htodo =>
      split at hstep
      · next hnone =>
        cases hstep
        refine ⟨h.since, h.aims, h.passed, fun err herr => ?_⟩
        refine ⟨hcurrent, .inr ⟨name, rest, htodo, (Option.some.inj herr).symm, ?_⟩⟩
        intro k hk hid hmem
        apply Site.getContainerElement_free hnone hmem
        rw [h.since.ids k (hs.inHeap k hk), hid]
      · next k hsome =>
        cases hstep
        refine ⟨h.since, fun name' d hd => ?_, ?_, fun err herr => ?_⟩
        · cases hd
          exact (Site.getContainerElement_mem hsome).2
        · obtain ⟨done, failed, hnames, hstdout, hdone⟩ := h.passed
          rw [hcurrent, htodo] at hnames
          exact ⟨done, failed, hnames, hstdout, hdone⟩
        · exact absurd (hreturned.symm.trans herr) (by simp)
    · cases hstep
  | lookup =>
    simp only [step] at hstep
    split at hstep
    · next name k hcurrent =>
      obtain ⟨o, ho, heq⟩ := Option.map_eq_some_iff.mp hstep
      have hid : r.site.idAt k = some name := h.aims name _ hcurrent
      rw [Site.idAt_of_some ho] at hid
      split at heq
      · cases heq
        exact h.next hcurrent (.inr ⟨_, rfl⟩)
      · next element hsome =>
        cases heq
        obtain ⟨hmem, helem⟩ := Site.getContainerElement_mem hsome
        refine h.goOn hcurrent ⟨(Site.idAt_of_some ho).trans hid, fun j hj hid' => ?_⟩
        -- of the listed containers one has the name
        by_cases hj' : j ∈ r.site.containers
        · refine .inl (h.since.listed.distinct j hj' element hmem ?_)
          rw [h.since.ids j (hs.inHeap j hj), hid', helem, hid]
        · exact .inr hj'
    · cases hstep
  | destroy err =>
    obtain ⟨name, k, call, hcurrent⟩ := current_of_destroy hstep
    obtain ⟨site, hlisting, hcases⟩ := destroy_cases hcurrent hstep
    have hsite := h.listing hs hlisting
    have haims := hsite.aims name _ hcurrent
    obtain ⟨pc, -, rfl⟩ | ⟨text, -, -, rfl⟩ | ⟨hlist, rfl⟩ := hcases
    · exact hsite.goOn hcurrent haims
    · exact hsite.next hcurrent (.inr ⟨text, rfl⟩)
    · have hnext := hsite.next hcurrent (.inl ⟨rfl, ?_⟩)
      · rwa [List.append_nil] at hnext
      · intro j hj hid hmem
        obtain rfl | hgone := haims.2 j hj hid
        · rw [hlist] at hmem
          exact absurd rfl (h.since.listed.nodup.mem_erase_iff.mp hmem).1
        · exact hgone hmem

theorem run_inv (hs : s.Listed) {ops : List RmOp}
    (hrun : (rmSystem α).run (start s names) ops = some r) : Inv s names r :=
  (rmSystem α).run_invariant (fun _ _ _ h hstep => step_inv hs h hstep) (start_inv hs names) hrun

end Rm

/-- `rm` in the middle of everything else that works on the containers. When it has returned, it
    has got through all names, or up to one that no container of the beginning has any more.
    For each name that it got through, the containers that had it in the beginning are not listed
    any more, or there is a line of output with an error about the name. -/
theorem rm_removes {s : Site α} (h : (siteSystem α).Reachable s)
    {names : List GoString} {ops : List RmOp} {r : Rm α}
    (hrun : (rmSystem α).run (Rm.start s names) ops = some r) {err : Option GoString}
    (hreturned : r.returned = some err) :
    ∃ done rest failed, names = done ++ rest ∧
      (err = none ∧ rest = [] ∨ ∃ name rest', rest = name :: rest' ∧
        err = some (noSuchContainer name) ∧ Gone s r.site name) ∧
      r.stdout = errorLines failed ∧
      ∀ name ∈ done, name ∈ failed.map Prod.fst ∨ Gone s r.site name := by
  have hinv := Rm.run_inv (Site.reachable_listed h) hrun
  obtain ⟨done, failed, hnames, hstdout, hdone⟩ := hinv.passed
  obtain ⟨hcurrent, hend⟩ := hinv.returned err hreturned
  rw [hcurrent] at hnames
  refine ⟨done, r.todo, failed, hnames, ?_, hstdout, hdone⟩
  obtain hall | ⟨name, rest, htodo, herr, hgone⟩ := hend
  · exact .inl hall
  · exact .inr ⟨name, rest, htodo, herr, hgone⟩

/-- Two containers that do not run. -/
def twoSites : Site Unit :=
  (((oneImageSite.step (createPlain "a" 1)).bind fun s => s.step (createPlain "b" 2))).getD
    oneImageSite

theorem twoSites_reachable : (siteSystem Unit).Reachable twoSites :=
  System.Reachable.run (oneImageSite_reachable _) [createPlain "a" 1, createPlain "b" 2] rfl

/-- The steps of a `Destroy` of a container that has not been mounted. -/
def destroyUnmounted : List RmOp := List.replicate 4 (.destroy none)

/-- A name that is given twice: the container is removed, and then it is unknown. -/
theorem rm_removes_twice :
    ∃ r : Rm Unit, r.returned = some (some (noSuchContainer (str "a"))) ∧ r.todo = [str "a"] ∧
      ∃ done rest failed, [str "a", str "a"] = done ++ rest ∧
        (some (noSuchContainer (str "a")) = none ∧ rest = [] ∨ ∃ name rest',
          rest = name :: rest' ∧
            some (noSuchContainer (str "a")) = some (noSuchContainer name) ∧
            Gone twoSites r.site name) ∧
        r.stdout = errorLines failed ∧
        ∀ name ∈ done, name ∈ failed.map Prod.fst ∨ Gone twoSites r.site name :=
  ⟨_, rfl, rfl, @rm_removes Unit twoSites twoSites_reachable [str "a", str "a"]
    ([.get, .lookup] ++ destroyUnmounted ++ [.other (createPlain "c" 3), .get]) _ rfl _ rfl⟩

/-! ## Removing everything -/

/-- Nobody else removes a container or ends the daemon. -/
def RmOp.Quiet : RmOp → Prop
  | .other .restart => False
  | .other op => op.destroys = false
  | .get | .lookup | .destroy _ => True

instance : (op : RmOp) → Decidable op.Quiet
  | .other .restart => inferInstanceAs (Decidable False)
  | .other (.create ..) => inferInstanceAs (Decidable (false = false))
  | .other (.act _ a) => inferInstanceAs (Decidable ((SiteOp.act 0 a).destroys = false))
  | .get | .lookup | .destroy _ => inferInstanceAs (Decidable True)

/-- The container of the name at hand is listed. -/
def Destroying.Known (site : Site α) (name : GoString) : Destroying → Prop
  | .lookup k => k ∈ site.containers ∧ site.idAt k = some name
  | .call k c => site.idAt k = some name ∧
    c.element ∈ site.containers ∧ site.idAt c.element = some name

/-- The names of the containers that have not been removed. -/
def Rm.left (r : Rm α) (failed : List (GoString × GoString)) : List GoString :=
  failed.map Prod.fst ++ ((r.current.map Prod.fst).toList ++ r.todo)

/-- How far a `CmdRm` has got that nobody else disturbs, with the names for which `Stop` failed. -/
structure Rm.Finds (s : Site α) (ops : List RmOp) (r : Rm α)
    (failed : List (GoString × GoString)) : Prop where
  since : s.Since r.site
  nodup : (r.left failed).Nodup
  names : ∀ name ∈ r.left failed, ∃ k ∈ s.containers, s.idAt k = some name
  keeps : ∀ k ∈ s.containers, ∀ name, s.idAt k = some name →
    (k ∈ r.site.containers ↔ name ∈ r.left failed)
  current : ∀ name d, r.current = some (name, d) → d.Known r.site name
  stdout : r.stdout = errorLines failed
  errors : ∀ e ∈ failed, RmOp.destroy (some e.2) ∈ ops
  returned : ∀ err, r.returned = some err → err = none ∧ r.current = none ∧ r.todo = []

namespace Rm

variable {ops : List RmOp} {r r' : Rm α} {failed : List (GoString × GoString)}

namespace Finds

/-- A container whose name is left is listed. -/
theorem listed (hs : s.Listed) (h : Finds s ops r failed) {name : GoString}
    (hname : name ∈ r.left failed) : ∃ k ∈ r.site.containers, r.site.idAt k = some name := by
  obtain ⟨k, hk, hid⟩ := h.names name hname
  refine ⟨k, (h.keeps k hk name hid).mpr hname, ?_⟩
  rw [h.since.ids k (hs.inHeap k hk), hid]

theorem listing (hs : s.Listed) (h : Finds s ops r failed) {site : Site α}
    (hlisting : Site.Listing r.site site false) : Finds s ops { r with site } failed where
  since := h.since.listing hlisting
  nodup := h.nodup
  names := h.names
  keeps k hk name hid := by
    refine Iff.trans ⟨fun hmem => ?_, hlisting.keeps⟩ (h.keeps k hk name hid)
    by_contra hgone
    exact hlisting.gone (Nat.lt_of_lt_of_le (hs.inHeap k hk) h.since.length) hgone hmem
  current name d hd := by
    have hknown := h.current name d hd
    cases d with
    | lookup k => exact ⟨hlisting.keeps hknown.1, hlisting.idAt hknown.2⟩
    | call k c =>
      exact ⟨hlisting.idAt hknown.1, hlisting.keeps hknown.2.1, hlisting.idAt hknown.2.2⟩
  stdout := h.stdout
  errors := h.errors
  returned := h.returned

theorem working (h : Finds s ops r failed) {name : GoString} {d : Destroying}
    (hcurrent : r.current = some (name, d)) : r.returned = none := by
  cases hreturned : r.returned with
  | none => rfl
  | some err =>
    obtain ⟨-, hnone, -⟩ := h.returned err hreturned
    rw [hcurrent] at hnone
    cases hnone

/-- A step that at most goes on with the name at hand, or takes the next one. -/
theorem goOn (h : Finds s ops r failed) {todo : List GoString} {name : GoString} {d : Destroying}
    (hleft : (r.current.map Prod.fst).toList ++ r.todo = name :: todo)
    (hreturned : r.returned = none) (hknown : d.Known r.site name) :
    Finds s ops { r with todo, current := some (name, d) } failed := by
  have heq : Rm.left { r with todo, current := some (name, d) } failed = r.left failed := by
    rw [Rm.left, Rm.left, hleft]
    rfl
  refine ⟨h.since, heq ▸ h.nodup, heq ▸ h.names, fun k hk name' hid => ?_, fun name' d' hd => ?_,
    h.stdout, h.errors, fun err herr => ?_⟩
  · rw [heq]
    exact h.keeps k hk name' hid
  · cases hd
    exact hknown
  · rw [show r.returned = some err from herr] at hreturned
    cases hreturned

/-- `Stop` has failed. -/
theorem stopFails (h : Finds s ops r failed) {name err : GoString} {d : Destroying}
    (hcurrent : r.current = some (name, d)) (herr : RmOp.destroy (some err) ∈ ops) :
    Finds s ops (r.report name err) (failed ++ [(name, err)]) := by
  have heq : (r.report name err).left (failed ++ [(name, err)]) = r.left failed := by
    rw [Rm.left, Rm.left, hcurrent, List.map_append, List.append_assoc]
    rfl
  refine ⟨h.since, heq ▸ h.nodup, heq ▸ h.names, fun k hk name' hid => ?_, fun _ _ hd => ?_,
    ?_, fun e he => ?_, fun err' herr' => ?_⟩
  · rw [heq]
    exact h.keeps k hk name' hid
  · cases hd
  · rw [errorLines_concat, ← h.stdout]
    rfl
  · obtain he | he := List.mem_append.mp he
    · exact h.errors e he
    · rw [List.mem_singleton.mp he]
      exact herr
  · exact absurd ((h.working hcurrent).symm.trans herr') (by simp)

/-- The element leaves the list, and its name is not left any more. -/
theorem remove (hs : s.Listed) (h : Finds s ops r failed) {name : GoString} {k : Nat}
    {call : DestroyCall} (hcurrent : r.current = some (name, .call k call)) {site : Site α}
    (hlisting : Site.Listing r.site site true)
    (hlist : site.containers = r.site.containers.erase call.element) :
    Finds s ops { r with site, current := none } failed := by
  obtain ⟨-, helem, hid⟩ := h.current name _ hcurrent
  have hleft : r.left failed = failed.map Prod.fst ++ name :: r.todo := by
    rw [Rm.left, hcurrent]
    rfl
  have hmem : ∀ name', name' ∈ Rm.left { r with site, current := none } failed ↔
      name' ∈ r.left failed ∧ name' ≠ name := by
    intro name'
    have hnodup := h.nodup
    rw [hleft, List.nodup_middle, List.nodup_cons] at hnodup
    show name' ∈ failed.map Prod.fst ++ r.todo ↔ _
    rw [hleft, List.mem_append, List.mem_append, List.mem_cons]
    rw [List.mem_append] at hnodup
    grind
  refine ⟨h.since.listing hlisting, ?_, fun name' hname' => ?_, fun j hj name' hid' => ?_,
    fun _ _ hd => ?_, h.stdout, h.errors, fun err herr => ?_⟩
  · have hnodup := h.nodup
    rw [hleft, List.nodup_middle, List.nodup_cons] at hnodup
    exact hnodup.2
  · exact h.names name' ((hmem name').mp hname').1
  · show j ∈ site.containers ↔ _
    rw [hlist, h.since.listed.nodup.mem_erase_iff, hmem, h.keeps j hj name' hid', and_comm]
    refine and_congr_right fun hname' => not_congr ?_
    have hidj : r.site.idAt j = some name' := (h.since.ids j (hs.inHeap j hj)).trans hid'
    constructor
    · rintro rfl
      exact Option.some.inj (hidj.symm.trans hid)
    · rintro rfl
      apply h.since.listed.distinct j ((h.keeps j hj name' hid').mpr hname') _ helem
      rw [hidj, hid]
  · cases hd
  · obtain ⟨-, hnone, -⟩ := h.returned err herr
    rw [hcurrent] at hnone
    cases hnone

end Finds

/-- A container that is listed is found. -/
theorem found (hk : k ∈ s.containers) {id : GoString} (hid : s.idAt k = some id) :
    ∃ element, s.getContainerElement id = some element := by
  cases hfind : s.getContainerElement id with
  | none => exact absurd hid (Site.getContainerElement_free hfind hk)
  | some element => exact ⟨element, rfl⟩

/-- The next name is found. -/
theorem Finds.get (hs : s.Listed) (h : Finds s ops r failed) {name : GoString}
    {rest : List GoString} (htodo : r.todo = name :: rest) :
    ∃ k, r.site.getContainerElement name = some k := by
  have hleft : name ∈ r.left failed := by
    rw [Rm.left, htodo]
    exact List.mem_append_right _ (List.mem_append_right _ List.mem_cons_self)
  obtain ⟨k, hk, hid⟩ := h.listed hs hleft
  exact found hk hid

theorem step_finds (hs : s.Listed) {op : RmOp} (h : Finds s ops r failed) (hop : op.Quiet)
    (hmem : op ∈ ops) (hstep : r.step op = some r') : ∃ failed, Finds s ops r' failed := by
  cases op with
  | other op =>
    cases op with
    | restart => exact hop.elim
    | create id created command args image config =>
      obtain ⟨site, hsite, rfl⟩ := Option.map_eq_some_iff.mp hstep
      exact ⟨failed, h.listing hs (Site.Listing.step (by simp) hsite)⟩
    | act k a =>
      obtain ⟨site, hsite, rfl⟩ := Option.map_eq_some_iff.mp hstep
      have hlisting := Site.Listing.step (by simp) hsite
      have hdestroys : (SiteOp.act k a).destroys = false := hop
      rw [hdestroys] at hlisting
      exact ⟨failed, h.listing hs hlisting⟩
  | get =>
    simp only [step] at hstep
    split at hstep
    · next hreturned hcurrent htodo =>
      cases hstep
      refine ⟨failed, h.since, h.nodup, h.names, h.keeps, h.current, h.stdout, h.errors, ?_⟩
      intro err herr
      cases herr
      exact ⟨rfl, hcurrent, htodo⟩
    · next name rest hreturned hcurrent htodo =>
      obtain ⟨element, helem⟩ := h.get hs htodo
      rw [helem] at hstep
      cases hstep
      refine ⟨failed, h.goOn ?_ hreturned (Site.getContainerElement_mem helem)⟩
      rw [hcurrent, htodo]
      rfl
    · cases hstep
  | lookup =>
    simp only [step] at hstep
    split at hstep
    · next name k hcurrent =>
      obtain ⟨o, ho, heq⟩ := Option.map_eq_some_iff.mp hstep
      obtain ⟨hk, hid⟩ := h.current name _ hcurrent
      obtain ⟨element, helem⟩ := found hk hid
      have hname := (Site.idAt_of_some ho).symm.trans hid
      rw [Option.some.inj hname, helem] at heq
      cases heq
      refine ⟨failed, h.goOn ?_ ?_ ⟨hid, Site.getContainerElement_mem helem⟩⟩
      · rw [hcurrent]
        rfl
      · exact h.working hcurrent
    · cases hstep
  | destroy err =>
    obtain ⟨name, k, call, hcurrent⟩ := current_of_destroy hstep
    obtain ⟨site, hlisting, hcases⟩ := destroy_cases hcurrent hstep
    obtain ⟨pc, hlist, rfl⟩ | ⟨text, rfl, hlist, rfl⟩ | ⟨hlist, rfl⟩ := hcases
    · have hsite := h.listing hs (hlisting.of_list hlist)
      have hknown := hsite.current name _ hcurrent
      refine ⟨failed, hsite.goOn ?_ (h.working hcurrent) hknown⟩
      show (r.current.map Prod.fst).toList ++ r.todo = _
      rw [hcurrent]
      rfl
    · have hsite := h.listing hs (hlisting.of_list hlist)
      exact ⟨_, hsite.stopFails hcurrent hmem⟩
    · exact ⟨failed, h.remove hs hcurrent hlisting hlist⟩

/-- The loop only ever waits for a container to stop. -/
theorem Finds.progress (hs : s.Listed) (h : Finds s ops r failed) (hreturned : r.returned = none) :
    (∃ op ∈ [RmOp.get, .lookup, .destroy none], (r.step op).isSome) ∨
    ∃ name k element o, r.current = some (name, .call k ⟨element, .stop⟩) ∧
      r.site.heap[k]? = some o ∧ o.container.state.running = true := by
  cases hcurrent : r.current with
  | none =>
    refine .inl ⟨.get, by simp, ?_⟩
    rw [step, hreturned, hcurrent]
    cases htodo : r.todo with
    | nil => rfl
    | cons name rest =>
      obtain ⟨element, helem⟩ := h.get hs htodo
      simp only [helem, Option.isSome_some]
  | some current =>
    obtain ⟨name, d⟩ := current
    have hknown := h.current name d hcurrent
    cases d with
    | lookup k =>
      obtain ⟨o, ho, -⟩ := Option.map_eq_some_iff.mp hknown.2
      refine .inl ⟨.lookup, by simp, ?_⟩
      simp only [step, hcurrent, ho, Option.map_some, Option.isSome_some]
    | call k call =>
      obtain ⟨o, ho, -⟩ := Option.map_eq_some_iff.mp hknown.1
      obtain ⟨hpc, hrunning⟩ | hgoes := r.site.destroyStep_waits o.container call
      · refine .inr ⟨name, k, call.element, o, ?_, ho, hrunning⟩
        rw [← hpc]
      · refine .inl ⟨.destroy none, by simp, ?_⟩
        obtain ⟨res, hres⟩ := Option.isSome_iff_exists.mp hgoes
        simp only [step, hcurrent, ho, Option.bind_some, Option.isNone_none, hres,
          Option.map_some, Option.isSome_some]

theorem start_finds (hs : s.Listed) (ops : List RmOp) (history : History) :
    Finds s ops (start s ((s.list history).map Container.id)) [] := by
  have hmem : ∀ name, name ∈ (s.list history).map Container.id ↔
      ∃ k ∈ s.containers, s.idAt k = some name := by
    intro name
    rw [((s.list_perm history).map _).mem_iff, Site.known_ids, List.mem_filterMap]
  refine ⟨.refl hs, ?_, fun name => (hmem name).mp, fun k hk name hid => ?_, fun _ _ h => ?_, rfl,
    fun _ h => absurd h List.not_mem_nil, fun _ h => ?_⟩
  · exact ((s.list_perm history).map _).nodup_iff.mpr hs.known_ids_nodup
  · exact ⟨fun _ => (hmem name).mpr ⟨k, hk, hid⟩, fun _ => hk⟩
  · cases h
  · cases h

end Rm

end Docker.Restore
