import DockerEngine.Native.Create
import DockerEngine.Spec.Restore

/-!
# One container for each id

`Create` looks for the id in the list long before it appends to the list, so two calls can
both find that the id is free. But the path of the mountpoint follows from the id and is the
primary key of a table whose rows nobody removes here: of all calls with one id, only one
gets past the insertion.

- `CreateCall.step_cases`: what a step of a call does to the daemon
- `create_unique`: the ids in the list, and the calls that succeed
- `create_undisturbed`: a call whose steps nothing comes between is `Site.create`
-/

namespace Docker.Restore

open Go

variable {α : Type}

/-! ## Progress of a call -/

namespace CreatePc

/-- The call has found the id free, and has not failed. -/
def scanned : CreatePc → Bool
  | scan | done (.error _) => false
  | _ => true

/-- The call has inserted its row, and has not failed. -/
def inserted : CreatePc → Bool
  | scan | insert | done (.error _) => false
  | _ => true

/-- The call has returned without an error. -/
def returned : CreatePc → Bool
  | done (.ok _) => true
  | _ => false

/-- The container at hand. -/
def container? : CreatePc → Option Container
  | mkdir c | stdoutLog c | stderrLog c | save c | pushBack c => some c
  | _ => none

theorem inserted_of_returned {pc : CreatePc} (h : pc.returned = true) : pc.inserted = true := by
  cases pc with
  | done result =>
    cases result with
    | error err => simp [returned] at h
    | ok k => rfl
  | _ => simp [returned] at h

theorem scanned_of_inserted {pc : CreatePc} (h : pc.inserted = true) : pc.scanned = true := by
  cases pc with
  | scan => simp [inserted] at h
  | insert => rfl
  | done result =>
    cases result with
    | error err => simp [inserted] at h
    | ok k => rfl
  | _ => rfl

end CreatePc

theorem CreatePc.inserted_of_container {pc : CreatePc} {c : Container}
    (h : pc.container? = some c) : pc.inserted = true ∧ pc.returned = false := by
  cases pc <;> simp [container?, inserted, returned] at h ⊢

/-- The primary key of the row that a container with this id has. -/
def Site.key (s : Site α) (id : GoString) : GoString :=
  clean (pathJoin [s.dirPath id, str "rootfs"])

/-- An insertion fails and does nothing, or the key was free and a row is added. -/
theorem mountpoint_cases {store store' : Store α} {image : Image} {root rw : GoString}
    {err : Option GoString} {row : Except GoString Mountpoint}
    (h : store.mountpoint image root rw err = (row, store')) :
    ((∃ text, row = .error text) ∧ store' = store) ∨
    ∃ mp, row = .ok mp ∧ mp.root = clean root ∧
      clean root ∉ store.mountpoints.map Mountpoint.root ∧
      store' = { store with mountpoints := store.mountpoints ++ [mp] } := by
  cases err with
  | some text =>
    cases h
    exact .inl ⟨⟨text, rfl⟩, rfl⟩
  | none =>
    cases row with
    | error text => exact .inl ⟨⟨text, rfl⟩, Daemon.mountpoint_error h⟩
    | ok mp =>
      obtain ⟨rfl, hkey, hstore⟩ := Daemon.mountpoint_ok h
      exact .inr ⟨_, rfl, rfl, hkey, hstore⟩

/-- A step fails, finds the id free, inserts the row, goes on with files, or appends to the
    list. -/
inductive CreateCall.Moves (s : Site α) (call : CreateCall) : Site α → CreatePc → Prop where
  | fail {text : GoString} (hpc : call.pc.returned = false) : Moves s call s (.done (.error text))
  | scan (hpc : call.pc = .scan) (hnone : s.getContainerElement call.id = none) :
      Moves s call s .insert
  | insert {c : Container} {mp : Mountpoint} (hpc : call.pc = .insert) (hid : c.id = call.id)
      (hroot : mp.root = s.key call.id)
      (hkey : s.key call.id ∉ s.store.mountpoints.map Mountpoint.root) :
      Moves s call
        { s with store := { s.store with mountpoints := s.store.mountpoints ++ [mp] } } (.mkdir c)
  | files {c : Container} {dirs : List (GoString × Option Container)} {pc' : CreatePc}
      (hc : call.pc.container? = some c) (hc' : pc'.container? = some c) :
      Moves s call { s with dirs } pc'
  | pushBack {c : Container} (hpc : call.pc = .pushBack c) :
      Moves s call (s.pushBack c) (.done (.ok s.heap.length))

theorem CreateCall.step_cases {s s' : Site α} {call : CreateCall} {err : Option GoString}
    {pc' : CreatePc} (h : call.step s err = some (s', pc')) : call.Moves s s' pc' := by
  unfold CreateCall.step at h
  simp only at h
  split at h
  · next hpc =>
    split at h
    · cases h
      exact .fail (by rw [hpc]; rfl)
    · next hnone =>
      cases h
      exact .scan hpc (by simpa using hnone)
  -- the row of the mountpoint is inserted
  · next hpc =>
    split at h
    · next hrow =>
      obtain ⟨-, rfl⟩ | ⟨mp, hmp, -⟩ := mountpoint_cases hrow
      · cases h
        exact .fail (by rw [hpc]; rfl)
      · simp at hmp
    · next mp store hrow =>
      obtain ⟨⟨text, htext⟩, -⟩ | ⟨mp', hmp', hroot, hkey, rfl⟩ := mountpoint_cases hrow
      · simp at htext
      · cases hmp'
        cases h
        exact .insert hpc rfl hroot hkey
  -- then the directory is made and the files are written
  · next c hpc =>
    split at h
    · cases h
      exact .fail (by rw [hpc]; rfl)
    · split at h
      · cases h
        exact .fail (by rw [hpc]; rfl)
      · cases h
        exact .files (c := c) (by rw [hpc]; rfl) rfl
  · next c hpc =>
    split at h
    · cases h
      exact .fail (by rw [hpc]; rfl)
    · cases h
      exact .files (c := c) (by rw [hpc]; rfl) rfl
  · next c hpc =>
    split at h
    · cases h
      exact .fail (by rw [hpc]; rfl)
    · cases h
      exact .files (c := c) (by rw [hpc]; rfl) rfl
  · next c hpc =>
    split at h
    · cases h
      exact .fail (by rw [hpc]; rfl)
    · cases h
      exact .files (c := c) (by rw [hpc]; rfl) rfl
  · next c hpc =>
    cases h
    exact .pushBack hpc
  · simp at h

/-! ## The invariant -/

namespace Creates

/-- The ids of the containers the daemon knows. -/
def ids (s : Creates α) : List GoString := s.site.known.map Container.id

/-- The keys of the mountpoints table. -/
def keys (s : Creates α) : List GoString := s.site.store.mountpoints.map Mountpoint.root

/-- `loaded` are the ids the daemon started with. The others belong to calls that returned; a
    call that has inserted its row and did not fail is the only one with its id. -/
structure Inv (loaded : List GoString) (s : Creates α) : Prop where
  inHeap : ∀ k ∈ s.site.containers, k < s.site.heap.length
  nodup : s.ids.Nodup
  kept : ∀ id ∈ loaded, id ∈ s.ids
  origin : ∀ id ∈ s.ids, id ∈ loaded ∨ ∃ call ∈ s.calls, call.id = id ∧ call.pc.returned = true
  fresh : ∀ call ∈ s.calls, call.pc.scanned = true → call.id ∉ loaded
  made : ∀ call ∈ s.calls, ∀ c, call.pc.container? = some c → c.id = call.id
  unique : ∀ id, s.calls.countP (fun call => call.pc.inserted && call.id = id) ≤ 1
  row : ∀ call ∈ s.calls, call.pc.inserted = true → s.site.key call.id ∈ s.keys

variable {s : Creates α} {loaded : List GoString} {i : Nat} {call : CreateCall}

/-- An id under which the daemon finds nothing is not in its list. -/
theorem notMem_ids {id : GoString} (h : s.site.getContainerElement id = none) : id ∉ s.ids := by
  intro hmem
  obtain ⟨c, hc, rfl⟩ := List.mem_map.mp hmem
  obtain ⟨k, hk, hkc⟩ := List.mem_filterMap.mp hc
  obtain ⟨o, ho, rfl⟩ := Option.map_eq_some_iff.mp hkc
  exact Site.Inv.getContainerElement_none h hk (Site.keptAt_of_some ho) rfl

/-- A daemon that has just loaded its containers. -/
theorem Inv.init (hs : s.Loaded) : s.Inv s.ids := by
  obtain ⟨s₀, hnames, hsaved, hsite, hcalls⟩ := hs
  have hids : s.ids = s₀.restore.map Container.id := by
    rw [ids, hsite, Site.Inv.known_newFromDirectory]
  have hnone : ∀ call, call ∉ s.calls := by simp [hcalls]
  refine ⟨fun k hk => ?_, ?_, fun _ hid => hid, fun _ hid => .inl hid, fun call hcall => ?_,
    fun call hcall => ?_, fun id => ?_, fun call hcall => ?_⟩
  · rw [hsite] at hk ⊢
    have hlength : s₀.newFromDirectory.heap.length = s₀.restore.length := List.length_map _
    rw [hlength]
    exact List.mem_range.mp hk
  · rw [hids]
    exact Site.restore_ids_nodup hnames hsaved
  · exact absurd hcall (hnone call)
  · exact absurd hcall (hnone call)
  · simp [hcalls]
  · exact absurd hcall (hnone call)

/-- A step of the call at position `i`, which appends to the list at most the id of the call. -/
theorem Inv.setCall (h : s.Inv loaded) (hi : s.calls[i]? = some call) {s' : Creates α}
    {pc : CreatePc} (hcalls : s'.calls = s.calls.set i { call with pc })
    (hrepository : s'.site.repository = s.site.repository)
    (hinHeap : ∀ k ∈ s'.site.containers, k < s'.site.heap.length)
    (hids : s'.ids = s.ids ∨ (s'.ids = s.ids ++ [call.id] ∧ call.id ∉ s.ids ∧ pc.returned = true))
    (hreturned : call.pc.returned = false)
    (hfresh : pc.scanned = true → call.id ∉ loaded)
    (hmade : ∀ c, pc.container? = some c → c.id = call.id)
    (hkeys : ∀ key ∈ s.keys, key ∈ s'.keys)
    (hrow : pc.inserted = true → call.pc.inserted = true ∨
      (s.site.key call.id ∉ s.keys ∧ s.site.key call.id ∈ s'.keys)) : s'.Inv loaded := by
  have hmem : call ∈ s.calls := List.mem_of_getElem? hi
  have hkey : s'.site.key = s.site.key := by
    funext id
    rw [Site.key, Site.key, Site.dirPath, Site.dirPath, hrepository]
  have hlt := (List.getElem?_eq_some_iff.mp hi).1
  have hnew : { call with pc } ∈ s'.calls := by
    rw [hcalls]
    exact List.mem_set hlt _
  -- a call that has returned is another one
  have hother : ∀ c ∈ s.calls, c.pc.returned = true → c ∈ s'.calls := by
    intro c hc hret
    obtain ⟨l₁, l₂, hl, hset, -⟩ := List.exists_cut hi
    rw [hl, List.mem_append, List.mem_cons] at hc
    rw [hcalls, hset, List.mem_append, List.mem_cons]
    obtain hc | rfl | hc := hc
    · exact .inl hc
    · rw [hreturned] at hret
      simp at hret
    · exact .inr (.inr hc)
  refine ⟨hinHeap, ?_, fun id hid => ?_, fun id hid => ?_, fun c hc hpc => ?_,
    fun c hc con hcon => ?_, fun id => ?_, fun c hc hpc => ?_⟩
  · obtain heq | ⟨heq, hnotMem, -⟩ := hids
    · rw [heq]
      exact h.nodup
    · have hnodup := h.nodup.concat hnotMem
      rwa [List.concat_eq_append, ← heq] at hnodup
  · obtain heq | ⟨heq, -⟩ := hids
    · rw [heq]
      exact h.kept id hid
    · rw [heq]
      exact List.mem_append_left _ (h.kept id hid)
  · have hold : id ∈ s.ids → id ∈ loaded ∨
        ∃ call ∈ s'.calls, call.id = id ∧ call.pc.returned = true := by
      intro hid
      obtain hid | ⟨c, hc, hcid, hret⟩ := h.origin id hid
      · exact .inl hid
      · exact .inr ⟨c, hother c hc hret, hcid, hret⟩
    obtain heq | ⟨heq, -, hret⟩ := hids
    · exact hold (heq ▸ hid)
    · rw [heq, List.mem_append, List.mem_singleton] at hid
      obtain hid | rfl := hid
      · exact hold hid
      · exact .inr ⟨_, hnew, rfl, hret⟩
  · rw [hcalls] at hc
    obtain hc | rfl := List.mem_or_eq_of_mem_set hc
    · exact h.fresh c hc hpc
    · exact hfresh hpc
  · rw [hcalls] at hc
    obtain hc | rfl := List.mem_or_eq_of_mem_set hc
    · exact h.made c hc con hcon
    · exact hmade con hcon
  · rw [hcalls]
    have hcount := List.countP_set_add (p := fun call => call.pc.inserted && call.id = id)
      (b := { call with pc }) hi
    have hle := h.unique id
    by_cases hp : pc.inserted = true ∧ call.id = id
    · obtain ⟨hins, rfl⟩ := hp
      obtain hold | ⟨hkey', -⟩ := hrow hins
      · simp only [hold, hins, decide_true, Bool.and_self, if_true] at hcount
        omega
      · -- no other call with the id has inserted its row
        have hzero : s.calls.countP (fun c => c.pc.inserted && c.id = call.id) = 0 := by
          apply List.countP_eq_zero.mpr
          intro c hc hpc
          obtain ⟨hins', hid'⟩ := Bool.and_eq_true_iff.mp hpc
          have hrow' := h.row c hc hins'
          rw [of_decide_eq_true hid'] at hrow'
          exact hkey' hrow'
        simp only [hins, decide_true, Bool.and_self, if_true] at hcount
        omega
    · have hfalse : (pc.inserted && decide (call.id = id)) = false := by simpa using hp
      simp only [hfalse, Bool.false_eq_true, if_false] at hcount
      omega
  · rw [hcalls] at hc
    rw [hkey]
    obtain hc | rfl := List.mem_or_eq_of_mem_set hc
    · exact hkeys _ (h.row c hc hpc)
    · obtain hins | ⟨-, hmem'⟩ := hrow hpc
      · exact hkeys _ (h.row call hmem hins)
      · exact hmem'

/-- A call that is to append to the list finds its id neither loaded nor appended by another
    call. -/
theorem Inv.pushBack_notMem (h : s.Inv loaded) (hcall : call ∈ s.calls) {c : Container}
    (hpc : call.pc = .pushBack c) : call.id ∉ s.ids := by
  have hins : call.pc.inserted = true := by
    rw [hpc]
    rfl
  intro hmem
  obtain hload | ⟨call', hcall', hid, hret⟩ := h.origin _ hmem
  · exact h.fresh call hcall (CreatePc.scanned_of_inserted hins) hload
  · have hins' := CreatePc.inserted_of_returned hret
    have heq : call = call' :=
      List.eq_of_countP_le_one (h.unique call.id) hcall hcall' (by simp [hins])
        (by simp [hins', hid])
    rw [← heq, hpc] at hret
    simp [CreatePc.returned] at hret

theorem Inv.addCall (h : s.Inv loaded) (hpc : call.pc = .scan) :
    Inv loaded { s with calls := s.calls ++ [call] } := by
  refine ⟨h.inHeap, h.nodup, h.kept, fun id hid => ?_, fun c hc hs => ?_, fun c hc con hcon => ?_,
    fun id => ?_, fun c hc hs => ?_⟩
  · obtain hload | ⟨c, hc, hret⟩ := h.origin id hid
    · exact .inl hload
    · exact .inr ⟨c, List.mem_append_left _ hc, hret⟩
  · obtain hc | hc := List.mem_append.mp hc
    · exact h.fresh c hc hs
    · rw [List.mem_singleton.mp hc, hpc] at hs
      simp [CreatePc.scanned] at hs
  · obtain hc | hc := List.mem_append.mp hc
    · exact h.made c hc con hcon
    · rw [List.mem_singleton.mp hc, hpc] at hcon
      simp [CreatePc.container?] at hcon
  · have hle := h.unique id
    have hins : call.pc.inserted = false := by
      rw [hpc]
      rfl
    simp only [List.countP_append, List.countP_singleton, hins, Bool.false_and,
      Bool.false_eq_true, if_false]
    omega
  · obtain hc | hc := List.mem_append.mp hc
    · exact h.row c hc hs
    · rw [List.mem_singleton.mp hc, hpc] at hs
      simp [CreatePc.inserted] at hs

theorem Inv.step (h : s.Inv loaded) {op : CreatesOp} {s' : Creates α}
    (hstep : s.step op = some s') : s'.Inv loaded := by
  cases op with
  | call id created command args image config =>
    simp only [Creates.step] at hstep
    split at hstep
    · cases hstep
      exact h.addCall rfl
    · simp at hstep
  | step i err =>
    obtain ⟨call, hi, hmap⟩ := Option.bind_eq_some_iff.mp hstep
    obtain ⟨⟨site, pc⟩, hmove, rfl⟩ := Option.map_eq_some_iff.mp hmap
    have hmem : call ∈ s.calls := List.mem_of_getElem? hi
    cases CreateCall.step_cases hmove with
    | fail hret =>
      exact h.setCall hi rfl rfl h.inHeap (.inl rfl) hret (by simp [CreatePc.scanned])
        (by simp [CreatePc.container?]) (fun _ hk => hk) (by simp [CreatePc.inserted])
    | scan hpc hnone =>
      -- nothing that was loaded has an id that is free
      have hfresh : call.id ∉ loaded := fun hload => notMem_ids hnone (h.kept _ hload)
      exact h.setCall hi rfl rfl h.inHeap (.inl rfl) (by rw [hpc]; rfl) (fun _ => hfresh)
        (by simp [CreatePc.container?]) (fun _ hk => hk) (by simp [CreatePc.inserted])
    | @insert c mp hpc hid hroot hkey =>
      have hkeys : Creates.keys ⟨{ s.site with store := { s.site.store with
          mountpoints := s.site.store.mountpoints ++ [mp] } }, s.calls.set i
            { call with pc := .mkdir c }⟩ = s.keys ++ [mp.root] := by
        rw [keys, List.map_append, List.map_singleton]
        rfl
      have hfresh : call.id ∉ loaded := h.fresh call hmem (by rw [hpc]; rfl)
      have hmade : ∀ c', (CreatePc.mkdir c).container? = some c' → c'.id = call.id := by
        intro c' hc'
        cases hc'
        exact hid
      -- the key was free, so no other call has inserted it
      refine h.setCall hi rfl rfl h.inHeap (.inl rfl) (by rw [hpc]; rfl) (fun _ => hfresh) hmade
        (fun key hk => ?_) (fun _ => .inr ⟨hkey, ?_⟩)
      · rw [hkeys]
        exact List.mem_append_left _ hk
      · rw [hkeys, hroot]
        exact List.mem_append_right _ (List.mem_singleton_self _)
    | @files c dirs _ hcon hcon' =>
      obtain ⟨hins, hret⟩ := CreatePc.inserted_of_container hcon
      have hfresh : call.id ∉ loaded := h.fresh call hmem (CreatePc.scanned_of_inserted hins)
      have hmade : ∀ c', pc.container? = some c' → c'.id = call.id := by
        intro c' hc'
        cases hcon'.symm.trans hc'
        exact h.made call hmem c hcon
      exact h.setCall hi rfl rfl h.inHeap (.inl rfl) hret (fun _ => hfresh) hmade (fun _ hk => hk)
        fun _ => .inl hins
    | @pushBack c hpc =>
      -- the list grows by the container of the call
      have hid : c.id = call.id := h.made call hmem c (by rw [hpc]; rfl)
      have hids : (s.site.pushBack c).known.map Container.id = s.ids ++ [call.id] := by
        rw [Site.known_pushBack h.inHeap, List.map_append, List.map_singleton, hid]
        rfl
      have hins : call.pc.inserted = true := by
        rw [hpc]
        rfl
      have hfresh : call.id ∉ loaded := h.fresh call hmem (CreatePc.scanned_of_inserted hins)
      exact h.setCall hi rfl rfl (Site.inHeap_pushBack h.inHeap c)
        (.inr ⟨hids, h.pushBack_notMem hmem hpc, rfl⟩) (by rw [hpc]; rfl) (fun _ => hfresh)
        (by simp [CreatePc.container?]) (fun _ hk => hk) fun _ => .inl hins

end Creates

/-- However the calls of `Create` alternate: the ids in the list are different at every point,
    and of the calls with one id at most one returns without an error. -/
theorem create_unique {s : Creates α} (h : (createsSystem α).Reachable s) :
    (s.site.known.map Container.id).Nodup ∧
    ∀ id, s.calls.countP (fun call => call.pc.returned && call.id = id) ≤ 1 := by
  have hinv : ∃ loaded, s.Inv loaded := by
    apply h.invariant
    · exact fun s hs => ⟨_, Creates.Inv.init hs⟩
    · rintro s op s' ⟨loaded, hs⟩ - hstep
      exact ⟨loaded, hs.step hstep⟩
  obtain ⟨loaded, hinv⟩ := hinv
  refine ⟨hinv.nodup, fun id => ?_⟩
  apply Nat.le_trans _ (hinv.unique id)
  apply List.countP_mono_left
  intro call _ hcall
  obtain ⟨hret, hid⟩ := Bool.and_eq_true_iff.mp hcall
  rw [CreatePc.inserted_of_returned hret, hid]
  rfl

/-- Two calls find the same id free. One gets its row into the table, and succeeds. -/
theorem create_unique_race :
    ∃ s : Creates Unit, (createsSystem Unit).Reachable s ∧
      (s.calls.map fun call => call.pc.returned) = [false, true] ∧
      (s.site.known.map Container.id).Nodup := by
  have hrestore : oneImageSite.restore = [] := by
    simp [Site.restore, Site.readDir, oneImageSite]
  have hsite : oneImageSite = oneImageSite.newFromDirectory := by
    rw [Site.newFromDirectory, hrestore]
    rfl
  have hinit : (createsSystem Unit).Reachable ⟨oneImageSite, []⟩ :=
    .init ⟨oneImageSite, List.nodup_nil, by simp [oneImageSite], hsite, rfl⟩
  have hs := hinit.run
    [.call (str "a") 1 (str "x") [] ⟨str "base", [], [], 0⟩ ⟨[], [], 0, 0, [], false, false⟩,
      .call (str "a") 2 (str "y") [] ⟨str "base", [], [], 0⟩ ⟨[], [], 0, 0, [], false, false⟩,
      .step 0 none, .step 1 none, .step 1 none, .step 0 none, .step 1 none, .step 1 none,
      .step 1 none, .step 1 none, .step 1 none] rfl
  exact ⟨_, hs, rfl, (create_unique hs).1⟩

/-! ## A call by itself -/

/-- One step more in front of a run of a call by itself. -/
theorem run_undisturbed_cons {s s' : Site α} {call : CreateCall} {pc pc' : CreatePc}
    {r : Creates α} (hmove : CreateCall.step s { call with pc } none = some (s', pc'))
    (hrun : ∃ n, (createsSystem α).run ⟨s', [{ call with pc := pc' }]⟩
      (List.replicate n (.step 0 none)) = some r) :
    ∃ n, (createsSystem α).run ⟨s, [{ call with pc }]⟩
      (List.replicate n (.step 0 none)) = some r := by
  obtain ⟨n, hn⟩ := hrun
  refine ⟨n + 1, ?_⟩
  have hstep : (createsSystem α).step ⟨s, [{ call with pc }]⟩ (.step 0 none) =
      some ⟨s', [{ call with pc := pc' }]⟩ := by
    simp only [createsSystem, Creates.step, List.getElem?_cons_zero, Option.bind_some, hmove,
      Option.map_some]
    rfl
  rw [List.replicate_succ, System.run_cons, hstep]
  exact hn

/-- A call whose steps nothing comes between, and none of whose operations fails, does what
    `Site.create` says. -/
theorem create_undisturbed {s s' : Site α} {call : CreateCall} {res : Except GoString Nat}
    (hcall : call.pc = .scan)
    (hcreate : s.create call.id call.created call.command call.args call.image call.config =
      (res, s')) :
    ∃ n, (createsSystem α).run ⟨s, [call]⟩ (List.replicate n (.step 0 none)) =
      some ⟨s', [{ call with pc := .done res }]⟩ := by
  have hnil : ∀ r : Creates α, ∃ n, (createsSystem α).run r
      (List.replicate n (.step 0 none)) = some r := fun _ => ⟨0, rfl⟩
  have hstart : call = { call with pc := .scan } := by rw [← hcall]
  rw [hstart]
  unfold Site.create at hcreate
  split at hcreate
  · next hexists =>
    cases hcreate
    apply run_undisturbed_cons _ (hnil _)
    simp only [CreateCall.step, if_pos hexists]
  next hnew =>
  have hscan : CreateCall.step s { call with pc := .scan } none = some (s, .insert) := by
    simp only [CreateCall.step]
    rw [if_neg hnew]
  apply run_undisturbed_cons hscan
  rcases hrow : s.store.mountpoint call.image (pathJoin [s.dirPath call.id, str "rootfs"])
    (pathJoin [s.dirPath call.id, str "rw"]) none with ⟨row, store⟩
  simp only [Site.createContainer, hrow] at hcreate
  cases row with
  | error err =>
    cases hcreate
    apply run_undisturbed_cons _ (hnil _)
    simp only [CreateCall.step, hrow]
  | ok mountpoint =>
    have hinsert : CreateCall.step s { call with pc := .insert } none =
        some ({ s with store }, .mkdir (call.container (s.dirPath call.id) mountpoint)) := by
      simp only [CreateCall.step, hrow]
      rfl
    apply run_undisturbed_cons hinsert
    by_cases hdir : Site.hasDir { s with store } (s.dirPath call.id) = true
    · simp only [if_pos hdir] at hcreate
      cases hcreate
      apply run_undisturbed_cons _ (hnil _)
      show (if Site.hasDir { s with store } (s.dirPath call.id) = true then _ else _) = _
      rw [if_pos hdir]
      rfl
    · simp only [if_neg hdir] at hcreate
      cases hcreate
      -- from now on the directory is there
      have hmade : Site.hasDir { s with store, dirs := s.dirs ++ [(call.id, none)] }
          (s.dirPath call.id) = true := by
        simp [Site.hasDir, Site.dirPath]
      have hmkdir : CreateCall.step { s with store }
          { call with pc := .mkdir (call.container (s.dirPath call.id) mountpoint) } none =
          some ({ s with store, dirs := s.dirs ++ [(call.id, none)] },
            .stdoutLog (call.container (s.dirPath call.id) mountpoint)) := by
        show (if Site.hasDir { s with store } (s.dirPath call.id) = true then _ else _) = _
        rw [if_neg hdir]
      have hlog : ∀ name, Site.openLog { s with store, dirs := s.dirs ++ [(call.id, none)] }
          (call.container (s.dirPath call.id) mountpoint) name none = none := by
        intro name
        show (if Site.hasDir { s with store, dirs := s.dirs ++ [(call.id, none)] }
          (s.dirPath call.id) = true then _ else _) = _
        rw [if_pos hmade]
      apply run_undisturbed_cons hmkdir
      apply run_undisturbed_cons (by simp only [CreateCall.step, hlog]; rfl)
      apply run_undisturbed_cons (by simp only [CreateCall.step, hlog]; rfl)
      apply run_undisturbed_cons (by simp only [CreateCall.step]; rfl)
      exact run_undisturbed_cons (by simp only [CreateCall.step]; rfl) (hnil _)

end Docker.Restore
