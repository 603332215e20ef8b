import DockerEngine.Native.Restore
import DockerEngine.Spec.Docker

/-!
# A restart keeps the containers

What a restart keeps of a container is all but its state. The invariant says that the files
in the repository hold just that of the containers the daemon knows, but for those that a
`Destroy` has removed already, and that each of these has its row in the mountpoints table until
a `Destroy` is past it. A container that the daemon has forgotten keeps its root, where another
one with its id may live by now; so it must neither be saved nor removed any more.

- `restore_perm`: what is loaded is what is known
- `restart_keeps`: in all runs in which nothing is done to the files of another container
-/

namespace Docker.Restore

open Go

variable {α : Type} {s : Site α} {k i : Nat} {o : Object} {call : DestroyCall}

namespace Site

/-- What the daemon finds under this id is the container at `k`, or nothing. -/
def FindsOnly (s : Site α) (id : GoString) (k : Nat) : Prop :=
  ∀ j ∈ s.getContainerElement id, j = k

instance (s : Site α) (id : GoString) (k : Nat) : Decidable (s.FindsOnly id k) :=
  inferInstanceAs (Decidable (∀ j ∈ s.getContainerElement id, j = k))

/-- What the daemon finds under the id of a container is this container, or nothing. -/
def OwnsId (s : Site α) (k : Nat) : Prop := ∀ o ∈ s.heap[k]?, s.FindsOnly o.container.id k

instance (s : Site α) (k : Nat) : Decidable (s.OwnsId k) :=
  inferInstanceAs (Decidable (∀ o ∈ s.heap[k]?, s.FindsOnly o.container.id k))

/-- What a `Destroy` removes is not that of another container, and nothing is mounted in it. -/
def RemovesOwn (s : Site α) (o : Object) (call : DestroyCall) : Prop :=
  match call.pc with
  | .delete => s.FindsOnly o.container.id call.element
  | .removeAll =>
    s.FindsOnly o.container.id call.element ∧ o.container.mountpoint.root ∉ s.mounted
  | .stop | .umount | .deregister | .remove => True

instance (s : Site α) (o : Object) : (call : DestroyCall) → Decidable (s.RemovesOwn o call)
  | ⟨element, .delete⟩ => inferInstanceAs (Decidable (s.FindsOnly o.container.id element))
  | ⟨element, .removeAll⟩ => inferInstanceAs (Decidable (s.FindsOnly o.container.id element ∧
      o.container.mountpoint.root ∉ s.mounted))
  | ⟨_, .stop⟩ | ⟨_, .umount⟩ | ⟨_, .deregister⟩ | ⟨_, .remove⟩ =>
    inferInstanceAs (Decidable True)

def calls (s : Site α) : List (List DestroyCall) := s.heap.map Object.destroys

/-- A `Destroy` has got past the row of the container at `k`. -/
def dropped (s : Site α) (k : Nat) : Bool := reached DestroyPc.past s.calls k

/-- A `Destroy` has removed the directory of the container at `k`. -/
def emptied (s : Site α) (k : Nat) : Bool := reached (fun pc => pc = .remove) s.calls k

/-- No `Destroy` of a known container is past its row. -/
def Settled (s : Site α) : Prop := ∀ k ∈ s.containers, s.dropped k = false

instance (s : Site α) : Decidable s.Settled :=
  inferInstanceAs (Decidable (∀ k ∈ s.containers, s.dropped k = false))

end Site

/-- A container is saved or removed only while the daemon knows no other one with its id, and the
    daemon is not restarted while a `Destroy` is half way. -/
def SavesOwn (s : Site α) : SiteOp → Prop
  | .act k .saveStarted | .act k .saveStopped => s.OwnsId k
  | .act k (.destroy i _) =>
    ∀ o ∈ s.heap[k]?, ∀ call ∈ o.destroys[i]?, s.RemovesOwn o call
  | .restart => s.Settled
  | _ => True

instance (s : Site α) : (op : SiteOp) → Decidable (SavesOwn s op)
  | .act k .saveStarted | .act k .saveStopped => inferInstanceAs (Decidable (s.OwnsId k))
  | .act k (.destroy i _) => inferInstanceAs (Decidable (∀ o ∈ s.heap[k]?,
      ∀ call ∈ o.destroys[i]?, s.RemovesOwn o call))
  | .restart => inferInstanceAs (Decidable s.Settled)
  | .act _ .ensureMounted | .act _ (.launch _) | .act _ .exit | .act _ (.report _)
  | .act _ .lookup | .create .. => inferInstanceAs (Decidable True)

/-! ## What is kept -/

@[simp] theorem stopped_id (c : Container) : c.stopped.id = c.id := rfl

@[simp] theorem stopped_root (c : Container) : c.stopped.root = c.root := rfl

@[simp] theorem stopped_mountpoint (c : Container) : c.stopped.mountpoint = c.mountpoint := rfl

@[simp] theorem stopped_stopped (c : Container) : c.stopped.stopped = c.stopped := rfl

/-- The paths of a container follow from its id. -/
structure Named (repository : GoString) (c : Container) : Prop where
  plain : PlainName c.id
  root : c.root = pathJoin [repository, c.id]
  mount : c.mountpoint.root = pathJoin [c.root, str "rootfs"]
  rw : c.mountpoint.rw = pathJoin [c.root, str "rw"]

namespace Site

/-- What a restart is to keep of the container at a position of the heap. -/
def keptAt (s : Site α) (k : Nat) : Option Container :=
  (s.heap[k]?).map fun o => o.container.stopped

def kept (s : Site α) : List Container := s.containers.filterMap s.keptAt

theorem kept_eq (s : Site α) : s.kept = s.known.map Container.stopped := by
  rw [known, List.map_filterMap]
  apply List.filterMap_congr
  intro k _
  rw [keptAt, Option.map_map]
  rfl

theorem known_pushBack (hheap : ∀ k ∈ s.containers, k < s.heap.length) (c : Container) :
    (s.pushBack c).known = s.known ++ [c] := by
  have hold : s.containers.filterMap (fun k =>
      ((s.heap ++ [.idle c])[k]?).map Object.container) = s.known :=
    List.filterMap_congr fun k hk => by rw [List.getElem?_append_left (hheap k hk)]
  have hnew : [s.heap.length].filterMap (fun k =>
      ((s.heap ++ [.idle c])[k]?).map Object.container) = [c] := by
    rw [List.filterMap_cons_some, List.filterMap_nil]
    rw [List.getElem?_concat_length, Option.map_some]
    rfl
  show (s.containers ++ [s.heap.length]).filterMap _ = _
  rw [List.filterMap_append]
  exact congrArg₂ _ hold hnew

theorem inHeap_pushBack (hheap : ∀ k ∈ s.containers, k < s.heap.length) (c : Container) :
    ∀ k ∈ (s.pushBack c).containers, k < (s.pushBack c).heap.length := by
  have hlength : (s.pushBack c).heap.length = s.heap.length + 1 := by simp [pushBack]
  intro k hk
  obtain hk | hk := List.mem_append.mp hk
  · have hlt := hheap k hk
    omega
  · rw [List.mem_singleton.mp hk]
    omega

theorem keptAt_of_some (ho : s.heap[k]? = some o) : s.keptAt k = some o.container.stopped := by
  rw [keptAt, ho, Option.map_some]

theorem callsAt (ho : s.heap[k]? = some o) : s.calls[k]? = some o.destroys := by
  rw [calls, List.getElem?_map, ho, Option.map_some]

/-- A container is replaced by one of which the same is kept. -/
theorem keptAt_setObj (ho : s.heap[k]? = some o) {o' : Object}
    (heq : o'.container.stopped = o.container.stopped) (j : Nat) :
    (s.setObj k o').keptAt j = s.keptAt j := by
  simp only [keptAt, Site.setObj, List.getElem?_set]
  split
  · next hj =>
    subst hj
    have hlt := (List.getElem?_eq_some_iff.mp ho).1
    rw [if_pos hlt, ho, Option.map_some, Option.map_some, heq]
  · rfl

theorem calls_setObj (s : Site α) (k : Nat) (o' : Object) :
    (s.setObj k o').calls = s.calls.set k o'.destroys :=
  List.map_set

theorem calls_setObj_of_eq (ho : s.heap[k]? = some o) {o' : Object}
    (heq : o'.destroys = o.destroys) : (s.setObj k o').calls = s.calls :=
  List.map_set_of_eq ho heq

/-- A file of the repository, without the state in it. -/
def entry (d : GoString × Option Container) : GoString × Option Container :=
  (d.1, d.2.map Container.stopped)

/-- The file that the container at `k` is to have. -/
def fileOf (s : Site α) (k : Nat) : Option (GoString × Option Container) :=
  (s.keptAt k).map fun c => (c.id, some c)

/-- The container at `k` is known, and its directory has not been removed. -/
def housed (s : Site α) (k : Nat) : Prop := k ∈ s.containers ∧ s.emptied k = false

/-- The files say what the daemon knows. -/
structure Inv (s : Site α) : Prop where
  named : ∀ k c, s.keptAt k = some c → Named s.repository c
  inHeap : ∀ k ∈ s.containers, k < s.heap.length
  listed : s.containers.Nodup
  distinct : ∀ j ∈ s.containers, ∀ k ∈ s.containers, ∀ c c', s.keptAt j = some c →
    s.keptAt k = some c' → c.id = c'.id → j = k
  /-- A `Destroy` has found a container with the id of its own. -/
  found : ∀ (k : Nat) (o : Object), s.heap[k]? = some o → ∀ call ∈ o.destroys,
    ∃ c, s.keptAt call.element = some c ∧ c.id = o.container.id
  saved : Owned (s.dirs.map entry) Prod.fst s.fileOf s.housed
  rows : ∀ k ∈ s.containers, s.dropped k = false → ∀ c ∈ s.keptAt k,
    ∃ row ∈ s.store.mountpoints, row.root = c.mountpoint.root ∧ row.rw = c.mountpoint.rw

namespace Inv

theorem fresh (hs : s.Fresh) : s.Inv := by
  obtain ⟨hdirs, hheap, hcontainers⟩ := hs
  refine ⟨fun k c hk => ?_, ?_, ?_, ?_, ?_, ?_, ?_⟩
  · simp [keptAt, hheap] at hk
  · simp [hcontainers]
  · simp [hcontainers]
  · simp [hcontainers]
  · simp [hheap]
  · rw [hdirs]
    exact .nil fun k hk => by simp [housed, hcontainers] at hk
  · simp [hcontainers]

/-- A step that changes at most states, mounts, and rows it adds. -/
theorem frame {s' : Site α} (h : s.Inv) (hrepository : s'.repository = s.repository)
    (hkept : ∀ k, s'.keptAt k = s.keptAt k) (hcalls : s'.calls = s.calls)
    (hcontainers : s'.containers = s.containers) (hdirs : s'.dirs.map entry = s.dirs.map entry)
    (hrows : ∀ row ∈ s.store.mountpoints, row ∈ s'.store.mountpoints) : s'.Inv := by
  have hall : s'.keptAt = s.keptAt := funext hkept
  have hlength : s'.heap.length = s.heap.length := by
    have := congrArg List.length hcalls
    rwa [calls, calls, List.length_map, List.length_map] at this
  have hdropped : s'.dropped = s.dropped := by
    funext k
    rw [dropped, dropped, hcalls]
  refine ⟨?_, ?_, ?_, ?_, fun k o ho call hcall => ?_, ?_, ?_⟩
  · rw [hall, hrepository]
    exact h.named
  · rw [hcontainers, hlength]
    exact h.inHeap
  · rw [hcontainers]
    exact h.listed
  · rw [hall, hcontainers]
    exact h.distinct
  · have hkeptk := hkept k
    have hcallsk := callsAt ho
    rw [keptAt_of_some ho] at hkeptk
    obtain ⟨o₀, ho₀, hid⟩ := Option.map_eq_some_iff.mp hkeptk.symm
    rw [hcalls, callsAt ho₀, Option.some.injEq] at hcallsk
    rw [hall, show o.container.id = o₀.container.id from (congrArg Container.id hid).symm]
    exact h.found k o₀ ho₀ call (hcallsk ▸ hcall)
  · rw [hdirs]
    refine h.saved.congr (fun k => ?_) fun k _ => ?_
    · rw [housed, housed, hcontainers, emptied, emptied, hcalls]
    · rw [fileOf, fileOf, hall]
  · rw [hall, hcontainers, hdropped]
    intro k hk hdropped c hc
    obtain ⟨row, hrow, heq⟩ := h.rows k hk hdropped c hc
    exact ⟨row, hrows row hrow, heq⟩

theorem named_of_some (h : s.Inv) (ho : s.heap[k]? = some o) : Named s.repository o.container := by
  have hstopped := h.named k _ (keptAt_of_some ho)
  exact ⟨hstopped.plain, hstopped.root, hstopped.mount, hstopped.rw⟩

theorem named_of_mem (h : s.Inv) {c : Container} (hc : c ∈ s.kept) : Named s.repository c := by
  obtain ⟨k, -, hk⟩ := List.mem_filterMap.mp hc
  exact h.named k c hk

theorem ids_nodup (h : s.Inv) : (s.kept.map Container.id).Nodup := by
  rw [List.Nodup, List.pairwise_map, kept, List.pairwise_filterMap]
  apply List.Pairwise.imp_of_mem _ h.listed
  intro j k hj hk hne c hc c' hc' hid
  exact hne (h.distinct j hj k hk c c' hc hc' hid)

/-- A directory belongs to a container the daemon knows. -/
theorem owner (h : s.Inv) {d : GoString × Option Container} (hd : d ∈ s.dirs) :
    ∃ k c, s.housed k ∧ s.keptAt k = some c ∧ c.id = d.1 ∧
      d.2.map Container.stopped = some c := by
  obtain ⟨k, hk, hfile⟩ := h.saved.owner _ (List.mem_map_of_mem (f := entry) hd)
  obtain ⟨c, hc, heq⟩ := Option.map_eq_some_iff.mp hfile
  have hname : c.id = d.1 := congrArg Prod.fst heq
  have hdata : some c = d.2.map Container.stopped := congrArg Prod.snd heq
  exact ⟨k, c, hk, hc, hname, hdata.symm⟩

/-- The directory of a container is the one that has its id as name. -/
theorem dirPath_eq_root (h : s.Inv) {d : GoString × Option Container} (hd : d ∈ s.dirs)
    {c : Container} (hc : Named s.repository c) : s.dirPath d.1 = c.root ↔ d.1 = c.id := by
  obtain ⟨k, c', -, hc', hname, -⟩ := h.owner hd
  have hplain : PlainName d.1 := hname ▸ (h.named k c' hc').plain
  rw [hc.root]
  constructor
  · exact pathJoin_injective s.repository hplain hc.plain
  · intro heq
    rw [heq]
    rfl

theorem getContainerElement_some {id : GoString} (hk : s.getContainerElement id = some k) :
    k ∈ s.containers ∧ ∃ c, s.keptAt k = some c ∧ c.id = id := by
  unfold getContainerElement at hk
  have hid := List.find?_some hk
  obtain ⟨o, ho, heq⟩ := (Option.any_eq_true _ _).mp hid
  exact ⟨List.mem_of_find?_eq_some hk, _, keptAt_of_some ho, by simpa using heq⟩

theorem getContainerElement_none {id : GoString} (hnone : s.getContainerElement id = none)
    (hk : k ∈ s.containers) {c : Container} (hc : s.keptAt k = some c) : c.id ≠ id := by
  obtain ⟨o, ho, rfl⟩ := Option.map_eq_some_iff.mp hc
  have hk' := List.find?_eq_none.mp hnone k hk
  rw [ho, Option.any_some, decide_eq_true_eq] at hk'
  exact hk'

/-- A known container with this id is the one that is found. -/
theorem eq_of_findsOnly (h : s.Inv) {id : GoString} {j : Nat} (hfinds : s.FindsOnly id j)
    (hk : k ∈ s.containers) {c : Container} (hc : s.keptAt k = some c) (hid : c.id = id) :
    k = j := by
  cases hfind : s.getContainerElement id with
  | none => exact absurd hid (getContainerElement_none hfind hk hc)
  | some i =>
    obtain ⟨hi, c', hc', hid'⟩ := getContainerElement_some hfind
    rw [← hfinds i hfind]
    exact h.distinct k hk i hi c c' hc hc' (by rw [hid, hid'])

/-- An update of a container that keeps all but its state. -/
theorem setObj (h : s.Inv) {o' : Object} (ho : s.heap[k]? = some o)
    (heq : o'.container.stopped = o.container.stopped) (hdestroys : o'.destroys = o.destroys) :
    (s.setObj k o').Inv :=
  h.frame rfl (keptAt_setObj ho heq) (calls_setObj_of_eq ho hdestroys) rfl rfl fun _ hrow => hrow

theorem remount (h : s.Inv) (mounted : List GoString) : Site.Inv { s with mounted } :=
  h.frame rfl (fun _ => rfl) rfl rfl rfl fun _ hrow => hrow

/-! ## Mounting and saving -/

/-- `Image.Mountpoint` adds at most a row. -/
theorem mountpoint_rows {store store' : Store α} {image : Image} {root rw : GoString}
    {row : Except GoString Mountpoint}
    (h : store.mountpoint image root rw none = (row, store')) :
    ∀ mp ∈ store.mountpoints, mp ∈ store'.mountpoints := by
  intro mp hmp
  cases row with
  | error err =>
    rw [Daemon.mountpoint_error h]
    exact hmp
  | ok row =>
    rw [(Daemon.mountpoint_ok h).2.2]
    exact List.mem_append_left _ hmp

theorem mountRow_rows {store store' : Store α} {image : Image} {root rw : GoString}
    {row : Except GoString Mountpoint} (h : store.mountRow image root rw = (row, store')) :
    ∀ mp ∈ store.mountpoints, mp ∈ store'.mountpoints := by
  unfold Store.mountRow at h
  split at h
  · cases h
    exact fun _ hmp => hmp
  · split at h
    · next hrow =>
      cases h
      exact mountpoint_rows hrow
    · next hrow =>
      cases h
      exact mountpoint_rows hrow

theorem withRows (h : s.Inv) {store : Store α}
    (hrows : ∀ mp ∈ s.store.mountpoints, mp ∈ store.mountpoints) : Site.Inv { s with store } :=
  h.frame rfl (fun _ => rfl) rfl rfl rfl hrows

theorem ensureMounted (h : s.Inv) {mp : Mountpoint} {ok : Bool} {s' : Site α}
    (hret : s.ensureMounted mp = .ret (ok, s')) : s'.Inv ∧ s'.heap = s.heap := by
  unfold Site.ensureMounted at hret
  split at hret
  · cases hret
    exact ⟨h, rfl⟩
  split at hret
  · simp at hret
  split at hret
  · next hrow =>
    cases hret
    exact ⟨h.frame rfl (fun _ => rfl) rfl rfl rfl (mountRow_rows hrow), rfl⟩
  · next hrow =>
    split at hret <;> cases hret <;>
      exact ⟨h.frame rfl (fun _ => rfl) rfl rfl rfl (mountRow_rows hrow), rfl⟩

/-- A file that holds a container with this id holds this container. -/
theorem owner_eq (h : s.Inv) (ho : s.heap[k]? = some o) (hown : s.OwnsId k)
    {d : GoString × Option Container} (hd : d ∈ s.dirs)
    (hname : d.1 = o.container.id) : entry d = (d.1, some o.container.stopped) := by
  obtain ⟨j, c, hj, hcj, hid, hdata⟩ := h.owner hd
  obtain rfl := h.eq_of_findsOnly (hown o ho) hj.1 hcj (hid.trans hname)
  rw [keptAt_of_some ho] at hcj
  cases hcj
  rw [entry, hdata]

theorem save (h : s.Inv) (ho : s.heap[k]? = some o) (hown : s.OwnsId k) :
    (s.save o.container).Inv := by
  have hdirs : (s.save o.container).dirs.map entry = s.dirs.map entry := by
    rw [Site.save, List.map_map]
    apply List.map_congr_left
    intro d hd
    show entry (if s.dirPath d.1 = o.container.root then _ else _) = _
    split
    · next hpath =>
      have hname := (h.dirPath_eq_root hd (h.named_of_some ho)).mp hpath
      rw [h.owner_eq ho hown hd hname]
      rfl
    · rfl
  exact h.frame rfl (fun _ => rfl) rfl rfl hdirs fun _ hrow => hrow

/-! ## Creating -/

/-- The container that `createContainer` makes. -/
theorem createContainer_ok {id : GoString} {created : Int} {command : GoString}
    {args : List GoString} {image : Image} {config : Config} {c : Container} {s' : Site α}
    (h : s.createContainer id created command args image config = (.ok c, s')) :
    ∃ store, (∀ mp ∈ s.store.mountpoints, mp ∈ store.mountpoints) ∧
      c.mountpoint ∈ store.mountpoints ∧ s.hasDir c.root = false ∧ c.id = id ∧
      c.root = s.dirPath id ∧ c.mountpoint.root = pathJoin [c.root, str "rootfs"] ∧
      c.mountpoint.rw = pathJoin [c.root, str "rw"] ∧
      s' = Site.save { s with store, dirs := s.dirs ++ [(id, none)] } c := by
  unfold createContainer at h
  simp only at h
  split at h
  · simp at h
  next mp store hrow =>
  split at h
  · simp at h
  next hdir =>
  cases h
  obtain ⟨hmp, -, hstore⟩ := Daemon.mountpoint_ok hrow
  refine ⟨store, mountpoint_rows hrow, ?_, Bool.eq_false_iff.mpr hdir, rfl, rfl, ?_, ?_, rfl⟩
  · rw [hstore]
    exact List.mem_append_right _ (List.mem_singleton_self _)
  · rw [hmp]
    exact clean_pathJoin (str "rootfs") (by simp) (by decide)
  · rw [hmp]
    exact clean_pathJoin (str "rw") (by simp) (by decide)

theorem createContainer_error {id : GoString} {created : Int} {command : GoString}
    {args : List GoString} {image : Image} {config : Config} {err : GoString} {s' : Site α}
    (h : s.createContainer id created command args image config = (.error err, s')) :
    ∃ store, (∀ mp ∈ s.store.mountpoints, mp ∈ store.mountpoints) ∧ s' = { s with store } := by
  unfold createContainer at h
  simp only at h
  split at h
  · next hrow =>
    cases h
    exact ⟨_, mountpoint_rows hrow, rfl⟩
  next hrow =>
  split at h
  · cases h
    exact ⟨_, mountpoint_rows hrow, rfl⟩
  · simp at h

/-- The first save of a container goes to its new directory. -/
theorem save_new {c : Container} (hdir : s.hasDir c.root = false)
    (hroot : c.root = s.dirPath c.id) :
    (Site.save { s with dirs := s.dirs ++ [(c.id, none)] } c).dirs =
      s.dirs ++ [(c.id, some c)] := by
  have hold : ∀ d ∈ s.dirs, s.dirPath d.1 ≠ c.root := by
    simpa [hasDir] using hdir
  have hmap :
      s.dirs.map (fun d => if s.dirPath d.1 = c.root then (d.1, some c) else d) = s.dirs := by
    conv => rhs; rw [← List.map_id s.dirs]
    apply List.map_congr_left
    intro d hd
    rw [if_neg (hold d hd)]
    rfl
  show List.map (fun d => if s.dirPath d.1 = c.root then (d.1, some c) else d) _ = _
  rw [List.map_append, hmap, List.map_singleton, if_pos hroot.symm]

/-- The other pointers still point to what they pointed to. -/
theorem keptAt_pushBack {j : Nat} {c₀ : Container} (hj : s.keptAt j = some c₀) (c : Container) :
    (s.pushBack c).keptAt j = some c₀ := by
  obtain ⟨o, ho, rfl⟩ := Option.map_eq_some_iff.mp hj
  rw [keptAt, pushBack, List.getElem?_concat_of_some ho, Option.map_some]

theorem keptAt_pushBack_self (s : Site α) (c : Container) :
    (s.pushBack c).keptAt s.heap.length = some c.stopped := by
  rw [keptAt, pushBack, List.getElem?_concat_length, Option.map_some]
  rfl

theorem keptAt_of_mem (h : s.Inv) (hk : k ∈ s.containers) : ∃ c, s.keptAt k = some c := by
  obtain ⟨o, ho⟩ : ∃ o, s.heap[k]? = some o := ⟨_, List.getElem?_eq_getElem (h.inHeap k hk)⟩
  exact ⟨_, keptAt_of_some ho⟩

/-- A new container is not the one that a `Destroy` has found. -/
theorem reached_pushBack (s : Site α) (p : DestroyPc → Bool) (c : Container) (j : Nat) :
    reached p (s.pushBack c).calls j = reached p s.calls j := by
  simp [reached, calls, pushBack, Object.idle]

theorem reached_new (h : s.Inv) (p : DestroyPc → Bool) :
    reached p s.calls s.heap.length = false := by
  rw [Bool.eq_false_iff]
  intro hreached
  obtain ⟨destroys, hdestroys, hany⟩ := List.any_eq_true.mp hreached
  obtain ⟨o, ho, rfl⟩ := List.mem_map.mp hdestroys
  obtain ⟨call, hcall, heq⟩ := List.any_eq_true.mp hany
  obtain ⟨k, hk⟩ := List.getElem?_of_mem ho
  obtain ⟨c, hc, -⟩ := h.found k o hk call hcall
  rw [(of_decide_eq_true heq).1, keptAt, List.getElem?_eq_none (Nat.le_refl _)] at hc
  cases hc

/-- A new container that has its row and its directory. -/
theorem pushBack (h : s.Inv) {c : Container} (hc : Named s.repository c)
    (hid : s.getContainerElement c.id = none) (hdir : s.hasDir c.root = false)
    (hrow : c.mountpoint ∈ s.store.mountpoints) :
    Site.Inv { s.pushBack c with dirs := s.dirs ++ [(c.id, some c)] } := by
  have hself := keptAt_pushBack_self s c
  have hfresh : s.heap.length ∉ s.containers := fun hmem => Nat.lt_irrefl _ (h.inHeap _ hmem)
  -- no known container has the id of the new one
  have hne : ∀ k ∈ s.containers, ∀ c', (s.pushBack c).keptAt k = some c' → c'.id ≠ c.id := by
    intro k hk c' hc'
    obtain ⟨c₀, hc₀⟩ := h.keptAt_of_mem hk
    rw [keptAt_pushBack hc₀ c] at hc'
    cases hc'
    exact getContainerElement_none hid hk hc₀
  refine ⟨fun j c' hj => ?_, fun j hj => ?_, ?_, ?_, fun k o ho call hcall => ?_, ?_, ?_⟩
  · obtain ⟨o, ho, rfl⟩ := Option.map_eq_some_iff.mp hj
    rcases List.getElem?_concat_cases ho with ho | ⟨-, rfl⟩
    · exact h.named j _ (keptAt_of_some ho)
    · exact ⟨hc.plain, hc.root, hc.mount, hc.rw⟩
  · exact inHeap_pushBack h.inHeap c j hj
  · have hnodup := h.listed.concat hfresh
    rwa [List.concat_eq_append] at hnodup
  · intro i hi j hj c₁ c₂ h₁ h₂ heq
    rcases List.mem_append.mp hi with hi | hi <;> rcases List.mem_append.mp hj with hj | hj
    · obtain ⟨c₁', h₁'⟩ := h.keptAt_of_mem hi
      obtain ⟨c₂', h₂'⟩ := h.keptAt_of_mem hj
      cases (keptAt_pushBack h₁' c).symm.trans h₁
      cases (keptAt_pushBack h₂' c).symm.trans h₂
      exact h.distinct i hi j hj c₁ c₂ h₁' h₂' heq
    · cases List.mem_singleton.mp hj
      cases hself.symm.trans h₂
      exact absurd heq (hne i hi c₁ h₁)
    · cases List.mem_singleton.mp hi
      cases hself.symm.trans h₁
      exact absurd heq.symm (hne j hj c₂ h₂)
    · rw [List.mem_singleton.mp hi, List.mem_singleton.mp hj]
  · rcases List.getElem?_concat_cases ho with ho | ⟨-, rfl⟩
    · obtain ⟨c', hc', hid'⟩ := h.found k o ho call hcall
      exact ⟨c', keptAt_pushBack hc' c, hid'⟩
    · exact absurd hcall List.not_mem_nil
  · -- the new directory, and the files of the others are what they were
    rw [List.map_append, List.map_singleton]
    refine h.saved.insert s.heap.length ?_ (fun j => ?_) ?_ fun j hj => ?_
    · rw [List.map_map]
      intro hmem
      obtain ⟨d, hd, hname⟩ := List.mem_map.mp hmem
      have hno := List.any_eq_false.mp hdir d hd
      apply hno
      rw [decide_eq_true_eq, h.dirPath_eq_root hd hc]
      exact hname
    · show j ∈ s.containers ++ [s.heap.length] ∧ reached _ (s.pushBack c).calls j = false ↔ _
      rw [reached_pushBack, List.mem_append, List.mem_singleton, housed]
      constructor
      · rintro ⟨hj | hj, hkept⟩
        · exact .inl ⟨hj, hkept⟩
        · exact .inr hj
      · rintro (⟨hj, hkept⟩ | rfl)
        · exact ⟨.inl hj, hkept⟩
        · exact ⟨.inr rfl, h.reached_new _⟩
    · show ((s.pushBack c).keptAt s.heap.length).map _ = _
      rw [hself, Option.map_some]
      rfl
    · obtain ⟨c₀, hc₀⟩ := h.keptAt_of_mem hj.1
      show ((s.pushBack c).keptAt j).map _ = _
      rw [keptAt_pushBack hc₀ c, fileOf, hc₀]
  · intro j hj hdropped c' hc'
    obtain hj | hj := List.mem_append.mp hj
    · obtain ⟨c₀, hc₀⟩ := h.keptAt_of_mem hj
      cases (keptAt_pushBack hc₀ c).symm.trans hc'
      refine h.rows j hj ?_ c' hc₀
      rw [← hdropped]
      exact (reached_pushBack s DestroyPc.past c j).symm
    · cases List.mem_singleton.mp hj
      cases hself.symm.trans hc'
      exact ⟨c.mountpoint, hrow, rfl, rfl⟩

theorem create (h : s.Inv) {id : GoString} (hid : PlainName id) (created : Int)
    (command : GoString) (args : List GoString) (image : Image) (config : Config) :
    (s.create id created command args image config).2.Inv := by
  unfold Site.create
  split
  · exact h
  next hnone =>
  have hnone : s.getContainerElement id = none := by simpa using hnone
  split
  · next hcreate =>
    obtain ⟨store, hrows, rfl⟩ := createContainer_error hcreate
    exact h.withRows hrows
  · next c s' hcreate =>
    obtain ⟨store, hrows, hrow, hdir, rfl, hroot, hmp, hrw, rfl⟩ := createContainer_ok hcreate
    have hnew := (h.withRows hrows).pushBack ⟨hid, hroot, hmp, hrw⟩ hnone hdir hrow
    rwa [← save_new hdir hroot] at hnew

end Inv

end Site

/-! ## Destroying -/

namespace Site

/-- The container `o` at `k`, with its `i`-th `Destroy` at another step. -/
def goOn (s : Site α) (k : Nat) (o : Object) (i : Nat) (call : DestroyCall)
    (next : Option DestroyPc) : Site α :=
  s.setObj k { o with destroys := setDestroy o.destroys i call next }

theorem keptAt_goOn (ho : s.heap[k]? = some o) (next : Option DestroyPc) (j : Nat) :
    (s.goOn k o i call next).keptAt j = s.keptAt j :=
  keptAt_setObj ho (by rfl) j

/-- What a step of a `Destroy` changes for the calls at some of the steps. -/
theorem reached_goOn (p : DestroyPc → Bool) (ho : s.heap[k]? = some o)
    (hi : o.destroys[i]? = some call) (next : Option DestroyPc) :
    ∃ others : Nat → Prop,
      (∀ j, reached p s.calls j = true ↔ others j ∨ call.element = j ∧ p call.pc = true) ∧
      ∀ j, reached p (s.goOn k o i call next).calls j = true ↔
        others j ∨ ∃ pc ∈ next, call.element = j ∧ p pc = true := by
  obtain ⟨others, hbefore, hafter⟩ := reached_setDestroy p (callsAt ho) hi next
  refine ⟨others, hbefore, fun j => ?_⟩
  rw [goOn, calls_setObj]
  exact hafter j

namespace Inv

/-- What all steps of a `Destroy` keep. -/
theorem goOn_found (h : s.Inv) (ho : s.heap[k]? = some o) (hi : o.destroys[i]? = some call)
    (next : Option DestroyPc) : ∀ (j : Nat) (o' : Object),
      (s.goOn k o i call next).heap[j]? = some o' → ∀ call' ∈ o'.destroys,
        ∃ c, (s.goOn k o i call next).keptAt call'.element = some c ∧ c.id = o'.container.id := by
  intro j o' ho' call' hcall'
  rw [keptAt_goOn ho]
  obtain ⟨rfl, rfl⟩ | ⟨-, ho'⟩ := List.getElem?_set_cases ho'
  · obtain ⟨call₀, hcall₀, heq⟩ := setDestroy_element hi hcall'
    rw [← heq]
    exact h.found j o ho call₀ hcall₀
  · exact h.found j o' ho' call' hcall'

/-- A step that changes neither the list nor the files. -/
theorem goOn (h : s.Inv) (ho : s.heap[k]? = some o) (hi : o.destroys[i]? = some call)
    {next : Option DestroyPc} (hremove : (∃ pc ∈ next, pc = .remove) ↔ call.pc = .remove)
    (hpast : call.pc.past = true → ∃ pc ∈ next, pc.past = true) :
    (s.goOn k o i call next).Inv := by
  have hkept : (s.goOn k o i call next).keptAt = s.keptAt := funext fun j => keptAt_goOn ho next j
  refine ⟨?_, ?_, h.listed, ?_, h.goOn_found ho hi next, ?_, ?_⟩
  · rw [hkept]
    exact h.named
  · have hlength : (s.goOn k o i call next).heap.length = s.heap.length := List.length_set
    rw [hlength]
    exact h.inHeap
  · rw [hkept]
    exact h.distinct
  · refine h.saved.congr (fun j => and_congr_right fun _ => ?_) fun j _ => ?_
    · obtain ⟨others, hbefore, hafter⟩ := reached_goOn (fun pc => decide (pc = .remove)) ho hi next
      rw [emptied, emptied, ← Bool.not_eq_true, ← Bool.not_eq_true, hbefore, hafter]
      simp only [decide_eq_true_eq]
      rw [← hremove]
      refine not_congr (or_congr_right ?_)
      constructor
      · rintro ⟨pc, hpc, heq, hremove⟩
        exact ⟨heq, pc, hpc, hremove⟩
      · rintro ⟨heq, pc, hpc, hremove⟩
        exact ⟨pc, hpc, heq, hremove⟩
    · rw [fileOf, fileOf, hkept]
  · rw [hkept]
    intro j hj hdropped
    apply h.rows j hj
    obtain ⟨others, hbefore, hafter⟩ := reached_goOn DestroyPc.past ho hi next
    rw [dropped, ← Bool.not_eq_true, hafter] at hdropped
    rw [dropped, ← Bool.not_eq_true, hbefore]
    rintro (hothers | ⟨heq, hcall⟩)
    · exact hdropped (.inl hothers)
    · obtain ⟨pc, hpc, hnext⟩ := hpast hcall
      exact hdropped (.inr ⟨pc, hpc, heq, hnext⟩)

/-- The row goes. -/
theorem goOn_delete (h : s.Inv) (ho : s.heap[k]? = some o) (hi : o.destroys[i]? = some call)
    (hpc : call.pc = .delete) (hfinds : s.FindsOnly o.container.id call.element) :
    Site.Inv ({ s with store := s.store.deleteMountpoint o.container.mountpoint }.goOn k o i call
      (some .removeAll)) := by
  have hgo : (s.goOn k o i call (some .removeAll)).Inv := by
    apply h.goOn ho hi
    · simp [hpc]
    · simp [hpc, DestroyPc.past]
  refine ⟨hgo.named, hgo.inHeap, hgo.listed, hgo.distinct, hgo.found, hgo.saved, ?_⟩
  intro j hj hdropped c hc
  obtain ⟨row, hrow, hroot, hrw⟩ := hgo.rows j hj hdropped c hc
  refine ⟨row, List.mem_filter.mpr ⟨hrow, ?_⟩, hroot, hrw⟩
  rw [decide_eq_true_eq, hroot]
  intro heq
  -- a row with this root would be that of the container that is being dropped
  have hc' := hgo.named j c hc
  have hnamed := h.named_of_some ho
  rw [hc'.mount, hc'.root, hnamed.mount, hnamed.root] at heq
  have hid := pathJoin_grandchild_injective s.repository hc'.plain hnamed.plain (by decide) heq
  replace hc : (s.goOn k o i call (some .removeAll)).keptAt j = some c := hc
  rw [keptAt_goOn ho] at hc
  obtain rfl := h.eq_of_findsOnly hfinds hj hc hid
  obtain ⟨others, -, hafter⟩ := reached_goOn DestroyPc.past ho hi (some .removeAll)
  have hdrop : (s.goOn k o i call (some .removeAll)).dropped call.element = true :=
    (hafter call.element).mpr (.inr ⟨.removeAll, rfl, rfl, rfl⟩)
  replace hdropped : (s.goOn k o i call (some .removeAll)).dropped call.element = false := hdropped
  rw [hdrop] at hdropped
  cases hdropped

/-- The directory goes. -/
theorem goOn_removeAll (h : s.Inv) (ho : s.heap[k]? = some o) (hi : o.destroys[i]? = some call)
    (hpc : call.pc = .removeAll) (hfinds : s.FindsOnly o.container.id call.element) :
    Site.Inv ((s.removeAll o.container.root).goOn k o i call (some .remove)) := by
  have hnamed := h.named_of_some ho
  have hkept : (s.goOn k o i call (some .remove)).keptAt = s.keptAt :=
    funext fun j => keptAt_goOn ho (some .remove) j
  have hdirs : (s.removeAll o.container.root).dirs.map entry =
      (s.dirs.map entry).filter fun e => e.1 ≠ o.container.id := by
    rw [removeAll, List.filter_map]
    congr 1
    apply List.filter_congr
    intro d hd
    show decide (s.dirPath d.1 ≠ o.container.root) = decide (d.1 ≠ o.container.id)
    rw [decide_eq_decide, ne_eq, ne_eq, h.dirPath_eq_root hd hnamed]
  obtain ⟨c, hc, hid⟩ := h.found k o ho call (List.mem_of_getElem? hi)
  refine ⟨?_, ?_, h.listed, ?_, h.goOn_found ho hi (some .remove), ?_, ?_⟩
  · show ∀ j c, (s.goOn k o i call (some .remove)).keptAt j = some c → _
    rw [hkept]
    exact h.named
  · have hlength : (s.goOn k o i call (some .remove)).heap.length = s.heap.length :=
      List.length_set
    show ∀ j ∈ s.containers, j < (s.goOn k o i call (some .remove)).heap.length
    rw [hlength]
    exact h.inHeap
  · show ∀ j ∈ s.containers, ∀ j' ∈ s.containers, ∀ c c',
      (s.goOn k o i call (some .remove)).keptAt j = some c →
      (s.goOn k o i call (some .remove)).keptAt j' = some c' → _
    rw [hkept]
    exact h.distinct
  · show Owned ((s.removeAll o.container.root).dirs.map entry) Prod.fst
      (s.goOn k o i call (some .remove)).fileOf (s.goOn k o i call (some .remove)).housed
    rw [hdirs]
    have hdelete := h.saved.delete (a := o.container.id) call.element (fun _ => .rfl)
      (fun row hrow => ?_) fun j row hj hrow hname => ?_
    · refine hdelete.congr (fun j => ?_) fun j _ => ?_
      · obtain ⟨others, hbefore, hafter⟩ :=
          reached_goOn (fun pc => decide (pc = .remove)) ho hi (some .remove)
        show j ∈ s.containers ∧ (s.goOn k o i call (some .remove)).emptied j = false ↔ _
        rw [housed, emptied, emptied, ← Bool.not_eq_true, ← Bool.not_eq_true, hbefore, hafter, hpc]
        by_cases hj : call.element = j
        · simp [hj]
        · simp [hj, Ne.symm hj]
      · rw [fileOf, fileOf, hkept]
    · rw [fileOf, hc, Option.map_some] at hrow
      cases hrow
      exact hid
    · obtain ⟨c', hc', rfl⟩ := Option.map_eq_some_iff.mp hrow
      exact h.eq_of_findsOnly hfinds hj.1 hc' hname
  · show ∀ j ∈ s.containers, (s.goOn k o i call (some .remove)).dropped j = false →
      ∀ c ∈ (s.goOn k o i call (some .remove)).keptAt j, _
    rw [hkept]
    intro j hj hdropped
    apply h.rows j hj
    obtain ⟨others, hbefore, hafter⟩ := reached_goOn DestroyPc.past ho hi (some .remove)
    rw [dropped, ← Bool.not_eq_true, hafter] at hdropped
    rw [dropped, ← Bool.not_eq_true, hbefore, hpc]
    rintro (hothers | ⟨heq, -⟩)
    · exact hdropped (.inl hothers)
    · exact hdropped (.inr ⟨.remove, rfl, heq, rfl⟩)

/-- The container leaves the list. -/
theorem goOn_remove (h : s.Inv) (ho : s.heap[k]? = some o) (hi : o.destroys[i]? = some call)
    (hpc : call.pc = .remove) :
    Site.Inv ({ s with containers := s.containers.erase call.element }.goOn k o i call none) := by
  have hkept : (s.goOn k o i call none).keptAt = s.keptAt :=
    funext fun j => keptAt_goOn ho none j
  have hold : ∀ {j : Nat}, j ∈ s.containers.erase call.element → j ∈ s.containers :=
    List.mem_of_mem_erase
  refine ⟨?_, ?_, h.listed.erase _, ?_, h.goOn_found ho hi none, ?_, ?_⟩
  · show ∀ j c, (s.goOn k o i call none).keptAt j = some c → _
    rw [hkept]
    exact h.named
  · have hlength : (s.goOn k o i call none).heap.length = s.heap.length := List.length_set
    show ∀ j ∈ s.containers.erase call.element, j < (s.goOn k o i call none).heap.length
    rw [hlength]
    exact fun j hj => h.inHeap j (hold hj)
  · show ∀ j ∈ s.containers.erase call.element, ∀ j' ∈ s.containers.erase call.element, ∀ c c',
      (s.goOn k o i call none).keptAt j = some c →
      (s.goOn k o i call none).keptAt j' = some c' → _
    rw [hkept]
    exact fun j hj j' hj' => h.distinct j (hold hj) j' (hold hj')
  · refine h.saved.congr (fun j => ?_) fun j _ => ?_
    · obtain ⟨others, hbefore, hafter⟩ :=
        reached_goOn (fun pc => decide (pc = .remove)) ho hi none
      show j ∈ s.containers.erase call.element ∧ (s.goOn k o i call none).emptied j = false ↔ _
      rw [housed, emptied, emptied, ← Bool.not_eq_true, ← Bool.not_eq_true, hbefore, hafter, hpc,
        h.listed.mem_erase_iff]
      by_cases hj : call.element = j
      · simp [hj]
      · simp [hj, Ne.symm hj]
    · show (s.goOn k o i call none).fileOf j = _
      rw [fileOf, fileOf, hkept]
  · show ∀ j ∈ s.containers.erase call.element, (s.goOn k o i call none).dropped j = false →
      ∀ c ∈ (s.goOn k o i call none).keptAt j, _
    rw [hkept]
    intro j hj hdropped
    apply h.rows j (hold hj)
    have hne : j ≠ call.element := (h.listed.mem_erase_iff.mp hj).1
    obtain ⟨others, hbefore, hafter⟩ := reached_goOn DestroyPc.past ho hi none
    rw [dropped, ← Bool.not_eq_true, hafter] at hdropped
    rw [dropped, ← Bool.not_eq_true, hbefore]
    rintro (hothers | ⟨heq, -⟩)
    · exact hdropped (.inl hothers)
    · exact hne heq.symm

/-- A `Destroy` begins. -/
theorem lookup (h : s.Inv) (ho : s.heap[k]? = some o) {element : Nat}
    (helem : s.getContainerElement o.container.id = some element) :
    (s.setObj k { o with destroys := o.destroys ++ [⟨element, .stop⟩] }).Inv := by
  set s' := s.setObj k { o with destroys := o.destroys ++ [⟨element, .stop⟩] } with hs'
  have hkept : s'.keptAt = s.keptAt := funext fun j => keptAt_setObj ho (by rfl) j
  have hreached : ∀ p : DestroyPc → Bool, p .stop = false → ∀ j,
      reached p s'.calls j = reached p s.calls j := by
    intro p hp j
    rw [hs', calls_setObj]
    apply reached_set p (callsAt ho)
    rw [List.any_append]
    simp [hp]
  refine ⟨?_, ?_, h.listed, ?_, fun j o' ho' call hcall => ?_, ?_, ?_⟩
  · rw [hkept]
    exact h.named
  · have hlength : s'.heap.length = s.heap.length := List.length_set
    rw [hlength]
    exact h.inHeap
  · rw [hkept]
    exact h.distinct
  · rw [hkept]
    obtain ⟨rfl, rfl⟩ | ⟨-, ho'⟩ := List.getElem?_set_cases ho'
    · obtain hcall | hcall := List.mem_append.mp hcall
      · exact h.found j o ho call hcall
      · rw [List.mem_singleton.mp hcall]
        obtain ⟨-, c, hc, hid⟩ := getContainerElement_some helem
        exact ⟨c, hc, hid⟩
    · exact h.found j o' ho' call hcall
  · refine h.saved.congr (fun j => and_congr_right fun _ => ?_) fun j _ => ?_
    · rw [emptied, emptied, hreached _ rfl]
    · rw [fileOf, fileOf, hkept]
  · rw [hkept]
    intro j hj hdropped
    apply h.rows j hj
    rw [dropped, ← hreached _ rfl]
    exact hdropped

theorem destroy (h : s.Inv) (ho : s.heap[k]? = some o) (hi : o.destroys[i]? = some call)
    (hown : s.RemovesOwn o call) {ok : Bool} {next : Option DestroyPc} {s' : Site α}
    (hstep : s.destroyStep o.container call ok = some (s', next)) :
    (s'.goOn k o i call next).Inv := by
  obtain ⟨element, pc⟩ := call
  cases pc with
  | stop =>
    simp only [destroyStep] at hstep
    split at hstep
    · split at hstep
      · cases hstep
      · cases hstep
        exact h.goOn ho hi (by simp) (by simp [DestroyPc.past])
    · cases hstep
      exact h.goOn ho hi (by simp) (by simp [DestroyPc.past])
  | umount =>
    simp only [destroyStep] at hstep
    split at hstep
    · cases hstep
      have humount : (s.unmount o.container.mountpoint.root).Inv := h.remount _
      apply humount.goOn ho hi
      · simp
      · simp [DestroyPc.past]
    · cases hstep
      exact h.goOn ho hi (by simp) (by simp [DestroyPc.past])
  | deregister =>
    simp only [destroyStep] at hstep
    split at hstep
    · cases hstep
      exact h.goOn ho hi (by simp) (by simp [DestroyPc.past])
    · cases hstep
      exact h.goOn ho hi (by simp) (by simp [DestroyPc.past])
  | delete =>
    cases hstep
    exact h.goOn_delete ho hi rfl hown
  | removeAll =>
    obtain ⟨hfinds, hmounted⟩ := hown
    simp only [destroyStep, if_neg hmounted] at hstep
    cases hstep
    exact h.goOn_removeAll ho hi rfl hfinds
  | remove =>
    cases hstep
    exact h.goOn_remove ho hi rfl

end Inv

end Site

/-! ## Loading -/

namespace Site

/-- A container has the id that is in its file. -/
theorem loadContainer_eq_some {name : GoString} {c : Container}
    (h : s.loadContainer name = some c) : ∃ d ∈ s.dirs, d.1 = name ∧ ∃ data ∈ d.2,
      c.id = data.id ∧ c.root = data.root ∧ c.state = newState := by
  simp only [loadContainer] at h
  split at h
  · cases h
  · next data hdata =>
    obtain ⟨d, hd, hdata⟩ := Option.bind_eq_some_iff.mp hdata
    obtain ⟨hmem, hname⟩ := lookupRow_eq_some hd
    split at h
    · cases h
    · cases h
      exact ⟨d, hmem, hname, data, hdata, rfl, rfl, rfl⟩

/-- If each file was saved for the directory it is in, loading gives each id once. -/
theorem restore_ids_nodup (hnames : (s.dirs.map Prod.fst).Nodup)
    (hsaved : ∀ d ∈ s.dirs, ∀ data ∈ d.2, data.id = d.1) :
    (s.restore.map Container.id).Nodup := by
  have hid : ∀ name c, s.loadContainer name = some c → c.id = name := by
    intro name c hload
    obtain ⟨d, hd, hname, data, hdata, hid, -, -⟩ := loadContainer_eq_some hload
    rw [hid, hsaved d hd data hdata, hname]
  have hread : s.readDir.Nodup := (List.mergeSort_perm _ _).nodup_iff.mpr hnames
  rw [restore, List.map_filterMap]
  apply hread.filterMap
  intro name name' id hname hname'
  obtain ⟨c, hc, rfl⟩ := Option.map_eq_some_iff.mp hname
  obtain ⟨c', hc', heq⟩ := Option.map_eq_some_iff.mp hname'
  rw [← hid name c hc, ← hid name' c' hc', heq]

/-- While no `Destroy` is half way, the known containers have their directories and rows. -/
theorem Settled.housed (hs : s.Settled) (k : Nat) : k ∈ s.containers ↔ s.housed k := by
  refine ⟨fun hk => ⟨hk, ?_⟩, fun h => h.1⟩
  have hdropped := hs k hk
  rw [dropped, ← Bool.not_eq_true] at hdropped
  rw [emptied, ← Bool.not_eq_true]
  intro hemptied
  apply hdropped
  rw [reached, List.any_eq_true] at hemptied ⊢
  obtain ⟨destroys, hmem, hany⟩ := hemptied
  obtain ⟨call, hcall, heq⟩ := List.any_eq_true.mp hany
  obtain ⟨helement, hpc⟩ := of_decide_eq_true heq
  refine ⟨destroys, hmem, List.any_eq_true.mpr ⟨call, hcall, decide_eq_true ⟨helement, ?_⟩⟩⟩
  rw [of_decide_eq_true hpc]
  rfl

namespace Inv

theorem names_nodup (h : s.Inv) : (s.dirs.map Prod.fst).Nodup := by
  have hnames := h.saved.keys
  rwa [List.map_map] at hnames

/-- The files are those of the known containers. -/
theorem saved_perm (h : s.Inv) (hs : s.Settled) :
    (s.dirs.map entry).Perm (s.kept.map fun c => (c.id, some c)) := by
  have hperm := h.saved.perm h.listed hs.housed
  rwa [kept, List.map_filterMap]

theorem kept_rows (h : s.Inv) (hs : s.Settled) : ∀ c ∈ s.kept, ∃ row ∈ s.store.mountpoints,
    row.root = c.mountpoint.root ∧ row.rw = c.mountpoint.rw := by
  intro c hc
  obtain ⟨k, hk, hck⟩ := List.mem_filterMap.mp hc
  exact h.rows k hk (hs k hk) c hck

/-- The fields of the file replace those the struct had, the mountpoint among them. -/
theorem loadContainer_eq (h : s.Inv) (hs : s.Settled) {d : GoString × Option Container}
    (hd : d ∈ s.dirs) : s.loadContainer d.1 = d.2.map Container.stopped := by
  obtain ⟨k, c, hk, hc, hid, hdata⟩ := h.owner hd
  obtain ⟨data, hdata', -⟩ := Option.map_eq_some_iff.mp hdata
  have hnamed := h.named k c hc
  obtain ⟨row, hrow, hroot, hrw⟩ := h.rows k hk.1 (hs k hk.1) c hc
  have hfetch : (s.store.fetchMountpoint (pathJoin [s.dirPath d.1, str "rootfs"])
      (pathJoin [s.dirPath d.1, str "rw"])).isSome := by
    rw [Store.fetchMountpoint, List.find?_isSome]
    refine ⟨row, hrow, ?_⟩
    simp only [hroot, hrw, hnamed.mount, hnamed.rw, hnamed.root, hid, dirPath, and_self,
      decide_true]
  obtain ⟨mp, hmp⟩ := Option.isSome_iff_exists.mp hfetch
  simp only [loadContainer, lookupRow_of_mem h.names_nodup hd, Option.bind_some, hdata', hmp]
  rfl

/-- What is loaded is what is known. -/
theorem restore_perm (h : s.Inv) (hs : s.Settled) : s.restore.Perm s.kept := by
  have hread : s.restore.Perm ((s.dirs.map Prod.fst).filterMap s.loadContainer) :=
    (List.mergeSort_perm _ _).filterMap _
  have hload : (s.dirs.map Prod.fst).filterMap s.loadContainer =
      (s.dirs.map entry).filterMap Prod.snd := by
    rw [List.filterMap_map, List.filterMap_map]
    exact List.filterMap_congr fun d hd => h.loadContainer_eq hs hd
  have hkept : (s.kept.map fun c => (c.id, some c)).filterMap Prod.snd = s.kept := by
    rw [List.filterMap_map]
    exact List.filterMap_some
  rw [hload] at hread
  have hsaved := (h.saved_perm hs).filterMap Prod.snd
  rw [hkept] at hsaved
  exact hread.trans hsaved

theorem stopped_of_mem {c : Container} (hc : c ∈ s.kept) : c.stopped = c := by
  obtain ⟨j, -, hj⟩ := List.mem_filterMap.mp hc
  obtain ⟨o, -, rfl⟩ := Option.map_eq_some_iff.mp hj
  exact stopped_stopped _

theorem known_newFromDirectory (s : Site α) : s.newFromDirectory.known = s.restore := by
  have hget :
      ∀ j : Nat, ((s.restore.map Object.idle)[j]?).map Object.container = s.restore[j]? := by
    intro j
    rw [List.getElem?_map, Option.map_map]
    exact Option.map_id'
  show (List.range s.restore.length).filterMap (fun j =>
    ((s.restore.map Object.idle)[j]?).map Object.container) = _
  simp only [hget]
  exact List.filterMap_range_getElem? _

/-- Nobody is at work on the containers of a new daemon. -/
theorem reached_newFromDirectory (s : Site α) (p : DestroyPc → Bool) (k : Nat) :
    reached p s.newFromDirectory.calls k = false := by
  rw [← Bool.not_eq_true, reached, List.any_eq_true]
  rintro ⟨destroys, hmem, hany⟩
  obtain ⟨o, ho, rfl⟩ := List.mem_map.mp hmem
  obtain ⟨c, -, rfl⟩ := List.mem_map.mp ho
  cases hany

theorem newFromDirectory (h : s.Inv) (hs : s.Settled) : s.newFromDirectory.Inv := by
  have hperm := h.restore_perm hs
  have hstopped : ∀ c ∈ s.restore, c.stopped = c := fun c hc => stopped_of_mem (hperm.subset hc)
  have hat : ∀ j c, s.newFromDirectory.keptAt j = some c ↔ s.restore[j]? = some c := by
    intro j c
    show ((s.restore.map Object.idle)[j]?).map _ = some c ↔ _
    rw [List.getElem?_map, Option.map_map, Option.map_eq_some_iff]
    constructor
    · rintro ⟨c', hc', rfl⟩
      rw [Function.comp_apply]
      show _ = some c'.stopped
      rw [hstopped c' (List.mem_of_getElem? hc'), hc']
    · intro hc
      exact ⟨c, hc, hstopped c (List.mem_of_getElem? hc)⟩
  -- a container has been loaded from each directory once, so the ids are different
  have hdistinct : ∀ i ∈ s.newFromDirectory.containers, ∀ j ∈ s.newFromDirectory.containers,
      ∀ c c', s.newFromDirectory.keptAt i = some c → s.newFromDirectory.keptAt j = some c' →
      c.id = c'.id → i = j := by
    intro i hi j _ c c' hic hjc heq
    have hids : (s.restore.map Container.id).Nodup := (hperm.map _).nodup_iff.mpr h.ids_nodup
    have hlt : i < (s.restore.map Container.id).length := by
      rw [List.length_map]
      exact List.mem_range.mp hi
    apply (List.getElem?_inj hlt hids).mp
    rw [List.getElem?_map, List.getElem?_map, (hat i c).mp hic, (hat j c').mp hjc,
      Option.map_some, Option.map_some, heq]
  refine ⟨fun j c hj => ?_, fun j hj => ?_, List.nodup_range, hdistinct,
    fun j o ho call hcall => ?_, ?_, fun j _ _ c hc => ?_⟩
  · exact h.named_of_mem (hperm.subset (List.mem_of_getElem? ((hat j c).mp hj)))
  · have hlength : s.newFromDirectory.heap.length = s.restore.length := List.length_map _
    rw [hlength]
    exact List.mem_range.mp hj
  · obtain ⟨c, -, rfl⟩ := List.mem_map.mp (List.mem_of_getElem? ho)
    exact absurd hcall List.not_mem_nil
  · have hfiles : s.newFromDirectory.containers.filterMap s.newFromDirectory.fileOf =
        s.restore.map fun c => (c.id, some c) := by
      have hlist : s.newFromDirectory.kept = s.restore := by
        rw [kept_eq, known_newFromDirectory, List.map_congr_left hstopped, List.map_id']
      rw [← hlist, kept, List.map_filterMap]
      rfl
    have hfile : ∀ j row, s.newFromDirectory.fileOf j = some row →
        ∃ c, s.newFromDirectory.keptAt j = some c ∧ row = (c.id, some c) := by
      intro j row hrow
      obtain ⟨c, hc, rfl⟩ := Option.map_eq_some_iff.mp hrow
      exact ⟨c, hc, rfl⟩
    have hsaved : (s.dirs.map entry).Perm
        (s.newFromDirectory.containers.filterMap s.newFromDirectory.fileOf) := by
      rw [hfiles]
      exact (h.saved_perm hs).trans (hperm.symm.map _)
    have howned := Owned.of_perm h.saved.keys hsaved (fun j hj => ?_)
      fun i hi j hj row row' hrow hrow' hkey => ?_
    · refine howned.congr (fun j => ?_) fun _ _ => rfl
      refine ⟨fun hj => hj.1, fun hj => ⟨hj, reached_newFromDirectory s _ j⟩⟩
    · obtain ⟨c, hc⟩ : ∃ c, s.restore[j]? = some c :=
        ⟨_, List.getElem?_eq_getElem (List.mem_range.mp hj)⟩
      exact ⟨(c.id, some c), by rw [fileOf, (hat j c).mpr hc, Option.map_some]⟩
    · obtain ⟨c, hc, rfl⟩ := hfile i row hrow
      obtain ⟨c', hc', rfl⟩ := hfile j row' hrow'
      exact hdistinct i hi j hj c c' hc hc' hkey
  · exact h.kept_rows hs c (hperm.subset (List.mem_of_getElem? ((hat j c).mp hc)))

/-! ## Steps -/

theorem act (h : s.Inv) (ho : s.heap[k]? = some o) {a : Act} {s' : Site α}
    (hown : SavesOwn s (.act k a)) (hact : s.act k o a = some s') : s'.Inv := by
  cases a with
  | ensureMounted =>
    simp only [Site.act] at hact
    -- a mount that fails leaves its traces as well
    split at hact
    · next s₁ hret =>
      cases hact
      obtain ⟨hinv, hheap⟩ := h.ensureMounted hret
      rw [← hheap] at ho
      exact hinv.setObj ho rfl rfl
    · next hret =>
      cases hact
      exact (h.ensureMounted hret).1
    · simp at hact
    · simp at hact
  | launch pid =>
    simp only [Site.act] at hact
    split at hact
    · simp at hact
    · cases pid with
      | none =>
        cases hact
        exact h.setObj ho rfl rfl
      | some pid =>
        simp only at hact
        split at hact <;> cases hact <;> exact h.setObj ho rfl rfl
  | saveStarted =>
    simp only [Site.act] at hact
    split at hact
    · simp at hact
    · cases hact
      exact (h.save ho hown).setObj ho rfl rfl
  | exit =>
    simp only [Site.act] at hact
    split at hact
    · simp at hact
    · cases hact
      exact (h.remount _).setObj ho rfl rfl
  | report exitCode =>
    simp only [Site.act] at hact
    split at hact
    · simp at hact
    · cases hact
      exact h.setObj ho rfl rfl
  | saveStopped =>
    simp only [Site.act] at hact
    split at hact
    · simp at hact
    · cases hact
      exact (h.save ho hown).setObj ho rfl rfl
  | lookup =>
    simp only [Site.act] at hact
    split at hact
    · cases hact
      exact h
    · next element helem =>
      cases hact
      exact h.lookup ho helem
  | destroy i ok =>
    obtain ⟨call, hi, hact⟩ := Option.bind_eq_some_iff.mp hact
    obtain ⟨⟨s₁, next⟩, hstep, rfl⟩ := Option.map_eq_some_iff.mp hact
    exact h.destroy ho hi (hown o ho call hi) hstep

theorem step (h : s.Inv) {op : SiteOp} {s' : Site α} (hown : SavesOwn s op)
    (hstep : s.step op = some s') : s'.Inv := by
  cases op with
  | create id created command args image config =>
    simp only [Site.step] at hstep
    split at hstep
    · next hid =>
      cases hstep
      exact h.create hid.1 created command args image config
    · simp at hstep
  | act k a =>
    obtain ⟨o, ho, hact⟩ := Option.bind_eq_some_iff.mp hstep
    exact h.act ho hown hact
  | restart =>
    cases hstep
    exact h.newFromDirectory hown

end Inv

end Site

/-- In every run in which a container is saved or removed only while the daemon knows no other one
    with its id, and no restart comes while a `Destroy` is half way: unless one is now, a restart
    finds the containers that the daemon knows, each once, with all that is to be kept of them, and
    none of them running. -/
theorem restart_keeps {s : Site α} (h : (siteSystem α).ReachableVia SavesOwn s)
    (hsettled : s.Settled) :
    s.newFromDirectory.known.Perm (s.known.map Container.stopped) ∧
    (s.newFromDirectory.known.map Container.id).Nodup ∧
    ∀ c ∈ s.newFromDirectory.known, c.state.running = false := by
  have hinv : s.Inv := h.invariant (fun _ => Site.Inv.fresh) fun _ _ _ hs hown hstep =>
    hs.step hown hstep
  have hperm := hinv.restore_perm hsettled
  rw [Site.Inv.known_newFromDirectory, ← Site.kept_eq]
  refine ⟨hperm, (hperm.map _).nodup_iff.mpr hinv.ids_nodup, fun c hc => ?_⟩
  rw [← Site.Inv.stopped_of_mem (hperm.subset hc)]
  rfl

/-- A daemon that has one image, and no containers. -/
def oneImageSite : Site Unit :=
  ⟨str "/c", { Store.empty (str "/i") with images := [⟨str "base", [], [], 0⟩] }, [], [], [], []⟩

theorem oneImageSite_reachable (ok : Site Unit → SiteOp → Prop) :
    (siteSystem Unit).ReachableVia ok oneImageSite :=
  .init ⟨rfl, rfl, rfl⟩

/-- `Create` of a container with the id `a` from that image. -/
def createA (created : Int) (command : GoString) : SiteOp :=
  .create (str "a") created command [] ⟨str "base", [], [], 0⟩ ⟨[], [], 0, 0, [], false, false⟩

theorem Site.restore_singleton {d : GoString × Option Container} (hd : s.dirs = [d]) :
    s.restore = (s.loadContainer d.1).toList := by
  have hread : s.readDir = [d.1] := by
    rw [readDir, hd, List.map_singleton, List.mergeSort_singleton]
  rw [restore, hread]
  cases hload : s.loadContainer d.1 with
  | none => rw [List.filterMap_cons_none hload]; rfl
  | some c => rw [List.filterMap_cons_some hload]; rfl

/-- A container whose process runs, and is loaded by the next daemon. -/
theorem restart_keeps_started :
    ∃ s, (siteSystem Unit).ReachableVia SavesOwn s ∧ s.known.map Container.id = [str "a"] ∧
      (s.known.map fun c => c.state.running) = [true] ∧
      s.newFromDirectory.known.Perm (s.known.map Container.stopped) := by
  have hs := (oneImageSite_reachable SavesOwn).runVia
    [createA 1 (str "x"), .act 0 .ensureMounted, .act 0 (.launch (some 7)), .act 0 .saveStarted]
    rfl
  exact ⟨_, hs, rfl, rfl, (restart_keeps hs (by decide)).1⟩

/-- What `Create` makes for the id `a`. -/
def containerA (created : Int) (command : GoString) : Container :=
  ⟨str "a", str "/c/a", created, command, [], ⟨[], [], 0, 0, [], false, false⟩,
    ⟨str "base", str "/c/a/rootfs", str "/c/a/rw"⟩, newState, str "base"⟩

/-- A second container has the id `a`, and the first one has been saved since. -/
def savedOver : Site Unit where
  repository := str "/c"
  store :=
    { Store.empty (str "/i") with
      images := [⟨str "base", [], [], 0⟩]
      mountpoints := [⟨str "base", str "/c/a/rootfs", str "/c/a/rw"⟩] }
  mounted := []
  dirs := [(str "a", some (containerA 1 (str "x")))]
  heap := [.idle (containerA 1 (str "x")), .idle (containerA 2 (str "y"))]
  containers := [1]

/-- While the monitor is between its unmount and `setStopped`, a `Start` mounts again and fails.
    The state says that the container is stopped, so it can be destroyed, mountpoint and all,
    and its id used for another container; then the monitor comes to its save. -/
theorem savedOver_reachable : (siteSystem Unit).Reachable savedOver := by
  have hinit : (siteSystem Unit).Reachable oneImageSite := oneImageSite_reachable _
  exact hinit.run
    [createA 1 (str "x"), .act 0 .ensureMounted, .act 0 (.launch (some 7)), .act 0 .saveStarted,
      .act 0 .exit, .act 0 .ensureMounted, .act 0 (.launch none), .act 0 (.report 0),
      .act 0 .lookup, .act 0 (.destroy 0 true), .act 0 (.destroy 0 true),
      .act 0 (.destroy 0 true), .act 0 (.destroy 0 true), .act 0 (.destroy 0 true),
      .act 0 (.destroy 0 true), createA 2 (str "y"), .act 0 .saveStopped]
    rfl

/-- The next daemon loads the container that was destroyed. -/
theorem destroyed_loaded :
    ∃ s, (siteSystem Unit).Reachable s ∧ s.Settled ∧
      s.known.map Container.path = [str "y"] ∧
      s.newFromDirectory.known.map Container.path = [str "x"] ∧
      ¬ s.newFromDirectory.known.Perm (s.known.map Container.stopped) := by
  have hload : savedOver.newFromDirectory.known = [containerA 1 (str "x")] := by
    rw [Site.Inv.known_newFromDirectory, Site.restore_singleton rfl]
    rfl
  refine ⟨savedOver, savedOver_reachable, by decide, rfl, ?_, fun hperm => ?_⟩
  · rw [hload]
    rfl
  · rw [hload] at hperm
    have hmem := hperm.subset List.mem_cons_self
    exact absurd hmem (by decide)

end Docker.Restore
