import DockerEngine.Native.Docker
import DockerEngine.ForStd.List
import DockerEngine.ForStd.Owned

/-!
# Mountpoints and containers

Every container the daemon knows is to have one row in the mountpoints table, and no one
else: the root is the key of the table, so a row that stays behind makes `Create` fail.
The row goes only if `Destroy` finds the filesystem mounted, and a `Start` can bring the
row of a destroyed container back. A `Destroy` that has been in `Stop` for long may delete
the row of another container, if its id was used again.

The owners of the rows are the listed containers, from the moment their `Create` has inserted the
row to the moment a `Destroy` has got past it.

- `step_registered`: what a step does to the rows and their owners
- `mountpoints_exactly`: the runs in which none of this happens
- `mountpoint_left`: a container that was never started leaves its row
-/

namespace Docker

open Go

variable {α : Type} {d d' : Daemon α} {k i : Nat} {c : ContainerObj} {call : DestroyCall}

/-- Some `Destroy` of the container at `k` is at one of the steps `p`; the calls are listed by the
    containers that they were made for. -/
def reached (p : DestroyPc → Bool) (calls : List (List DestroyCall)) (k : Nat) : Bool :=
  calls.any fun destroys => destroys.any fun call => call.element = k ∧ p call.pc

/-- What a step of a `Destroy` changes in it: the part of this call. -/
theorem reached_setDestroy (p : DestroyPc → Bool) {calls : List (List DestroyCall)}
    {destroys : List DestroyCall} (hk : calls[k]? = some destroys)
    (hi : destroys[i]? = some call) (next : Option DestroyPc) :
    ∃ others : Nat → Prop,
      (∀ j, reached p calls j = true ↔ others j ∨ call.element = j ∧ p call.pc = true) ∧
      ∀ j, reached p (calls.set k (setDestroy destroys i call next)) j = true ↔
        others j ∨ ∃ pc ∈ next, call.element = j ∧ p pc = true := by
  obtain ⟨l₁, l₂, hcalls, hset, -⟩ := List.exists_cut hk
  obtain ⟨m₁, m₂, hdestroys, hsetCall, herase⟩ := List.exists_cut hi
  refine ⟨fun j => (l₁.any (fun destroys => destroys.any fun call => call.element = j ∧ p call.pc) ∨
    l₂.any (fun destroys => destroys.any fun call => call.element = j ∧ p call.pc)) ∨
    (m₁.any (fun call => call.element = j ∧ p call.pc) ∨
      m₂.any fun call => call.element = j ∧ p call.pc), fun j => ?_, fun j => ?_⟩
  · rw [reached, hcalls, List.any_append, List.any_cons, hdestroys, List.any_append, List.any_cons]
    simp only [Bool.or_eq_true, decide_eq_true_eq]
    grind
  · rw [reached, hset, List.any_append, List.any_cons]
    cases next with
    | some pc =>
      simp only [setDestroy, hsetCall, List.any_append, List.any_cons, Bool.or_eq_true,
        decide_eq_true_eq, Option.mem_def, Option.some.injEq, exists_eq_left']
      grind
    | none =>
      simp only [setDestroy, herase, List.any_append, Bool.or_eq_true, Option.mem_def]
      grind

/-- Calls that are not at these steps make no difference. -/
theorem reached_set (p : DestroyPc → Bool) {calls : List (List DestroyCall)}
    {destroys destroys' : List DestroyCall} (hk : calls[k]? = some destroys) {j : Nat}
    (heq : (destroys'.any fun call => call.element = j ∧ p call.pc) =
      destroys.any fun call => call.element = j ∧ p call.pc) :
    reached p (calls.set k destroys') j = reached p calls j := by
  obtain ⟨l₁, l₂, hcalls, hset, -⟩ := List.exists_cut hk
  rw [reached, reached, hset, hcalls]
  simp only [List.any_append, List.any_cons, heq]

/-- The calls go on with the elements they have found. -/
theorem setDestroy_element {destroys : List DestroyCall} (hi : destroys[i]? = some call)
    {next : Option DestroyPc} {call' : DestroyCall}
    (hcall : call' ∈ setDestroy destroys i call next) :
    ∃ call₀ ∈ destroys, call₀.element = call'.element := by
  cases next with
  | some pc =>
    obtain hcall | rfl := List.mem_or_eq_of_mem_set hcall
    · exact ⟨call', hcall, rfl⟩
    · exact ⟨call, List.mem_of_getElem? hi, rfl⟩
  | none => exact ⟨call', List.mem_of_mem_eraseIdx hcall, rfl⟩

/-- The row of the container is gone, or `Destroy` has decided not to delete it. -/
def DestroyPc.past : DestroyPc → Bool
  | .removeAll | .remove => true
  | .stop | .umount | .deregister | .delete => false

namespace Daemon

def mountpointAt (d : Daemon α) (k : Nat) : Option Mountpoint :=
  d.heap[k]?.map ContainerObj.mountpoint

/-- A `Destroy` has got past the row of the container at `k`. -/
def dropped (d : Daemon α) (k : Nat) : Bool :=
  reached DestroyPc.past (d.heap.map ContainerObj.destroys) k

def createAt (d : Daemon α) (k : Nat) : Option CreatePc := d.heap[k]?.map ContainerObj.create

/-- The container at `k` owns a row: it is listed, or will be next, and is not being dropped. -/
def holds (d : Daemon α) (k : Nat) : Prop :=
  d.createAt k = some .pushBack ∨ k ∈ d.containers ∧ d.dropped k = false

instance (d : Daemon α) (k : Nat) : Decidable (d.holds k) :=
  inferInstanceAs (Decidable (_ ∨ _))

/-- What a `Destroy` finds: as long as its container owns a row, the filesystem is mounted,
    and then not mounted again; and the row it deletes is that of its container. -/
def Finds (d : Daemon α) (c : ContainerObj) (call : DestroyCall) : Prop :=
  match call.pc with
  | .umount => d.holds call.element → c.mountpoint.root ∈ d.mounted
  | .deregister => d.holds call.element → c.mountpoint.root ∉ d.mounted
  | .delete => ∀ j < d.heap.length, d.holds j →
    (∃ mp ∈ d.mountpointAt j, mp.root = c.mountpoint.root) → j = call.element
  | .stop | .removeAll | .remove => True

instance (d : Daemon α) (c : ContainerObj) : (call : DestroyCall) → Decidable (d.Finds c call)
  | ⟨element, .umount⟩ =>
    inferInstanceAs (Decidable (d.holds element → c.mountpoint.root ∈ d.mounted))
  | ⟨element, .deregister⟩ =>
    inferInstanceAs (Decidable (d.holds element → c.mountpoint.root ∉ d.mounted))
  | ⟨element, .delete⟩ => inferInstanceAs (Decidable (∀ j < d.heap.length, d.holds j →
      (∃ mp ∈ d.mountpointAt j, mp.root = c.mountpoint.root) → j = element))
  | ⟨_, .stop⟩ | ⟨_, .removeAll⟩ | ⟨_, .remove⟩ => inferInstanceAs (Decidable True)

end Daemon

/-- A `Start` finds the filesystem of its container mounted, or at least registered, and a
    `Destroy` finds what it needs to remove the row of its container and no other one. -/
def FindsMount (d : Daemon α) : DaemonOp → Prop
  | .ensureMounted k => ∀ c ∈ d.heap[k]?, c.mountpoint.root ∈ d.mounted ∨
      (d.store.fetchMountpoint c.mountpoint.root c.mountpoint.rw).isSome
  | .destroy k i _ => ∀ c ∈ d.heap[k]?, ∀ call ∈ c.destroys[i]?, d.Finds c call
  | _ => True

instance (d : Daemon α) : (op : DaemonOp) → Decidable (FindsMount d op)
  | .ensureMounted k => inferInstanceAs (Decidable (∀ c ∈ d.heap[k]?,
      c.mountpoint.root ∈ d.mounted ∨
        (d.store.fetchMountpoint c.mountpoint.root c.mountpoint.rw).isSome))
  | .destroy k i _ => inferInstanceAs (Decidable (∀ c ∈ d.heap[k]?, ∀ call ∈ c.destroys[i]?,
      d.Finds c call))
  | .create .. | .insert _ | .pushBack _ | .launch .. | .exit _ | .report _ | .lookup _ =>
    inferInstanceAs (Decidable True)

namespace Daemon

/-! ## Containers -/

theorem objects_map_mountpoint (d : Daemon α) :
    d.objects.map ContainerObj.mountpoint = d.containers.filterMap d.mountpointAt := by
  rw [objects, List.map_filterMap]
  rfl

theorem mem_objects (h : k ∈ d.containers) (hc : d.heap[k]? = some c) : c ∈ d.objects :=
  List.mem_filterMap.mpr ⟨k, h, hc⟩

theorem mem_heap_of_mem_objects (h : c ∈ d.objects) : c ∈ d.heap := by
  obtain ⟨k, -, hk⟩ := List.mem_filterMap.mp h
  exact List.mem_of_getElem? hk

theorem object_some (h : d.object k = some c) : d.heap[k]? = some c ∧ c.create = .done := by
  obtain ⟨hk, hdone⟩ := Option.filter_eq_some_iff.mp h
  exact ⟨hk, of_decide_eq_true hdone⟩

theorem getContainerElement_some {id : GoString} (h : d.getContainerElement id = some k) :
    k ∈ d.containers ∧ ∃ c, d.heap[k]? = some c ∧ c.id = id := by
  unfold getContainerElement at h
  refine ⟨List.mem_of_find?_eq_some h, ?_⟩
  have hid := List.find?_some h
  obtain ⟨c, hc, heq⟩ := (Option.any_eq_true _ _).mp hid
  exact ⟨c, hc, by simpa using heq⟩

/-- An id is free when no known container has it. -/
theorem containerExists_eq_false {id : GoString} (h : ∀ c ∈ d.objects, c.id ≠ id) :
    d.containerExists id = false := by
  cases hfind : d.getContainerElement id with
  | none => simp [containerExists, hfind]
  | some k =>
    obtain ⟨hk, c, hc, hid⟩ := getContainerElement_some hfind
    exact absurd hid (h c (mem_objects hk hc))

theorem mountpointAt_of_some (hk : d.heap[k]? = some c) : d.mountpointAt k = some c.mountpoint := by
  rw [mountpointAt, hk, Option.map_some]

/-- What is seen of the containers after one of them is replaced. -/
theorem map_setObj {β : Type*} (f : ContainerObj → β) (hk : d.heap[k]? = some c)
    (c' : ContainerObj) (j : Nat) :
    (d.setObj k c').heap[j]?.map f = if k = j then some (f c') else d.heap[j]?.map f := by
  have hlt := (List.getElem?_eq_some_iff.mp hk).1
  by_cases hkj : k = j
  · subst hkj
    rw [if_pos rfl, setObj, List.getElem?_set_self hlt, Option.map_some]
  · rw [if_neg hkj, setObj, List.getElem?_set_ne hkj]

theorem map_setObj_of_eq {β : Type*} {f : ContainerObj → β} (hk : d.heap[k]? = some c)
    {c' : ContainerObj} (hf : f c' = f c) (j : Nat) :
    (d.setObj k c').heap[j]?.map f = d.heap[j]?.map f := by
  rw [map_setObj f hk]
  split
  · next hkj =>
    subst hkj
    rw [hk, Option.map_some, hf]
  · rfl

theorem mountpointAt_setObj (hk : d.heap[k]? = some c) {c' : ContainerObj}
    (hmp : c'.mountpoint = c.mountpoint) (j : Nat) :
    (d.setObj k c').mountpointAt j = d.mountpointAt j :=
  map_setObj_of_eq hk hmp j

theorem createAt_setObj (hk : d.heap[k]? = some c) {c' : ContainerObj}
    (hcreate : c'.create = c.create) (j : Nat) : (d.setObj k c').createAt j = d.createAt j :=
  map_setObj_of_eq hk hcreate j

/-! ## Owners -/

theorem destroysAt (hk : d.heap[k]? = some c) :
    (d.heap.map ContainerObj.destroys)[k]? = some c.destroys := by
  rw [List.getElem?_map, hk, Option.map_some]

theorem dropped_setObj (hk : d.heap[k]? = some c) {c' : ContainerObj} {j : Nat}
    (hpast : (c'.destroys.any fun call => call.element = j ∧ call.pc.past) =
      c.destroys.any fun call => call.element = j ∧ call.pc.past) :
    (d.setObj k c').dropped j = d.dropped j := by
  rw [dropped, setObj, List.map_set]
  exact reached_set DestroyPc.past (destroysAt hk) hpast

theorem dropped_setDestroy (hk : d.heap[k]? = some c) (hi : c.destroys[i]? = some call)
    (next : Option DestroyPc) :
    ∃ others : Nat → Prop,
      (∀ j, d.dropped j = true ↔ others j ∨ call.element = j ∧ call.pc.past = true) ∧
      ∀ j, (d.setObj k { c with
          destroys := setDestroy c.destroys i call next }).dropped j = true ↔
        others j ∨ ∃ pc ∈ next, call.element = j ∧ pc.past = true := by
  obtain ⟨others, hbefore, hafter⟩ :=
    reached_setDestroy DestroyPc.past (destroysAt hk) hi next
  refine ⟨others, hbefore, fun j => ?_⟩
  rw [dropped, setObj, List.map_set]
  exact hafter j

/-! ## Rows -/

/-- A row that is registered was not there, and is added at the end. -/
theorem mountpoint_ok {store : Store α} {image : Image} {root rw : GoString} {mp : Mountpoint}
    {store' : Store α} (hmp : store.mountpoint image root rw none = (.ok mp, store')) :
    mp = ⟨image.id, clean root, clean rw⟩ ∧
      mp.root ∉ store.mountpoints.map Mountpoint.root ∧
      store' = { store with mountpoints := store.mountpoints ++ [mp] } := by
  simp only [Store.mountpoint] at hmp
  split at hmp
  · simp at hmp
  · next hkey =>
    cases hmp
    exact ⟨rfl, hkey, rfl⟩

theorem mountpoint_error {store : Store α} {image : Image} {root rw err : GoString}
    {store' : Store α} (hmp : store.mountpoint image root rw none = (.error err, store')) :
    store' = store := by
  simp only [Store.mountpoint] at hmp
  split at hmp
  · cases hmp
    rfl
  · simp at hmp

/-- A mountpoint that is mounted or registered: mounting it adds no row. -/
theorem ensureMounted_ret {mp : Mountpoint} {err : Option GoString}
    (hmp : mp.root ∈ d.mounted ∨ (d.store.fetchMountpoint mp.root mp.rw).isSome)
    (hret : d.ensureMounted mp = .ret (err, d')) :
    err = none ∧ ∃ mounted, d' = { d with mounted } := by
  unfold Daemon.ensureMounted at hret
  split at hret
  · cases hret
    exact ⟨rfl, _, rfl⟩
  · next hroot =>
    split at hret
    · simp at hret
    · next img himg =>
      obtain ⟨row, hrow⟩ := Option.isSome_iff_exists.mp (hmp.resolve_left hroot)
      simp only [Store.mountRow, hrow] at hret
      cases hret
      exact ⟨rfl, _, rfl⟩

/-! ## What the operations preserve -/

/-- The containers: their paths follow from their ids, and a `Destroy` has found a container with
    the id of its own. -/
structure Shaped (d : Daemon α) : Prop where
  listed : d.containers.Nodup
  inHeap : ∀ k ∈ d.containers, ∃ c, d.heap[k]? = some c ∧ c.create = .done
  paths : ∀ c ∈ d.heap, c.root = pathJoin [d.repository, c.id] ∧
    c.mountpoint.root = pathJoin [c.root, str "rootfs"] ∧
    c.mountpoint.rw = pathJoin [c.root, str "rw"]
  calls : ∀ c ∈ d.heap, ∀ call ∈ c.destroys, ∃ c', d.heap[call.element]? = some c' ∧
    c'.create = .done ∧ c'.id = c.id

/-- The rows are those of their owners. -/
structure Registered (d : Daemon α) : Prop extends Shaped d where
  rows : Owned d.store.mountpoints Mountpoint.root d.mountpointAt d.holds

namespace Shaped

/-- Containers with one id have one root. -/
theorem root_eq (h : d.Shaped) {c₁ c₂ : ContainerObj} (h₁ : c₁ ∈ d.heap) (h₂ : c₂ ∈ d.heap)
    (hid : c₁.id = c₂.id) : c₁.mountpoint.root = c₂.mountpoint.root := by
  obtain ⟨hroot₁, hmp₁, -⟩ := h.paths c₁ h₁
  obtain ⟨hroot₂, hmp₂, -⟩ := h.paths c₂ h₂
  rw [hmp₁, hmp₂, hroot₁, hroot₂, hid]

/-- What a `Destroy` has found under the id of its container: another container maybe, but with the
    same root. -/
theorem element (h : d.Shaped) (hk : d.heap[k]? = some c) (hcall : call ∈ c.destroys) :
    ∃ c', d.heap[call.element]? = some c' ∧ c'.create = .done ∧
      c'.mountpoint.root = c.mountpoint.root := by
  obtain ⟨c', hc', hdone, hid⟩ := h.calls c (List.mem_of_getElem? hk) call hcall
  exact ⟨c', hc', hdone, h.root_eq (List.mem_of_getElem? hc') (List.mem_of_getElem? hk) hid⟩

/-- A container is replaced by one with the same paths. -/
theorem setObj (h : d.Shaped) (hk : d.heap[k]? = some c) {c' : ContainerObj} (hid : c'.id = c.id)
    (hroot : c'.root = c.root) (hmp : c'.mountpoint.root = c.mountpoint.root)
    (hrw : c'.mountpoint.rw = c.mountpoint.rw) (hdone : c.create = .done → c'.create = .done)
    (hcalls : ∀ call ∈ c'.destroys, ∃ o, d.heap[call.element]? = some o ∧ o.create = .done ∧
      o.id = c.id) : (d.setObj k c').Shaped := by
  -- what was found is still there
  have hstill : ∀ {j : Nat} {o : ContainerObj} {id : GoString}, d.heap[j]? = some o →
      o.create = .done → o.id = id →
      ∃ o', (d.setObj k c').heap[j]? = some o' ∧ o'.create = .done ∧ o'.id = id := by
    intro j o id hj hodone hoid
    show ∃ o', (d.heap.set k c')[j]? = some o' ∧ _
    rw [List.getElem?_set]
    split
    · next hkj =>
      subst hkj
      rw [hk] at hj
      cases hj
      have hlt := (List.getElem?_eq_some_iff.mp hk).1
      exact ⟨c', if_pos hlt, hdone hodone, hid.trans hoid⟩
    · exact ⟨o, hj, hodone, hoid⟩
  refine ⟨h.listed, fun j hj => ?_, fun x hx => ?_, fun x hx call hcall => ?_⟩
  · obtain ⟨o, ho, hodone⟩ := h.inHeap j hj
    obtain ⟨o', ho', hodone', -⟩ := hstill ho hodone rfl
    exact ⟨o', ho', hodone'⟩
  · obtain hx | rfl := List.mem_or_eq_of_mem_set hx
    · exact h.paths x hx
    · rw [hid, hroot, hmp, hrw]
      exact h.paths c (List.mem_of_getElem? hk)
  · obtain hx | rfl := List.mem_or_eq_of_mem_set hx
    · obtain ⟨o, ho, hodone, hoid⟩ := h.calls x hx call hcall
      exact hstill ho hodone hoid
    · obtain ⟨o, ho, hodone, hoid⟩ := hcalls call hcall
      rw [hid]
      exact hstill ho hodone hoid

/-- A new container is not listed, and nobody destroys it. -/
theorem new (h : d.Shaped) (id : GoString) (image : Image) :
    Shaped { d with heap := d.heap ++ [d.newContainer id image] } := by
  have hstill : ∀ {j : Nat} {o : ContainerObj}, d.heap[j]? = some o →
      (d.heap ++ [d.newContainer id image])[j]? = some o := List.getElem?_concat_of_some
  refine ⟨h.listed, fun j hj => ?_, fun x hx => ?_, fun x hx call hcall => ?_⟩
  · obtain ⟨o, ho, hdone⟩ := h.inHeap j hj
    exact ⟨o, hstill ho, hdone⟩
  · obtain hx | hx := List.mem_append.mp hx
    · exact h.paths x hx
    · rw [List.mem_singleton.mp hx]
      refine ⟨rfl, ?_, ?_⟩
      · exact clean_pathJoin (str "rootfs") (by simp) (by decide)
      · exact clean_pathJoin (str "rw") (by simp) (by decide)
  · obtain hx | hx := List.mem_append.mp hx
    · obtain ⟨o, ho, hrest⟩ := h.calls x hx call hcall
      exact ⟨o, hstill ho, hrest⟩
    · rw [List.mem_singleton.mp hx] at hcall
      exact absurd hcall List.not_mem_nil

end Shaped

namespace Registered

theorem mem_row (h : d.Registered) (hk : d.heap[k]? = some c) (hholds : d.holds k) :
    c.mountpoint ∈ d.store.mountpoints :=
  h.rows.row_mem hholds (mountpointAt_of_some hk)

/-- A `Start` of a container that owns a row finds it. -/
theorem fetch (h : d.Registered) (hk : d.heap[k]? = some c) (hholds : d.holds k) :
    (d.store.fetchMountpoint c.mountpoint.root c.mountpoint.rw).isSome := by
  rw [Store.fetchMountpoint, List.find?_isSome]
  exact ⟨c.mountpoint, h.mem_row hk hholds, by simp⟩

theorem mount (h : d.Registered) (mounted : List GoString) : Registered { d with mounted } :=
  ⟨⟨h.listed, h.inHeap, h.paths, h.calls⟩, h.rows⟩

/-- A container is replaced by one that owns the same row. -/
theorem setObj (h : d.Registered) (hk : d.heap[k]? = some c) {c' : ContainerObj}
    (hid : c'.id = c.id) (hroot : c'.root = c.root) (hmp : c'.mountpoint = c.mountpoint)
    (hcreate : c'.create = c.create)
    (hcalls : ∀ call ∈ c'.destroys, ∃ o, d.heap[call.element]? = some o ∧ o.create = .done ∧
      o.id = c.id)
    (hholds : ∀ j, (d.setObj k c').holds j ↔ d.holds j) : (d.setObj k c').Registered := by
  refine ⟨h.toShaped.setObj hk hid hroot ?_ ?_ (fun hdone => hcreate.trans hdone) hcalls, ?_⟩
  · rw [hmp]
  · rw [hmp]
  · exact h.rows.congr hholds fun j _ => mountpointAt_setObj hk hmp j

theorem holds_setObj (hk : d.heap[k]? = some c) {c' : ContainerObj} (hcreate : c'.create = c.create)
    (hdropped : ∀ j, (d.setObj k c').dropped j = d.dropped j) (j : Nat) :
    (d.setObj k c').holds j ↔ d.holds j := by
  rw [holds, holds, createAt_setObj hk hcreate, hdropped j]
  rfl

/-- A step of a `Start` or a monitor. -/
theorem quiet (h : d.Registered) (hk : d.heap[k]? = some c) {c' : ContainerObj}
    (hid : c'.id = c.id) (hroot : c'.root = c.root) (hmp : c'.mountpoint = c.mountpoint)
    (hcreate : c'.create = c.create) (hdestroys : c'.destroys = c.destroys) :
    (d.setObj k c').Registered := by
  refine h.setObj hk hid hroot hmp hcreate ?_ (holds_setObj hk hcreate fun j => ?_)
  · rw [hdestroys]
    exact h.calls c (List.mem_of_getElem? hk)
  · apply dropped_setObj hk
    rw [hdestroys]

end Registered

/-! ## Creating and destroying -/

namespace Registered

theorem create (h : d.Registered) (id : GoString) (image : Image) :
    (d.create id image).Registered := by
  unfold Daemon.create
  split
  · exact h
  · refine ⟨h.toShaped.new id image, h.rows.congr (fun j => ?_) fun j hj => ?_⟩
    · have hpush : (d.heap ++ [d.newContainer id image])[j]?.map ContainerObj.create =
          some .pushBack ↔ d.createAt j = some .pushBack := by
        constructor
        · intro hj
          obtain ⟨o, ho, hpush⟩ := Option.map_eq_some_iff.mp hj
          obtain ho | ⟨-, rfl⟩ := List.getElem?_concat_cases ho
          · rw [createAt, ho, Option.map_some, hpush]
          · cases hpush
        · intro hj
          obtain ⟨o, ho, hpush⟩ := Option.map_eq_some_iff.mp hj
          rw [List.getElem?_concat_of_some ho, Option.map_some, hpush]
      have hdropped : Daemon.dropped { d with heap := d.heap ++ [d.newContainer id image] } j =
          d.dropped j := by
        simp [dropped, reached, newContainer]
      rw [holds, createAt, hpush, hdropped]
      rfl
    · -- the other pointers still point to what they pointed to
      obtain ⟨row, -, hrow⟩ := h.rows.row j hj
      obtain ⟨c, hc, -⟩ := Option.map_eq_some_iff.mp hrow
      rw [mountpointAt_of_some hc]
      exact mountpointAt_of_some (List.getElem?_concat_of_some hc)

/-- An inserted row is owned by the container it was inserted for. -/
theorem insert (h : d.Registered) (hk : d.heap[k]? = some c) {image : Image}
    (hinsert : c.create = .insert image) {mp : Mountpoint} {store : Store α}
    (hmp : d.store.mountpoint image (pathJoin [c.root, str "rootfs"]) (pathJoin [c.root, str "rw"])
      none = (.ok mp, store)) {c' : ContainerObj} (hid : c'.id = c.id) (hroot' : c'.root = c.root)
    (hmp' : c'.mountpoint = mp) (hcreate : c'.create = .pushBack)
    (hdestroys : c'.destroys = c.destroys) : Registered ({ d with store }.setObj k c') := by
  obtain ⟨hrow, hkey, hstore⟩ := mountpoint_ok hmp
  obtain ⟨-, hroot, hrw⟩ := h.paths c (List.mem_of_getElem? hk)
  have hne : c.create ≠ .done := by
    rw [hinsert]
    exact fun e => by cases e
  have hunlisted : k ∉ d.containers := by
    intro hmem
    obtain ⟨o, ho, hdone⟩ := h.inHeap k hmem
    rw [hk] at ho
    cases ho
    exact hne hdone
  have hshaped : (d.setObj k c').Shaped := by
    refine h.toShaped.setObj hk hid hroot' ?_ ?_ (fun hdone => absurd hdone hne) ?_
    · rw [hroot, hmp', hrow]
      exact clean_pathJoin (str "rootfs") (by simp) (by decide)
    · rw [hrw, hmp', hrow]
      exact clean_pathJoin (str "rw") (by simp) (by decide)
    · rw [hdestroys]
      exact h.calls c (List.mem_of_getElem? hk)
  have hrows : Owned (d.store.mountpoints ++ [mp]) Mountpoint.root (d.setObj k c').mountpointAt
      (d.setObj k c').holds := by
    have hdropped : ∀ j, (d.setObj k c').dropped j = d.dropped j := fun j =>
      dropped_setObj hk (by rw [hdestroys])
    refine h.rows.insert k hkey (fun j => ?_) ?_ fun j hj => ?_
    · rw [holds, createAt, map_setObj _ hk, hdropped, holds, hcreate]
      show _ ∨ j ∈ d.containers ∧ d.dropped j = false ↔ _
      by_cases hkj : k = j
      · simp [hkj]
      · simp [hkj, Ne.symm hkj, createAt]
    · rw [mountpointAt, map_setObj _ hk, if_pos rfl, hmp']
    · rw [mountpointAt, map_setObj _ hk, if_neg]
      · rfl
      · rintro rfl
        obtain hpush | ⟨hmem, -⟩ := hj
        · rw [createAt, hk, Option.map_some, hinsert] at hpush
          cases hpush
        · exact hunlisted hmem
  rw [hstore]
  exact ⟨⟨hshaped.listed, hshaped.inHeap, hshaped.paths, hshaped.calls⟩, hrows⟩

/-- The row was inserted for nobody. -/
theorem insertFails (h : d.Registered) (hk : d.heap[k]? = some c) {image : Image}
    (hinsert : c.create = .insert image) {c' : ContainerObj} (hid : c'.id = c.id)
    (hroot : c'.root = c.root) (hmp : c'.mountpoint = c.mountpoint) {err : GoString}
    (hcreate : c'.create = .failed err) (hdestroys : c'.destroys = c.destroys) :
    (d.setObj k c').Registered := by
  refine ⟨h.toShaped.setObj hk hid hroot ?_ ?_ (fun hdone => ?_) ?_, ?_⟩
  · rw [hmp]
  · rw [hmp]
  · rw [hinsert] at hdone
    cases hdone
  · rw [hdestroys]
    exact h.calls c (List.mem_of_getElem? hk)
  · refine h.rows.congr (fun j => ?_) fun j _ => mountpointAt_setObj hk hmp j
    have hdropped : (d.setObj k c').dropped j = d.dropped j :=
      dropped_setObj hk (by rw [hdestroys])
    rw [holds, createAt, map_setObj _ hk, hdropped, holds, hcreate]
    show _ ∨ j ∈ d.containers ∧ d.dropped j = false ↔ _
    by_cases hkj : k = j
    · subst hkj
      simp [createAt, hk, hinsert]
    · simp [hkj, createAt]

/-- The container that is listed has its row already. -/
theorem pushBack (h : d.Registered) (hk : d.heap[k]? = some c) (hpush : c.create = .pushBack)
    {c' : ContainerObj} (hid : c'.id = c.id) (hroot : c'.root = c.root)
    (hmp : c'.mountpoint = c.mountpoint) (hcreate : c'.create = .done)
    (hdestroys : c'.destroys = c.destroys) :
    Registered ({ d with containers := d.containers ++ [k] }.setObj k c') := by
  have hne : c.create ≠ .done := by
    rw [hpush]
    exact fun e => by cases e
  have hunlisted : k ∉ d.containers := by
    intro hmem
    obtain ⟨o, ho, hdone⟩ := h.inHeap k hmem
    rw [hk] at ho
    cases ho
    exact hne hdone
  -- nobody can have found it in the list
  have hkept : d.dropped k = false := by
    rw [Bool.eq_false_iff]
    intro hdropped
    obtain ⟨destroys, hdestroys, hcalls⟩ := List.any_eq_true.mp hdropped
    obtain ⟨x, hx, rfl⟩ := List.mem_map.mp hdestroys
    obtain ⟨call, hcall, heq⟩ := List.any_eq_true.mp hcalls
    obtain ⟨o, ho, hdone, -⟩ := h.calls x hx call hcall
    rw [(of_decide_eq_true heq).1, hk] at ho
    cases ho
    exact hne hdone
  have hshaped : (d.setObj k c').Shaped := by
    refine h.toShaped.setObj hk hid hroot ?_ ?_ (fun _ => hcreate) ?_
    · rw [hmp]
    · rw [hmp]
    · rw [hdestroys]
      exact h.calls c (List.mem_of_getElem? hk)
  refine ⟨⟨?_, fun j hj => ?_, hshaped.paths, hshaped.calls⟩, ?_⟩
  · have hnodup := h.listed.concat hunlisted
    rwa [List.concat_eq_append] at hnodup
  · obtain hj | hj := List.mem_append.mp hj
    · exact hshaped.inHeap j hj
    · rw [List.mem_singleton.mp hj]
      have hlt := (List.getElem?_eq_some_iff.mp hk).1
      exact ⟨c', List.getElem?_set_self hlt, hcreate⟩
  · refine h.rows.congr (fun j => ?_) fun j _ => mountpointAt_setObj hk hmp j
    have hdropped : (d.setObj k c').dropped j = d.dropped j :=
      dropped_setObj hk (by rw [hdestroys])
    show (d.setObj k c').createAt j = _ ∨
      j ∈ d.containers ++ [k] ∧ (d.setObj k c').dropped j = _ ↔ _
    rw [createAt, map_setObj _ hk, hdropped, holds, hcreate]
    by_cases hkj : k = j
    · subst hkj
      simp [createAt, hk, hpush, hkept]
    · simp [hkj, Ne.symm hkj, createAt]

/-- A `Destroy` begins. -/
theorem lookup (h : d.Registered) (hk : d.heap[k]? = some c) {element : Nat}
    (helem : d.getContainerElement c.id = some element) {c' : ContainerObj} (hid : c'.id = c.id)
    (hroot : c'.root = c.root) (hmp : c'.mountpoint = c.mountpoint) (hcreate : c'.create = c.create)
    (hdestroys : c'.destroys = c.destroys ++ [⟨element, .stop⟩]) : (d.setObj k c').Registered := by
  refine h.setObj hk hid hroot hmp hcreate (fun call hcall => ?_)
    (holds_setObj hk hcreate fun j => ?_)
  · rw [hdestroys] at hcall
    obtain hcall | hcall := List.mem_append.mp hcall
    · exact h.calls c (List.mem_of_getElem? hk) call hcall
    · rw [List.mem_singleton.mp hcall]
      obtain ⟨hmem, o, ho, hoid⟩ := getContainerElement_some helem
      obtain ⟨o', ho', hdone⟩ := h.inHeap element hmem
      rw [ho] at ho'
      cases ho'
      exact ⟨o, ho, hdone, hoid⟩
  · apply dropped_setObj hk
    rw [hdestroys, List.any_append]
    simp [DestroyPc.past]

end Registered

/-! ## The steps of a `Destroy` -/

namespace Registered

/-- The container, with a `Destroy` at another step. -/
theorem shaped_setDestroy (h : d.Registered) (hk : d.heap[k]? = some c)
    (hi : c.destroys[i]? = some call) (next : Option DestroyPc) :
    (d.setObj k { c with destroys := setDestroy c.destroys i call next }).Shaped := by
  refine h.toShaped.setObj hk rfl rfl rfl rfl (fun hdone => hdone) fun call' hcall' => ?_
  obtain ⟨call₀, hcall₀, heq⟩ := setDestroy_element hi hcall'
  rw [← heq]
  exact h.calls c (List.mem_of_getElem? hk) call₀ hcall₀

/-- A step that changes neither the list nor the rows, and drops no owner. -/
theorem destroy_keeps (h : d.Registered) (hk : d.heap[k]? = some c)
    (hi : c.destroys[i]? = some call) {next : Option DestroyPc}
    (hpast : (∃ pc ∈ next, pc.past = true) → call.pc.past = true ∨ ¬d.holds call.element)
    (hback : call.pc.past = true → ∃ pc ∈ next, pc.past = true) :
    (d.setObj k { c with destroys := setDestroy c.destroys i call next }).Registered := by
  refine ⟨h.shaped_setDestroy hk hi next, h.rows.congr (fun j => ?_) fun j _ => ?_⟩
  · obtain ⟨others, hbefore, hafter⟩ := dropped_setDestroy hk hi next
    rw [holds, holds, createAt_setObj hk (by rfl), ← Bool.not_eq_true, ← Bool.not_eq_true, hafter,
      hbefore]
    refine or_congr_right (and_congr_right fun hmem => ?_)
    replace hmem : j ∈ d.containers := hmem
    by_cases hj : call.element = j
    · subst hj
      constructor
      · rintro hnot (hothers | ⟨-, hcall⟩)
        · exact hnot (.inl hothers)
        · obtain ⟨pc, hpc, hnext⟩ := hback hcall
          exact hnot (.inr ⟨pc, hpc, rfl, hnext⟩)
      · rintro hnot (hothers | ⟨pc, hpc, -, hnext⟩)
        · exact hnot (.inl hothers)
        · obtain hcall | hholds := hpast ⟨pc, hpc, hnext⟩
          · exact hnot (.inr ⟨rfl, hcall⟩)
          · apply hholds
            refine .inr ⟨hmem, ?_⟩
            rw [← Bool.not_eq_true, hbefore]
            exact hnot
    · simp [hj]
  · exact mountpointAt_setObj hk (by rfl) j

/-- The row goes, and the container does not own it any more. -/
theorem destroy_delete (h : d.Registered) (hk : d.heap[k]? = some c)
    (hi : c.destroys[i]? = some call) (hpc : call.pc = .delete)
    (hown : ∀ j < d.heap.length, d.holds j →
      (∃ mp ∈ d.mountpointAt j, mp.root = c.mountpoint.root) → j = call.element) :
    Registered ({ d with store := d.store.deleteMountpoint c.mountpoint }.setObj k
      { c with destroys := setDestroy c.destroys i call (some .removeAll) }) := by
  have hshaped := h.shaped_setDestroy hk hi (some .removeAll)
  refine ⟨⟨hshaped.listed, hshaped.inHeap, hshaped.paths, hshaped.calls⟩, ?_⟩
  obtain ⟨c', hc', hdone, hroot⟩ := h.element hk (List.mem_of_getElem? hi)
  have hdelete : Owned (d.store.deleteMountpoint c.mountpoint).mountpoints Mountpoint.root
      d.mountpointAt fun j => d.holds j ∧ j ≠ call.element := by
    refine h.rows.delete call.element (fun _ => .rfl) (fun mp hmp => ?_) fun j mp hj hmp heq => ?_
    · rw [mountpointAt_of_some hc'] at hmp
      cases hmp
      exact hroot
    · obtain ⟨o, ho, -⟩ := Option.map_eq_some_iff.mp hmp
      exact hown j (List.getElem?_eq_some_iff.mp ho).1 hj ⟨mp, hmp, heq⟩
  refine hdelete.congr (fun j => ?_) fun j _ => mountpointAt_setObj hk (by rfl) j
  obtain ⟨others, hbefore, hafter⟩ := dropped_setDestroy hk hi (some .removeAll)
  show (d.setObj k _).createAt j = _ ∨ j ∈ d.containers ∧ (d.setObj k _).dropped j = _ ↔ _
  rw [createAt_setObj hk (by rfl), holds, ← Bool.not_eq_true, ← Bool.not_eq_true, hafter, hbefore,
    hpc]
  by_cases hj : call.element = j
  · subst hj
    simp [createAt, hc', hdone, DestroyPc.past]
  · simp [hj, Ne.symm hj, DestroyPc.past]

/-- The container leaves the list, where it did not own a row any more. -/
theorem destroy_remove (h : d.Registered) (hk : d.heap[k]? = some c)
    (hi : c.destroys[i]? = some call) (hpc : call.pc = .remove) :
    Registered ({ d with containers := d.containers.erase call.element }.setObj k
      { c with destroys := setDestroy c.destroys i call none }) := by
  have hshaped := h.shaped_setDestroy hk hi none
  refine ⟨⟨h.listed.erase _, fun j hj => hshaped.inHeap j (List.mem_of_mem_erase hj),
    hshaped.paths, hshaped.calls⟩, ?_⟩
  refine h.rows.congr (fun j => ?_) fun j _ => mountpointAt_setObj hk (by rfl) j
  obtain ⟨others, hbefore, hafter⟩ := dropped_setDestroy hk hi none
  show (d.setObj k _).createAt j = _ ∨ j ∈ d.containers.erase call.element ∧
    (d.setObj k _).dropped j = _ ↔ _
  rw [createAt_setObj hk (by rfl), holds, ← Bool.not_eq_true, ← Bool.not_eq_true, hafter, hbefore,
    hpc,
    h.listed.mem_erase_iff]
  by_cases hj : call.element = j
  · subst hj
    simp [DestroyPc.past]
  · simp [hj, Ne.symm hj]

theorem destroy (h : d.Registered) (hk : d.heap[k]? = some c) (hi : c.destroys[i]? = some call)
    (hfinds : d.Finds c call) {ok : Bool} {next : Option DestroyPc}
    (hstep : d.destroyStep c call ok = some (d', next)) :
    (d'.setObj k { c with destroys := setDestroy c.destroys i call next }).Registered := by
  obtain ⟨element, pc⟩ := call
  cases pc with
  | stop =>
    simp only [destroyStep] at hstep
    split at hstep
    · split at hstep
      · cases hstep
      · cases hstep
        exact h.destroy_keeps hk hi (by simp [DestroyPc.past]) (by simp [DestroyPc.past])
    · cases hstep
      exact h.destroy_keeps hk hi (by simp) (by simp [DestroyPc.past])
  | umount =>
    simp only [destroyStep] at hstep
    split at hstep
    · cases hstep
      have humount : (d.unmount c.mountpoint.root).Registered := h.mount _
      refine humount.destroy_keeps hk hi ?_ ?_
      · simp [DestroyPc.past]
      · simp [DestroyPc.past]
    · next hmounted =>
      cases hstep
      exact h.destroy_keeps hk hi (fun _ => .inr fun hholds => hmounted (hfinds hholds))
        (by simp [DestroyPc.past])
  | deregister =>
    simp only [destroyStep] at hstep
    split at hstep
    · next hmounted =>
      cases hstep
      exact h.destroy_keeps hk hi (fun _ => .inr fun hholds => hfinds hholds hmounted)
        (by simp [DestroyPc.past])
    · cases hstep
      exact h.destroy_keeps hk hi (by simp [DestroyPc.past]) (by simp [DestroyPc.past])
  | delete =>
    cases hstep
    exact h.destroy_delete hk hi rfl hfinds
  | removeAll =>
    cases hstep
    exact h.destroy_keeps hk hi (fun _ => .inl rfl) fun _ => ⟨.remove, rfl, rfl⟩
  | remove =>
    cases hstep
    exact h.destroy_remove hk hi rfl

end Registered

/-! ## Runs -/

theorem step_registered {op : DaemonOp} (h : d.Registered) (hop : FindsMount d op)
    (hstep : d.step op = some d') : d'.Registered := by
  cases op with
  | create id image =>
    simp only [step] at hstep
    split at hstep
    · cases hstep
      exact h.create id image
    · simp at hstep
  | insert k =>
    obtain ⟨c, hk, hstep⟩ := Option.bind_eq_some_iff.mp hstep
    split at hstep
    · next image hinsert =>
      split at hstep
      · next hmp =>
        cases hstep
        rw [mountpoint_error hmp]
        exact h.insertFails hk hinsert rfl rfl rfl rfl rfl
      · next hmp =>
        cases hstep
        exact h.insert hk hinsert hmp rfl rfl rfl rfl rfl
    · cases hstep
  | pushBack k =>
    obtain ⟨c, hk, hstep⟩ := Option.bind_eq_some_iff.mp hstep
    split at hstep
    · next hpush =>
      cases hstep
      exact h.pushBack hk hpush rfl rfl rfl rfl rfl
    · cases hstep
  | ensureMounted k =>
    obtain ⟨c, hobj, hstep⟩ := Option.bind_eq_some_iff.mp hstep
    obtain ⟨hk, -⟩ := object_some hobj
    split at hstep
    · next d₁ hret =>
      obtain ⟨-, mounted, rfl⟩ := ensureMounted_ret (hop c hk) hret
      cases hstep
      exact (h.mount mounted).quiet hk rfl rfl rfl rfl rfl
    -- nothing has to be registered, so nothing fails
    · next err d₁ hret =>
      obtain ⟨hnone, -⟩ := ensureMounted_ret (hop c hk) hret
      simp at hnone
    · simp at hstep
    · simp at hstep
  | launch k ok =>
    obtain ⟨c, hobj, hstep⟩ := Option.bind_eq_some_iff.mp hstep
    obtain ⟨hk, -⟩ := object_some hobj
    split at hstep
    · simp at hstep
    · split at hstep
      · cases hstep
        exact h.quiet hk rfl rfl rfl rfl rfl
      · cases hstep
        exact h.quiet hk rfl rfl rfl rfl rfl
  | exit k =>
    obtain ⟨c, hobj, hstep⟩ := Option.bind_eq_some_iff.mp hstep
    obtain ⟨hk, -⟩ := object_some hobj
    split at hstep
    · simp at hstep
    · cases hstep
      -- the monitor unmounts, the rows stay
      have humount : (d.unmount c.mountpoint.root).Registered := h.mount _
      exact humount.quiet hk rfl rfl rfl rfl rfl
  | report k =>
    obtain ⟨c, hobj, hstep⟩ := Option.bind_eq_some_iff.mp hstep
    obtain ⟨hk, -⟩ := object_some hobj
    split at hstep
    · simp at hstep
    · cases hstep
      exact h.quiet hk rfl rfl rfl rfl rfl
  | lookup k =>
    obtain ⟨c, hobj, hstep⟩ := Option.bind_eq_some_iff.mp hstep
    obtain ⟨hk, -⟩ := object_some hobj
    split at hstep
    · cases hstep
      exact h
    · next element helem =>
      cases hstep
      exact h.lookup hk helem rfl rfl rfl rfl rfl
  | destroy k i ok =>
    obtain ⟨c, hobj, hstep⟩ := Option.bind_eq_some_iff.mp hstep
    obtain ⟨hk, -⟩ := object_some hobj
    obtain ⟨call, hi, hstep⟩ := Option.bind_eq_some_iff.mp hstep
    obtain ⟨⟨d₁, next⟩, hdestroy, rfl⟩ := Option.map_eq_some_iff.mp hstep
    exact h.destroy hk hi (hop c hk call hi) hdestroy

theorem fresh_registered (h : d.Fresh) : d.Registered := by
  obtain ⟨hrows, -, hheap, hlist⟩ := h
  refine ⟨⟨?_, ?_, ?_, ?_⟩, ?_⟩
  · simp [hlist]
  · simp [hlist]
  · simp [hheap]
  · simp [hheap]
  · rw [hrows]
    exact .nil fun k => by simp [holds, createAt, hheap, hlist]

theorem reachable_registered (h : (daemonSystem α).ReachableVia FindsMount d) : d.Registered :=
  h.invariant (fun _ => fresh_registered) fun _ _ _ => step_registered

/-- A `Start` of a container that owns a row meets the condition. -/
theorem Registered.findsMount (h : d.Registered) (hholds : d.holds k) :
    FindsMount d (.ensureMounted k) :=
  fun _ hc => Or.inr (h.fetch hc hholds)

/-- No container with this root is listed, or about to be. -/
def Unused (d : Daemon α) (root : GoString) : Prop :=
  ∀ c k, d.heap[k]? = some c → c.mountpoint.root = root → k ∉ d.containers ∧ c.create ≠ .pushBack

/-- No `Create` is between the row and the list, and no `Destroy` of a listed container is past
    the row. -/
def Settled (d : Daemon α) : Prop :=
  (∀ c ∈ d.heap, c.create ≠ .pushBack) ∧ ∀ k ∈ d.containers, d.dropped k = false

/-- Then the owners are the listed containers. -/
theorem Settled.holds_iff (h : d.Settled) (k : Nat) : k ∈ d.containers ↔ d.holds k := by
  constructor
  · exact fun hk => .inr ⟨hk, h.2 k hk⟩
  · rintro (hpush | ⟨hk, -⟩)
    · obtain ⟨c, hc, hpush⟩ := Option.map_eq_some_iff.mp hpush
      exact absurd hpush (h.1 c (List.mem_of_getElem? hc))
    · exact hk

namespace Registered

/-- The rows are those of the listed containers. -/
theorem rows_perm (h : d.Registered) (hsettled : d.Settled) :
    d.store.mountpoints.Perm (d.objects.map ContainerObj.mountpoint) := by
  rw [objects_map_mountpoint]
  exact h.rows.perm h.listed hsettled.holds_iff

/-- There are as many rows as listed containers. -/
theorem length_rows (h : d.Registered) (hsettled : d.Settled) :
    d.store.mountpoints.length = d.containers.length := by
  have hperm := h.rows.perm h.listed hsettled.holds_iff
  rw [hperm.length_eq, List.filterMap_length_eq_length]
  intro k hk
  obtain ⟨c, hc, -⟩ := h.inHeap k hk
  rw [mountpointAt_of_some hc, Option.isSome_some]

theorem no_row (h : d.Registered) {root : GoString} (hunused : d.Unused root) :
    ∀ row ∈ d.store.mountpoints, row.root ≠ root := by
  intro row hrow heq
  obtain ⟨k, hholds, hmp⟩ := h.rows.owner row hrow
  obtain ⟨o, ho, rfl⟩ := Option.map_eq_some_iff.mp hmp
  obtain ⟨hunlisted, hpush⟩ := hunused o k ho heq
  obtain hpush' | ⟨hlisted, -⟩ := hholds
  · rw [createAt, ho, Option.map_some] at hpush'
    exact hpush (Option.some.inj hpush')
  · exact hunlisted hlisted

end Registered

theorem step_insert (hk : d.heap[k]? = some c) {image : Image} (hinsert : c.create = .insert image)
    (hkey : clean (pathJoin [c.root, str "rootfs"]) ∉ d.store.mountpoints.map Mountpoint.root) :
    ∃ d', d.step (.insert k) = some d' ∧ d'.containers = d.containers ∧
      d'.createAt k = some .pushBack := by
  obtain ⟨mp, hmp⟩ : ∃ mp : Mountpoint, mp =
    ⟨image.id, clean (pathJoin [c.root, str "rootfs"]), clean (pathJoin [c.root, str "rw"])⟩ :=
    ⟨_, rfl⟩
  refine ⟨{ d with store := { d.store with mountpoints := d.store.mountpoints ++ [mp] } }.setObj k
    { c with mountpoint := mp, create := .pushBack }, ?_, rfl, ?_⟩
  · rw [step, hk, Option.bind_some]
    simp only [hinsert, Store.mountpoint, if_neg hkey, hmp]
  · show ((d.setObj k { c with mountpoint := mp, create := .pushBack }).heap[k]?).map _ = _
    rw [map_setObj _ hk, if_pos rfl]

theorem step_pushBack (hpush : d.createAt k = some .pushBack) :
    ∃ d', d.step (.pushBack k) = some d' ∧ d'.containers = d.containers ++ [k] := by
  obtain ⟨c, hk, hcreate⟩ := Option.map_eq_some_iff.mp hpush
  refine ⟨{ d with containers := d.containers ++ [k] }.setObj k { c with create := .done }, ?_, rfl⟩
  rw [step, hk, Option.bind_some]
  simp only [hcreate]

/-- `Create` succeeds when neither the id nor the root is taken. -/
theorem Registered.create_ok (h : d.Registered) (hc : c ∈ d.heap)
    (hunused : d.Unused c.mountpoint.root) {image : Image}
    (himage : d.store.get image.id = some image) :
    ∃ d', (daemonSystem α).run d
        [.create c.id image, .insert d.heap.length, .pushBack d.heap.length] = some d' ∧
      d'.containers = d.containers ++ [d.heap.length] := by
  have hexists : d.containerExists c.id = false := by
    refine containerExists_eq_false fun o ho hid => ?_
    obtain ⟨k, hk, hget⟩ := List.mem_filterMap.mp ho
    exact (hunused o k hget (h.root_eq (List.mem_of_getElem? hget) hc hid)).1 hk
  obtain ⟨hroot, hmp, -⟩ := h.paths c hc
  have hkey : clean (pathJoin [pathJoin [d.repository, c.id], str "rootfs"]) ∉
      d.store.mountpoints.map Mountpoint.root := by
    rw [clean_pathJoin (str "rootfs") (by simp) (by decide), ← hroot, ← hmp]
    intro hmem
    obtain ⟨row, hmem, heq⟩ := List.mem_map.mp hmem
    exact h.no_row hunused row hmem heq
  have h₁ : d.step (.create c.id image) =
      some { d with heap := d.heap ++ [d.newContainer c.id image] } := by
    rw [step, if_pos himage, Daemon.create, hexists, if_neg Bool.false_ne_true]
  obtain ⟨d₂, h₂, hlist₂, hpush₂⟩ :=
    step_insert (d := { d with heap := d.heap ++ [d.newContainer c.id image] })
      List.getElem?_concat_length rfl hkey
  obtain ⟨d₃, h₃, hlist₃⟩ := step_pushBack hpush₂
  refine ⟨d₃, ?_, by rw [hlist₃, hlist₂]⟩
  show (d.step (.create c.id image)).bind (fun s => (s.step (.insert d.heap.length)).bind
    fun s => (s.step (.pushBack d.heap.length)).bind some) = _
  rw [h₁, Option.bind_some, h₂, Option.bind_some, h₃, Option.bind_some]

/-- The last step of a `Destroy`. -/
theorem removed (h : d.Registered) (hk : d.heap[k]? = some c) (hi : c.destroys[i]? = some call)
    (hpc : call.pc = .remove) {ok : Bool} (hstep : d.step (.destroy k i ok) = some d') :
    (∃ o ∈ d'.heap, o.id = c.id ∧ o.mountpoint.root = c.mountpoint.root) ∧
      call.element ∉ d'.containers := by
  obtain ⟨o, hobj, hstep⟩ := Option.bind_eq_some_iff.mp hstep
  obtain ⟨ho, -⟩ := object_some hobj
  rw [hk] at ho
  cases ho
  obtain ⟨call', hi', hstep⟩ := Option.bind_eq_some_iff.mp hstep
  rw [hi] at hi'
  cases hi'
  obtain ⟨⟨d₁, next⟩, hdestroy, rfl⟩ := Option.map_eq_some_iff.mp hstep
  rw [destroyStep, hpc] at hdestroy
  cases hdestroy
  refine ⟨⟨_, List.mem_of_getElem? (List.getElem?_set_self (List.getElem?_eq_some_iff.mp hk).1),
    rfl, rfl⟩, fun hmem => ?_⟩
  exact absurd rfl (h.listed.mem_erase_iff.mp hmem).1

end Daemon

/-! ## Rows and containers -/

/-- In every run in which each `Destroy` finds the filesystem of its container mounted and deletes
    no other row, and no `Start` registers the mountpoint of a destroyed container again: each row
    of the mountpoints table is owned by one container and each owner has its row, and unless a
    `Create` or a `Destroy` is between the row and the list, the owners are the known containers. A
    container that `Destroy` has removed is not listed; unless its root is in use again its row is
    gone, and its id can be used again. -/
theorem mountpoints_exactly (h : (daemonSystem α).ReachableVia FindsMount d) :
    (d.Settled → d.store.mountpoints.Perm (d.objects.map ContainerObj.mountpoint) ∧
      d.store.mountpoints.length = d.containers.length) ∧
    (∀ mp, mp ∈ d.store.mountpoints ↔ ∃ k, d.holds k ∧ d.mountpointAt k = some mp) ∧
    (∀ c ∈ d.objects, c.mountpoint.root = pathJoin [c.root, str "rootfs"]) ∧
    (d.store.mountpoints.map Mountpoint.root).Nodup ∧
    ∀ k i ok c call d', d.heap[k]? = some c → c.destroys[i]? = some call → call.pc = .remove →
      d.step (.destroy k i ok) = some d' →
      call.element ∉ d'.containers ∧ (d'.Unused c.mountpoint.root →
        (∀ row ∈ d'.store.mountpoints, row.root ≠ c.mountpoint.root) ∧
        ∀ image, d'.store.get image.id = some image → ∃ d'', (daemonSystem α).run d'
            [.create c.id image, .insert d'.heap.length, .pushBack d'.heap.length] = some d'' ∧
          d''.containers = d'.containers ++ [d'.heap.length]) := by
  have hreg := Daemon.reachable_registered h
  refine ⟨fun hsettled => ⟨hreg.rows_perm hsettled, hreg.length_rows hsettled⟩, fun mp => ?_,
    fun c hc => ?_, hreg.rows.keys, ?_⟩
  · constructor
    · exact hreg.rows.owner mp
    · rintro ⟨k, hholds, hmp⟩
      exact hreg.rows.row_mem hholds hmp
  · exact (hreg.paths c (Daemon.mem_heap_of_mem_objects hc)).2.1
  · intro k i ok c call d' hk hi hpc hstep
    have hop : FindsMount d (.destroy k i ok) := by
      intro o ho call' hcall'
      rw [hk] at ho
      cases ho
      rw [hi] at hcall'
      cases hcall'
      rw [Daemon.Finds, hpc]
      trivial
    have hreg' := Daemon.step_registered hreg hop hstep
    obtain ⟨hc, hgone⟩ := Daemon.removed hreg hk hi hpc hstep
    refine ⟨hgone, fun hunused => ⟨hreg'.no_row hunused, fun image himage => ?_⟩⟩
    obtain ⟨o, ho, hid, hmp⟩ := hc
    rw [← hid]
    rw [← hmp] at hunused
    exact hreg'.create_ok ho hunused himage

/-- A store with one image, and no containers. -/
def oneImage : Daemon Unit :=
  ⟨str "/c", { Store.empty (str "/i") with images := [⟨str "base", [], [], 0⟩] }, [], [], []⟩

theorem oneImage_reachable (ok : Daemon Unit → DaemonOp → Prop) :
    (daemonSystem Unit).ReachableVia ok oneImage :=
  .init ⟨rfl, rfl, rfl, rfl⟩

/-- `Create` of the id `a`, at this position of the heap. -/
def createSteps (k : Nat) : List DaemonOp :=
  [.create (str "a") ⟨str "base", [], [], 0⟩, .insert k, .pushBack k]

/-- The container with the id `a`, at which nobody is at work but some `Destroy`s. -/
def stoppedA (destroys : List DestroyCall) : ContainerObj where
  id := str "a"
  root := str "/c/a"
  mountpoint := ⟨str "base", str "/c/a/rootfs", str "/c/a/rw"⟩
  create := .done
  running := false
  starting := 0
  processes := 0
  reporting := 0
  destroys

/-- A `Destroy` is about to take the container from the list. -/
def removing : Daemon Unit :=
  { oneImage with
    heap := [stoppedA [⟨0, .remove⟩]]
    containers := [0] }

theorem removing_reachable : (daemonSystem Unit).ReachableVia FindsMount removing :=
  (oneImage_reachable FindsMount).runVia
    (createSteps 0 ++ [.ensureMounted 0, .launch 0 false, .lookup 0, .destroy 0 0 true,
      .destroy 0 0 true, .destroy 0 0 true, .destroy 0 0 true, .destroy 0 0 true]) rfl

/-- The container has been destroyed. -/
def removedA : Daemon Unit := { oneImage with heap := [stoppedA []] }

/-- A container whose `Start` failed after the mount is destroyed, and created again. -/
theorem mountpoints_exactly_failedStart :
    removing.step (.destroy 0 0 true) = some removedA ∧ removedA.store.mountpoints = [] ∧
      ∃ d, (daemonSystem Unit).run removedA (createSteps 1) = some d ∧ d.containers = [1] := by
  have hstep : removing.step (.destroy 0 0 true) = some removedA := rfl
  have hunused : removedA.Unused (str "/c/a/rootfs") := by
    intro c k hk _
    refine ⟨List.not_mem_nil, ?_⟩
    rw [List.mem_singleton.mp (List.mem_of_getElem? hk)]
    decide
  obtain ⟨-, hagain⟩ := (mountpoints_exactly removing_reachable).2.2.2.2 0 0 true
    (stoppedA [⟨0, .remove⟩]) ⟨0, .remove⟩ removedA rfl rfl rfl hstep
  exact ⟨hstep, rfl, (hagain hunused).2 ⟨str "base", [], [], 0⟩ rfl⟩

/-- Nobody is at work on the container any more, and its row is still there. -/
def leftRow : Daemon Unit :=
  { oneImage with
    store :=
      { oneImage.store with
        mountpoints := [⟨str "base", str "/c/a/rootfs", str "/c/a/rw"⟩] }
    heap := [stoppedA []] }

/-- A container is created, started, exits and is destroyed: its filesystem is not mounted any
    more, so its row stays and its id cannot be used again. -/
theorem mountpoint_left :
    ∃ d d' : Daemon Unit, (daemonSystem Unit).Reachable d ∧ d.containers = [] ∧ d.Settled ∧
      d.store.mountpoints = [⟨str "base", str "/c/a/rootfs", str "/c/a/rw"⟩] ∧
      (daemonSystem Unit).run d [.create (str "a") ⟨str "base", [], [], 0⟩, .insert 1] = some d' ∧
      d'.createAt 1 = some (.failed notUnique) := by
  have hinit : (daemonSystem Unit).Reachable oneImage := oneImage_reachable _
  have hreach : (daemonSystem Unit).Reachable leftRow := hinit.run
    (createSteps 0 ++ [.ensureMounted 0, .launch 0 true, .exit 0, .report 0, .lookup 0,
      .destroy 0 0 true, .destroy 0 0 true, .destroy 0 0 true, .destroy 0 0 true]) rfl
  have hsettled : leftRow.Settled := by
    refine ⟨fun c hc => ?_, fun _ hk => absurd hk List.not_mem_nil⟩
    rw [List.mem_singleton.mp hc]
    decide
  exact ⟨leftRow, _, hreach, rfl, hsettled, rfl, rfl, rfl⟩

end Docker
