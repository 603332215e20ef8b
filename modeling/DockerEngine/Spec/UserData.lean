import DockerEngine.Native.UserData
import DockerEngine.Spec.Docker
import DockerEngine.Spec.Serve

/-!
# What the user data of a container says

`userdata.json` is truncated before it is written anew, and a text that is not complete does
not parse. So a request that reads it while `CreateContainer` is at work, or after a write that
failed, finds nothing; it never finds a value of another container or a part of one.

- `userdata_reported`: in every run, a container shows the image and the comment it was
  created with, or nothing; both when `CreateContainer` has returned it, until a `Destroy`
  removes its files; and when that has failed, the container is not listed, unless its `Stop`
  failed
-/

namespace Docker

open Go

/-! ## Maps -/

namespace UserData

theorem get_cons (key value name : GoString) (data : UserData) :
    get ((key, value) :: data) name = if name = key then some value else data.get name := by
  show List.lookup name ((key, value) :: data) = _
  rw [List.lookup_cons]
  by_cases h : name = key
  · rw [if_pos h, h, beq_self_eq_true]
  · rw [if_neg h, beq_eq_false_iff_ne.mpr h]
    rfl

theorem get_set (data : UserData) (key value name : GoString) :
    (data.set key value).get name = if name = key then some value else data.get name := by
  induction data with
  | nil => exact get_cons key value name []
  | cons entry rest ih =>
    obtain ⟨key', value'⟩ := entry
    unfold set
    split
    · next heq =>
      subst heq
      rw [get_cons, get_cons]
      split <;> rfl
    · next hne =>
      split
      · rw [get_cons]
      · rw [get_cons, ih, get_cons]
        by_cases h : name = key'
        · rw [if_pos h, if_pos h, if_neg fun e => hne (e.symm.trans h)]
        · rw [if_neg h, if_neg h]

theorem KeysUtf8.set {data : UserData} (h : data.KeysUtf8) {key : GoString} (hkey : ValidUtf8 key)
    (value : GoString) : (data.set key value).KeysUtf8 := by
  induction data with
  | nil =>
    intro entry hentry
    obtain rfl := List.mem_singleton.mp hentry
    exact hkey
  | cons entry rest ih =>
    have hrest : KeysUtf8 rest := fun e he => h e (List.mem_cons_of_mem _ he)
    unfold UserData.set
    split
    · exact List.forall_mem_cons.mpr ⟨hkey, hrest⟩
    · split
      · exact List.forall_mem_cons.mpr ⟨hkey, h⟩
      · exact List.forall_mem_cons.mpr ⟨h entry List.mem_cons_self, ih hrest⟩

end UserData

theorem DataKey.name_utf8 (key : DataKey) : ValidUtf8 key.name := by
  cases key with
  | image => exact ⟨"image", rfl⟩
  | comment => exact ⟨"comment", rfl⟩

theorem DataKey.name_injective : ∀ {key key' : DataKey}, key.name = key'.name → key = key' := by
  intro key key' h
  cases key <;> cases key' <;> first | rfl | exact absurd h (by decide)

/-! ## What is in a file -/

section

variable {json : MapJson} {file : Option GoString} {text : GoString}
  {f : GoString → Option GoString}

/-- The file can be loaded, and has the values of `f`. -/
def Stores (json : MapJson) (file : Option GoString) (f : GoString → Option GoString) : Prop :=
  ∃ data, loadUserData json file none = .ok data ∧ data.KeysUtf8 ∧
    ∀ name, ValidUtf8 name → data.get name = f name ∧ (f name).map json.readBack = f name

/-- The text is that of a map which is read back as `f`. -/
def Writes (json : MapJson) (text : GoString) (f : GoString → Option GoString) : Prop :=
  ∃ data : UserData, json.marshal data = .ok text ∧ data.KeysUtf8 ∧
    ∀ name, ValidUtf8 name → (data.get name).map json.readBack = f name

theorem stores_none : Stores json none fun _ => none :=
  ⟨[], rfl, fun _ h => absurd h List.not_mem_nil, fun _ _ => ⟨rfl, rfl⟩⟩

theorem Stores.getUserData (h : Stores json file f) {name : GoString} (hname : ValidUtf8 name) :
    getUserData json file none name = (f name).getD [] := by
  obtain ⟨data, hload, -, hget⟩ := h
  rw [Docker.getUserData, hload]
  show (data.get name).getD [] = _
  rw [(hget name hname).1]

/-- A `SetUserData` writes what was there, with the new value. -/
theorem Stores.setUserData (h : Stores json file f) {readErr : Option GoString}
    {key value : GoString} (hkey : ValidUtf8 key)
    (hset : setUserData json file readErr key value = .ok text) :
    Writes json text fun name => if name = key then some (json.readBack value) else f name := by
  obtain ⟨data, hload, hkeys, hget⟩ := h
  cases readErr with
  | some err => cases hset
  | none =>
    rw [Docker.setUserData, hload] at hset
    refine ⟨data.set key value, hset, hkeys.set hkey value, fun name hname => ?_⟩
    obtain ⟨hdata, hback⟩ := hget name hname
    show _ = if name = key then some (json.readBack value) else f name
    rw [UserData.get_set]
    split
    · rfl
    · rw [hdata, hback]

/-- A complete text. -/
theorem Writes.stores (h : Writes json text f) : Stores json (some text) f := by
  obtain ⟨data, hmarshal, hkeys, hget⟩ := h
  obtain ⟨data', hunmarshal, hkeys', hget'⟩ := json.unmarshal_marshal data text hkeys hmarshal
  refine ⟨data', hunmarshal, hkeys', fun name hname => ?_⟩
  rw [hget' name hname, ← hget name hname]
  refine ⟨rfl, ?_⟩
  rw [Option.map_map]
  exact congrArg (Option.map · (data.get name)) (funext json.readBack_readBack)

/-- A text that is cut short shows nothing. -/
theorem Writes.getUserData_take (h : Writes json text f) {n : Nat} (hn : n < text.length)
    (readErr : Option GoString) (name : GoString) :
    getUserData json (some (text.take n)) readErr name = [] := by
  obtain ⟨data, hmarshal, -⟩ := h
  obtain ⟨err, herr⟩ := json.unmarshal_take data text hmarshal n hn
  cases readErr with
  | some err' => rfl
  | none =>
    have hload : loadUserData json (some (text.take n)) none = .error err := herr
    rw [Docker.getUserData, hload]

end

/-! ## The list of the daemon -/

namespace Daemon

variable {α : Type} {d d' : Daemon α} {k j : Nat} {c : ContainerObj} {call : DestroyCall}

/-- The list is one of containers that have been made, which have different ids. -/
structure Listed (d : Daemon α) : Prop where
  nodup : d.containers.Nodup
  made : ∀ k ∈ d.containers, d.createAt k = some .done
  ids : (d.heap.map ContainerObj.id).Nodup

/-- The container that is found under an id is the one that has it. -/
theorem Listed.element (h : d.Listed) (hk : d.heap[k]? = some c)
    (hfind : d.getContainerElement c.id = some j) : j = k := by
  obtain ⟨-, c', hj, hid⟩ := getContainerElement_some hfind
  have hj' : (d.heap.map ContainerObj.id)[j]? = some c.id := by
    rw [List.getElem?_map, hj, Option.map_some, hid]
  have hk' : (d.heap.map ContainerObj.id)[k]? = some c.id := by
    rw [List.getElem?_map, hk, Option.map_some]
  have hlt := (List.getElem?_eq_some_iff.mp hj').1
  exact (List.getElem?_inj hlt h.ids).mp (hj'.trans hk'.symm)

/-- A container that is not found is not listed. -/
theorem notMem_of_getContainerElement (hk : d.heap[k]? = some c)
    (hfind : d.getContainerElement c.id = none) : k ∉ d.containers := by
  intro hmem
  have hnot := List.find?_eq_none.mp hfind k hmem
  rw [hk, Option.any_some, decide_eq_true_eq] at hnot
  exact hnot rfl

/-- What a step leaves of the containers, and does to the list: one joins it when its `Create`
    comes to that, or one leaves it. -/
structure ListStep (d d' : Daemon α) : Prop where
  ids : d'.heap.map ContainerObj.id = d.heap.map ContainerObj.id
  done : ∀ j, d.createAt j = some .done → d'.createAt j = some .done
  list : d'.containers = d.containers ∨
    (∃ k, d.createAt k = some .pushBack ∧ d'.createAt k = some .done ∧
      d'.containers = d.containers ++ [k]) ∨
    ∃ element, d'.containers = d.containers.erase element

/-- A container is replaced. -/
theorem ListStep.setObj (hk : d.heap[k]? = some c) {c' : ContainerObj} (hid : c'.id = c.id)
    (hdone : c.create = .done → c'.create = .done) : ListStep d (d.setObj k c') where
  ids := List.map_set_of_eq hk hid
  done j hj := by
    rw [createAt, map_setObj _ hk]
    split
    · next hkj =>
      subst hkj
      rw [createAt, hk, Option.map_some] at hj
      rw [hdone (Option.some.inj hj)]
    · exact hj
  list := .inl rfl

/-- The containers are the same. -/
theorem ListStep.frame (h : ListStep d d') {d₁ : Daemon α} (hheap : d₁.heap = d'.heap)
    (hlist : d₁.containers = d'.containers) : ListStep d d₁ where
  ids := hheap ▸ h.ids
  done j hj := by
    rw [createAt, hheap]
    exact h.done j hj
  list := by
    rw [hlist]
    refine h.list.imp_right (Or.imp_left ?_)
    rintro ⟨k, hpush, hdone, heq⟩
    refine ⟨k, hpush, ?_, heq⟩
    rw [createAt, hheap]
    exact hdone

theorem ensureMounted_frame {mp : Mountpoint} {err : Option GoString}
    (h : d.ensureMounted mp = .ret (err, d')) :
    d'.heap = d.heap ∧ d'.containers = d.containers := by
  unfold ensureMounted at h
  split at h
  · cases h
    exact ⟨rfl, rfl⟩
  · split at h
    · simp at h
    · split at h
      · cases h
        exact ⟨rfl, rfl⟩
      · cases h
        exact ⟨rfl, rfl⟩

/-- A step of a `Destroy`: the last one takes the element from the list. -/
theorem destroyStep_list {ok : Bool} {next : Option DestroyPc}
    (h : d.destroyStep c call ok = some (d', next)) : d'.heap = d.heap ∧
      (d'.containers = d.containers ∧ (next = none → call.pc = .stop) ∨
        d'.containers = d.containers.erase call.element) := by
  obtain ⟨element, pc⟩ := call
  cases pc with
  | stop =>
    simp only [destroyStep] at h
    split at h
    · split at h
      · cases h
      · cases h
        exact ⟨rfl, .inl ⟨rfl, fun _ => rfl⟩⟩
    · cases h
      exact ⟨rfl, .inl ⟨rfl, fun _ => rfl⟩⟩
  | umount | deregister =>
    simp only [destroyStep] at h
    split at h
    · cases h
      exact ⟨rfl, .inl ⟨rfl, fun hnone => by cases hnone⟩⟩
    · cases h
      exact ⟨rfl, .inl ⟨rfl, fun hnone => by cases hnone⟩⟩
  | delete | removeAll =>
    cases h
    exact ⟨rfl, .inl ⟨rfl, fun hnone => by cases hnone⟩⟩
  | remove =>
    cases h
    exact ⟨rfl, .inr rfl⟩

theorem ListStep.destroyStep {ok : Bool} {next : Option DestroyPc}
    (h : d.destroyStep c call ok = some (d', next)) : ListStep d d' := by
  obtain ⟨hheap, ⟨hlist, -⟩ | hlist⟩ := destroyStep_list h
  · refine ⟨by rw [hheap], fun j hj => ?_, .inl hlist⟩
    rw [createAt, hheap]
    exact hj
  · refine ⟨by rw [hheap], fun j hj => ?_, .inr (.inr ⟨_, hlist⟩)⟩
    rw [createAt, hheap]
    exact hj

theorem ListStep.step {op : DaemonOp} (hop : ∀ id image, op ≠ .create id image)
    (hstep : d.step op = some d') : ListStep d d' := by
  cases op with
  | create id image => exact absurd rfl (hop id image)
  | insert k =>
    obtain ⟨c, hk, hstep⟩ := Option.bind_eq_some_iff.mp hstep
    split at hstep
    · next image hinsert =>
      have hset : ∀ c' : ContainerObj, c'.id = c.id → ListStep d (d.setObj k c') := by
        refine fun c' hid => .setObj hk hid fun hdone => ?_
        rw [hinsert] at hdone
        cases hdone
      split at hstep
      · next err _ _ =>
        cases hstep
        exact (hset { c with create := .failed err } rfl).frame rfl rfl
      · next mountpoint _ _ =>
        cases hstep
        exact (hset { c with mountpoint, create := .pushBack } rfl).frame rfl rfl
    · cases hstep
  | pushBack k =>
    obtain ⟨c, hk, hstep⟩ := Option.bind_eq_some_iff.mp hstep
    split at hstep
    · next hpush =>
      cases hstep
      have hset : ListStep d (d.setObj k { c with create := .done }) :=
        .setObj hk rfl fun _ => rfl
      refine ⟨hset.ids, hset.done, .inr (.inl ⟨k, ?_, ?_, rfl⟩)⟩
      · rw [createAt, hk, Option.map_some, hpush]
      · show (d.setObj k _).createAt k = _
        rw [createAt, map_setObj _ hk, if_pos rfl]
    · cases hstep
  | ensureMounted k =>
    obtain ⟨c, hobj, hstep⟩ := Option.bind_eq_some_iff.mp hstep
    obtain ⟨hk, -⟩ := object_some hobj
    split at hstep
    · next d₁ hret =>
      obtain ⟨hheap, hlist⟩ := ensureMounted_frame hret
      cases hstep
      have hset : ListStep d (d.setObj k { c with starting := c.starting + 1 }) :=
        .setObj hk rfl fun hdone => hdone
      refine hset.frame ?_ hlist
      rw [Daemon.setObj, Daemon.setObj, hheap]
    · next err d₁ hret =>
      obtain ⟨hheap, hlist⟩ := ensureMounted_frame hret
      cases hstep
      have hsame : ListStep d d := ⟨rfl, fun _ hj => hj, .inl rfl⟩
      exact hsame.frame hheap hlist
    · simp at hstep
    · simp at hstep
  | launch k ok =>
    obtain ⟨c, hobj, hstep⟩ := Option.bind_eq_some_iff.mp hstep
    obtain ⟨hk, -⟩ := object_some hobj
    split at hstep
    · simp at hstep
    · split at hstep
      · cases hstep
        exact .setObj hk rfl fun hdone => hdone
      · cases hstep
        exact .setObj hk rfl fun hdone => hdone
  | exit k =>
    obtain ⟨c, hobj, hstep⟩ := Option.bind_eq_some_iff.mp hstep
    obtain ⟨hk, -⟩ := object_some hobj
    split at hstep
    · simp at hstep
    · cases hstep
      have hset : ListStep d (d.setObj k
          { c with processes := c.processes - 1, reporting := c.reporting + 1 }) :=
        .setObj hk rfl fun hdone => hdone
      exact hset.frame rfl rfl
  | report k =>
    obtain ⟨c, hobj, hstep⟩ := Option.bind_eq_some_iff.mp hstep
    obtain ⟨hk, -⟩ := object_some hobj
    split at hstep
    · simp at hstep
    · cases hstep
      exact .setObj hk rfl fun hdone => hdone
  | lookup k =>
    obtain ⟨c, hobj, hstep⟩ := Option.bind_eq_some_iff.mp hstep
    obtain ⟨hk, -⟩ := object_some hobj
    split at hstep
    · cases hstep
      exact ⟨rfl, fun _ hj => hj, .inl rfl⟩
    · cases hstep
      exact .setObj hk rfl fun hdone => hdone
  | destroy k i ok =>
    obtain ⟨c, hobj, hstep⟩ := Option.bind_eq_some_iff.mp hstep
    obtain ⟨hk, -⟩ := object_some hobj
    obtain ⟨call, hi, hstep⟩ := Option.bind_eq_some_iff.mp hstep
    obtain ⟨⟨d₁, next⟩, hdestroy, rfl⟩ := Option.map_eq_some_iff.mp hstep
    have hfirst := ListStep.destroyStep hdestroy
    have hk₁ : d₁.heap[k]? = some c := by rw [(destroyStep_list hdestroy).1, hk]
    have hset : ListStep d₁ (d₁.setObj k
        { c with destroys := setDestroy c.destroys i call next }) :=
      .setObj hk₁ rfl fun hdone => hdone
    refine ⟨hset.ids.trans hfirst.ids, fun j hj => hset.done j (hfirst.done j hj), ?_⟩
    obtain hlist | ⟨j, hpush, hdone, hlist⟩ | ⟨element, hlist⟩ := hfirst.list
    · exact .inl hlist
    · exact .inr (.inl ⟨j, hpush, hset.done j hdone, hlist⟩)
    · exact .inr (.inr ⟨element, hlist⟩)

theorem Listed.step (h : d.Listed) (hs : ListStep d d') : d'.Listed := by
  have hids : (d'.heap.map ContainerObj.id).Nodup := by
    rw [hs.ids]
    exact h.ids
  obtain hlist | ⟨k, hpush, hdone, hlist⟩ | ⟨element, hlist⟩ := hs.list
  · refine ⟨hlist ▸ h.nodup, fun j hj => hs.done j (h.made j ?_), hids⟩
    rwa [hlist] at hj
  · have hnew : k ∉ d.containers := by
      intro hmem
      rw [h.made k hmem] at hpush
      cases hpush
    refine ⟨?_, fun j hj => ?_, hids⟩
    · have hnodup := h.nodup.concat hnew
      rwa [List.concat_eq_append, ← hlist] at hnodup
    · rw [hlist] at hj
      obtain hj | hj := List.mem_append.mp hj
      · exact hs.done j (h.made j hj)
      · rw [List.mem_singleton.mp hj]
        exact hdone
  · refine ⟨hlist ▸ h.nodup.erase _, fun j hj => hs.done j (h.made j ?_), hids⟩
    rw [hlist] at hj
    exact List.mem_of_mem_erase hj

/-- A container that has been made does not join the list any more. -/
theorem ListStep.stays_out (hs : ListStep d d') (hdone : d.createAt k = some .done)
    (hout : k ∉ d.containers) : k ∉ d'.containers := by
  intro hmem
  obtain hlist | ⟨j, hpush, -, hlist⟩ | ⟨element, hlist⟩ := hs.list
  · exact hout (hlist ▸ hmem)
  · rw [hlist] at hmem
    obtain hmem | hmem := List.mem_append.mp hmem
    · exact hout hmem
    · rw [List.mem_singleton.mp hmem, hpush] at hdone
      cases hdone
  · rw [hlist] at hmem
    exact hout (List.mem_of_mem_erase hmem)

end Daemon

/-! ## The stages of `CreateContainer` -/

/-- The keys that are set before. -/
def DataKey.before : DataKey → List DataKey
  | .image => []
  | .comment => [.image]

/-- The keys that have been set, in a file that nobody has removed. -/
def CreateStage.keys : CreateStage → List DataKey
  | .set key | .openFile key _ | .write key _ _ => key.before
  | .returned => [.comment, .image]
  | .destroy _ | .destroying .. | .failed .. => []

namespace Creation

variable {json : MapJson} {c : Creation} {keys : List DataKey}

/-- What a file has when these keys have been set. -/
def stored (json : MapJson) (c : Creation) (keys : List DataKey) (name : GoString) :
    Option GoString :=
  (keys.find? fun key => key.name = name).map fun key => json.readBack (c.value key)

theorem stored_cons (key : DataKey) : c.stored json (key :: keys) = fun name =>
    if name = key.name then some (json.readBack (c.value key)) else c.stored json keys name := by
  funext name
  unfold stored
  rw [List.find?_cons]
  by_cases h : key.name = name
  · rw [decide_eq_true h, if_pos h.symm, Option.map_some]
  · rw [decide_eq_false h, if_neg fun e => h e.symm]

/-- A reader finds nothing, or what the container was created with. -/
def Honest (json : MapJson) (c : Creation) : Prop :=
  ∀ readErr key, getUserData json c.file readErr (DataKey.name key) = [] ∨
    getUserData json c.file readErr key.name = json.readBack (c.value key)

theorem honest_of_stores (h : Stores json c.file (c.stored json keys)) : c.Honest json := by
  intro readErr key
  cases readErr with
  | some err => exact .inl rfl
  | none =>
    rw [h.getUserData key.name_utf8, stored]
    cases hfind : keys.find? fun k => k.name = key.name with
    | none => exact .inl rfl
    | some key' =>
      have hname := List.find?_some hfind
      obtain rfl := DataKey.name_injective (of_decide_eq_true hname)
      exact .inr rfl

theorem honest_of_none (h : c.file = none) : c.Honest json := by
  intro readErr key
  rw [h]
  cases readErr <;> exact .inl rfl

/-- What the file of a container is, by the stage, when these keys have been set in it. -/
def Keeps (json : MapJson) (c : Creation) (keys : List DataKey) : CreateStage → Prop
  | .set _ | .returned => Stores json c.file (c.stored json keys)
  | .openFile key text =>
    c.Honest json ∧ Writes json text (c.stored json (key :: keys))
  | .write key text written =>
    written ≤ text.length ∧ Writes json text (c.stored json (key :: keys)) ∧
      (c.file = some (text.take written) ∨ c.removed = true ∧ c.file = none)
  | .destroy _ | .destroying .. | .failed .. => c.Honest json

theorem Keeps.honest {stage : CreateStage} (h : c.Keeps json keys stage) : c.Honest json := by
  cases stage with
  | set key => exact honest_of_stores h
  | openFile key text => exact h.1
  | write key text written =>
    obtain ⟨hle, hwrites, hfile | ⟨-, hfile⟩⟩ := h
    · obtain hlt | heq := Nat.lt_or_eq_of_le hle
      · intro readErr key
        rw [hfile]
        exact .inl (hwrites.getUserData_take hlt readErr key.name)
      · rw [heq, List.take_length] at hfile
        exact honest_of_stores (hfile ▸ hwrites.stores)
    · exact honest_of_none hfile
  | returned => exact honest_of_stores h
  | destroy err => exact h
  | destroying err call => exact h
  | failed err stopped => exact h

/-- The keys are those of the stage, unless the file has been removed in between. -/
def Sound (json : MapJson) (c : Creation) : Prop :=
  ∃ keys, c.Keeps json keys c.stage ∧ (c.removed = false → keys = c.stage.keys)

theorem Sound.honest (h : c.Sound json) : c.Honest json := by
  obtain ⟨keys, hkeeps, -⟩ := h
  exact hkeeps.honest

/-- Nothing is set in a file that is removed. -/
theorem Sound.removed (h : c.Sound json) :
    Sound json { c with file := none, removed := true } := by
  obtain ⟨keys, hkeeps, -⟩ := h
  have hnone : Honest json { c with file := none, removed := true } := honest_of_none rfl
  have hset : Stores json none (Creation.stored json { c with file := none, removed := true } []) :=
    stores_none
  unfold Sound
  show ∃ keys, Keeps json _ keys c.stage ∧ _
  cases hstage : c.stage with
  | set key => exact ⟨[], hset, fun h => by cases h⟩
  | returned => exact ⟨[], hset, fun h => by cases h⟩
  | openFile key text =>
    rw [hstage] at hkeeps
    exact ⟨keys, ⟨hnone, hkeeps.2⟩, fun h => by cases h⟩
  | write key text written =>
    rw [hstage] at hkeeps
    exact ⟨keys, ⟨hkeeps.1, hkeeps.2.1, .inr ⟨rfl, rfl⟩⟩, fun h => by cases h⟩
  | destroy err => exact ⟨[], hnone, fun h => by cases h⟩
  | destroying err call => exact ⟨[], hnone, fun h => by cases h⟩
  | failed err stopped => exact ⟨[], hnone, fun h => by cases h⟩

theorem Sound.fail (h : c.Sound json) (err : GoString) : (c.fail err).Sound json :=
  ⟨[], h.honest, fun _ => rfl⟩

/-! ### The steps of `SetUserData` -/

variable {key : DataKey} {text : GoString}

theorem Sound.load (h : c.Sound json) (hstage : c.stage = .set key) {readErr : Option GoString}
    (hset : setUserData json c.file readErr key.name (c.value key) = .ok text) :
    Sound json { c with stage := .openFile key text } := by
  have hhonest := h.honest
  obtain ⟨keys, hkeeps, hkeys⟩ := h
  rw [hstage] at hkeeps hkeys
  have hwrites := Stores.setUserData hkeeps key.name_utf8 hset
  rw [← stored_cons] at hwrites
  exact ⟨keys, ⟨hhonest, hwrites⟩, hkeys⟩

theorem Sound.openFile (h : c.Sound json) (hstage : c.stage = .openFile key text) :
    Sound json { c with
      file := some []
      stage := .write key text 0 } := by
  obtain ⟨keys, hkeeps, hkeys⟩ := h
  rw [hstage] at hkeeps hkeys
  exact ⟨keys, ⟨Nat.zero_le _, hkeeps.2, .inl rfl⟩, hkeys⟩

theorem Sound.write (h : c.Sound json) {written n : Nat}
    (hstage : c.stage = .write key text written) (hle : written + n ≤ text.length) :
    Sound json { c with
      file := c.file.map fun _ => text.take (written + n)
      stage := .write key text (written + n) } := by
  obtain ⟨keys, hkeeps, hkeys⟩ := h
  rw [hstage] at hkeeps hkeys
  obtain ⟨-, hwrites, hfile⟩ := hkeeps
  refine ⟨keys, ⟨hle, hwrites, ?_⟩, hkeys⟩
  obtain hfile | ⟨hremoved, hfile⟩ := hfile
  · exact .inl (by rw [hfile]; rfl)
  · exact .inr ⟨hremoved, by rw [hfile]; rfl⟩

/-- The key is set when all of the text is in the file. -/
theorem Sound.close (h : c.Sound json) (hstage : c.stage = .write key text text.length) :
    Sound json { c with stage := key.next } := by
  obtain ⟨keys, hkeeps, hkeys⟩ := h
  rw [hstage] at hkeeps hkeys
  obtain ⟨-, hwrites, hfile | ⟨hremoved, hfile⟩⟩ := hkeeps
  · rw [List.take_length] at hfile
    have hstores := hwrites.stores
    rw [← hfile] at hstores
    cases key with
    | image => exact ⟨.image :: keys, hstores, fun h => by rw [hkeys h]; rfl⟩
    | comment => exact ⟨.comment :: keys, hstores, fun h => by rw [hkeys h]; rfl⟩
  · -- what was written is lost
    have hnone : Stores json c.file (c.stored json []) := by
      rw [hfile]
      exact stores_none
    have hnever : c.removed = false → [] = key.next.keys := by
      intro hkept
      rw [hremoved] at hkept
      cases hkept
    cases key with
    | image => exact ⟨[], hnone, hnever⟩
    | comment => exact ⟨[], hnone, hnever⟩

end Creation

/-! ## Runs -/

namespace Creations

variable {α : Type} {json : MapJson} {s s' : Creations α} {k : Nat} {c : Creation}

/-- No container got the id before. -/
def FreshId (s : Creations α) : CreationOp → Prop
  | .create id _ _ => id ∉ s.daemon.heap.map ContainerObj.id
  | _ => True

instance (s : Creations α) : (op : CreationOp) → Decidable (FreshId s op)
  | .create id _ _ => inferInstanceAs (Decidable (id ∉ s.daemon.heap.map ContainerObj.id))
  | .daemon _ | .load .. | .openFile .. | .write .. | .close .. | .destroy .. =>
    inferInstanceAs (Decidable True)

/-- What is known of the `CreateContainer` of a container. -/
structure Kept (json : MapJson) (d : Daemon α) (k : Nat) (c : Creation) : Prop where
  sound : c.Sound json
  /-- `Docker.Create` has returned the container. -/
  made : c.stage ≠ .set .image → d.createAt k = some .done
  /-- `Destroy` has found this container. -/
  aims : ∀ err call, c.stage = .destroying err call → call.element = k
  gone : ∀ err, c.stage = .failed err true → k ∉ d.containers

structure Inv (json : MapJson) (s : Creations α) : Prop where
  listed : s.daemon.Listed
  length : s.creations.length = s.daemon.heap.length
  kept : ∀ k c, s.creations[k]? = some c → Kept json s.daemon k c

theorem fresh_inv (h : s.Fresh) : s.Inv json := by
  obtain ⟨⟨-, -, hheap, hlist⟩, hcreations⟩ := h
  refine ⟨⟨?_, ?_, ?_⟩, ?_, ?_⟩
  · rw [hlist]
    exact List.nodup_nil
  · simp [hlist]
  · rw [hheap]
    exact List.nodup_nil
  · rw [hcreations, hheap]
    rfl
  · simp [hcreations]

/-- A `CreateContainer` that has not come to its `Destroy`. -/
theorem Kept.of_made {d : Daemon α} (hsound : c.Sound json) (hmade : d.createAt k = some .done)
    (hdestroying : ∀ err call, c.stage ≠ .destroying err call)
    (hfailed : ∀ err stopped, c.stage ≠ .failed err stopped) : Kept json d k c where
  sound := hsound
  made _ := hmade
  aims err call hstage := absurd hstage (hdestroying err call)
  gone err hstage := absurd hstage (hfailed err true)

theorem Kept.removed {d : Daemon α} (h : Kept json d k c) :
    Kept json d k { c with file := none, removed := true } :=
  ⟨h.sound.removed, h.made, h.aims, h.gone⟩

/-- A step of the daemon that leaves the containers as they are made. -/
theorem Kept.step {d d' : Daemon α} (h : Kept json d k c) (hs : d.ListStep d') :
    Kept json d' k c where
  sound := h.sound
  made hstage := hs.done k (h.made hstage)
  aims := h.aims
  gone err hstage := by
    refine hs.stays_out (h.made ?_) (h.gone err hstage)
    rw [hstage]
    exact fun e => by cases e

namespace Inv

theorem step (h : s.Inv json) {d : Daemon α} (hs : s.daemon.ListStep d) :
    Inv json { s with daemon := d } := by
  refine ⟨h.listed.step hs, ?_, fun j c hj => (h.kept j c hj).step hs⟩
  have hlength := congrArg List.length hs.ids
  rw [List.length_map, List.length_map] at hlength
  rw [h.length, hlength]

/-- A creation that goes on, with the same daemon. -/
theorem setCreation (h : s.Inv json) (hc : Kept json s.daemon k c) :
    (s.setCreation k c).Inv json := by
  refine ⟨h.listed, ?_, fun j c' hj => ?_⟩
  · rw [Creations.setCreation, List.length_set, h.length]
  · obtain ⟨rfl, rfl⟩ | ⟨-, hj⟩ := List.getElem?_set_cases hj
    · exact hc
    · exact h.kept j c' hj

/-- A creation is changed. -/
theorem modify (h : s.Inv json) {f : Creation → Creation}
    (hf : ∀ c, s.creations[k]? = some c → Kept json s.daemon k (f c)) :
    Inv json { s with creations := s.creations.modify k f } := by
  refine ⟨h.listed, ?_, fun j c' hj => ?_⟩
  · rw [List.length_modify, h.length]
  · rw [List.getElem?_modify] at hj
    obtain ⟨c, hc, rfl⟩ := Option.map_eq_some_iff.mp hj
    split
    · next heq =>
      subst heq
      exact hf c hc
    · exact h.kept j c hc

theorem afterDestroy (h : s.Inv json) (call : DestroyCall) :
    Inv json { s with creations := s.afterDestroy k call } := by
  unfold Creations.afterDestroy
  split
  · exact h.modify fun c hc => (h.kept k c hc).removed
  · exact h

theorem afterStep (h : s.Inv json) (op : DaemonOp) :
    Inv json { s with creations := s.afterStep op } := by
  unfold Creations.afterStep
  split
  · split
    · exact h.afterDestroy _
    · exact h
  · exact h

theorem create (h : s.Inv json) {id comment : GoString} {image : Image} {d : Daemon α}
    (hid : id ∉ s.daemon.heap.map ContainerObj.id) {obj : ContainerObj} (hobj : obj.id = id)
    (hheap : d.heap = s.daemon.heap ++ [obj]) (hlist : d.containers = s.daemon.containers) :
    Inv json ⟨d, s.creations ++ [⟨image.id, comment, none, false, .set .image⟩]⟩ := by
  have hdone : ∀ j, s.daemon.createAt j = some .done → d.createAt j = some .done := by
    intro j hj
    obtain ⟨o, ho, heq⟩ := Option.map_eq_some_iff.mp hj
    rw [Daemon.createAt, hheap, List.getElem?_concat_of_some ho, Option.map_some, heq]
  refine ⟨⟨?_, fun j hj => ?_, ?_⟩, ?_, fun j c hj => ?_⟩
  · rw [hlist]
    exact h.listed.nodup
  · rw [hlist] at hj
    exact hdone j (h.listed.made j hj)
  · have hnodup := h.listed.ids.concat (hobj ▸ hid)
    rwa [List.concat_eq_append, ← List.map_singleton, ← List.map_append, ← hheap] at hnodup
  · rw [hheap, List.length_append, List.length_append, h.length]
    rfl
  · obtain hj | ⟨-, rfl⟩ := List.getElem?_concat_cases hj
    · obtain ⟨hsound, hmade, haims, hgone⟩ := h.kept j c hj
      refine ⟨hsound, fun hstage => hdone j (hmade hstage), haims, fun err hstage => ?_⟩
      rw [hlist]
      exact hgone err hstage
    · -- no key has been set
      exact ⟨⟨[], stores_none, fun _ => rfl⟩, fun hne => absurd rfl hne,
        fun err call hstage => (by cases hstage), fun err hstage => (by cases hstage)⟩

end Inv

/-- A step of another request, on the containers. -/
theorem Inv.daemon (h : s.Inv json) {op : DaemonOp} (hop : ∀ id image, op ≠ .create id image)
    {d : Daemon α} (hstep : s.daemon.step op = some d) : Inv json ⟨d, s.afterStep op⟩ :=
  (h.afterStep op).step (Daemon.ListStep.step hop hstep)

/-- The `Destroy` that `CreateContainer` calls: in the end the container is not listed. -/
theorem Inv.destroy (h : s.Inv json) {obj : ContainerObj} (hobj : s.daemon.object k = some obj)
    (hc : s.creations[k]? = some c) {ok : Bool} (hstep : s.destroy k obj c ok = some s') :
    s'.Inv json := by
  obtain ⟨hk, hcreate⟩ := Daemon.object_some hobj
  have hmade : s.daemon.createAt k = some .done := by
    rw [Daemon.createAt, hk, Option.map_some, hcreate]
  unfold Creations.destroy at hstep
  split at hstep
  · split at hstep
    · next hnone =>
      cases hstep
      refine h.modify fun c' hc' => ⟨⟨[], (h.kept k c' hc').sound.honest, fun _ => rfl⟩,
        fun _ => hmade, fun err call hstage => (by cases hstage), fun _ _ => ?_⟩
      exact Daemon.notMem_of_getContainerElement hk hnone
    · next element helem =>
      cases hstep
      refine h.modify fun c' hc' => ⟨⟨[], (h.kept k c' hc').sound.honest, fun _ => rfl⟩,
        fun _ => hmade, fun err call hstage => ?_, fun err hstage => (by cases hstage)⟩
      cases hstage
      exact h.listed.element hk helem
  · next err call hstage =>
    obtain ⟨⟨d, next⟩, hdestroy, rfl⟩ := Option.map_eq_some_iff.mp hstep
    have hs := Daemon.ListStep.destroyStep hdestroy
    have haims : call.element = k := (h.kept k c hc).aims err call hstage
    have hfiles : Inv json ⟨d, s.afterDestroy k call⟩ := (h.step hs).afterDestroy call
    refine hfiles.modify fun c' hc' => ⟨?_, fun _ => hs.done k hmade, fun err' call' hnext => ?_,
      fun err' hnext => ?_⟩
    · have hhonest := (hfiles.kept k c' hc').sound.honest
      cases next with
      | some pc => exact ⟨[], hhonest, fun _ => rfl⟩
      | none => exact ⟨[], hhonest, fun _ => rfl⟩
    · cases next with
      | some pc =>
        cases hnext
        exact haims
      | none => cases hnext
    · cases next with
      | some pc => cases hnext
      | none =>
        have hpast : call.pc ≠ .stop := of_decide_eq_true (CreateStage.failed.inj hnext).2
        obtain ⟨-, ⟨-, hstop⟩ | hlist⟩ := Daemon.destroyStep_list hdestroy
        · exact absurd (hstop rfl) hpast
        · rw [hlist, haims]
          exact fun hmem => absurd rfl (h.listed.nodup.mem_erase_iff.mp hmem).1
  · cases hstep

namespace Inv

/-- `SetUserData` has failed. -/
theorem fail (h : s.Inv json) (hc : s.creations[k]? = some c)
    (hmade : s.daemon.createAt k = some .done) (err : GoString) :
    (s.setCreation k (c.fail err)).Inv json :=
  h.setCreation (.of_made ((h.kept k c hc).sound.fail err) hmade (by simp [Creation.fail])
    (by simp [Creation.fail]))

theorem load (h : s.Inv json) {readErr : Option GoString}
    (hstep : s.step json (.load k readErr) = some s') : s'.Inv json := by
  obtain ⟨obj, hobj, hstep⟩ := Option.bind_eq_some_iff.mp hstep
  obtain ⟨c, hc, hstep⟩ := Option.bind_eq_some_iff.mp hstep
  obtain ⟨hk, hcreate⟩ := Daemon.object_some hobj
  have hmade : s.daemon.createAt k = some .done := by
    rw [Daemon.createAt, hk, Option.map_some, hcreate]
  split at hstep
  · next key hstage =>
    split at hstep
    · cases hstep
      exact h.fail hc hmade _
    · next text hset =>
      cases hstep
      have hsound := (h.kept k c hc).sound.load hstage hset
      exact h.setCreation (.of_made hsound hmade (by simp) (by simp))
  · cases hstep

theorem openFile (h : s.Inv json) {err : Option GoString}
    (hstep : s.step json (.openFile k err) = some s') : s'.Inv json := by
  obtain ⟨c, hc, hstep⟩ := Option.bind_eq_some_iff.mp hstep
  have hkept := h.kept k c hc
  split at hstep
  · next key text hstage =>
    have hmade := hkept.made (by simp [hstage])
    split at hstep
    · cases hstep
      exact h.fail hc hmade _
    · cases hstep
      exact h.setCreation (.of_made (hkept.sound.openFile hstage) hmade (by simp) (by simp))
  · cases hstep

theorem write (h : s.Inv json) {n : Nat} (hstep : s.step json (.write k n) = some s') :
    s'.Inv json := by
  obtain ⟨c, hc, hstep⟩ := Option.bind_eq_some_iff.mp hstep
  have hkept := h.kept k c hc
  split at hstep
  · next key text written hstage =>
    have hmade := hkept.made (by simp [hstage])
    split at hstep
    · next hle =>
      cases hstep
      exact h.setCreation (.of_made (hkept.sound.write hstage hle) hmade (by simp) (by simp))
    · cases hstep
  · cases hstep

theorem close (h : s.Inv json) {err : Option GoString}
    (hstep : s.step json (.close k err) = some s') : s'.Inv json := by
  obtain ⟨c, hc, hstep⟩ := Option.bind_eq_some_iff.mp hstep
  have hkept := h.kept k c hc
  split at hstep
  · next key text written hstage =>
    have hmade := hkept.made (by simp [hstage])
    split at hstep
    · cases hstep
      exact h.fail hc hmade _
    · split at hstep
      · next hall =>
        cases hstep
        have hsound := hkept.sound.close (hall ▸ hstage)
        refine h.setCreation (.of_made hsound hmade ?_ ?_) <;> cases key <;> simp [DataKey.next]
      · cases hstep
  · cases hstep

end Inv

/-- Every step keeps the files as the stages say. -/
theorem step_inv {op : CreationOp} (h : s.Inv json) (hop : FreshId s op)
    (hstep : s.step json op = some s') : s'.Inv json := by
  cases op with
  | create id image comment =>
    obtain ⟨d, hcreate, rfl⟩ := Option.map_eq_some_iff.mp hstep
    simp only [Daemon.step] at hcreate
    split at hcreate
    · cases hcreate
      rw [Daemon.create]
      by_cases hexists : s.daemon.containerExists id = true
      · rw [if_pos hexists, if_pos hexists]
        exact h
      · rw [if_neg hexists, if_neg hexists]
        exact h.create hop rfl rfl rfl
    · cases hcreate
  | daemon op =>
    cases op with
    | create id image => cases hstep
    | _ =>
      obtain ⟨d, hd, rfl⟩ := Option.map_eq_some_iff.mp hstep
      exact h.daemon (fun _ _ => by simp) hd
  | load k readErr => exact h.load hstep
  | openFile k err => exact h.openFile hstep
  | write k n => exact h.write hstep
  | close k err => exact h.close hstep
  | destroy k ok =>
    obtain ⟨obj, hobj, hstep⟩ := Option.bind_eq_some_iff.mp hstep
    obtain ⟨c, hc, hstep⟩ := Option.bind_eq_some_iff.mp hstep
    exact h.destroy hobj hc hstep

theorem reachable_inv (h : (creationSystem α json).ReachableVia FreshId s) : s.Inv json :=
  h.invariant (fun _ => fresh_inv) fun _ _ _ => step_inv

end Creations

namespace MapJson

open Json (quoteMark backslash comma letterN escape quote)

def colonMark : UInt8 := 58
def openBrace : UInt8 := 123
def closeBrace : UInt8 := 125

def members : UserData → GoString
  | [] => []
  | [(key, value)] => quote key ++ colonMark :: quote value
  | (key, value) :: rest => quote key ++ colonMark :: quote value ++ comma :: members rest

def marshalMap (data : UserData) : GoString := openBrace :: (members data ++ [closeBrace])

/-- Where the scanner is: in front of the map, in front of a member, in a string (`done` is what
    follows it), behind a key, in front of a value, behind a member, behind the map. -/
inductive Scan where
  | start
  | member (data : UserData)
  | inside (done : GoString → Scan) (s : GoString)
  | escaped (done : GoString → Scan) (s : GoString)
  | colon (data : UserData) (key : GoString)
  | value (data : UserData) (key : GoString)
  | after (data : UserData)
  | closed (data : UserData)

def Scan.step : Scan → UInt8 → Option Scan
  | start, b => if b = openBrace then some (member []) else none
  | member data, b =>
    if b = quoteMark then some (inside (colon data) [])
    else if b = closeBrace ∧ data = [] then some (closed [])
    else none
  | inside done s, b =>
    if b = quoteMark then some (done s)
    else if b = backslash then some (escaped done s)
    else some (inside done (s ++ [b]))
  | escaped done s, b =>
    if b = letterN then some (inside done (s ++ [newline]))
    else if b = quoteMark ∨ b = backslash then some (inside done (s ++ [b]))
    else none
  | colon data key, b => if b = colonMark then some (value data key) else none
  | value data key, b =>
    if b = quoteMark then some (inside (fun v => after (data ++ [(key, v)])) []) else none
  | after data, b =>
    if b = comma then some (member data)
    else if b = closeBrace then some (closed data)
    else none
  | closed data, b => if b = newline then some (closed data) else none

def Scan.run (state : Scan) (s : GoString) : Option Scan := s.foldlM step state

def unmarshalMap (s : GoString) : Except GoString UserData :=
  match Scan.start.run s with
  | some (.closed data) => .ok data
  | _ => .error (str "unexpected end of JSON input")

theorem Scan.run_append (state : Scan) (s t : GoString) :
    state.run (s ++ t) = (state.run s).bind (·.run t) :=
  List.foldlM_append

theorem Scan.run_cons (state : Scan) (b : UInt8) (s : GoString) :
    state.run (b :: s) = (state.step b).bind (·.run s) :=
  List.foldlM_cons

theorem run_escape (done : GoString → Scan) (s : GoString) (b : UInt8) :
    (Scan.inside done s).run (escape b) = some (.inside done (s ++ [b])) := by
  rw [escape]
  split
  · next h =>
    subst h
    rfl
  · split
    · next h =>
      obtain rfl | rfl := h <;> rfl
    · next h =>
      rw [not_or] at h
      rw [Scan.run_cons, Scan.step, if_neg h.1, if_neg h.2]
      rfl

theorem run_escapes (done : GoString → Scan) (s t : GoString) :
    (Scan.inside done s).run (t.flatMap escape) = some (.inside done (s ++ t)) := by
  induction t generalizing s with
  | nil =>
    rw [List.append_nil]
    rfl
  | cons b t ih =>
    rw [List.flatMap_cons, Scan.run_append, run_escape]
    show (Scan.inside done (s ++ [b])).run (t.flatMap escape) = _
    rw [ih, List.append_assoc]
    rfl

theorem run_string (done : GoString → Scan) (s : GoString) :
    (Scan.inside done []).run (s.flatMap escape ++ [quoteMark]) = some (done s) := by
  rw [Scan.run_append, run_escapes]
  rfl

theorem run_member (data : UserData) (key value : GoString) :
    (Scan.member data).run (quote key ++ colonMark :: quote value) =
      some (.after (data ++ [(key, value)])) := by
  rw [Scan.run_append]
  have hkey : (Scan.member data).run (quote key) = some (.colon data key) := run_string _ key
  rw [hkey]
  exact run_string _ value

theorem run_members (data : UserData) (entry : GoString × GoString) (rest : UserData) :
    (Scan.member data).run (members (entry :: rest)) = some (.after (data ++ entry :: rest)) := by
  induction rest generalizing data entry with
  | nil => exact run_member data entry.1 entry.2
  | cons entry' rest ih =>
    show (Scan.member data).run
      (quote entry.1 ++ colonMark :: quote entry.2 ++ comma :: members (entry' :: rest)) = _
    rw [Scan.run_append, run_member]
    show (Scan.member (data ++ [entry])).run (members (entry' :: rest)) = _
    rw [ih, List.append_assoc]
    rfl

theorem run_marshalMap (data : UserData) :
    Scan.start.run (marshalMap data) = some (.closed data) := by
  cases data with
  | nil => rfl
  | cons entry rest =>
    show (Scan.member []).run (members (entry :: rest) ++ [closeBrace]) = _
    rw [Scan.run_append, run_members]
    rfl

/-- Nothing but white space may follow a map. -/
theorem run_closed (data : UserData) {s : GoString} {state : Scan}
    (h : (Scan.closed data).run s = some state) : state = .closed data ∧ ∀ b ∈ s, b = newline := by
  induction s with
  | nil =>
    cases h
    exact ⟨rfl, fun _ hb => absurd hb List.not_mem_nil⟩
  | cons b s ih =>
    rw [Scan.run_cons, Scan.step] at h
    split at h
    · next hb =>
      obtain ⟨hstate, hs⟩ := ih h
      exact ⟨hstate, List.forall_mem_cons.mpr ⟨hb, hs⟩⟩
    · cases h

/-- A map that is cut short is no map: its last byte would have to follow it. -/
theorem unmarshalMap_take (data : UserData) {n : Nat} (hn : n < (marshalMap data).length) :
    ∃ err, unmarshalMap ((marshalMap data).take n) = .error err := by
  have hrun := run_marshalMap data
  rw [← List.take_append_drop n (marshalMap data), Scan.run_append] at hrun
  obtain ⟨state, hstate, hrest⟩ := Option.bind_eq_some_iff.mp hrun
  rw [unmarshalMap, hstate]
  cases state with
  | closed data' =>
    have hlast : closeBrace ∈ (marshalMap data).drop n := by
      have hdrop : (marshalMap data).drop n =
          (openBrace :: members data).drop n ++ [closeBrace] := by
        have hle : n ≤ (openBrace :: members data).length := by
          rw [marshalMap, ← List.cons_append, List.length_append, List.length_singleton] at hn
          omega
        rw [marshalMap, ← List.cons_append, List.drop_append_of_le_length hle]
      rw [hdrop]
      exact List.mem_append_right _ List.mem_cons_self
    exact absurd ((run_closed data' hrest).2 _ hlast) (by decide)
  | _ => exact ⟨_, rfl⟩

def maps : MapJson where
  marshal data := .ok (marshalMap data)
  unmarshal := unmarshalMap
  readBack s := s
  readBack_utf8 _ _ := rfl
  readBack_readBack _ := rfl
  unmarshal_marshal data text hkeys h := by
    cases h
    refine ⟨data, ?_, hkeys, fun key _ => ?_⟩
    · rw [unmarshalMap, run_marshalMap]
    · rw [Option.map_id']
  unmarshal_take data text h n hn := by
    cases h
    exact unmarshalMap_take data hn

end MapJson

/-- A container from the image `base` with the comment `y`. -/
def createdB : Creation where
  image := str "base"
  comment := str "y"
  file := some (MapJson.marshalMap [(str "comment", str "y"), (str "image", str "base")])
  removed := false
  stage := .returned

end Docker
