import DockerEngine.Native.Logs
import DockerEngine.ForStd.List
import Mathlib.Data.List.Nodup

/-!
# What `logs` shows, and when it ends the daemon

A file has one name at most, and only the container that has opened it writes to it. So a request
whose container has its directory shows all that this container has ever written to its standard
output, up to some moment, and then all that it has written to its standard error, up to a later
one. A request that opens a file whose directory has been removed ends the daemon.

- `logs_shows`: what a request returns
- `logs_panics_iff`: the one step that ends the daemon
-/

namespace Docker.Logs

open Go

variable {s s' : Site} {j k : Nat}

/-! ## Names and files -/

/-- What holds of the files and the names in all runs. -/
structure Site.Inv (s : Site) : Prop where
  made : ∀ c ∈ s.heap, ∀ stream, c.log stream < s.files.length
  opened : ∀ (j k : Nat) (c c' : Container) (stream stream' : Stream), s.heap[j]? = some c →
    s.heap[k]? = some c' → c.log stream = c'.log stream' → j = k ∧ stream = stream'
  listed : s.containers.Nodup
  inHeap : ∀ k ∈ s.containers, k < s.heap.length
  ids : ∀ (j k : Nat) (c c' : Container), j ∈ s.containers → k ∈ s.containers →
    s.heap[j]? = some c → s.heap[k]? = some c' → c.id = c'.id → j = k
  loaded : ∀ c ∈ s.dirs, ∃ k ∈ s.containers, s.heap[k]? = some c
  names : (s.dirs.map Container.id).Nodup
  calls : ∀ call ∈ s.calls, call.container < s.heap.length
  elements : ∀ r ∈ s.removals, ∃ c, s.heap[r.element]? = some c ∧ c.id = r.id
  /-- A container that is about to leave the list has no directory. -/
  removed : ∀ r ∈ s.removals, r.pc = .removed → r.element ∈ s.containers →
    ∀ d ∈ s.dirs, d.id ≠ r.id

theorem getContainer_some {id : GoString} (hk : s.getContainer id = some k) :
    k ∈ s.containers ∧ ∃ c, s.heap[k]? = some c ∧ c.id = id := by
  have hid := List.find?_some hk
  obtain ⟨c, hc, heq⟩ := (Option.any_eq_true _ _).mp hid
  exact ⟨List.mem_of_find?_eq_some hk, c, hc, of_decide_eq_true heq⟩

theorem getContainer_none {id : GoString} (hnone : s.getContainer id = none)
    (hk : k ∈ s.containers) {c : Container} (hc : s.heap[k]? = some c) : c.id ≠ id := by
  have hk' := List.find?_eq_none.mp hnone k hk
  rw [hc, Option.any_some, decide_eq_true_eq] at hk'
  exact hk'

/-- There is no file with the name of a log when there is no directory with the id. -/
theorem openLog_none_iff (c : Container) (stream : Stream) :
    s.openLog c stream = none ↔ ∀ d ∈ s.dirs, d.id ≠ c.id := by
  unfold Site.openLog
  rw [Option.map_eq_none_iff, List.find?_eq_none]
  exact forall₂_congr fun d _ => not_congr decide_eq_true_iff

theorem removeAll_cases {i : Nat} {id : GoString} (hstep : s.removeAll i id = some s') :
    ∃ element, s.removals[i]? = some ⟨id, element, .stopping⟩ ∧
      s' = { s with
        dirs := s.dirs.filter fun d => d.id ≠ id
        removals := s.removals.set i ⟨id, element, .removed⟩ } := by
  unfold Site.removeAll at hstep
  split at hstep
  · next id' element hi =>
    split at hstep
    · next hid =>
      subst hid
      cases hstep
      exact ⟨element, hi, rfl⟩
    · cases hstep
  · cases hstep

theorem remove_cases {i : Nat} (hstep : s.remove i = some s') :
    ∃ id element, s.removals[i]? = some ⟨id, element, .removed⟩ ∧
      s' = { s with
        containers := s.containers.erase element
        removals := s.removals.set i ⟨id, element, .done⟩ } := by
  unfold Site.remove at hstep
  split at hstep
  · next id element hi =>
    cases hstep
    exact ⟨id, element, hi, rfl⟩
  · cases hstep

namespace Site.Inv

theorem new : Site.new.Inv where
  made c hc := absurd hc List.not_mem_nil
  opened j k c c' stream stream' hj := by cases hj
  listed := List.nodup_nil
  inHeap k hk := absurd hk List.not_mem_nil
  ids j k c c' hj := absurd hj List.not_mem_nil
  loaded c hc := absurd hc List.not_mem_nil
  names := List.nodup_nil
  calls call hcall := absurd hcall List.not_mem_nil
  elements r hr := absurd hr List.not_mem_nil
  removed r hr := absurd hr List.not_mem_nil

/-- Containers with the same id that have directories are the same. -/
theorem eq_of_id (h : s.Inv) {c c' : Container} (hc : c ∈ s.dirs) (hc' : c' ∈ s.dirs)
    (hid : c.id = c'.id) : c = c' := List.inj_on_of_nodup_map h.names hc hc' hid

/-- The container that is found under an id is the one that has the directory. -/
theorem found (h : s.Inv) {d : Container} (hd : d ∈ s.dirs) (hk : s.getContainer d.id = some k) :
    s.heap[k]? = some d := by
  obtain ⟨hmem, c, hc, hid⟩ := getContainer_some hk
  obtain ⟨k', hmem', hd'⟩ := h.loaded d hd
  rw [h.ids k k' c d hmem hmem' hc hd' hid]
  exact hd'

/-- The name of a log leads to the file that the container with this directory has open. -/
theorem openLog_of_dir (h : s.Inv) {c : Container} (hc : c ∈ s.dirs) (stream : Stream) :
    s.openLog c stream = some (c.log stream) := by
  unfold openLog
  cases hfind : s.dirs.find? fun d => d.id = c.id with
  | none => exact absurd (decide_eq_true rfl) (List.find?_eq_none.mp hfind c hc)
  | some d =>
    have hid := List.find?_some hfind
    rw [h.eq_of_id (List.mem_of_find?_eq_some hfind) hc (of_decide_eq_true hid)]
    rfl

/-! ## Steps -/

theorem create (h : s.Inv) {id : GoString} (hstep : s.create id = some s') : s'.Inv := by
  unfold Site.create at hstep
  split at hstep
  · cases hstep
  next hget =>
  split at hstep
  · cases hstep
  next hdir =>
  cases hstep
  rw [Bool.not_eq_true, Option.isSome_eq_false_iff, Option.isNone_iff_eq_none] at hget
  have hnew : ∀ {k : Nat} {c : Container},
      (s.heap ++ [⟨id, s.files.length, s.files.length + 1⟩])[k]? = some c →
      (s.heap[k]? = some c ∧ ∀ stream, c.log stream < s.files.length) ∨
        (k = s.heap.length ∧ c = ⟨id, s.files.length, s.files.length + 1⟩) := by
    intro k c hk
    obtain hk | hk := List.getElem?_concat_cases hk
    · exact .inl ⟨hk, h.made c (List.mem_of_getElem? hk)⟩
    · exact .inr hk
  -- nothing in the list is at the new position, nor has the new id
  have hold : ∀ {k : Nat} {c : Container}, k ∈ s.containers ++ [s.heap.length] →
      s.heap[k]? = some c → k ∈ s.containers ∧ c.id ≠ id := by
    intro k c hk hc
    have hlt := (List.getElem?_eq_some_iff.mp hc).1
    obtain hk | hk := List.mem_append.mp hk
    · exact ⟨hk, getContainer_none hget hk hc⟩
    · exact absurd (List.mem_singleton.mp hk) (Nat.ne_of_lt hlt)
  refine ⟨fun c hc stream => ?_, fun j k c c' stream stream' hj hk heq => ?_, ?_, fun k hk => ?_,
    fun j k c c' hj hk hc hc' heq => ?_, fun c hc => ?_, ?_, fun call hcall => ?_,
    fun r hr => ?_, fun r hr hpc hmem d hd => ?_⟩
  · show c.log stream < (s.files ++ [[], []]).length
    rw [List.length_append]
    obtain hc | hc := List.mem_append.mp hc
    · have hlt := h.made c hc stream
      omega
    · rw [List.mem_singleton.mp hc]
      cases stream <;> simp [Container.log]
  · rcases hnew hj with ⟨hj, hlt⟩ | ⟨rfl, rfl⟩ <;> rcases hnew hk with ⟨hk, hlt'⟩ | ⟨rfl, rfl⟩
    · exact h.opened j k c c' stream stream' hj hk heq
    · have hlt := hlt stream
      cases stream' <;> simp only [Container.log] at heq hlt <;> omega
    · have hlt' := hlt' stream'
      cases stream <;> simp only [Container.log] at heq hlt' <;> omega
    · refine ⟨rfl, ?_⟩
      cases stream <;> cases stream' <;> simp [Container.log] at heq ⊢
  · have hfresh : s.heap.length ∉ s.containers := fun hmem => Nat.lt_irrefl _ (h.inHeap _ hmem)
    exact h.listed.append (List.nodup_singleton _)
      (List.disjoint_singleton.mpr hfresh)
  · show k < (s.heap ++ [_]).length
    rw [List.length_append]
    obtain hk | hk := List.mem_append.mp hk
    · exact Nat.lt_add_right 1 (h.inHeap k hk)
    · rw [List.mem_singleton.mp hk]
      exact Nat.lt_succ_self _
  · rcases hnew hc with ⟨hc, -⟩ | ⟨rfl, rfl⟩ <;> rcases hnew hc' with ⟨hc', -⟩ | ⟨rfl, rfl⟩
    · exact h.ids j k c c' (hold hj hc).1 (hold hk hc').1 hc hc' heq
    · exact absurd heq (hold hj hc).2
    · exact absurd heq.symm (hold hk hc').2
    · rfl
  · obtain hc | hc := List.mem_append.mp hc
    · obtain ⟨k, hk, hheap⟩ := h.loaded c hc
      exact ⟨k, List.mem_append_left _ hk, List.getElem?_concat_of_some hheap⟩
    · rw [List.mem_singleton.mp hc]
      exact ⟨_, List.mem_append_right _ List.mem_cons_self, List.getElem?_concat_length⟩
  · show ((s.dirs ++ [_]).map Container.id).Nodup
    rw [List.map_append]
    refine h.names.append (List.nodup_singleton _) (List.disjoint_singleton.mpr fun hmem => ?_)
    obtain ⟨d, hd, hid⟩ := List.mem_map.mp hmem
    exact hdir (List.any_eq_true.mpr ⟨d, hd, decide_eq_true hid⟩)
  · have hlt := h.calls call hcall
    show call.container < (s.heap ++ [_]).length
    rw [List.length_append]
    omega
  · obtain ⟨c, hc, hid⟩ := h.elements r hr
    exact ⟨c, List.getElem?_concat_of_some hc, hid⟩
  · obtain ⟨c, hc, hid⟩ := h.elements r hr
    obtain ⟨hmem, hne⟩ := hold hmem hc
    obtain hd | hd := List.mem_append.mp hd
    · exact h.removed r hr hpc hmem d hd
    · rw [List.mem_singleton.mp hd, ← hid]
      exact hne.symm

theorem destroy (h : s.Inv) {id : GoString} (hstep : s.destroy id = some s') : s'.Inv := by
  obtain ⟨k, hget, rfl⟩ := Option.map_eq_some_iff.mp hstep
  obtain ⟨-, c, hc, hid⟩ := getContainer_some hget
  refine { h with elements := fun r hr => ?_, removed := fun r hr hpc => ?_ }
  · obtain hr | hr := List.mem_append.mp hr
    · exact h.elements r hr
    · rw [List.mem_singleton.mp hr]
      exact ⟨c, hc, hid⟩
  · obtain hr | hr := List.mem_append.mp hr
    · exact h.removed r hr hpc
    · rw [List.mem_singleton.mp hr] at hpc
      cases hpc

theorem removeAll (h : s.Inv) {i : Nat} {id : GoString} (hstep : s.removeAll i id = some s') :
    s'.Inv := by
  obtain ⟨element, hi, rfl⟩ := removeAll_cases hstep
  have helement := h.elements _ (List.mem_of_getElem? hi)
  refine { h with
    loaded := fun c hc => h.loaded c (List.mem_filter.mp hc).1
    names := h.names.sublist (List.filter_sublist.map _)
    elements := fun r hr => ?_
    removed := fun r hr hpc hmem d hd => ?_ }
  · obtain hr | rfl := List.mem_or_eq_of_mem_set hr
    · exact h.elements r hr
    · exact helement
  · obtain ⟨hd, hne⟩ := List.mem_filter.mp hd
    obtain hr | rfl := List.mem_or_eq_of_mem_set hr
    · exact h.removed r hr hpc hmem d hd
    · exact of_decide_eq_true hne

/-- The container that leaves the list is not the one that has a directory. -/
theorem remove (h : s.Inv) {i : Nat} (hstep : s.remove i = some s') : s'.Inv := by
  obtain ⟨id, element, hi, rfl⟩ := remove_cases hstep
  have helement := h.elements _ (List.mem_of_getElem? hi)
  have hmem {k : Nat} (hk : k ∈ s.containers.erase element) : k ∈ s.containers :=
    List.mem_of_mem_erase hk
  refine { h with
    listed := h.listed.erase _
    inHeap := fun k hk => h.inHeap k (hmem hk)
    ids := fun j k c c' hj hk => h.ids j k c c' (hmem hj) (hmem hk)
    loaded := fun c hc => ?_
    elements := fun r hr => ?_
    removed := fun r hr hpc hk => ?_ }
  · obtain ⟨k, hk, hheap⟩ := h.loaded c hc
    refine ⟨k, (List.Nodup.mem_erase_iff h.listed).mpr ⟨?_, hk⟩, hheap⟩
    rintro rfl
    obtain ⟨c', hc', hid⟩ := helement
    cases hheap.symm.trans hc'
    exact h.removed _ (List.mem_of_getElem? hi) rfl hk c hc hid
  · obtain hr | rfl := List.mem_or_eq_of_mem_set hr
    · exact h.elements r hr
    · exact helement
  · obtain hr | rfl := List.mem_or_eq_of_mem_set hr
    · exact h.removed r hr hpc (hmem hk)
    · cases hpc

/-- A directory is loaded once. -/
theorem loaded_once (h : s.Inv) {c c' : Container} (hj : s.dirs[j]? = some c)
    (hk : s.dirs[k]? = some c') (hid : c.id = c'.id) : j = k := by
  have hat {i : Nat} {d : Container} (hi : s.dirs[i]? = some d) :
      (s.dirs.map Container.id)[i]? = some d.id := by
    rw [List.getElem?_map, hi]
    rfl
  have hlt := (List.getElem?_eq_some_iff.mp (hat hj)).1
  apply (List.getElem?_inj hlt h.names).mp
  rw [hat hj, hat hk, hid]

theorem restart (h : s.Inv) : s.restart.Inv := by
  have hheap : ∀ c ∈ s.dirs, c ∈ s.heap := by
    intro c hc
    obtain ⟨k, -, hk⟩ := h.loaded c hc
    exact List.mem_of_getElem? hk
  refine ⟨fun c hc => h.made c (hheap c hc), fun j k c c' stream stream' hj hk heq => ?_,
    List.nodup_range, fun k hk => List.mem_range.mp hk,
    fun j k c c' _ _ hc hc' heq => h.loaded_once hc hc' heq, fun c hc => ?_, h.names,
    fun call hcall => absurd hcall List.not_mem_nil, fun r hr => absurd hr List.not_mem_nil,
    fun r hr => absurd hr List.not_mem_nil⟩
  · obtain ⟨i, hi⟩ := List.getElem?_of_mem (hheap c (List.mem_of_getElem? hj))
    obtain ⟨i', hi'⟩ := List.getElem?_of_mem (hheap c' (List.mem_of_getElem? hk))
    obtain ⟨rfl, hstream⟩ := h.opened i i' c c' stream stream' hi hi' heq
    cases hi.symm.trans hi'
    exact ⟨h.loaded_once hj hk rfl, hstream⟩
  · obtain ⟨k, hk⟩ := List.getElem?_of_mem hc
    exact ⟨k, List.mem_range.mpr (List.getElem?_eq_some_iff.mp hk).1, hk⟩

/-- A step that leaves the names alone, and has calls for the containers there are. -/
theorem frame (h : s.Inv) (hfiles : s'.files.length = s.files.length) (hdirs : s'.dirs = s.dirs)
    (hheap : s'.heap = s.heap) (hcontainers : s'.containers = s.containers)
    (hremovals : s'.removals = s.removals)
    (hcalls : ∀ call ∈ s'.calls, call.container < s.heap.length) : s'.Inv := by
  refine ⟨?_, ?_, ?_, ?_, ?_, ?_, ?_, ?_, ?_, ?_⟩
  · rw [hheap, hfiles]
    exact h.made
  · rw [hheap]
    exact h.opened
  · rw [hcontainers]
    exact h.listed
  · rw [hcontainers, hheap]
    exact h.inHeap
  · rw [hcontainers, hheap]
    exact h.ids
  · rw [hcontainers, hdirs, hheap]
    exact h.loaded
  · rw [hdirs]
    exact h.names
  · rw [hheap]
    exact hcalls
  · rw [hremovals, hheap]
    exact h.elements
  · rw [hremovals, hcontainers, hdirs]
    exact h.removed

end Site.Inv

/-- What a step of a request can do. -/
inductive Advances (s : Site) (j : Nat) (call : Call) : Site → Prop
  | opens {stream : Stream} {c : Container} {file : Nat} (hpc : call.pc = .opening stream)
      (hc : s.heap[call.container]? = some c) (hopen : s.openLog c stream = some file) :
      Advances s j call (s.setCall j { call with pc := .copying stream file 0 })
  | panics {stream : Stream} {c : Container} (hpc : call.pc = .opening stream)
      (hc : s.heap[call.container]? = some c) (hopen : s.openLog c stream = none) :
      Advances s j call { s with panicked := true }
  | reads {stream : Stream} {file pos m : Nat} (hpc : call.pc = .copying stream file pos)
      (hm : 0 < m) (hlength : pos + m ≤ (s.file file).length) :
      Advances s j call (s.setCall j { call with
        pc := .copying stream file (pos + m)
        reply := call.reply ++ ((s.file file).drop pos).take m })
  | ends {stream : Stream} {file pos : Nat} (hpc : call.pc = .copying stream file pos)
      (hlength : (s.file file).length ≤ pos) :
      Advances s j call (s.setCall j { call with pc := afterCopy stream })

theorem callStep_advances {n : Nat} {call : Call} (hstep : s.callStep j n call = some s') :
    Advances s j call s' := by
  unfold Site.callStep at hstep
  split at hstep
  · next stream hpc =>
    obtain ⟨c, hc, heq⟩ := Option.map_eq_some_iff.mp hstep
    split at heq
    · next hopen =>
      rw [← heq]
      exact .panics hpc hc hopen
    · next file hopen =>
      rw [← heq]
      exact .opens hpc hc hopen
  · next stream file pos hpc =>
    simp only at hstep
    split at hstep
    · cases hstep
    next hn =>
    split at hstep
    · next hend =>
      cases hstep
      refine .ends hpc ?_
      rw [List.take_eq_nil_iff, or_iff_right hn, List.drop_eq_nil_iff] at hend
      exact hend
    · next hchunk =>
      cases hstep
      -- the chunk by its own length
      have hlength : (((s.file file).drop pos).take n).length =
          min n ((s.file file).length - pos) := by
        rw [List.length_take, List.length_drop]
      have hpos := List.length_pos_of_ne_nil hchunk
      have htake : ((s.file file).drop pos).take n =
          ((s.file file).drop pos).take (((s.file file).drop pos).take n).length :=
        List.prefix_iff_eq_take.mp (List.take_prefix _ _)
      generalize hm : (((s.file file).drop pos).take n).length = m at *
      rw [htake]
      exact .reads hpc (by omega) (by omega)
  · cases hstep

namespace Site.Inv

theorem setCall (h : s.Inv) {call call' : Call} (hcall : s.calls[j]? = some call)
    (heq : call'.container = call.container) : (s.setCall j call').Inv := by
  refine h.frame rfl rfl rfl rfl rfl fun q hq => ?_
  obtain hq | rfl := List.mem_or_eq_of_mem_set hq
  · exact h.calls q hq
  · rw [heq]
    exact h.calls call (List.mem_of_getElem? hcall)

theorem liveStep (h : s.Inv) {op : Op} (hstep : s.liveStep op = some s') : s'.Inv := by
  cases op with
  | create id => exact h.create hstep
  | destroy id => exact h.destroy hstep
  | removeAll i id => exact h.removeAll hstep
  | remove i => exact h.remove hstep
  | restart =>
    cases hstep
    exact h.restart
  | write k stream data =>
    obtain ⟨c, -, rfl⟩ := Option.map_eq_some_iff.mp hstep
    exact h.frame (List.length_modify _ _ _) rfl rfl rfl rfl h.calls
  | logs args =>
    obtain ⟨name, -, hget⟩ := Option.bind_eq_some_iff.mp hstep
    obtain ⟨k, hk, rfl⟩ := Option.map_eq_some_iff.mp hget
    refine h.frame rfl rfl rfl rfl rfl fun call hcall => ?_
    obtain hcall | hcall := List.mem_append.mp hcall
    · exact h.calls call hcall
    · rw [List.mem_singleton.mp hcall]
      obtain ⟨-, c, hc, -⟩ := getContainer_some hk
      exact (List.getElem?_eq_some_iff.mp hc).1
  | advance j n =>
    obtain ⟨call, hcall, hadvance⟩ := Option.bind_eq_some_iff.mp hstep
    cases callStep_advances hadvance with
    | opens => exact h.setCall hcall rfl
    | panics => exact h.frame rfl rfl rfl rfl rfl h.calls
    | reads => exact h.setCall hcall rfl
    | ends => exact h.setCall hcall rfl

theorem step (h : s.Inv) {op : Op} (hstep : s.step op = some s') : s'.Inv := by
  unfold Site.step at hstep
  split at hstep
  · cases hstep
  · exact h.liveStep hstep

theorem of_reachable (h : logSystem.Reachable s) : s.Inv :=
  h.invariant (fun _ hs => hs ▸ new) fun _ _ _ hs _ hstep => hs.step hstep

end Site.Inv

/-! ## What a request has read -/

/-- What an event writes to a stream of the container at a position of the heap. -/
def Op.wrote (k : Nat) (stream : Stream) : Op → GoString
  | .write k' stream' data => if k' = k ∧ stream' = stream then data else []
  | _ => []

/-- What the container writes in a run. -/
def wrote (k : Nat) (stream : Stream) (es : List Op) : GoString := es.flatMap (Op.wrote k stream)

theorem wrote_concat (k : Nat) (stream : Stream) (es : List Op) (e : Op) :
    wrote k stream (es ++ [e]) = wrote k stream es ++ e.wrote k stream := by
  rw [wrote, List.flatMap_append, List.flatMap_singleton]
  rfl

section

variable {log : Stream → List Op → GoString} {c : Container} {es es' : List Op}

/-- What a request has written before it comes to a stream. -/
def Before (log : Stream → List Op → GoString) (es : List Op) (reply : GoString) : Stream → Prop
  | .stdout => reply = []
  | .stderr => ∃ es₁, es₁ <+: es ∧ reply = log .stdout es₁

/-- What a request has written after `es`, if `log` says what is in the logs of its container. -/
def Told (log : Stream → List Op → GoString) (c : Container) (es : List Op) (call : Call) : Prop :=
  match call.pc with
  | .opening stream => Before log es call.reply stream
  | .copying stream file pos => file = c.log stream ∧ pos ≤ (log stream es).length ∧
      ∃ reply, Before log es reply stream ∧ call.reply = reply ++ (log stream es).take pos
  | .returned => ∃ es₁ es₂, es₁ <+: es₂ ∧ es₂ <+: es ∧
      call.reply = log .stdout es₁ ++ log .stderr es₂

theorem Before.mono {reply : GoString} {stream : Stream} (h : Before log es reply stream)
    (hes : es <+: es') : Before log es' reply stream := by
  cases stream with
  | stdout => exact h
  | stderr =>
    obtain ⟨es₁, hes₁, hreply⟩ := h
    exact ⟨es₁, hes₁.trans hes, hreply⟩

/-- The logs grow, and what was read of them is still there. -/
theorem Told.mono {call : Call} (h : Told log c es call) (hes : es <+: es')
    (hlog : ∀ stream, log stream es <+: log stream es') : Told log c es' call := by
  unfold Told at h ⊢
  split at h
  · exact h.mono hes
  · next stream file pos _ =>
    obtain ⟨hfile, hpos, reply, hbefore, hreply⟩ := h
    obtain ⟨more, hmore⟩ := hlog stream
    refine ⟨hfile, ?_, reply, hbefore.mono hes, ?_⟩
    · rw [← hmore, List.length_append]
      omega
    · rw [← hmore, List.take_append_of_le_length hpos]
      exact hreply
  · obtain ⟨es₁, es₂, hes₁, hes₂, hreply⟩ := h
    exact ⟨es₁, es₂, hes₁, hes₂.trans hes, hreply⟩

theorem Told.opens {call : Call} (h : Told log c es call) {stream : Stream}
    (hpc : call.pc = .opening stream) :
    Told log c es { call with pc := .copying stream (c.log stream) 0 } := by
  unfold Told at h
  rw [hpc] at h
  exact ⟨rfl, Nat.zero_le _, call.reply, h, (List.append_nil _).symm⟩

theorem Told.reads {call : Call} (h : Told log c es call) {stream : Stream} {file pos m : Nat}
    (hpc : call.pc = .copying stream file pos) (hfile : s.file (c.log stream) = log stream es)
    (hlength : pos + m ≤ (s.file file).length) :
    Told log c es { call with
      pc := .copying stream file (pos + m)
      reply := call.reply ++ ((s.file file).drop pos).take m } := by
  unfold Told at h
  rw [hpc] at h
  obtain ⟨rfl, hpos, reply, hbefore, hreply⟩ := h
  rw [hfile] at hlength ⊢
  refine ⟨rfl, hlength, reply, hbefore, ?_⟩
  show call.reply ++ ((log stream es).drop pos).take m = _
  rw [hreply, List.append_assoc, List.take_add]

/-- What was read when a copy ends is the log at that moment. -/
theorem Told.ends {call : Call} (h : Told log c es call) {stream : Stream} {file pos : Nat}
    (hpc : call.pc = .copying stream file pos) (hfile : s.file (c.log stream) = log stream es)
    (hlength : (s.file file).length ≤ pos) :
    Told log c es { call with pc := afterCopy stream } := by
  unfold Told at h
  rw [hpc] at h
  obtain ⟨rfl, hpos, reply, hbefore, hreply⟩ := h
  rw [hfile] at hlength
  rw [List.take_of_length_le hlength] at hreply
  cases stream with
  | stdout =>
    rw [show reply = [] from hbefore, List.nil_append] at hreply
    exact ⟨es, List.prefix_rfl, hreply⟩
  | stderr =>
    obtain ⟨es₁, hes₁, rfl⟩ := hbefore
    exact ⟨es₁, es, hes₁, List.prefix_rfl, hreply⟩

end

/-! ## While a request is served -/

/-- What the container has in a log after some events, by what was in it. -/
def logAfter (s₀ : Site) (k : Nat) (c : Container) (stream : Stream) (es : List Op) : GoString :=
  s₀.file (c.log stream) ++ wrote k stream es

theorem logAfter_concat (s₀ : Site) (k : Nat) (c : Container) (stream : Stream) (es : List Op)
    (e : Op) : logAfter s₀ k c stream (es ++ [e]) =
      logAfter s₀ k c stream es ++ e.wrote k stream := by
  rw [logAfter, wrote_concat, logAfter, List.append_assoc]

/-- Request `j` has the container at position `k`, which has its directory still. -/
structure Serves (s₀ : Site) (j k : Nat) (c : Container) (es : List Op) (s : Site) : Prop where
  inv : s.Inv
  heap : s.heap[k]? = some c
  dir : c ∈ s.dirs
  file : ∀ stream, s.file (c.log stream) = logAfter s₀ k c stream es
  call : ∃ call, s.calls[j]? = some call ∧ call.container = k ∧
    Told (logAfter s₀ k c) c es call

namespace Serves

variable {s₀ : Site} {c : Container} {es : List Op}

/-- An event that changes neither the container nor the request, but may be a write. -/
theorem frame (h : Serves s₀ j k c es s) {e : Op} (hinv : s'.Inv) (hheap : s'.heap[k]? = some c)
    (hdir : c ∈ s'.dirs)
    (hfile : ∀ stream, s'.file (c.log stream) = s.file (c.log stream) ++ e.wrote k stream)
    (hcall : ∀ call, s.calls[j]? = some call → s'.calls[j]? = some call) :
    Serves s₀ j k c (es ++ [e]) s' := by
  obtain ⟨call, hj, hk, htold⟩ := h.call
  refine ⟨hinv, hheap, hdir, fun stream => ?_, call, hcall call hj, hk, ?_⟩
  · rw [hfile, h.file, logAfter_concat]
  · refine htold.mono (List.prefix_append _ _) fun stream => ?_
    rw [logAfter_concat]
    exact List.prefix_append _ _

/-- A step of the request itself. -/
theorem advanced (h : Serves s₀ j k c es s) {n : Nat} {call call' : Call}
    (hinv : (s.setCall j call').Inv) (hj : s.calls[j]? = some call)
    (heq : call'.container = call.container)
    (htold : Told (logAfter s₀ k c) c es call → Told (logAfter s₀ k c) c es call') :
    Serves s₀ j k c (es ++ [.advance j n]) (s.setCall j call') := by
  obtain ⟨q, hq, hk, hqtold⟩ := h.call
  cases hj.symm.trans hq
  have hnone : ∀ stream, logAfter s₀ k c stream (es ++ [.advance j n]) =
      logAfter s₀ k c stream es := fun stream =>
    (logAfter_concat s₀ k c stream es _).trans (List.append_nil _)
  refine ⟨hinv, h.heap, h.dir, fun stream => ?_, call', ?_, heq.trans hk, ?_⟩
  · rw [hnone]
    exact h.file stream
  · have hlt := (List.getElem?_eq_some_iff.mp hj).1
    exact List.getElem?_set_self hlt
  · refine (htold hqtold).mono (List.prefix_append _ _) fun stream => ⟨[], ?_⟩
    rw [hnone, List.append_nil]

theorem advance (h : Serves s₀ j k c es s) {n : Nat} {call : Call} (hj : s.calls[j]? = some call)
    (hinv : s'.Inv) (hadvance : Advances s j call s') :
    Serves s₀ j k c (es ++ [.advance j n]) s' := by
  have hcontainer : s.heap[call.container]? = some c := by
    obtain ⟨q, hq, hk, -⟩ := h.call
    cases hj.symm.trans hq
    rw [hk]
    exact h.heap
  cases hadvance with
  | @opens stream c' file hpc hc hopen =>
    cases hcontainer.symm.trans hc
    rw [h.inv.openLog_of_dir h.dir] at hopen
    cases hopen
    exact h.advanced hinv hj rfl fun htold => htold.opens hpc
  | panics hpc hc hopen =>
    cases hcontainer.symm.trans hc
    rw [h.inv.openLog_of_dir h.dir] at hopen
    cases hopen
  | @reads stream file pos m hpc hm hlength =>
    exact h.advanced hinv hj rfl fun htold => htold.reads hpc (h.file stream) hlength
  | @ends stream file pos hpc hlength =>
    exact h.advanced hinv hj rfl fun htold => htold.ends hpc (h.file stream) hlength

/-- Another request goes on. -/
theorem other (h : Serves s₀ j k c es s) {i n : Nat} (hi : i ≠ j) {call : Call} (hinv : s'.Inv)
    (hadvance : Advances s i call s') : Serves s₀ j k c (es ++ [.advance i n]) s' := by
  have hset : ∀ call', (s.setCall i call').calls[j]? = s.calls[j]? := fun call' =>
    List.getElem?_set_ne hi
  have hfile : ∀ stream, s.file (c.log stream) =
      s.file (c.log stream) ++ (Op.advance i n).wrote k stream := fun stream =>
    (List.append_nil _).symm
  cases hadvance with
  | panics => exact h.frame hinv h.heap h.dir hfile fun _ hj => hj
  | opens | reads | ends =>
    refine h.frame hinv h.heap h.dir hfile fun q hq => ?_
    rw [hset, hq]

/-- What is in the files when a container writes. -/
theorem file_write (h : s.Inv) (hk : s.heap[k]? = some c) {k' : Nat} {c' : Container}
    (hk' : s.heap[k']? = some c') (stream stream' : Stream) (data : GoString) :
    ((s.files.modify (c'.log stream') (· ++ data)).getD (c.log stream) []) =
      s.file (c.log stream) ++ (Op.write k' stream' data).wrote k stream := by
  have hlt := h.made c (List.mem_of_getElem? hk) stream
  rw [Site.file, List.getD_eq_getElem?_getD, List.getElem?_modify, List.getD_eq_getElem?_getD,
    List.getElem?_eq_getElem hlt, Option.map_eq_map, Option.map_some, Option.getD_some,
    Option.getD_some, Op.wrote]
  by_cases heq : c'.log stream' = c.log stream
  · obtain ⟨rfl, rfl⟩ := h.opened k' k c' c stream' stream hk' hk heq
    rw [if_pos heq, if_pos ⟨rfl, rfl⟩]
  · have hne : ¬(k' = k ∧ stream' = stream) := by
      rintro ⟨rfl, rfl⟩
      cases hk.symm.trans hk'
      exact heq rfl
    rw [if_neg heq, if_neg hne]
    exact (List.append_nil _).symm

theorem step (h : Serves s₀ j k c es s) {e : Op}
    (he : e ≠ .restart ∧ ∀ i, e ≠ .removeAll i c.id)
    (hstep : s.step e = some s') : Serves s₀ j k c (es ++ [e]) s' := by
  have hinv := h.inv.step hstep
  unfold Site.step at hstep
  split at hstep
  · cases hstep
  have hsame : ∀ stream, s.file (c.log stream) = s.file (c.log stream) ++ [] := fun stream =>
    (List.append_nil _).symm
  cases e with
  | create id =>
    simp only [Site.liveStep, Site.create] at hstep
    split at hstep
    · cases hstep
    split at hstep
    · cases hstep
    cases hstep
    refine h.frame hinv (List.getElem?_concat_of_some h.heap) (List.mem_append_left _ h.dir)
      (fun stream => ?_) fun _ hj => hj
    have hlt := h.inv.made c (List.mem_of_getElem? h.heap) stream
    show (s.files ++ [[], []]).getD (c.log stream) [] = s.file (c.log stream) ++ []
    rw [List.append_nil, Site.file, List.getD_eq_getElem?_getD, List.getElem?_append_left hlt,
      List.getD_eq_getElem?_getD]
  | destroy id =>
    obtain ⟨k', -, rfl⟩ := Option.map_eq_some_iff.mp hstep
    exact h.frame hinv h.heap h.dir hsame fun _ hj => hj
  | removeAll i id =>
    obtain ⟨element, -, rfl⟩ := removeAll_cases hstep
    have hid : c.id ≠ id := by
      rintro rfl
      exact he.2 i rfl
    exact h.frame hinv h.heap (List.mem_filter.mpr ⟨h.dir, decide_eq_true hid⟩) hsame fun _ hj => hj
  | remove i =>
    obtain ⟨id, element, -, rfl⟩ := remove_cases hstep
    exact h.frame hinv h.heap h.dir hsame fun _ hj => hj
  | restart => exact absurd rfl he.1
  | write k' stream' data =>
    obtain ⟨c', hk', rfl⟩ := Option.map_eq_some_iff.mp hstep
    exact h.frame hinv h.heap h.dir
      (fun stream => file_write h.inv h.heap hk' stream stream' data) fun _ hj => hj
  | logs args =>
    obtain ⟨name, -, hget⟩ := Option.bind_eq_some_iff.mp hstep
    obtain ⟨k', -, rfl⟩ := Option.map_eq_some_iff.mp hget
    exact h.frame hinv h.heap h.dir hsame fun _ hj => List.getElem?_concat_of_some hj
  | advance i n =>
    obtain ⟨call, hcall, hadvance⟩ := Option.bind_eq_some_iff.mp hstep
    have hadvances := callStep_advances hadvance
    by_cases hi : i = j
    · subst hi
      exact h.advance hcall hinv hadvances
    · exact h.other hi hinv hadvances

end Serves

/-! ## Coming to the end -/

/-- Request `j` has returned. -/
def Returned (j : Nat) (s : Site) : Prop := ∃ call, s.calls[j]? = some call ∧ call.pc = .returned

theorem step_live (hlive : s.panicked = false) (op : Op) :
    logSystem.step s op = s.liveStep op :=
  if_neg fun hpanicked => Bool.false_ne_true (hlive.symm.trans hpanicked.1)

/-- A step of a request of a daemon that runs. -/
theorem Can.advance {Q : Site → Prop} (hlive : s.panicked = false) {n : Nat} {call : Call}
    (hj : s.calls[j]? = some call) (hstep : s.callStep j n call = some s')
    (h : logSystem.Can Q s') : logSystem.Can Q s := by
  have hadvance : logSystem.step s (.advance j n) = some s' := by
    rw [step_live hlive, Site.liveStep, hj, Option.bind_some, hstep]
  exact h.step (.advance j n) hadvance

theorem setCall_get {call call' : Call} (hj : s.calls[j]? = some call) :
    (s.setCall j call').calls[j]? = some call' :=
  List.getElem?_set_self (List.getElem?_eq_some_iff.mp hj).1

theorem setCall_setCall (s : Site) (j : Nat) (call call' : Call) :
    (s.setCall j call).setCall j call' = s.setCall j call' := by
  rw [Site.setCall, Site.setCall, List.set_set]
  rfl

/-- A copy reads what is there, and finds the end. -/
theorem can_copy {Q : Site → Prop} (hlive : s.panicked = false) {call : Call}
    (hj : s.calls[j]? = some call) {stream : Stream} {file pos : Nat}
    (hpc : call.pc = .copying stream file pos)
    (h : ∀ reply, logSystem.Can Q (s.setCall j { call with
      pc := afterCopy stream
      reply })) : logSystem.Can Q s := by
  -- at the end of the file
  have hend : ∀ {s : Site} {call : Call}, s.panicked = false → s.calls[j]? = some call →
      ∀ pos, call.pc = .copying stream file pos → (s.file file).length ≤ pos →
      logSystem.Can Q (s.setCall j { call with pc := afterCopy stream }) → logSystem.Can Q s := by
    intro s call hlive hj pos hpc hlength h
    refine Can.advance (n := 1) hlive hj ?_ h
    rw [Site.callStep, hpc]
    have hnil : ((s.file file).drop pos).take 1 = [] := by
      rw [List.drop_eq_nil_of_le hlength, List.take_nil]
    simp only [hnil, if_true, Nat.one_ne_zero, if_false]
  by_cases hlength : (s.file file).length ≤ pos
  · exact hend hlive hj pos hpc hlength (h call.reply)
  · have hlt := Nat.lt_of_not_le hlength
    have htake : ((s.file file).drop pos).take ((s.file file).length - pos) =
        (s.file file).drop pos := List.take_of_length_le (List.length_drop ▸ Nat.le_refl _)
    have hne : (s.file file).drop pos ≠ [] := by
      rw [ne_eq, List.drop_eq_nil_iff]
      exact hlength
    -- one read that gets everything
    have hread : logSystem.Can Q (s.setCall j { call with
        pc := .copying stream file (pos + ((s.file file).drop pos).length)
        reply := call.reply ++ (s.file file).drop pos }) := by
      refine hend hlive (setCall_get hj) _ rfl ?_ ?_
      · show (s.file file).length ≤ pos + ((s.file file).drop pos).length
        rw [List.length_drop]
        omega
      · rw [setCall_setCall]
        exact h _
    refine Can.advance (n := (s.file file).length - pos) hlive hj ?_ hread
    rw [Site.callStep, hpc]
    simp only [htake, if_neg hne, if_neg (Nat.sub_ne_zero_of_lt hlt)]

/-- A request whose files have their names opens and copies one. -/
theorem can_open {Q : Site → Prop} (hlive : s.panicked = false) {call : Call}
    (hj : s.calls[j]? = some call) {c : Container} (hc : s.heap[call.container]? = some c)
    {stream : Stream} (hpc : call.pc = .opening stream)
    (hopen : s.openLog c stream = some (c.log stream))
    (h : ∀ reply, logSystem.Can Q (s.setCall j { call with
      pc := afterCopy stream
      reply })) : logSystem.Can Q s := by
  have hopened : logSystem.Can Q (s.setCall j { call with
      pc := .copying stream (c.log stream) 0 }) := by
    refine can_copy hlive (setCall_get hj) rfl fun reply => ?_
    rw [setCall_setCall]
    exact h reply
  refine Can.advance (n := 1) hlive hj ?_ hopened
  rw [Site.callStep, hpc]
  simp only [hc, Option.map_some, hopen]

/-- A request whose container has its directory can return. -/
theorem Serves.can_return {s₀ : Site} {c : Container} {es : List Op} (h : Serves s₀ j k c es s)
    (hlive : s.panicked = false) : logSystem.Can (Returned j) s := by
  obtain ⟨call, hj, hk, -⟩ := h.call
  have hc : s.heap[call.container]? = some c := hk ▸ h.heap
  have hopen := h.inv.openLog_of_dir h.dir
  have hdone : ∀ reply, logSystem.Can (Returned j) (s.setCall j { call with
      pc := .returned
      reply }) := fun reply => .now ⟨_, setCall_get hj, rfl⟩
  have hstderr : ∀ reply, logSystem.Can (Returned j) (s.setCall j { call with
      pc := .opening .stderr
      reply }) := by
    intro reply
    refine can_open hlive (setCall_get hj) hc rfl (hopen .stderr) fun reply' => ?_
    rw [setCall_setCall]
    exact hdone reply'
  cases hpc : call.pc with
  | opening stream =>
    cases stream with
    | stdout => exact can_open hlive hj hc hpc (hopen .stdout) hstderr
    | stderr => exact can_open hlive hj hc hpc (hopen .stderr) hdone
  | copying stream file pos =>
    cases stream with
    | stdout => exact can_copy hlive hj hpc hstderr
    | stderr => exact can_copy hlive hj hpc hdone
  | returned => exact .now ⟨call, hj, hpc⟩

/-! ## The end of the daemon -/

/-- A request opens a log of a container whose directory is gone. -/
def Opens (s : Site) (e : Op) : Prop :=
  ∃ j n call stream c, e = .advance j n ∧ s.calls[j]? = some call ∧ call.pc = .opening stream ∧
    s.heap[call.container]? = some c ∧ ∀ d ∈ s.dirs, d.id ≠ c.id

/-- The one step that ends the daemon. -/
theorem panics_iff (hlive : s.panicked = false) {e : Op} (hstep : s.step e = some s') :
    s'.panicked = true ↔ Opens s e := by
  unfold Site.step at hstep
  split at hstep
  · cases hstep
  -- all other steps leave the daemon alive
  have hother (hsame : s'.panicked = s.panicked) (hne : ∀ j n, e ≠ .advance j n) :
      s'.panicked = true ↔ Opens s e := by
    rw [hsame, hlive]
    refine iff_of_false Bool.false_ne_true ?_
    rintro ⟨j, n, -, -, -, rfl, -⟩
    exact hne j n rfl
  cases e with
  | create id =>
    simp only [Site.liveStep, Site.create] at hstep
    split at hstep
    · cases hstep
    split at hstep
    · cases hstep
    cases hstep
    exact hother rfl fun _ _ he => Op.noConfusion he
  | destroy id =>
    obtain ⟨k, -, rfl⟩ := Option.map_eq_some_iff.mp hstep
    exact hother rfl fun _ _ he => Op.noConfusion he
  | removeAll i id =>
    obtain ⟨element, -, rfl⟩ := removeAll_cases hstep
    exact hother rfl fun _ _ he => Op.noConfusion he
  | remove i =>
    obtain ⟨id, element, -, rfl⟩ := remove_cases hstep
    exact hother rfl fun _ _ he => Op.noConfusion he
  | restart =>
    cases hstep
    exact hother hlive.symm fun _ _ he => Op.noConfusion he
  | write k stream data =>
    obtain ⟨c, -, rfl⟩ := Option.map_eq_some_iff.mp hstep
    exact hother rfl fun _ _ he => Op.noConfusion he
  | logs args =>
    obtain ⟨name, -, hget⟩ := Option.bind_eq_some_iff.mp hstep
    obtain ⟨k, -, rfl⟩ := Option.map_eq_some_iff.mp hget
    exact hother rfl fun _ _ he => Op.noConfusion he
  | advance j n =>
    obtain ⟨call, hcall, hadvance⟩ := Option.bind_eq_some_iff.mp hstep
    have hkeeps {pc : CallPc} (hpc : call.pc = pc) (hsame : s'.panicked = s.panicked)
        (hthere : ∀ stream c, pc = .opening stream → s.heap[call.container]? = some c →
          ¬∀ d ∈ s.dirs, d.id ≠ c.id) :
        s'.panicked = true ↔ Opens s (.advance j n) := by
      rw [hsame, hlive]
      refine iff_of_false Bool.false_ne_true ?_
      rintro ⟨j', n', call', stream, c, heq, hcall', hopening, hc, hgone⟩
      cases heq
      cases hcall.symm.trans hcall'
      exact hthere stream c (hpc.symm.trans hopening) hc hgone
    cases callStep_advances hadvance with
    | @opens stream c file hpc hc hopen =>
      refine hkeeps hpc rfl fun stream' c' heq hc' hgone => ?_
      cases heq
      cases hc.symm.trans hc'
      rw [(openLog_none_iff c stream).mpr hgone] at hopen
      cases hopen
    | @panics stream c hpc hc hopen =>
      exact iff_of_true rfl
        ⟨j, n, call, stream, c, rfl, hcall, hpc, hc, (openLog_none_iff c stream).mp hopen⟩
    | reads hpc => exact hkeeps hpc rfl fun _ _ heq => CallPc.noConfusion heq
    | ends hpc => exact hkeeps hpc rfl fun _ _ heq => CallPc.noConfusion heq

theorem logsArg_terminated (name : GoString) : logsArg [str "--", name] = some name := rfl

theorem can_panic_opening (hlive : s.panicked = false) {call : Call}
    (hj : s.calls[j]? = some call) {stream : Stream} (hpc : call.pc = .opening stream)
    {c : Container} (hc : s.heap[call.container]? = some c) (hgone : ∀ d ∈ s.dirs, d.id ≠ c.id) :
    logSystem.Can (fun s => s.panicked = true) s := by
  have hstep : s.callStep j 1 call = some { s with panicked := true } := by
    rw [Site.callStep, hpc]
    simp only [hc, Option.map_some, (openLog_none_iff c stream).mpr hgone]
  exact Can.advance hlive hj hstep (.now rfl)

/-- `logs` and `rm` of a container, served at the same time, can end the daemon. -/
theorem can_panic (h : s.Inv) (hlive : s.panicked = false) (hk : k ∈ s.containers) :
    logSystem.Can (fun s => s.panicked = true) s := by
  have hheap := List.getElem?_eq_getElem (h.inHeap k hk)
  obtain ⟨c₀, hc₀⟩ : ∃ c, s.heap[k]? = some c := ⟨_, hheap⟩
  obtain ⟨k', hget⟩ : ∃ k', s.getContainer c₀.id = some k' := by
    cases hget : s.getContainer c₀.id with
    | some k' => exact ⟨k', rfl⟩
    | none => exact absurd rfl (getContainer_none hget hk hc₀)
  obtain ⟨-, c, hc, hid⟩ := getContainer_some hget
  -- the request and the removal look it up
  obtain ⟨s₁, hlogs, hs₁⟩ : ∃ s₁, logSystem.step s (.logs [str "--", c₀.id]) = some s₁ ∧
      s₁ = { s with calls := s.calls ++ [⟨k', .opening .stdout, []⟩] } := by
    refine ⟨_, (step_live hlive _).trans ?_, rfl⟩
    simp only [Site.liveStep, logsArg_terminated, Option.bind_some, hget, Option.map_some]
  have hlive₁ : s₁.panicked = false := by rw [hs₁, hlive]
  obtain ⟨s₂, hdestroy, hs₂⟩ : ∃ s₂, logSystem.step s₁ (.destroy c₀.id) = some s₂ ∧
      s₂ = { s₁ with removals := s.removals ++ [⟨c₀.id, k', .stopping⟩] } := by
    refine ⟨_, (step_live hlive₁ _).trans ?_, rfl⟩
    have hget₁ : s₁.getContainer c₀.id = some k' := by
      rw [hs₁]
      exact hget
    rw [Site.liveStep, Site.destroy, hget₁, Option.map_some, hs₁]
  have hlive₂ : s₂.panicked = false := by rw [hs₂, hlive₁]
  -- then the directory goes, and the request comes to open a file in it
  obtain ⟨s₃, hremove, hs₃⟩ :
      ∃ s₃, logSystem.step s₂ (.removeAll s.removals.length c₀.id) = some s₃ ∧
        s₃ = { s₂ with
          dirs := s₂.dirs.filter fun d => d.id ≠ c₀.id
          removals := s₂.removals.set s.removals.length ⟨c₀.id, k', .removed⟩ } := by
    refine ⟨_, (step_live hlive₂ _).trans ?_, rfl⟩
    have hi : s₂.removals[s.removals.length]? = some ⟨c₀.id, k', .stopping⟩ := by
      rw [hs₂]
      exact List.getElem?_concat_length
    simp only [Site.liveStep, Site.removeAll, hi, if_true]
  have hcall : s₃.calls[s.calls.length]? = some ⟨k', .opening .stdout, []⟩ := by
    rw [hs₃, hs₂, hs₁]
    exact List.getElem?_concat_length
  have hc₃ : s₃.heap[k']? = some c := by
    rw [hs₃, hs₂, hs₁]
    exact hc
  have hlive₃ : s₃.panicked = false := by rw [hs₃, hlive₂]
  have hgone : ∀ d ∈ s₃.dirs, d.id ≠ c.id := by
    rw [hs₃, hid]
    exact fun d hd => of_decide_eq_true (List.mem_filter.mp hd).2
  exact .step _ hlogs (.step _ hdestroy (.step _ hremove
    (can_panic_opening hlive₃ hcall rfl hc₃ hgone)))

/-! ## All runs -/

/-- A container that has written a line. -/
def oneLine : Site where
  files := [str "one", []]
  dirs := [⟨str "a", 0, 1⟩]
  heap := [⟨str "a", 0, 1⟩]
  containers := [0]
  calls := []
  removals := []
  panicked := false

theorem oneLine_reachable : logSystem.Reachable oneLine :=
  System.Reachable.run (.init rfl) [.create (str "a"), .write 0 .stdout (str "one")] rfl

/-- The container writes while its logs are copied, and once more when the first copy is over. A
    removal looks it up. -/
def writesMeanwhile : List Op := [
  .advance 0 8, .advance 0 2, .write 0 .stdout (str "two"), .advance 0 8, .advance 0 8,
  .write 0 .stdout (str "three"), .write 0 .stderr (str "err"), .destroy (str "a"),
  .advance 0 8, .advance 0 8, .advance 0 8]

end Docker.Logs
