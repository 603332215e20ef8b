import DockerEngine.Native.Crash
import DockerEngine.Go.Sort
import DockerEngine.Spec.Restore

/-!
# What a crash leaves

Without the directories that have no readable file, the files still say what the daemon knows, in
all runs with crashes: all that the others do is the same with and without these directories.
A container whose file is lost is not loaded any more, and its directory stands in the way of any
other one with its id.

- `Lossy`: what holds of the files in all runs with crashes
- `restore_whole`: the directories without a file make no difference for what is loaded
- `crash_loses`: what is lost in a crash, and for how long
-/

namespace Docker.Restore

open Go

variable {α : Type} {s s' : Site α} {k : Nat}

/-- The id of a creation that had made its directory. -/
def madeDir : Option (GoString × Image × Bool) → Option GoString
  | some (id, _, true) => some id
  | _ => none

namespace Site

/-- The site without the directories of which the file is lost. -/
def whole (s : Site α) : Site α := { s with dirs := s.dirs.filter fun d => d.2.isSome }

@[simp] theorem whole_store (s : Site α) : s.whole.store = s.store := rfl

@[simp] theorem whole_mounted (s : Site α) : s.whole.mounted = s.mounted := rfl

@[simp] theorem whole_heap (s : Site α) : s.whole.heap = s.heap := rfl

/-- There is a directory with this name, and its file is lost. -/
def Lost (s : Site α) (name : GoString) : Prop := (name, none) ∈ s.dirs

/-- The files that are not lost say what the daemon knows, and nobody has got hold of a container
    with the name of a lost one. -/
structure Lossy (s : Site α) : Prop where
  whole : s.whole.Inv
  names : (s.dirs.map Prod.fst).Nodup
  lost : ∀ name, s.Lost name → PlainName name ∧ ∀ o ∈ s.heap, o.container.id ≠ name

theorem dir_cases {d : GoString × Option Container} (hd : d ∈ s.dirs) :
    d ∈ s.whole.dirs ∨ s.Lost d.1 := by
  obtain ⟨name, data⟩ := d
  cases data with
  | none => exact .inr hd
  | some c => exact .inl (List.mem_filter.mpr ⟨hd, rfl⟩)

namespace Lossy

theorem fresh (hs : s.Fresh) : s.Lossy := by
  obtain ⟨hdirs, hheap, hcontainers⟩ := hs
  refine ⟨.fresh ⟨?_, hheap, hcontainers⟩, ?_, fun name hlost => ?_⟩
  · rw [Site.whole, hdirs, List.filter_nil]
  · rw [hdirs]
    exact List.nodup_nil
  · rw [Lost, hdirs] at hlost
    exact absurd hlost List.not_mem_nil

/-- The paths of a container that somebody has got hold of. -/
theorem named (h : s.Lossy) {o : Object} (ho : s.heap[k]? = some o) :
    Named s.repository o.container := by
  have hstopped := h.whole.named k _ (keptAt_of_some ho)
  exact ⟨hstopped.plain, hstopped.root, hstopped.mount, hstopped.rw⟩

/-- A lost directory is not that of a container that somebody has got hold of. -/
theorem lost_ne_root (h : s.Lossy) {o : Object} (ho : s.heap[k]? = some o) {name : GoString}
    (hlost : s.Lost name) : s.dirPath name ≠ o.container.root := by
  obtain ⟨hplain, hids⟩ := h.lost name hlost
  have hnamed := h.named ho
  rw [hnamed.root]
  intro heq
  exact hids o (List.mem_of_getElem? ho) (pathJoin_injective _ hplain hnamed.plain heq).symm

theorem lost_ne_mount (h : s.Lossy) {o : Object} (ho : s.heap[k]? = some o) {name : GoString}
    (hlost : s.Lost name) :
    pathJoin [s.dirPath name, str "rootfs"] ≠ o.container.mountpoint.root := by
  obtain ⟨hplain, hids⟩ := h.lost name hlost
  have hnamed := h.named ho
  rw [hnamed.mount, hnamed.root]
  intro heq
  have hid := pathJoin_grandchild_injective s.repository hplain hnamed.plain (by decide) heq
  exact hids o (List.mem_of_getElem? ho) hid.symm

/-- What is asked about the directories of such a container has the same answer without the lost
    ones. -/
theorem any_whole {p : GoString × Option Container → Bool}
    (hp : ∀ name, s.Lost name → p (name, none) = false) : s.whole.dirs.any p = s.dirs.any p := by
  rw [Bool.eq_iff_iff, List.any_eq_true, List.any_eq_true]
  constructor
  · rintro ⟨d, hd, hpd⟩
    exact ⟨d, (List.mem_filter.mp hd).1, hpd⟩
  · rintro ⟨d, hd, hpd⟩
    refine ⟨d, List.mem_filter.mpr ⟨hd, ?_⟩, hpd⟩
    obtain ⟨name, data⟩ := d
    cases data with
    | some c => rfl
    | none =>
      rw [hp name hd] at hpd
      cases hpd

theorem hasDir_whole (h : s.Lossy) {o : Object} (ho : s.heap[k]? = some o) :
    s.whole.hasDir o.container.root = s.hasDir o.container.root :=
  any_whole fun _ hlost => decide_eq_false (h.lost_ne_root ho hlost)

theorem hasParent_whole (h : s.Lossy) {o : Object} (ho : s.heap[k]? = some o) :
    s.whole.hasParent o.container.mountpoint = s.hasParent o.container.mountpoint :=
  any_whole fun _ hlost => decide_eq_false (h.lost_ne_mount ho hlost)

/-! ## Steps -/

theorem save_whole (h : s.Lossy) {o : Object} (ho : s.heap[k]? = some o) :
    (s.save o.container).whole = s.whole.save o.container := by
  have hdirs : (s.save o.container).dirs.filter (fun d => d.2.isSome) =
      (s.whole.save o.container).dirs := by
    rw [Site.save, List.filter_map]
    refine congrArg (List.map _) (List.filter_congr fun d hd => ?_)
    rw [Function.comp_apply]
    split
    · next hroot =>
      obtain hwhole | hlost := dir_cases hd
      · exact (List.mem_filter.mp hwhole).2.symm
      · exact absurd hroot (h.lost_ne_root ho hlost)
    · rfl
  rw [Site.whole, hdirs]
  rfl

theorem removeAll_whole (s : Site α) (path : GoString) :
    (s.removeAll path).whole = s.whole.removeAll path := by
  have hdirs : (s.removeAll path).dirs.filter (fun d => d.2.isSome) =
      (s.whole.removeAll path).dirs := by
    rw [removeAll, List.filter_filter, removeAll, Site.whole, List.filter_filter]
    exact List.filter_congr fun d _ => Bool.and_comm _ _
  rw [Site.whole, hdirs]
  rfl

/-- The row that a mount finds or makes has the root that was asked for. -/
theorem mountRow_root (h : s.Lossy) {o : Object} (ho : s.heap[k]? = some o) {img : Image}
    {mp : Mountpoint} {store : Store α}
    (hrow : s.store.mountRow img o.container.mountpoint.root o.container.mountpoint.rw =
      (.ok mp, store)) : mp.root = o.container.mountpoint.root := by
  have hclean : clean o.container.mountpoint.root = o.container.mountpoint.root := by
    rw [(h.named ho).mount]
    exact clean_pathJoin (str "rootfs") (by simp) (by decide)
  unfold Store.mountRow at hrow
  split at hrow
  · next row hfetch =>
    cases hrow
    have hfound := List.find?_some hfetch
    rw [decide_eq_true_eq] at hfound
    exact hfound.1
  · split at hrow
    · cases hrow
    · next hmp =>
      cases hrow
      rw [(Daemon.mountpoint_ok hmp).1]
      exact hclean

/-- A mount finds the same with and without the lost directories. -/
theorem ensureMounted_whole (h : s.Lossy) {o : Object} (ho : s.heap[k]? = some o) {ok : Bool}
    (hret : s.ensureMounted o.container.mountpoint = .ret (ok, s')) :
    s.whole.ensureMounted o.container.mountpoint = .ret (ok, s'.whole) ∧ s'.dirs = s.dirs ∧
      s'.heap = s.heap := by
  have hparent := h.hasParent_whole ho
  unfold Site.ensureMounted at hret ⊢
  rw [whole_mounted, whole_store]
  split at hret
  · next hmounted =>
    cases hret
    exact ⟨if_pos hmounted, rfl, rfl⟩
  · next hmounted =>
    rw [if_neg hmounted]
    cases hget : s.store.get o.container.mountpoint.image with
    | none =>
      rw [hget] at hret
      cases hret
    | some img =>
      simp only [hget] at hret ⊢
      split at hret
      · next store hrow =>
        cases hret
        exact ⟨rfl, rfl, rfl⟩
      · next mp store hrow =>
        have hsame : s.whole.hasParent mp = s.hasParent mp := by
          have hroot := h.mountRow_root ho hrow
          rw [hasParent, hasParent, hroot]
          exact hparent
        rw [hsame]
        split at hret
        · next hp =>
          cases hret
          exact ⟨if_pos hp, rfl, rfl⟩
        · next hp =>
          cases hret
          exact ⟨if_neg hp, rfl, rfl⟩

/-- What a step leaves of a site: the names of directories that were there, the lost ones among
    them, and the containers that somebody had got hold of. -/
structure Within (s s' : Site α) : Prop where
  names : (s'.dirs.map Prod.fst).Sublist (s.dirs.map Prod.fst)
  lost : ∀ name, s'.Lost name ↔ s.Lost name
  heap : ∀ o' ∈ s'.heap, ∃ o ∈ s.heap, o'.container.id = o.container.id

theorem Within.of_dirs (hdirs : s'.dirs = s.dirs) (hheap : s'.heap = s.heap) : Within s s' where
  names := by rw [hdirs]
  lost name := by rw [Lost, Lost, hdirs]
  heap o ho := ⟨o, hheap ▸ ho, rfl⟩

/-- A container is replaced, with the same id. -/
theorem Within.setObj (h : Within s s') {o o' : Object} (ho : s'.heap[k]? = some o)
    (hid : o'.container.id = o.container.id) : Within s (s'.setObj k o') where
  names := h.names
  lost := h.lost
  heap q hq := by
    rcases List.mem_or_eq_of_mem_set hq with hq | rfl
    · exact h.heap q hq
    · obtain ⟨o₀, ho₀, hid₀⟩ := h.heap o (List.mem_of_getElem? ho)
      exact ⟨o₀, ho₀, hid.trans hid₀⟩

theorem Within.save (h : s.Lossy) {o : Object} (ho : s.heap[k]? = some o) :
    Within s (s.save o.container) where
  names := by
    have hsame : (s.save o.container).dirs.map Prod.fst = s.dirs.map Prod.fst := by
      rw [Site.save, List.map_map]
      refine List.map_congr_left fun d _ => ?_
      rw [Function.comp_apply]
      split <;> rfl
    rw [hsame]
  lost name := by
    constructor
    · intro hlost
      obtain ⟨d, hd, heq⟩ := List.mem_map.mp hlost
      split at heq
      · cases heq
      · rw [heq] at hd
        exact hd
    · intro hlost
      exact List.mem_map.mpr ⟨(name, none), hlost, if_neg (h.lost_ne_root ho hlost)⟩
  heap q hq := ⟨q, hq, rfl⟩

theorem Within.removeAll (h : s.Lossy) {o : Object} (ho : s.heap[k]? = some o) :
    Within s (s.removeAll o.container.root) where
  names := List.filter_sublist.map _
  lost name := by
    constructor
    · exact fun hlost => (List.mem_filter.mp hlost).1
    · exact fun hlost =>
        List.mem_filter.mpr ⟨hlost, decide_eq_true (h.lost_ne_root ho hlost)⟩
  heap q hq := ⟨q, hq, rfl⟩

/-- A step of a `Destroy` is the same, if nothing is mounted in what it removes. -/
theorem destroyStep_whole (h : s.Lossy) {o : Object} (ho : s.heap[k]? = some o)
    {call : DestroyCall} (hown : s.RemovesOwn o call) {ok : Bool} {next : Option DestroyPc}
    (hstep : s.destroyStep o.container call ok = some (s', next)) :
    s.whole.destroyStep o.container call ok = some (s'.whole, next) ∧ Within s s' ∧
      s'.heap = s.heap := by
  obtain ⟨element, pc⟩ := call
  cases pc with
  | stop =>
    simp only [Site.destroyStep] at hstep ⊢
    split at hstep
    · next hok =>
      split at hstep
      · cases hstep
      · next hstopped =>
        cases hstep
        rw [if_pos hok, if_neg hstopped]
        exact ⟨rfl, .of_dirs rfl rfl, rfl⟩
    · next hok =>
      cases hstep
      exact ⟨if_neg hok, .of_dirs rfl rfl, rfl⟩
  | umount =>
    simp only [Site.destroyStep] at hstep ⊢
    split at hstep
    · next hmounted =>
      cases hstep
      exact ⟨if_pos hmounted, .of_dirs rfl rfl, rfl⟩
    · next hmounted =>
      cases hstep
      exact ⟨if_neg hmounted, .of_dirs rfl rfl, rfl⟩
  | deregister =>
    simp only [Site.destroyStep] at hstep ⊢
    split at hstep
    · next hmounted =>
      cases hstep
      exact ⟨if_pos hmounted, .of_dirs rfl rfl, rfl⟩
    · next hmounted =>
      cases hstep
      exact ⟨if_neg hmounted, .of_dirs rfl rfl, rfl⟩
  | delete =>
    cases hstep
    exact ⟨rfl, .of_dirs rfl rfl, rfl⟩
  | removeAll =>
    simp only [Site.destroyStep, if_neg hown.2] at hstep
    cases hstep
    refine ⟨?_, .removeAll h ho, rfl⟩
    rw [removeAll_whole]
    exact if_neg hown.2
  | remove =>
    cases hstep
    exact ⟨rfl, .of_dirs rfl rfl, rfl⟩

/-- A step on a container is the same with and without the lost directories. -/
theorem act_whole (h : s.Lossy) {o : Object} (ho : s.heap[k]? = some o) {a : Act}
    (hown : SavesOwn s (.act k a)) (hact : s.act k o a = some s') :
    s.whole.act k o a = some s'.whole ∧ Within s s' := by
  have hself : Within s s := .of_dirs rfl rfl
  cases a with
  | ensureMounted =>
    simp only [Site.act] at hact ⊢
    split at hact
    · next s₁ hret =>
      cases hact
      obtain ⟨hwhole, hdirs, hheap⟩ := h.ensureMounted_whole ho hret
      have ho' : s₁.heap[k]? = some o := by rw [hheap, ho]
      rw [hwhole]
      exact ⟨rfl, (Within.of_dirs hdirs hheap).setObj ho' rfl⟩
    · next hret =>
      cases hact
      obtain ⟨hwhole, hdirs, hheap⟩ := h.ensureMounted_whole ho hret
      rw [hwhole]
      exact ⟨rfl, .of_dirs hdirs hheap⟩
    · cases hact
    · cases hact
  | launch pid =>
    simp only [Site.act] at hact ⊢
    split at hact
    · cases hact
    · next hstarting =>
      rw [if_neg hstarting]
      cases pid with
      | none =>
        cases hact
        exact ⟨rfl, hself.setObj ho rfl⟩
      | some pid =>
        simp only at hact ⊢
        rw [h.hasDir_whole ho]
        split at hact
        · next hdir =>
          cases hact
          exact ⟨if_pos hdir, hself.setObj ho rfl⟩
        · next hdir =>
          cases hact
          exact ⟨if_neg hdir, hself.setObj ho rfl⟩
  | saveStarted =>
    simp only [Site.act] at hact ⊢
    split at hact
    · cases hact
    · next hlaunched =>
      cases hact
      rw [if_neg hlaunched, ← h.save_whole ho]
      exact ⟨rfl, (Within.save h ho).setObj ho rfl⟩
  | exit =>
    simp only [Site.act] at hact ⊢
    split at hact
    · cases hact
    · next hprocesses =>
      cases hact
      rw [if_neg hprocesses]
      have hunmounted : Within s (s.unmount o.container.mountpoint.root) := .of_dirs rfl rfl
      exact ⟨rfl, hunmounted.setObj ho rfl⟩
  | report exitCode =>
    simp only [Site.act] at hact ⊢
    split at hact
    · cases hact
    · next hreporting =>
      cases hact
      exact ⟨if_neg hreporting, hself.setObj ho rfl⟩
  | saveStopped =>
    simp only [Site.act] at hact ⊢
    split at hact
    · cases hact
    · next hreported =>
      cases hact
      rw [if_neg hreported, ← h.save_whole ho]
      exact ⟨rfl, (Within.save h ho).setObj ho rfl⟩
  | lookup =>
    simp only [Site.act] at hact ⊢
    have hsame : s.whole.getContainerElement o.container.id =
        s.getContainerElement o.container.id := rfl
    rw [hsame]
    split at hact
    · cases hact
      exact ⟨rfl, hself⟩
    · cases hact
      exact ⟨rfl, hself.setObj ho rfl⟩
  | destroy i ok =>
    obtain ⟨call, hi, hact⟩ := Option.bind_eq_some_iff.mp hact
    obtain ⟨⟨s₁, next⟩, hstep, rfl⟩ := Option.map_eq_some_iff.mp hact
    obtain ⟨hwhole, hwithin, hheap⟩ := h.destroyStep_whole ho (hown o ho call hi) hstep
    have ho' : s₁.heap[k]? = some o := by rw [hheap, ho]
    simp only [Site.act, hi, Option.bind_some, hwhole, Option.map_some]
    exact ⟨rfl, hwithin.setObj ho' rfl⟩

theorem of_within (h : s.Lossy) (hwhole : s'.whole.Inv) (hw : Within s s') : s'.Lossy where
  whole := hwhole
  names := h.names.sublist hw.names
  lost name hlost := by
    obtain ⟨hplain, hids⟩ := h.lost name ((hw.lost name).mp hlost)
    refine ⟨hplain, fun o' ho' => ?_⟩
    obtain ⟨o, ho, hid⟩ := hw.heap o' ho'
    rw [hid]
    exact hids o ho

theorem lost_append_some {id name : GoString} {c : Container} :
    (name, none) ∈ s.dirs ++ [(id, some c)] ↔ s.Lost name := by
  rw [List.mem_append, List.mem_singleton, Lost]
  refine or_iff_left fun heq => ?_
  cases heq

/-- A container is created, and not with the name of a lost directory. -/
theorem create (h : s.Lossy) {id : GoString} (hid : PlainName id) (created : Int)
    (command : GoString) (args : List GoString) (image : Image) (config : Config) :
    (s.create id created command args image config).2.Lossy ∧
      ∀ name, (s.create id created command args image config).2.Lost name ↔ s.Lost name := by
  unfold Site.create
  split
  · exact ⟨h, fun _ => .rfl⟩
  next hnone =>
  have hnone : s.getContainerElement id = none := by simpa using hnone
  split
  · next hcreate =>
    obtain ⟨store, hrows, rfl⟩ := Inv.createContainer_error hcreate
    exact ⟨⟨h.whole.withRows hrows, h.names, h.lost⟩, fun _ => .rfl⟩
  · next c s' hcreate =>
    obtain ⟨store, hrows, hrow, hdir, rfl, hroot, hmp, hrw, rfl⟩ :=
      Inv.createContainer_ok hcreate
    have hnames : ∀ d ∈ s.dirs, d.1 ≠ c.id := by
      intro d hd heq
      have hfalse := List.any_eq_false.mp hdir d hd
      rw [heq, ← hroot] at hfalse
      exact hfalse (decide_eq_true rfl)
    have hdirs := Inv.save_new (s := { s with store }) hdir hroot
    have hlost : ∀ name, (name, none) ∈ (Site.save { s with
        store
        dirs := s.dirs ++ [(c.id, none)] } c).dirs ↔ s.Lost name := by
      intro name
      rw [hdirs]
      exact lost_append_some
    have hfree : s.whole.hasDir c.root = false :=
      List.any_eq_false.mpr fun d hd => List.any_eq_false.mp hdir d (List.mem_filter.mp hd).1
    have hnew := Inv.pushBack (h.whole.withRows hrows) ⟨hid, hroot, hmp, hrw⟩ hnone hfree hrow
    refine ⟨⟨?_, ?_, fun name hname => ?_⟩, hlost⟩
    · show Site.Inv { Site.pushBack { s with store } c with
        dirs := (Site.save { s with
          store
          dirs := s.dirs ++ [(c.id, none)] } c).dirs.filter fun d => d.2.isSome }
      rw [hdirs, List.filter_append]
      exact hnew
    · show ((Site.save _ c).dirs.map Prod.fst).Nodup
      rw [hdirs, List.map_append, List.nodup_append]
      refine ⟨h.names, List.nodup_singleton _, fun name hname other hother heq => ?_⟩
      obtain ⟨d, hd, rfl⟩ := List.mem_map.mp hname
      rw [List.map_singleton, List.mem_singleton] at hother
      exact hnames d hd (heq.trans hother)
    · have hname := (hlost name).mp hname
      obtain ⟨hplain, hids⟩ := h.lost name hname
      refine ⟨hplain, fun o ho => ?_⟩
      rcases List.mem_append.mp ho with ho | ho
      · exact hids o ho
      · rw [List.mem_singleton.mp ho]
        exact (hnames _ hname).symm

/-- No container can be created with the name of a lost directory. -/
theorem create_fails {name : GoString} (hlost : s.Lost name) (created : Int)
    (command : GoString) (args : List GoString) (image : Image) (config : Config) :
    ∃ err, (s.create name created command args image config).1 = .error err := by
  unfold Site.create
  split
  · exact ⟨_, rfl⟩
  · split
    · exact ⟨_, rfl⟩
    · next hcreate =>
      obtain ⟨store, -, -, hdir, -, hroot, -⟩ := Inv.createContainer_ok hcreate
      have hfalse := List.any_eq_false.mp hdir _ hlost
      rw [hroot] at hfalse
      exact absurd (decide_eq_true rfl) hfalse

end Lossy

/-! ## Loading -/

theorem readDir_sorted (s : Site α) : s.readDir.Pairwise (· ≤ ·) :=
  pairwise_le_mergeSort _

/-- What is in the file of a directory; `none` if there is no such directory. -/
def file (s : Site α) (name : GoString) : Option Container :=
  (lookupRow Prod.fst s.dirs name).bind Prod.snd

theorem file_of_mem (hnames : (s.dirs.map Prod.fst).Nodup) {d : GoString × Option Container}
    (hd : d ∈ s.dirs) : s.file d.1 = d.2 := by
  rw [file, lookupRow_of_mem hnames hd, Option.bind_some]

theorem file_whole (hnames : (s.dirs.map Prod.fst).Nodup) (name : GoString) :
    s.whole.file name = s.file name := by
  have hnames' : (s.whole.dirs.map Prod.fst).Nodup := hnames.sublist (List.filter_sublist.map _)
  cases h : s.whole.file name with
  | some c =>
    obtain ⟨d, hd, hc⟩ := Option.bind_eq_some_iff.mp h
    obtain ⟨hmem, rfl⟩ := lookupRow_eq_some hd
    rw [file_of_mem hnames (List.mem_filter.mp hmem).1, hc]
  | none =>
    cases h' : s.file name with
    | none => rfl
    | some c =>
      obtain ⟨d, hd, hc⟩ := Option.bind_eq_some_iff.mp h'
      obtain ⟨hmem, rfl⟩ := lookupRow_eq_some hd
      have hwhole : d ∈ s.whole.dirs := List.mem_filter.mpr ⟨hmem, by rw [hc]; rfl⟩
      rw [file_of_mem hnames' hwhole, hc] at h
      cases h

/-- The lost directories make no difference for what is loaded, and in what order. -/
theorem restore_whole (hnames : (s.dirs.map Prod.fst).Nodup) : s.whole.restore = s.restore := by
  have hload : s.whole.loadContainer = s.loadContainer := by
    funext name
    have hfile := file_whole hnames name
    unfold file at hfile
    unfold loadContainer
    rw [hfile]
    rfl
  -- the names of the whole directories, in the order of all names
  have hread : s.whole.readDir = s.readDir.filter fun name => (s.file name).isSome := by
    apply List.Perm.eq_of_pairwise _ (readDir_sorted _) ((readDir_sorted _).filter _)
    · rw [readDir, readDir]
      refine (List.mergeSort_perm _ _).trans ?_
      refine List.Perm.trans ?_ ((List.mergeSort_perm _ _).symm.filter _)
      rw [Site.whole, List.filter_map]
      refine .of_eq (congrArg _ (List.filter_congr fun d hd => ?_))
      rw [Function.comp_apply, file_of_mem hnames hd]
    · exact fun a b _ _ hab hba => List.le_antisymm hab hba
  rw [restore, restore, hload, hread, List.filterMap_filter]
  refine List.filterMap_congr fun name _ => ?_
  split
  · rfl
  · next hnone =>
    have hnone : s.file name = none := Option.not_isSome_iff_eq_none.mp hnone
    unfold file at hnone
    rw [loadContainer]
    simp only [hnone]

/-- A daemon begins with these directories, of which the whole ones hold what some site knew. -/
theorem load_lossy {t : Site α} (ht : t.Inv) (hs : t.Settled) (hdirs : t.dirs = s.whole.dirs)
    (hstore : t.store = s.store) (hrepository : t.repository = s.repository)
    (hnames : (s.dirs.map Prod.fst).Nodup) (hplain : ∀ name, s.Lost name → PlainName name) :
    s.newFromDirectory.Lossy ∧ s.newFromDirectory.known.Perm t.kept := by
  have hrestore : s.restore = t.restore := by
    rw [← restore_whole hnames]
    unfold restore readDir loadContainer dirPath
    rw [hdirs, hstore, hrepository]
    rfl
  have hknown : s.newFromDirectory.known.Perm t.kept := by
    rw [Inv.known_newFromDirectory, hrestore]
    exact ht.restore_perm hs
  refine ⟨⟨?_, hnames, fun name hlost => ⟨hplain name hlost, fun o ho heq => ?_⟩⟩, hknown⟩
  · have hheap : s.newFromDirectory.heap = t.newFromDirectory.heap :=
      congrArg (List.map Object.idle) hrestore
    apply (ht.newFromDirectory hs).frame
    · exact hrepository.symm
    · intro k
      rw [keptAt, keptAt, whole_heap, hheap]
    · rw [calls, calls, whole_heap, hheap]
    · exact congrArg (fun l : List Container => List.range l.length) hrestore
    · exact congrArg (List.map entry) hdirs.symm
    · intro row hrow
      show row ∈ s.store.mountpoints
      rw [← hstore]
      exact hrow
  · -- the container has been read from a file in a directory with that name
    obtain ⟨c, hc, rfl⟩ := List.mem_map.mp ho
    rw [hrestore] at hc
    have hkept := (ht.restore_perm hs).subset hc
    have hentry := (ht.saved_perm hs).symm.subset
      (List.mem_map_of_mem (f := fun c => (c.id, some c)) hkept)
    obtain ⟨d, hd, hfile⟩ := List.mem_map.mp hentry
    have hname : d.1 = name := (congrArg Prod.fst hfile).trans heq
    rw [hdirs] at hd
    obtain ⟨hd, hsome⟩ := List.mem_filter.mp hd
    have hfound := file_of_mem hnames hd
    rw [hname, file_of_mem hnames hlost] at hfound
    rw [← hfound] at hsome
    cases hsome

/-! ## Dying -/

/-- A site that was interrupted in a `Create`: it has another row at most, and maybe the new
    directory, without a file. -/
structure Interrupted (s s' : Site α) (made : Option GoString) : Prop where
  heap : s'.heap = s.heap
  containers : s'.containers = s.containers
  repository : s'.repository = s.repository
  rows : ∀ mp ∈ s.store.mountpoints, mp ∈ s'.store.mountpoints
  dirs : s'.dirs = s.dirs ++ made.toList.map fun id => (id, none)
  new : ∀ id ∈ made, PlainName id ∧ s.hasDir (s.dirPath id) = false

theorem interrupted_some {creating : Option (GoString × Image × Bool)}
    (hbegin : s.interrupted creating = some s') : Interrupted s s' (madeDir creating) := by
  have hsame : ∀ store : Store α, (∀ mp ∈ s.store.mountpoints, mp ∈ store.mountpoints) →
      Interrupted s { s with store } none := fun store hrows =>
    ⟨rfl, rfl, rfl, hrows, (List.append_nil _).symm, fun _ hid => by cases hid⟩
  cases creating with
  | none =>
    cases hbegin
    exact hsame s.store fun _ hmp => hmp
  | some creating =>
    obtain ⟨id, image, made⟩ := creating
    simp only [Site.interrupted] at hbegin
    split at hbegin
    · next hcreate =>
      simp only [beginCreate] at hbegin
      split at hbegin
      · cases hbegin
      · split at hbegin
        · cases hbegin
        · next hrow =>
          have hrows := Inv.mountpoint_rows hrow
          cases made with
          | false =>
            cases hbegin
            exact hsame _ hrows
          | true =>
            rw [if_pos rfl] at hbegin
            split at hbegin
            · cases hbegin
            · next hdir =>
              cases hbegin
              refine ⟨rfl, rfl, rfl, hrows, rfl, fun id' hid' => ?_⟩
              cases hid'
              exact ⟨hcreate.1, Bool.eq_false_iff.mpr hdir⟩
    · cases hbegin

namespace Interrupted

variable {made : Option GoString}

theorem names_nodup (hs : Interrupted s s' made) (hnames : (s.dirs.map Prod.fst).Nodup) :
    (s'.dirs.map Prod.fst).Nodup := by
  rw [hs.dirs]
  cases made with
  | none =>
    rw [Option.toList_none, List.map_nil, List.append_nil]
    exact hnames
  | some id =>
    rw [Option.toList_some, List.map_singleton, List.map_append, List.map_singleton,
      List.nodup_append]
    refine ⟨hnames, List.nodup_singleton _, fun name hname other hother heq => ?_⟩
    obtain ⟨d, hd, rfl⟩ := List.mem_map.mp hname
    rw [List.mem_singleton] at hother
    have hfree := List.any_eq_false.mp (hs.new id rfl).2 d hd
    rw [heq, hother] at hfree
    exact hfree (decide_eq_true rfl)

theorem whole_dirs (hs : Interrupted s s' made) : s'.whole.dirs = s.whole.dirs := by
  rw [Site.whole, hs.dirs, List.filter_append]
  cases made with
  | none => exact List.append_nil _
  | some id => exact List.append_nil _

theorem lost_iff (hs : Interrupted s s' made) (name : GoString) :
    s'.Lost name ↔ s.Lost name ∨ made = some name := by
  rw [Lost, hs.dirs, List.mem_append, Lost, List.mem_map]
  refine or_congr_right ?_
  constructor
  · rintro ⟨id, hid, heq⟩
    have hname : id = name := congrArg Prod.fst heq
    rw [← hname]
    exact Option.mem_toList.mp hid
  · intro hmade
    exact ⟨name, Option.mem_toList.mpr hmade, rfl⟩

end Interrupted

/-- The site as the next daemon finds it, if the old one knew only what can be loaded. -/
def survivors (s : Site α) (torn : List GoString) : Site α :=
  { s.whole with
    dirs := s.whole.dirs.filter fun d => d.1 ∉ torn
    containers := s.containers.filter fun k => (s.keptAt k).all fun c => c.id ∉ torn }

theorem kept_survivors (s : Site α) (torn : List GoString) :
    (s.survivors torn).kept = s.kept.filter fun c => c.id ∉ torn := by
  rw [kept, kept, survivors, List.filter_filterMap, List.filterMap_filter]
  refine List.filterMap_congr fun k _ => ?_
  show (if (s.keptAt k).all _ = true then s.keptAt k else none) = (s.keptAt k).filter _
  cases s.keptAt k with
  | none => rfl
  | some c => rfl

theorem whole_tear (s : Site α) (torn : List GoString) :
    (s.tear torn).whole.dirs = s.whole.dirs.filter fun d => d.1 ∉ torn := by
  show (s.dirs.map _).filter _ = (s.dirs.filter _).filter _
  induction s.dirs with
  | nil => rfl
  | cons d dirs ih =>
    obtain ⟨name, data⟩ := d
    by_cases hname : name ∈ torn
    · cases data <;> simp [hname, ih]
    · cases data <;> simp [hname, ih]

theorem Inv.survivors (h : s.whole.Inv) (torn : List GoString) : (s.survivors torn).Inv := by
  have hsub : (s.survivors torn).containers ⊆ s.containers := List.filter_subset_self _
  refine ⟨h.named, fun k hk => h.inHeap k (hsub hk), h.listed.filter _, ?_, h.found, ?_, ?_⟩
  · intro j hj k hk
    exact h.distinct j (hsub hj) k (hsub hk)
  · have hdirs : (s.survivors torn).dirs.map entry =
        (s.whole.dirs.map entry).filter fun e => decide (e.1 ∉ torn) := by
      rw [List.filter_map]
      rfl
    rw [hdirs]
    refine h.saved.filter (fun id => decide (id ∉ torn)) (fun k row hrow => ?_) fun k hk => ?_
    · obtain ⟨c, hc, rfl⟩ := Option.map_eq_some_iff.mp hrow
      replace hc : s.keptAt k = some c := hc
      show k ∈ s.containers.filter _ ∧ s.emptied k = false ↔ (k ∈ s.containers ∧ _) ∧ _
      rw [List.mem_filter, hc, and_right_comm]
      rfl
    · exact ⟨hsub hk.1, hk.2⟩
  · exact fun k hk => h.rows k (hsub hk)

theorem Settled.survivors (h : s.Settled) (torn : List GoString) : (s.survivors torn).Settled :=
  fun k hk => h k (List.mem_of_mem_filter hk)

theorem lost_tear {torn : List GoString} {name : GoString} :
    (s.tear torn).Lost name ↔ s.Lost name ∨ name ∈ torn ∧ ∃ c, (name, some c) ∈ s.dirs := by
  rw [Lost, tear, List.mem_map, Lost]
  constructor
  · rintro ⟨⟨dname, data⟩, hd, heq⟩
    split at heq
    · next htorn =>
      cases heq
      cases data with
      | none => exact .inl hd
      | some c => exact .inr ⟨htorn, c, hd⟩
    · cases heq
      exact .inl hd
  · rintro (hlost | ⟨htorn, c, hd⟩)
    · exact ⟨_, hlost, by split <;> rfl⟩
    · exact ⟨_, hd, if_pos htorn⟩

theorem names_tear (s : Site α) (torn : List GoString) :
    (s.tear torn).dirs.map Prod.fst = s.dirs.map Prod.fst := by
  rw [tear, List.map_map]
  refine List.map_congr_left fun d _ => ?_
  rw [Function.comp_apply]
  split <;> rfl

/-- The daemon dies, and the next one begins. -/
theorem Lossy.crash (h : s.Lossy) (hsettled : s.Settled) {torn : List GoString}
    {creating : Option (GoString × Image × Bool)}
    (hcrash : s.crashStep (.crash torn creating) = some s') :
    s'.Lossy ∧ s'.known.Perm ((s.known.filter fun c => c.id ∉ torn).map Container.stopped) ∧
      ∀ name, s'.Lost name ↔ s.Lost name ∨ (name ∈ torn ∧ ∃ c, (name, some c) ∈ s.dirs) ∨
        madeDir creating = some name := by
  simp only [crashStep] at hcrash
  split at hcrash
  · obtain ⟨s₀, hbegin, rfl⟩ := Option.map_eq_some_iff.mp hcrash
    have hs := interrupted_some hbegin
    have hlost : ∀ name, (s₀.tear torn).Lost name ↔
        s.Lost name ∨ (name ∈ torn ∧ ∃ c, (name, some c) ∈ s.dirs) ∨
          madeDir creating = some name := by
      intro name
      have hfile : (∃ c, (name, some c) ∈ s₀.dirs) ↔ ∃ c, (name, some c) ∈ s.dirs := by
        refine exists_congr fun c => ?_
        have hwhole := congrArg ((name, some c) ∈ ·) hs.whole_dirs
        simpa [Site.whole] using hwhole
      rw [lost_tear, hs.lost_iff, hfile, or_right_comm, or_assoc]
    -- the site that the old daemon would have left, had it known only what can be loaded
    have hinv : Site.Inv { s.survivors torn with store := s₀.store } :=
      (h.whole.survivors torn).withRows hs.rows
    have hdirs : (s.survivors torn).dirs = (s₀.tear torn).whole.dirs := by
      rw [whole_tear, hs.whole_dirs]
      rfl
    have hnames : ((s₀.tear torn).dirs.map Prod.fst).Nodup := by
      rw [names_tear]
      exact hs.names_nodup h.names
    have hplain : ∀ name, (s₀.tear torn).Lost name → PlainName name := by
      intro name hname
      obtain hname | ⟨-, c, hd⟩ | hmade := (hlost name).mp hname
      · exact (h.lost name hname).1
      · obtain ⟨k, c', -, hc', hid, -⟩ := h.whole.owner (List.mem_filter.mpr ⟨hd, rfl⟩)
        have hname : c'.id = name := hid
        exact hname ▸ (h.whole.named k c' hc').plain
      · exact (hs.new name hmade).1
    have hsettled' : Site.Settled { s.survivors torn with store := s₀.store } :=
      hsettled.survivors torn
    obtain ⟨hlossy, hperm⟩ :=
      load_lossy hinv hsettled' hdirs rfl hs.repository.symm hnames hplain
    refine ⟨hlossy, ?_, hlost⟩
    have hkept : (s.survivors torn).kept =
        (s.known.filter fun c => c.id ∉ torn).map Container.stopped := by
      rw [kept_survivors, kept_eq, List.filter_map]
      rfl
    rw [← hkept]
    exact hperm
  · cases hcrash

/-! ## Runs -/

theorem savesOwn_whole {op : SiteOp} (hown : SavesOwn s op) : SavesOwn s.whole op := by
  cases op with
  | act k a => cases a <;> exact hown
  | create id created command args image config => trivial
  | restart => exact hown

/-- The containers that the next daemon loads keep their directories, as does what is lost. -/
theorem Lossy.step (h : s.Lossy) {op : SiteOp} (hown : SavesOwn s op)
    (hstep : s.step op = some s') : s'.Lossy ∧ ∀ name, s'.Lost name ↔ s.Lost name := by
  cases op with
  | create id created command args image config =>
    simp only [Site.step] at hstep
    split at hstep
    · next hid =>
      cases hstep
      exact h.create hid.1 created command args image config
    · cases hstep
  | act k a =>
    obtain ⟨o, ho, hact⟩ := Option.bind_eq_some_iff.mp hstep
    obtain ⟨hwhole, hwithin⟩ := h.act_whole ho hown hact
    exact ⟨h.of_within (h.whole.act ho (savesOwn_whole hown) hwhole) hwithin, hwithin.lost⟩
  | restart =>
    cases hstep
    have hplain : ∀ name, s.Lost name → PlainName name := fun name hname => (h.lost name hname).1
    exact ⟨(load_lossy h.whole hown rfl rfl rfl h.names hplain).1, fun _ => .rfl⟩

end Site

/-- A container is saved or removed only while the daemon knows no other one with its id, and the
    daemon neither ends nor dies while a `Destroy` is half way. -/
def CrashOwn (s : Site α) : CrashOp → Prop
  | .op op => SavesOwn s op
  | .crash .. => s.Settled

instance (s : Site α) : (op : CrashOp) → Decidable (CrashOwn s op)
  | .op op => inferInstanceAs (Decidable (SavesOwn s op))
  | .crash .. => inferInstanceAs (Decidable s.Settled)

theorem lossy_step {op : CrashOp} (h : s.Lossy) (hown : CrashOwn s op)
    (hstep : (crashSystem α).step s op = some s') :
    s'.Lossy ∧ ∀ name, s.Lost name → s'.Lost name := by
  cases op with
  | op op =>
    obtain ⟨hlossy, hlost⟩ := h.step hown hstep
    exact ⟨hlossy, fun name => (hlost name).mpr⟩
  | crash torn creating =>
    obtain ⟨hlossy, -, hlost⟩ := h.crash hown hstep
    exact ⟨hlossy, fun name hname => (hlost name).mpr (.inl hname)⟩

theorem Site.mem_known {c : Container} (hc : c ∈ s.known) : ∃ o ∈ s.heap, o.container = c := by
  obtain ⟨k, -, hk⟩ := List.mem_filterMap.mp hc
  obtain ⟨o, ho, heq⟩ := Option.map_eq_some_iff.mp hk
  exact ⟨o, List.mem_of_getElem? ho, heq⟩

/-- The process of a container has been started, and the container has not been saved since. -/
def launchedA : Site Unit where
  repository := str "/c"
  store :=
    { Store.empty (str "/i") with
      images := [⟨str "base", [], [], 0⟩]
      mountpoints := [⟨str "base", str "/c/a/rootfs", str "/c/a/rw"⟩] }
  mounted := [str "/c/a/rootfs"]
  dirs := [(str "a", some (containerA 1 (str "x")))]
  heap :=
    [{ (Object.idle (containerA 1 (str "x"))).setState (newState.setRunning 7) with
      launched := 1 }]
  containers := [0]

theorem launchedA_reachable : (crashSystem Unit).ReachableVia CrashOwn launchedA := by
  have hinit : (crashSystem Unit).ReachableVia CrashOwn oneImageSite := .init ⟨rfl, rfl, rfl⟩
  exact hinit.runVia
    [.op (createA 1 (str "x")), .op (.act 0 .ensureMounted), .op (.act 0 (.launch (some 7)))] rfl

end Docker.Restore
