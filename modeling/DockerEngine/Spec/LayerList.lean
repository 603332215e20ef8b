import DockerEngine.Spec.AddLayer

/-!
# What `List` lists

`AddLayer` makes its temporary directories next to the layers, and `List` takes every directory
for a layer.

- `dirs_step`: each directory is a temporary one, or has the path of a layer that was asked for
- `list_layers`: `List` is right exactly when there is no temporary directory
- `list_temporary`: a call that is still unpacking
-/

namespace Docker.AddLayer

open Go

variable {γ ε : Type} {bsdtar : Bsdtar γ ε}

namespace Adding

variable {s s' : Adding γ ε} {i k : Nat} {call : AddCall ε}

/-- What `List` returns are the paths that `Get` returns for the ids that calls were given. -/
structure ListsLayers (s : Adding γ ε) : Prop where
  layers : ∀ path, path ∈ s.store.list ↔
    ∃ id archive, (id, archive) ∈ s.given ∧ s.store.get id = path ∧ path ≠ []
  no_tmp : ∀ path ∈ s.store.list, ¬ s.IsTmp path

/-- There is no temporary directory. -/
def NoTmp (s : Adding γ ε) : Prop := ∀ path, s.IsTmp path → s.store.stat path = none

/-! ## The directories of the store -/

/-- The path of a layer that a call was given. -/
def IsGiven (s : Adding γ ε) (path : GoString) : Prop :=
  ∃ id archive, (id, archive) ∈ s.given ∧ path = s.store.layerPath id

structure Dirs (s : Adding γ ε) : Prop where
  paths : ∀ e ∈ s.store.dirs, s.IsTmp e.1 ∨ s.IsGiven e.1
  given : ∀ g ∈ s.given, LayerId g.1
  calls : ∀ call ∈ s.calls, (call.id, call.archive) ∈ s.given

theorem Dirs.fresh (hs : s.Fresh) : s.Dirs := by
  obtain ⟨hdirs, hcalls, -, hgiven⟩ := hs
  constructor
  · simp [hdirs]
  · simp [hgiven]
  · simp [hcalls]

/-- What a step of a call does to the directories: those of the step before stay, but for the
    one that is removed, a temporary one may be new, and one may get the name of a layer. And
    the call keeps its own directory until that is removed. -/
theorem act_dirs {a : AddAct γ} {pc' : AddPc} (hact : s.act bsdtar call a = some (s', pc')) :
    s'.store.root = s.store.root ∧ s'.given = s.given ∧ s'.calls = s.calls ∧
    (∀ e ∈ s'.store.dirs,
      ((∃ e₀ ∈ s.store.dirs, e₀.1 = e.1) ∧
        (a = .removeAll true → ∀ k, call.pc.work ≠ some (e.1, k))) ∨
      (s.IsTmp e.1 ∧ ∃ k, pc'.work = some (e.1, k)) ∨ e.1 = s.store.layerPath call.id) ∧
    ((∃ all, a = .removeAll all) ∨ ∀ w, call.pc.work = some w → pc'.work = some w) := by
  obtain ⟨hcalls, hgiven, hkind⟩ := act_kinds hact
  cases hkind with
  | keep hstore hkeep hwork =>
    rw [hstore]
    exact ⟨rfl, hgiven, hcalls, fun e he => .inl ⟨⟨e, he, rfl⟩, fun h => absurd h hkeep⟩, hwork⟩
  | @mktemp sum d _ hpc _ hstore =>
    rw [hstore]
    refine ⟨rfl, hgiven, hcalls, fun e he => ?_, .inr (by simp [hpc, AddPc.work])⟩
    rcases List.mem_append.mp he with he | he
    · exact .inl ⟨⟨e, he, rfl⟩, by simp⟩
    · rw [List.mem_singleton.mp he]
      exact .inr (.inl ⟨⟨sum, rfl⟩, _, rfl⟩)
  | rename hpc hrename =>
    -- a directory gets the path of the layer, and the others stay
    unfold LayerStore.rename at hrename
    split at hrename
    · simp at hrename
    · split at hrename
      · simp at hrename
      · cases hrename
        refine ⟨rfl, rfl, rfl, fun e he => ?_, .inr (by rw [hpc]; exact fun _ hw => hw)⟩
        rcases List.mem_append.mp he with he | he
        · exact .inl ⟨⟨e, List.mem_of_mem_filter he, rfl⟩, by simp⟩
        · rw [List.mem_singleton.mp he]
          exact .inr (.inr rfl)
  | unlink hpc hstore =>
    rw [hstore]
    refine ⟨rfl, hgiven, hcalls, fun e he => ?_, .inr (by rw [hpc]; exact fun _ hw => hw)⟩
    obtain ⟨e₀, he₀, rfl⟩ := List.mem_map.mp he
    exact .inl ⟨⟨e₀, he₀, rfl⟩, by simp⟩
  | removeAll hpc hstore =>
    -- the directory of the call is gone
    rw [hstore]
    refine ⟨rfl, hgiven, hcalls, fun e he => ?_, .inl ⟨true, rfl⟩⟩
    obtain ⟨he, hne⟩ := List.mem_filter.mp he
    refine .inl ⟨⟨e, he, rfl⟩, fun _ k' hw => ?_⟩
    rw [hpc] at hw
    cases hw
    simp at hne

/-- The steps of the processes change no path and no call, and a crash ends the calls only. -/
theorem step_dirs {op : AddOp γ ε} (hstep : s.step bsdtar op = some s') :
    (∃ i a call pc' s₁, op = .call i a ∧ s.calls[i]? = some call ∧
      s.act bsdtar call a = some (s₁, pc') ∧
      s' = { s₁ with calls := s.calls.set i { call with pc := pc' } }) ∨
    (s'.store.root = s.store.root ∧ s'.store.dirs.map Prod.fst = s.store.dirs.map Prod.fst ∧
      ((∃ id archive, op = .add id archive ∧ LayerId id ∧
          s'.calls = s.calls ++ [⟨id, archive, .stat⟩] ∧
          s'.given = s.given ++ [(id, archive)]) ∨
       s'.given = s.given ∧ (s'.calls = s.calls ∨ op = .crash ∧ s'.calls = []))) := by
  cases op with
  | add id archive =>
    simp only [Adding.step] at hstep
    split at hstep
    · next hid =>
      cases hstep
      exact .inr ⟨rfl, rfl, .inl ⟨id, archive, rfl, hid, rfl, rfl⟩⟩
    · cases hstep
  | call i a =>
    obtain ⟨call, hi, hmap⟩ := Option.bind_eq_some_iff.mp hstep
    obtain ⟨⟨s₁, pc⟩, hact, rfl⟩ := Option.map_eq_some_iff.mp hmap
    exact .inl ⟨i, a, call, pc, s₁, rfl, hi, hact, rfl⟩
  | enter k =>
    obtain ⟨p, -, henter⟩ := Option.bind_eq_some_iff.mp hstep
    unfold Adding.enter at henter
    split at henter
    · split at henter <;> cases henter <;> exact .inr ⟨rfl, rfl, .inr ⟨rfl, .inl rfl⟩⟩
    · simp at henter
  | extract k =>
    obtain ⟨p, -, hextract⟩ := Option.bind_eq_some_iff.mp hstep
    unfold Adding.extract at hextract
    split at hextract
    · split at hextract
      · obtain ⟨entry, -, hwrite⟩ := Option.bind_eq_some_iff.mp hextract
        split at hwrite
        · cases hwrite
          refine .inr ⟨rfl, ?_, .inr ⟨rfl, .inl rfl⟩⟩
          simp [setProc, LayerStore.update]
        · cases hwrite
          exact .inr ⟨rfl, rfl, .inr ⟨rfl, .inl rfl⟩⟩
      · simp at hextract
    · simp at hextract
  | exit k err =>
    obtain ⟨p, -, hexit⟩ := Option.bind_eq_some_iff.mp hstep
    unfold Adding.exit at hexit
    split at hexit
    · simp at hexit
    · cases hexit
      exact .inr ⟨rfl, rfl, .inr ⟨rfl, .inl rfl⟩⟩
    · split at hexit
      · cases hexit
        exact .inr ⟨rfl, rfl, .inr ⟨rfl, .inl rfl⟩⟩
      · simp at hexit
    · simp at hexit
  | crash =>
    cases hstep
    exact .inr ⟨rfl, rfl, .inr ⟨rfl, .inr ⟨rfl, rfl⟩⟩⟩

/-- The paths of a step before, when the root stays and calls are only added. -/
theorem IsTmp.of_root (hroot : s'.store.root = s.store.root) {path : GoString}
    (h : s.IsTmp path) : s'.IsTmp path := by
  obtain ⟨sum, rfl⟩ := h
  exact ⟨sum, by rw [LayerStore.tmpPath, LayerStore.tmpPath, hroot]⟩

theorem IsGiven.of_root (hroot : s'.store.root = s.store.root)
    (hgiven : ∀ g ∈ s.given, g ∈ s'.given) {path : GoString} (h : s.IsGiven path) :
    s'.IsGiven path := by
  obtain ⟨id, archive, hmem, rfl⟩ := h
  exact ⟨id, archive, hgiven _ hmem, by
    rw [LayerStore.layerPath, LayerStore.layerPath, hroot]⟩

theorem Dirs.step (h : s.Dirs) {op : AddOp γ ε} (hstep : s.step bsdtar op = some s') :
    s'.Dirs := by
  obtain ⟨i, a, call, pc', s₁, rfl, hi, hact, rfl⟩ | ⟨hroot, hpaths, hcalls⟩ := step_dirs hstep
  · obtain ⟨hroot, hgiven, -, hdirs, -⟩ := act_dirs hact
    have hmem := List.mem_of_getElem? hi
    refine ⟨fun e he => ?_, fun g hg => h.given g (hgiven ▸ hg), fun c hc => ?_⟩
    · -- a directory of the step before, a new temporary one, or the layer of the call
      have hkeep : ∀ g ∈ s.given, g ∈ s₁.given := fun g hg => hgiven ▸ hg
      obtain ⟨⟨e₀, he₀, heq⟩, -⟩ | ⟨htmp, -⟩ | hlayer := hdirs e he
      · rw [← heq]
        exact (h.paths e₀ he₀).imp (.of_root hroot) (.of_root hroot hkeep)
      · exact .inl (.of_root hroot htmp)
      · exact .inr (.of_root hroot hkeep ⟨call.id, call.archive, h.calls call hmem, hlayer⟩)
    · show (c.id, c.archive) ∈ s₁.given
      rw [hgiven]
      obtain hc | rfl := List.mem_or_eq_of_mem_set hc
      · exact h.calls c hc
      · exact h.calls call hmem
  · have hold : ∀ e ∈ s'.store.dirs, s.IsTmp e.1 ∨ s.IsGiven e.1 := by
      intro e he
      have hin := hpaths ▸ List.mem_map_of_mem (f := Prod.fst) he
      obtain ⟨e₀, he₀, heq⟩ := List.mem_map.mp hin
      rw [← heq]
      exact h.paths e₀ he₀
    obtain ⟨id, archive, -, hid, hcalls, hgiven⟩ | ⟨hgiven, hcalls⟩ := hcalls
    · have hkeep : ∀ g ∈ s.given, g ∈ s'.given := fun g hg => by
        rw [hgiven]
        exact List.mem_append_left _ hg
      refine ⟨fun e he => (hold e he).imp (.of_root hroot) (.of_root hroot hkeep), fun g hg => ?_,
        fun c hc => ?_⟩
      · rw [hgiven] at hg
        rcases List.mem_append.mp hg with hg | hg
        · exact h.given g hg
        · rw [List.mem_singleton.mp hg]
          exact hid
      · rw [hcalls] at hc
        rcases List.mem_append.mp hc with hc | hc
        · exact hkeep _ (h.calls c hc)
        · rw [List.mem_singleton.mp hc, hgiven]
          exact List.mem_append_right _ (List.mem_singleton_self _)
    · have hkeep : ∀ g ∈ s.given, g ∈ s'.given := fun g hg => hgiven ▸ hg
      refine ⟨fun e he => (hold e he).imp (.of_root hroot) (.of_root hroot hkeep),
        fun g hg => h.given g (hgiven ▸ hg), fun c hc => ?_⟩
      rw [hgiven]
      obtain heq | ⟨-, hnil⟩ := hcalls
      · exact h.calls c (heq ▸ hc)
      · rw [hnil] at hc
        simp at hc

/-! ## Runs that clean up -/

/-- `os.RemoveAll` removes all of the temporary directory, and the daemon crashes only while no
    call has one. -/
def Cleans (s : Adding γ ε) : AddOp γ ε → Prop
  | .call _ (.removeAll all) => all = true
  | .crash => ∀ call ∈ s.calls, call.pc.work = none
  | _ => True

instance (s : Adding γ ε) : (op : AddOp γ ε) → Decidable (s.Cleans op)
  | .call _ (.removeAll all) => inferInstanceAs (Decidable (all = true))
  | .crash => inferInstanceAs (Decidable (∀ call ∈ s.calls, call.pc.work = none))
  | .call _ .stat | .call _ (.mktemp ..) | .call _ .feed | .call _ (.copied _) | .call _ .wait
  | .call _ .has | .call _ (.rename _) | .call _ (.unlink _) | .add .. | .enter _ | .extract _
  | .exit .. => inferInstanceAs (Decidable True)

/-- Each temporary directory is that of a call. -/
def Held (s : Adding γ ε) : Prop :=
  ∀ e ∈ s.store.dirs, s.IsTmp e.1 →
    ∃ (j : Nat) (c : AddCall ε) (k : Nat), s.calls[j]? = some c ∧ c.pc.work = some (e.1, k)

theorem Held.step (h : s.Held) (hd : s.Dirs) {op : AddOp γ ε} (hclean : s.Cleans op)
    (hstep : s.step bsdtar op = some s') : s'.Held := by
  intro e he htmp
  obtain ⟨i, a, call, pc', s₁, rfl, hi, hact, rfl⟩ | ⟨hroot, hpaths, hcalls⟩ := step_dirs hstep
  · obtain ⟨hroot, -, -, hdirs, hwork⟩ := act_dirs hact
    have htmp₀ : s.IsTmp e.1 := htmp.of_root hroot.symm
    have hself : (s.calls.set i { call with pc := pc' })[i]? = some { call with pc := pc' } :=
      List.getElem?_set_self (List.getElem?_eq_some_iff.mp hi).1
    obtain ⟨⟨e₀, he₀, heq⟩, hremoved⟩ | ⟨-, k, hw⟩ | hlayer := hdirs e he
    · obtain ⟨j, c, k, hj, hw⟩ := h e₀ he₀ (heq ▸ htmp₀)
      rw [heq] at hw
      by_cases hji : j = i
      · subst hji
        cases hi.symm.trans hj
        obtain ⟨all, rfl⟩ | hkeep := hwork
        -- what was removed is not there
        · have hall : all = true := hclean
          exact absurd hw (hremoved (by rw [hall]) k)
        · exact ⟨j, _, k, hself, hkeep _ hw⟩
      · exact ⟨j, c, k, (List.getElem?_set_ne fun e => hji e.symm).trans hj, hw⟩
    · exact ⟨i, _, k, hself, hw⟩
    -- no layer has the path of a temporary directory
    · have hid := hd.given _ (hd.calls call (List.mem_of_getElem? hi))
      obtain ⟨sum, hsum⟩ := htmp₀
      rw [hlayer] at hsum
      exact absurd hsum (layerPath_ne_tmpPath s.store hid sum)
  · have hin := hpaths ▸ List.mem_map_of_mem (f := Prod.fst) he
    obtain ⟨e₀, he₀, heq⟩ := List.mem_map.mp hin
    obtain ⟨j, c, k, hj, hw⟩ := h e₀ he₀ (heq ▸ htmp.of_root hroot.symm)
    rw [heq] at hw
    obtain ⟨id, archive, -, -, hcalls, -⟩ | ⟨-, hcalls | ⟨rfl, -⟩⟩ := hcalls
    · exact ⟨j, c, k, by rw [hcalls]; exact List.getElem?_concat_of_some hj, hw⟩
    · exact ⟨j, c, k, hcalls ▸ hj, hw⟩
    · have hnone : c.pc.work = none := hclean c (List.mem_of_getElem? hj)
      rw [hnone] at hw
      simp at hw

end Adding

/-! ## The list -/

/-- With directories as they should be, `List` is right when and only when there is no
    temporary directory. -/
theorem Adding.Dirs.listsLayers {s : Adding γ ε} (h : s.Dirs) : s.ListsLayers ↔ s.NoTmp := by
  constructor
  · intro hlist path htmp
    by_contra hstat
    exact hlist.no_tmp path (LayerStore.mem_list.mpr hstat) htmp
  · intro hno
    refine ⟨fun path => ?_, fun path hpath htmp => LayerStore.mem_list.mp hpath (hno path htmp)⟩
    constructor
    · intro hpath
      have hstat := LayerStore.mem_list.mp hpath
      obtain ⟨d, hd⟩ := Option.ne_none_iff_exists'.mp hstat
      obtain ⟨e, hfind, -⟩ := Option.map_eq_some_iff.mp hd
      have hmem := List.mem_of_find?_eq_some hfind
      have heq : e.1 = path := by simpa using List.find?_some hfind
      obtain htmp | ⟨id, archive, hgiven, hlayer⟩ := h.paths e hmem
      · exact absurd (hno path (heq ▸ htmp)) hstat
      · have hpath' : path = s.store.layerPath id := heq.symm.trans hlayer
        have hid := (h.given _ hgiven).plain
        refine ⟨id, archive, hgiven, ?_, ?_⟩
        · rw [LayerStore.get, if_pos (by rw [LayerStore.has, ← hpath', hd]; rfl), hpath']
        · obtain ⟨pre, hpre⟩ := pathJoin_child s.store.root
          rw [hpath', LayerStore.layerPath, hpre _ hid]
          simp [hid.ne_nil]
    · rintro ⟨id, archive, -, hget, hne⟩
      rw [LayerStore.mem_list]
      rw [LayerStore.get] at hget
      split at hget
      · next hhas =>
        rw [← hget]
        exact Option.isSome_iff_ne_none.mp hhas
      · exact absurd hget.symm hne

/-- In whatever state the calls, the processes and the crashes of the daemon have left the store:
    `List` returns the paths of the layers, and no temporary directory, exactly when no temporary
    directory is there. In the runs in which each `RemoveAll` removes all of its directory and
    the daemon crashes only while no call has one, that is so whenever no call is between its
    `Mktemp` and the end of its `RemoveAll`. -/
theorem list_layers (bsdtar : Bsdtar γ ε) :
    (∀ s, (addSystem bsdtar).Reachable s → (s.ListsLayers ↔ s.NoTmp)) ∧
    ∀ s, (addSystem bsdtar).ReachableVia Adding.Cleans s →
      (∀ call ∈ s.calls, call.pc.work = none) → s.ListsLayers := by
  constructor
  · intro s h
    have hdirs : s.Dirs := h.invariant (fun _ => .fresh) fun _ _ _ hs _ hstep => hs.step hstep
    exact hdirs.listsLayers
  · intro s h hidle
    obtain ⟨hdirs, hheld⟩ : s.Dirs ∧ s.Held := by
      refine h.invariant (P := fun s => s.Dirs ∧ s.Held) (fun s hs => ⟨.fresh hs, ?_⟩)
        fun _ _ _ hs hclean hstep => ⟨hs.1.step hstep, hs.2.step hs.1 hclean hstep⟩
      intro e he
      rw [hs.1] at he
      simp at he
    refine hdirs.listsLayers.mpr fun path htmp => ?_
    by_contra hstat
    obtain ⟨d, hd⟩ := Option.ne_none_iff_exists'.mp hstat
    obtain ⟨e, hfind, -⟩ := Option.map_eq_some_iff.mp hd
    have heq : e.1 = path := by simpa using List.find?_some hfind
    obtain ⟨j, c, k, hj, hw⟩ := hheld e (List.mem_of_find?_eq_some hfind) (heq ▸ htmp)
    rw [hidle c (List.mem_of_getElem? hj)] at hw
    simp at hw

/-- A call adds a layer and returns; then the layer is all that is listed. -/
theorem list_layers_one :
    ∃ s : Adding (List Nat) Nat, (addSystem entries).ReachableVia Adding.Cleans s ∧
      s.ListsLayers ∧ s.NoTmp ∧ s.store.list.length = 1 := by
  have hinit : (addSystem entries).ReachableVia Adding.Cleans ⟨⟨str "/l", []⟩, [], [], []⟩ :=
    .init ⟨rfl, rfl, rfl, rfl⟩
  have hs := hinit.runVia
    [.add (idOf 0) [1], .call 0 .stat, .call 0 (.mktemp (sumOf 1) none), .enter 0,
      .call 0 .feed, .extract 0, .call 0 (.copied none), .exit 0 none, .call 0 .wait,
      .call 0 .has, .call 0 (.rename none), .call 0 (.removeAll true)] rfl
  have hlist := (list_layers entries).2 _ hs (by
    intro call hcall
    rw [List.mem_singleton.mp hcall]
    rfl)
  exact ⟨_, hs, hlist, ((list_layers entries).1 _ (hs.mono fun _ _ _ => trivial)).mp hlist, by
    rw [LayerStore.list, List.length_mergeSort]
    rfl⟩

/-- The daemon crashes while a call unpacks. There is no layer and no call any more, but `List`
    lists the temporary directory. -/
theorem list_temporary :
    ∃ s : Adding (List Nat) Nat, (addSystem entries).Reachable s ∧ s.calls = [] ∧
      s.store.get (idOf 0) = [] ∧
      s.store.tmpPath (randomId (sumOf 1)) ∈ s.store.list ∧ ¬ s.ListsLayers := by
  have hinit : (addSystem entries).Reachable ⟨⟨str "/l", []⟩, [], [], []⟩ :=
    .init ⟨rfl, rfl, rfl, rfl⟩
  have hs := hinit.run
    [.add (idOf 0) [1], .call 0 .stat, .call 0 (.mktemp (sumOf 1) none), .crash] rfl
  have hmem := LayerStore.mem_list.mpr (show LayerStore.stat ⟨str "/l", [(pathJoin [str "/l",
    str "tmp-" ++ randomId (sumOf 1)], (⟨0, []⟩ : Dir (List Nat)))]⟩
      (pathJoin [str "/l", str "tmp-" ++ randomId (sumOf 1)]) ≠ none by decide)
  exact ⟨_, hs, rfl, rfl, hmem, fun hlist => hlist.no_tmp _ hmem ⟨sumOf 1, rfl⟩⟩

end Docker.AddLayer
