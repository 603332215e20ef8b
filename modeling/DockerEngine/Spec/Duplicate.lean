import DockerEngine.Spec.AddLayer

/-!
# Two calls with one id

`AddLayer` looks for the layer twice, before it unpacks and before it renames. When the second
look finds the layer of another call, the call says that all went well and throws its own
directory away. The rename itself replaces a layer only if that is empty.

- `act_cases`, `step_cases`: what a step does to the layers and to the results of the calls
- `added_own`: the runs in which a call that returns no error has stored its own archive
- `added_other`: two calls with one id
-/

namespace Docker.AddLayer

open Go

variable {γ ε : Type} {bsdtar : Bsdtar γ ε}

namespace Adding

variable {s s' : Adding γ ε} {i k : Nat} {call : AddCall ε} {p : Proc ε}

/-- A change of the store that leaves all layers alone. -/
structure KeepsLayers (s s' : Adding γ ε) : Prop where
  root : s'.store.root = s.store.root
  layers : ∀ id, LayerId id →
    s'.store.stat (s.store.layerPath id) = s.store.stat (s.store.layerPath id)

theorem KeepsLayers.of_tmp {path : GoString} (hpath : s.IsTmp path)
    (hroot : s'.store.root = s.store.root)
    (hother : ∀ q, q ≠ path → s'.store.stat q = s.store.stat q) : s.KeepsLayers s' := by
  obtain ⟨sum, rfl⟩ := hpath
  exact ⟨hroot, fun id hid => hother _ (layerPath_ne_tmpPath s.store hid sum)⟩

/-- The call that renames puts its directory, which is complete, at the path of its layer. -/
structure Publishes (bsdtar : Bsdtar γ ε) (s s' : Adding γ ε) (call : AddCall ε) : Prop where
  root : s'.store.root = s.store.root
  data : ∃ d, s'.store.stat (s.store.layerPath call.id) = some d ∧
    d.data = bsdtar.unpack call.archive
  others : ∀ id, LayerId id → id ≠ call.id →
    s'.store.stat (s.store.layerPath id) = s.store.stat (s.store.layerPath id)
  replaced : ∀ d, s.store.stat (s.store.layerPath call.id) = some d → bsdtar.isEmpty d.data = true

theorem Inv.publishes (h : s.Inv bsdtar) (hi : s.calls[i]? = some call) {tmp : GoString}
    (hpc : call.pc = .rename tmp k) {store : LayerStore (Dir γ)}
    (hrename : s.store.rename bsdtar.isEmpty tmp (s.store.layerPath call.id) = .ok store) :
    s.Publishes bsdtar { s with store } call := by
  have hcall := h.calls call (List.mem_of_getElem? hi)
  have hw : call.pc.work = some (tmp, k) := by rw [hpc]; rfl
  obtain ⟨sum, htmp⟩ := (hcall.tmp tmp k hw).1
  obtain ⟨p, hp, harch, hknows⟩ := hcall.proc tmp k hw
  rw [hpc] at hknows
  obtain ⟨d, hd, hdata⟩ := hcall.built tmp k p (by rw [hpc]; rfl) hp
  obtain ⟨hroot, d', hd', hstat⟩ := LayerStore.rename_ok hrename
  cases hd.symm.trans hd'
  refine ⟨hroot, ⟨d, ?_, ?_⟩, fun id hid hne => ?_, fun e he => ?_⟩
  · exact (hstat _).trans (if_pos rfl)
  · rw [hdata, hknows.2, List.take_length, harch]
  · have hlayer : s.store.layerPath id ≠ s.store.layerPath call.id := fun heq =>
      hne (pathJoin_injective s.store.root hid.plain hcall.id.plain heq)
    have htmp' : s.store.layerPath id ≠ tmp := by
      rw [htmp]
      exact layerPath_ne_tmpPath s.store hid sum
    exact (hstat _).trans (by rw [if_neg hlayer, if_neg htmp'])
  · unfold LayerStore.rename at hrename
    rw [hd] at hrename
    simp only at hrename
    split at hrename
    · simp at hrename
    · next hempty => simpa [he] using hempty

/-- A step of a call keeps the layers and does not make the call succeed; or it is the second
    look, which finds the layer; or it is the rename. -/
theorem act_cases (h : s.Inv bsdtar) (hi : s.calls[i]? = some call) {a : AddAct γ} {pc' : AddPc}
    (hact : s.act bsdtar call a = some (s', pc')) :
    s'.calls = s.calls ∧
    ((s.KeepsLayers s' ∧ (pc'.added = none ∨ pc'.added = call.pc.added)) ∨
     (a = .has ∧ s.store.has call.id = true ∧ s' = s) ∨
     (a = .rename none ∧ s.Publishes bsdtar s' call ∧
      pc'.added = some (s.store.layerPath call.id))) := by
  have hcall := h.calls call (List.mem_of_getElem? hi)
  obtain ⟨hcalls, -, hkind⟩ := act_kinds hact
  refine ⟨hcalls, ?_⟩
  cases hkind with
  | keep hstore _ _ hadded =>
    have hkeep : s.KeepsLayers s' := ⟨by rw [hstore], fun _ _ => by rw [hstore]⟩
    obtain hnone | hsame | hhas := hadded
    · exact .inl ⟨hkeep, .inl hnone⟩
    · exact .inl ⟨hkeep, .inr hsame⟩
    · exact .inr (.inl hhas)
  | @mktemp sum d _ _ hnew hstore =>
    -- one directory more, at the path of a temporary one
    refine .inl ⟨.of_tmp ⟨sum, rfl⟩ (by rw [hstore]; rfl) fun q hq => ?_, .inl rfl⟩
    rw [hstore]
    exact (LayerStore.stat_mkdir hnew q).trans (if_neg hq)
  | rename hpc hrename => exact .inr (.inr ⟨rfl, h.publishes hi hpc hrename, rfl⟩)
  | @unlink tmp k res left _ hpc hstore =>
    have hw : call.pc.work = some (tmp, k) := by rw [hpc]; rfl
    have hadded : (AddPc.removeAll tmp k res).added = call.pc.added := by rw [hpc]
    refine .inl ⟨.of_tmp (hcall.tmp tmp k hw).1 (by rw [hstore]; rfl) fun q hq => ?_, .inr hadded⟩
    rw [hstore]
    simp [LayerStore.stat_unlink, hq]
  | @removeAll tmp k res _ hpc hstore =>
    have hw : call.pc.work = some (tmp, k) := by rw [hpc]; rfl
    have hres : (AddPc.done res).added = call.pc.added := by rw [hpc]; cases res <;> rfl
    refine .inl ⟨.of_tmp (hcall.tmp tmp k hw).1 (by rw [hstore]; rfl) fun q hq => ?_, .inr hres⟩
    rw [hstore, LayerStore.stat_remove, if_neg hq]

/-- A process writes to no layer. -/
theorem Inv.extract_keeps (h : s.Inv bsdtar) (hp : s.procs[k]? = some p)
    (hextract : s.extract bsdtar k p = some s') : s'.calls = s.calls ∧ s.KeepsLayers s' := by
  unfold Adding.extract at hextract
  split at hextract
  · next serial hpc =>
    split at hextract
    · obtain ⟨entry, -, hwrite⟩ := Option.bind_eq_some_iff.mp hextract
      split at hwrite
      · cases hwrite
        refine ⟨rfl, rfl, fun id hid => ?_⟩
        show (s.store.update serial _).stat _ = _
        rw [LayerStore.stat_update]
        cases hd : s.store.stat (s.store.layerPath id) with
        | none => rfl
        | some d =>
          -- the process of a layer has exited
          obtain ⟨-, q, err, hq, hexited⟩ := h.layers id hid d hd
          have hne : d.serial ≠ serial := by
            intro heq
            rw [heq, (h.procs k p hp).inside serial hpc, hp] at hq
            cases hq
            rw [hpc] at hexited
            simp at hexited
          rw [Option.map_some, if_neg hne]
      · cases hwrite
        exact ⟨rfl, rfl, fun _ _ => rfl⟩
    · simp at hextract
  · simp at hextract

/-! ## What the calls have stored -/

/-- Each call that succeeds has the result of its own archive at the path it returns, and no two
    calls with one id succeed. -/
structure Stored (bsdtar : Bsdtar γ ε) (s : Adding γ ε) : Prop where
  own : ∀ (i : Nat) c path, s.calls[i]? = some c → c.pc.added = some path →
    path = s.store.layerPath c.id ∧
      ∃ d, s.store.stat path = some d ∧ d.data = bsdtar.unpack c.archive
  once : ∀ (i j : Nat) c c', s.calls[i]? = some c → s.calls[j]? = some c' →
    c.pc.added ≠ none → c'.pc.added ≠ none → c.id = c'.id → i = j

/-- No call finds a layer at its second look, no rename replaces an empty layer, and `Mktemp`
    makes no directory with a name that is still in use. -/
def FirstOfId (bsdtar : Bsdtar γ ε) (s : Adding γ ε) : AddOp γ ε → Prop
  | .call i .has => ∀ call ∈ s.calls[i]?, s.store.has call.id = false
  | .call i (.rename none) => ∀ call ∈ s.calls[i]?,
      ∀ d ∈ s.store.stat (s.store.layerPath call.id), bsdtar.isEmpty d.data = false
  | op => s.DrawsFresh op

instance (s : Adding γ ε) : (op : AddOp γ ε) → Decidable (s.FirstOfId bsdtar op)
  | .call i .has => inferInstanceAs (Decidable (∀ call ∈ s.calls[i]?, s.store.has call.id = false))
  | .call i (.rename none) => inferInstanceAs (Decidable (∀ call ∈ s.calls[i]?,
      ∀ d ∈ s.store.stat (s.store.layerPath call.id), bsdtar.isEmpty d.data = false))
  | .call i (.mktemp sum err) =>
    inferInstanceAs (Decidable (s.DrawsFresh (.call i (.mktemp sum err))))
  | .call _ .stat | .call _ .feed | .call _ (.copied _) | .call _ .wait
  | .call _ (.rename (some _)) | .call _ (.unlink _) | .call _ (.removeAll _) | .add .. | .enter _
  | .extract _ | .exit .. | .crash => inferInstanceAs (Decidable True)

theorem FirstOfId.drawsFresh {op : AddOp γ ε} (h : s.FirstOfId bsdtar op) : s.DrawsFresh op := by
  cases op with
  | call i a =>
    cases a with
    | mktemp sum err => exact h
    | _ => trivial
  | _ => trivial

theorem Stored.fresh (hs : s.Fresh) : s.Stored bsdtar := by
  obtain ⟨-, hcalls, -, -⟩ := hs
  constructor
  · simp [hcalls]
  · simp [hcalls]

/-- The layers stay, and no other call succeeds than before. -/
theorem Stored.keep (hs : s.Stored bsdtar) (h : s.Inv bsdtar) (hkeep : s.KeepsLayers s')
    (hback : ∀ (j : Nat) c', s'.calls[j]? = some c' → c'.pc.added ≠ none →
      ∃ c, s.calls[j]? = some c ∧ c'.id = c.id ∧ c'.archive = c.archive ∧
        c'.pc.added = c.pc.added) : s'.Stored bsdtar := by
  constructor
  · intro j c' path hj hadded
    obtain ⟨c, hc, hid, harch, heq⟩ := hback j c' hj (by simp [hadded])
    obtain ⟨hpath, d, hd, hdata⟩ := hs.own j c path hc (heq ▸ hadded)
    have hid₀ := (h.calls c (List.mem_of_getElem? hc)).id
    have hlayer : s'.store.layerPath c'.id = s.store.layerPath c.id := by
      rw [LayerStore.layerPath, LayerStore.layerPath, hkeep.root, hid]
    refine ⟨hpath.trans hlayer.symm, d, ?_, by rw [hdata, harch]⟩
    rw [hpath] at hd ⊢
    rw [hkeep.layers _ hid₀, hd]
  · intro i j c c' hi hj hc hc' hid
    obtain ⟨c₀, hc₀, hid₀, -, heq₀⟩ := hback i c hi hc
    obtain ⟨c₁, hc₁, hid₁, -, heq₁⟩ := hback j c' hj hc'
    exact hs.once i j c₀ c₁ hc₀ hc₁ (heq₀ ▸ hc) (heq₁ ▸ hc') (by rw [← hid₀, ← hid₁, hid])

/-- A rename over nothing: the call has stored its archive, and no other one with its id. -/
theorem Stored.publish (hs : s.Stored bsdtar) (h : s.Inv bsdtar) (hi : s.calls[i]? = some call)
    (hpub : s.Publishes bsdtar s' call) {pc : AddPc}
    (hadded : pc.added = some (s.store.layerPath call.id))
    (hnew : s.store.stat (s.store.layerPath call.id) = none) :
    Stored bsdtar { s' with calls := s.calls.set i { call with pc } } := by
  have hlayer : ∀ id, s'.store.layerPath id = s.store.layerPath id := fun id => by
    rw [LayerStore.layerPath, LayerStore.layerPath, hpub.root]
  -- a call that had succeeded has its layer, so it has another id
  have hother : ∀ (j : Nat) c, s.calls[j]? = some c → c.pc.added ≠ none → c.id ≠ call.id := by
    intro j c hj hc hid
    obtain ⟨path, hpath⟩ := Option.ne_none_iff_exists'.mp hc
    obtain ⟨rfl, d, hd, -⟩ := hs.own j c path hj hpath
    rw [hid, hnew] at hd
    simp at hd
  constructor
  · intro j c path hj hc
    show path = s'.store.layerPath c.id ∧ ∃ d, s'.store.stat path = some d ∧ _
    rw [hlayer]
    obtain ⟨rfl, rfl⟩ | ⟨-, hold⟩ := List.getElem?_set_cases hj
    · cases hadded.symm.trans hc
      exact ⟨rfl, hpub.data⟩
    · have hne := hother j c hold (by simp [hc])
      obtain ⟨rfl, d, hd, hdata⟩ := hs.own j c path hold hc
      have hid := (h.calls c (List.mem_of_getElem? hold)).id
      refine ⟨rfl, d, ?_, hdata⟩
      rw [hpub.others _ hid hne, hd]
  · intro j₁ j₂ c c' hj₁ hj₂ hc hc' hid
    obtain ⟨rfl, rfl⟩ | ⟨-, hold₁⟩ := List.getElem?_set_cases hj₁ <;>
      obtain ⟨rfl, rfl⟩ | ⟨-, hold₂⟩ := List.getElem?_set_cases hj₂
    · rfl
    · exact absurd hid.symm (hother j₂ c' hold₂ hc')
    · exact absurd hid (hother j₁ c hold₁ hc)
    · exact hs.once j₁ j₂ c c' hold₁ hold₂ hc hc' hid

theorem Stored.step (hs : s.Stored bsdtar) (h : s.Inv bsdtar) {op : AddOp γ ε}
    (hfirst : s.FirstOfId bsdtar op) (hstep : s.step bsdtar op = some s') : s'.Stored bsdtar := by
  cases op with
  | add id archive =>
    simp only [Adding.step] at hstep
    split at hstep
    · cases hstep
      refine hs.keep h ⟨rfl, fun _ _ => rfl⟩ fun j c' hj hadded => ?_
      obtain hold | ⟨-, rfl⟩ := List.getElem?_concat_cases hj
      · exact ⟨c', hold, rfl, rfl, rfl⟩
      · simp [AddPc.added] at hadded
    · cases hstep
  | call i a =>
    obtain ⟨call, hi, hmap⟩ := Option.bind_eq_some_iff.mp hstep
    obtain ⟨⟨s₁, pc⟩, hact, rfl⟩ := Option.map_eq_some_iff.mp hmap
    obtain ⟨-, ⟨hkeep, hadd⟩ | ⟨rfl, hhas, rfl⟩ | ⟨rfl, hpub, hadd⟩⟩ := act_cases h hi hact
    · refine hs.keep h ⟨hkeep.root, hkeep.layers⟩ fun j c' hj hadded => ?_
      obtain ⟨rfl, rfl⟩ | ⟨-, hold⟩ := List.getElem?_set_cases hj
      · exact ⟨call, hi, rfl, rfl, hadd.resolve_left hadded⟩
      · exact ⟨c', hold, rfl, rfl, rfl⟩
    -- the second look finds nothing
    · rw [hfirst call hi] at hhas
      simp at hhas
    · refine hs.publish h hi hpub hadd ?_
      cases hd : s.store.stat (s.store.layerPath call.id) with
      | none => rfl
      | some d =>
        have hempty := hpub.replaced d hd
        rw [hfirst call hi d hd] at hempty
        simp at hempty
  | enter k =>
    obtain ⟨p, hp, henter⟩ := Option.bind_eq_some_iff.mp hstep
    unfold Adding.enter at henter
    split at henter
    · split at henter <;> cases henter <;>
        exact hs.keep h ⟨rfl, fun _ _ => rfl⟩ fun j c' hj _ => ⟨c', hj, rfl, rfl, rfl⟩
    · simp at henter
  | extract k =>
    obtain ⟨p, hp, hextract⟩ := Option.bind_eq_some_iff.mp hstep
    obtain ⟨hcalls, hkeep⟩ := h.extract_keeps hp hextract
    exact hs.keep h hkeep fun j c' hj _ => ⟨c', hcalls ▸ hj, rfl, rfl, rfl⟩
  | exit k err =>
    obtain ⟨p, hp, hexit⟩ := Option.bind_eq_some_iff.mp hstep
    unfold Adding.exit at hexit
    split at hexit
    · simp at hexit
    · cases hexit
      exact hs.keep h ⟨rfl, fun _ _ => rfl⟩ fun j c' hj _ => ⟨c', hj, rfl, rfl, rfl⟩
    · split at hexit
      · cases hexit
        exact hs.keep h ⟨rfl, fun _ _ => rfl⟩ fun j c' hj _ => ⟨c', hj, rfl, rfl, rfl⟩
      · simp at hexit
    · simp at hexit
  | crash =>
    cases hstep
    constructor
    · simp
    · simp

end Adding

/-- In every run in which no call finds a layer at its second look, no rename replaces an empty
    layer and `Mktemp` makes no directory with a name that is still in use: where a call has
    returned no error, the directory at the path of its layer is what its own archive unpacks to,
    and of the calls with one id at most one has. -/
theorem added_own {s : Adding γ ε}
    (h : (addSystem bsdtar).ReachableVia (Adding.FirstOfId bsdtar) s) :
    (∀ call ∈ s.calls, ∀ path, call.pc = .done (.ok path) →
      path = s.store.layerPath call.id ∧
        ∃ d, s.store.stat path = some d ∧ d.data = bsdtar.unpack call.archive) ∧
    ∀ (i j : Nat) c c' path path', s.calls[i]? = some c → s.calls[j]? = some c' →
      c.pc = .done (.ok path) → c'.pc = .done (.ok path') → c.id = c'.id → i = j := by
  have hinv : s.Inv bsdtar ∧ s.Stored bsdtar := by
    refine h.invariant (P := fun s => s.Inv bsdtar ∧ s.Stored bsdtar)
      (fun _ hs => ⟨.fresh hs, .fresh hs⟩) fun _ _ _ hs hfirst hstep => ?_
    exact ⟨hs.1.step hfirst.drawsFresh hstep, hs.2.step hs.1 hfirst hstep⟩
  refine ⟨fun call hcall path hpc => ?_, fun i j c c' path path' hi hj hc hc' hid => ?_⟩
  · obtain ⟨i, hi⟩ := List.mem_iff_getElem?.mp hcall
    exact hinv.2.own i call path hi (by rw [hpc]; rfl)
  · exact hinv.2.once i j c c' hi hj (by simp [hc, AddPc.added]) (by simp [hc', AddPc.added]) hid

/-- One call adds a layer; another one with its id fails at once. -/
theorem added_own_once :
    ∃ s : Adding (List Nat) Nat, (addSystem entries).ReachableVia (Adding.FirstOfId entries) s ∧
      s.calls.length = 2 ∧ ∃ path, path = s.store.layerPath (idOf 0) ∧
        ∃ d, s.store.stat path = some d ∧ d.data = [1] := by
  have hinit : (addSystem entries).ReachableVia (Adding.FirstOfId entries)
      ⟨⟨str "/l", []⟩, [], [], []⟩ := .init ⟨rfl, rfl, rfl, rfl⟩
  have hs := hinit.runVia
    [.add (idOf 0) [1], .call 0 .stat, .call 0 (.mktemp (sumOf 1) none), .enter 0,
      .call 0 .feed, .extract 0, .call 0 (.copied none), .exit 0 none, .call 0 .wait,
      .call 0 .has, .call 0 (.rename none), .call 0 (.removeAll true), .add (idOf 0) [2],
      .call 1 .stat] rfl
  obtain ⟨hpath, d, hd, hdata⟩ := (added_own hs).1 _ List.mem_cons_self _ rfl
  exact ⟨_, hs, rfl, _, hpath, d, hd, hdata⟩

/-- Two calls with one id and different archives: both return the path of the layer and no
    error, but what the second was given is nowhere. -/
theorem added_other :
    ∃ (s : Adding (List Nat) Nat) (path : GoString), (addSystem entries).Reachable s ∧
      s.calls.map (fun c => c.archive) = [[1], [2]] ∧
      (∀ c ∈ s.calls, c.id = idOf 0 ∧ c.pc = .done (.ok path)) ∧
      (s.store.stat path).map Dir.data = some [1] := by
  have hinit : (addSystem entries).Reachable ⟨⟨str "/l", []⟩, [], [], []⟩ :=
    .init ⟨rfl, rfl, rfl, rfl⟩
  have hs := hinit.run
    [.add (idOf 0) [1], .add (idOf 0) [2], .call 0 .stat, .call 1 .stat,
      .call 0 (.mktemp (sumOf 1) none), .call 1 (.mktemp (sumOf 2) none), .enter 0, .enter 1,
      .call 0 .feed, .call 1 .feed, .extract 0, .extract 1, .call 0 (.copied none),
      .call 1 (.copied none), .exit 0 none, .exit 1 none, .call 0 .wait, .call 1 .wait,
      .call 0 .has, .call 0 (.rename none), .call 0 (.removeAll true), .call 1 .has,
      .call 1 (.removeAll true)] rfl
  refine ⟨_, pathJoin [str "/l", idOf 0], hs, rfl, ?_, rfl⟩
  intro c hc
  rcases List.mem_cons.mp hc with rfl | hc
  · exact ⟨rfl, rfl⟩
  · rw [List.mem_singleton.mp hc]
    exact ⟨rfl, rfl⟩

end Docker.AddLayer
