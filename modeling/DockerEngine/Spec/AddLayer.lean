import DockerEngine.Native.AddLayer
import DockerEngine.ForStd.List

/-!
# A layer is whole or not there

A directory that a call has made for itself is written to by the process of that call alone,
and gets the name of a layer only after this process has succeeded. That the directory is
the call's own rests on its random name: the name must not be that of a directory which
another call is still to remove, or which a process is still to enter.

- `stat_rename`, `stat_update`: the directories after an operation
- `Inv`: who may still write to which directory
- `layer_published`: what stands under the name of a layer, at every point of every run
-/

namespace Docker

open Go AddLayer

/-! ## Directories -/

namespace LayerStore

variable {γ : Type} {store : LayerStore (Dir γ)} {path : GoString}

/-- One more entry at the end is found if nothing is found before it. -/
private theorem find?_append_dir {dirs : List (GoString × Dir γ)} {d : Dir γ} {q : GoString}
    (h : q = path → dirs.find? (fun e => e.1 = q) = none) :
    ((dirs ++ [(path, d)]).find? fun e => e.1 = q).map Prod.snd =
      if q = path then some d else (dirs.find? fun e => e.1 = q).map Prod.snd := by
  rw [List.find?_append]
  by_cases hq : q = path
  · rw [h hq]
    simp [hq]
  · have hne : path ≠ q := fun e => hq e.symm
    simp [hq, hne]

theorem stat_mkdir {d : Dir γ} (h : store.stat path = none) (q : GoString) :
    (store.mkdir path d).stat q = if q = path then some d else store.stat q := by
  apply find?_append_dir
  rintro rfl
  exact Option.map_eq_none_iff.mp h

/-- Entries that do not pass a test on their path are not found. -/
private theorem find?_filter_dir (dirs : List (GoString × Dir γ)) (keep : GoString → Bool)
    (q : GoString) : (dirs.filter fun e => keep e.1).find? (fun e => e.1 = q) =
      if keep q then dirs.find? (fun e => e.1 = q) else none := by
  rw [List.find?_filter]
  by_cases hq : keep q = true
  · rw [if_pos hq]
    congr 1
    funext e
    by_cases he : e.1 = q
    · simp [he, hq]
    · simp [he]
  · rw [if_neg hq, List.find?_eq_none]
    intro e _ he
    obtain ⟨hkeep, heq⟩ := of_decide_eq_true he
    rw [of_decide_eq_true heq] at hkeep
    exact hq hkeep

theorem stat_remove (q : GoString) :
    (store.remove path).stat q = if q = path then none else store.stat q := by
  have hfind := find?_filter_dir store.dirs (fun p => decide (p ≠ path)) q
  rw [stat, remove, hfind]
  by_cases hq : q = path
  · simp [hq]
  · simp [hq, stat]

theorem stat_unlink (left : γ) (q : GoString) :
    (store.unlink path left).stat q =
      (store.stat q).map fun d => if q = path then { d with data := left } else d := by
  rw [stat, unlink, List.find?_map, Option.map_map, stat, Option.map_map]
  show (store.dirs.find? fun e => e.1 = q).map _ = _
  cases hfind : store.dirs.find? fun e => e.1 = q with
  | none => rfl
  | some e =>
    have hq : e.1 = q := by simpa using List.find?_some hfind
    rw [← hq]
    rfl

theorem stat_update (serial : Nat) (f : γ → γ) (q : GoString) :
    (store.update serial f).stat q = (store.stat q).map fun d =>
      if d.serial = serial then { d with data := f d.data } else d := by
  rw [stat, update, List.find?_map, Option.map_map, stat, Option.map_map]
  rfl

theorem rename_ok {isEmpty : γ → Bool} {old new : GoString} {store' : LayerStore (Dir γ)}
    (h : store.rename isEmpty old new = .ok store') :
    store'.root = store.root ∧ ∃ d, store.stat old = some d ∧
      ∀ q, store'.stat q = if q = new then some d else if q = old then none else store.stat q := by
  unfold rename at h
  split at h
  · simp at h
  next d hold =>
  split at h
  · simp at h
  cases h
  refine ⟨rfl, d, hold, fun q => ?_⟩
  have hfind := find?_filter_dir store.dirs (fun p => decide (p ≠ old ∧ p ≠ new)) q
  have hnew : q = new → (store.dirs.filter fun e => e.1 ≠ old ∧ e.1 ≠ new).find?
      (fun e => e.1 = q) = none := by
    rintro rfl
    rw [hfind]
    simp
  rw [stat, find?_append_dir hnew, hfind]
  by_cases hqn : q = new
  · simp [hqn]
  · by_cases hqo : q = old
    · simp [hqo]
    · simp [hqn, hqo, stat]

end LayerStore

/-! ## Names -/

theorem tmp_plain (sum : Vector UInt8 32) : PlainName (str "tmp-" ++ randomId sum) := by
  have hlen : (str "tmp-" ++ randomId sum).length = 20 := by
    rw [List.length_append, randomId_length]
    rfl
  constructor
  · intro h
    rw [h] at hlen
    simp at hlen
  · intro h
    rw [h] at hlen
    cases hlen
  · intro h
    rw [h] at hlen
    cases hlen
  · intro h
    rcases List.mem_append.mp h with h | h
    · exact absurd h (by decide)
    · exact (randomId_plain sum).no_slash h

/-- No layer has the path of a temporary directory. -/
theorem layerPath_ne_tmpPath {γ : Type} (store : LayerStore γ) {id : GoString}
    (hid : AddLayer.LayerId id) (sum : Vector UInt8 32) :
    store.layerPath id ≠ store.tmpPath (randomId sum) := by
  intro h
  apply hid.no_tmp
  rw [pathJoin_injective store.root hid.plain (tmp_plain sum) h]
  exact List.prefix_append _ _

/-- The ids of `RandomId` are such ids. -/
theorem randomId_layerId (sum : Vector UInt8 32) : AddLayer.LayerId (randomId sum) := by
  refine ⟨randomId_plain sum, fun h => ?_⟩
  have hmem : 45 ∈ randomId sum := h.subset (by decide)
  exact absurd (le_of_mem_randomId hmem) (by decide)

namespace AddLayer

variable {γ ε : Type} {bsdtar : Bsdtar γ ε}

theorem unpack_concat (archive : List ε) (entry : ε) :
    bsdtar.unpack (archive ++ [entry]) = bsdtar.extract (bsdtar.unpack archive) entry := by
  simp [Bsdtar.unpack]

/-! ## The invariant -/

/-- The temporary directory of a call, and its process. -/
def AddPc.work : AddPc → Option (GoString × Nat)
  | copy tmp k | wait tmp k | has tmp k | rename tmp k | removeAll tmp k _ => some (tmp, k)
  | _ => none

/-- The same, while the directory may still become a layer. -/
def AddPc.building : AddPc → Option (GoString × Nat)
  | copy tmp k | wait tmp k | has tmp k | rename tmp k => some (tmp, k)
  | _ => none

/-- The path that a call is about to return or has returned, without an error. -/
def AddPc.added : AddPc → Option GoString
  | removeAll _ _ (.ok path) | done (.ok path) => some path
  | _ => none

/-- What a call at this point knows of its process. -/
def AddPc.Knows (p : Proc ε) : AddPc → Prop
  | copy .. => p.closed = false
  | wait .. => p.fed = p.archive.length
  | has .. | rename .. => p.pc = .exited none ∧ p.next = p.archive.length
  | _ => True

theorem AddPc.work_of_building {pc : AddPc} {tmp : GoString} {k : Nat}
    (h : pc.building = some (tmp, k)) : pc.work = some (tmp, k) := by
  cases pc <;> simp [building, work] at h ⊢ <;> exact h

theorem AddPc.building_of_work {pc : AddPc} (h : pc.work = none) : pc.building = none := by
  cases pc <;> simp [building, work] at h ⊢

/-- What a call knows stays true while it feeds its process. -/
theorem AddPc.Knows.feed {pc : AddPc} {p : Proc ε} (h : pc.Knows p) (hle : p.next ≤ p.fed)
    (hlt : p.fed < p.archive.length) : pc.Knows { p with fed := p.fed + 1 } := by
  cases pc with
  | wait tmp k =>
    have hfed : p.fed = p.archive.length := h
    omega
  | has tmp k =>
    have hnext : p.next = p.archive.length := h.2
    omega
  | rename tmp k =>
    have hnext : p.next = p.archive.length := h.2
    omega
  | _ => exact h

theorem AddPc.Knows.close {pc : AddPc} {p : Proc ε} {tmp : GoString} {k : Nat} (h : pc.Knows p)
    (hw : pc.work = some (tmp, k)) (hcopy : pc ≠ .copy tmp k) :
    pc.Knows { p with closed := true } := by
  cases pc with
  | copy tmp' k' =>
    cases hw
    exact absurd rfl hcopy
  | _ => exact h

/-- It stays true when a process moves on that has not exited. -/
theorem AddPc.Knows.move {pc : AddPc} {p : Proc ε} (h : pc.Knows p)
    (hrun : ∀ err, p.pc ≠ .exited err) (next : Nat) (procPc : ProcPc) :
    pc.Knows { p with next, pc := procPc } := by
  cases pc with
  | has tmp k => exact absurd h.1 (hrun none)
  | rename tmp k => exact absurd h.1 (hrun none)
  | _ => exact h

namespace Adding

/-- The path of a temporary directory. -/
def IsTmp (s : Adding γ ε) (path : GoString) : Prop :=
  ∃ sum, path = s.store.tmpPath (randomId sum)

/-- A process is at work in no directory but its own, whether it has entered it or not. -/
structure ProcInv (s : Adding γ ε) (k : Nat) (p : Proc ε) : Prop where
  next_le : p.next ≤ p.fed
  fed_le : p.fed ≤ p.archive.length
  start : ∀ path, p.pc = .start path →
    s.IsTmp path ∧ ∀ d, s.store.stat path = some d → d.serial = k
  inside : ∀ serial, p.pc = .inside serial → serial = k
  exited : p.pc = .exited none → p.next = p.fed ∧ (p.closed = true ∨ p.fed = p.archive.length)

/-- The directory of a call is the one its process was made for, and holds what this process
    has unpacked. -/
structure CallInv (bsdtar : Bsdtar γ ε) (s : Adding γ ε) (call : AddCall ε) : Prop where
  id : LayerId call.id
  given : (call.id, call.archive) ∈ s.given
  tmp : ∀ tmp k, call.pc.work = some (tmp, k) →
    s.IsTmp tmp ∧ ∀ d, s.store.stat tmp = some d → d.serial = k
  proc : ∀ tmp k, call.pc.work = some (tmp, k) →
    ∃ p, s.procs[k]? = some p ∧ p.archive = call.archive ∧ call.pc.Knows p
  built : ∀ tmp k p, call.pc.building = some (tmp, k) → s.procs[k]? = some p →
    ∃ d, s.store.stat tmp = some d ∧ d.data = bsdtar.unpack (p.archive.take p.next)

/-- A directory that is whole, and to which no process writes any more. -/
def Whole (bsdtar : Bsdtar γ ε) (s : Adding γ ε) (id : GoString) (d : Dir γ) : Prop :=
  (∃ archive, (id, archive) ∈ s.given ∧ d.data = bsdtar.unpack archive) ∧
  ∃ p err, s.procs[d.serial]? = some p ∧ p.pc = .exited err

structure Inv (bsdtar : Bsdtar γ ε) (s : Adding γ ε) : Prop where
  serials : ∀ p q d e, s.store.stat p = some d → s.store.stat q = some e →
    d.serial = e.serial → p = q
  bound : ∀ path d, s.store.stat path = some d → d.serial < s.procs.length
  procs : ∀ k p, s.procs[k]? = some p → s.ProcInv k p
  layers : ∀ id, LayerId id → ∀ d, s.store.stat (s.store.layerPath id) = some d →
    s.Whole bsdtar id d
  calls : ∀ call ∈ s.calls, s.CallInv bsdtar call
  apart : ∀ (i j : Nat) c c', s.calls[i]? = some c → s.calls[j]? = some c' → i ≠ j →
    ∀ tmp k tmp' k', c.pc.work = some (tmp, k) → c'.pc.work = some (tmp', k') →
    tmp ≠ tmp' ∧ k ≠ k'

variable {s : Adding γ ε} {i k : Nat} {call : AddCall ε} {p : Proc ε}

theorem Inv.fresh (hs : s.Fresh) : s.Inv bsdtar := by
  obtain ⟨hdirs, hcalls, hprocs, -⟩ := hs
  have hstat : ∀ path, s.store.stat path = none := by simp [LayerStore.stat, hdirs]
  constructor
  · simp [hstat]
  · simp [hstat]
  · simp [hprocs]
  · simp [hstat]
  · simp [hcalls]
  · simp [hcalls]

/-- A call moves on, and nothing else changes. -/
theorem Inv.setCall (h : s.Inv bsdtar) {pc : AddPc}
    (hcall : s.CallInv bsdtar { call with pc })
    (hapart : ∀ (j : Nat) c, s.calls[j]? = some c → j ≠ i →
      ∀ tmp k tmp' k', pc.work = some (tmp, k) → c.pc.work = some (tmp', k') →
        tmp ≠ tmp' ∧ k ≠ k') :
    Inv bsdtar { s with calls := s.calls.set i { call with pc } } := by
  refine ⟨h.serials, h.bound, fun k p hk => ?_, h.layers, fun c hc => ?_, ?_⟩
  · obtain ⟨h₁, h₂, h₃, h₄, h₅⟩ := h.procs k p hk
    exact ⟨h₁, h₂, h₃, h₄, h₅⟩
  · obtain hc | rfl := List.mem_or_eq_of_mem_set hc
    · obtain ⟨h₁, h₂, h₃, h₄, h₅⟩ := h.calls c hc
      exact ⟨h₁, h₂, h₃, h₄, h₅⟩
    · obtain ⟨h₁, h₂, h₃, h₄, h₅⟩ := hcall
      exact ⟨h₁, h₂, h₃, h₄, h₅⟩
  · intro j₁ j₂ c c' hc hc' hne tmp k tmp' k' hw hw'
    obtain ⟨hj₁, rfl⟩ | ⟨hj₁, hold₁⟩ := List.getElem?_set_cases hc <;>
      obtain ⟨hj₂, rfl⟩ | ⟨hj₂, hold₂⟩ := List.getElem?_set_cases hc'
    · exact absurd (hj₁.trans hj₂.symm) hne
    · exact hapart j₂ c' hold₂ hj₂ tmp k tmp' k' hw hw'
    · obtain ⟨htmp, hk⟩ := hapart j₁ c hold₁ hj₁ tmp' k' tmp k hw' hw
      exact ⟨fun e => htmp e.symm, fun e => hk e.symm⟩
    · exact h.apart j₁ j₂ c c' hold₁ hold₂ hne tmp k tmp' k' hw hw'

/-- A process moves on, and may write to its own directory. -/
theorem Inv.write (h : s.Inv bsdtar) (hk : s.procs[k]? = some p) (f : γ → γ) {p' : Proc ε}
    {store : LayerStore (Dir γ)} (hroot : store.root = s.store.root)
    (hstat : ∀ q, store.stat q = (s.store.stat q).map fun d =>
      if d.serial = k then { d with data := f d.data } else d)
    (hexit : ∀ err, p.pc = .exited err → p'.pc = p.pc ∧ f = id)
    (harchive : p'.archive = p.archive) (hnext : p'.next ≤ p'.fed)
    (hfed : p'.fed ≤ p'.archive.length) (hstart : ∀ path, p'.pc = .start path → p.pc = .start path)
    (hinside : ∀ serial, p'.pc = .inside serial → serial = k)
    (hexited : p'.pc = .exited none →
      p'.next = p'.fed ∧ (p'.closed = true ∨ p'.fed = p'.archive.length))
    (hknows : ∀ call ∈ s.calls, ∀ tmp, call.pc.work = some (tmp, k) → call.pc.Knows p →
      call.pc.Knows p')
    (hdata : f (bsdtar.unpack (p.archive.take p.next)) =
      bsdtar.unpack (p.archive.take p'.next)) :
    Inv bsdtar { s with store, procs := s.procs.set k p' } := by
  have hlt := (List.getElem?_eq_some_iff.mp hk).1
  -- a directory that is found was there before, with the same number
  have hback : ∀ q d', store.stat q = some d' → ∃ d, s.store.stat q = some d ∧
      d'.serial = d.serial ∧ (d.serial ≠ k → d' = d) ∧ (f = id → d' = d) := by
    intro q d' hd'
    rw [hstat] at hd'
    obtain ⟨d, hd, rfl⟩ := Option.map_eq_some_iff.mp hd'
    by_cases hserial : d.serial = k
    · rw [if_pos hserial]
      exact ⟨d, hd, rfl, fun hne => absurd hserial hne, by rintro rfl; rfl⟩
    · rw [if_neg hserial]
      exact ⟨d, hd, rfl, fun _ => rfl, fun _ => rfl⟩
  have hself : (s.procs.set k p')[k]? = some p' := List.getElem?_set_self hlt
  have hother : ∀ j, j ≠ k → (s.procs.set k p')[j]? = s.procs[j]? := fun j hj =>
    List.getElem?_set_ne fun e => hj e.symm
  -- a temporary directory keeps its number
  have htmp : ∀ path j, (s.IsTmp path ∧ ∀ d, s.store.stat path = some d → d.serial = j) →
      IsTmp { s with store, procs := s.procs.set k p' } path ∧
        ∀ d, store.stat path = some d → d.serial = j := by
    rintro path j ⟨⟨sum, hpath⟩, hserial⟩
    refine ⟨⟨sum, by rw [hpath, LayerStore.tmpPath, LayerStore.tmpPath, hroot]⟩, fun d hd => ?_⟩
    obtain ⟨d₀, hd₀, hds, -⟩ := hback path d hd
    rw [hds]
    exact hserial d₀ hd₀
  refine ⟨fun q r d e hd he heq => ?_, fun q d hd => ?_, fun j p₁ hj => ?_, fun id hlid d hd => ?_,
    fun c hc => ?_, h.apart⟩
  · obtain ⟨d₀, hd₀, hds, -⟩ := hback q d hd
    obtain ⟨e₀, he₀, hes, -⟩ := hback r e he
    exact h.serials q r d₀ e₀ hd₀ he₀ (by rw [← hds, ← hes, heq])
  · obtain ⟨d₀, hd₀, hds, -⟩ := hback q d hd
    rw [hds, List.length_set]
    exact h.bound q d₀ hd₀
  · by_cases hjk : j = k
    · subst hjk
      cases hself.symm.trans hj
      refine ⟨hnext, hfed, fun path hpath => ?_, hinside, hexited⟩
      exact htmp path j ((h.procs j p hk).start path (hstart path hpath))
    · rw [hother j hjk] at hj
      obtain ⟨h₁, h₂, h₃, h₄, h₅⟩ := h.procs j p₁ hj
      exact ⟨h₁, h₂, fun path hpath => htmp path j (h₃ path hpath), h₄, h₅⟩
  · have hlayer : store.layerPath id = s.store.layerPath id := by
      rw [LayerStore.layerPath, LayerStore.layerPath, hroot]
    obtain ⟨d₀, hd₀, hds, hne, hsame⟩ := hback _ d (hlayer ▸ hd)
    obtain ⟨hwhole, p₀, err, hp₀, herr⟩ := h.layers id hlid d₀ hd₀
    by_cases hserial : d₀.serial = k
    · -- the process of a layer has exited, and writes no more
      rw [hserial, hk] at hp₀
      cases hp₀
      obtain ⟨hpc, hf⟩ := hexit err herr
      rw [hsame hf]
      exact ⟨hwhole, p', err, by rw [hserial]; exact hself, by rw [hpc]; exact herr⟩
    · rw [hne hserial]
      exact ⟨hwhole, p₀, err, by rw [← hp₀]; exact hother _ hserial, herr⟩
  · obtain ⟨h₁, h₂, h₃, h₄, h₅⟩ := h.calls c hc
    refine ⟨h₁, h₂, fun tmp j hw => htmp tmp j (h₃ tmp j hw), fun tmp j hw => ?_,
      fun tmp j p₁ hb hj => ?_⟩
    · obtain ⟨p₁, hp₁, harch, hkn⟩ := h₄ tmp j hw
      by_cases hjk : j = k
      · subst hjk
        cases hk.symm.trans hp₁
        exact ⟨p', hself, harchive.trans harch, hknows c hc tmp hw hkn⟩
      · exact ⟨p₁, by rw [← hp₁]; exact hother j hjk, harch, hkn⟩
    · by_cases hjk : j = k
      · subst hjk
        cases hself.symm.trans hj
        obtain ⟨d, hd, hdata'⟩ := h₅ tmp j p hb hk
        have hserial := (h₃ tmp j (AddPc.work_of_building hb)).2 d hd
        refine ⟨{ d with data := f d.data }, ?_, ?_⟩
        · rw [hstat, hd, Option.map_some, if_pos hserial]
        · rw [hdata', hdata, harchive]
      · rw [hother j hjk] at hj
        obtain ⟨d, hd, hdata'⟩ := h₅ tmp j p₁ hb hj
        have hserial := (h₃ tmp j (AddPc.work_of_building hb)).2 d hd
        refine ⟨d, ?_, hdata'⟩
        have hne : d.serial ≠ k := fun e => hjk (hserial.symm.trans e)
        rw [hstat, hd, Option.map_some, if_neg hne]

/-- A process moves on, and writes nothing. -/
theorem Inv.setProc (h : s.Inv bsdtar) (hk : s.procs[k]? = some p) {p' : Proc ε}
    (hexit : ∀ err, p.pc = .exited err → p'.pc = p.pc) (harchive : p'.archive = p.archive)
    (hnext : p'.next = p.next) (hle : p.next ≤ p'.fed) (hfed : p'.fed ≤ p'.archive.length)
    (hstart : ∀ path, p'.pc = .start path → p.pc = .start path)
    (hinside : ∀ serial, p'.pc = .inside serial → serial = k)
    (hexited : p'.pc = .exited none →
      p'.next = p'.fed ∧ (p'.closed = true ∨ p'.fed = p'.archive.length))
    (hknows : ∀ call ∈ s.calls, ∀ tmp, call.pc.work = some (tmp, k) → call.pc.Knows p →
      call.pc.Knows p') : (s.setProc k p').Inv bsdtar := by
  have hstat : ∀ q, s.store.stat q = (s.store.stat q).map fun d =>
      if d.serial = k then { d with data := id d.data } else d := by
    intro q
    simp
  exact h.write hk id rfl hstat (fun err herr => ⟨hexit err herr, rfl⟩) harchive (hnext ▸ hle) hfed
    hstart hinside hexited hknows (by rw [hnext]; rfl)

/-- Directories change which no call and no process counts on. -/
theorem Inv.setStore (h : s.Inv bsdtar) {store : LayerStore (Dir γ)}
    (hroot : store.root = s.store.root)
    (hserials : ∀ p q d e, store.stat p = some d → store.stat q = some e →
      d.serial = e.serial → p = q)
    (hbound : ∀ path d, store.stat path = some d → d.serial < s.procs.length)
    (htmps : ∀ path d, s.IsTmp path → store.stat path = some d →
      ∃ d₀, s.store.stat path = some d₀ ∧ d.serial = d₀.serial)
    (hlayers : ∀ id, LayerId id → ∀ d, store.stat (s.store.layerPath id) = some d →
      s.Whole bsdtar id d)
    (hbuilt : ∀ call ∈ s.calls, ∀ tmp k, call.pc.building = some (tmp, k) →
      store.stat tmp = s.store.stat tmp) : Inv bsdtar { s with store } := by
  have htmp : ∀ path, s.IsTmp path → IsTmp { s with store } path := by
    rintro path ⟨sum, rfl⟩
    exact ⟨sum, by rw [LayerStore.tmpPath, LayerStore.tmpPath, hroot]⟩
  refine ⟨hserials, hbound, fun j p hj => ?_, fun id hlid d hd => ?_, fun c hc => ?_,
    h.apart⟩
  · obtain ⟨h₁, h₂, h₃, h₄, h₅⟩ := h.procs j p hj
    refine ⟨h₁, h₂, fun path hpath => ?_, h₄, h₅⟩
    obtain ⟨hist, hserial⟩ := h₃ path hpath
    refine ⟨htmp path hist, fun d hd => ?_⟩
    obtain ⟨d₀, hd₀, heq⟩ := htmps path d hist hd
    rw [heq]
    exact hserial d₀ hd₀
  · have hlayer : store.layerPath id = s.store.layerPath id := by
      rw [LayerStore.layerPath, LayerStore.layerPath, hroot]
    exact hlayers id hlid d (hlayer ▸ hd)
  · obtain ⟨h₁, h₂, h₃, h₄, h₅⟩ := h.calls c hc
    refine ⟨h₁, h₂, fun tmp j hw => ?_, h₄, fun tmp j p hb hj => ?_⟩
    · obtain ⟨hist, hserial⟩ := h₃ tmp j hw
      refine ⟨htmp tmp hist, fun d hd => ?_⟩
      obtain ⟨d₀, hd₀, heq⟩ := htmps tmp d hist hd
      rw [heq]
      exact hserial d₀ hd₀
    · show ∃ d, store.stat tmp = some d ∧ _
      rw [hbuilt c hc tmp j hb]
      exact h₅ tmp j p hb hj

/-- `Mktemp` makes a directory with a name that nobody uses, and the process for it. -/
theorem Inv.spawn (h : s.Inv bsdtar) {tmp : GoString} (htmp : s.IsTmp tmp)
    (hnew : s.store.stat tmp = none)
    (hcalls : ∀ call ∈ s.calls, ∀ tmp' k, call.pc.work = some (tmp', k) → tmp' ≠ tmp)
    (hstart : ∀ p ∈ s.procs, p.pc ≠ .start tmp) (archive : List ε) :
    (s.spawn bsdtar tmp archive).Inv bsdtar := by
  have hstat : ∀ q, (s.spawn bsdtar tmp archive).store.stat q =
      if q = tmp then some ⟨s.procs.length, bsdtar.empty⟩ else s.store.stat q :=
    LayerStore.stat_mkdir hnew
  have hother : ∀ q, q ≠ tmp → (s.spawn bsdtar tmp archive).store.stat q = s.store.stat q := by
    intro q hq
    rw [hstat, if_neg hq]
  have hself : ∀ q d, (s.spawn bsdtar tmp archive).store.stat q = some d →
      (q = tmp ∧ d.serial = s.procs.length) ∨ (q ≠ tmp ∧ s.store.stat q = some d) := by
    intro q d hd
    by_cases hq : q = tmp
    · rw [hstat, if_pos hq] at hd
      cases hd
      exact .inl ⟨hq, rfl⟩
    · rw [hother q hq] at hd
      exact .inr ⟨hq, hd⟩
  have hold : ∀ (j : Nat) p, s.procs[j]? = some p →
      (s.spawn bsdtar tmp archive).procs[j]? = some p := fun _ _ => List.getElem?_concat_of_some
  refine ⟨fun q r d e hd he heq => ?_, fun q d hd => ?_, fun j p hj => ?_, fun id hlid d hd => ?_,
    fun c hc => ?_, h.apart⟩
  · -- the serial number of the new directory is higher than all others
    obtain ⟨hq, hds⟩ | ⟨-, hd⟩ := hself q d hd <;> obtain ⟨hr, hes⟩ | ⟨-, he⟩ := hself r e he
    · rw [hq, hr]
    · have hlt := h.bound r e he
      omega
    · have hlt := h.bound q d hd
      omega
    · exact h.serials q r d e hd he heq
  · have hlength : (s.spawn bsdtar tmp archive).procs.length = s.procs.length + 1 := by
      simp [Adding.spawn]
    obtain ⟨-, hds⟩ | ⟨-, hd⟩ := hself q d hd
    · omega
    · have hlt := h.bound q d hd
      omega
  · -- the other processes have other directories
    obtain hj₀ | ⟨rfl, rfl⟩ := List.getElem?_concat_cases hj
    · obtain ⟨h₁, h₂, h₃, h₄, h₅⟩ := h.procs j p hj₀
      refine ⟨h₁, h₂, fun path hpath => ?_, h₄, h₅⟩
      have hne : path ≠ tmp := by
        rintro rfl
        exact hstart p (List.mem_of_getElem? hj₀) hpath
      obtain ⟨hist, hserial⟩ := h₃ path hpath
      exact ⟨hist, fun d hd => hserial d ((hother path hne).symm.trans hd)⟩
    · refine ⟨Nat.le_refl _, Nat.zero_le _, fun path hpath => ?_, by simp, by simp⟩
      cases hpath
      refine ⟨htmp, fun d hd => ?_⟩
      obtain ⟨-, hds⟩ | ⟨hne, -⟩ := hself tmp d hd
      · exact hds
      · exact absurd rfl hne
  · -- a temporary directory is not the path of a layer
    obtain ⟨sum, hsum⟩ := htmp
    have hne : s.store.layerPath id ≠ tmp := by
      rw [hsum]
      exact layerPath_ne_tmpPath s.store hlid sum
    obtain ⟨hwhole, p, err, hp, herr⟩ := h.layers id hlid d ((hother _ hne).symm.trans hd)
    exact ⟨hwhole, p, err, hold _ _ hp, herr⟩
  · obtain ⟨h₁, h₂, h₃, h₄, h₅⟩ := h.calls c hc
    refine ⟨h₁, h₂, fun tmp' j hw => ?_, fun tmp' j hw => ?_, fun tmp' j p hb hj => ?_⟩
    · obtain ⟨hist, hserial⟩ := h₃ tmp' j hw
      exact ⟨hist, fun d hd => hserial d ((hother tmp' (hcalls c hc tmp' j hw)).symm.trans hd)⟩
    · obtain ⟨p, hp, hrest⟩ := h₄ tmp' j hw
      exact ⟨p, hold _ _ hp, hrest⟩
    · have hw := AddPc.work_of_building hb
      obtain ⟨p', hp', -⟩ := h₄ tmp' j hw
      cases (hold _ _ hp').symm.trans hj
      obtain ⟨d, hd, hdata⟩ := h₅ tmp' j p hb hp'
      exact ⟨d, (hother tmp' (hcalls c hc tmp' j hw)).trans hd, hdata⟩

/-! ## Steps of a call -/

/-- What a step of a call does to the directories: it leaves them alone, makes a temporary one,
    gives it the path of the layer, or removes some of it or all. -/
inductive Acts (bsdtar : Bsdtar γ ε) (s : Adding γ ε) (call : AddCall ε) :
    AddAct γ → Adding γ ε → AddPc → Prop where
  | keep {a : AddAct γ} {s' : Adding γ ε} {pc' : AddPc} (hstore : s'.store = s.store)
      (hall : a ≠ .removeAll true)
      (hwork : (∃ all, a = .removeAll all) ∨ ∀ w, call.pc.work = some w → pc'.work = some w)
      (hadded : pc'.added = none ∨ pc'.added = call.pc.added ∨
        a = .has ∧ s.store.has call.id = true ∧ s' = s) :
      Acts bsdtar s call a s' pc'
  | mktemp {sum : Vector UInt8 32} {d : Dir γ} {s' : Adding γ ε} (hpc : call.pc = .mktemp)
      (hnew : s.store.stat (s.store.tmpPath (randomId sum)) = none)
      (hstore : s'.store = s.store.mkdir (s.store.tmpPath (randomId sum)) d) :
      Acts bsdtar s call (.mktemp sum none) s'
        (.copy (s.store.tmpPath (randomId sum)) s.procs.length)
  | rename {tmp : GoString} {k : Nat} {store : LayerStore (Dir γ)} (hpc : call.pc = .rename tmp k)
      (hrename : s.store.rename bsdtar.isEmpty tmp (s.store.layerPath call.id) = .ok store) :
      Acts bsdtar s call (.rename none) { s with store }
        (.removeAll tmp k (.ok (s.store.layerPath call.id)))
  | unlink {tmp : GoString} {k : Nat} {res : Except GoString GoString} {left : γ}
      {s' : Adding γ ε} (hpc : call.pc = .removeAll tmp k res)
      (hstore : s'.store = s.store.unlink tmp left) :
      Acts bsdtar s call (.unlink left) s' (.removeAll tmp k res)
  | removeAll {tmp : GoString} {k : Nat} {res : Except GoString GoString} {s' : Adding γ ε}
      (hpc : call.pc = .removeAll tmp k res) (hstore : s'.store = s.store.remove tmp) :
      Acts bsdtar s call (.removeAll true) s' (.done res)

theorem act_kinds {s' : Adding γ ε} {a : AddAct γ} {pc' : AddPc}
    (hact : s.act bsdtar call a = some (s', pc')) :
    s'.calls = s.calls ∧ s'.given = s.given ∧ Acts bsdtar s call a s' pc' := by
  unfold Adding.act at hact
  simp only at hact
  split at hact
  · next hpc =>
    split at hact <;> cases hact <;>
      exact ⟨rfl, rfl, .keep rfl (by simp) (.inr (by simp [hpc, AddPc.work])) (.inl rfl)⟩
  · next sum err hpc =>
    have hwork : ∀ {pc : AddPc}, ∀ w, call.pc.work = some w → pc.work = some w := by
      simp [hpc, AddPc.work]
    split at hact
    · cases hact
      exact ⟨rfl, rfl, .keep rfl (by simp) (.inr hwork) (.inl rfl)⟩
    · split at hact
      · cases hact
        exact ⟨rfl, rfl, .keep rfl (by simp) (.inr hwork) (.inl rfl)⟩
      · next hnew =>
        cases hact
        exact ⟨rfl, rfl, .mktemp hpc (by simpa using hnew) rfl⟩
  -- while it copies, waits and looks, the call keeps its directory
  · next tmp k hpc =>
    obtain ⟨p, hp, hfeed⟩ := Option.bind_eq_some_iff.mp hact
    split at hfeed
    · cases hfeed
      exact ⟨rfl, rfl, .keep rfl (by simp) (.inr (by rw [hpc]; exact fun _ hw => hw)) (.inl rfl)⟩
    · simp at hfeed
  · next tmp k err hpc =>
    obtain ⟨p, hp, hcopied⟩ := Option.bind_eq_some_iff.mp hact
    split at hcopied
    · cases hcopied
      exact ⟨rfl, rfl, .keep rfl (by simp) (.inr (by rw [hpc]; exact fun _ hw => hw)) (.inl rfl)⟩
    · split at hcopied
      · cases hcopied
        exact ⟨rfl, rfl, .keep rfl (by simp) (.inr (by rw [hpc]; exact fun _ hw => hw)) (.inl rfl)⟩
      · simp at hcopied
  · next tmp k hpc =>
    obtain ⟨p, hp, hwait⟩ := Option.bind_eq_some_iff.mp hact
    split at hwait
    · cases hwait
      exact ⟨rfl, rfl, .keep rfl (by simp) (.inr (by rw [hpc]; exact fun _ hw => hw)) (.inl rfl)⟩
    · cases hwait
      exact ⟨rfl, rfl, .keep rfl (by simp) (.inr (by rw [hpc]; exact fun _ hw => hw)) (.inl rfl)⟩
    · simp at hwait
  · next tmp k hpc =>
    split at hact
    · next hhas =>
      cases hact
      exact ⟨rfl, rfl, .keep rfl (by simp) (.inr (by rw [hpc]; exact fun _ hw => hw))
        (.inr (.inr ⟨rfl, hhas, rfl⟩))⟩
    · cases hact
      exact ⟨rfl, rfl, .keep rfl (by simp) (.inr (by rw [hpc]; exact fun _ hw => hw)) (.inl rfl)⟩
  · next tmp k err hpc =>
    split at hact
    · cases hact
      exact ⟨rfl, rfl, .keep rfl (by simp) (.inr (by rw [hpc]; exact fun _ hw => hw)) (.inl rfl)⟩
    · split at hact
      · cases hact
        exact ⟨rfl, rfl, .keep rfl (by simp) (.inr (by rw [hpc]; exact fun _ hw => hw)) (.inl rfl)⟩
      · next store hrename =>
        cases hact
        exact ⟨rfl, rfl, .rename hpc hrename⟩
  · next tmp k res left hpc =>
    cases hact
    exact ⟨rfl, rfl, .unlink hpc rfl⟩
  · next tmp k res all hpc =>
    cases hact
    cases all with
    | false =>
      have hadded : (AddPc.done res).added = call.pc.added := by rw [hpc]; cases res <;> rfl
      exact ⟨rfl, rfl, .keep rfl (by simp) (.inl ⟨false, rfl⟩) (.inr (.inl hadded))⟩
    | true => exact ⟨rfl, rfl, .removeAll hpc rfl⟩
  · simp at hact

/-- A call that keeps its directory and its process, or gives them up. -/
theorem Inv.moveCall (h : s.Inv bsdtar) (hi : s.calls[i]? = some call) {pc : AddPc}
    (hw : ∀ w, pc.work = some w → call.pc.work = some w)
    (hb : ∀ w, pc.building = some w → call.pc.building = some w)
    (hknows : ∀ tmp k p, pc.work = some (tmp, k) → s.procs[k]? = some p → call.pc.Knows p →
      pc.Knows p) : Inv bsdtar { s with calls := s.calls.set i { call with pc } } := by
  obtain ⟨h₁, h₂, h₃, h₄, h₅⟩ := h.calls call (List.mem_of_getElem? hi)
  apply h.setCall
  · refine ⟨h₁, h₂, fun tmp k hwork => h₃ tmp k (hw _ hwork), fun tmp k hwork => ?_,
      fun tmp k p hbuild => h₅ tmp k p (hb _ hbuild)⟩
    obtain ⟨p, hp, harch, hkn⟩ := h₄ tmp k (hw _ hwork)
    exact ⟨p, hp, harch, hknows tmp k p hwork hp hkn⟩
  · intro j c hj hji tmp k tmp' k' hwork hwork'
    exact h.apart i j call c hi hj (fun e => hji e.symm) tmp k tmp' k' (hw _ hwork) hwork'

/-- A call that has nothing to build any more. -/
theorem Inv.stopCall (h : s.Inv bsdtar) (hi : s.calls[i]? = some call) {pc : AddPc}
    (hw : pc.work = none) : Inv bsdtar { s with calls := s.calls.set i { call with pc } } := by
  have hb := AddPc.building_of_work hw
  apply h.moveCall hi
  · simp [hw]
  · simp [hb]
  · simp [hw]

theorem Inv.giveUp (h : s.Inv bsdtar) (hi : s.calls[i]? = some call) {tmp : GoString}
    (hw : call.pc.work = some (tmp, k)) (res : Except GoString GoString) :
    Inv bsdtar { s with calls := s.calls.set i { call with pc := .removeAll tmp k res } } := by
  apply h.moveCall hi
  · intro w hw'
    cases hw'
    exact hw
  · simp [AddPc.building]
  · exact fun _ _ _ _ _ _ => trivial

/-- A call that goes on building, with what it knows of its process then. -/
theorem Inv.goOn (h : s.Inv bsdtar) (hi : s.calls[i]? = some call) {tmp : GoString} {pc : AddPc}
    (hb : call.pc.building = some (tmp, k)) (hb' : pc.building = some (tmp, k))
    (hknows : ∀ p, s.procs[k]? = some p → call.pc.Knows p → pc.Knows p) :
    Inv bsdtar { s with calls := s.calls.set i { call with pc } } := by
  have hw := AddPc.work_of_building hb
  have hw' := AddPc.work_of_building hb'
  apply h.moveCall hi
  · rw [hw, hw']
    exact fun _ h => h
  · rw [hb, hb']
    exact fun _ h => h
  · intro tmp₁ k₁ p hwork hp
    cases hw'.symm.trans hwork
    exact hknows p hp

/-- A process works for one call. -/
theorem Inv.only (h : s.Inv bsdtar) (hi : s.calls[i]? = some call) {tmp tmp' : GoString}
    (hw : call.pc.work = some (tmp, k)) {c : AddCall ε} (hc : c ∈ s.calls)
    (hw' : c.pc.work = some (tmp', k)) : c = call := by
  obtain ⟨j, hj⟩ := List.mem_iff_getElem?.mp hc
  by_cases hji : j = i
  · subst hji
    cases hi.symm.trans hj
    rfl
  · exact absurd rfl (h.apart j i c call hj hi hji tmp' k tmp k hw' hw).2

theorem Inv.feed (h : s.Inv bsdtar) (hp : s.procs[k]? = some p) (hopen : p.closed = false)
    (hlt : p.fed < p.archive.length) : (s.setProc k { p with fed := p.fed + 1 }).Inv bsdtar := by
  obtain ⟨hnext, -, -, hinside, hexited⟩ := h.procs k p hp
  apply h.setProc hp
  · exact fun _ _ => rfl
  · rfl
  · rfl
  · exact Nat.le_succ_of_le hnext
  · exact hlt
  · exact fun _ hpc => hpc
  · exact hinside
  · intro hpc
    obtain ⟨-, hclosed | hfed⟩ := hexited hpc
    · rw [hopen] at hclosed
      simp at hclosed
    · omega
  · exact fun c _ tmp _ hk => hk.feed hnext hlt

theorem Inv.close (h : s.Inv bsdtar) (hi : s.calls[i]? = some call) {tmp : GoString}
    (hw : call.pc.work = some (tmp, k)) (hcopy : ∀ tmp, call.pc ≠ .copy tmp k)
    (hp : s.procs[k]? = some p) : (s.setProc k { p with closed := true }).Inv bsdtar := by
  obtain ⟨hnext, hfed, -, hinside, hexited⟩ := h.procs k p hp
  apply h.setProc hp
  · exact fun _ _ => rfl
  · rfl
  · rfl
  · exact hnext
  · exact hfed
  · exact fun _ hpc => hpc
  · exact hinside
  · exact fun hpc => ⟨(hexited hpc).1, .inl rfl⟩
  · intro c hc tmp' hw' hk
    cases h.only hi hw hc hw'
    exact hk.close hw' (hcopy tmp')

/-- The directory of a call that builds no more is not that of a call that does. -/
theorem Inv.tmp_ne (h : s.Inv bsdtar) (hi : s.calls[i]? = some call) {tmp : GoString}
    (hw : call.pc.work = some (tmp, k)) (hb : call.pc.building = none) {c : AddCall ε}
    (hc : c ∈ s.calls) {tmp' : GoString} {k' : Nat} (hb' : c.pc.building = some (tmp', k')) :
    tmp' ≠ tmp := by
  obtain ⟨j, hj⟩ := List.mem_iff_getElem?.mp hc
  have hji : j ≠ i := by
    rintro rfl
    cases hi.symm.trans hj
    rw [hb] at hb'
    simp at hb'
  exact (h.apart j i c call hj hi hji tmp' k' tmp k (AddPc.work_of_building hb') hw).1

/-- What is left of the directory of a call that builds no more. -/
theorem Inv.setTmp (h : s.Inv bsdtar) (hi : s.calls[i]? = some call) {tmp : GoString}
    (hw : call.pc.work = some (tmp, k)) (hb : call.pc.building = none)
    {store : LayerStore (Dir γ)} (hroot : store.root = s.store.root)
    (hother : ∀ q, q ≠ tmp → store.stat q = s.store.stat q)
    (htmp : ∀ d, store.stat tmp = some d →
      ∃ d₀, s.store.stat tmp = some d₀ ∧ d.serial = d₀.serial) :
    Inv bsdtar { s with store } := by
  have hback : ∀ q d, store.stat q = some d →
      ∃ d₀, s.store.stat q = some d₀ ∧ d.serial = d₀.serial := by
    intro q d hd
    by_cases hq : q = tmp
    · subst hq
      exact htmp d hd
    · exact ⟨d, (hother q hq).symm.trans hd, rfl⟩
  obtain ⟨⟨sum, hsum⟩, -⟩ := (h.calls call (List.mem_of_getElem? hi)).tmp tmp k hw
  apply h.setStore hroot
  · intro q r d e hd he heq
    obtain ⟨d₀, hd₀, hds⟩ := hback q d hd
    obtain ⟨e₀, he₀, hes⟩ := hback r e he
    exact h.serials q r d₀ e₀ hd₀ he₀ (by rw [← hds, ← hes, heq])
  · intro q d hd
    obtain ⟨d₀, hd₀, hds⟩ := hback q d hd
    rw [hds]
    exact h.bound q d₀ hd₀
  · exact fun q d _ hd => hback q d hd
  · intro id hlid d hd
    have hne : s.store.layerPath id ≠ tmp := by
      rw [hsum]
      exact layerPath_ne_tmpPath s.store hlid sum
    exact h.layers id hlid d ((hother _ hne).symm.trans hd)
  · exact fun c hc tmp' k' hb' => hother tmp' (h.tmp_ne hi hw hb hc hb')

/-- The rename: the directory is whole, and its process has exited. -/
theorem Inv.rename (h : s.Inv bsdtar) (hi : s.calls[i]? = some call) {tmp : GoString}
    (hpc : call.pc = .rename tmp k) {store : LayerStore (Dir γ)}
    (hrename : s.store.rename bsdtar.isEmpty tmp (s.store.layerPath call.id) = .ok store)
    (res : Except GoString GoString) :
    Inv bsdtar { s with
      store, calls := s.calls.set i { call with pc := .removeAll tmp k res } } := by
  have hcall := h.calls call (List.mem_of_getElem? hi)
  have hw : call.pc.work = some (tmp, k) := by
    rw [hpc]
    rfl
  obtain ⟨p, hp, harch, hknows⟩ := hcall.proc tmp k hw
  rw [hpc] at hknows
  obtain ⟨hexited, hnext⟩ := hknows
  obtain ⟨d, hd, hdata⟩ := hcall.built tmp k p (by rw [hpc]; rfl) hp
  have hserial : d.serial = k := (hcall.tmp tmp k hw).2 d hd
  have hwhole : s.Whole bsdtar call.id d := by
    refine ⟨⟨call.archive, hcall.given, ?_⟩, p, none, by rw [hserial]; exact hp, hexited⟩
    rw [hdata, hnext, List.take_length, harch]
  obtain ⟨hroot, d', hd', hstat⟩ := LayerStore.rename_ok hrename
  cases hd.symm.trans hd'
  -- what is found is the new layer, or was there before and is neither of the two
  have hback : ∀ q e, store.stat q = some e →
      (q = s.store.layerPath call.id ∧ e = d) ∨ (q ≠ tmp ∧ s.store.stat q = some e) := by
    intro q e he
    rw [hstat] at he
    split at he
    · next hq => exact .inl ⟨hq, (Option.some.inj he).symm⟩
    · split at he
      · simp at he
      · next hq => exact .inr ⟨hq, he⟩
  have hne : ∀ path, s.IsTmp path → path ≠ s.store.layerPath call.id := by
    rintro path ⟨sum, rfl⟩ heq
    exact layerPath_ne_tmpPath s.store hcall.id sum heq.symm
  have hmoved : Inv bsdtar { s with
      calls := s.calls.set i { call with pc := .removeAll tmp k res } } :=
    h.giveUp hi hw res
  apply hmoved.setStore hroot
  · intro q r e f he hf heq
    obtain ⟨hq, rfl⟩ | ⟨hq, he⟩ := hback q e he <;> obtain ⟨hr, rfl⟩ | ⟨hr, hf⟩ := hback r f hf
    · rw [hq, hr]
    · exact absurd (h.serials r tmp f e hf hd heq.symm) hr
    · exact absurd (h.serials q tmp e f he hd heq) hq
    · exact h.serials q r e f he hf heq
  · intro q e he
    obtain ⟨-, rfl⟩ | ⟨-, he⟩ := hback q e he
    · exact h.bound tmp e hd
    · exact h.bound q e he
  · intro q e hist he
    obtain ⟨hq, -⟩ | ⟨-, he⟩ := hback q e he
    · exact absurd hq (hne q hist)
    · exact ⟨e, he, rfl⟩
  · intro id hlid e he
    obtain ⟨hq, rfl⟩ | ⟨-, he⟩ := hback _ e he
    · rw [pathJoin_injective s.store.root hlid.plain hcall.id.plain hq]
      exact hwhole
    · exact h.layers id hlid e he
  · intro c hc tmp' k' hb'
    have hlt := (List.getElem?_eq_some_iff.mp hi).1
    have hne' : tmp' ≠ tmp :=
      hmoved.tmp_ne (List.getElem?_set_self hlt) (by rfl) (by rfl) hc hb'
    have hist := (hmoved.calls c hc).tmp tmp' k' (AddPc.work_of_building hb')
    show store.stat tmp' = s.store.stat tmp'
    rw [hstat, if_neg (hne tmp' hist.1), if_neg hne']

/-- The random name of a directory that `Mktemp` makes is not that of one which a call is still to
    remove, or which a process is still to enter. -/
def DrawsFresh (s : Adding γ ε) : AddOp γ ε → Prop
  | .call _ (.mktemp sum none) =>
    s.store.stat (s.store.tmpPath (randomId sum)) = none →
      (∀ call ∈ s.calls, ∀ w ∈ call.pc.work, w.1 ≠ s.store.tmpPath (randomId sum)) ∧
      ∀ p ∈ s.procs, p.pc ≠ .start (s.store.tmpPath (randomId sum))
  | _ => True

instance (s : Adding γ ε) : (op : AddOp γ ε) → Decidable (s.DrawsFresh op)
  | .call _ (.mktemp sum none) =>
    decidable_of_iff ((s.store.stat (s.store.tmpPath (randomId sum))).isNone = true →
      (∀ call ∈ s.calls, ∀ w ∈ call.pc.work, w.1 ≠ s.store.tmpPath (randomId sum)) ∧
        ∀ p ∈ s.procs, p.pc ≠ .start (s.store.tmpPath (randomId sum)))
      (imp_congr_left Option.isNone_iff_eq_none)
  | .call _ (.mktemp _ (some _)) | .call _ .stat | .call _ .feed | .call _ (.copied _)
  | .call _ .wait | .call _ .has | .call _ (.rename _) | .call _ (.unlink _)
  | .call _ (.removeAll _) | .add .. | .enter _ | .extract _ | .exit .. | .crash =>
    inferInstanceAs (Decidable True)

theorem Inv.mktemp (h : s.Inv bsdtar) (hi : s.calls[i]? = some call) {sum : Vector UInt8 32}
    (hfresh : s.DrawsFresh (.call i (.mktemp sum none)))
    (hnew : s.store.stat (s.store.tmpPath (randomId sum)) = none) :
    Inv bsdtar { s.spawn bsdtar (s.store.tmpPath (randomId sum)) call.archive with
      calls := s.calls.set i
        { call with pc := .copy (s.store.tmpPath (randomId sum)) s.procs.length } } := by
  obtain ⟨hcalls, hstart⟩ := hfresh hnew
  have hspawned := h.spawn ⟨sum, rfl⟩ hnew (fun c hc tmp' k hw => hcalls c hc (tmp', k) hw)
    hstart call.archive
  have hdir : (s.spawn bsdtar (s.store.tmpPath (randomId sum)) call.archive).store.stat
      (s.store.tmpPath (randomId sum)) = some ⟨s.procs.length, bsdtar.empty⟩ := by
    rw [Adding.spawn, LayerStore.stat_mkdir hnew, if_pos rfl]
  have hproc : (s.procs ++ [⟨call.archive, 0, false, 0,
      .start (s.store.tmpPath (randomId sum))⟩])[s.procs.length]? = some ⟨call.archive, 0, false, 0,
      .start (s.store.tmpPath (randomId sum))⟩ := List.getElem?_concat_length
  obtain ⟨h₁, h₂, -, -, -⟩ := h.calls call (List.mem_of_getElem? hi)
  apply hspawned.setCall
  · refine ⟨h₁, h₂, fun tmp k hw => ?_, fun tmp k hw => ?_, fun tmp k p hb hp => ?_⟩
    · cases hw
      refine ⟨⟨sum, rfl⟩, fun d hd => ?_⟩
      cases hdir.symm.trans hd
      rfl
    · cases hw
      exact ⟨_, hproc, rfl, rfl⟩
    · cases hb
      cases hproc.symm.trans hp
      exact ⟨_, hdir, rfl⟩
  · intro j c hj hji tmp k tmp' k' hw hw'
    cases hw
    have hmem := List.mem_of_getElem? hj
    refine ⟨fun heq => hcalls c hmem (tmp', k') hw' heq.symm, ?_⟩
    obtain ⟨p, hp, -⟩ := (h.calls c hmem).proc tmp' k' hw'
    have hlt := (List.getElem?_eq_some_iff.mp hp).1
    omega

theorem Inv.act (h : s.Inv bsdtar) (hi : s.calls[i]? = some call) {a : AddAct γ}
    {s' : Adding γ ε} {pc' : AddPc} (hfresh : s.DrawsFresh (.call i a))
    (hact : s.act bsdtar call a = some (s', pc')) :
    Inv bsdtar { s' with calls := s.calls.set i { call with pc := pc' } } := by
  have hcall := h.calls call (List.mem_of_getElem? hi)
  have hlt := (List.getElem?_eq_some_iff.mp hi).1
  unfold Adding.act at hact
  simp only at hact
  split at hact
  · split at hact <;> cases hact <;> exact h.stopCall hi rfl
  · next sum err hpc =>
    split at hact
    · cases hact
      exact h.stopCall hi rfl
    · split at hact
      · cases hact
        exact h.stopCall hi rfl
      · next hnew =>
        cases hact
        exact h.mktemp hi hfresh (by simpa using hnew)
  · next tmp k hpc =>
    have hb : call.pc.building = some (tmp, k) := by rw [hpc]; rfl
    obtain ⟨p, hp, hfeed⟩ := Option.bind_eq_some_iff.mp hact
    split at hfeed
    · next hmore =>
      cases hfeed
      have hmoved : Inv bsdtar { s with
          calls := s.calls.set i { call with pc := .copy tmp k } } :=
        h.goOn hi hb rfl (by rw [hpc]; exact fun _ _ hk => hk)
      obtain ⟨p', hp', -, hopen⟩ := hcall.proc tmp k (AddPc.work_of_building hb)
      cases hp.symm.trans hp'
      rw [hpc] at hopen
      exact hmoved.feed hp hopen hmore
    · simp at hfeed
  · next tmp k err hpc =>
    have hb : call.pc.building = some (tmp, k) := by rw [hpc]; rfl
    obtain ⟨p, hp, hcopied⟩ := Option.bind_eq_some_iff.mp hact
    split at hcopied
    · next err =>
      cases hcopied
      have hmoved := h.giveUp hi (AddPc.work_of_building hb) (.error err)
      exact hmoved.close (List.getElem?_set_self hlt) (by rfl) (by simp) hp
    · split at hcopied
      · next hfed =>
        cases hcopied
        have hmoved : Inv bsdtar { s with
            calls := s.calls.set i { call with pc := .wait tmp k } } := by
          apply h.goOn hi hb rfl
          intro p' hp' _
          cases hp.symm.trans hp'
          exact hfed
        exact hmoved.close (List.getElem?_set_self hlt) (by rfl) (by simp) hp
      · simp at hcopied
  · next tmp k hpc =>
    have hb : call.pc.building = some (tmp, k) := by rw [hpc]; rfl
    obtain ⟨p, hp, hwait⟩ := Option.bind_eq_some_iff.mp hact
    split at hwait
    · cases hwait
      exact h.giveUp hi (AddPc.work_of_building hb) _
    · next hexit =>
      cases hwait
      apply h.goOn hi hb rfl
      intro p' hp' hk
      cases hp.symm.trans hp'
      rw [hpc] at hk
      have hfed : p.fed = p.archive.length := hk
      -- the process has unpacked all that it was fed
      exact ⟨hexit, ((h.procs k p hp).exited hexit).1.trans hfed⟩
    · simp at hwait
  · next tmp k hpc =>
    have hb : call.pc.building = some (tmp, k) := by rw [hpc]; rfl
    split at hact
    · cases hact
      exact h.giveUp hi (AddPc.work_of_building hb) _
    · cases hact
      exact h.goOn hi hb rfl (by rw [hpc]; exact fun _ _ hk => hk)
  · next tmp k err hpc =>
    have hw : call.pc.work = some (tmp, k) := by rw [hpc]; rfl
    split at hact
    · cases hact
      exact h.giveUp hi hw _
    · split at hact
      · cases hact
        exact h.giveUp hi hw _
      · next hrename =>
        cases hact
        exact h.rename hi hpc hrename _
  · next tmp k res left hpc =>
    have hw : call.pc.work = some (tmp, k) := by rw [hpc]; rfl
    cases hact
    have hstore : Inv bsdtar { s with store := s.store.unlink tmp left } := by
      refine h.setTmp hi hw (by rw [hpc]; rfl) rfl ?_ ?_
      · intro q hq
        rw [LayerStore.stat_unlink]
        simp [hq]
      · intro d hd
        rw [LayerStore.stat_unlink] at hd
        obtain ⟨d₀, hd₀, rfl⟩ := Option.map_eq_some_iff.mp hd
        exact ⟨d₀, hd₀, by simp⟩
    exact hstore.giveUp hi hw res
  · next tmp k res all hpc =>
    have hw : call.pc.work = some (tmp, k) := by rw [hpc]; rfl
    cases hact
    split
    · have hstore : Inv bsdtar { s with store := s.store.remove tmp } := by
        refine h.setTmp hi hw (by rw [hpc]; rfl) rfl ?_ ?_
        · intro q hq
          rw [LayerStore.stat_remove, if_neg hq]
        · intro d hd
          rw [LayerStore.stat_remove, if_pos rfl] at hd
          simp at hd
      exact hstore.stopCall hi rfl
    · exact h.stopCall hi rfl
  · simp at hact

/-! ## Steps of a process, and crashes -/

/-- A process that has not exited enters its directory, or exits. -/
theorem Inv.moveProc (h : s.Inv bsdtar) (hp : s.procs[k]? = some p)
    (hrun : ∀ err, p.pc ≠ .exited err) {pc : ProcPc} (hstart : ∀ path, pc ≠ .start path)
    (hinside : ∀ serial, pc = .inside serial → serial = k)
    (hexited : pc = .exited none →
      p.next = p.fed ∧ (p.closed = true ∨ p.fed = p.archive.length)) :
    (s.setProc k { p with pc }).Inv bsdtar := by
  obtain ⟨hnext, hfed, -, -, -⟩ := h.procs k p hp
  apply h.setProc hp
  · exact fun err herr => absurd herr (hrun err)
  · rfl
  · rfl
  · exact hnext
  · exact hfed
  · exact fun path hpath => absurd hpath (hstart path)
  · exact hinside
  · exact hexited
  · exact fun c _ tmp _ hk => hk.move hrun p.next pc

theorem Inv.enter (h : s.Inv bsdtar) (hp : s.procs[k]? = some p) {s' : Adding γ ε}
    (henter : s.enter k p = some s') : s'.Inv bsdtar := by
  unfold Adding.enter at henter
  split at henter
  · next path hpc =>
    have hrun : ∀ err, p.pc ≠ .exited err := by simp [hpc]
    split at henter
    · cases henter
      exact h.moveProc hp hrun (by simp) (by simp) (by simp)
    · next d hd =>
      cases henter
      have hserial : d.serial = k := ((h.procs k p hp).start path hpc).2 d hd
      exact h.moveProc hp hrun (by simp) (by simp [hserial]) (by simp)
  · simp at henter

theorem Inv.extract (h : s.Inv bsdtar) (hp : s.procs[k]? = some p) {s' : Adding γ ε}
    (hextract : s.extract bsdtar k p = some s') : s'.Inv bsdtar := by
  obtain ⟨-, hfed, -, hinside, -⟩ := h.procs k p hp
  unfold Adding.extract at hextract
  split at hextract
  · next serial hpc =>
    have hrun : ∀ err, p.pc ≠ .exited err := by simp [hpc]
    cases hinside serial hpc
    split at hextract
    · next hmore =>
      obtain ⟨entry, hentry, hwrite⟩ := Option.bind_eq_some_iff.mp hextract
      split at hwrite
      · cases hwrite
        -- one entry more of the archive has been unpacked
        have htake : p.archive.take (p.next + 1) = p.archive.take p.next ++ [entry] := by
          rw [List.take_add_one, hentry]
          rfl
        apply h.write hp fun data => bsdtar.extract data entry
        · rfl
        · exact LayerStore.stat_update k _
        · exact fun err herr => absurd herr (hrun err)
        · rfl
        · exact hmore
        · exact hfed
        · exact fun _ hpath => hpath
        · exact hinside
        · exact fun hpc' => absurd hpc' (hrun none)
        · exact fun c _ tmp _ hk => hk.move hrun _ _
        · rw [htake, unpack_concat]
      · cases hwrite
        exact h.moveProc hp hrun (by simp) (by simp) (by simp)
    · simp at hextract
  · simp at hextract

theorem Inv.exit (h : s.Inv bsdtar) (hp : s.procs[k]? = some p) {err : Option GoString}
    {s' : Adding γ ε} (hexit : s.exit k p err = some s') : s'.Inv bsdtar := by
  unfold Adding.exit at hexit
  split at hexit
  · simp at hexit
  · next hrun =>
    cases hexit
    exact h.moveProc hp hrun (by simp) (by simp) (by simp)
  · next hpc =>
    have hrun : ∀ err, p.pc ≠ .exited err := by simp [hpc]
    split at hexit
    · next hend =>
      cases hexit
      exact h.moveProc hp hrun (by simp) (by simp) fun _ => hend
    · simp at hexit
  · simp at hexit

theorem Inv.crash (h : s.Inv bsdtar) :
    Inv bsdtar { s with calls := [], procs := s.procs.map fun p => { p with closed := true } } := by
  have hget : ∀ (j : Nat) p, (s.procs.map fun p => { p with closed := true })[j]? = some p →
      ∃ p₀, s.procs[j]? = some p₀ ∧ p = { p₀ with closed := true } := by
    intro j p hj
    rw [List.getElem?_map] at hj
    obtain ⟨p₀, hp₀, rfl⟩ := Option.map_eq_some_iff.mp hj
    exact ⟨p₀, hp₀, rfl⟩
  refine ⟨h.serials, fun q d hd => ?_, fun j p hj => ?_, fun id hlid d hd => ?_, by simp, by simp⟩
  · rw [List.length_map]
    exact h.bound q d hd
  · obtain ⟨p₀, hp₀, rfl⟩ := hget j p hj
    obtain ⟨h₁, h₂, h₃, h₄, h₅⟩ := h.procs j p₀ hp₀
    exact ⟨h₁, h₂, h₃, h₄, fun hpc => ⟨(h₅ hpc).1, .inl rfl⟩⟩
  · obtain ⟨hwhole, p, err, hp, herr⟩ := h.layers id hlid d hd
    refine ⟨hwhole, { p with closed := true }, err, ?_, herr⟩
    rw [List.getElem?_map, hp]
    rfl

theorem Inv.add (h : s.Inv bsdtar) {id : GoString} (hid : LayerId id) (archive : List ε) :
    Inv bsdtar { s with
      calls := s.calls ++ [⟨id, archive, .stat⟩]
      given := s.given ++ [(id, archive)] } := by
  refine ⟨h.serials, h.bound, fun j p hj => ?_, fun id' hid' d hd => ?_, fun c hc => ?_, ?_⟩
  · obtain ⟨h₁, h₂, h₃, h₄, h₅⟩ := h.procs j p hj
    exact ⟨h₁, h₂, h₃, h₄, h₅⟩
  · obtain ⟨⟨archive', hgiven, hdata⟩, hproc⟩ := h.layers id' hid' d hd
    exact ⟨⟨archive', List.mem_append_left _ hgiven, hdata⟩, hproc⟩
  · obtain hc | hc := List.mem_append.mp hc
    · obtain ⟨h₁, h₂, h₃, h₄, h₅⟩ := h.calls c hc
      exact ⟨h₁, List.mem_append_left _ h₂, h₃, h₄, h₅⟩
    · rw [List.mem_singleton.mp hc]
      exact ⟨hid, List.mem_append_right _ (List.mem_singleton_self _), by simp [AddPc.work],
        by simp [AddPc.work], by simp [AddPc.building]⟩
  · intro j₁ j₂ c c' hc hc' hne tmp k tmp' k' hw hw'
    -- the new call has no directory yet
    obtain hold | ⟨-, rfl⟩ := List.getElem?_concat_cases hc
    · obtain hold' | ⟨-, rfl⟩ := List.getElem?_concat_cases hc'
      · exact h.apart j₁ j₂ c c' hold hold' hne tmp k tmp' k' hw hw'
      · simp [AddPc.work] at hw'
    · simp [AddPc.work] at hw

theorem Inv.step (h : s.Inv bsdtar) {op : AddOp γ ε} {s' : Adding γ ε} (hfresh : s.DrawsFresh op)
    (hstep : s.step bsdtar op = some s') : s'.Inv bsdtar := by
  cases op with
  | add id archive =>
    simp only [Adding.step] at hstep
    split at hstep
    · next hid =>
      cases hstep
      exact h.add hid archive
    · cases hstep
  | call i a =>
    obtain ⟨call, hi, hmap⟩ := Option.bind_eq_some_iff.mp hstep
    obtain ⟨⟨s₁, pc⟩, hact, rfl⟩ := Option.map_eq_some_iff.mp hmap
    exact h.act hi hfresh hact
  | enter k =>
    obtain ⟨p, hp, henter⟩ := Option.bind_eq_some_iff.mp hstep
    exact h.enter hp henter
  | extract k =>
    obtain ⟨p, hp, hextract⟩ := Option.bind_eq_some_iff.mp hstep
    exact h.extract hp hextract
  | exit k err =>
    obtain ⟨p, hp, hexit⟩ := Option.bind_eq_some_iff.mp hstep
    exact h.exit hp hexit
  | crash =>
    cases hstep
    exact h.crash

end Adding

/-- Whatever the calls, the processes and the crashes of the daemon do, and in whatever order, as
    long as `Mktemp` makes no directory with a name that is still in use: if there is a layer with
    an id, its directory is the complete result of unpacking an archive that a call was given for
    this id. -/
theorem layer_published {s : Adding γ ε}
    (h : (addSystem bsdtar).ReachableVia Adding.DrawsFresh s) {id : GoString} (hid : LayerId id)
    (hget : s.store.get id ≠ []) :
    ∃ d archive, s.store.stat (s.store.get id) = some d ∧
      (id, archive) ∈ s.given ∧ d.data = bsdtar.unpack archive := by
  have hinv : s.Inv bsdtar := h.invariant (fun _ => Adding.Inv.fresh) fun _ _ _ hs hfresh hstep =>
    hs.step hfresh hstep
  have hhas : s.store.has id = true := by
    apply Classical.byContradiction
    intro hno
    rw [LayerStore.get, if_neg hno] at hget
    exact hget rfl
  obtain ⟨d, hd⟩ := Option.isSome_iff_exists.mp hhas
  obtain ⟨⟨archive, hgiven, hdata⟩, -⟩ := hinv.layers id hid d hd
  rw [LayerStore.get, if_pos hhas]
  exact ⟨d, archive, hd, hgiven, hdata⟩

/-- Directories as the lists of the entries they were made from. -/
def entries : Bsdtar (List Nat) Nat := ⟨[], List.isEmpty, fun data entry => data ++ [entry]⟩

def sumOf (b : UInt8) : Vector UInt8 32 := Vector.replicate 32 b

def idOf (b : UInt8) : GoString := randomId (sumOf b)

/-- A call is interrupted by a crash, which leaves its directory behind; the next one makes the
    layer. -/
theorem layer_published_afterCrash :
    ∃ s : Adding (List Nat) Nat, (addSystem entries).ReachableVia Adding.DrawsFresh s ∧
      s.store.dirs.length = 2 ∧
      ∃ d archive, s.store.stat (s.store.get (idOf 0)) = some d ∧
        (idOf 0, archive) ∈ s.given ∧ d.data = entries.unpack archive := by
  have hinit : (addSystem entries).ReachableVia Adding.DrawsFresh ⟨⟨str "/l", []⟩, [], [], []⟩ :=
    .init ⟨rfl, rfl, rfl, rfl⟩
  have hs := hinit.runVia
    [.add (idOf 0) [1, 2], .call 0 .stat, .call 0 (.mktemp (sumOf 1) none), .enter 0,
      .call 0 .feed, .extract 0, .crash, .add (idOf 0) [1, 2], .call 0 .stat,
      .call 0 (.mktemp (sumOf 2) none), .enter 1, .call 0 .feed, .call 0 .feed, .extract 1,
      .extract 1, .call 0 (.copied none), .exit 1 none, .call 0 .wait, .call 0 .has,
      .call 0 (.rename none)] rfl
  exact ⟨_, hs, rfl, layer_published hs (randomId_layerId _) (by decide)⟩

/-- Without the condition: a call cannot read its archive and returns, its process has not yet
    entered the directory, and another call draws the same name for its own directory. The
    process unpacks into that one, and the layer has an entry that is not of its archive. -/
theorem layer_mixed :
    ∃ (s : Adding (List Nat) Nat) (sum : Vector UInt8 32) (d : Dir (List Nat)),
      (addSystem entries).Reachable s ∧ s.store.get (randomId sum) ≠ [] ∧
      s.store.stat (s.store.get (randomId sum)) = some d ∧
      ∀ archive, (randomId sum, archive) ∈ s.given → d.data ≠ entries.unpack archive := by
  have hinit : (addSystem entries).Reachable ⟨⟨str "/l", []⟩, [], [], []⟩ :=
    .init ⟨rfl, rfl, rfl, rfl⟩
  have hs := hinit.run
    [.add (idOf 0) [1, 3], .call 0 .stat, .call 0 (.mktemp (sumOf 9) none), .call 0 .feed,
      .call 0 (.copied (some (str "unexpected EOF"))), .call 0 (.removeAll true),
      .add (idOf 1) [2], .call 1 .stat, .call 1 (.mktemp (sumOf 9) none), .enter 0, .enter 1,
      .call 1 .feed, .extract 1, .extract 0, .call 1 (.copied none), .exit 1 none, .call 1 .wait,
      .call 1 .has, .call 1 (.rename none)] rfl
  refine ⟨_, sumOf 1, ⟨1, [2, 1]⟩, hs, by decide, rfl, ?_⟩
  intro archive hgiven
  have hmem : (idOf 1, archive) ∈
      [(idOf 0, [1, 3]), (idOf 1, [2])] := hgiven
  have hne : idOf 1 ≠ idOf 0 := by decide
  have harchive : archive = [2] := by
    simpa [hne] using hmem
  rw [harchive]
  decide

end AddLayer

end Docker
