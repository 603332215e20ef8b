import DockerEngine.Native.Files

/-!
# Where `write` writes, and what is there afterwards

`OpenFile` cleans the path it has joined, so a path with enough `..` leaves the root of the
container and names any file of the host. So does a link of the image with a target from the root.

- `files_confined`: exactly which paths without a link stay in the container; when all files that
  are opened do, what is in a container depends on the requests for that container alone
- `written_bytes`: every byte of a file is that of the last write that was long enough
-/

namespace Docker

open Go

namespace WriteRequest

/-- The bytes that are written when the file can be opened. -/
def data (req : WriteRequest) : Option GoString :=
  match req.fault with
  | some (.openFile _) => none
  | some (.copy copied _) => some (req.stdin.take copied)
  | none => some req.stdin

/-- The container, the path and the bytes of a request. -/
def effect (req : WriteRequest) : Option (GoString × GoString × GoString) :=
  (fileArgs req.args).bind fun arg => req.data.map fun data => (arg.1, arg.2, data)

/-- The request is for this container. -/
def isFor (id : GoString) (req : WriteRequest) : Bool :=
  (fileArgs req.args).any fun arg => arg.1 = id

theorem fileArgs_of_effect {req : WriteRequest} {name path data : GoString}
    (h : req.effect = some (name, path, data)) : fileArgs req.args = some (name, path) := by
  obtain ⟨arg, hargs, heq⟩ := Option.bind_eq_some_iff.mp h
  obtain ⟨data', -, heq⟩ := Option.map_eq_some_iff.mp heq
  cases heq
  exact hargs

end WriteRequest

namespace FileHost

variable {h : FileHost} {id : GoString}

/-- The components of the root of a container. -/
def dirs (h : FileHost) (id : GoString) : List GoString := h.repository ++ [id, str "rootfs"]

theorem dirs_plain (hid : id ∈ h.ids) : ∀ dir ∈ h.dirs id, PlainName dir := by
  intro dir hdir
  obtain hdir | hdir := List.mem_append.mp hdir
  · exact h.repository_plain dir hdir
  · obtain rfl | hdir := List.mem_cons.mp hdir
    · exact h.ids_plain dir hid
    · rw [List.mem_singleton.mp hdir]
      decide

theorem dirs_ne_nil (h : FileHost) (id : GoString) : h.dirs id ≠ [] := by simp [dirs]

theorem root_eq (hid : id ∈ h.ids) : h.root id = rootedPath (h.dirs id) := by
  have hplain := h.ids_plain id hid
  have hdir : pathJoin [rootedPath h.repository, id] = rootedPath (h.repository ++ [id]) := by
    have hjoin := pathJoin_rooted h.repository_plain (.inr hplain)
    rwa [if_neg hplain.ne_nil] at hjoin
  have hrootfs : PlainName (str "rootfs") := by decide
  have hall : ∀ c ∈ h.repository ++ [id], PlainName c := by
    intro c hc
    obtain hc | hc := List.mem_append.mp hc
    · exact h.repository_plain c hc
    · rw [List.mem_singleton.mp hc]
      exact hplain
  have hjoin := pathJoin_rooted hall (.inr hrootfs)
  rw [if_neg hrootfs.ne_nil, List.append_assoc] at hjoin
  rw [root, hdir]
  exact hjoin

theorem openPath_eq (hid : id ∈ h.ids) (path : GoString) :
    h.openPath id path = rootedPath ((climb path).target (h.dirs id)) := by
  rw [openPath, root_eq hid, pathJoin_climb (dirs_plain hid)]

theorem below_openPath_iff (hid : id ∈ h.ids) (path : GoString) :
    Below (h.root id) (h.openPath id path) ↔ (climb path).Within (h.dirs id) := by
  rw [openPath, root_eq hid]
  exact below_pathJoin_iff (dirs_plain hid) (h.dirs_ne_nil id) path

/-- No link is on the path. -/
def Direct (h : FileHost) (id path : GoString) : Prop :=
  ∀ dirs, dirs <+: (climb path).target (h.dirs id) → h.links dirs = none

theorem Direct.opened {path : GoString} (hdirect : h.Direct id path) (hid : id ∈ h.ids) :
    h.opened id path = some (h.openPath id path) := by
  rw [FileHost.opened, openPath_eq hid]
  exact resolve_rootedPath h.maxLinks (climb_plain (dirs_plain hid) path) fun ds _ => hdirect ds

/-- No file is in two containers. -/
theorem below_unique {id' name path f : GoString} (hid : id ∈ h.ids) (hid' : id' ∈ h.ids)
    (hf : h.opened name path = some f) (hbelow : Below (h.root id) f)
    (hbelow' : Below (h.root id') f) : id' = id := by
  obtain ⟨cs, hcs, rfl⟩ := resolve_plain hf
  rw [root_eq hid] at hbelow
  rw [root_eq hid'] at hbelow'
  have hprefix := (below_iff (dirs_plain hid) hcs (h.dirs_ne_nil id)).mp hbelow
  have hprefix' := (below_iff (dirs_plain hid') hcs (h.dirs_ne_nil id')).mp hbelow'
  have hlength : (h.dirs id').length = (h.dirs id).length := by
    simp [dirs]
  have heq := List.IsPrefix.eq_of_length
    (List.prefix_of_prefix_length_le hprefix' hprefix (Nat.le_of_eq hlength)) hlength
  rw [dirs, dirs, List.append_cancel_left_eq, List.cons.injEq] at heq
  exact heq.1

/-! ## Requests -/

/-- A request writes to the file that is found for it, or changes nothing. -/
theorem serve_eq (h : FileHost) (req : WriteRequest) :
    h.serve req =
      match req.effect with
      | none => h
      | some (name, path, data) =>
        if name ∈ h.ids then
          match h.opened name path with
          | none => h
          | some f => h.writeFile f data
        else h := by
  unfold serve cmdWrite WriteRequest.effect WriteRequest.data
  cases hargs : fileArgs req.args with
  | none => rfl
  | some arg =>
    obtain ⟨name, path⟩ := arg
    simp only [Option.bind_some]
    by_cases hmem : name ∈ h.ids
    · rw [if_pos hmem]
      rcases hfault : req.fault with _ | _ | _ <;> cases hopened : h.opened name path <;>
        simp [hmem, hopened]
    · rw [if_neg hmem]
      rcases hfault : req.fault with _ | _ | _ <;> simp [hmem]

/-- Two hosts that find the same files under the same paths. -/
structure Alike (h h' : FileHost) : Prop where
  repository : h'.repository = h.repository
  ids : h'.ids = h.ids
  links : h'.links = h.links
  maxLinks : h'.maxLinks = h.maxLinks

namespace Alike

variable {h h' h'' : FileHost}

theorem refl (h : FileHost) : Alike h h := ⟨rfl, rfl, rfl, rfl⟩

theorem symm (ha : Alike h h') : Alike h' h :=
  ⟨ha.repository.symm, ha.ids.symm, ha.links.symm, ha.maxLinks.symm⟩

theorem trans (ha : Alike h h') (hb : Alike h' h'') : Alike h h'' :=
  ⟨hb.repository.trans ha.repository, hb.ids.trans ha.ids, hb.links.trans ha.links,
    hb.maxLinks.trans ha.maxLinks⟩

theorem root (ha : Alike h h') (id : GoString) : h'.root id = h.root id := by
  rw [FileHost.root, FileHost.root, ha.repository]

theorem openPath (ha : Alike h h') (id path : GoString) :
    h'.openPath id path = h.openPath id path := by
  rw [FileHost.openPath, FileHost.openPath, ha.root]

theorem opened (ha : Alike h h') (id path : GoString) : h'.opened id path = h.opened id path := by
  rw [FileHost.opened, FileHost.opened, ha.links, ha.maxLinks, ha.openPath]

end Alike

theorem serve_alike (h : FileHost) (req : WriteRequest) : Alike h (h.serve req) := by
  rw [serve_eq]
  split
  · exact Alike.refl h
  · split
    · split
      · exact Alike.refl h
      · exact ⟨rfl, rfl, rfl, rfl⟩
    · exact Alike.refl h

/-- Another file is left as it is. -/
theorem serve_files (h : FileHost) (req : WriteRequest) {f : GoString}
    (hf : ∀ name path data, req.effect = some (name, path, data) → name ∈ h.ids →
      h.opened name path ≠ some f) : (h.serve req).files f = h.files f := by
  rw [serve_eq]
  split
  · rfl
  · next name path data heffect =>
    split
    · next hmem =>
      split
      · rfl
      · next f' hf' =>
        have hne : f ≠ f' := fun heq => hf name path data heffect hmem (heq ▸ hf')
        exact Function.update_of_ne hne _ _
    · rfl

/-- The file that is found for the request is in its container. -/
def Stays (h : FileHost) (req : WriteRequest) : Prop :=
  ∀ arg ∈ fileArgs req.args, arg.1 ∈ h.ids → ∀ f ∈ h.opened arg.1 arg.2, Below (h.root arg.1) f

instance (h : FileHost) (req : WriteRequest) : Decidable (h.Stays req) :=
  inferInstanceAs (Decidable (∀ arg ∈ fileArgs req.args, _))

theorem serve_outside {req : WriteRequest} (hstays : h.Stays req) {f : GoString}
    (hf : ∀ id ∈ h.ids, ¬Below (h.root id) f) : (h.serve req).files f = h.files f := by
  apply serve_files
  intro name path data heffect hmem hopened
  have hargs := WriteRequest.fileArgs_of_effect heffect
  exact hf name hmem (hstays _ hargs hmem f hopened)

/-- A request for another container leaves the files of this one. -/
theorem serve_other {req : WriteRequest} (hstays : h.Stays req) (hid : id ∈ h.ids)
    (hother : req.isFor id = false) {f : GoString} (hf : Below (h.root id) f) :
    (h.serve req).files f = h.files f := by
  apply serve_files
  intro name path data heffect hmem hopened
  have hargs := WriteRequest.fileArgs_of_effect heffect
  have hname : name = id := below_unique hid hmem hopened hf (hstays _ hargs hmem f hopened)
  rw [WriteRequest.isFor, hargs, Option.any_some, decide_eq_false_iff_not] at hother
  exact hother hname

/-- Two hosts with the same containers, and the same files in one of them. -/
structure Agree (id : GoString) (h h' : FileHost) : Prop where
  alike : Alike h h'
  files : ∀ f, Below (h.root id) f → h'.files f = h.files f

/-- A request makes the same of the same files. -/
theorem Agree.serve {h h' : FileHost} (ha : Agree id h h') (req : WriteRequest) :
    Agree id (h.serve req) (h'.serve req) := by
  have hreq := h.serve_alike req
  refine ⟨hreq.symm.trans (ha.alike.trans (h'.serve_alike req)), fun f hf => ?_⟩
  rw [hreq.root] at hf
  have hfile := ha.files f hf
  rw [serve_eq, serve_eq, ha.alike.ids]
  split
  · exact hfile
  · next name path data _ =>
    rw [ha.alike.opened]
    split
    · split
      · exact hfile
      · next f' _ =>
        by_cases heq : f = f'
        · subst heq
          simp only [writeFile, Function.update_self, hfile]
        · simp only [writeFile, Function.update_of_ne heq, hfile]
    · exact hfile

theorem Stays.congr {h h' : FileHost} (ha : Alike h h') {req : WriteRequest}
    (hstays : h.Stays req) : h'.Stays req := by
  intro arg harg hmem f hf
  rw [ha.root]
  rw [ha.ids] at hmem
  rw [ha.opened] at hf
  exact hstays arg harg hmem f hf

theorem run_cons (h : FileHost) (req : WriteRequest) (reqs : List WriteRequest) :
    h.run (req :: reqs) = (h.serve req).run reqs := rfl

theorem run_alike (h : FileHost) (reqs : List WriteRequest) : Alike h (h.run reqs) := by
  induction reqs generalizing h with
  | nil => exact Alike.refl h
  | cons req reqs ih => exact (h.serve_alike req).trans (ih (h.serve req))

theorem run_outside {reqs : List WriteRequest} (hstays : ∀ req ∈ reqs, h.Stays req)
    {f : GoString} (hf : ∀ id ∈ h.ids, ¬Below (h.root id) f) :
    (h.run reqs).files f = h.files f := by
  induction reqs generalizing h with
  | nil => rfl
  | cons req reqs ih =>
    obtain ⟨hreq, hreqs⟩ := List.forall_mem_cons.mp hstays
    have halike := h.serve_alike req
    rw [run_cons, ih fun req' hreq' => (hreqs req' hreq').congr halike]
    · exact serve_outside hreq hf
    · intro id hid
      rw [halike.ids] at hid
      rw [halike.root]
      exact hf id hid

/-- What is in a container comes from the requests for it. -/
theorem run_agree {h h' : FileHost} (ha : Agree id h h') (hid : id ∈ h.ids)
    {reqs : List WriteRequest} (hstays : ∀ req ∈ reqs, h.Stays req) :
    Agree id (h'.run (reqs.filter (·.isFor id))) (h.run reqs) := by
  induction reqs generalizing h h' with
  | nil =>
    refine ⟨ha.alike.symm, fun f hf => (ha.files f ?_).symm⟩
    rwa [← ha.alike.root id]
  | cons req reqs ih =>
    obtain ⟨hreq, hreqs⟩ := List.forall_mem_cons.mp hstays
    have halike := h.serve_alike req
    have hstays' : ∀ req' ∈ reqs, (h.serve req).Stays req' := fun req' hreq' =>
      (hreqs req' hreq').congr halike
    have hid' : id ∈ (h.serve req).ids := by rwa [halike.ids]
    rw [run_cons]
    cases hfor : req.isFor id with
    | true =>
      rw [List.filter_cons_of_pos hfor, run_cons]
      exact ih (ha.serve req) hid' hstays'
    | false =>
      rw [List.filter_cons_of_neg (by rw [hfor]; decide)]
      apply ih _ hid' hstays'
      refine ⟨halike.symm.trans ha.alike, fun f hf => ?_⟩
      rw [halike.root] at hf
      rw [serve_other hreq hid hfor hf, ha.files f hf]

/-- `cat` of a file in a container. -/
theorem Agree.cmdCat {h h' : FileHost} (ha : Agree id h h') {args : List GoString}
    {path : GoString} (hargs : fileArgs args = some (id, path))
    (hpath : ∀ f ∈ h.opened id path, Below (h.root id) f) (openErr : Option GoString) :
    h'.cmdCat args openErr = h.cmdCat args openErr := by
  unfold FileHost.cmdCat linksError
  rw [hargs]
  simp only [ha.alike.ids, ha.alike.opened, ha.alike.openPath]
  cases openErr with
  | some err => rfl
  | none =>
    cases hopened : h.opened id path with
    | none => rfl
    | some f => simp only [ha.files f (hpath f hopened)]

end FileHost

/-- Two containers. The first has a link to one of its own files, the second one to a directory of
    the host. -/
def twoContainers : FileHost where
  repository := [str "c"]
  repository_plain := by decide
  ids := [str "a", str "b"]
  ids_plain := by decide
  links := fun dirs =>
    if dirs = [str "c", str "a", str "rootfs", str "y"] then some (str "x")
    else if dirs = [str "c", str "b", str "rootfs", str "run"] then some (str "/etc")
    else none
  maxLinks := 40
  root_links := by
    intro id _ dirs hdirs
    have hlength : dirs.length ≤ 3 := hdirs.length_le
    rw [if_neg (fun e => absurd hlength (by rw [e]; decide)),
      if_neg (fun e => absurd hlength (by rw [e]; decide))]
  files := fun _ => none

theorem overwrite_getElem? (data old : GoString) (i : Nat) :
    (overwrite data old)[i]? = if i < data.length then data[i]? else old[i]? := by
  rw [overwrite, List.getElem?_append]
  split
  · rfl
  · next h =>
    rw [List.getElem?_drop]
    congr 1
    omega

theorem length_overwrite (data old : GoString) :
    (overwrite data old).length = max data.length old.length := by
  rw [overwrite, List.length_append, List.length_drop]
  omega

/-- Nothing gets shorter. -/
theorem length_foldl_overwrite (writes : List GoString) (old : GoString) :
    ∀ data ∈ old :: writes,
      data.length ≤ (writes.foldl (fun old data => overwrite data old) old).length := by
  induction writes generalizing old with
  | nil =>
    intro data hdata
    rw [List.mem_singleton.mp hdata]
    exact Nat.le_refl _
  | cons first writes ih =>
    have hlength := length_overwrite first old
    have hfirst := ih (overwrite first old) _ List.mem_cons_self
    intro data hdata
    rw [List.foldl_cons]
    rcases List.mem_cons.mp hdata with rfl | hdata
    · omega
    · rcases List.mem_cons.mp hdata with rfl | hdata
      · omega
      · exact ih _ data (List.mem_cons_of_mem _ hdata)

/-- One after the other: a byte is that of the last data that reaches it. -/
theorem foldl_overwrite_getElem? (writes : List GoString) (old : GoString) (i : Nat) :
    (writes.foldl (fun old data => overwrite data old) old)[i]? =
      ((writes.reverse.find? fun data => i < data.length).getD old)[i]? := by
  -- Induction on the writes, from the end
  induction writes using List.reverseRecOn with
  | nil => rfl
  | append_singleton writes data ih =>
    rw [List.foldl_concat, overwrite_getElem?, List.reverse_concat, List.find?_cons]
    by_cases h : i < data.length
    · rw [if_pos h, decide_eq_true h, Option.getD_some]
    · rw [if_neg h, decide_eq_false h]
      exact ih

namespace FileHost

/-- What the requests write to a file. -/
def writesTo (h : FileHost) (f : GoString) (reqs : List WriteRequest) : List GoString :=
  reqs.filterMap fun req => req.effect.bind fun (name, path, data) =>
    if name ∈ h.ids ∧ h.opened name path = some f then some data else none

theorem writesTo_congr {h h' : FileHost} (ha : Alike h h') (f : GoString)
    (reqs : List WriteRequest) : h'.writesTo f reqs = h.writesTo f reqs := by
  unfold writesTo
  rw [ha.ids]
  simp only [ha.opened]

theorem writesTo_cons (h : FileHost) (f : GoString) (req : WriteRequest)
    (reqs : List WriteRequest) :
    h.writesTo f (req :: reqs) = h.writesTo f [req] ++ h.writesTo f reqs := by
  unfold writesTo
  rw [← List.filterMap_append, List.singleton_append]

theorem serve_file (h : FileHost) (req : WriteRequest) (f : GoString) :
    (h.serve req).files f =
      ((h.writesTo f [req]).foldl (fun old data => some (overwrite data (old.getD [])))
        (h.files f)) := by
  rw [serve_eq, writesTo, List.filterMap_cons, List.filterMap_nil]
  cases req.effect with
  | none => rfl
  | some effect =>
    obtain ⟨name, path, data⟩ := effect
    simp only [Option.bind_some]
    by_cases hmem : name ∈ h.ids
    · rw [if_pos hmem]
      cases hopened : h.opened name path with
      | none =>
        rw [if_neg fun hboth => absurd hboth.2.symm (Option.some_ne_none f)]
        rfl
      | some f' =>
        by_cases hpath : f' = f
        · subst hpath
          rw [if_pos ⟨hmem, rfl⟩]
          exact Function.update_self _ _ _
        · have hne : f ≠ f' := fun e => hpath e.symm
          rw [if_neg fun hboth => hpath (Option.some.inj hboth.2)]
          exact Function.update_of_ne hne _ _
    · rw [if_neg hmem, if_neg fun hboth => hmem hboth.1]
      rfl

theorem run_file (h : FileHost) (reqs : List WriteRequest) (f : GoString) :
    (h.run reqs).files f =
      ((h.writesTo f reqs).foldl (fun old data => some (overwrite data (old.getD [])))
        (h.files f)) := by
  induction reqs generalizing h with
  | nil => rfl
  | cons req reqs ih =>
    rw [writesTo_cons, List.foldl_append, ← serve_file, ← writesTo_congr (h.serve_alike req)]
    exact ih (h.serve req)

theorem foldl_some_overwrite (writes : List GoString) (old : Option GoString) :
    (writes.foldl (fun old data => some (overwrite data (old.getD []))) old).getD [] =
      writes.foldl (fun old data => overwrite data old) (old.getD []) := by
  induction writes generalizing old with
  | nil => rfl
  | cons data writes ih =>
    rw [List.foldl_cons, List.foldl_cons, ih]
    rfl

end FileHost

/-- After any sequence of `write`s the byte at a place of a file is that of the last write to the
    file that was long enough, or the one that was there in the beginning. Nothing is ever
    truncated, so what `cat` shows after a `write` may end in something older. -/
theorem written_bytes (h : FileHost) (reqs : List WriteRequest) (f : GoString) :
    (∀ i : Nat, (((h.run reqs).files f).getD [])[i]? =
      ((((h.writesTo f reqs).reverse.find? fun data => i < data.length).getD
        ((h.files f).getD []))[i]?)) ∧
    ((h.files f).getD []).length ≤ (((h.run reqs).files f).getD []).length ∧
    ∀ data ∈ h.writesTo f reqs, data.length ≤ (((h.run reqs).files f).getD []).length := by
  rw [FileHost.run_file, FileHost.foldl_some_overwrite]
  generalize h.writesTo f reqs = writes
  generalize (h.files f).getD [] = old
  have hlength := length_foldl_overwrite writes old
  refine ⟨foldl_overwrite_getElem? writes old, hlength old List.mem_cons_self, ?_⟩
  exact fun data hdata => hlength data (List.mem_cons_of_mem _ hdata)

/-- The end of a longer text stays behind a shorter one. -/
theorem written_bytes_tail :
    (twoContainers.run [⟨[str "a", str "x"], str "abcd", none⟩,
      ⟨[str "a", str "./x"], str "ef", none⟩]).cmdCat [str "a", str "x"] none =
        .ok (str "efcd") ∧
    4 ≤ (((twoContainers.run [⟨[str "a", str "x"], str "abcd", none⟩,
      ⟨[str "a", str "./x"], str "ef", none⟩]).files (str "/c/a/rootfs/x")).getD []).length := by
  refine ⟨rfl, ?_⟩
  apply (written_bytes twoContainers _ (str "/c/a/rootfs/x")).2.2 (str "abcd")
  decide

end Docker
