import DockerEngine.Spec.Probe

/-!
# Deleted files and bookkeeping entries

The deletion of a file `n` is an entry `.wh.n`. `Changes` takes the prefix off with
`strings.TrimLeft`, whose second argument is a set: whatever `n` begins with of `.`, `w` and `h` is
lost too. What begins with `.wh..wh.` is bookkeeping; `Changes` skips such entries of the root, but
neither what is below them nor those of other directories.

- `changes_deleted`: which deleted files are reported by their names
- `bookkeeping_hidden`: when no bookkeeping entry is reported
-/

namespace Docker

open Go

/-! ## Taking the prefix off -/

/-- The name does not begin with one of the bytes that are cut off. -/
def KeepsName (n : GoString) : Prop := ∀ c ∈ n.head?, c ∉ str ".wh."

instance (n : GoString) : Decidable (KeepsName n) :=
  match n with
  | [] => isTrue (by simp [KeepsName])
  | c :: _ => decidable_of_iff (c ∉ str ".wh.") (by simp [KeepsName])

/-- What is left begins with no byte of the set. -/
theorem keepsName_trimLeft (n : GoString) : KeepsName (trimLeft n (str ".wh.")) := by
  induction n with
  | nil => simp [KeepsName, trimLeft]
  | cons c n ih =>
    rw [trimLeft, List.dropWhile_cons]
    split
    · exact ih
    · next hc => simpa [KeepsName] using hc

theorem trimLeft_eq_self {n : GoString} : trimLeft n (str ".wh.") = n ↔ KeepsName n := by
  constructor
  · intro h
    rw [← h]
    exact keepsName_trimLeft n
  · intro h
    cases n with
    | nil => rfl
    | cons c n =>
      have hc : c ∉ str ".wh." := h c rfl
      simp [trimLeft, hc]

/-- The prefix itself is always cut off. -/
theorem trimLeft_mark (n : GoString) :
    trimLeft (str ".wh." ++ n) (str ".wh.") = trimLeft n (str ".wh.") := by
  have hmark : ∀ c ∈ str ".wh.", decide (c ∈ str ".wh.") = true := fun c hc => decide_eq_true hc
  exact List.dropWhile_append_of_pos hmark

/-- What is left of a file name is a file name, or nothing. -/
theorem trimLeft_plain {w : GoString} (hw : PlainName w) :
    trimLeft w (str ".wh.") = [] ∨ PlainName (trimLeft w (str ".wh.")) := by
  by_cases hnil : trimLeft w (str ".wh.") = []
  · exact .inl hnil
  · have hkeeps := keepsName_trimLeft w
    refine .inr ⟨hnil, ?_, ?_, ?_⟩
    · intro h
      rw [h] at hkeeps
      exact absurd hkeeps (by decide)
    · intro h
      rw [h] at hkeeps
      exact absurd hkeeps (by decide)
    · intro h
      exact hw.no_slash ((List.dropWhile_sublist _).subset h)

/-- The path that is reported for the entry `w` of `d`. -/
def deletedPath (d : List GoString) (w : GoString) : List GoString :=
  if trimLeft w (str ".wh.") = [] then d else d ++ [trimLeft w (str ".wh.")]

theorem deletedPath_mark (d : List GoString) (n : GoString) :
    deletedPath d (str ".wh." ++ n) = deletedPath d n := by
  rw [deletedPath, deletedPath, trimLeft_mark]

theorem deletedPath_keeps {d : List GoString} {n : GoString} (hn : n ≠ []) (h : KeepsName n) :
    deletedPath d n = d ++ [n] := by
  rw [deletedPath, trimLeft_eq_self.mpr h, if_neg hn]

theorem deletedPath_plain {d : List GoString} {w : GoString} (hd : ∀ name ∈ d, PlainName name)
    (hw : PlainName w) : ∀ name ∈ deletedPath d w, PlainName name := by
  rw [deletedPath]
  split
  · exact hd
  · next hne =>
    intro name hname
    rcases List.mem_append.mp hname with hname | hname
    · exact hd name hname
    · rw [List.mem_singleton.mp hname]
      exact (trimLeft_plain hw).resolve_left hne

namespace Store

variable {store : Store LayerTree} {layers : List GoString}

/-- What is recorded for a whiteout. -/
theorem visit_whiteout {v : Visit} {d : List GoString} {w : GoString} (hpath : v.path = d ++ [w])
    (hplain : ∀ name ∈ v.path, PlainName name) (hmeta : isMetadata v.path = false)
    (hmark : (str ".wh.").isPrefixOf w = true) :
    store.visit layers v = .ok (some ⟨rebase (deletedPath d w), .delete⟩) := by
  have hne : v.path ≠ [] := by simp [hpath]
  have hwhiteout : isWhiteout v.path = true := by simp [isWhiteout, hpath, hmark]
  have hd : ∀ name ∈ d, PlainName name := fun name hname =>
    hplain name (by rw [hpath]; exact List.mem_append_left _ hname)
  have hw : PlainName w := hplain w (by simp [hpath])
  have hjoin : pathJoin [rebase d, trimLeft w (str ".wh.")] = rebase (deletedPath d w) :=
    pathJoin_rooted hd (trimLeft_plain hw)
  rw [visit, if_neg hne, if_neg (by simp [hmeta]), if_pos hwhiteout]
  simp only [hpath, List.getLast?_append, List.getLast?_singleton, Option.some_or, Option.getD_some,
    List.dropLast_concat, hjoin]

/-- A deletion that is recorded comes from a whiteout. -/
theorem visit_delete {v : Visit} {path : GoString}
    (h : store.visit layers v = .ok (some ⟨path, .delete⟩)) :
    ∃ d w, v.path = d ++ [w] ∧ isMetadata v.path = false ∧
      (str ".wh.").isPrefixOf w = true := by
  rw [visit] at h
  split at h
  · simp at h
  next hne =>
  split at h
  · simp at h
  next hmeta =>
  split at h
  · next hwhiteout =>
    obtain ⟨d, w, hpath⟩ := (List.eq_nil_or_concat' v.path).resolve_left hne
    refine ⟨d, w, hpath, by simpa using hmeta, ?_⟩
    simpa [isWhiteout, hpath] using hwhiteout
  · split at h
    · simp at h
    · next kind hprobe =>
      cases kind with
      | none => simp at h
      | some kind =>
        simp only [Option.map_some, Except.ok.injEq, Option.some.injEq, Change.mk.injEq] at h
        obtain ⟨-, rfl⟩ := h
        -- the loop over the layers never says that the entry was deleted
        obtain ⟨hkind, -⟩ | ⟨hkind, -⟩ := probe_kind hprobe
        · simp at hkind
        · simp at hkind

/-- It is recorded for what is left of the name of the whiteout. -/
theorem visit_delete_path {v : Visit} {path : GoString} (hplain : ∀ name ∈ v.path, PlainName name)
    (h : store.visit layers v = .ok (some ⟨path, .delete⟩)) :
    ∃ d w, v.path = d ++ [w] ∧ isMetadata v.path = false ∧ (str ".wh.").isPrefixOf w = true ∧
      path = rebase (deletedPath d w) ∧ ∀ name ∈ deletedPath d w, PlainName name := by
  obtain ⟨d, w, hpath, hmeta, hmark⟩ := visit_delete h
  rw [visit_whiteout hpath hplain hmeta hmark] at h
  simp only [Except.ok.injEq, Option.some.injEq, Change.mk.injEq, and_true] at h
  rw [hpath] at hplain
  have hreported := deletedPath_plain
    (fun name hname => hplain name (List.mem_append_left _ hname))
    (hplain w List.mem_concat_self)
  exact ⟨d, w, hpath, hmeta, hmark, h.symm, hreported⟩

/-! ## Deleted files -/

/-- The read-write directory says that the file `n` of `d` was deleted. -/
structure Deleted (walk : Walk) (d : List GoString) (n : GoString) : Prop where
  plain : PlainName n
  mark : (str ".wh.").isPrefixOf n = false
  entry : ∃ v ∈ walk.visits, v.path = d ++ [str ".wh." ++ n]

/-- A whiteout in the directory `p` from whose name everything is cut off: the directory itself is
    reported. -/
def NamelessIn (walk : Walk) (p : List GoString) : Prop :=
  ∃ v ∈ walk.visits, ∃ w, v.path = p ++ [w] ∧ (str ".wh.").isPrefixOf w = true ∧
    ∀ c ∈ w, c ∈ str ".wh."

theorem isMetadata_concat {d : List GoString} {w : GoString} :
    isMetadata (d ++ [w]) = (d.isEmpty && (str ".wh..wh.").isPrefixOf w) := by
  cases d with
  | nil => rfl
  | cons c d =>
    cases d with
    | nil => rfl
    | cons c' d => rfl

theorem Deleted.not_metadata {walk : Walk} {d : List GoString} {n : GoString}
    (h : Deleted walk d n) : isMetadata (d ++ [str ".wh." ++ n]) = false := by
  have hsplit : (str ".wh..wh.").isPrefixOf (str ".wh." ++ n) = (str ".wh.").isPrefixOf n := rfl
  rw [isMetadata_concat, hsplit, h.mark, Bool.and_false]

/-- The change that is recorded for the entry of a path. -/
def RecordedFor (store : Store LayerTree) (layers : List GoString) (walk : Walk)
    (path : List GoString) (change : Change) : Prop :=
  ∃ v ∈ walk.visits, v.path = path ∧ store.visit layers v = .ok (some change)

/-- A deleted file is recorded with what is left of its name. -/
theorem Deleted.recorded {walk : Walk} {d : List GoString} {n : GoString}
    (h : Deleted walk d n) : store.RecordedFor layers walk (d ++ [str ".wh." ++ n])
      ⟨rebase (deletedPath d n), .delete⟩ := by
  obtain ⟨v, hv, hpath⟩ := h.entry
  refine ⟨v, hv, hpath, ?_⟩
  have hmark : (str ".wh.").isPrefixOf (str ".wh." ++ n) = true := rfl
  rw [visit_whiteout hpath (walk.plain v hv) (by rw [hpath]; exact h.not_metadata) hmark,
    deletedPath_mark]

/-- The directory and the names above a whiteout. -/
theorem Deleted.dir_plain {walk : Walk} {d : List GoString} {n : GoString} (h : Deleted walk d n) :
    ∀ name ∈ d, PlainName name := by
  obtain ⟨v, hv, hpath⟩ := h.entry
  intro name hname
  apply walk.plain v hv
  rw [hpath]
  exact List.mem_append_left _ hname

/-- Two deleted files are reported under one path when the same is left of them. -/
theorem Deleted.path_eq_iff {walk : Walk} {d d' : List GoString} {n n' : GoString}
    (h : Deleted walk d n) (h' : Deleted walk d' n') :
    rebase (deletedPath d n) = rebase (deletedPath d' n') ↔ deletedPath d n = deletedPath d' n' :=
  ⟨rebase_injective (deletedPath_plain h.dir_plain h.plain)
    (deletedPath_plain h'.dir_plain h'.plain), fun heq => by rw [heq]⟩

theorem Deleted.ne_of_keeps {walk : Walk} {d d' : List GoString} {n n' : GoString}
    (h : Deleted walk d n) (h' : Deleted walk d' n') (hne : (d, n) ≠ (d', n'))
    (hn : KeepsName n) (hn' : KeepsName n') : deletedPath d n ≠ deletedPath d' n' := by
  rw [deletedPath_keeps h.plain.ne_nil hn, deletedPath_keeps h'.plain.ne_nil hn']
  intro heq
  obtain ⟨rfl, hname⟩ := List.append_inj' heq rfl
  cases hname
  exact hne rfl

/-- The report has the path of a deleted file. -/
theorem mem_deleted {walk : Walk} {changes : List Change}
    (h : store.walkChanges layers walk.err walk.visits = .ok changes) {p : List GoString}
    (hp : ∀ name ∈ p, PlainName name) :
    (⟨rebase p, .delete⟩ : Change) ∈ changes ↔
      ∃ v ∈ walk.visits, ∃ d w, v.path = d ++ [w] ∧ isMetadata v.path = false ∧
        (str ".wh.").isPrefixOf w = true ∧ deletedPath d w = p := by
  rw [(mem_walkChanges h).2]
  constructor
  · rintro ⟨v, hv, hvisit⟩
    obtain ⟨d, w, hpath, hmeta, hmark, heq, hreported⟩ := visit_delete_path (walk.plain v hv) hvisit
    exact ⟨v, hv, d, w, hpath, hmeta, hmark, rebase_injective hreported hp heq.symm⟩
  · rintro ⟨v, hv, d, w, hpath, hmeta, hmark, rfl⟩
    exact ⟨v, hv, visit_whiteout hpath (walk.plain v hv) hmeta hmark⟩

/-- A deleted file is reported by its name if and only if the name does not begin with `.`, `w` or
    `h`, or the name is reported for a whiteout in a directory of this name; and two deleted
    files are reported under different paths if and only if different names are left of
    them, as when both names are kept. -/
theorem changes_deleted {fuel : Nat} {mpImage : GoString} {walk : Walk} {changes : List Change}
    (hlayers : store.LayersUsed fuel mpImage layers)
    (hchanges : store.changes fuel mpImage walk = .ret (.ok changes)) :
    (∀ d n, Deleted walk d n →
      ((⟨rebase (d ++ [n]), .delete⟩ : Change) ∈ changes ↔
        KeepsName n ∨ NamelessIn walk (d ++ [n]))) ∧
    ∀ d n d' n', Deleted walk d n → Deleted walk d' n' → (d, n) ≠ (d', n') →
      ∃ c ∈ changes, ∃ c' ∈ changes,
        store.RecordedFor layers walk (d ++ [str ".wh." ++ n]) c ∧
        store.RecordedFor layers walk (d' ++ [str ".wh." ++ n']) c' ∧
        (c.path ≠ c'.path ↔ deletedPath d n ≠ deletedPath d' n') ∧
        (KeepsName n → KeepsName n' → c.path ≠ c'.path) := by
  have hwalk : store.walkChanges layers walk.err walk.visits = .ok changes := by
    simpa [hlayers.changes_eq] using hchanges
  constructor
  · intro d n h
    have hplain : ∀ name ∈ d ++ [n], PlainName name := by
      intro name hname
      rcases List.mem_append.mp hname with hname | hname
      · exact h.dir_plain name hname
      · exact List.mem_singleton.mp hname ▸ h.plain
    rw [mem_deleted hwalk hplain]
    constructor
    · rintro ⟨v, hv, e, w, hpath, -, hmark, hdeleted⟩
      unfold deletedPath at hdeleted
      split at hdeleted
      · -- nothing is left of the whiteout, and its directory is reported
        next hnil =>
        subst hdeleted
        refine .inr ⟨v, hv, w, hpath, hmark, fun c hc => ?_⟩
        simpa using List.dropWhile_eq_nil_iff.mp hnil c hc
      · -- a name is left, and no such name begins with a byte of the set
        obtain ⟨-, hname⟩ := List.append_inj' hdeleted rfl
        rw [List.cons.injEq] at hname
        rw [← hname.1]
        exact .inl (keepsName_trimLeft w)
    -- the whiteout of the file itself, or one of which nothing is left
    · rintro (hkeeps | ⟨v, hv, w, hpath, hmark, hall⟩)
      · obtain ⟨v, hv, hpath⟩ := h.entry
        refine ⟨v, hv, d, _, hpath, by rw [hpath]; exact h.not_metadata, rfl, ?_⟩
        rw [deletedPath_mark, deletedPath_keeps h.plain.ne_nil hkeeps]
      · have hnil : trimLeft w (str ".wh.") = [] := by
          apply List.dropWhile_eq_nil_iff.mpr
          exact fun c hc => decide_eq_true (hall c hc)
        refine ⟨v, hv, d ++ [n], w, hpath, ?_, hmark, if_pos hnil⟩
        rw [hpath, isMetadata_concat]
        simp
  · intro d n d' n' h h' hne
    have hrecorded : store.RecordedFor layers walk _ _ := h.recorded
    have hrecorded' : store.RecordedFor layers walk _ _ := h'.recorded
    obtain ⟨v, hv, -, hvisit⟩ := hrecorded
    obtain ⟨v', hv', -, hvisit'⟩ := hrecorded'
    refine ⟨_, ((mem_walkChanges hwalk).2 _).mpr ⟨v, hv, hvisit⟩, _,
      ((mem_walkChanges hwalk).2 _).mpr ⟨v', hv', hvisit'⟩, h.recorded, h'.recorded, ?_, ?_⟩
    · exact not_congr (h.path_eq_iff h')
    · intro hn hn' heq
      exact h.ne_of_keeps h' hne hn hn' ((h.path_eq_iff h').mp heq)

/-! ## Bookkeeping -/

def isBookkeeping (name : GoString) : Bool := (str ".wh..wh.").isPrefixOf name

/-- A bookkeeping entry, or something below one. -/
def internal (path : List GoString) : Bool := path.any isBookkeeping

/-- No bookkeeping entry and nothing below one is recorded, under whatever path, and no path that is
    reported is one of them. -/
structure BookkeepingHidden (store : Store LayerTree) (layers : List GoString) (walk : Walk)
    (changes : List Change) : Prop where
  entries : ∀ v ∈ walk.visits, internal v.path = true → ∀ change,
    ¬store.RecordedFor layers walk v.path change
  paths : ∀ change ∈ changes, ∀ p, (∀ name ∈ p, PlainName name) → change.path = rebase p →
    internal p = false

/-- What is left of a name is no bookkeeping name. -/
theorem not_isBookkeeping_of_keeps {n : GoString} (h : KeepsName n) : isBookkeeping n = false := by
  cases n with
  | nil => rfl
  | cons c n =>
    rw [Bool.eq_false_iff]
    intro hmark
    have hc : c = 46 := by
      have hdot : str ".wh..wh." = 46 :: str "wh..wh." := rfl
      rw [isBookkeeping, hdot, List.isPrefixOf_cons_cons, Bool.and_eq_true, beq_iff_eq] at hmark
      exact hmark.1.symm
    subst hc
    exact h 46 rfl (by decide)

theorem internal_deletedPath {d : List GoString} {w : GoString} (h : internal (d ++ [w]) = false) :
    internal (deletedPath d w) = false := by
  have hd : internal d = false := by
    rw [internal, List.any_append, Bool.or_eq_false_iff] at h
    exact h.1
  rw [deletedPath]
  split
  · exact hd
  · have hrest := not_isBookkeeping_of_keeps (keepsName_trimLeft w)
    rw [internal, List.any_append, List.any_cons, hrest]
    simpa [internal] using hd

/-- A change that is recorded for an entry that is not bookkeeping has no such path. -/
theorem visit_not_internal {v : Visit} {change : Change} (hplain : ∀ name ∈ v.path, PlainName name)
    (hvisit : store.visit layers v = .ok (some change)) (h : internal v.path = false)
    {p : List GoString} (hp : ∀ name ∈ p, PlainName name) (hpath : change.path = rebase p) :
    internal p = false := by
  by_cases hkind : change.kind = .delete
  · -- a name that lost its prefix is no bookkeeping name
    obtain ⟨path, kind⟩ := change
    subst hkind
    obtain ⟨d, w, hv, -, -, heq, hreported⟩ := visit_delete_path hplain hvisit
    rw [hv] at h
    rw [← rebase_injective hreported hp (heq.symm.trans hpath)]
    exact internal_deletedPath h
  · -- any other change has the path of the entry
    obtain ⟨hsame, -⟩ := visit_cases hvisit hkind
    rw [← rebase_injective hplain hp (hsame.symm.trans hpath)]
    exact h

/-- The bookkeeping entries for which nothing is recorded: those of the root, and the directories
    that the image has as well. -/
theorem visit_internal {v : Visit} (h : internal v.path = true) :
    store.visit layers v = .ok none ↔ v.path.length = 1 ∨
      (isWhiteout v.path = false ∧
        ∃ stat, store.FirstAnswer v.path layers (.ok stat) ∧ v.f.unchanged stat = true) := by
  have hne : v.path ≠ [] := by
    intro hnil
    simp [hnil, internal] at h
  by_cases hlen : v.path.length = 1
  · -- an entry of the root, which is skipped as metadata
    obtain ⟨name, hname⟩ := List.length_eq_one_iff.mp hlen
    have hmeta : isMetadata v.path = true := by
      simpa [hname, internal, isMetadata, isBookkeeping] using h
    rw [visit, if_neg hne, if_pos hmeta]
    exact iff_of_true rfl (.inl hlen)
  · have hmeta : isMetadata v.path = false := by
      cases hpath : v.path with
      | nil => rfl
      | cons name rest =>
        cases rest with
        | nil => simp [hpath] at hlen
        | cons name' rest => rfl
    rw [← probe_eq_none_iff]
    by_cases hwhiteout : isWhiteout v.path = true
    · rw [visit, if_neg hne, if_neg (by simp [hmeta]), if_pos hwhiteout]
      simp [hlen, hwhiteout]
    · have hrec : Recorded v.path := ⟨hne, hmeta, by simpa using hwhiteout⟩
      rw [visit_eq hrec]
      cases hprobe : store.probe v layers with
      | error err => simp [Except.map, hlen]
      | ok kind => simp [Except.map, hlen, hwhiteout]

/-- No bookkeeping entry is reported if and only if those below the root are all directories that
    the image has as well, and are no whiteouts. -/
theorem bookkeeping_hidden {fuel : Nat} {mpImage : GoString} {walk : Walk} {changes : List Change}
    (hlayers : store.LayersUsed fuel mpImage layers)
    (hchanges : store.changes fuel mpImage walk = .ret (.ok changes)) :
    store.BookkeepingHidden layers walk changes ↔
      ∀ v ∈ walk.visits, internal v.path = true → v.path.length = 1 ∨
        (isWhiteout v.path = false ∧
          ∃ stat, store.FirstAnswer v.path layers (.ok stat) ∧ v.f.unchanged stat = true) := by
  have hwalk : store.walkChanges layers walk.err walk.visits = .ok changes := by
    simpa [hlayers.changes_eq] using hchanges
  obtain ⟨hok, hmem⟩ := mem_walkChanges hwalk
  constructor
  · intro h v hv hint
    rw [← visit_internal hint]
    obtain ⟨change, hvisit⟩ := hok v hv
    cases change with
    | none => exact hvisit
    | some change => exact absurd ⟨v, hv, rfl, hvisit⟩ (h.entries v hv hint change)
  · intro h
    have hnone : ∀ v ∈ walk.visits, internal v.path = true → store.visit layers v = .ok none :=
      fun v hv hint => (visit_internal hint).mpr (h v hv hint)
    constructor
    · rintro v hv hint change ⟨u, hu, hpath, hvisit⟩
      rw [hnone u hu (by rw [hpath]; exact hint)] at hvisit
      simp at hvisit
    · intro change hchange p hp hpath
      obtain ⟨v, hv, hvisit⟩ := (hmem change).mp hchange
      have hint : internal v.path = false := by
        rw [Bool.eq_false_iff]
        intro hint
        rw [hnone v hv hint] at hvisit
        simp at hvisit
      exact visit_not_internal (walk.plain v hv) hvisit hint hp hpath

end Store

/-! ## Three containers -/

/-- The image they are made from. -/
def motdImage : Store LayerTree :=
  twoLayers (oneFile (str "new") textFile) (oneFile (str "motd") textFile)

/-- The walk through a directory in which the entries of `paths` were made. -/
def filesWalk (paths : List (List GoString)) (hnodup : paths.Nodup)
    (hplain : ∀ path ∈ paths, ∀ name ∈ path, PlainName name) : Walk where
  visits := paths.map fun path => ⟨path, ⟨false, 0, 420, 1⟩⟩
  err := none
  nodup := by simpa [Function.comp_def] using hnodup
  plain := by simpa using hplain

/-- The file `motd` was deleted. -/
def motdDeleted : Walk := filesWalk [[], [str ".wh.motd"]] (by decide) (by decide)

theorem changes_deleted_motd :
    motdImage.changes 2 (str "child") motdDeleted = .ret (.ok [⟨str "/motd", .delete⟩]) ∧
      (⟨rebase ([] ++ [str "motd"]), .delete⟩ : Store.Change) ∈
        [(⟨str "/motd", .delete⟩ : Store.Change)] := by
  have hlayers : motdImage.LayersUsed 2 (str "child") [str "/layers/child", str "/layers/base"] :=
    rfl
  have hdeleted : Store.Deleted motdDeleted [] (str "motd") :=
    ⟨by decide, rfl, _, List.mem_cons_of_mem _ List.mem_cons_self, rfl⟩
  refine ⟨rfl, ?_⟩
  exact ((Store.changes_deleted hlayers rfl).1 _ _ hdeleted).mpr (.inl (by decide))

/-- The files `hosts` and `osts` were deleted. -/
def hostsDeleted : Walk :=
  filesWalk [[], [str ".wh.hosts"], [str ".wh.osts"]] (by decide) (by decide)

/-- Both are reported as `osts`. -/
theorem changes_hosts :
    motdImage.changes 2 (str "child") hostsDeleted =
      .ret (.ok [⟨str "/osts", .delete⟩, ⟨str "/osts", .delete⟩]) ∧
    Store.Deleted hostsDeleted [] (str "hosts") ∧ Store.Deleted hostsDeleted [] (str "osts") ∧
    (⟨rebase ([] ++ [str "hosts"]), .delete⟩ : Store.Change) ∉
      [(⟨str "/osts", .delete⟩ : Store.Change), ⟨str "/osts", .delete⟩] := by
  have hentry : ∀ name, name ∈ [str "hosts", str "osts"] →
      ∃ v ∈ hostsDeleted.visits, v.path = [] ++ [str ".wh." ++ name] := by
    intro name hname
    rcases List.mem_pair.mp hname with rfl | rfl
    · exact ⟨⟨[str ".wh.hosts"], ⟨false, 0, 420, 1⟩⟩, by decide, rfl⟩
    · exact ⟨⟨[str ".wh.osts"], ⟨false, 0, 420, 1⟩⟩, by decide, rfl⟩
  exact ⟨rfl, ⟨by decide, rfl, hentry _ (by simp)⟩, ⟨by decide, rfl, hentry _ (by simp)⟩, by decide⟩

/-- A bookkeeping entry in the root. -/
def rootBookkeeping : Walk := filesWalk [[], [str ".wh..wh.plnk"]] (by decide) (by decide)

theorem bookkeeping_hidden_root :
    motdImage.changes 2 (str "child") rootBookkeeping = .ret (.ok []) ∧
      motdImage.BookkeepingHidden [str "/layers/child", str "/layers/base"] rootBookkeeping [] := by
  have hlayers : motdImage.LayersUsed 2 (str "child") [str "/layers/child", str "/layers/base"] :=
    rfl
  refine ⟨rfl, (Store.bookkeeping_hidden hlayers rfl).mpr ?_⟩
  intro v hv hint
  rcases List.mem_pair.mp hv with rfl | rfl
  · simp [Store.internal] at hint
  · exact .inl rfl

/-- A file below a bookkeeping directory, and an opaque directory. -/
def deepBookkeeping : Walk :=
  filesWalk [[], [str ".wh..wh.plnk"], [str ".wh..wh.plnk", str "5.12"], [str "etc"],
    [str "etc", str ".wh..wh..opq"]] (by decide) (by decide)

/-- The file is reported as added, and a file `opq` as deleted that never was. -/
theorem changes_bookkeeping :
    motdImage.changes 2 (str "child") deepBookkeeping =
      .ret (.ok [⟨str "/.wh..wh.plnk/5.12", .add⟩, ⟨str "/etc", .add⟩,
        ⟨str "/etc/opq", .delete⟩]) ∧
    ¬motdImage.BookkeepingHidden [str "/layers/child", str "/layers/base"] deepBookkeeping
      [⟨str "/.wh..wh.plnk/5.12", .add⟩, ⟨str "/etc", .add⟩, ⟨str "/etc/opq", .delete⟩] := by
  refine ⟨rfl, fun h => ?_⟩
  have hpath := h.paths ⟨str "/.wh..wh.plnk/5.12", .add⟩ List.mem_cons_self
    [str ".wh..wh.plnk", str "5.12"] (by decide) rfl
  exact absurd hpath (by decide)

end Docker
