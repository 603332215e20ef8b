import DockerEngine.Go.Climb

/-!
# Symbolic links

The kernel finds a file component by component. At a link it goes on with the components of the
link's target, from the root if this is a path from the root, and behind too many links it gives
up.

- `resolve_rootedPath`: a path with no link on it is the path of its file
- `resolve_plain`: what is found has the path of names
-/

namespace Go

/-- The targets of the links, by the components of the paths that they are at. -/
abbrev Links := List GoString → Option GoString

/-- The components of a path are followed from the directory `dir`. Once there is a link, `next`
    goes on. -/
def walkWith (links : Links) (next : List GoString → List GoString → Option (List GoString))
    (dir : List GoString) : List GoString → Option (List GoString)
  | [] => some dir
  | piece :: rest =>
    if piece = [] ∨ piece = dot then walkWith links next dir rest
    else if piece = dotDot then walkWith links next dir.dropLast rest
    else
      match links (dir ++ [piece]) with
      | none => walkWith links next (dir ++ [piece]) rest
      | some target => next (if isAbs target then [] else dir) (pieces target ++ rest)

/-- The walk through at most `n` links. -/
def walk (links : Links) : Nat → List GoString → List GoString → Option (List GoString)
  | 0 => walkWith links fun _ _ => none
  | n + 1 => walkWith links (walk links n)

/-- The path of what the kernel finds under a path from the root, or none if there are more than
    `n` links. -/
def resolve (links : Links) (n : Nat) (p : GoString) : Option GoString :=
  (walk links n [] (pieces p)).map rootedPath

section

variable {links : Links} {next : List GoString → List GoString → Option (List GoString)}

/-- Without a link on the way all components are gone through. -/
theorem walkWith_plain
    (next : List GoString → List GoString → Option (List GoString)) {cs : List GoString}
    (hcs : ∀ c ∈ cs, PlainName c) {dir : List GoString}
    (hlinks : ∀ ds, ds ≠ [] → ds <+: cs → links (dir ++ ds) = none) :
    walkWith links next dir cs = some (dir ++ cs) := by
  induction cs generalizing dir with
  | nil => rw [walkWith, List.append_nil]
  | cons c cs ih =>
    obtain ⟨hc, hcs⟩ := List.forall_mem_cons.mp hcs
    have hfirst : links (dir ++ [c]) = none :=
      hlinks [c] (List.cons_ne_nil _ _) ⟨cs, rfl⟩
    have hrest : ∀ ds, ds ≠ [] → ds <+: cs → links (dir ++ [c] ++ ds) = none := by
      intro ds _ hds
      rw [List.append_assoc]
      exact hlinks ([c] ++ ds) (List.cons_ne_nil _ _)
        ((List.prefix_append_right_inj [c]).mpr hds)
    rw [walkWith, if_neg (not_or.mpr ⟨hc.ne_nil, hc.ne_dot⟩), if_neg hc.ne_dotDot, hfirst]
    show walkWith links next (dir ++ [c]) cs = _
    rw [ih hcs hrest, List.append_assoc]
    rfl

/-- The components of what is found are names, if those behind a link are. -/
theorem walkWith_names {pieces : List GoString} (hpieces : ∀ p ∈ pieces, slash ∉ p)
    (hnext : ∀ dir ps found, (∀ d ∈ dir, PlainName d) → (∀ p ∈ ps, slash ∉ p) →
      next dir ps = some found → ∀ d ∈ found, PlainName d)
    {dir found : List GoString} (hdir : ∀ d ∈ dir, PlainName d)
    (h : walkWith links next dir pieces = some found) : ∀ d ∈ found, PlainName d := by
  induction pieces generalizing dir with
  | nil =>
    rw [walkWith, Option.some_inj] at h
    exact h ▸ hdir
  | cons piece rest ih =>
    obtain ⟨hpiece, hrest⟩ := List.forall_mem_cons.mp hpieces
    rw [walkWith] at h
    split at h
    · exact ih hrest hdir h
    · next hne =>
      rw [not_or] at hne
      split at h
      · exact ih hrest (fun d hd => hdir d (List.dropLast_subset dir hd)) h
      · next hdotDot =>
        split at h
        · have hname : PlainName piece := ⟨hne.1, hne.2, hdotDot, hpiece⟩
          have hdir' : ∀ d ∈ dir ++ [piece], PlainName d := by
            intro d hd
            obtain hd | hd := List.mem_append.mp hd
            · exact hdir d hd
            · rw [List.mem_singleton.mp hd]
              exact hname
          exact ih hrest hdir' h
        · next target _ =>
          refine hnext _ _ _ ?_ ?_ h
          · split
            · exact fun d hd => absurd hd List.not_mem_nil
            · exact hdir
          · intro p hp
            obtain hp | hp := List.mem_append.mp hp
            · exact slash_notMem_pieces target p hp
            · exact hrest p hp

theorem walk_names (links : Links) (n : Nat) {dir ps found : List GoString}
    (hdir : ∀ d ∈ dir, PlainName d) (hps : ∀ p ∈ ps, slash ∉ p)
    (h : walk links n dir ps = some found) : ∀ d ∈ found, PlainName d := by
  -- Induction on the number of links that are left
  induction n generalizing dir ps found with
  | zero =>
    refine walkWith_names hps ?_ hdir h
    intro _ _ _ _ _ hnone
    cases hnone
  | succ n ih =>
    exact walkWith_names hps (fun _ _ _ hdir hps h => ih hdir hps h) hdir h

end

/-- What is found has the path of names. -/
theorem resolve_plain {links : Links} {n : Nat} {p f : GoString} (h : resolve links n p = some f) :
    ∃ cs, (∀ c ∈ cs, PlainName c) ∧ f = rootedPath cs := by
  obtain ⟨cs, hcs, rfl⟩ := Option.map_eq_some_iff.mp h
  have hnil : ∀ d ∈ ([] : List GoString), PlainName d := fun d hd => absurd hd List.not_mem_nil
  exact ⟨cs, walk_names links n hnil (slash_notMem_pieces p) hcs, rfl⟩

/-- A path with no link on it is the path of its file. -/
theorem resolve_rootedPath {links : Links} (n : Nat) {cs : List GoString}
    (hcs : ∀ c ∈ cs, PlainName c) (hlinks : ∀ ds, ds ≠ [] → ds <+: cs → links ds = none) :
    resolve links n (rootedPath cs) = some (rootedPath cs) := by
  have hwalk : walk links n [] (pieces (rootedPath cs)) = some cs := by
    have hroot : ∀ next, walkWith links next [] (pieces (rootedPath cs)) = some cs := by
      intro next
      have hplain : walkWith links next [] cs = some ([] ++ cs) := walkWith_plain next hcs hlinks
      by_cases hne : cs = []
      · subst hne
        rfl
      · rw [pieces_rootedPath hcs hne, walkWith, if_pos (.inl rfl)]
        exact hplain
    cases n with
    | zero => exact hroot _
    | succ n => exact hroot _
  rw [resolve, hwalk]
  rfl

end Go
