import DockerEngine.Go.Path

/-!
# Paths that leave a directory

A path that is joined to a directory is followed from there: `..` cancels the name before it,
and when there is none it goes one level up. `climb` tells how many levels a path goes up in
all, and which names it then goes down.

- `pathJoin_climb`: what joining a directory with a path makes of this
- `below_pathJoin_iff`: when the result is in the directory
-/

namespace Go

/-- Levels up, and the names below that, the last one first. -/
structure Climb where
  ups : Nat
  names : List GoString
  deriving DecidableEq, Repr

def Climb.push (c : Climb) (piece : GoString) : Climb :=
  if piece = [] ∨ piece = dot then c
  else if piece = dotDot then
    match c.names with
    | [] => ⟨c.ups + 1, []⟩
    | _ :: rest => ⟨c.ups, rest⟩
  else ⟨c.ups, piece :: c.names⟩

def climb (p : GoString) : Climb := (pieces p).foldl Climb.push ⟨0, []⟩

/-- The components that one gets to from the directory `dirs`. -/
def Climb.target (c : Climb) (dirs : List GoString) : List GoString :=
  dirs.take (dirs.length - c.ups) ++ c.names.reverse

/-- The path comes back to the directory `dirs` if it leaves it. -/
def Climb.Within (c : Climb) (dirs : List GoString) : Prop :=
  dirs.drop (dirs.length - c.ups) <+: c.names.reverse

instance (c : Climb) (dirs : List GoString) : Decidable (c.Within dirs) :=
  inferInstanceAs (Decidable (_ <+: _))

/-- The stack of a path that is followed from a directory with these components. -/
theorem pushComponent_climb {stack : List GoString} (hstack : dotDot ∉ stack) {c : Climb}
    (hc : dotDot ∉ c.names) (piece : GoString) :
    pushComponent true (c.names ++ stack.drop c.ups) piece =
        (c.push piece).names ++ stack.drop (c.push piece).ups ∧
      dotDot ∉ (c.push piece).names := by
  unfold pushComponent Climb.push
  split
  · exact ⟨rfl, hc⟩
  · split
    · cases hnames : c.names with
      | nil =>
        refine ⟨?_, List.not_mem_nil⟩
        show _ = [] ++ stack.drop (c.ups + 1)
        rw [List.nil_append, List.nil_append, ← List.drop_drop]
        cases hdrop : stack.drop c.ups with
        | nil => simp
        | cons top rest =>
          have hne : top ≠ dotDot := by
            rintro rfl
            exact hstack (List.mem_of_mem_drop (hdrop ▸ List.mem_cons_self))
          simp [hne]
      | cons top rest =>
        rw [hnames, List.mem_cons, not_or] at hc
        have hne : top ≠ dotDot := fun e => hc.1 e.symm
        refine ⟨?_, hc.2⟩
        simp [hne]
    · next hdotDot =>
      refine ⟨rfl, ?_⟩
      rw [List.mem_cons, not_or]
      exact ⟨fun e => hdotDot e.symm, hc⟩

theorem foldl_pushComponent_climb {stack : List GoString} (hstack : dotDot ∉ stack)
    (ps : List GoString) {c : Climb} (hc : dotDot ∉ c.names) :
    ps.foldl (pushComponent true) (c.names ++ stack.drop c.ups) =
      (ps.foldl Climb.push c).names ++ stack.drop (ps.foldl Climb.push c).ups := by
  induction ps generalizing c with
  | nil => rfl
  | cons piece ps ih =>
    obtain ⟨hpush, hnames⟩ := pushComponent_climb hstack hc piece
    rw [List.foldl_cons, List.foldl_cons, hpush]
    exact ih hnames

/-- The names a path goes down are names of entries. -/
theorem climb_names_plain {ps : List GoString} (hps : ∀ p ∈ ps, slash ∉ p) {c : Climb}
    (hc : ∀ name ∈ c.names, PlainName name) :
    ∀ name ∈ (ps.foldl Climb.push c).names, PlainName name := by
  induction ps generalizing c with
  | nil => exact hc
  | cons piece ps ih =>
    rw [List.foldl_cons]
    obtain ⟨hpiece, hps⟩ := List.forall_mem_cons.mp hps
    apply ih hps
    unfold Climb.push
    split
    · exact hc
    · next hne =>
      rw [not_or] at hne
      split
      · split
        · exact fun name hname => absurd hname List.not_mem_nil
        · next heq =>
          exact fun name hname => hc name (heq ▸ List.mem_cons_of_mem _ hname)
      · next hdotDot => exact List.forall_mem_cons.mpr ⟨⟨hne.1, hne.2, hdotDot, hpiece⟩, hc⟩

/-- The path of a directory with these components, from the root. -/
def rootedPath (dirs : List GoString) : GoString := slash :: join [slash] dirs

theorem pathJoin_climb {dirs : List GoString} (hdirs : ∀ d ∈ dirs, PlainName d) (p : GoString) :
    pathJoin [rootedPath dirs, p] = rootedPath ((climb p).target dirs) := by
  have hjoin : pathJoin [rootedPath dirs, p] = clean (rootedPath dirs ++ slash :: p) := by
    simp [pathJoin, rootedPath, join]
  have habs : isAbs (rootedPath dirs ++ slash :: p) = true := by simp [isAbs, rootedPath]
  have hdotDot : dotDot ∉ dirs.reverse := fun h =>
    (hdirs dotDot (List.mem_reverse.mp h)).ne_dotDot rfl
  have hfold := foldl_pushComponent_climb hdotDot (pieces p) (c := ⟨0, []⟩) List.not_mem_nil
  rw [List.drop_zero, List.nil_append] at hfold
  rw [hjoin, clean, habs, if_pos rfl, pieces_append, List.foldl_append, rootedPath,
    foldl_pieces_rooted hdirs, hfold, List.reverse_append, List.drop_reverse, List.reverse_reverse]
  rfl

/-- `f` is the directory, or a path in it. -/
def Below (dir f : GoString) : Prop := f = dir ∨ dir ++ [slash] <+: f

instance (dir f : GoString) : Decidable (Below dir f) := inferInstanceAs (Decidable (_ ∨ _))

theorem pieces_rootedPath {cs : List GoString} (hcs : ∀ c ∈ cs, PlainName c) (hne : cs ≠ []) :
    pieces (rootedPath cs) = [] :: cs := by
  obtain ⟨c, cs, rfl⟩ := List.exists_cons_of_ne_nil hne
  rw [rootedPath, pieces, if_pos rfl, pieces_join fun x hx => (hcs x hx).no_slash]

theorem join_append {cs ds : List GoString} (hcs : cs ≠ []) (hds : ds ≠ []) :
    join [slash] (cs ++ ds) = join [slash] cs ++ slash :: join [slash] ds := by
  induction cs with
  | nil => exact absurd rfl hcs
  | cons c cs ih =>
    cases cs with
    | nil =>
      obtain ⟨d, ds, rfl⟩ := List.exists_cons_of_ne_nil hds
      simp [join, List.intercalate_cons_cons]
    | cons c' cs =>
      have hrest := ih (List.cons_ne_nil _ _)
      simp only [join, List.cons_append, List.intercalate_cons_cons] at hrest ⊢
      rw [hrest]
      simp only [List.append_assoc]

/-- A path is in a directory if its components begin with those of the directory. -/
theorem below_iff {cs ds : List GoString} (hcs : ∀ c ∈ cs, PlainName c)
    (hds : ∀ d ∈ ds, PlainName d) (hne : cs ≠ []) :
    Below (rootedPath cs) (rootedPath ds) ↔ cs <+: ds := by
  constructor
  · rintro (heq | ⟨t, ht⟩)
    · rw [rootedPath, rootedPath, List.cons.injEq] at heq
      have hsame : ds = cs := join_slash_injective hds hcs heq.2
      exact hsame ▸ List.prefix_rfl
    · have hds' : ds ≠ [] := by
        rintro rfl
        have hlength := congrArg List.length ht
        simp [rootedPath, join] at hlength
      have hpieces := congrArg pieces ht
      rw [List.append_assoc, List.singleton_append, pieces_append, pieces_rootedPath hcs hne,
        pieces_rootedPath hds hds', List.cons_append, List.cons.injEq] at hpieces
      exact ⟨pieces t, hpieces.2⟩
  · rintro ⟨es, rfl⟩
    by_cases hes : es = []
    · rw [hes, List.append_nil]
      exact .inl rfl
    · refine .inr ⟨join [slash] es, ?_⟩
      rw [rootedPath, rootedPath, join_append hne hes]
      simp

theorem climb_plain {dirs : List GoString} (hdirs : ∀ d ∈ dirs, PlainName d) (p : GoString) :
    ∀ d ∈ (climb p).target dirs, PlainName d := by
  intro d hd
  obtain hd | hd := List.mem_append.mp hd
  · exact hdirs d (List.mem_of_mem_take hd)
  · exact climb_names_plain (slash_notMem_pieces p) (fun name h => absurd h List.not_mem_nil) d
      (List.mem_reverse.mp hd)

/-- A path that is joined to a directory is in it if and only if it comes back to it. -/
theorem below_pathJoin_iff {dirs : List GoString} (hdirs : ∀ d ∈ dirs, PlainName d)
    (hne : dirs ≠ []) (p : GoString) :
    Below (rootedPath dirs) (pathJoin [rootedPath dirs, p]) ↔ (climb p).Within dirs := by
  rw [pathJoin_climb hdirs, below_iff hdirs (climb_plain hdirs p) hne, Climb.Within, Climb.target]
  generalize dirs.length - (climb p).ups = m
  have hsplit : dirs <+: dirs.take m ++ (climb p).names.reverse ↔
      dirs.take m ++ dirs.drop m <+: dirs.take m ++ (climb p).names.reverse := by
    rw [List.take_append_drop]
  rw [hsplit, List.prefix_append_right_inj]

end Go
