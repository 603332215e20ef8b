import DockerEngine.Go.Str
import Mathlib.Data.List.TakeWhile
import Mathlib.Tactic.Common

/-!
# Slash-separated paths (Go's package `path`)

`clean` is the lexical normal form: it works on the components between the slashes,
drops the empty ones and `.`, and lets `..` cancel the component before it.
`pathJoin` joins non-empty elements with a slash and cleans the result.

The callers join a directory with the name of one of its entries. For that case
`pathJoin_child` says all there is to know: the result is the name behind a prefix that
depends on the directory alone.
-/

namespace Go

def slash : UInt8 := 47

def dot : GoString := [46]

def dotDot : GoString := [46, 46]

/-- The pieces between the slashes, empty ones included. -/
def pieces : GoString → List GoString
  | [] => [[]]
  | c :: s =>
    if c = slash then [] :: pieces s
    else
      match pieces s with
      | [] => [[c]]
      | x :: xs => (c :: x) :: xs

/-- One component of a path met by `clean`, with the components before it on a stack. -/
def pushComponent (rooted : Bool) (stack : List GoString) (c : GoString) : List GoString :=
  if c = [] ∨ c = dot then stack
  else if c = dotDot then
    match stack with
    | [] => if rooted then [] else [dotDot]
    | top :: rest => if top = dotDot then dotDot :: top :: rest else rest
  else c :: stack

/-- The path starts at the root. -/
def isAbs (p : GoString) : Bool := p.head? = some slash

/-- `path.Clean`. -/
def clean (p : GoString) : GoString :=
  let out := join [slash] ((pieces p).foldl (pushComponent (isAbs p)) []).reverse
  if isAbs p then slash :: out
  else if out = [] then dot
  else out

/-- `path.Join`. -/
def pathJoin (elems : List GoString) : GoString :=
  match elems.dropWhile (· = []) with
  | [] => []
  | elem :: elems => clean (join [slash] (elem :: elems))

/-- The name of a directory entry. -/
structure PlainName (name : GoString) : Prop where
  ne_nil : name ≠ []
  ne_dot : name ≠ dot
  ne_dotDot : name ≠ dotDot
  no_slash : slash ∉ name

instance (name : GoString) : Decidable (PlainName name) :=
  decidable_of_iff (name ≠ [] ∧ name ≠ dot ∧ name ≠ dotDot ∧ slash ∉ name)
    ⟨fun ⟨h₁, h₂, h₃, h₄⟩ => ⟨h₁, h₂, h₃, h₄⟩, fun h => ⟨h.1, h.2, h.3, h.4⟩⟩

/-! ## Components -/

/-- `path.Base`. -/
def base (p : GoString) : GoString :=
  if p = [] then dot
  else
    let last := ((p.reverse.dropWhile (· = slash)).takeWhile (· ≠ slash)).reverse
    if last = [] then [slash] else last

theorem pieces_ne_nil (s : GoString) : pieces s ≠ [] := by
  cases s with
  | nil => exact List.cons_ne_nil _ _
  | cons c s =>
    rw [pieces]
    split
    · exact List.cons_ne_nil _ _
    · split <;> exact List.cons_ne_nil _ _

theorem pieces_of_not_mem {s : GoString} (h : slash ∉ s) : pieces s = [s] := by
  induction s with
  | nil => rfl
  | cons c s ih =>
    rw [List.mem_cons, not_or] at h
    rw [pieces, if_neg (fun e => h.1 e.symm), ih h.2]

/-- A slash ends a component. -/
theorem pieces_append (p q : GoString) :
    pieces (p ++ slash :: q) = pieces p ++ pieces q := by
  induction p with
  | nil => simp [pieces]
  | cons c p ih =>
    rw [List.cons_append, pieces, pieces, ih]
    split
    · rfl
    · cases hp : pieces p with
      | nil => exact absurd hp (pieces_ne_nil p)
      | cons x xs => rfl

theorem pushComponent_plain {rooted : Bool} {stack : List GoString} {name : GoString}
    (h : PlainName name) : pushComponent rooted stack name = name :: stack := by
  have hskip : ¬(name = [] ∨ name = dot) := fun e => e.elim h.ne_nil h.ne_dot
  unfold pushComponent
  rw [if_neg hskip, if_neg h.ne_dotDot]

/-! ## Joining a directory and a name -/

/-- What stands before the last piece of a joined list depends on the other pieces alone. -/
theorem join_concat (sep : GoString) (xs : List GoString) :
    ∃ pre, ∀ x, join sep (xs ++ [x]) = pre ++ x := by
  induction xs with
  | nil => exact ⟨[], fun x => by simp [join]⟩
  | cons y ys ih =>
    obtain ⟨pre, hpre⟩ := ih
    refine ⟨y ++ sep ++ pre, fun x => ?_⟩
    rw [List.cons_append, join, List.intercalate_cons_of_ne_nil (by simp)]
    have hjoin : sep.intercalate (ys ++ [x]) = pre ++ x := hpre x
    rw [hjoin]
    simp only [List.append_assoc]

/-- The path of an entry is its name behind a prefix that depends on the directory. -/
theorem pathJoin_child (dir : GoString) :
    ∃ pre, ∀ name, PlainName name → pathJoin [dir, name] = pre ++ name := by
  cases dir with
  | nil =>
    refine ⟨[], fun name h => ?_⟩
    have habs : isAbs name = false := by
      cases name with
      | nil => rfl
      | cons c s =>
        have hc : c ≠ slash := fun e => h.no_slash (e ▸ List.mem_cons_self)
        simp [isAbs, hc]
    simp [pathJoin, join, clean, habs, pieces_of_not_mem h.no_slash,
      pushComponent_plain h, h.ne_nil]
  | cons c s =>
    -- the name is pushed last, on the components of the directory
    obtain ⟨pre, hpre⟩ := join_concat [slash]
      ((pieces (c :: s)).foldl (pushComponent (isAbs (c :: s))) []).reverse
    refine ⟨if isAbs (c :: s) then slash :: pre else pre, fun name h => ?_⟩
    have hjoin : join [slash] [c :: s, name] = (c :: s) ++ slash :: name := by
      simp [join]
    have habs : isAbs ((c :: s) ++ slash :: name) = isAbs (c :: s) := rfl
    have hdrop : [c :: s, name].dropWhile (· = []) = [c :: s, name] := by simp
    have hout : pre ++ name ≠ [] := by simp [h.ne_nil]
    simp only [pathJoin, hdrop, hjoin, clean, habs, pieces_append,
      pieces_of_not_mem h.no_slash, List.foldl_append, List.foldl_cons, List.foldl_nil,
      pushComponent_plain h, List.reverse_cons, hpre, if_neg hout]
    split <;> rfl

/-- Two entries of a directory have different paths. -/
theorem pathJoin_injective (dir : GoString) {name name' : GoString} (h : PlainName name)
    (h' : PlainName name') (heq : pathJoin [dir, name] = pathJoin [dir, name']) :
    name = name' := by
  obtain ⟨pre, hpre⟩ := pathJoin_child dir
  rw [hpre name h, hpre name' h'] at heq
  exact List.append_cancel_left heq

/-! ## Cleaning a clean path -/

/-- The stacks that `clean` leaves: names, above as many `..` as a path that does not start
    at the root may begin with. -/
private inductive Reduced (rooted : Bool) : List GoString → Prop
  | nil : Reduced rooted []
  | plain {name : GoString} {stack : List GoString} :
      PlainName name → Reduced rooted stack → Reduced rooted (name :: stack)
  | up {stack : List GoString} :
      rooted = false → (∀ c ∈ stack, c = dotDot) → Reduced rooted stack →
      Reduced rooted (dotDot :: stack)

theorem slash_notMem_pieces (s : GoString) : ∀ c ∈ pieces s, slash ∉ c := by
  induction s with
  | nil => simp [pieces]
  | cons b s ih =>
    intro c hc
    rw [pieces] at hc
    split at hc
    · rcases List.mem_cons.mp hc with rfl | hc
      · exact List.not_mem_nil
      · exact ih c hc
    · next hb =>
      cases hs : pieces s with
      | nil => exact absurd hs (pieces_ne_nil s)
      | cons x xs =>
        rw [hs] at hc ih
        rcases List.mem_cons.mp hc with rfl | hc
        · intro hmem
          rcases List.mem_cons.mp hmem with e | hmem
          · exact hb e.symm
          · exact ih x List.mem_cons_self hmem
        · exact ih c (List.mem_cons_of_mem _ hc)

/-- A component that is pushed on a reduced stack leaves a reduced stack. -/
private theorem Reduced.push {rooted : Bool} {stack : List GoString} (h : Reduced rooted stack)
    {c : GoString} (hc : slash ∉ c) : Reduced rooted (pushComponent rooted stack c) := by
  unfold pushComponent
  split
  · exact h
  · next hskip =>
    rw [not_or] at hskip
    split
    -- `..` removes the name on top; at the bottom it is dropped, or kept on a relative path
    · cases h with
      | nil =>
        cases rooted with
        | true => exact .nil
        | false => exact .up rfl (by simp) .nil
      | @plain top rest hname hrest =>
        show Reduced rooted (if top = dotDot then _ else _)
        rw [if_neg hname.ne_dotDot]
        exact hrest
      | @up rest hrooted hdots hrest =>
        show Reduced rooted (if dotDot = dotDot then _ else _)
        rw [if_pos rfl]
        refine .up hrooted (fun c hc => ?_) (.up hrooted hdots hrest)
        rcases List.mem_cons.mp hc with rfl | hc
        · rfl
        · exact hdots c hc
    · next hup => exact .plain ⟨hskip.1, hskip.2, hup, hc⟩ h

private theorem reduced_foldl {rooted : Bool} {cs : List GoString} (hcs : ∀ c ∈ cs, slash ∉ c)
    {stack : List GoString} (h : Reduced rooted stack) :
    Reduced rooted (cs.foldl (pushComponent rooted) stack) := by
  induction cs generalizing stack with
  | nil => exact h
  | cons c cs ih =>
    exact ih (fun c' hc' => hcs c' (List.mem_cons_of_mem _ hc'))
      (h.push (hcs c List.mem_cons_self))

/-- The components of a reduced stack build it again. -/
private theorem Reduced.foldl_reverse {rooted : Bool} {stack : List GoString}
    (h : Reduced rooted stack) : stack.reverse.foldl (pushComponent rooted) [] = stack := by
  induction h with
  | nil => rfl
  | plain hname _ ih =>
    rw [List.reverse_cons, List.foldl_append, ih, List.foldl_cons, List.foldl_nil,
      pushComponent_plain hname]
  | @up stack hrooted hdots _ ih =>
    rw [List.reverse_cons, List.foldl_append, ih, List.foldl_cons, List.foldl_nil]
    subst hrooted
    cases stack with
    | nil => rfl
    | cons top rest =>
      -- on top of a `..` another one is pushed
      rw [hdots top List.mem_cons_self]
      rfl

private theorem Reduced.component {rooted : Bool} {stack : List GoString}
    (h : Reduced rooted stack) {c : GoString} (hc : c ∈ stack) : c ≠ [] ∧ slash ∉ c := by
  induction h with
  | nil => simp at hc
  | plain hname _ ih =>
    rcases List.mem_cons.mp hc with rfl | hc
    · exact ⟨hname.ne_nil, hname.no_slash⟩
    · exact ih hc
  | up _ _ _ ih =>
    rcases List.mem_cons.mp hc with rfl | hc
    · decide
    · exact ih hc

/-- Components without slashes are the pieces of what they are joined to. -/
theorem pieces_join {c : GoString} {cs : List GoString} (h : ∀ x ∈ c :: cs, slash ∉ x) :
    pieces (join [slash] (c :: cs)) = c :: cs := by
  induction cs generalizing c with
  | nil => simpa [join] using pieces_of_not_mem (h c List.mem_cons_self)
  | cons d ds ih =>
    have hjoin : join [slash] (c :: d :: ds) = c ++ slash :: join [slash] (d :: ds) := by
      simp [join, List.intercalate_cons_cons]
    rw [hjoin, pieces_append, pieces_of_not_mem (h c List.mem_cons_self),
      ih fun x hx => h x (List.mem_cons_of_mem _ hx)]
    rfl

/-- Different lists of names are joined to different paths. -/
theorem join_slash_injective {cs ds : List GoString} (hcs : ∀ c ∈ cs, PlainName c)
    (hds : ∀ d ∈ ds, PlainName d) (h : join [slash] cs = join [slash] ds) : cs = ds := by
  have hpieces : ∀ xs : List GoString, (∀ x ∈ xs, PlainName x) →
      pieces (join [slash] xs) = if xs = [] then [[]] else xs := by
    intro xs hxs
    cases xs with
    | nil => rfl
    | cons x xs =>
      rw [pieces_join fun y hy => (hxs y hy).no_slash, if_neg (List.cons_ne_nil _ _)]
  have hnil : ∀ xs : List GoString, (∀ x ∈ xs, PlainName x) → [[]] ≠ xs := by
    rintro _ hxs rfl
    exact (hxs [] List.mem_cons_self).ne_nil rfl
  have heq := congrArg pieces h
  rw [hpieces cs hcs, hpieces ds hds] at heq
  split at heq
  · next hc =>
    split at heq
    · next hd => rw [hc, hd]
    · exact absurd heq (hnil ds hds)
  · split at heq
    · exact absurd heq.symm (hnil cs hcs)
    · exact heq

/-- The components of `clean p`, and what `clean` makes of them. -/
private theorem clean_components (p : GoString) :
    ∃ cs : List GoString,
      clean p = (if isAbs p then slash :: join [slash] cs
        else if join [slash] cs = [] then dot else join [slash] cs) ∧
      (cs.foldl (pushComponent (isAbs p)) []).reverse = cs ∧
      ∀ c ∈ cs, c ≠ [] ∧ slash ∉ c := by
  have hred : Reduced (isAbs p) ((pieces p).foldl (pushComponent (isAbs p)) []) :=
    reduced_foldl (slash_notMem_pieces p) .nil
  refine ⟨((pieces p).foldl (pushComponent (isAbs p)) []).reverse, rfl, ?_, fun c hc => ?_⟩
  · rw [hred.foldl_reverse]
  · exact hred.component (List.mem_reverse.mp hc)

/-- A clean path is its own normal form. -/
theorem clean_clean (p : GoString) : clean (clean p) = clean p := by
  obtain ⟨cs, hclean, hfold, hcs⟩ := clean_components p
  have hpieces : ∀ c cs', cs = c :: cs' → pieces (join [slash] cs) = cs := by
    rintro c cs' rfl
    exact pieces_join fun x hx => (hcs x hx).2
  rw [hclean]
  by_cases habs : isAbs p = true
  · -- the piece before the first slash is empty
    have hslash : pieces (slash :: join [slash] cs) = [] :: pieces (join [slash] cs) := by
      rw [pieces, if_pos rfl]
    rw [if_pos habs, clean, hslash]
    have hskip : pushComponent true [] [] = [] := rfl
    have habs' : isAbs (slash :: join [slash] cs) = true := by simp [isAbs]
    rw [habs', if_pos rfl, List.foldl_cons, hskip]
    cases cs with
    | nil => rfl
    | cons c cs' =>
      rw [habs] at hfold
      rw [hpieces c cs' rfl, hfold]
  · have hrel : isAbs p = false := by simpa using habs
    rw [hrel, if_neg Bool.false_ne_true]
    cases cs with
    | nil => decide
    -- a path that is not absolute does not begin with a slash when it is clean
    | cons c cs' =>
      obtain ⟨b, rest, hb⟩ := List.exists_cons_of_ne_nil (hcs c List.mem_cons_self).1
      have hne : b ≠ slash := by
        intro e
        exact (hcs c List.mem_cons_self).2 (by rw [hb, e]; exact List.mem_cons_self)
      obtain ⟨tail, htail⟩ : ∃ tail, join [slash] (c :: cs') = b :: tail := by
        cases cs' with
        | nil => exact ⟨rest, by simp [join, hb]⟩
        | cons d ds => exact ⟨_, by rw [join, List.intercalate_cons_cons, hb]; rfl⟩
      have hnil : join [slash] (c :: cs') ≠ [] := by simp [htail]
      have hrel' : isAbs (join [slash] (c :: cs')) = false := by simp [isAbs, htail, hne]
      rw [hrel] at hfold
      rw [if_neg hnil, clean, hrel', hpieces c cs' rfl, hfold]
      simp only [Bool.false_eq_true, if_false, if_neg hnil]

/-- What is joined is clean. -/
theorem clean_pathJoin {elems : List GoString} (elem : GoString) (hmem : elem ∈ elems)
    (hne : elem ≠ []) : clean (pathJoin elems) = pathJoin elems := by
  unfold pathJoin
  split
  · next hdrop =>
    have hall := List.dropWhile_eq_nil_iff.mp hdrop elem hmem
    exact absurd (by simpa using hall) hne
  · exact clean_clean _

/-! ## Entries of a subdirectory -/

private theorem join_concat_of_ne_nil {cs : List GoString} (hne : cs ≠ []) (name : GoString) :
    join [slash] (cs ++ [name]) = join [slash] cs ++ slash :: name := by
  induction cs with
  | nil => exact absurd rfl hne
  | cons c cs ih =>
    cases cs with
    | nil => simp [join]
    | cons d ds =>
      have hrest := ih (List.cons_ne_nil _ _)
      simp only [join, List.cons_append, List.intercalate_cons_cons] at hrest ⊢
      rw [hrest]
      simp only [List.append_assoc]

/-- Below a clean directory other than `/` and `.`, joining puts a slash in between. -/
theorem pathJoin_clean {p name : GoString} (hclean : clean p = p) (hroot : p ≠ [slash])
    (hdot : p ≠ dot) (h : PlainName name) : pathJoin [p, name] = p ++ slash :: name := by
  have hne : p ≠ [] := by
    rintro rfl
    exact absurd hclean (by decide)
  have habs : isAbs (p ++ slash :: name) = isAbs p := by
    cases p with
    | nil => exact absurd rfl hne
    | cons c s => rfl
  have hjoin : pathJoin [p, name] = clean (p ++ slash :: name) := by
    simp [pathJoin, hne, join]
  have hname : ∀ cs : List GoString, join [slash] (cs ++ [name]) ≠ [] := by
    intro cs hnil
    obtain ⟨pre, hpre⟩ := join_concat [slash] cs
    rw [hpre] at hnil
    exact h.ne_nil (List.append_eq_nil_iff.mp hnil).2
  -- the components of the directory, and the name behind them
  rw [hjoin, clean, habs, pieces_append, pieces_of_not_mem h.no_slash, List.foldl_append,
    List.foldl_cons, List.foldl_nil, pushComponent_plain h, List.reverse_cons]
  rw [clean] at hclean
  generalize ((pieces p).foldl (pushComponent (isAbs p)) []).reverse = cs at hclean ⊢
  by_cases hp : isAbs p = true
  · rw [if_pos hp] at hclean ⊢
    have hcs : cs ≠ [] := by
      rintro rfl
      exact hroot hclean.symm
    rw [join_concat_of_ne_nil hcs, ← List.cons_append, hclean]
  · rw [if_neg hp] at hclean ⊢
    rw [if_neg (hname cs)]
    by_cases hout : join [slash] cs = []
    · rw [if_pos hout] at hclean
      exact absurd hclean.symm hdot
    · rw [if_neg hout] at hclean
      have hcs : cs ≠ [] := by
        rintro rfl
        exact hout rfl
      rw [join_concat_of_ne_nil hcs, hclean]

/-- The path of an entry of a subdirectory. -/
theorem pathJoin_grandchild (dir : GoString) {sub name : GoString} (hsub : PlainName sub)
    (h : PlainName name) :
    pathJoin [pathJoin [dir, sub], name] = pathJoin [dir, sub] ++ slash :: name := by
  obtain ⟨pre, hpre⟩ := pathJoin_child dir
  apply pathJoin_clean (clean_pathJoin sub (by simp) hsub.ne_nil) _ _ h
  · rw [hpre sub hsub]
    intro heq
    obtain ⟨-, hs⟩ | ⟨-, hs⟩ := List.append_eq_singleton_iff.mp heq
    · exact hsub.no_slash (hs ▸ List.mem_cons_self)
    · exact hsub.ne_nil hs
  · rw [hpre sub hsub]
    intro heq
    obtain ⟨-, hs⟩ | ⟨-, hs⟩ := List.append_eq_singleton_iff.mp heq
    · exact hsub.ne_dot hs
    · exact hsub.ne_nil hs

/-- Different subdirectories have different entries. -/
theorem pathJoin_grandchild_injective (dir : GoString) {sub sub' name : GoString}
    (hsub : PlainName sub) (hsub' : PlainName sub') (h : PlainName name)
    (heq : pathJoin [pathJoin [dir, sub], name] = pathJoin [pathJoin [dir, sub'], name]) :
    sub = sub' := by
  rw [pathJoin_grandchild dir hsub h, pathJoin_grandchild dir hsub' h] at heq
  exact pathJoin_injective dir hsub hsub' (List.append_cancel_right heq)

/-! ## Paths from the root -/

theorem foldl_pushComponent_plain {rooted : Bool} {cs : List GoString}
    (hcs : ∀ c ∈ cs, PlainName c) (stack : List GoString) :
    cs.foldl (pushComponent rooted) stack = cs.reverse ++ stack := by
  induction cs generalizing stack with
  | nil => rfl
  | cons c cs ih =>
    rw [List.foldl_cons, pushComponent_plain (hcs c List.mem_cons_self),
      ih (fun d hd => hcs d (List.mem_cons_of_mem _ hd)), List.reverse_cons, List.append_assoc]
    rfl

/-- The pieces of a path from the root, pushed one after the other, are its names. -/
theorem foldl_pieces_rooted {cs : List GoString} (hcs : ∀ c ∈ cs, PlainName c) :
    (pieces (slash :: join [slash] cs)).foldl (pushComponent true) [] = cs.reverse := by
  have hskip : pushComponent true [] [] = [] := rfl
  rw [pieces, if_pos rfl, List.foldl_cons, hskip]
  cases cs with
  | nil => rfl
  | cons c cs =>
    rw [pieces_join fun x hx => (hcs x hx).no_slash, foldl_pushComponent_plain hcs, List.append_nil]

/-- Joining a path from the root with a name, or with nothing. -/
theorem pathJoin_rooted {cs : List GoString} (hcs : ∀ c ∈ cs, PlainName c) {name : GoString}
    (hname : name = [] ∨ PlainName name) :
    pathJoin [slash :: join [slash] cs, name] =
      slash :: join [slash] (if name = [] then cs else cs ++ [name]) := by
  have hslash : slash ∉ name := by
    rcases hname with rfl | h
    · exact List.not_mem_nil
    · exact h.no_slash
  have hjoin : pathJoin [slash :: join [slash] cs, name] =
      clean ((slash :: join [slash] cs) ++ slash :: name) := by
    simp [pathJoin, join]
  have habs : isAbs ((slash :: join [slash] cs) ++ slash :: name) = true := by simp [isAbs]
  rw [hjoin, clean, habs, if_pos rfl, pieces_append, pieces_of_not_mem hslash, List.foldl_append,
    foldl_pieces_rooted hcs, List.foldl_cons, List.foldl_nil]
  rcases hname with rfl | h
  · have hskip : pushComponent true cs.reverse [] = cs.reverse := by simp [pushComponent]
    rw [hskip, List.reverse_reverse, if_pos rfl]
  · rw [pushComponent_plain h, List.reverse_cons, List.reverse_reverse, if_neg h.ne_nil]

end Go
