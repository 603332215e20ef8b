import Mathlib.Data.List.Basic
import Mathlib.Tactic.Common

/-!
# Union mounts

A union mount shows a stack of directory trees as one. The branches are asked for a path
in order: a branch decides a path if it has an entry there or a file above it, and a
branch whose whiteouts count hides what it names from the branches behind it. A whiteout
for `n` is an entry `mark n` next to where `n` would be; names that are `hidden` (the
marks, above all) are never shown.

- `lookup_skip`: a branch with nothing in it can be left out
- `sameTree_demote`: when the whiteouts of a branch can be disregarded
- `sameTree_flatten`: what a mount shows is a tree, and shows the same when it is mounted itself
-/

namespace UnionMount

variable {ν : Type u} {β : Type v}

/-- A file with its contents, or a directory. -/
inductive Entry (β : Type v) where
  | file (data : β)
  | dir
  deriving DecidableEq, Repr

def Entry.isFile : Entry β → Bool
  | file _ => true
  | dir => false

/-- A directory tree, by paths: an entry stands in a directory. -/
structure Branch (ν : Type u) (β : Type v) where
  entry : List ν → Option (Entry β)
  root : entry [] = some .dir
  closed : ∀ p n, (entry (p ++ [n])).isSome → entry p = some .dir

/-- How a branch is mounted. -/
inductive Flag where
  | rw
  | roWh
  | ro
  deriving DecidableEq, Repr

/-- The whiteouts of the branch count. -/
def Flag.honours : Flag → Bool
  | rw | roWh => true
  | ro => false

/-- The names of whiteouts, and the names that are not shown. -/
structure Whiteouts (ν : Type u) where
  mark : ν → ν
  hidden : ν → Bool

/-- The directories passed on the way down a path from `dir`, each with the next name. -/
def passed (dir : List ν) : List ν → List (List ν × ν)
  | [] => []
  | n :: rest => (dir, n) :: passed (dir ++ [n]) rest

/-- There is a file above the path. -/
def Branch.blocks (b : Branch ν β) (q : List ν) : Bool :=
  (passed [] q).any fun s => (b.entry s.1).any Entry.isFile

/-- The branch decides what stands at the path. -/
def Branch.covers (b : Branch ν β) (q : List ν) : Bool := (b.entry q).isSome || b.blocks q

/-- The branch has a whiteout for the path or a directory above it. -/
def Branch.whites (w : Whiteouts ν) (b : Branch ν β) (q : List ν) : Bool :=
  (passed [] q).any fun s => (b.entry (s.1 ++ [w.mark s.2])).isSome

/-- What a stack of branches has at a path. -/
def lookup (w : Whiteouts ν) : List (Flag × Branch ν β) → List ν → Option (Entry β)
  | [], _ => none
  | (flag, b) :: bs, q =>
    if b.covers q then b.entry q
    else if flag.honours && b.whites w q then none
    else lookup w bs q

/-- What the mount shows at a path. -/
def shown (w : Whiteouts ν) (bs : List (Flag × Branch ν β)) (q : List ν) : Option (Entry β) :=
  if q.any w.hidden then none else lookup w bs q

/-- Two mounts show the same tree. -/
def SameTree (w : Whiteouts ν) (bs bs' : List (Flag × Branch ν β)) : Prop :=
  ∀ q, shown w bs q = shown w bs' q

/-! ## Two small branches -/

/-- The empty directory. -/
def Branch.empty : Branch ν β where
  entry p := if p.isEmpty then some .dir else none
  root := rfl
  closed p n h := by simp at h

/-- A directory with one file in it. -/
def Branch.single [DecidableEq ν] (name : ν) (data : β) : Branch ν β where
  entry
    | [] => some .dir
    | [n] => if n = name then some (.file data) else none
    | _ :: _ :: _ => none
  root := rfl
  closed p n h := by
    match p with
    | [] => rfl
    | [_] => exact absurd h (by simp)
    | _ :: _ :: _ => exact absurd h (by simp)

/-! ## What the two branches cover -/

section

variable {b : Branch ν β} {w : Whiteouts ν} {q : List ν}

/-- The root is an entry of every branch. -/
theorem Branch.covers_nil (b : Branch ν β) : b.covers [] = true := by
  rw [covers, b.root]
  rfl

theorem Branch.empty_covers (hq : q ≠ []) : (Branch.empty (ν := ν) (β := β)).covers q = false := by
  have hentry : (Branch.empty (ν := ν) (β := β)).entry q = none := by
    cases q with
    | nil => exact absurd rfl hq
    | cons n q => rfl
  have hblocks : (Branch.empty (ν := ν) (β := β)).blocks q = false := by
    refine List.any_eq_false.mpr fun s _ => ?_
    cases hs : s.1 <;> simp [Branch.empty, Entry.isFile]
  rw [covers, hentry, hblocks]
  rfl

theorem Branch.empty_whites : (Branch.empty (ν := ν) (β := β)).whites w q = false := by
  refine List.any_eq_false.mpr fun s _ => ?_
  simp [Branch.empty]

/-- A branch with one file has no whiteout, unless the file is one. -/
theorem Branch.single_whites [DecidableEq ν] {name : ν} {data : β} (h : ∀ n, w.mark n ≠ name) :
    (Branch.single name data).whites w q = false := by
  refine List.any_eq_false.mpr fun s _ => ?_
  match hs : s.1 with
  | [] => simp [Branch.single, h]
  | [_] => simp [Branch.single]
  | _ :: _ :: _ => simp [Branch.single]

/-! ## Lookup -/

variable {bs bs' : List (Flag × Branch ν β)} {flag : Flag}

theorem lookup_of_covers (h : b.covers q = true) : lookup w ((flag, b) :: bs) q = b.entry q := by
  rw [lookup, if_pos h]

theorem lookup_of_not_covers (h : b.covers q = false) (hw : b.whites w q = false) :
    lookup w ((flag, b) :: bs) q = lookup w bs q := by
  rw [lookup, h, hw, Bool.and_false]
  rfl

/-- Behind a whiteout that counts, nothing is found. -/
theorem lookup_of_whites (h : b.covers q = false) (hw : b.whites w q = true)
    (hflag : flag.honours = true) : lookup w ((flag, b) :: bs) q = none := by
  rw [lookup, h, hw, hflag]
  rfl

/-- Behind a whiteout that does not count, the other branches are asked. -/
theorem lookup_of_not_honours (h : b.covers q = false) (hflag : flag.honours = false) :
    lookup w ((flag, b) :: bs) q = lookup w bs q := by
  rw [lookup, h, hflag, Bool.false_and]
  rfl

/-- An empty branch in front of another one changes nothing. -/
theorem lookup_skip (flag' : Flag) :
    lookup w ((flag', Branch.empty) :: (flag, b) :: bs) q = lookup w ((flag, b) :: bs) q := by
  by_cases hq : q = []
  · subst hq
    rw [lookup_of_covers (Branch.covers_nil _), lookup_of_covers b.covers_nil, b.root]
    rfl
  · exact lookup_of_not_covers (Branch.empty_covers hq) Branch.empty_whites

/-! ## A branch whose whiteouts stop counting -/

/-- The whiteouts of a branch hide nothing that the branches behind it show. -/
def HidesNothing (w : Whiteouts ν) (b : Branch ν β) (bs : List (Flag × Branch ν β)) : Prop :=
  ∀ q, b.whites w q = true → b.covers q = false → shown w bs q = none

/-- Mount a branch behind an empty one, with a flag under which its whiteouts do not count:
    the tree is the same if and only if the whiteouts hid nothing. -/
theorem sameTree_demote (hflag : flag.honours = true) :
    SameTree w ((.rw, Branch.empty) :: (.ro, b) :: bs) ((flag, b) :: bs) ↔ HidesNothing w b bs := by
  constructor
  · intro hsame q hwh hcov
    have hq := hsame q
    unfold shown at hq ⊢
    split
    · rfl
    · next hhid =>
      rw [if_neg hhid, if_neg hhid, lookup_skip, lookup_of_not_honours hcov rfl,
        lookup_of_whites hcov hwh hflag] at hq
      exact hq
  · intro hhides q
    unfold shown
    split
    · rfl
    · next hhid =>
      rw [lookup_skip]
      -- what the branch decides itself, it decides in both places
      by_cases hcov : b.covers q = true
      · rw [lookup_of_covers hcov, lookup_of_covers hcov]
      · have hcov' := Bool.eq_false_iff.mpr hcov
        rw [lookup_of_not_honours hcov' rfl]
        -- a whiteout counts in the second mount only
        by_cases hwh : b.whites w q = true
        · have hnone := hhides q hwh hcov'
          rw [shown, if_neg hhid] at hnone
          rw [lookup_of_whites hcov' hwh hflag, hnone]
        · rw [lookup_of_not_covers hcov' (Bool.eq_false_iff.mpr hwh)]

end

/-! ## The tree that a mount shows -/

section

variable {w : Whiteouts ν} {bs : List (Flag × Branch ν β)}

theorem passed_append (dir p : List ν) (n : ν) :
    passed dir (p ++ [n]) = passed dir p ++ [(dir ++ p, n)] := by
  induction p generalizing dir with
  | nil => simp [passed]
  | cons m p ih => simp [passed, ih]

/-- A whiteout for a path is one for what stands below it. -/
theorem Branch.whites_append {b : Branch ν β} {p : List ν} (n : ν) (h : b.whites w p = true) :
    b.whites w (p ++ [n]) = true := by
  rw [whites, passed_append, List.any_append, Bool.or_eq_true]
  exact .inl h

/-- A branch that decides a path has a directory there, or decides what stands below. -/
theorem Branch.entry_eq_dir {b : Branch ν β} {p : List ν} {n : ν} (h : b.covers p = true)
    (hbelow : b.covers (p ++ [n]) = false) : b.entry p = some .dir := by
  rw [covers, Bool.or_eq_false_iff] at hbelow
  have hblocks := hbelow.2
  rw [blocks, passed_append, List.any_append, Bool.or_eq_false_iff] at hblocks
  rw [covers, Bool.or_eq_true] at h
  rcases h with hentry | habove
  · obtain ⟨e, he⟩ := Option.isSome_iff_exists.mp hentry
    cases e with
    | dir => exact he
    | file data =>
      have hfile := hblocks.2
      simp [he, Entry.isFile] at hfile
  · rw [blocks, hblocks.1] at habove
    cases habove

/-- What is found stands in a directory that is found. -/
theorem lookup_closed {p : List ν} {n : ν} (h : (lookup w bs (p ++ [n])).isSome) :
    lookup w bs p = some .dir := by
  induction bs with
  | nil => cases h
  | cons fb bs ih =>
    obtain ⟨flag, b⟩ := fb
    by_cases hbelow : b.covers (p ++ [n]) = true
    · rw [lookup_of_covers hbelow] at h
      have hdir := b.closed p n h
      have hcovers : b.covers p = true := by
        rw [Branch.covers, hdir]
        rfl
      rw [lookup_of_covers hcovers, hdir]
    · have hbelow := Bool.eq_false_iff.mpr hbelow
      by_cases hcovers : b.covers p = true
      · rw [lookup_of_covers hcovers, Branch.entry_eq_dir hcovers hbelow]
      · rw [lookup, if_neg (Bool.eq_false_iff.mp hbelow)] at h
        split at h
        · cases h
        · next hwhites =>
          -- a whiteout above the path would have counted for what stands below
          have hno : ¬(flag.honours && b.whites w p) = true := by
            intro hp
            rw [Bool.and_eq_true] at hp hwhites
            exact hwhites ⟨hp.1, Branch.whites_append n hp.2⟩
          rw [lookup, if_neg hcovers, if_neg hno]
          exact ih h

/-- The tree that a mount shows. -/
def flatten (w : Whiteouts ν) (bs : List (Flag × Branch ν β)) : Branch ν β where
  entry q := if q.isEmpty then some .dir else shown w bs q
  root := rfl
  closed p n h := by
    have hbelow : (shown w bs (p ++ [n])).isSome := by simpa using h
    unfold shown at hbelow
    split at hbelow
    · cases hbelow
    · next hhid =>
      rw [List.any_append, Bool.or_eq_true, not_or] at hhid
      split
      · rfl
      · rw [shown, if_neg hhid.1]
        exact lookup_closed hbelow

/-- Of a mount that has a branch, the root is shown as well. -/
theorem flatten_entry (hne : bs ≠ []) (q : List ν) :
    (flatten w bs).entry q = shown w bs q := by
  cases q with
  | nil =>
    obtain ⟨⟨flag, b⟩, rest, rfl⟩ := List.exists_cons_of_ne_nil hne
    rw [(flatten w _).root, shown, if_neg (by simp), lookup_of_covers b.covers_nil, b.root]
  | cons n q => rfl

/-- The tree that a mount shows, mounted behind an empty branch, shows the same. -/
theorem sameTree_flatten (hne : bs ≠ []) (flag flag' : Flag) (hflag : flag'.honours = false) :
    SameTree w [(flag, Branch.empty), (flag', flatten w bs)] bs := by
  intro q
  have hentry := flatten_entry (w := w) hne q
  by_cases hhid : q.any w.hidden = true
  · rw [shown, shown, if_pos hhid, if_pos hhid]
  · rw [shown, if_neg hhid, lookup_skip]
    by_cases hcovers : (flatten w bs).covers q = true
    · rw [lookup_of_covers hcovers, hentry]
    · have hcovers := Bool.eq_false_iff.mpr hcovers
      have hnone : (flatten w bs).entry q = none := by
        rw [Branch.covers, Bool.or_eq_false_iff] at hcovers
        exact Option.not_isSome_iff_eq_none.mp (Bool.eq_false_iff.mp hcovers.1)
      rw [lookup_of_not_honours hcovers hflag, lookup, ← hentry, hnone]

end

end UnionMount
