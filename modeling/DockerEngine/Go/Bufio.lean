import DockerEngine.Go.Str
import Mathlib.Data.List.Basic
import Mathlib.Tactic.Common

/-!
# Buffered reading (Go's package `bufio`)

A connection delivers a stream of bytes in chunks: a `Read` returns what there is of the
first chunk, as far as it fits, and the end of file when nothing is left. A `Reader` keeps
up to `bufSize` bytes that it has read and not yet handed out.

All that matters of a reader is `rest`, the bytes it still has to hand out, whatever the
chunks are:

- `readString_spec`: a string up to a delimiter
- `yields_rest`: any sequence of reads
-/

namespace Go

/-! ## Connections -/

/-- The chunks that are still to come. No chunk is empty. -/
structure Conn where
  chunks : List (List UInt8)
  nonempty : [] ∉ chunks

namespace Conn

def bytes (conn : Conn) : List UInt8 := conn.chunks.flatten

/-- `Read` into `n` bytes; `none` is the end of file. -/
def read : Conn → Nat → Option (List UInt8) × Conn
  | ⟨[], h⟩, _ => (none, ⟨[], h⟩)
  | ⟨chunk :: chunks, h⟩, n =>
    if hn : chunk.length ≤ n then
      (some chunk, ⟨chunks, fun hmem => h (List.mem_cons_of_mem _ hmem)⟩)
    else
      (some (chunk.take n), ⟨chunk.drop n :: chunks, by
        rw [List.mem_cons, not_or, List.nil_eq, List.drop_eq_nil_iff]
        exact ⟨hn, fun hmem => h (List.mem_cons_of_mem _ hmem)⟩⟩)

theorem read_none {conn conn' : Conn} {n : Nat} (h : conn.read n = (none, conn')) :
    conn.bytes = [] ∧ conn' = conn := by
  obtain ⟨chunks, hne⟩ := conn
  cases chunks with
  | nil =>
    cases h
    exact ⟨rfl, rfl⟩
  | cons chunk chunks =>
    rw [read] at h
    split at h <;> simp at h

theorem read_some {conn conn' : Conn} {n : Nat} {data : List UInt8}
    (h : conn.read n = (some data, conn')) :
    conn.bytes = data ++ conn'.bytes ∧ data.length ≤ n ∧ (0 < n → data ≠ []) := by
  obtain ⟨chunks, hne⟩ := conn
  cases chunks with
  | nil => simp [read] at h
  | cons chunk chunks =>
    have hchunk : chunk ≠ [] := fun e => hne (e ▸ List.mem_cons_self)
    rw [read] at h
    split at h
    · next hn =>
      cases h
      exact ⟨List.flatten_cons, hn, fun _ => hchunk⟩
    · next hn =>
      cases h
      refine ⟨?_, List.length_take_le _ _, fun hpos => ?_⟩
      · simp only [bytes, List.flatten_cons]
        rw [← List.append_assoc, List.take_append_drop]
      · rw [ne_eq, List.take_eq_nil_iff, not_or]
        exact ⟨by omega, hchunk⟩

end Conn

/-! ## Readers -/

/-- The errors of a connection. -/
inductive ReadErr where
  | eof
  deriving DecidableEq, Repr

/-- The errors of `ReadSlice`. -/
inductive SliceErr where
  | read (err : ReadErr)
  | bufferFull
  deriving DecidableEq, Repr

def bufSize : Nat := 4096

/-- `bytes.IndexByte`. -/
def indexByte (s : List UInt8) (c : UInt8) : Option Nat := s.findIdx? fun b => b = c

theorem indexByte_eq_none {s : List UInt8} {c : UInt8} : indexByte s c = none ↔ c ∉ s := by
  rw [indexByte, List.findIdx?_eq_none_iff]
  constructor
  · intro h hmem
    simpa using h c hmem
  · intro h b hb
    simp only [decide_eq_false_iff_not]
    rintro rfl
    exact h hb

theorem indexByte_append {s tail : List UInt8} {c : UInt8} (h : c ∉ s) :
    indexByte (s ++ c :: tail) c = some s.length := by
  rw [indexByte, List.findIdx?_append, ← indexByte, indexByte_eq_none.mpr h]
  simp [List.findIdx?_cons]

/-- A `bufio.Reader`: what it reads from, what is in its buffer, and an error it is to
    report. -/
structure Reader where
  rd : Conn
  buf : List UInt8
  err : Option ReadErr

namespace Reader

/-- `bufio.NewReader`. -/
def new (rd : Conn) : Reader := ⟨rd, [], none⟩

/-- What the reader still has to hand out. -/
def rest (r : Reader) : List UInt8 := r.buf ++ r.rd.bytes

def fill (r : Reader) : Reader :=
  match r.rd.read (bufSize - r.buf.length) with
  | (none, rd) => { r with rd, err := some .eof }
  | (some data, rd) => { r with rd, buf := r.buf ++ data }

/-- `fill` reads something, or finds the end of file. -/
theorem fill_cases (r : Reader) :
    (r.rd.bytes = [] ∧ r.fill = { r with err := some .eof }) ∨
    ∃ data, r.fill.buf = r.buf ++ data ∧ r.rd.bytes = data ++ r.fill.rd.bytes ∧
      r.fill.err = r.err ∧ (r.buf.length < bufSize → data ≠ []) := by
  rw [fill]
  rcases hread : r.rd.read (bufSize - r.buf.length) with ⟨data, rd⟩
  cases data with
  | none =>
    obtain ⟨hbytes, rfl⟩ := Conn.read_none hread
    exact .inl ⟨hbytes, rfl⟩
  | some data =>
    obtain ⟨hbytes, -, hne⟩ := Conn.read_some hread
    exact .inr ⟨data, rfl, hbytes, rfl, fun hlt => hne (by omega)⟩

theorem fill_rest (r : Reader) : r.fill.rest = r.rest := by
  obtain ⟨-, hfill⟩ | ⟨data, hbuf, hbytes, -⟩ := r.fill_cases
  · rw [hfill]
    rfl
  · rw [rest, rest, hbuf, hbytes, List.append_assoc]

/-- The loop of `ReadSlice`. -/
def readMore (r : Reader) (delim : UInt8) : List UInt8 × Option SliceErr × Reader :=
  match _herr : r.err with
  | some err => (r.buf, some (.read err), { r with buf := [], err := none })
  | none =>
    -- only what is new is searched
    match indexByte (r.fill.buf.drop r.buf.length) delim with
    | some i =>
      let n := r.buf.length + i + 1
      (r.fill.buf.take n, none, { r.fill with buf := r.fill.buf.drop n })
    | none =>
      if _hfull : bufSize ≤ r.fill.buf.length then
        (r.fill.buf, some .bufferFull, { r.fill with buf := [] })
      else readMore r.fill delim
termination_by r.rd.bytes.length + (if r.err = none then 1 else 0)
decreasing_by
  obtain ⟨-, hfill⟩ | ⟨data, hbuf, hbytes, herr, hne⟩ := r.fill_cases
  · simp [hfill, _herr]
  · have hlt : r.buf.length < bufSize := by
      rw [hbuf, List.length_append] at _hfull
      omega
    have hpos := List.length_pos_iff.mpr (hne hlt)
    rw [hbytes, herr, List.length_append]
    omega

/-- `ReadSlice`. -/
def readSlice (r : Reader) (delim : UInt8) : List UInt8 × Option SliceErr × Reader :=
  match indexByte r.buf delim with
  | some i => (r.buf.take (i + 1), none, { r with buf := r.buf.drop (i + 1) })
  | none => r.readMore delim

theorem readMore_err {r : Reader} {delim : UInt8} {err : ReadErr} (herr : r.err = some err) :
    r.readMore delim = (r.buf, some (.read err), { r with buf := [], err := none }) := by
  rw [readMore]
  split
  · next herr' =>
    cases herr.symm.trans herr'
    rfl
  · next herr' => simp [herr] at herr'

theorem readMore_found {r : Reader} {delim : UInt8} {i : Nat} (herr : r.err = none)
    (hi : indexByte (r.fill.buf.drop r.buf.length) delim = some i) :
    r.readMore delim = (r.fill.buf.take (r.buf.length + i + 1), none,
      { r.fill with buf := r.fill.buf.drop (r.buf.length + i + 1) }) := by
  rw [readMore]
  split
  · next herr' => simp [herr] at herr'
  · rw [hi]

theorem readMore_next {r : Reader} {delim : UInt8} (herr : r.err = none)
    (hi : indexByte (r.fill.buf.drop r.buf.length) delim = none) :
    r.readMore delim = if bufSize ≤ r.fill.buf.length then
      (r.fill.buf, some .bufferFull, { r.fill with buf := [] }) else r.fill.readMore delim := by
  rw [readMore]
  split
  · next herr' => simp [herr] at herr'
  · split
    · next hi' => simp [hi] at hi'
    · split <;> rfl

/-- `ReadSlice` hands out the front of what is left, and a whole buffer if it is full. -/
theorem readMore_rest {r r' : Reader} {delim : UInt8} {frag : List UInt8} {err : Option SliceErr}
    (h : r.readMore delim = (frag, err, r')) :
    r.rest = frag ++ r'.rest ∧ (err = some .bufferFull → bufSize ≤ frag.length) := by
  induction r using readMore.induct delim with
  | case1 r err₀ herr =>
    rw [readMore_err herr] at h
    cases h
    exact ⟨rfl, by simp⟩
  | case2 r herr i hi =>
    rw [readMore_found herr hi] at h
    cases h
    refine ⟨?_, by simp⟩
    rw [← r.fill_rest, rest, rest, ← List.append_assoc, List.take_append_drop]
  | case3 r herr hi hfull =>
    rw [readMore_next herr hi, if_pos hfull] at h
    cases h
    exact ⟨r.fill_rest.symm, fun _ => hfull⟩
  | case4 r herr hi hfull ih =>
    rw [readMore_next herr hi, if_neg hfull] at h
    rw [← r.fill_rest]
    exact ih h

theorem readSlice_rest {r r' : Reader} {delim : UInt8} {frag : List UInt8}
    {err : Option SliceErr} (h : r.readSlice delim = (frag, err, r')) :
    r.rest = frag ++ r'.rest ∧ (err = some .bufferFull → bufSize ≤ frag.length) := by
  rw [readSlice] at h
  split at h
  · cases h
    refine ⟨?_, by simp⟩
    rw [rest, rest, ← List.append_assoc, List.take_append_drop]
  · exact readMore_rest h

/-- `ReadString`: the slices up to the first that ends otherwise than with a full buffer. -/
def readString (r : Reader) (delim : UInt8) : List UInt8 × Option ReadErr × Reader :=
  match _h : r.readSlice delim with
  | (frag, none, r') => (frag, none, r')
  | (frag, some (.read err), r') => (frag, some err, r')
  | (frag, some .bufferFull, r') =>
    let (line, err, r'') := r'.readString delim
    (frag ++ line, err, r'')
termination_by r.rest.length
decreasing_by
  obtain ⟨hrest, hfull⟩ := readSlice_rest _h
  have hlong := hfull rfl
  rw [hrest, List.length_append]
  simp only [bufSize] at hlong
  omega

theorem readString_found {r r' : Reader} {delim : UInt8} {frag : List UInt8}
    (h : r.readSlice delim = (frag, none, r')) : r.readString delim = (frag, none, r') := by
  rw [readString]
  split
  · next h' => cases h.symm.trans h'; rfl
  · next h' => cases h.symm.trans h'
  · next h' => cases h.symm.trans h'

theorem readString_next {r r' : Reader} {delim : UInt8} {frag : List UInt8}
    (h : r.readSlice delim = (frag, some .bufferFull, r')) :
    r.readString delim = (frag ++ (r'.readString delim).1, (r'.readString delim).2) := by
  rw [readString]
  split
  · next h' => cases h.symm.trans h'
  · next h' => cases h.symm.trans h'
  · next h' => cases h.symm.trans h'; rfl

/-! ## A line -/

/-- The bytes in front of a delimiter, when the first bytes have none. -/
theorem split_line {buf rest line tail : List UInt8} {delim : UInt8} (hline : delim ∉ line)
    (h : buf ++ rest = line ++ delim :: tail) :
    (delim ∉ buf ∧ ∃ line', line = buf ++ line' ∧ rest = line' ++ delim :: tail) ∨
    ∃ tail', buf = line ++ delim :: tail' ∧ tail = tail' ++ rest := by
  rcases List.append_eq_append_iff.mp h with ⟨line', rfl, hrest⟩ | ⟨tail', hbuf, htail⟩
  · exact .inl ⟨fun hmem => hline (List.mem_append_left _ hmem), line', rfl, hrest⟩
  · cases tail' with
    | nil =>
      rw [List.append_nil] at hbuf
      exact .inl ⟨hbuf ▸ hline, [], by simp [hbuf], by simpa using htail.symm⟩
    | cons b tail' =>
      simp only [List.cons_append, List.cons.injEq] at htail
      obtain ⟨rfl, rfl⟩ := htail
      exact .inr ⟨tail', hbuf, rfl⟩

theorem take_line (line tail : List UInt8) (delim : UInt8) :
    (line ++ delim :: tail).take (line.length + 1) = line ++ [delim] := by
  rw [List.take_length_add_append]
  rfl

theorem drop_line (line tail : List UInt8) (delim : UInt8) :
    (line ++ delim :: tail).drop (line.length + 1) = tail := by
  rw [List.drop_length_add_append]
  rfl

/-- While a line is searched, `fill` gets to its end or leaves the buffer without a
    delimiter. -/
theorem fill_line {r : Reader} {delim : UInt8} {line tail : List UInt8} (hline : delim ∉ line)
    (hrest : r.rest = line ++ delim :: tail) (herr : r.err = none) (hbuf : delim ∉ r.buf) :
    r.fill.err = none ∧
    ((delim ∉ r.fill.buf ∧ indexByte (r.fill.buf.drop r.buf.length) delim = none) ∨
     ∃ i tail', r.buf.length + i = line.length ∧ r.fill.buf = line ++ delim :: tail' ∧
      tail = tail' ++ r.fill.rd.bytes ∧
      indexByte (r.fill.buf.drop r.buf.length) delim = some i) := by
  obtain ⟨-, line', rfl, hbytes⟩ | ⟨tail', hmem, -⟩ := split_line hline hrest
  · obtain ⟨hnil, -⟩ | ⟨data, hfill, hdata, herr', -⟩ := r.fill_cases
    · simp [hnil] at hbytes
    rw [herr', hfill, List.drop_left]
    refine ⟨herr, ?_⟩
    have hline' : delim ∉ line' := fun hmem => hline (List.mem_append_right _ hmem)
    obtain ⟨hno, -⟩ | ⟨tail', rfl, htail⟩ := split_line hline' (hdata.symm.trans hbytes)
    · refine .inl ⟨fun hmem => ?_, indexByte_eq_none.mpr hno⟩
      rcases List.mem_append.mp hmem with h | h
      · exact hbuf h
      · exact hno h
    · exact .inr ⟨line'.length, tail', by simp, by simp, htail, indexByte_append hline'⟩
  · simp [hmem] at hbuf

/-- A slice of a line ends with the line, or is a part of it that fills the buffer. -/
def SliceOf (line tail : List UInt8) (delim : UInt8) :
    List UInt8 × Option SliceErr × Reader → Prop
  | (frag, err, r') => r'.err = none ∧
    ((err = none ∧ frag = line ++ [delim] ∧ r'.rest = tail) ∨
     ∃ line', err = some .bufferFull ∧ line = frag ++ line' ∧
      r'.rest = line' ++ delim :: tail)

theorem readMore_spec {r : Reader} {delim : UInt8} {line tail : List UInt8}
    (hline : delim ∉ line) (hrest : r.rest = line ++ delim :: tail)
    (herr : r.err = none) (hbuf : delim ∉ r.buf) :
    SliceOf line tail delim (r.readMore delim) := by
  induction r using readMore.induct delim with
  | case1 r err₀ herr₀ => simp [herr] at herr₀
  -- after a fill: the delimiter is there, the buffer is full, or there is another fill
  | case2 r _ i hi =>
    obtain ⟨herr', ⟨-, hno⟩ | ⟨j, tail', hj, hfill, htail, hfound⟩⟩ :=
      fill_line hline hrest herr hbuf
    · rw [hi] at hno
      simp at hno
    · rw [hi] at hfound
      cases hfound
      rw [readMore_found herr hi, hj, hfill]
      refine ⟨herr', .inl ⟨rfl, ?_, ?_⟩⟩
      · exact take_line line tail' delim
      · rw [rest, drop_line, htail]
  | case3 r _ hi hfull =>
    obtain ⟨herr', ⟨hno, -⟩ | ⟨j, tail', hj, hfill, htail, hfound⟩⟩ :=
      fill_line hline hrest herr hbuf
    · rw [readMore_next herr hi, if_pos hfull]
      rw [← fill_rest] at hrest
      obtain ⟨-, line', rfl, hline'⟩ | ⟨tail', hmem, -⟩ := split_line hline hrest
      · exact ⟨herr', .inr ⟨line', rfl, rfl, hline'⟩⟩
      · simp [hmem] at hno
    · rw [hi] at hfound
      simp at hfound
  | case4 r _ hi hfull ih =>
    obtain ⟨herr', ⟨hno, -⟩ | ⟨j, tail', hj, hfill, htail, hfound⟩⟩ :=
      fill_line hline hrest herr hbuf
    · rw [readMore_next herr hi, if_neg hfull]
      apply ih
      · rw [fill_rest, hrest]
      · exact herr'
      · exact hno
    · rw [hi] at hfound
      simp at hfound

theorem readSlice_spec {r : Reader} {delim : UInt8} {line tail : List UInt8}
    (hline : delim ∉ line) (hrest : r.rest = line ++ delim :: tail) (herr : r.err = none) :
    SliceOf line tail delim (r.readSlice delim) := by
  obtain ⟨hno, -⟩ | ⟨tail', hbuf, htail⟩ := split_line hline hrest
  · rw [readSlice, indexByte_eq_none.mpr hno]
    exact readMore_spec hline hrest herr hno
  · rw [readSlice, hbuf, indexByte_append hline]
    refine ⟨herr, .inl ⟨rfl, ?_, ?_⟩⟩
    · exact take_line line tail' delim
    · rw [rest, drop_line, htail]

/-- `ReadString` returns the line with its delimiter, and leaves what follows it. -/
theorem readString_spec {r : Reader} {delim : UInt8} {line tail : List UInt8}
    (hline : delim ∉ line) (hrest : r.rest = line ++ delim :: tail) (herr : r.err = none) :
    ∃ r', r.readString delim = (line ++ [delim], none, r') ∧ r'.rest = tail ∧
      r'.err = none := by
  induction r using readString.induct delim generalizing line with
  | case1 r frag r' h =>
    have hspec := readSlice_spec hline hrest herr
    rw [h] at hspec
    obtain ⟨herr', ⟨-, rfl, htail⟩ | ⟨line', hfull, -⟩⟩ := hspec
    · exact ⟨r', readString_found h, htail, herr'⟩
    · simp at hfull
  | case2 r frag err r' h =>
    have hspec := readSlice_spec hline hrest herr
    rw [h] at hspec
    obtain ⟨-, ⟨hnone, -⟩ | ⟨line', hfull, -⟩⟩ := hspec
    · simp at hnone
    · simp at hfull
  | case3 r frag r' h _ _ _ _ ih =>
    have hspec := readSlice_spec hline hrest herr
    rw [h] at hspec
    obtain ⟨herr', ⟨hnone, -⟩ | ⟨line', -, rfl, htail⟩⟩ := hspec
    · simp at hnone
    · obtain ⟨r'', hstring, hrest'', herr''⟩ :=
        ih (fun hmem => hline (List.mem_append_right _ hmem)) htail herr'
      refine ⟨r'', ?_, hrest'', herr''⟩
      rw [readString_next h, hstring, List.append_assoc]

/-! ## What reads return -/

def copyOut (r : Reader) (n : Nat) : List UInt8 × Reader :=
  (r.buf.take n, { r with buf := r.buf.drop n })

/-- `Read` into `n` bytes. -/
def read (r : Reader) (n : Nat) : List UInt8 × Option ReadErr × Reader :=
  if n = 0 then ([], r.err, { r with err := none })
  else if r.buf ≠ [] then ((r.copyOut n).1, none, (r.copyOut n).2)
  else if r.err ≠ none then ([], r.err, { r with err := none })
  else if bufSize ≤ n then
    -- the buffer is passed by
    match r.rd.read n with
    | (none, rd) => ([], some .eof, { r with rd })
    | (some data, rd) => (data, none, { r with rd })
  else if r.fill.buf = [] then ([], r.fill.err, { r.fill with err := none })
  else ((r.fill.copyOut n).1, none, (r.fill.copyOut n).2)

/-- What reads into `ns` bytes return, one after the other, up to the first error. -/
def reads : Reader → List Nat → List UInt8 × Option ReadErr
  | _, [] => ([], none)
  | r, n :: ns =>
    match r.read n with
    | (data, some err, _) => (data, some err)
    | (data, none, r') => (data ++ (r'.reads ns).1, (r'.reads ns).2)

/-- However it is read, the reader returns `s` and then the end of file. -/
def Yields (r : Reader) (s : List UInt8) : Prop :=
  ∀ ns, (r.reads ns).1 <+: s ∧ ((r.reads ns).2 ≠ none → (r.reads ns).1 = s) ∧
    (s.length < (ns.filter (0 < ·)).length → (r.reads ns).2 = some .eof)

theorem copyOut_rest (r : Reader) (n : Nat) :
    r.rest = (r.copyOut n).1 ++ (r.copyOut n).2.rest := by
  rw [copyOut, rest, rest, ← List.append_assoc, List.take_append_drop]

theorem copyOut_ne_nil {r : Reader} {n : Nat} (hn : n ≠ 0) (hbuf : r.buf ≠ []) :
    (r.copyOut n).1 ≠ [] := by
  rw [copyOut, ne_eq, List.take_eq_nil_iff, not_or]
  exact ⟨hn, hbuf⟩

/-- A read returns the front of what is left, and the end of file when nothing is left. -/
theorem read_spec {r r' : Reader} {n : Nat} {data : List UInt8} {err : Option ReadErr}
    (herr : r.err = none) (h : r.read n = (data, err, r')) :
    r'.err = none ∧ r.rest = data ++ r'.rest ∧ (err ≠ none → err = some .eof ∧ r.rest = []) ∧
      (0 < n → err = none → data ≠ []) := by
  rw [read] at h
  split at h
  · cases h
    simp [herr, rest]
    omega
  · next hn =>
    split at h
    · next hbuf =>
      cases h
      refine ⟨herr, r.copyOut_rest n, ?_, fun _ _ => copyOut_ne_nil hn hbuf⟩
      simp
    · next hbuf =>
      rw [not_not] at hbuf
      have hrest : r.rest = r.rd.bytes := by rw [rest, hbuf, List.nil_append]
      rw [if_neg (by simp [herr])] at h
      -- a large read goes past the buffer, a small one fills it first
      split at h
      · rcases hread : r.rd.read n with ⟨data', rd⟩
        cases data' with
        | none =>
          obtain ⟨hbytes, rfl⟩ := Conn.read_none hread
          rw [hread] at h
          cases h
          simp [herr, hbytes, rest, hbuf]
        | some data' =>
          obtain ⟨hbytes, -, hne⟩ := Conn.read_some hread
          rw [hread] at h
          cases h
          simpa [herr, hrest, hbytes, rest, hbuf] using hne
      · next hsmall =>
        obtain ⟨hbytes, hfill⟩ | ⟨data', hfill, hbytes, herr', hne⟩ := r.fill_cases
        · rw [hfill, if_pos hbuf] at h
          cases h
          simp [hbytes, rest, hbuf]
        · have hfull : r.fill.buf ≠ [] := by
            rw [hfill, hbuf, List.nil_append]
            exact hne (by simp [hbuf, bufSize])
          rw [if_neg hfull] at h
          cases h
          refine ⟨herr'.trans herr, ?_, by simp, fun _ _ => copyOut_ne_nil hn hfull⟩
          rw [← copyOut_rest, fill_rest]

theorem yields_rest {r : Reader} (herr : r.err = none) : r.Yields r.rest := by
  intro ns
  induction ns generalizing r with
  | nil => simp [reads]
  | cons n ns ih =>
    rcases hread : r.read n with ⟨data, err, r'⟩
    obtain ⟨herr', hrest, heof, hne⟩ := read_spec herr hread
    rw [reads, hread]
    cases err with
    | some err =>
      -- the end of file comes with no data, when all has been read
      obtain ⟨herr, hnil⟩ := heof (by simp)
      have hdata : data = [] := by
        rw [hnil] at hrest
        exact (List.append_eq_nil_iff.mp hrest.symm).1
      simp [hdata, hnil, herr]
    | none =>
      obtain ⟨hfront, hend, hlong⟩ := ih herr'
      refine ⟨?_, fun h => ?_, fun h => hlong ?_⟩
      · rw [hrest]
        exact (List.prefix_append_right_inj data).mpr hfront
      · rw [hrest]
        exact congrArg (data ++ ·) (hend h)
      · rw [hrest, List.length_append, List.filter_cons] at h
        split at h
        · next hn =>
          have hpos := List.length_pos_iff.mpr (hne (by simpa using hn) rfl)
          rw [List.length_cons] at h
          omega
        · omega

end Reader

end Go
