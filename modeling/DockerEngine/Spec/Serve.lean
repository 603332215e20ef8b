import DockerEngine.Native.Serve
import DockerEngine.Spec.Rcli

/-!
# What a command receives

Whatever the client sends and however the connection splits it, `Serve` calls `call` with
the words of the client, and the command reads the standard input of the client, to the
byte.
-/

namespace Docker

open Go

theorem readRequest_simpleMode {json : Json} {argv : Option (List GoString)} {s : GoString}
    {conn : Conn} (hargv : ∀ word ∈ argv.getD [], ValidUtf8 word)
    (hconn : conn.bytes = Client.simpleMode json argv s) :
    ∃ stdin, readRequest json conn = .ok ⟨argv, stdin⟩ ∧ stdin.Yields s := by
  have hrest : (Reader.new conn).rest = json.marshal argv ++ newline :: s := by
    rw [Reader.rest, Reader.new, List.nil_append, hconn, Client.simpleMode, Client.call,
      List.append_assoc]
    rfl
  obtain ⟨r, hline, rfl, herr⟩ := Reader.readString_spec (json.newline_notMem argv) hrest rfl
  have hargs := json.unmarshal_newline (json.unmarshal_marshal argv hargv)
  refine ⟨r, ?_, Reader.yields_rest herr⟩
  rw [readRequest, hline]
  simp only [hargs]

/-- The command gets exactly the words of the client, and its standard input is exactly what
    the client copied, followed by the end of file. -/
theorem serve_delivers (json : Json) (strings : CaseMap) (service : Reader → Service)
    (argv : Option (List GoString)) (s : GoString) (conn : Conn)
    (hargv : ∀ word ∈ argv.getD [], ValidUtf8 word)
    (hconn : conn.bytes = Client.simpleMode json argv s) :
    ∃ stdin, readRequest json conn = .ok ⟨argv, stdin⟩ ∧
      serve json strings service conn = .ok (call strings (service stdin) (argv.getD [])) ∧
      stdin.Yields s := by
  obtain ⟨stdin, hreq, hstdin⟩ := readRequest_simpleMode hargv hconn
  refine ⟨stdin, hreq, ?_, hstdin⟩
  rw [serve, hreq]
  rfl

/-! ## A codec -/

namespace Json

def quoteMark : UInt8 := 34
def backslash : UInt8 := 92
def comma : UInt8 := 44
def openBracket : UInt8 := 91
def closeBracket : UInt8 := 93
/-- The letter of the escaped newline. -/
def letterN : UInt8 := 110

def escape (b : UInt8) : GoString :=
  if b = newline then [backslash, letterN]
  else if b = quoteMark ∨ b = backslash then [backslash, b]
  else [b]

def quote (s : GoString) : GoString := quoteMark :: (s.flatMap escape ++ [quoteMark])

def elements : List GoString → GoString
  | [] => []
  | [s] => quote s
  | s :: ss => quote s ++ comma :: elements ss

def marshalStrings : Option (List GoString) → GoString
  | none => str "null"
  | some args => openBracket :: (elements args ++ [closeBracket])

/-- Where the scanner is: in front of a value, in a word of which something is to come, in a
    string, behind an element, behind the value. -/
inductive Scan where
  | start
  | word (rest : GoString)
  | element (args : List GoString)
  | inside (args : List GoString) (s : GoString)
  | escaped (args : List GoString) (s : GoString)
  | after (args : List GoString)
  | closed (args : Option (List GoString))

def Scan.step : Scan → UInt8 → Option Scan
  | start, b =>
    if b = openBracket then some (element [])
    else if b = letterN then some (word (str "ull"))
    else none
  | word [c], b => if b = c then some (closed none) else none
  | word (c :: rest), b => if b = c then some (word rest) else none
  | word [], _ => none
  | element args, b =>
    if b = quoteMark then some (inside args [])
    else if b = closeBracket ∧ args = [] then some (closed (some []))
    else none
  | inside args s, b =>
    if b = quoteMark then some (after (args ++ [s]))
    else if b = backslash then some (escaped args s)
    else some (inside args (s ++ [b]))
  | escaped args s, b =>
    if b = letterN then some (inside args (s ++ [newline]))
    else if b = quoteMark ∨ b = backslash then some (inside args (s ++ [b]))
    else none
  | after args, b =>
    if b = comma then some (element args)
    else if b = closeBracket then some (closed (some args))
    else none
  | closed args, b => if b = newline then some (closed args) else none

def Scan.run (state : Scan) (s : GoString) : Option Scan := s.foldlM step state

def unmarshalStrings (s : GoString) : Except GoString (Option (List GoString)) :=
  match Scan.start.run s with
  | some (.closed args) => .ok args
  | _ => .error (str "invalid character")

theorem Scan.run_append (state : Scan) (s t : GoString) :
    state.run (s ++ t) = (state.run s).bind (·.run t) :=
  List.foldlM_append

theorem Scan.run_cons (state : Scan) (b : UInt8) (s : GoString) :
    state.run (b :: s) = (state.step b).bind (·.run s) :=
  List.foldlM_cons

theorem run_escape (args : List GoString) (s : GoString) (b : UInt8) :
    (Scan.inside args s).run (escape b) = some (.inside args (s ++ [b])) := by
  rw [escape]
  split
  · next h =>
    subst h
    rfl
  · split
    · next h =>
      obtain rfl | rfl := h <;> rfl
    · next h =>
      rw [not_or] at h
      rw [Scan.run_cons, Scan.step, if_neg h.1, if_neg h.2]
      rfl

theorem run_escapes (args : List GoString) (s t : GoString) :
    (Scan.inside args s).run (t.flatMap escape) = some (.inside args (s ++ t)) := by
  induction t generalizing s with
  | nil =>
    rw [List.append_nil]
    rfl
  | cons b t ih =>
    rw [List.flatMap_cons, Scan.run_append, run_escape]
    show (Scan.inside args (s ++ [b])).run (t.flatMap escape) = _
    rw [ih, List.append_assoc]
    rfl

theorem run_quote (args : List GoString) (s : GoString) :
    (Scan.element args).run (quote s) = some (.after (args ++ [s])) := by
  show (Scan.inside args []).run (s.flatMap escape ++ [quoteMark]) = _
  rw [Scan.run_append, run_escapes]
  rfl

theorem elements_cons_cons (s s' : GoString) (ss : List GoString) :
    elements (s :: s' :: ss) = quote s ++ comma :: elements (s' :: ss) :=
  rfl

theorem run_elements (args : List GoString) (s : GoString) (ss : List GoString) :
    (Scan.element args).run (elements (s :: ss)) = some (.after (args ++ s :: ss)) := by
  induction ss generalizing args s with
  | nil => exact run_quote args s
  | cons s' ss ih =>
    rw [elements_cons_cons, Scan.run_append, run_quote]
    show (Scan.element (args ++ [s])).run (elements (s' :: ss)) = _
    rw [ih, List.append_assoc]
    rfl

theorem unmarshal_marshalStrings (args : Option (List GoString)) :
    unmarshalStrings (marshalStrings args) = .ok args := by
  rcases args with _ | _ | ⟨s, ss⟩
  · rfl
  · rfl
  · have hrun : Scan.start.run (marshalStrings (some (s :: ss))) =
        some (.closed (some (s :: ss))) := by
      show (Scan.element []).run (elements (s :: ss) ++ [closeBracket]) = _
      rw [Scan.run_append, run_elements]
      rfl
    rw [unmarshalStrings, hrun]

theorem unmarshalStrings_newline {s : GoString} {args : Option (List GoString)}
    (h : unmarshalStrings s = .ok args) : unmarshalStrings (s ++ [newline]) = .ok args := by
  unfold unmarshalStrings at h
  split at h
  · next hrun =>
    cases h
    rw [unmarshalStrings, Scan.run_append, hrun]
    rfl
  · cases h

theorem newline_notMem_quote (s : GoString) : newline ∉ quote s := by
  intro h
  simp only [quote, List.mem_cons, List.mem_append, List.mem_flatMap] at h
  obtain h | ⟨b, -, hb⟩ | h | h := h
  · revert h
    decide
  · rw [escape] at hb
    split at hb
    · revert hb
      decide
    · next hne =>
      split at hb <;> simp_all [backslash, newline]
  · revert h
    decide
  · cases h

theorem newline_notMem_elements (args : List GoString) : newline ∉ elements args := by
  induction args with
  | nil => simp [elements]
  | cons s ss ih =>
    cases ss with
    | nil => exact newline_notMem_quote s
    | cons s' ss =>
      rw [elements_cons_cons, List.mem_append, List.mem_cons, not_or, not_or]
      exact ⟨newline_notMem_quote s, by decide, ih⟩

theorem newline_notMem_marshalStrings (args : Option (List GoString)) :
    newline ∉ marshalStrings args := by
  cases args with
  | none => decide
  | some args =>
    rw [marshalStrings, List.mem_cons, List.mem_append, not_or, not_or]
    exact ⟨by decide, newline_notMem_elements args, by decide⟩

def strings : Json where
  marshal := marshalStrings
  unmarshal := unmarshalStrings
  unmarshal_marshal args _ := unmarshal_marshalStrings args
  unmarshal_newline := unmarshalStrings_newline
  newline_notMem := newline_notMem_marshalStrings

end Json

/-- A newline and quotes among the words, and the first byte of the input in the segment
    that ends the line. -/
def splitWords : Option (List GoString) := some [str "ps", str "a\n\"b\""]

def splitConn : Conn where
  chunks := [(Client.call Json.strings splitWords).take 7,
    (Client.call Json.strings splitWords).drop 7 ++ str "h", str "i\n"]
  nonempty := by decide

theorem serve_delivers_split :
    ∃ stdin, readRequest Json.strings splitConn = .ok ⟨splitWords, stdin⟩ ∧
      serve Json.strings asciiCase (fun _ => psService) splitConn =
        .ok (call asciiCase psService (splitWords.getD [])) ∧
      stdin.Yields (str "hi\n") := by
  apply serve_delivers Json.strings asciiCase (fun _ => psService)
  · intro word hword
    simp only [splitWords, Option.getD_some, List.mem_cons, List.not_mem_nil, or_false] at hword
    obtain rfl | rfl := hword
    · exact ⟨_, rfl⟩
    · exact ⟨_, rfl⟩
  · decide

end Docker
