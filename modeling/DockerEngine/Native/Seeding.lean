import DockerEngine.ForStd.System
import DockerEngine.Js.Json

/-!
# Seeding the database of the demo (`server/initializationTasks.js`, `server/server.js`)

A server that starts counts the timeline items of the database, inserts those of its file
`data/timelineItems-seed.js` if there are none, and then listens. Any number of servers start on
one database, at any time, so the steps of their `initialize` interleave.

`insertMany` is one command with all the documents. The database inserts them one by one, in
their order, and ends the command at the first one it refuses.

A process that dies is one that takes no more steps. The fields of an item other than its
`_id` and its `details`, and what mongoose makes of them, are left out.
-/

namespace Seeding

open Js

/-! ## The documents -/

/-- An element of `data/timelineItems-seed.js`. -/
structure SeedItem where
  id : Nat
  details : JsString
  deriving DecidableEq, Repr

/-- A document of the collection. -/
structure TimelineItem where
  id : Nat
  details : List JsString
  deriving DecidableEq, Repr

/-- `details.split("\n\n")`. -/
def splitDetails : JsString → List JsString
  | [] => [[]]
  | [c] => [[c]]
  | c :: c' :: text =>
    if c = 10 ∧ c' = 10 then [] :: splitDetails text
    else
      match splitDetails (c' :: text) with
      | [] => [[c]]
      | part :: parts => (c :: part) :: parts

/-- What is inserted for an element. -/
def SeedItem.toModel (i : SeedItem) : TimelineItem := ⟨i.id, splitDetails i.details⟩

/-- The file `data/timelineItems-seed.js`: its elements have the numbers 1 to 64. -/
structure SeedFile where
  items : List SeedItem
  ids : items.map SeedItem.id = List.range' 1 64

/-- `timelineItemModels`. -/
def SeedFile.timelineItemModels (file : SeedFile) : List TimelineItem :=
  file.items.map SeedItem.toModel

/-! ## The servers -/

/-- How far the `initialize` of a server is. -/
inductive Stage where
  /-- in `getTimelineItemModel` -/
  | connecting
  | counting
  /-- the database has the command; these documents are still to be inserted -/
  | inserting (rest : List TimelineItem)
  /-- `initialize` is done -/
  | initialized
  | listening
  /-- the error is on the console, and the server does not listen -/
  | failed (err : String)
  deriving DecidableEq, Repr

/-- The collection, and the servers. -/
structure Database where
  collection : List TimelineItem
  servers : List Stage
  deriving DecidableEq, Repr

/-- A step; `err` is the error that an operation ends with. -/
inductive Op where
  /-- a server starts -/
  | start
  | connect (k : Nat) (err : Option String)
  | count (k : Nat) (err : Option String)
  /-- the database inserts the next document, or answers that there is none left -/
  | insert (k : Nat)
  /-- the command ends before its next document -/
  | insertError (k : Nat) (err : String)
  | listen (k : Nat) (err : Option String)
  deriving DecidableEq, Repr

namespace Database

/-- A server goes on at a stage. -/
def goto (s : Database) (k : Nat) (stage : Stage) : Database :=
  { s with servers := s.servers.set k stage }

/-- The error of a document whose `_id` is taken. -/
def duplicateKey : String := "E11000 duplicate key error"

def step (file : SeedFile) (s : Database) : Op → Option Database
  | .start => some { s with servers := s.servers ++ [.connecting] }
  | .connect k err =>
    match s.servers[k]? with
    | some .connecting =>
      match err with
      | some err => some (s.goto k (.failed err))
      | none => some (s.goto k .counting)
    | _ => none
  | .count k err =>
    match s.servers[k]? with
    | some .counting =>
      match err with
      | some err => some (s.goto k (.failed err))
      | none =>
        -- if (!timelineItemsExists)
        if s.collection.length = 0 then some (s.goto k (.inserting file.timelineItemModels))
        else some (s.goto k .initialized)
    | _ => none
  | .insert k =>
    match s.servers[k]? with
    | some (.inserting []) => some (s.goto k .initialized)
    | some (.inserting (item :: rest)) =>
      if item.id ∈ s.collection.map TimelineItem.id then
        some (s.goto k (.failed duplicateKey))
      else some { s.goto k (.inserting rest) with collection := s.collection ++ [item] }
    | _ => none
  | .insertError k err =>
    match s.servers[k]? with
    | some (.inserting _) => some (s.goto k (.failed err))
    | _ => none
  | .listen k err =>
    match s.servers[k]? with
    | some .initialized =>
      match err with
      | some err => some (s.goto k (.failed err))
      | none => some (s.goto k .listening)
    | _ => none

end Database

/-- All runs from an empty database. -/
def seedSystem (file : SeedFile) : System Database Op where
  init := fun s => s = ⟨[], []⟩
  step := Database.step file

end Seeding
