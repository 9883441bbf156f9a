import Switchyard.Program

/-!
# Running a chain

A chain has two lanes, the middleware of a group and the handlers of a route. Each lane has a cursor and is open
until it has been driven. Driving a lane runs its entries one after the other until the response is done, an entry
responds or stops, or there are no more; then the lane is closed. An entry may drive the chain in its turn: it then
runs what has not been started yet, and the loops around it find nothing left.

Every entry is started by moving a cursor, so that as many steps suffice as there are entries left
(`Machine.pending`); this number bounds the recursion of `runLane`.
-/

namespace Switchyard

/-- A list of entries, how many of them were started, and whether more may be. -/
structure Lane where
  entries : List Program := []
  started : Nat := 0
  isOpen : Bool := false

namespace Lane

/-- A lane that is ready to be driven. -/
def ofList (entries : List Program) : Lane :=
  { entries, isOpen := true }

/-- The next entry with its place, if the lane is open and has one. -/
def next? (l : Lane) : Option (Nat × Program) :=
  if l.isOpen then l.entries[l.started]?.map fun entry => (l.started, entry) else none

def advance (l : Lane) : Lane :=
  { l with started := l.started + 1 }

def close (l : Lane) : Lane :=
  { l with isOpen := false }

/-- The number of entries that were not started. -/
def pending (l : Lane) : Nat :=
  l.entries.length - l.started

end Lane

/-- What outlives a request: the files, the middleware lists, and the counters. -/
structure World where
  files : FileSystem := .empty
  lists : List (List Program) := [[]]
  counters : List Nat := []

namespace World

/-- The entries of a middleware list. -/
def list (w : World) (n : Nat) : List Program :=
  w.lists[n]?.getD []

/-- Adds an entry at the end of a list. -/
def attach (w : World) (n : Nat) (entry : Program) : World :=
  { w with lists := w.lists.modify n (· ++ [entry]) }

/-- The counter after one more. -/
def counted (w : World) (n : Nat) : Nat :=
  w.counters[n]?.getD 0 + 1

def count (w : World) (n : Nat) : World :=
  { w with counters := w.counters.modify n (· + 1) }

end World

/-- A context with the lanes of its chain: what is pooled. -/
structure Carrier where
  context : Context := {}
  middleware : Lane := {}
  handlers : Lane := {}

namespace Carrier

/-- A carrier whose buffer has room for so many captures, without a chain. -/
def withCapacity (maxParams : Nat) : Carrier :=
  { context := .withCapacity maxParams }

/-- Empties the context and drops both lanes. -/
def recycle (k : Carrier) : Carrier :=
  { k with context := k.context.recycle, middleware := {}, handlers := {} }

instance : Recyclable Carrier where
  key k := Recyclable.key k.context
  recycle := recycle

theorem recycle_eq (k : Carrier) : k.recycle = withCapacity (Recyclable.key k) := rfl

end Carrier

/-- A request on its way. -/
structure Machine extends Carrier where
  world : World := {}
  journal : Journal := []

namespace Machine

def lane (m : Machine) : LaneKind → Lane
  | .middleware => m.middleware
  | .handlers => m.handlers

def setLane (m : Machine) (kind : LaneKind) (lane : Lane) : Machine :=
  match kind with
  | .middleware => { m with middleware := lane }
  | .handlers => { m with handlers := lane }

def close (m : Machine) (kind : LaneKind) : Machine :=
  m.setLane kind (m.lane kind).close

/-- Closes both lanes. -/
def halt (m : Machine) : Machine :=
  (m.close .middleware).close .handlers

/-- The number of entries that were not started. -/
def pending (m : Machine) : Nat :=
  m.middleware.pending + m.handlers.pending

def report (m : Machine) (e : Event) : Machine :=
  { m with journal := m.journal ++ [e] }

/-- Moves the cursor of a lane past the entry at a place, which starts. -/
def start (m : Machine) (kind : LaneKind) (index : Nat) : Machine :=
  (m.setLane kind (m.lane kind).advance).report (.started kind index)

/-- Changes the context; what is written is reported. -/
def apply (m : Machine) (c : Context.Change) : Machine :=
  let changed := { m with context := m.context.apply c }
  match c with
  | .write bytes => changed.report (.wrote bytes)
  | _ => changed

/-- Writes a responder to the draft. A failure is logged; in either case the draft is done and the chain stops. -/
def render (m : Machine) (r : Responder) : Machine :=
  let (failure, draft) :=
    match r.writeTo.run m.context.draft with
    | .ok _ draft => (none, draft)
    | .error failure draft => (some failure, draft)
  let logged :=
    match failure with
    | none => m
    | some f => m.report (.logged (.renderFailed f.message m.context.method.name m.context.path))
  { logged with context := { m.context with draft := draft.markDone } }.halt.report (.rendered r failure)

def recycle (m : Machine) : Machine :=
  { m with toCarrier := m.toCarrier.recycle }.report .recycled

end Machine

/-- Work on a machine that may end in a panic. -/
abbrev Run := EStateM Panic Machine

namespace Program

/-- Runs a program, given how to drive the rest of the chain. -/
def run (drive : Drive → Run Unit) : Program → Run Flow
  | .finish flow => pure flow
  | .panic payload => throw payload
  | .look next => do
    let m ← get
    (next m.context).run drive
  | .change c next => do
    modify (·.apply c)
    next.run drive
  | .render r next => do
    modify (·.render r)
    next.run drive
  | .recycle next => do
    modify (·.recycle)
    next.run drive
  | .drive d next => do
    drive d
    next.run drive
  | .note script action reply next => do
    modify (·.report (.note script action reply))
    next.run drive
  | .log r next => do
    modify (·.report (.logged r))
    next.run drive
  | .readFile path next => do
    let m ← get
    modify (·.report (.fileRead path))
    (next (m.world.files.read path)).run drive
  | .count counter next => do
    let m ← get
    modify fun m => { m with world := m.world.count counter }
    (next (m.world.counted counter)).run drive
  | .attach list entry next => do
    modify fun m => { m with world := m.world.attach list entry }
    next.run drive
  | .lengthOf list next => do
    let m ← get
    (next (m.world.list list).length).run drive

end Program

/-- What is done about the flow of an entry; tells whether the lane goes on. -/
def settle (kind : LaneKind) : Flow → Run Bool
  | .proceed => pure true
  | .respond r => do
    modify (·.render r)
    pure false
  | .stop => do
    if kind = .middleware then
      modify (·.close .handlers)
    pure false

/-- Drives the chain, given how to drive one lane. -/
def driveBy (runLane : LaneKind → Run Unit) : Drive → Run Unit
  | .all => do
    runLane .middleware
    runLane .handlers
  | .middleware => runLane .middleware
  | .handlers => runLane .handlers

/-- Drives a lane; at most `bound` entries are started, in this lane and, from within, in either. -/
def runLane : (bound : Nat) → LaneKind → Run Unit
  | 0, kind => modify (·.close kind)
  | bound + 1, kind => do
    let m ← get
    if m.context.draft.done then
      modify (·.close kind)
    else
      match (m.lane kind).next? with
      | none => modify (·.close kind)
      | some (index, entry) =>
        modify (·.start kind index)
        let flow ← entry.run (driveBy (runLane bound))
        modify (·.report (.finished kind index flow))
        if ← settle kind flow then
          runLane bound kind
        else
          modify (·.close kind)

/-- Drives the chain as far as it goes. -/
def driveChain (d : Drive) : Run Unit := do
  let m ← get
  driveBy (runLane m.pending) d

/-- Runs a program on a context without a chain. -/
def Program.runAlone (p : Program) (c : Context) : Except Panic Flow × Machine :=
  match p.run driveChain { context := c } with
  | .ok flow m => (.ok flow, m)
  | .error payload m => (.error payload, m)

/-- Runs a program on a new context with room for so many captures. If no buffer can have that much room, this is a
panic before anything runs. -/
def Program.runSized (p : Program) (capacity : Nat) : Except Panic Flow × Machine :=
  if capacity ≤ Params.maxCapacity then p.runAlone (.withCapacity capacity)
  else (.error ⟨.text "capacity overflow", none⟩, {})

end Switchyard
