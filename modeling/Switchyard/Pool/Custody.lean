import Switchyard.Pool.Loans
import Switchyard.Text.Outline

/-!
# Custody of lent buffers

The loans of a pool of texts, with what is told of each thing done: every step does one thing with the loans, or looks
at them.
-/

namespace Switchyard.Pool

/-- A text that can be emptied and counts how often it was. -/
structure Note where
  key : Nat := 0
  data : String := ""
  recycled : Nat := 0
  deriving DecidableEq

instance : Recyclable Note where
  key := Note.key
  recycle note := { note with data := "", recycled := note.recycled + 1 }

/-- A note that can be told from others. -/
abbrev Item := Numbered Note

namespace Item

def id (item : Item) : Nat :=
  item.number

def key (item : Item) : Nat :=
  item.value.key

def data (item : Item) : String :=
  item.value.data

def recycled (item : Item) : Nat :=
  item.value.recycled

def outline (item : Item) : String :=
  Text.Outline.record "Item"
    [("key", toString item.key), ("id", toString item.id), ("data", Text.Outline.quoted item.data),
      ("recycled", toString item.recycled)] false

end Item

abbrev Custody := Loans Note

namespace Custody

/-- One thing done with a pool and its slots. -/
inductive Step where
  | take (slot : String)
  | acquire (slot : String)
  | write (slot text : String)
  | setItemKey (slot : String) (key : Nat)
  | put (slot : String)
  | detach (slot : String)
  | unwind (slot : String)
  | setKey (key : Nat)
  | get (slot : String)
  | outline
  | outlineSlot (slot : String)

/-- What a step answers. -/
inductive Result where
  | nothing
  | item (item : Item)
  | put
  | released
  | alreadyPlain
  | unwound
  | text (s : String)

/-- An empty note for a key. -/
def blank (key : Nat) : Note :=
  { key }

/-- What is done with the loans in a step; nothing if it only looks at them. -/
def Step.op? : Step → Option (Loans.Op Note)
  | .take slot => some (.take slot blank)
  | .acquire slot => some (.acquire slot blank)
  | .write slot text => some (.edit slot fun note => { note with data := note.data ++ text })
  | .setItemKey slot key => some (.edit slot fun note => { note with key })
  | .put slot => some (.put slot)
  | .detach slot => some (.detach slot)
  | .unwind slot => some (.drop slot)
  | .setKey key => some (.setKey key)
  | .get _ => none
  | .outline => none
  | .outlineSlot _ => none

/-- The item in a slot, if there is one. -/
def itemIn (c : Custody) (slot : String) : Result :=
  (c.holder? slot).elim .nothing fun holder => .item holder.buffer

/-- What a step answers, given the custody before and after it. -/
def answer (c after : Custody) : Step → Result
  | .take slot => itemIn after slot
  | .acquire slot => itemIn after slot
  | .write slot _ => itemIn after slot
  | .setItemKey slot _ => itemIn after slot
  | .put slot => (c.holder? slot).elim .nothing fun holder => if holder.isGuard then .released else .put
  | .detach slot =>
    (c.holder? slot).elim .nothing fun holder => if holder.isGuard then .item holder.buffer else .alreadyPlain
  | .unwind _ => .unwound
  | .setKey _ => .nothing
  | .get slot => itemIn c slot
  | .outline =>
    .text (Text.Outline.record "Pool" [("key", toString c.pool.key), ("max_idle", toString c.pool.maxIdle)] true)
  | .outlineSlot slot => (c.holder? slot).elim .nothing fun holder => .text (Item.outline holder.buffer)

def step (c : Custody) (s : Step) : Result × Custody :=
  let after := s.op?.elim c c.perform
  (answer c after s, after)

end Custody

end Switchyard.Pool
