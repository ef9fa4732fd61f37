import ChainIndexer.Range.Pipeline

/-
  A range fetched in time.

  Time is counted in milliseconds and stands still while anything can happen. When nothing can, it
  goes on to the moment at which the first fetch ends. A run may have a time at which it breaks off,
  and a consumer that wants only so many results.
-/

namespace ChainIndexer.Range

/-- A pipeline at a moment. `due` holds the end of each fetch that is going on. -/
structure Timeline (α : Type) where
  state : Pipeline α
  now : Nat
  due : List (Nat × Nat)

/-- What is fixed during a run. -/
structure Course (α : Type) where
  workers : Nat
  fetch : Nat → Except Error α
  delay : Nat → Nat
  wanted : Option Nat
  limit : Option Nat

namespace Course

/-- A run to the end, for a consumer that reads everything. -/
def whole (workers : Nat) (fetch : Nat → Except Error α) (delay : Nat → Nat) : Course α :=
  ⟨workers, fetch, delay, none, none⟩

/-- Whether a run breaks off at a time. -/
def isOver (c : Course α) (time : Nat) : Bool :=
  match c.limit with
  | some limit => limit ≤ time
  | none => false

end Course

namespace Timeline

/-- A range of which nothing has been fetched. -/
def start (r : HeightRange) : Timeline α :=
  ⟨.start r, 0, []⟩

/-- What takes no time, the consumer first. -/
def immediate : List Pipeline.Action :=
  [.receive, .deliver, .collect, .await, .take, .hand, .order, .leave, .halt]

/-- The state after the first of some actions that is possible. -/
def firstStep (c : Course α) (s : Pipeline α) :
    List Pipeline.Action → Option (Pipeline.Action × Pipeline α)
  | [] => none
  | a :: rest =>
    match s.step c.workers c.fetch a with
    | some t => some (a, t)
    | none => firstStep c s rest

/-- Whether the consumer has all that it wanted. -/
def isSatisfied (c : Course α) (s : Pipeline α) : Bool :=
  match c.wanted with
  | some n => n ≤ s.received.length
  | none => false

/-- The next action that takes no time. -/
def next? (c : Course α) (s : Pipeline α) : Option (Pipeline.Action × Pipeline α) :=
  if isSatisfied c s ∧ !s.cancelled then
    (s.step c.workers c.fetch .cancel).map fun t => (.cancel, t)
  else firstStep c s immediate

/-- The fetch that ends first. -/
def earliest? : List (Nat × Nat) → Option (Nat × Nat)
  | [] => none
  | d :: rest =>
    match earliest? rest with
    | some e => some (if e.2 < d.2 then e else d)
    | none => some d

/-- The fetches that begin with an action. -/
def begun (c : Course α) (now : Nat) (s : Pipeline α) : Pipeline.Action → List (Nat × Nat)
  | .take => s.jobs.head?.toList.map fun h => (h, now + c.delay h)
  | _ => []

/-- One action, after letting time pass if nothing else can happen. -/
def advance (c : Course α) (t : Timeline α) : Option (Timeline α) :=
  if c.isOver t.now then none
  else match next? c t.state with
    | some (a, s) => some ⟨s, t.now, t.due ++ begun c t.now t.state a⟩
    | none =>
      match earliest? t.due with
      | none => none
      | some (h, time) =>
        if c.isOver time then none
        else (t.state.step c.workers c.fetch (.finish h)).map fun s =>
          ⟨s, max t.now time, t.due.erase (h, time)⟩

/-- Goes on for at most `steps` actions. -/
def advanceBy (c : Course α) : Nat → Timeline α → Timeline α
  | 0, t => t
  | steps + 1, t =>
    match advance c t with
    | some t => advanceBy c steps t
    | none => t

/-- Goes on until nothing can happen, or the run breaks off. -/
def run (c : Course α) (r : HeightRange) : Timeline α :=
  advanceBy c (Pipeline.start r : Pipeline α).work (start r)

/-- The results that the consumer has received. -/
def items (t : Timeline α) : List (RangeItem α) :=
  t.state.received

end Timeline

end ChainIndexer.Range
