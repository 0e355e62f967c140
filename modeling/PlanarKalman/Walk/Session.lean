import PlanarKalman.Walk.Basic

/-!
# Reading a walk request by request

A session with a walk is a list of requests. They ask for the walk as a whole, or
they name one of the cursors that the session has opened: at the beginning of the
walk, or at the place where another cursor stands. Cursors are numbered in the order
in which they were opened.
-/

namespace PlanarKalman

variable {ρ α : Type}

/-- How many states are still to come: at least, and at most. -/
def Cursor.sizeHint (c : Cursor ρ α) : Nat × Option Nat := (c.remaining, some c.remaining)

namespace Walk

/-- What can be asked of a walk and of its cursors. -/
inductive Request where
  /-- Opens a cursor at the beginning. -/
  | start
  /-- Opens a cursor where another one stands. -/
  | copy (cursor : Nat)
  | next (cursor : Nat)
  | sizeHint (cursor : Nat)
  /-- All states that a cursor has left. -/
  | drain (cursor : Nat)
  /-- All states that a copy of a cursor has left. -/
  | drainCopy (cursor : Nat)
  | length
  | states
  | positions
  /-- The source that every reading starts from. -/
  | source
deriving DecidableEq, Repr

inductive Answer (ρ α : Type) where
  | opened
  | noSuchCursor
  | item (state : Option (State α))
  | sizeHint (hint : Nat × Option Nat)
  | length (length : Nat)
  | states (states : List (State α))
  | positions (positions : List (Point α))
  | source (source : ρ)
deriving DecidableEq

/-- A walk and the cursors that have been opened in it. -/
structure Session (ρ α : Type) where
  walk : Walk ρ α
  cursors : List (Cursor ρ α)

def session (w : Walk ρ α) : Session ρ α := ⟨w, []⟩

namespace Session

/-- The answer of one cursor, which may move it. -/
def atCursor (s : Session ρ α) (i : Nat) (answer : Cursor ρ α → Cursor ρ α × Answer ρ α) :
    Session ρ α × Answer ρ α :=
  match s.cursors[i]? with
  | none => (s, .noSuchCursor)
  | some c =>
    let (moved, a) := answer c
    ({ s with cursors := s.cursors.set i moved }, a)

def openCopy (s : Session ρ α) (i : Nat) : Session ρ α × Answer ρ α :=
  match s.cursors[i]? with
  | none => (s, .noSuchCursor)
  | some c => ({ s with cursors := s.cursors ++ [c] }, .opened)

variable [Scalar α] [NormalSource ρ α]

def ask (s : Session ρ α) : Request → Session ρ α × Answer ρ α
  | .start => ({ s with cursors := s.cursors ++ [s.walk.cursor] }, .opened)
  | .copy i => s.openCopy i
  | .next i => s.atCursor i fun c =>
    match c.next? with
    | none => (c, .item none)
    | some (state, c) => (c, .item (some state))
  | .sizeHint i => s.atCursor i fun c => (c, .sizeHint c.sizeHint)
  | .drain i => s.atCursor i fun c => let (left, c) := c.drain; (c, .states left)
  | .drainCopy i => s.atCursor i fun c => (c, .states c.drain.1)
  | .length => (s, .length s.walk.length)
  | .states => (s, .states s.walk.states)
  | .positions => (s, .positions s.walk.positions)
  | .source => (s, .source s.walk.source)

def after (s : Session ρ α) (requests : List Request) : Session ρ α :=
  requests.foldl (fun s r => (s.ask r).1) s

def answers (s : Session ρ α) : List Request → List (Answer ρ α)
  | [] => []
  | r :: rest => (s.ask r).2 :: (s.ask r).1.answers rest

end Session

end Walk

end PlanarKalman
