/-!
# Where text is written

A sink takes text up to its room and nothing more. A write that does not fit
fails, and what did fit stays in the sink. All text written by this library is
ASCII, so a character is a byte.
-/

namespace PlanarKalman

/-- A place for text: what it holds, and how many more bytes it takes; without a
bound it takes any number. -/
structure Sink where
  text : String
  room : Option Nat
deriving DecidableEq, Repr

namespace Sink

def ofRoom (room : Option Nat) : Sink := ⟨"", room⟩

/-- Writes as much of a piece as fits, and says whether that was all of it. -/
def write (s : Sink) (piece : String) : Sink × Bool :=
  match s.room with
  | none => (⟨s.text ++ piece, none⟩, true)
  | some room =>
    if piece.length ≤ room then
      (⟨s.text ++ piece, some (room - piece.length)⟩, true)
    else
      (⟨s.text ++ String.ofList (piece.toList.take room), some 0⟩, false)

end Sink

end PlanarKalman
