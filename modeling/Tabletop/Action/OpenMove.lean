import Tabletop.Action
import Tabletop.Selection.OfferJson

/-! # Open moves

An open move is a move under way that can still be completed: the arguments so
far and, unless it is complete, the selection to be answered next.

The search looks ahead. Where the legal values of a selection can be listed it
tries each of them and keeps the ones that lead to a complete move; where they
cannot, it stops and leaves the selection to the player.

## Implementation notes

The search walks the list of selections once: below a value that is tried, all
selections up to this one are answered, so only the ones behind it are open.
-/

namespace Tabletop

variable {G : Type}

/-- A move under way that can still be completed. -/
structure OpenMove where
  name : String
  args : Args
  /-- The selection to be answered, none if the move is complete. -/
  offers : List Offer
  deriving DecidableEq

namespace OpenMove

/-- The move can be submitted as it is. -/
def isComplete (m : OpenMove) : Bool := m.offers.isEmpty

/-- The JSON of an open move. -/
def toJson (m : OpenMove) : Json :=
  .obj
    [("name", .str m.name), ("args", m.args.toJson),
     ("selections", .arr (m.offers.map Offer.toJson))]

end OpenMove

namespace Action

/-- The moves that the viable values of an offer lead to: none without such a
value, the continuation of the only one if the offer may be skipped, and else
the offer itself, narrowed to them. -/
def narrow (a : Action G) (args : Args) (offer : Offer)
    (viable : List (Argument × List OpenMove)) : Option (List OpenMove) :=
  match viable with
  | [] => none
  | [(value, moves)] =>
      if offer.skip = .never then some [⟨a.name, args, [offer.restrict [value]]⟩] else some moves
  | viable => some [⟨a.name, args, [offer.restrict (viable.map (·.1))]⟩]

/-- The ways to go on from some arguments through some of the selections. -/
def searchAmong (a : Action G) (g : G) : List (Selection G) → Args → Option (List OpenMove)
  | [], args =>
      match (a.check g args).2 with
      | none => some [⟨a.name, args, []⟩]
      | some _ => none
  | s :: rest, args =>
      if args.contains s.name then searchAmong a g rest args
      else
        let offer := s.offer g args
        match offer.skipped? with
        | some value => searchAmong a g rest (args.insert s.name value)
        | none =>
            if !offer.isPossible then none
            else if !offer.isBounded then some [⟨a.name, args, [offer]⟩]
            else
              narrow a args offer <| offer.options.filterMap fun value =>
                let next := args.insert s.name value
                if (s.objection? g next).isSome then none
                else (searchAmong a g rest next).map fun moves => (value, moves)

/-- The ways to go on from some arguments, none if the move cannot be
completed. -/
def openMoves (a : Action G) (g : G) (args : Args) : Option (List OpenMove) :=
  if a.isAvailable g then searchAmong a g a.selections args else none

end Action

end Tabletop
