/-!
# Parts around a mark

A text falls into parts at the places of a mark.  The places are looked for from the left, and each
is looked for after the end of the one before.
-/

namespace TenantGate
namespace Text

/-- The parts of a text of which `skip` characters still belong to the last place of the mark. -/
def partsFrom (mark : List Char) : (skip : Nat) → List Char → List (List Char)
  | _, [] => [[]]
  | skip + 1, _ :: s => partsFrom mark skip s
  | 0, c :: s =>
    if mark.isPrefixOf (c :: s) then [] :: partsFrom mark (mark.length - 1) s
    else (partsFrom mark 0 s).modifyHead (c :: ·)

def partsAround (mark s : List Char) : List (List Char) := partsFrom mark 0 s

end Text
end TenantGate
