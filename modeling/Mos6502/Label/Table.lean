/-!
Labels: names for addresses, one per address, kept in ascending order of the addresses.
-/

namespace Mos6502

/-- Named addresses in ascending order. -/
structure Labels where
  entries : List (UInt16 × String) := []
deriving DecidableEq, Repr

namespace Labels

/-- Inserts into ascending entries; an entry at the same address is replaced. -/
def insertEntry (addr : UInt16) (name : String) :
    List (UInt16 × String) → List (UInt16 × String)
  | [] => [(addr, name)]
  | (a, n) :: rest =>
    if addr < a then (addr, name) :: (a, n) :: rest
    else if addr = a then (addr, name) :: rest
    else (a, n) :: insertEntry addr name rest

/-- Names an address, over any earlier name. -/
def insert (labels : Labels) (addr : UInt16) (name : String) : Labels :=
  ⟨insertEntry addr name labels.entries⟩

def find? (labels : Labels) (addr : UInt16) : Option String :=
  labels.entries.lookup addr

/-- The lowest address with a name. -/
def addressOf? (labels : Labels) (name : String) : Option UInt16 :=
  (labels.entries.find? (·.2 == name)).map (·.1)

/-- How far below an address a label may lie to be used for it. -/
def radius : Nat := 2

/-- The label at an address or closest below it within the radius, with its distance. -/
def nearest? (labels : Labels) (addr : UInt16) : Option (String × Nat) :=
  (List.range (radius + 1)).findSome? fun distance =>
    if distance ≤ addr.toNat then
      (labels.find? (UInt16.ofNat (addr.toNat - distance))).map (·, distance)
    else none

end Labels

end Mos6502
