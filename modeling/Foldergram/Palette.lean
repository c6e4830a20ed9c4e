import Foldergram.Tree.Basic

/-! Fill colours, picked from a palette by the id of an item. -/

namespace Foldergram

abbrev Palette := List String

namespace Palette

def standard : Palette :=
  ["#F28B82", "#FBBC05", "#FFF475", "#CCFF90", "#A7FFEB", "#CBF0F8", "#AECBFA", "#D7AEFB", "#FDCFE8",
    "#E6C9A8", "#E8EAED"]

/-- The colour of everything when the palette is empty. -/
def fallback : String := "#E8EAED"

/-- The 64-bit FNV-1a hash. -/
def hash (bytes : List UInt8) : UInt64 :=
  bytes.foldl (fun h b => (h ^^^ b.toUInt64) * 0x100000001b3) 0xcbf29ce484222325

/-- The entry that an id falls on. -/
def slot (p : Palette) (id : String) : Nat :=
  (hash id.toUTF8.toList).toNat % p.length

def color (p : Palette) (id : String) : String :=
  p.getD (p.slot id) fallback

end Palette

end Foldergram
