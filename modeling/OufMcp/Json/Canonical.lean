import Mathlib.Data.List.Sort
import Mathlib.Data.String.Basic
import OufMcp.Json.Tree

/-!
# Canonical documents

What `encoding/json` makes of an object that is decoded into a map and encoded again:
the last member of a name counts, and members stand in the order of their names.
-/

namespace OufMcp.Json

variable {ν α : Type}

def lastWins : List (String × α) → List (String × α)
  | [] => []
  | member :: rest =>
    if member.1 ∈ rest.map Prod.fst then lastWins rest else member :: lastWins rest

def sortMembers (members : List (String × α)) : List (String × α) :=
  members.insertionSort fun a b => a.1 ≤ b.1

mutual

def Value.canonical : Value String ν → Value String ν
  | .null => .null
  | .bool b => .bool b
  | .num n => .num n
  | .str s => .str s
  | .arr items => .arr (canonicalItems items)
  | .obj members => .obj (sortMembers (lastWins (canonicalMembers members)))

def canonicalItems : List (Value String ν) → List (Value String ν)
  | [] => []
  | item :: rest => item.canonical :: canonicalItems rest

def canonicalMembers : List (String × Value String ν) → List (String × Value String ν)
  | [] => []
  | (name, value) :: rest => (name, value.canonical) :: canonicalMembers rest

end

end OufMcp.Json
