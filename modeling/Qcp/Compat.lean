import Mathlib
/-!
# Compat — compatibility levels and the features they gate

A peer's level is a number; one above ours reads as `newer`.  `supports_ofU16` is what every gate in the program rests
on: a level read from a peer's number supports a feature only if that number reaches the feature's level.
-/
namespace Qcp

inductive Compatibility where
  | unknown
  | newer
  | level (v : UInt16)
deriving DecidableEq, Repr

def ourCompatibilityNumeric : UInt16 := 4

def ourCompatibilityLevel : Compatibility := .level ourCompatibilityNumeric

namespace Compatibility

def toU16 : Compatibility → UInt16
  | level v => v
  | unknown | newer => 0

def ofU16 (v : UInt16) : Compatibility := if v > ourCompatibilityNumeric then newer else level v

end Compatibility

inductive Feature where
  | basicProtocol
  | newReno
  | preserve
  | get2Put2
  | cmsgSmsg2
  | mkdirSetmetaLs
deriving DecidableEq, Repr

def Feature.level : Feature → Compatibility
  | basicProtocol => .level 1
  | newReno => .level 2
  | preserve => .level 2
  | get2Put2 => .level 2
  | cmsgSmsg2 => .level 3
  | mkdirSetmetaLs => .level 4

def Compatibility.supports (c : Compatibility) (f : Feature) : Bool :=
  match c with
  | unknown => false
  | newer => true
  | level l => decide (l ≥ f.level.toU16)

/-- The level both sides work at: theirs if it is the lower one, else ours. -/
def chooseCompatibilityLevel (ours theirs : UInt16) : Compatibility :=
  .ofU16 (if theirs < ours then theirs else ours)

theorem Feature.level_le_ours (f : Feature) : f.level.toU16 ≤ ourCompatibilityNumeric := by
  cases f <;> decide

/-- **A level read from a number supports a feature exactly when the number reaches the feature's level.** -/
theorem supports_ofU16 (v : UInt16) (f : Feature) :
    (Compatibility.ofU16 v).supports f = true ↔ f.level.toU16 ≤ v := by
  unfold Compatibility.ofU16
  split
  · rename_i h
    refine ⟨fun _ => ?_, fun _ => rfl⟩
    exact UInt16.le_trans f.level_le_ours (UInt16.le_of_lt h)
  · exact decide_eq_true_iff

/-- **What the chosen level supports, both sides can decode.** -/
theorem chosen_supports (ours theirs : UInt16) (f : Feature)
    (h : (chooseCompatibilityLevel ours theirs).supports f = true) : f.level.toU16 ≤ ours ∧ f.level.toU16 ≤ theirs := by
  rw [chooseCompatibilityLevel, supports_ofU16] at h
  split at h
  · rename_i hlt; exact ⟨UInt16.le_trans h (UInt16.le_of_lt hlt), h⟩
  · rename_i hge; exact ⟨h, UInt16.le_trans h (UInt16.not_lt.1 hge)⟩

/-! ## Enumerations both protocols share -/

inductive CongestionController where
  | cubic
  | bbr
  | newReno
deriving DecidableEq, Repr

namespace CongestionController

instance : Inhabited CongestionController := ⟨cubic⟩

/-- `cc as u64`. -/
def toRepr : CongestionController → UInt64
  | cubic => 0
  | bbr => 1
  | newReno => 2

def fromRepr (n : UInt64) : Option CongestionController :=
  if n = 0 then some cubic else if n = 1 then some bbr else if n = 2 then some newReno else none

theorem fromRepr_toRepr (c : CongestionController) : fromRepr c.toRepr = some c := by cases c <;> rfl

def toString : CongestionController → List Char
  | cubic => ['c', 'u', 'b', 'i', 'c']
  | bbr => ['b', 'b', 'r']
  | newReno => ['n', 'e', 'w', 'r', 'e', 'n', 'o']

/-- Reads a name whatever its case. -/
def tryUnscribe (s : List Char) : Option CongestionController :=
  let s := s.map Char.toLower
  if s = toString cubic then some cubic else if s = toString bbr then some bbr
  else if s = toString newReno then some newReno else none

theorem tryUnscribe_toString (c : CongestionController) : tryUnscribe c.toString = some c := by cases c <;> decide

end CongestionController

inductive CredentialsType where
  | any
  | x509
  | rawPublicKey
deriving DecidableEq, Repr

namespace CredentialsType

def toRepr : CredentialsType → UInt64
  | any => 0
  | x509 => 1
  | rawPublicKey => 2

def toString : CredentialsType → List Char
  | any => ['A', 'n', 'y']
  | x509 => ['X', '5', '0', '9']
  | rawPublicKey => ['R', 'a', 'w', 'P', 'u', 'b', 'l', 'i', 'c', 'K', 'e', 'y']

def tryUnscribe (s : List Char) : Option CredentialsType :=
  let s := s.map Char.toLower
  if s = any.toString.map Char.toLower then some any else if s = x509.toString.map Char.toLower then some x509
  else if s = rawPublicKey.toString.map Char.toLower then some rawPublicKey else none

theorem tryUnscribe_toString (c : CredentialsType) : tryUnscribe c.toString = some c := by cases c <;> decide

end CredentialsType

inductive ConnectionType where
  | ipv4
  | ipv6
deriving DecidableEq, Repr

/-- Which way the bulk of the data goes. -/
inductive Direction where
  | both
  | clientToServer
  | serverToClient
deriving DecidableEq, Repr

namespace Direction

instance : Inhabited Direction := ⟨both⟩

def toRepr : Direction → UInt64
  | both => 0
  | clientToServer => 1
  | serverToClient => 2

def fromRepr (n : UInt64) : Option Direction :=
  if n = 0 then some both else if n = 1 then some clientToServer else if n = 2 then some serverToClient else none

theorem fromRepr_toRepr (d : Direction) : fromRepr d.toRepr = some d := by cases d <;> rfl

end Direction

end Qcp
