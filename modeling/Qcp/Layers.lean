import Mathlib
/-!
# Layers — dictionaries merged over one another

A dictionary is a partial function from keys to values.  Layered dictionaries keep one dictionary for each of three
profiles: a lookup asks the global one, then the selected one, then the default one.  `merge` replaces what a profile
already holds, `join` keeps it; `look_merge_global` and `look_join_default` say what a lookup sees afterwards.
-/
namespace Layers

variable {K V : Type}

abbrev Dict (K V : Type) := K → Option V

/-- The dictionary with one key set. -/
def Dict.insert [DecidableEq K] (d : Dict K V) (k : K) (v : V) : Dict K V := fun k' => if k' = k then some v else d k'

theorem Dict.insert_of_ne [DecidableEq K] (d : Dict K V) {k k' : K} (v : V) (h : k' ≠ k) : d.insert k v k' = d k' :=
  if_neg h

inductive Profile where
  | global
  | selected
  | dflt

structure Layered (K V : Type) where
  global : Dict K V
  selected : Dict K V
  dflt : Dict K V

/-- Nothing set anywhere. -/
def Layered.new : Layered K V := ⟨fun _ => none, fun _ => none, fun _ => none⟩

namespace Layered

def look (l : Layered K V) (k : K) : Option V := (l.global k).or ((l.selected k).or (l.dflt k))

/-- The entries of `d` replace those of the profile. -/
def merge (l : Layered K V) (p : Profile) (d : Dict K V) : Layered K V :=
  match p with
  | .global => { l with global := fun k => (d k).or (l.global k) }
  | .selected => { l with selected := fun k => (d k).or (l.selected k) }
  | .dflt => { l with dflt := fun k => (d k).or (l.dflt k) }

/-- The entries of `d` fill what the profile lacks. -/
def join (l : Layered K V) (p : Profile) (d : Dict K V) : Layered K V :=
  match p with
  | .global => { l with global := fun k => (l.global k).or (d k) }
  | .selected => { l with selected := fun k => (l.selected k).or (d k) }
  | .dflt => { l with dflt := fun k => (l.dflt k).or (d k) }

theorem look_merge_global (l : Layered K V) (d : Dict K V) (k : K) :
    (l.merge .global d).look k = (d k).or (l.look k) := Option.or_assoc

theorem look_join_default (l : Layered K V) (d : Dict K V) (k : K) :
    (l.join .dflt d).look k = (l.look k).or (d k) := by
  show (l.global k).or ((l.selected k).or ((l.dflt k).or (d k))) = _
  rw [look, Option.or_assoc, Option.or_assoc]

theorem look_new (k : K) : (new : Layered K V).look k = none := rfl

end Layered
end Layers
