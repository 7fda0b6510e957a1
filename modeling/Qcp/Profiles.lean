import Qcp.Layers
/-!
# Profiles — dictionaries under named profiles

A `Store` keeps a dictionary for each profile and has one profile selected.  Its operations are not given but what
they do is: `merge` replaces, `join` keeps, and what is read off (`merged`) is looked up in the global profile, then
in the selected one, then in the default one, whichever of these are the same.  A dictionary merged into a profile
comes to lie on top of all the others when nothing lies above it (`merged_merge_global`); one joined into the default
profile lies beneath (`merged_join_default`).  `Store.plain` is a store as simple as can be.
-/
namespace Profiles

open Layers (Dict Layered)

/-- A source of entries: the profile it selects, if any, and what it has for each. -/
structure Provider (P K V : Type) where
  profile : Option P
  data : P → Dict K V

/-- What a library for such dictionaries does. -/
structure Store (P K V : Type) (dflt global : P) where
  Data : Type
  new : Data
  select : P → Data → Data
  merge : Data → Provider P K V → Data
  join : Data → Provider P K V → Data
  profile : Data → P
  within : Data → P → Dict K V
  merged : Data → Dict K V
  within_new : ∀ p, within new p = fun _ => none
  profile_select : ∀ p d, profile (select p d) = p
  within_select : ∀ p d, within (select p d) = within d
  profile_merge : ∀ d x, profile (merge d x) = x.profile.getD (profile d)
  within_merge : ∀ d x p k, within (merge d x) p k = (x.data p k).or (within d p k)
  profile_join : ∀ d x, profile (join d x) = profile d
  within_join : ∀ d x p k, within (join d x) p k = (within d p k).or (x.data p k)
  merged_eq : ∀ d, merged d = (Layered.mk (within d global) (within d (profile d)) (within d dflt)).look

section

variable {P K V : Type} {dflt global : P}

theorem Store.merged_apply (S : Store P K V dflt global) (d : S.Data) (k : K) :
    S.merged d k = (S.within d global k).or ((S.within d (S.profile d) k).or (S.within d dflt k)) := by
  rw [S.merged_eq]
  rfl

variable [DecidableEq P]

/-- A source with entries for one profile. -/
def Provider.of (selects : Option P) (p : P) (entries : Dict K V) : Provider P K V :=
  ⟨selects, fun q => if q = p then entries else fun _ => none⟩

namespace Store

variable (S : Store P K V dflt global) (d : S.Data) (selects : Option P) (p q : P) (entries : Dict K V) (k : K)

theorem within_merge_of : S.within (S.merge d (.of selects p entries)) q k =
    if q = p then (entries k).or (S.within d q k) else S.within d q k := by
  rw [S.within_merge]
  unfold Provider.of
  by_cases h : q = p
  · simp only [if_pos h]
  · simp only [if_neg h, Option.none_or]

theorem within_join_of : S.within (S.join d (.of selects p entries)) q k =
    if q = p then (S.within d q k).or (entries k) else S.within d q k := by
  rw [S.within_join]
  unfold Provider.of
  by_cases h : q = p
  · simp only [if_pos h]
  · simp only [if_neg h, Option.or_none]

variable (hne : global ≠ dflt)

include hne

/-- **A dictionary joined into the default profile lies beneath all others.** -/
theorem merged_join_default : S.merged (S.join d (.of selects dflt entries)) k = (S.merged d k).or (entries k) := by
  rw [S.merged_apply, S.merged_apply, S.profile_join]
  simp only [within_join_of, if_neg hne, if_true]
  by_cases hp : S.profile d = dflt
  · rw [if_pos hp, hp]
    cases S.within d global k <;> cases S.within d dflt k <;> simp
  · rw [if_neg hp, Option.or_assoc, Option.or_assoc]

/-- **A dictionary merged into the global profile lies on top of all others.** -/
theorem merged_merge_global (hs : selects = none) :
    S.merged (S.merge d (.of selects global entries)) k = (entries k).or (S.merged d k) := by
  rw [S.merged_apply, S.merged_apply, S.profile_merge, hs]
  show (S.within _ global k).or ((S.within _ (S.profile d) k).or _) = _
  simp only [within_merge_of, if_neg hne.symm, if_true]
  by_cases hp : S.profile d = global
  · rw [if_pos hp, hp]
    cases entries k <;> cases S.within d global k <;> simp
  · rw [if_neg hp, Option.or_assoc]

/-- **One merged into the selected profile** does, when there is nothing global; unless the global one is selected. -/
theorem merged_merge_selected (hs : selects = some (S.profile d))
    (hg : S.profile d ≠ global → S.within d global k = none) :
    S.merged (S.merge d (.of selects (S.profile d) entries)) k = (entries k).or (S.merged d k) := by
  rw [S.merged_apply, S.merged_apply, S.profile_merge, hs]
  show (S.within _ global k).or ((S.within _ (S.profile d) k).or _) = _
  simp only [within_merge_of, if_true]
  by_cases hp : S.profile d = global
  · rw [if_pos hp.symm, if_neg (fun h : dflt = S.profile d => hne (h.trans hp).symm), hp]
    cases entries k <;> cases S.within d global k <;> simp
  · rw [if_neg (Ne.symm hp), hg hp]
    by_cases hd : dflt = S.profile d
    · rw [if_pos hd, ← hd]
      cases entries k <;> cases S.within d dflt k <;> simp
    · rw [if_neg hd]
      simp [Option.or_assoc]

/-- **One merged into the default profile** does, when there is nothing in any other. -/
theorem merged_merge_default (hs : selects = none) (ho : ∀ q, q ≠ dflt → S.within d q k = none) :
    S.merged (S.merge d (.of selects dflt entries)) k = (entries k).or (S.merged d k) := by
  rw [S.merged_apply, S.merged_apply, S.profile_merge, hs]
  show (S.within _ global k).or ((S.within _ (S.profile d) k).or _) = _
  simp only [within_merge_of, if_neg hne, if_true, ho global hne]
  by_cases hp : S.profile d = dflt
  · rw [if_pos hp, hp]
    cases entries k <;> cases S.within d dflt k <;> simp
  · rw [if_neg hp, ho _ hp]
    simp

end Store

/-- The store that is its own profile and its own dictionaries. -/
def Store.plain (P K V : Type) (dflt global : P) : Store P K V dflt global where
  Data := P × (P → Dict K V)
  new := (dflt, fun _ _ => none)
  select p d := (p, d.2)
  merge d x := (x.profile.getD d.1, fun p k => (x.data p k).or (d.2 p k))
  join d x := (d.1, fun p k => (d.2 p k).or (x.data p k))
  profile d := d.1
  within d := d.2
  merged d := (Layered.mk (d.2 global) (d.2 d.1) (d.2 dflt)).look
  within_new _ := rfl
  profile_select _ _ := rfl
  within_select _ _ := rfl
  profile_merge _ _ := rfl
  within_merge _ _ _ _ := rfl
  profile_join _ _ := rfl
  within_join _ _ _ _ := rfl
  merged_eq _ := rfl

end
end Profiles
