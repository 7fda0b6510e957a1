import Mathlib.Logic.Basic
/-!
# Inserted — lists with something new in them

`Inserted new xs ys` says that `ys` is `xs` with elements that are `new` put in, at any places.  A function of lists
`Ignores` what is new if it never tells the two apart: a search for something else does (`Ignores.find?`), so does a
selection that leaves it out (`Ignores.filterMap`) and a fold that does nothing with it (`Ignores.foldl`,
`Ignores.foldlM`).
-/

section

variable {α β γ : Type} {new : α → Prop}

inductive Inserted (new : α → Prop) : List α → List α → Prop where
  | nil : Inserted new [] []
  | keep (a : α) {xs ys : List α} (h : Inserted new xs ys) : Inserted new (a :: xs) (a :: ys)
  | insert (a : α) {xs ys : List α} (ha : new a) (h : Inserted new xs ys) : Inserted new xs (a :: ys)

/-- **What is new makes no difference.** -/
def Ignores (new : α → Prop) (f : List α → β) : Prop := ∀ xs ys, Inserted new xs ys → f ys = f xs

namespace Ignores

theorem comp {f : List α → β} (h : Ignores new f) (g : β → γ) : Ignores new fun xs => g (f xs) :=
  fun xs ys hi => congrArg g (h xs ys hi)

theorem pair {f : List α → β} {g : List α → γ} (hf : Ignores new f) (hg : Ignores new g) :
    Ignores new fun xs => (f xs, g xs) :=
  fun xs ys hi => Prod.ext (hf xs ys hi) (hg xs ys hi)

/-- **A recursion that goes past what is new.** -/
theorem of_cons {f : List α → β} (hkeep : ∀ a xs ys, f ys = f xs → f (a :: ys) = f (a :: xs))
    (hnew : ∀ a xs, new a → f (a :: xs) = f xs) : Ignores new f := by
  intro xs ys h
  induction h with
  | nil => rfl
  | keep a _ ih => exact hkeep a _ _ ih
  | insert a ha _ ih => rw [hnew a _ ha, ih]

theorem find? {p : α → Bool} (hp : ∀ a, new a → p a = false) : Ignores new fun xs => xs.find? p := by
  refine of_cons (fun a xs ys h => ?_) fun a xs ha => ?_
  · simp only [List.find?_cons, h]
  · simp only [List.find?_cons, hp a ha]

theorem filterMap {f : α → Option γ} (hf : ∀ a, new a → f a = none) : Ignores new fun xs => xs.filterMap f := by
  refine of_cons (fun a xs ys h => ?_) fun a xs ha => ?_
  · simp only [List.filterMap_cons, h]
  · simp only [List.filterMap_cons, hf a ha]

theorem foldl {f : β → α → β} (hf : ∀ b a, new a → f b a = b) : Ignores new fun xs b => xs.foldl f b := by
  refine of_cons (fun a xs ys h => ?_) fun a xs ha => ?_
  · funext b
    exact congrFun h (f b a)
  · funext b
    show xs.foldl f (f b a) = _
    rw [hf b a ha]

theorem foldlM {f : β → α → Option β} (hf : ∀ b a, new a → f b a = some b) : Ignores new fun xs b => xs.foldlM f b := by
  refine of_cons (fun a xs ys h => ?_) fun a xs ha => ?_
  · funext b
    rw [List.foldlM_cons, List.foldlM_cons]
    cases f b a with
    | none => rfl
    | some c => exact congrFun h c
  · funext b
    rw [List.foldlM_cons, hf b a ha]
    rfl

end Ignores

end
