import Mathlib.Logic.Basic
/-!
# While — what a loop comes to

`Runs again body x y` is a loop that goes on from `x` while `again` holds and is over at `y`.  There is at most one
such `y` (`Runs.unique`), and what every round keeps holds of it (`Runs.invariant`).  A measure that every round makes
smaller brings a loop to its end (`runs_of_measure`); what every round keeps and goes on from keeps it from one
(`not_runs`).
-/
namespace While

variable {σ : Type} {again : σ → Prop} {body : σ → σ} {I : σ → Prop} {x y z : σ}

/-- **The loop that starts here ends there.** -/
inductive Runs (again : σ → Prop) (body : σ → σ) : σ → σ → Prop where
  | ends (x : σ) (h : ¬ again x) : Runs again body x x
  | round (x y : σ) (h : again x) (hr : Runs again body (body x) y) : Runs again body x y

theorem Runs.not_again (h : Runs again body x y) : ¬ again y := by
  induction h with
  | ends x h => exact h
  | round x y _ _ ih => exact ih

theorem Runs.unique (h : Runs again body x y) (g : Runs again body x z) : y = z := by
  induction h with
  | ends x h =>
    cases g with
    | ends => rfl
    | round _ _ hx _ => exact absurd hx h
  | round x y hx _ ih =>
    cases g with
    | ends _ h => exact absurd hx h
    | round _ _ _ hr => exact ih hr

/-- **What a round keeps, the loop keeps.** -/
theorem Runs.invariant (hI : ∀ x, I x → again x → I (body x)) (h : Runs again body x y) (hx : I x) : I y := by
  induction h with
  | ends x _ => exact hx
  | round x y ha _ ih => exact ih (hI x hx ha)

/-- **A loop that always goes on does not end.** -/
theorem not_runs (hI : ∀ x, I x → again x ∧ I (body x)) (hx : I x) : ¬ Runs again body x y := by
  intro h
  have hy : I y := h.invariant (fun x hx _ => (hI x hx).2) hx
  exact h.not_again (hI y hy).1

/-- **A loop whose rounds have less and less to do ends.** -/
theorem runs_of_measure (μ : σ → Nat) (hI : ∀ x, I x → again x → I (body x) ∧ μ (body x) < μ x) (w : σ) (hw : I w) :
    ∃ y, Runs again body w y := by
  by_cases ha : again w
  · have hlt : μ (body w) < μ w := (hI w hw ha).2
    obtain ⟨y, hy⟩ := runs_of_measure μ hI (body w) (hI w hw ha).1
    exact ⟨y, .round w y ha hy⟩
  · exact ⟨w, .ends w ha⟩
termination_by μ w

end While
