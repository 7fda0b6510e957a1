import Mathlib.Data.List.Basic
import Mathlib.Logic.Function.Basic
/-!
# Sections — settings under headings, of which the first of a key counts

Items are read one after another.  A heading says whether the settings behind it are meant; a setting that is meant is
kept if there is none of its key yet; a fault is the end of it.  `run_eq_ok_iff` says what is kept, and
`run_map_congr` what can be left out.  `andThen` and `visit` put together lists of which nothing is read behind a
fault.
-/
namespace Sections

/-! ## Lists that stop -/

section Stops

variable {α β : Type} {stops : α → Bool}

/-- One list and then another, unless the first stops. -/
def andThen (stops : α → Bool) (xs ys : List α) : List α := if xs.any stops then xs else xs ++ ys

/-- A list for each, until one stops. -/
def visit (stops : α → Bool) (f : β → List α) : List β → List α
  | [] => []
  | b :: bs => andThen stops (f b) (visit stops f bs)

theorem mem_andThen_left {x : α} {xs : List α} (ys : List α) (h : x ∈ xs) : x ∈ andThen stops xs ys := by
  unfold andThen
  split
  · exact h
  · exact List.mem_append_left _ h

theorem mem_andThen_right {x : α} {xs ys : List α} (hs : xs.any stops = false) (h : x ∈ ys) :
    x ∈ andThen stops xs ys := by
  unfold andThen
  rw [hs]
  exact List.mem_append_right _ h

/-- A list of which only the last can stop. -/
def Ends (stops : α → Bool) (xs : List α) : Prop :=
  ∀ before x after, xs = before ++ x :: after → stops x = true → after = []

theorem Ends.nil : Ends stops [] := by
  intro before x after h
  cases before <;> cases h

theorem Ends.single (x : α) : Ends stops [x] := by
  intro before y after h _
  cases before with
  | nil =>
    cases h
    rfl
  | cons z before => cases before <;> cases h

theorem Ends.cons {x : α} {xs : List α} (hx : stops x = false) (h : Ends stops xs) : Ends stops (x :: xs) := by
  intro before y after heq hy
  cases before with
  | nil =>
    cases heq
    rw [hx] at hy
    cases hy
  | cons z before =>
    cases heq
    exact h before y after rfl hy

theorem Ends.andThen {xs ys : List α} (hx : Ends stops xs) (hy : Ends stops ys) : Ends stops (andThen stops xs ys) := by
  unfold Sections.andThen
  by_cases hs : xs.any stops = true
  · rw [if_pos hs]
    exact hx
  · rw [if_neg hs]
    have hnone : ∀ x ∈ xs, stops x = false := by simpa using hs
    clear hs hx
    induction xs with
    | nil => exact hy
    | cons x xs ih =>
      rw [List.forall_mem_cons] at hnone
      exact .cons hnone.1 (ih hnone.2)

theorem Ends.visit {f : β → List α} (hf : ∀ b, Ends stops (f b)) : ∀ bs : List β, Ends stops (visit stops f bs)
  | [] => .nil
  | b :: bs => .andThen (hf b) (Ends.visit hf bs)

theorem Ends.map {stops' : β → Bool} {g : α → β} (hg : ∀ x, stops' (g x) = stops x) {xs : List α} (h : Ends stops xs) :
    Ends stops' (xs.map g) := by
  intro before y after heq hy
  obtain ⟨before, rest, rfl, -, hrest⟩ := List.map_eq_append_iff.1 heq
  obtain ⟨x, after, rfl, rfl, rfl⟩ := List.map_eq_cons_iff.1 hrest
  rw [hg] at hy
  rw [h before x after rfl hy]
  rfl

theorem any_map {stops' : β → Bool} {g : α → β} (hg : ∀ x, stops' (g x) = stops x) (xs : List α) :
    (xs.map g).any stops' = xs.any stops := by
  rw [List.any_map]
  exact congrArg (List.any xs) (funext hg)

theorem map_andThen {stops' : β → Bool} {g : α → β} (hg : ∀ x, stops' (g x) = stops x) (xs ys : List α) :
    (andThen stops xs ys).map g = andThen stops' (xs.map g) (ys.map g) := by
  unfold andThen
  rw [any_map hg]
  split
  · rfl
  · exact List.map_append

/-- Such lists are the same, one element for another, if their parts are, as far as they are read. -/
theorem andThen_map {g : α → α} (hg : ∀ x, stops (g x) = stops x) {xs xs' ys ys' : List α} (hx : xs' = xs.map g)
    (hy : xs.any stops = false → ys' = ys.map g) : andThen stops xs' ys' = (andThen stops xs ys).map g := by
  unfold andThen
  rw [hx, any_map hg]
  split
  · rfl
  · rename_i hs
    rw [hy (Bool.eq_false_iff.2 hs), List.map_append]

theorem visit_map {P : α → Prop} {g : α → α} (hg : ∀ x, stops (g x) = stops x) {f f' : β → List α} : ∀ bs : List β,
    (∀ b ∈ bs, (∀ x ∈ f b, P x) → f' b = (f b).map g) → (∀ x ∈ visit stops f bs, P x) →
    visit stops f' bs = (visit stops f bs).map g
  | [], _, _ => rfl
  | b :: bs, hf, hP => by
    apply andThen_map hg
    · exact hf b List.mem_cons_self fun x hx => hP x (mem_andThen_left _ hx)
    · intro hs
      exact visit_map hg bs (fun c hc => hf c (List.mem_cons_of_mem b hc)) fun x hx => hP x (mem_andThen_right hs hx)

end Stops

/-! ## Items -/

inductive Item (K V E : Type) where
  /-- Whether what is behind it is meant. -/
  | heading (meant : Bool)
  | setting (key : K) (value : V)
  | fault (error : E)
  | other

/-- Whether settings are meant, and what was kept. -/
structure Kept (K V : Type) where
  accepting : Bool
  data : K → Option V

section Items

variable {K V E : Type}

namespace Item

def isFault : Item K V E → Bool
  | fault _ => true
  | _ => false

def heading? : Item K V E → Option Bool
  | heading m => some m
  | _ => none

end Item

/-- Whether a setting behind these is meant: the last heading says so. -/
def meant (start : Bool) (before : List (Item K V E)) : Bool := (before.filterMap Item.heading?).getLast?.getD start

/-- **The first setting of a key that is meant.** -/
def First (start : Bool) (items : List (Item K V E)) (key : K) (value : V) : Prop :=
  ∃ before after, items = before ++ .setting key value :: after ∧ meant start before = true ∧
    ∀ b value' a, before = b ++ .setting key value' :: a → meant start b = false

theorem meant_cons (start : Bool) (x : Item K V E) (xs : List (Item K V E)) :
    meant start (x :: xs) = meant (x.heading?.getD start) xs := by
  unfold meant
  cases hx : x.heading? with
  | none => rw [List.filterMap_cons_none hx]; rfl
  | some m =>
    rw [List.filterMap_cons_some hx, List.getLast?_cons]
    rfl

theorem first_cons_iff (start : Bool) (x : Item K V E) (xs : List (Item K V E)) (k : K) (v : V) :
    First start (x :: xs) k v ↔ (x = .setting k v ∧ start = true) ∨
      ((∀ v', x = .setting k v' → start = false) ∧ First (x.heading?.getD start) xs k v) := by
  constructor
  · rintro ⟨before, after, heq, hm, hno⟩
    cases before with
    | nil =>
      cases heq
      exact Or.inl ⟨rfl, hm⟩
    | cons y before =>
      cases heq
      right
      refine ⟨fun v' hx => hno [] v' before (by rw [hx]; rfl), before, after, rfl, ?_, fun b v' a hb => ?_⟩
      · rw [← meant_cons]
        exact hm
      · rw [← meant_cons]
        exact hno (x :: b) v' a (by rw [hb]; rfl)
  · rintro (⟨rfl, rfl⟩ | ⟨hx, before, after, rfl, hm, hno⟩)
    · exact ⟨[], xs, rfl, rfl, fun b v' a h => by cases b <;> cases h⟩
    · refine ⟨x :: before, after, rfl, by rw [meant_cons]; exact hm, fun b v' a hb => ?_⟩
      cases b with
      | nil =>
        cases hb
        exact hx v' rfl
      | cons y b =>
        cases hb
        rw [meant_cons]
        exact hno b v' a rfl

theorem Kept.ext_iff_data (s t : Kept K V) : s = t ↔ t.accepting = s.accepting ∧ ∀ k v, t.data k = some v ↔
    s.data k = some v := by
  constructor
  · rintro rfl
    exact ⟨rfl, fun _ _ => Iff.rfl⟩
  · intro h
    obtain ⟨a, d⟩ := s
    obtain ⟨a', d'⟩ := t
    obtain ⟨rfl, hd⟩ := h
    have hdata : d = d' := funext fun k => Option.ext fun v => (hd k v).symm
    rw [hdata]

/-- **What is not meant makes no difference** to what is the first setting. -/
theorem first_skip_iff {block : List (Item K V E)} (after : List (Item K V E)) (k : K) (v : V)
    (hb : ∀ x ∈ block, x.heading? = none) : ∀ (before : List (Item K V E)) (start : Bool), meant start before = false →
    (First start (before ++ (block ++ after)) k v ↔ First start (before ++ after) k v)
  | [], start, hm => by
    have hstart : start = false := hm
    subst hstart
    induction block with
    | nil => exact Iff.rfl
    | cons x block ih =>
      obtain ⟨hx, hb⟩ := List.forall_mem_cons.1 hb
      show First false (x :: (block ++ after)) k v ↔ First false after k v
      rw [first_cons_iff, hx]
      simpa using ih hb
  | x :: before, start, hm => by
    rw [meant_cons] at hm
    rw [List.cons_append, List.cons_append, first_cons_iff, first_cons_iff, first_skip_iff after k v hb before _ hm]

variable [DecidableEq K]

/-- A value is kept if there is none yet. -/
def orInsert (data : K → Option V) (key : K) (value : V) : K → Option V :=
  if (data key).isSome then data else Function.update data key (some value)

def step (s : Kept K V) : Item K V E → Except E (Kept K V)
  | .heading m => .ok { s with accepting := m }
  | .setting key value => .ok (if s.accepting then { s with data := orInsert s.data key value } else s)
  | .fault e => .error e
  | .other => .ok s

def run (s : Kept K V) (items : List (Item K V E)) : Except E (Kept K V) := items.foldlM step s

theorem orInsert_eq_some_iff (data : K → Option V) (key k : K) (value v : V) : orInsert data key value k = some v ↔
    data k = some v ∨ (data k = none ∧ key = k ∧ value = v) := by
  unfold orInsert
  cases hd : data key with
  | some u =>
    simp only [Option.isSome_some, if_true]
    constructor
    · exact Or.inl
    · rintro (h | ⟨hn, rfl, -⟩)
      · exact h
      · rw [hd] at hn
        cases hn
  | none =>
    simp only [Option.isSome_none, Bool.false_eq_true, if_false]
    by_cases hk : k = key
    · subst hk
      simp [hd]
    · rw [Function.update_of_ne hk]
      simp [Ne.symm hk]

theorem orInsert_eq_none_iff (data : K → Option V) (key k : K) (value : V) :
    orInsert data key value k = none ↔ data k = none ∧ key ≠ k := by
  unfold orInsert
  cases hd : data key with
  | some u =>
    simp only [Option.isSome_some, if_true]
    refine ⟨fun h => ⟨h, ?_⟩, fun h => h.1⟩
    rintro rfl
    rw [hd] at h
    cases h
  | none =>
    simp only [Option.isSome_none, Bool.false_eq_true, if_false]
    by_cases hk : k = key
    · subst hk
      simp
    · rw [Function.update_of_ne hk]
      simp [Ne.symm hk]

theorem run_append (s : Kept K V) (xs ys : List (Item K V E)) : run s (xs ++ ys) = run s xs >>= fun t => run t ys :=
  List.foldlM_append

theorem run_cons (s : Kept K V) (x : Item K V E) (xs : List (Item K V E)) :
    run s (x :: xs) = step s x >>= fun t => run t xs :=
  List.foldlM_cons

/-- Nothing is read behind a fault anyway. -/
theorem run_andThen (s : Kept K V) (xs ys : List (Item K V E)) :
    run s (andThen Item.isFault xs ys) = run s xs >>= fun t => run t ys := by
  rw [← run_append]
  unfold andThen
  split
  · rename_i hs
    induction xs generalizing s with
    | nil => cases hs
    | cons x xs ih =>
      rw [List.cons_append, run_cons, run_cons]
      cases x with
      | fault e => rfl
      | heading m => exact ih _ hs
      | setting k v => exact ih _ hs
      | other => exact ih _ hs
  · rfl

/-- **A fault is what reading comes to.** -/
theorem run_eq_error_iff {items : List (Item K V E)} (h : Ends Item.isFault items) (s : Kept K V) (e : E) :
    run s items = .error e ↔ .fault e ∈ items := by
  induction items generalizing s with
  | nil => exact iff_of_false (fun hr => by cases hr) List.not_mem_nil
  | cons x items ih =>
    have hrest : Ends Item.isFault items := fun before y after heq hy => h (x :: before) y after (by rw [heq]; rfl) hy
    rw [run_cons, List.mem_cons]
    cases x with
    | fault e' =>
      have hnil : items = [] := h [] (.fault e') items rfl rfl
      rw [hnil]
      simp [step, bind, Except.bind, eq_comm]
    | heading m => simpa [step, bind, Except.bind] using ih hrest { s with accepting := m }
    | setting k v =>
      simpa [step, bind, Except.bind] using ih hrest (if s.accepting then { s with data := orInsert s.data k v } else s)
    | other => simpa [step, bind, Except.bind] using ih hrest s

/-- **What is kept** are the first settings that are meant, behind what there was. -/
theorem run_eq_ok_iff (s t : Kept K V) (items : List (Item K V E)) : run s items = .ok t ↔
    (∀ e, .fault e ∉ items) ∧ t.accepting = meant s.accepting items ∧
      ∀ k v, t.data k = some v ↔ s.data k = some v ∨ (s.data k = none ∧ First s.accepting items k v) := by
  induction items generalizing s with
  | nil =>
    have hfirst : ∀ k v, ¬ First s.accepting ([] : List (Item K V E)) k v := by
      rintro k v ⟨before, after, heq, -⟩
      cases before <;> cases heq
    have hrun : run s ([] : List (Item K V E)) = .ok t ↔ s = t := by
      show Except.ok s = Except.ok t ↔ s = t
      rw [Except.ok.injEq]
    rw [hrun, Kept.ext_iff_data]
    simp [hfirst, meant]
  | cons x items ih =>
    have hmore : (∀ e, .fault e ∉ x :: items) ↔ (∀ e, x ≠ .fault e) ∧ ∀ e, .fault e ∉ items := by
      simp only [List.mem_cons, not_or, forall_and, ne_eq, eq_comm]
    rw [run_cons, meant_cons, hmore]
    simp only [first_cons_iff]
    cases x with
    | fault e => simp [step, bind, Except.bind]
    | heading m => simp [step, bind, Except.bind, ih, Item.heading?]
    | other => simp [step, bind, Except.bind, ih, Item.heading?]
    | setting key value =>
      simp only [step, bind, Except.bind, ih, Item.heading?]
      cases ha : s.accepting with
      | false => simp [ha]
      | true =>
        have hkept : ∀ k v, (orInsert s.data key value k = some v ∨
            (orInsert s.data key value k = none ∧ First true items k v)) ↔
            (s.data k = some v ∨ (s.data k = none ∧ ((key = k ∧ value = v) ∨ (key ≠ k ∧ First true items k v)))) := by
          intro k v
          rw [orInsert_eq_some_iff, orInsert_eq_none_iff]
          tauto
        simp [hkept]

theorem accepting_of_step {s t : Kept K V} {x : Item K V E} (h : step s x = .ok t) :
    t.accepting = x.heading?.getD s.accepting := by
  cases x with
  | heading m => cases h; rfl
  | setting k v =>
    cases h
    cases ha : s.accepting with
    | false => exact ha
    | true => rfl
  | fault e => cases h
  | other => cases h; rfl

/-- **Settings that are not meant can be left out.** -/
theorem run_map_congr {α : Type} {f f' : α → Item K V E} (xs : List α) (s : Kept K V)
    (h : ∀ before x after, xs = before ++ x :: after → f' x = f x ∨
      (f' x = .other ∧ ∃ k v, f x = .setting k v ∧ meant s.accepting (before.map f) = false)) :
    run s (xs.map f') = run s (xs.map f) := by
  induction xs generalizing s with
  | nil => rfl
  | cons x xs ih =>
    have hstep : step s (f' x) = step s (f x) := by
      rcases h [] x xs rfl with hx | ⟨hx, k, v, hf, hm⟩
      · rw [hx]
      · have ha : s.accepting = false := hm
        rw [hx, hf, step, step, ha]
        rfl
    rw [List.map_cons, List.map_cons, run_cons, run_cons, hstep]
    cases hs : step s (f x) with
    | error e => rfl
    | ok t =>
      apply ih t
      intro before y after heq
      have hy := h (x :: before) y after (by rw [heq]; rfl)
      rw [List.map_cons, meant_cons, ← accepting_of_step hs] at hy
      exact hy

end Items

end Sections
