import Mathlib
/-!
# Posix — paths as texts, and what they mean lexically

A path is a text; its names are what stands between separators, without the empty ones and `.`.  `resolve` reads names
as steps down and, for `..`, up, from a place reached already; `resolve_of_names_append` says how a place matters to
the names resolved from it.  `Inside` is containment of what two paths resolve to, and `inside_iff_reenters` says when a
path extended by further names stays inside itself.
-/
namespace Posix

abbrev Path := List Char

abbrev Name := List Char

def sep : Char := '/'
def dot : Name := ['.']
def dotDot : Name := ['.', '.']

/-- What a name has to be to count. -/
def counts (n : Name) : Bool := n ≠ [] && n ≠ dot

/-- The names of a path. -/
def names (p : Path) : List Name := (p.splitOn sep).filter counts

def absolute (p : Path) : Bool := p.head? = some sep

/-- The last name, unless it leads up. -/
def fileName (p : Path) : Option Name :=
  match (names p).getLast? with
  | none => none
  | some n => if n = dotDot then none else some n

def endsWithSep (p : Path) : Bool := p.getLast? = some sep

/-! ## Joining texts -/

/-- The text with a separator at its end, unless it is empty. -/
def withSep (p : Path) : Path := if p ≠ [] ∧ endsWithSep p = false then p ++ [sep] else p

theorem names_nil : names [] = [] := rfl

theorem names_append_sep (p q : Path) : names (p ++ sep :: q) = names p ++ names q := by
  unfold names
  rw [List.splitOn_append_cons_self, List.filter_append]

theorem names_append_of_endsWithSep (p q : Path) (h : endsWithSep p = true) : names (p ++ q) = names p ++ names q := by
  unfold endsWithSep at h
  obtain ⟨r, rfl⟩ := List.getLast?_eq_some_iff.1 (of_decide_eq_true h)
  rw [List.append_assoc, List.singleton_append, names_append_sep, names_append_sep, names_nil, List.append_nil]

/-- **A text appended after a separator appends its names.** -/
theorem names_withSep_append (p q : Path) : names (withSep p ++ q) = names p ++ names q := by
  unfold withSep
  split
  · rw [List.append_assoc, List.singleton_append, names_append_sep]
  · rename_i h
    by_cases hp : p = []
    · rw [hp]; rfl
    · exact names_append_of_endsWithSep p q (by
        cases he : endsWithSep p with
        | true => rfl
        | false => exact absurd ⟨hp, he⟩ h)

theorem absolute_append (p q : Path) (h : p ≠ []) : absolute (p ++ q) = absolute p := by
  cases p with
  | nil => exact absurd rfl h
  | cons c cs => rfl

/-- Appending what does not begin with a separator leaves a path as absolute as it was. -/
theorem absolute_withSep_append (p q : Path) (h : absolute q = false) : absolute (withSep p ++ q) = absolute p := by
  by_cases hp : p = []
  · subst hp
    exact h
  · have hw : withSep p ≠ [] := by
      unfold withSep
      split
      · exact List.append_ne_nil_of_left_ne_nil hp _
      · exact hp
    rw [absolute_append _ _ hw]
    unfold withSep
    split
    · exact absolute_append p _ hp
    · rfl

theorem sep_not_mem_of_mem_splitOn (p : Path) (n : Name) (h : n ∈ p.splitOn sep) : sep ∉ n := by
  revert n
  rw [List.splitOn_eq_splitOnP]
  induction p with
  | nil =>
    intro n hn
    rw [List.splitOnP_nil, List.mem_singleton] at hn
    rw [hn]
    exact List.not_mem_nil
  | cons c cs ih =>
    intro n hn
    rw [List.splitOnP_cons_eq_if_modifyHead] at hn
    split at hn
    · rcases List.mem_cons.1 hn with rfl | hn
      · exact List.not_mem_nil
      · exact ih n hn
    · rename_i hc
      cases hcs : cs.splitOnP (· == sep) with
      | nil => exact absurd hcs (List.splitOnP_ne_nil _ _)
      | cons x xs =>
        rw [hcs] at hn ih
        rcases List.mem_cons.1 hn with rfl | hn
        · intro hmem
          rcases List.mem_cons.1 hmem with he | hmem
          · exact hc (beq_iff_eq.2 he.symm)
          · exact ih x List.mem_cons_self hmem
        · exact ih n (List.mem_cons_of_mem _ hn)

theorem sep_not_mem_of_mem_names (p : Path) (n : Name) (h : n ∈ names p) : sep ∉ n :=
  sep_not_mem_of_mem_splitOn p n (List.mem_of_mem_filter h)

theorem names_of_name (n : Name) (hs : sep ∉ n) (hc : counts n = true) : names n = [n] := by
  unfold names
  rw [List.splitOn_eq_singleton hs]
  exact List.filter_cons_of_pos hc

theorem counts_of_mem_names (p : Path) (n : Name) (h : n ∈ names p) : counts n = true := (List.mem_filter.1 h).2

theorem fileName_mem (p : Path) (n : Name) (h : fileName p = some n) : n ∈ names p ∧ n ≠ dotDot := by
  unfold fileName at h
  split at h
  · cases h
  · rename_i m hm
    split at h
    · cases h
    · rename_i hd
      cases h
      exact ⟨List.mem_of_getLast? hm, hd⟩

theorem names_fileName (p : Path) (n : Name) (h : fileName p = some n) : names n = [n] :=
  names_of_name n (sep_not_mem_of_mem_names p n (fileName_mem p n h).1) (counts_of_mem_names p n (fileName_mem p n h).1)

/-! ## Resolving names -/

/-- A place relative to a start: so many levels up, then down by these names, the last one first. -/
structure Place where
  ups : Nat
  down : List Name
deriving DecidableEq, Repr

/-- One name further on; there is nothing above a root. -/
def Place.step (rooted : Bool) (at_ : Place) (n : Name) : Place :=
  if n = dotDot then
    match at_.down with
    | _ :: down => { at_ with down }
    | [] => if rooted then at_ else { at_ with ups := at_.ups + 1 }
  else { at_ with down := n :: at_.down }

def Place.start : Place := ⟨0, []⟩

def Place.walk (rooted : Bool) (at_ : Place) (ns : List Name) : Place := ns.foldl (Place.step rooted) at_

theorem Place.walk_append (rooted : Bool) (at_ : Place) (ms ns : List Name) :
    at_.walk rooted (ms ++ ns) = (at_.walk rooted ms).walk rooted ns := List.foldl_append

/-- What a path comes to, without looking at the file system. -/
def resolve (p : Path) : Place := Place.start.walk (absolute p) (names p)

/-- What a walk by itself comes to, seen from a place. -/
def Place.shift (rooted : Bool) (at_ rel : Place) : Place :=
  ⟨at_.ups + (if rooted then 0 else rel.ups - at_.down.length), rel.down ++ at_.down.drop rel.ups⟩

theorem Place.shift_step (rooted : Bool) (at_ rel : Place) (n : Name) (hr : rooted = true → at_.ups = 0) :
    (at_.shift rooted rel).step rooted n = at_.shift rooted (rel.step false n) := by
  obtain ⟨ups, down⟩ := at_
  obtain ⟨k, ds⟩ := rel
  by_cases hn : n = dotDot
  · subst hn
    cases ds with
    | cons d ds => rfl
    | nil =>
      cases hd : down.drop k with
      | nil =>
        have hlen : down.length ≤ k := List.drop_eq_nil_iff.1 hd
        cases rooted with
        | true => simp [Place.step, Place.shift, hd, List.drop_eq_nil_iff.2 (Nat.le_succ_of_le hlen)]
        | false =>
          simp [Place.step, Place.shift, hd, List.drop_eq_nil_iff.2 (Nat.le_succ_of_le hlen)]
          omega
      | cons x xs =>
        have hlen : k < down.length := by
          by_contra hle
          rw [List.drop_eq_nil_iff.2 (Nat.not_lt.1 hle)] at hd
          cases hd
        have hxs : down.drop (k + 1) = xs := by rw [← List.tail_drop, hd]; rfl
        have h0 : k - down.length = 0 := by omega
        have h1 : k + 1 - down.length = 0 := by omega
        simp [Place.step, Place.shift, hd, hxs, h0, h1]
  · simp [Place.step, Place.shift, hn]

/-- **A walk from a place** is the walk by itself, shifted there. -/
theorem Place.walk_eq_shift (rooted : Bool) (at_ : Place) (hr : rooted = true → at_.ups = 0) :
    ∀ (rel : Place) (ns : List Name), (at_.shift rooted rel).walk rooted ns = at_.shift rooted (rel.walk false ns)
  | _, [] => rfl
  | rel, n :: ns => by
    show ((at_.shift rooted rel).step rooted n).walk rooted ns = _
    rw [Place.shift_step rooted at_ rel n hr]
    exact Place.walk_eq_shift rooted at_ hr (rel.step false n) ns

theorem Place.shift_start (rooted : Bool) (at_ : Place) : at_.shift rooted start = at_ := by
  obtain ⟨ups, down⟩ := at_
  cases rooted <;> simp [Place.shift, Place.start]

theorem Place.walk_ups_of_rooted : ∀ (at_ : Place) (ns : List Name), (at_.walk true ns).ups = at_.ups
  | _, [] => rfl
  | at_, n :: ns => by
    show ((at_.step true n).walk true ns).ups = at_.ups
    rw [Place.walk_ups_of_rooted]
    unfold Place.step
    split
    · split <;> rfl
    · rfl

theorem resolve_ups_of_absolute (p : Path) (h : absolute p = true) : (resolve p).ups = 0 := by
  unfold resolve
  rw [h, Place.walk_ups_of_rooted]
  rfl

/-- **What a path with names appended resolves to.** -/
theorem resolve_of_names_append (p q : Path) (ns : List Name) (ha : absolute q = absolute p)
    (hn : names q = names p ++ ns) : resolve q = (resolve p).shift (absolute p) (Place.start.walk false ns) := by
  unfold resolve
  rw [hn, ha, Place.walk_append]
  have h := Place.walk_eq_shift (absolute p) (Place.start.walk (absolute p) (names p))
    (fun hr => resolve_ups_of_absolute p hr) Place.start ns
  rw [Place.shift_start] at h
  exact h

/-! ## Containment -/

/-- **A path lies inside another or equals it**, once both are resolved. -/
structure Inside (dir p : Path) : Prop where
  absolute : absolute p = absolute dir
  ups : (resolve p).ups = (resolve dir).ups
  down : (resolve dir).down <:+ (resolve p).down

/-- Names that climb come down again where they started. -/
def Reenters (dir : Path) (rel : Place) : Prop :=
  (resolve dir).down.take rel.ups <:+ rel.down ∧ (Posix.absolute dir = true ∨ rel.ups ≤ (resolve dir).down.length)

instance (dir : Path) (rel : Place) : Decidable (Reenters dir rel) := by
  unfold Reenters
  exact instDecidableAnd

/-- **A path extended by names stays inside exactly when the names come down where they started.** -/
theorem inside_iff_reenters (dir p : Path) (ns : List Name) (ha : Posix.absolute p = Posix.absolute dir)
    (hn : names p = names dir ++ ns) : Inside dir p ↔ Reenters dir (Place.start.walk false ns) := by
  have hr := resolve_of_names_append dir p ns ha hn
  generalize Place.start.walk false ns = rel at hr
  have hups : (resolve p).ups = (resolve dir).ups ↔
      (Posix.absolute dir = true ∨ rel.ups ≤ (resolve dir).down.length) := by
    rw [hr]
    unfold Place.shift
    cases Posix.absolute dir with
    | true => simp
    | false => simp only [Bool.false_eq_true, if_false, false_or]; omega
  have hdown : (resolve dir).down <:+ (resolve p).down ↔ (resolve dir).down.take rel.ups <:+ rel.down := by
    have h := @List.suffix_append_self_iff _ ((resolve dir).down.take rel.ups) rel.down
      ((resolve dir).down.drop rel.ups)
    rw [List.take_append_drop] at h
    rw [hr]
    exact h
  unfold Reenters
  rw [← hups, ← hdown]
  exact ⟨fun h => ⟨h.down, h.ups⟩, fun h => ⟨ha, h.2, h.1⟩⟩

/-! ## Paths made from paths -/

/-- A path with another put to its end; an absolute one takes its place. -/
def push (p q : Path) : Path := if absolute q then q else withSep p ++ q

/-- A path written plainly. -/
def plain (rooted : Bool) (ns : List Name) : Path := (if rooted then [sep] else []) ++ [sep].intercalate ns

/-- The path without its last component, if it has one, written plainly; a `.` in front is a component too. -/
def parent (p : Path) : Option Path :=
  let comps := (if absolute p = false ∧ (p = dot ∨ (dot ++ [sep]).isPrefixOf p) then [dot] else []) ++ names p
  if comps = [] then none else some (plain (absolute p) comps.dropLast)

/-- A path with its last component taken off. -/
def pop (p : Path) : Path := (parent p).getD p

example : pop "a//b/".toList = "a".toList ∧ pop "/a".toList = "/".toList ∧ pop "a".toList = [] := by decide

/-- **A direct child**: one more name that does not lead up. -/
def ChildOf (dir p : Path) : Prop := absolute p = absolute dir ∧ ∃ n, n ≠ dotDot ∧ names p = names dir ++ [n]

/-- **What has to be pushed for a direct child**: a single name, or the absolute path of one. -/
theorem childOf_push_iff (dir q : Path) : ChildOf dir (push dir q) ↔
    (absolute q = false ∧ ∃ n, n ≠ dotDot ∧ names q = [n]) ∨ (absolute q = true ∧ ChildOf dir q) := by
  unfold push
  cases hq : absolute q with
  | true => simp
  | false =>
    simp only [Bool.false_eq_true, if_false, true_and, false_and, or_false]
    unfold ChildOf
    rw [absolute_withSep_append dir q hq, names_withSep_append]
    simp only [true_and, List.append_cancel_left_eq]

/-! ## Paths with names put to their end -/

/-- Its components as they are iterated over: a root or a `.` in front, then its names. -/
def components (p : Path) : List Name :=
  (if absolute p then [[sep]] else if p = dot ∨ (dot ++ [sep]).isPrefixOf p then [dot] else []) ++ names p

example : components "./a//b/./..".toList = [".".toList, "a".toList, "b".toList, "..".toList] ∧
    components "/".toList = ["/".toList] ∧ components "a/".toList = ["a".toList] := by decide

/-- A name as a directory has it. -/
structure Plain (n : Name) : Prop where
  noSep : sep ∉ n
  counts : counts n = true
  notUp : n ≠ dotDot

namespace Plain

variable {n : Name} (h : Plain n)
include h

theorem ne_nil : n ≠ [] := by
  rintro rfl
  exact absurd h.counts (by decide)

theorem ne_dot : n ≠ dot := by
  rintro rfl
  exact absurd h.counts (by decide)

theorem not_absolute : Posix.absolute n = false :=
  decide_eq_false fun ha => h.noSep (List.mem_of_mem_head? ha)

theorem push_eq (p : Path) : push p n = withSep p ++ n := by
  unfold push
  rw [h.not_absolute]
  rfl

theorem names_push (p : Path) : names (push p n) = names p ++ [n] := by
  rw [h.push_eq, names_withSep_append, names_of_name n h.noSep h.counts]

/-- A path keeps its `.` in front, and gets none. -/
theorem dotted_push (p : Path) : (push p n = dot ∨ (dot ++ [sep]).isPrefixOf (push p n)) ↔
    (p = dot ∨ (dot ++ [sep]).isPrefixOf p) := by
  have hnil := h.ne_nil
  have hdot := h.ne_dot
  have hsep := h.noSep
  rw [h.push_eq]
  obtain ⟨c, cs, rfl⟩ := List.exists_cons_of_ne_nil hnil
  rcases p with _ | ⟨a, _ | ⟨b, rest⟩⟩
  · cases cs with
    | nil => simp_all [withSep, dot]
    | cons d ds =>
      have hd : sep ≠ d := fun e => hsep (e ▸ List.mem_cons_of_mem _ List.mem_cons_self)
      simp_all [withSep, dot]
  · by_cases ha : a = sep
    · subst ha
      simp [withSep, endsWithSep, dot, sep]
    · have hw : withSep [a] = [a, sep] := by simp [withSep, endsWithSep, ha]
      rw [hw]
      simpa [dot] using eq_comm
  · by_cases hend : endsWithSep (a :: b :: rest) <;> simp [withSep, dot, hend]

/-- **A name put to the end is one more component.** -/
theorem components_push (p : Path) : components (push p n) = components p ++ [n] := by
  have ha : absolute (push p n) = absolute p := by
    rw [h.push_eq]
    exact absolute_withSep_append p n h.not_absolute
  unfold components
  simp only [ha, h.names_push, h.dotted_push p, List.append_assoc]

end Plain

/-- A path with names put to its end, one after the other. -/
def extend (p : Path) (ns : List Name) : Path := ns.foldl push p

theorem extend_append (p : Path) (ms ns : List Name) : extend p (ms ++ ns) = extend (extend p ms) ns :=
  List.foldl_append

theorem components_extend : ∀ (p : Path) (ns : List Name), (∀ n ∈ ns, Plain n) →
    components (extend p ns) = components p ++ ns
  | p, [], _ => (List.append_nil _).symm
  | p, n :: ns, h => by
    rw [List.forall_mem_cons] at h
    show components (extend (push p n) ns) = _
    rw [components_extend (push p n) ns h.2, h.1.components_push, List.append_assoc]
    rfl

/-- **Different names lead to different paths.** -/
theorem extend_injective {p : Path} {ms ns : List Name} (hm : ∀ n ∈ ms, Plain n) (hn : ∀ n ∈ ns, Plain n)
    (h : extend p ms = extend p ns) : ms = ns := by
  have hc := congrArg components h
  rw [components_extend p ms hm, components_extend p ns hn] at hc
  exact List.append_cancel_left hc

/-- Names without separators in them are told from the text of all. -/
theorem intercalate_injective {ms ns : List Name} (hm : ms ≠ []) (hn : ns ≠ []) (hms : ∀ n ∈ ms, sep ∉ n)
    (hns : ∀ n ∈ ns, sep ∉ n) (h : [sep].intercalate ms = [sep].intercalate ns) : ms = ns := by
  have hs := congrArg (List.splitOn sep) h
  rwa [List.splitOn_intercalate sep hms hm, List.splitOn_intercalate sep hns hn] at hs

theorem endsWithSep_append (p n : Path) (hne : n ≠ []) (hsep : sep ∉ n) : endsWithSep (p ++ n) = false := by
  refine decide_eq_false fun hs => hsep ?_
  rw [List.getLast?_append_of_ne_nil p hne] at hs
  exact List.mem_of_getLast? hs

theorem withSep_append_name (p : Path) (n : Name) (h : Plain n) : withSep (p ++ n) = p ++ n ++ [sep] := by
  unfold withSep
  rw [if_pos ⟨List.append_ne_nil_of_right_ne_nil p h.ne_nil, endsWithSep_append p n h.ne_nil h.noSep⟩]

/-- **A path with names put to its end, as a text.** -/
theorem extend_eq : ∀ (p : Path) (ns : List Name), (∀ n ∈ ns, Plain n) → ns ≠ [] →
    extend p ns = withSep p ++ [sep].intercalate ns
  | _, [], _, hne => absurd rfl hne
  | p, [n], h, _ => by
    rw [List.intercalate_singleton]
    exact (h n List.mem_cons_self).push_eq p
  | p, n :: m :: ns, h, _ => by
    rw [List.forall_mem_cons] at h
    show extend (push p n) (m :: ns) = _
    rw [extend_eq (push p n) (m :: ns) h.2 (List.cons_ne_nil _ _), h.1.push_eq, withSep_append_name _ _ h.1,
      List.intercalate_cons_cons, List.append_assoc, List.append_assoc, List.append_assoc]

/-- Names as a text do not begin with a separator. -/
theorem head_intercalate (ns : List Name) (h : ∀ n ∈ ns, Plain n) (hne : ns ≠ []) :
    ∃ c cs, [sep].intercalate ns = c :: cs ∧ c ≠ sep := by
  obtain ⟨n, rest, rfl⟩ := List.exists_cons_of_ne_nil hne
  have hn := h n List.mem_cons_self
  obtain ⟨c, cs, rfl⟩ := List.exists_cons_of_ne_nil hn.ne_nil
  refine ⟨c, _, List.intercalate_cons_cons_left, ?_⟩
  rintro rfl
  exact hn.noSep List.mem_cons_self

end Posix
