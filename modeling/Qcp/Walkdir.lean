import Qcp.Posix
/-!
# Walkdir — a directory tree, and the walk over it

A tree is what a walker meets: names, or names that are no text, directories and other files, and errors.  `Root.nodes`
is what can be reached in it, by the names that lead there; `Root.walkDir` is the walk itself, parents first and
skipping what is not deep enough.  `walkDir_found` says that a walk finds the nodes, and `walkDir_clean`
when it is without errors.
-/
namespace Walkdir

open Posix (Path Name Plain push extend)

/-! ## Trees -/

structure EntryName where
  text : Name
  plain : Plain text

structure Error where
  permissionDenied : Bool
  text : List Char

inductive Kind where
  | file
  | directory
  | other
deriving DecidableEq, Repr

/-- What is left to be read of a directory, links followed.  An entry without a name has one that is not Unicode. -/
inductive Forest where
  | done
  | fails (e : Error) (rest : Forest)
  | leaf (name : Option EntryName) (regular : Bool) (rest : Forest)
  | dir (name : Option EntryName) (children rest : Forest)

/-- What a walk starts from. -/
inductive Root where
  | fails (e : Error)
  | leaf (regular : Bool)
  | dir (children : Forest)

/-- The names that lead there, and what is there. -/
structure Node where
  names : List Name
  kind : Kind
deriving DecidableEq, Repr

/-- The node, seen from one directory further up. -/
def Node.under (n : Name) (x : Node) : Node := { x with names := n :: x.names }

def leafKind (regular : Bool) : Kind := if regular then .file else .other

namespace Forest

/-- The names a directory has. -/
def siblings : Forest → List Name
  | done => []
  | fails _ rest => rest.siblings
  | leaf n _ rest => (n.map EntryName.text).toList ++ rest.siblings
  | dir n _ rest => (n.map EntryName.text).toList ++ rest.siblings

/-- **No directory has a name twice.** -/
def Distinct : Forest → Prop
  | done => True
  | fails _ rest => rest.Distinct
  | leaf n _ rest => (∀ m ∈ n, m.text ∉ rest.siblings) ∧ rest.Distinct
  | dir n kids rest => (∀ m ∈ n, m.text ∉ rest.siblings) ∧ kids.Distinct ∧ rest.Distinct

/-- What names lead to. -/
def Reaches : Forest → List Name → Kind → Prop
  | done, _, _ => False
  | fails _ rest, ns, k => rest.Reaches ns k
  | leaf n regular rest, ns, k => (∃ m ∈ n, ns = [m.text] ∧ k = leafKind regular) ∨ rest.Reaches ns k
  | dir n kids rest, ns, k => (∃ m ∈ n, (ns = [m.text] ∧ k = .directory) ∨ ∃ tail, ns = m.text :: tail ∧
    kids.Reaches tail k) ∨
      rest.Reaches ns k

/-- **Nothing was in the way**: no error, and no name that is no text. -/
def Clean : Forest → Prop
  | done => True
  | fails _ _ => False
  | leaf n _ rest => n.isSome ∧ rest.Clean
  | dir n kids rest => n.isSome ∧ kids.Clean ∧ rest.Clean

/-- The nodes, each directory in front of what is in it. -/
def nodes : Forest → List Node
  | done => []
  | fails _ rest => rest.nodes
  | leaf n regular rest => (n.map fun m => ⟨[m.text], leafKind regular⟩).toList ++ rest.nodes
  | dir (some n) kids rest => ⟨[n.text], .directory⟩ :: (kids.nodes.map (Node.under n.text) ++ rest.nodes)
  | dir none _ rest => rest.nodes

end Forest

/-! ## The walk -/

/-- What the walk yields: the path if it is text, how deep it is, and whether it is a directory. -/
structure DirEntry where
  path : Option Path
  depth : Nat
  isDir : Bool
deriving DecidableEq, Repr

def child (dir : Option Path) (n : Option EntryName) : Option Path := dir.bind fun p => n.map fun m => push p m.text

def Forest.walk : Forest → Option Path → Nat → List (Except Error DirEntry)
  | .done, _, _ => []
  | .fails e rest, p, depth => .error e :: rest.walk p depth
  | .leaf n _ rest, p, depth => .ok ⟨child p n, depth, false⟩ :: rest.walk p depth
  | .dir n kids rest, p, depth =>
    .ok ⟨child p n, depth, true⟩ :: (kids.walk (child p n) (depth + 1) ++ rest.walk p depth)

def deepEnough (minDepth : Nat) : Except Error DirEntry → Bool
  | .ok entry => minDepth ≤ entry.depth
  | .error _ => true

namespace Root

def Distinct : Root → Prop
  | dir kids => kids.Distinct
  | _ => True

def Reaches : Root → List Name → Kind → Prop
  | fails _, _, _ => False
  | leaf regular, ns, k => ns = [] ∧ k = leafKind regular
  | dir kids, ns, k => (ns = [] ∧ k = .directory) ∨ kids.Reaches ns k

def Clean : Root → Prop
  | fails _ => False
  | leaf _ => True
  | dir kids => kids.Clean

def nodes : Root → List Node
  | fails _ => []
  | leaf regular => [⟨[], leafKind regular⟩]
  | dir kids => ⟨[], .directory⟩ :: kids.nodes

/-- The whole walk from a path. -/
def items (p : Path) : Root → List (Except Error DirEntry)
  | fails e => [.error e]
  | leaf _ => [.ok ⟨some p, 0, false⟩]
  | dir kids => .ok ⟨some p, 0, true⟩ :: kids.walk (some p) 1

/-- The walk, without the entries that are not deep enough. -/
def walkDir (r : Root) (p : Path) (minDepth : Nat) : List (Except Error DirEntry) :=
  (r.items p).filter (deepEnough minDepth)

end Root

/-! ## Nodes -/

namespace Forest

theorem mem_nodes : ∀ (f : Forest) (ns : List Name) (k : Kind), (⟨ns, k⟩ : Node) ∈ f.nodes ↔ f.Reaches ns k
  | done, _, _ => by simp [nodes, Reaches]
  | fails _ rest, ns, k => mem_nodes rest ns k
  | leaf none _ rest, ns, k => by simp [nodes, Reaches, mem_nodes rest]
  | leaf (some n) regular rest, ns, k => by simp [nodes, Reaches, mem_nodes rest]
  | dir none _ rest, ns, k => by simp [nodes, Reaches, mem_nodes rest]
  | dir (some n) kids rest, ns, k => by
    have hk : (∃ x ∈ kids.nodes, x.under n.text = ⟨ns, k⟩) ↔ ∃ tail, ns = n.text :: tail ∧ kids.Reaches tail k := by
      constructor
      · rintro ⟨⟨tail, l⟩, hx, he⟩
        cases he
        exact ⟨tail, rfl, (mem_nodes kids tail _).1 hx⟩
      · rintro ⟨tail, rfl, hr⟩
        exact ⟨⟨tail, k⟩, (mem_nodes kids tail k).2 hr, rfl⟩
    simp only [nodes, Reaches, List.mem_cons, List.mem_append, List.mem_map, hk, mem_nodes rest ns k, Node.mk.injEq,
      Option.mem_some_iff, exists_eq_left', or_assoc]

/-- The first name of a node is one the directory has. -/
theorem head_mem_siblings : ∀ (f : Forest) (x : Node), x ∈ f.nodes → ∃ n tail, x.names = n :: tail ∧ n ∈ f.siblings
  | done, _, h => by cases h
  | fails _ rest, x, h => head_mem_siblings rest x h
  | leaf n _ rest, x, h => by
    rcases List.mem_append.1 h with h | h
    · cases n with
      | none => cases h
      | some m =>
        cases List.mem_singleton.1 h
        exact ⟨m.text, [], rfl, List.mem_append_left _ (List.mem_singleton_self _)⟩
    · obtain ⟨n', tail, he, hm⟩ := head_mem_siblings rest x h
      exact ⟨n', tail, he, List.mem_append_right _ hm⟩
  | dir none _ rest, x, h => head_mem_siblings rest x h
  | dir (some m) kids rest, x, h => by
    rcases List.mem_cons.1 h with rfl | h
    · exact ⟨m.text, [], rfl, List.mem_cons_self⟩
    · rcases List.mem_append.1 h with h | h
      · obtain ⟨y, -, rfl⟩ := List.mem_map.1 h
        exact ⟨m.text, y.names, rfl, List.mem_cons_self⟩
      · obtain ⟨n', tail, he, hm⟩ := head_mem_siblings rest x h
        exact ⟨n', tail, he, List.mem_cons_of_mem _ hm⟩

theorem ne_nil_of_mem_nodes (f : Forest) (x : Node) (h : x ∈ f.nodes) : x.names ≠ [] := by
  obtain ⟨n, tail, he, -⟩ := head_mem_siblings f x h
  rw [he]
  exact List.cons_ne_nil _ _

/-- Every name in the tree is a directory's. -/
theorem plain_of_mem_nodes : ∀ (f : Forest) (x : Node), x ∈ f.nodes → ∀ n ∈ x.names, Plain n
  | done, _, h => by cases h
  | fails _ rest, x, h => plain_of_mem_nodes rest x h
  | leaf n _ rest, x, h => by
    rcases List.mem_append.1 h with h | h
    · cases n with
      | none => cases h
      | some m =>
        cases List.mem_singleton.1 h
        intro n hn
        rw [List.mem_singleton.1 hn]
        exact m.plain
    · exact plain_of_mem_nodes rest x h
  | dir none _ rest, x, h => plain_of_mem_nodes rest x h
  | dir (some m) kids rest, x, h => by
    rcases List.mem_cons.1 h with rfl | h
    · intro n hn
      rw [List.mem_singleton.1 hn]
      exact m.plain
    · rcases List.mem_append.1 h with h | h
      · obtain ⟨y, hy, rfl⟩ := List.mem_map.1 h
        intro n hn
        rcases List.mem_cons.1 hn with rfl | hn
        · exact m.plain
        · exact plain_of_mem_nodes kids y hy n hn
      · exact plain_of_mem_nodes rest x h

/-- **No names lead to two nodes.** -/
theorem nodup_nodes : ∀ (f : Forest), f.Distinct → (f.nodes.map Node.names).Nodup
  | done, _ => List.nodup_nil
  | fails _ rest, h => nodup_nodes rest h
  | leaf none _ rest, h => nodup_nodes rest h.2
  | leaf (some m) _ rest, h => by
    refine List.nodup_cons.2 ⟨fun hm => ?_, nodup_nodes rest h.2⟩
    obtain ⟨x, hx, he⟩ := List.mem_map.1 hm
    obtain ⟨n, tail, hn, hs⟩ := head_mem_siblings rest x hx
    cases hn.symm.trans he
    exact h.1 m rfl hs
  | dir none _ rest, h => nodup_nodes rest h.2.2
  | dir (some m) kids rest, h => by
    have hrest : ∀ tail, (m.text :: tail) ∉ rest.nodes.map Node.names := by
      intro tail hm
      obtain ⟨x, hx, he⟩ := List.mem_map.1 hm
      obtain ⟨n, tail', hn, hs⟩ := head_mem_siblings rest x hx
      cases hn.symm.trans he
      exact h.1 m rfl hs
    have hkids : (kids.nodes.map (Node.under m.text)).map Node.names = (kids.nodes.map Node.names).map
        (m.text :: ·) := by
      rw [List.map_map, List.map_map]
      rfl
    show ((⟨[m.text], .directory⟩ : Node) :: (kids.nodes.map (Node.under m.text) ++ rest.nodes) |>.map Node.names).Nodup
    rw [List.map_cons, List.map_append, hkids, List.nodup_cons, List.nodup_append]
    refine ⟨fun hm => ?_, (nodup_nodes kids h.2.1).map (List.cons_injective), nodup_nodes rest h.2.2, ?_⟩
    · rcases List.mem_append.1 hm with hm | hm
      · obtain ⟨ns, hns, he⟩ := List.mem_map.1 hm
        cases he
        obtain ⟨x, hx, hnil⟩ := List.mem_map.1 hns
        exact ne_nil_of_mem_nodes kids x hx hnil
      · exact hrest [] hm
    · rintro a ha b hb rfl
      obtain ⟨ns, -, rfl⟩ := List.mem_map.1 ha
      exact hrest ns hb

end Forest

/-! ## Directories in front of what is in them -/

/-- Each node's directory was seen before it, unless it lies in the root. -/
def Ordered (seen : List Node) : List Node → Prop
  | [] => True
  | x :: xs => (∀ ns n, x.names = ns ++ [n] → ns ≠ [] → ⟨ns, .directory⟩ ∈ seen) ∧ Ordered (x :: seen) xs

theorem Ordered.mono : ∀ {seen more : List Node} {xs : List Node}, seen ⊆ more → Ordered seen xs → Ordered more xs
  | _, _, [], _, _ => trivial
  | _, _, x :: _, hs, h =>
    ⟨fun ns n he hne => hs (h.1 ns n he hne), Ordered.mono (List.cons_subset_cons x hs) h.2⟩

theorem Ordered.append : ∀ {seen xs ys : List Node}, Ordered seen xs → Ordered seen ys → Ordered seen (xs ++ ys)
  | _, [], _, _, hy => hy
  | seen, x :: _, _, hx, hy => ⟨hx.1, Ordered.append hx.2 (hy.mono (List.subset_cons_self x seen))⟩

theorem Ordered.under (m : Name) : ∀ {seen more xs : List Node}, seen.map (Node.under m) ⊆ more →
    ⟨[m], .directory⟩ ∈ more → Ordered seen xs → Ordered more (xs.map (Node.under m))
  | _, _, [], _, _, _ => trivial
  | seen, more, x :: xs, hs, hm, h => by
    refine ⟨fun ns n he hne => ?_, @Ordered.under m (x :: seen) _ _ ?_ (List.mem_cons_of_mem _ hm) h.2⟩
    · cases ns with
      | nil => exact absurd rfl hne
      | cons a ns =>
        obtain ⟨rfl, hx⟩ := List.cons.inj (show m :: x.names = a :: (ns ++ [n]) from he)
        cases ns with
        | nil => exact hm
        | cons b bs => exact hs (List.mem_map_of_mem (h.1 _ n hx (List.cons_ne_nil b bs)))
    · rw [List.map_cons]
      exact List.cons_subset_cons _ hs

/-- **Where a node stands, its directory came before.** -/
theorem Ordered.before : ∀ {seen front back : List Node} {x : Node}, Ordered seen (front ++ x :: back) →
    ∀ ns n, x.names = ns ++ [n] → ns ≠ [] → ⟨ns, .directory⟩ ∈ front ++ seen
  | _, [], _, _, h, ns, n, he, hne => h.1 ns n he hne
  | seen, y :: front, _, _, h, ns, n, he, hne => by
    rcases List.mem_append.1 (Ordered.before h.2 ns n he hne) with hm | hm
    · exact List.mem_cons_of_mem _ (List.mem_append_left _ hm)
    · rcases List.mem_cons.1 hm with hm | hm
      · rw [hm]
        exact List.mem_cons_self
      · exact List.mem_cons_of_mem _ (List.mem_append_right _ hm)

/-- Nothing comes before the directory it is in. -/
theorem Ordered.pairwise : ∀ {seen xs : List Node}, Ordered seen xs → (xs.map Node.names).Nodup →
    (∀ x ∈ seen, x.names ∉ xs.map Node.names) →
    xs.Pairwise fun x y => ∀ n, y.names ≠ [] → x.names ≠ y.names ++ [n]
  | _, [], _, _, _ => List.Pairwise.nil
  | seen, x :: xs, h, hn, hs => by
    rw [List.map_cons, List.nodup_cons] at hn
    refine List.pairwise_cons.2 ⟨fun y hy n hne he => ?_, h.2.pairwise hn.2 fun z hz hmem => ?_⟩
    · have hmem : y.names ∈ xs.map Node.names := List.mem_map_of_mem hy
      exact hs _ (h.1 y.names n he hne) (List.mem_cons_of_mem _ hmem)
    · rcases List.mem_cons.1 hz with rfl | hz
      · exact hn.1 hmem
      · exact hs z hz (List.mem_cons_of_mem _ hmem)

theorem Forest.ordered_nodes : ∀ f : Forest, Ordered [] f.nodes
  | .done => trivial
  | .fails _ rest => rest.ordered_nodes
  | .leaf none _ rest => rest.ordered_nodes
  | .leaf (some m) _ rest => by
    refine ⟨fun ns n he hne => ?_, rest.ordered_nodes.mono (List.nil_subset _)⟩
    cases ns with
    | nil => exact absurd rfl hne
    | cons a ns => cases ns <;> cases he
  | .dir none _ rest => rest.ordered_nodes
  | .dir (some m) kids rest => by
    refine ⟨fun ns n he hne => ?_, Ordered.append (Ordered.under m.text (List.nil_subset _) List.mem_cons_self
      kids.ordered_nodes) (rest.ordered_nodes.mono (List.nil_subset _))⟩
    cases ns with
    | nil => exact absurd rfl hne
    | cons a ns => cases ns <;> cases he

/-! ## What the walk finds -/

/-- An entry with a path that is text. -/
def found : Except Error DirEntry → Option DirEntry
  | .ok entry => if entry.path.isSome then some entry else none
  | .error _ => none

def Node.entry (p : Path) (depth : Nat) (x : Node) : DirEntry :=
  ⟨some (extend p x.names), depth + x.names.length, x.kind = .directory⟩

theorem Node.entry_under (p : Path) (depth : Nat) (n : Name) (x : Node) :
    (x.under n).entry p depth = x.entry (push p n) (depth + 1) := by
  show (⟨_, depth + (x.names.length + 1), _⟩ : DirEntry) = ⟨_, depth + 1 + x.names.length, _⟩
  rw [Nat.add_comm x.names.length 1, Nat.add_assoc]
  rfl

namespace Forest

/-- Below a path that is no text there is none. -/
theorem walk_none : ∀ (f : Forest) (depth : Nat), (f.walk none depth).filterMap found = []
  | done, _ => rfl
  | fails _ rest, depth => walk_none rest depth
  | leaf _ _ rest, depth => walk_none rest depth
  | dir n kids rest, depth => by
    show ((kids.walk none (depth + 1)) ++ rest.walk none depth).filterMap found = []
    rw [List.filterMap_append, walk_none kids, walk_none rest]
    rfl

/-- **A walk finds the nodes**, in order. -/
theorem walk_found : ∀ (f : Forest) (p : Path) (depth : Nat),
    (f.walk (some p) (depth + 1)).filterMap found = f.nodes.map (Node.entry p depth)
  | done, _, _ => rfl
  | fails _ rest, p, depth => walk_found rest p depth
  | leaf none _ rest, p, depth => walk_found rest p depth
  | leaf (some m) regular rest, p, depth => by
    have hk : (leafKind regular = .directory) = False := by cases regular <;> simp [leafKind]
    show (⟨some (push p m.text), depth + 1, false⟩ : DirEntry) :: (rest.walk (some p) (depth + 1)).filterMap found = _
    rw [walk_found rest p depth]
    simp only [nodes, Option.map_some, Option.toList_some, List.cons_append, List.nil_append, List.map_cons,
      Node.entry, hk, decide_false]
    rfl
  | dir none kids rest, p, depth => by
    show ((kids.walk none (depth + 2)) ++ rest.walk (some p) (depth + 1)).filterMap found = _
    rw [List.filterMap_append, walk_none, walk_found rest p depth]
    rfl
  | dir (some m) kids rest, p, depth => by
    show (⟨some (push p m.text), depth + 1, true⟩ : DirEntry) ::
      ((kids.walk (some (push p m.text)) (depth + 2)) ++ rest.walk (some p) (depth + 1)).filterMap found = _
    rw [List.filterMap_append, walk_found kids (push p m.text) (depth + 1), walk_found rest p depth]
    show _ = (⟨some (push p m.text), depth + 1, true⟩ : DirEntry) ::
      (kids.nodes.map (Node.under m.text) ++ rest.nodes).map (Node.entry p depth)
    rw [List.map_append, List.map_map]
    congr 2
    exact List.map_congr_left fun x _ => (x.entry_under p depth m.text).symm

theorem walk_clean : ∀ (f : Forest) (p : Path) (depth : Nat),
    (∀ i ∈ f.walk (some p) depth, (found i).isSome) ↔ f.Clean
  | done, _, _ => by simp [walk, Clean]
  | fails _ rest, p, depth => by simp [walk, Clean, found]
  | leaf n _ rest, p, depth => by
    simp only [walk, Clean, List.forall_mem_cons, walk_clean rest p depth]
    cases n <;> simp [found, child]
  | dir none kids rest, p, depth => by simp [walk, Clean, found, child]
  | dir (some m) kids rest, p, depth => by
    simp only [walk, Clean, List.forall_mem_cons, List.forall_mem_append, walk_clean rest p depth]
    rw [show child (some p) (some m) = some (push p m.text) from rfl, walk_clean kids]
    simp [found]

theorem le_depth_of_mem_walk : ∀ (f : Forest) (p : Option Path) (depth : Nat) (entry : DirEntry),
    .ok entry ∈ f.walk p depth → depth ≤ entry.depth
  | done, _, _, _, h => by cases h
  | fails _ rest, p, depth, entry, h =>
    le_depth_of_mem_walk rest p depth entry ((List.mem_cons.1 h).resolve_left fun he => by cases he)
  | leaf _ _ rest, p, depth, entry, h => by
    rcases List.mem_cons.1 h with h | h
    · cases h
      exact Nat.le_refl _
    · exact le_depth_of_mem_walk rest p depth entry h
  | dir n kids rest, p, depth, entry, h => by
    rcases List.mem_cons.1 h with h | h
    · cases h
      exact Nat.le_refl _
    · rcases List.mem_append.1 h with h | h
      · exact Nat.le_of_succ_le (le_depth_of_mem_walk kids (child p n) (depth + 1) entry h)
      · exact le_depth_of_mem_walk rest p depth entry h

end Forest

namespace Root

theorem items_found (r : Root) (p : Path) : (r.items p).filterMap found = r.nodes.map (Node.entry p 0) := by
  cases r with
  | fails e => rfl
  | leaf regular => cases regular <;> rfl
  | dir kids =>
    show (⟨some p, 0, true⟩ : DirEntry) :: (kids.walk (some p) 1).filterMap found = _
    rw [kids.walk_found p 0]
    rfl

/-- **What a walk finds**: the nodes that are deep enough. -/
theorem walkDir_found (r : Root) (p : Path) (minDepth : Nat) : (r.walkDir p minDepth).filterMap found =
    (r.nodes.filter fun x => minDepth ≤ x.names.length).map (Node.entry p 0) := by
  have hf : ∀ items : List (Except Error DirEntry),
      (items.filter (deepEnough minDepth)).filterMap found =
        (items.filterMap found).filter fun entry => minDepth ≤ entry.depth := by
    intro items
    induction items with
    | nil => rfl
    | cons i items ih =>
      cases i with
      | error e => exact ih
      | ok entry =>
        by_cases hd : minDepth ≤ entry.depth <;> cases hp : entry.path <;> simp [found, deepEnough, hd, hp, ih]
  unfold walkDir
  rw [hf, items_found, List.filter_map]
  congr 2
  funext x
  show decide (minDepth ≤ 0 + x.names.length) = _
  rw [Nat.zero_add]

/-- What is skipped for not being deep enough is the root, and that is never in the way. -/
theorem walkDir_clean (r : Root) (p : Path) (minDepth : Nat) (h : minDepth ≤ 1) :
    (∀ i ∈ r.walkDir p minDepth, (found i).isSome) ↔ r.Clean := by
  cases r with
  | fails e => simp [walkDir, items, Clean, found, deepEnough]
  | leaf regular => by_cases hm : minDepth = 0 <;> simp [walkDir, items, Clean, found, deepEnough, hm]
  | dir kids =>
    have hall : (kids.walk (some p) 1).filter (deepEnough minDepth) = kids.walk (some p) 1 := by
      refine List.filter_eq_self.2 fun i hi => ?_
      cases i with
      | error e => rfl
      | ok entry => exact decide_eq_true (h.trans (kids.le_depth_of_mem_walk (some p) 1 entry hi))
    show (∀ i ∈ List.filter _ (_ :: _), _) ↔ kids.Clean
    rw [List.filter_cons, hall, ← kids.walk_clean p 1]
    split
    · rw [List.forall_mem_cons]
      exact and_iff_right rfl
    · rfl

theorem mem_nodes (r : Root) (ns : List Name) (k : Kind) : (⟨ns, k⟩ : Node) ∈ r.nodes ↔ r.Reaches ns k := by
  cases r with
  | fails e => simp [nodes, Reaches]
  | leaf regular => simp [nodes, Reaches]
  | dir kids => simp [nodes, Reaches, kids.mem_nodes]

theorem plain_of_mem_nodes (r : Root) (x : Node) (h : x ∈ r.nodes) : ∀ n ∈ x.names, Plain n := by
  cases r with
  | fails e => cases h
  | leaf regular =>
    rw [List.mem_singleton.1 h]
    exact fun n hn => absurd hn List.not_mem_nil
  | dir kids =>
    rcases List.mem_cons.1 h with rfl | h
    · exact fun n hn => absurd hn List.not_mem_nil
    · exact kids.plain_of_mem_nodes x h

theorem nodup_nodes (r : Root) (h : r.Distinct) : (r.nodes.map Node.names).Nodup := by
  cases r with
  | fails e => exact List.nodup_nil
  | leaf regular => exact List.nodup_singleton _
  | dir kids =>
    refine List.nodup_cons.2 ⟨fun hm => ?_, kids.nodup_nodes h⟩
    obtain ⟨x, hx, he⟩ := List.mem_map.1 hm
    exact kids.ne_nil_of_mem_nodes x hx he

/-- **Directories come in front of what is in them**, whether the root is there or not. -/
theorem ordered_nodes (r : Root) (minDepth : Nat) (h : minDepth ≤ 1) :
    Ordered [] (r.nodes.filter fun x => minDepth ≤ x.names.length) := by
  have hnil : ∀ (k : Kind) (ns : List Name) (n : Name), (⟨[], k⟩ : Node).names = ns ++ [n] → ns ≠ [] →
      (⟨ns, .directory⟩ : Node) ∈ ([] : List Node) := fun k ns n he _ => by cases ns <;> cases he
  cases r with
  | fails e => trivial
  | leaf regular =>
    show Ordered [] (List.filter _ [_])
    rw [List.filter_cons]
    split
    · exact ⟨hnil _, trivial⟩
    · trivial
  | dir kids =>
    have hall : kids.nodes.filter (fun x => decide (minDepth ≤ x.names.length)) = kids.nodes :=
      List.filter_eq_self.2 fun x hx =>
        decide_eq_true (h.trans (List.length_pos_iff.2 (kids.ne_nil_of_mem_nodes x hx)))
    show Ordered [] (List.filter _ (_ :: _))
    rw [List.filter_cons, hall]
    split
    · exact ⟨hnil _, kids.ordered_nodes.mono (List.nil_subset _)⟩
    · exact kids.ordered_nodes

/-- **Nothing comes before the directory it is in**, the root included. -/
theorem pairwise_nodes (r : Root) (h : r.Distinct) : r.nodes.Pairwise fun x y => ∀ n, x.names ≠ y.names ++ [n] := by
  have hn := r.nodup_nodes h
  cases r with
  | fails e => exact List.Pairwise.nil
  | leaf regular => exact List.pairwise_singleton _ _
  | dir kids =>
    rw [nodes, List.map_cons, List.nodup_cons] at hn
    have hroot : ∀ y ∈ kids.nodes, ∀ n, ([] : List Name) ≠ y.names ++ [n] := fun y _ n he =>
      List.append_ne_nil_of_right_ne_nil y.names (List.cons_ne_nil n []) he.symm
    refine List.pairwise_cons.2 ⟨hroot, ?_⟩
    refine (kids.ordered_nodes.pairwise hn.2 fun x hx => absurd hx List.not_mem_nil).imp_of_mem
      fun {x y} _ hy hxy n => ?_
    exact hxy n (kids.ne_nil_of_mem_nodes y hy)

end Root

end Walkdir
