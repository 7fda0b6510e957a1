import Qcp.Decimal
/-!
# PortRange — a range of port numbers

The two ends of a `PortRange`, its text form (`display`, `fromStr`) and `combine`, the intersection in which port 0 is
no preference.  A range that is `valid` reads back from its own text (`fromStr_display`).
-/
namespace Qcp

structure PortRange where
  begin : UInt16
  «end» : UInt16
deriving DecidableEq, Repr

instance : Inhabited PortRange := ⟨⟨0, 0⟩⟩

namespace PortRange

/-- What the configuration accepts: port 0 alone, or a rising range without it. -/
def valid (r : PortRange) : Prop := (r.begin = 0 ∧ r.end = 0) ∨ (0 < r.begin ∧ r.begin ≤ r.end)

instance (r : PortRange) : Decidable r.valid := inferInstanceAs (Decidable (_ ∨ _))

def display (r : PortRange) : List Char :=
  if r.begin = r.end then Decimal.showNat r.begin.toNat
  else Decimal.showNat r.begin.toNat ++ '-' :: Decimal.showNat r.end.toNat

inductive ParseError where
  | outOfRange (n : Nat)
  | decreasing (s : List Char)
  | zeroInRange (s : List Char)
  | notARange (s : List Char)
deriving DecidableEq

def parseU16 (s : List Char) : Option UInt16 := (Decimal.parseNat 65535 s).map UInt16.ofNat

/-- The text before and after the first `-`. -/
def splitOnce : List Char → Option (List Char × List Char)
  | [] => none
  | c :: cs => if c = '-' then some ([], cs) else (splitOnce cs).map fun (a, b) => (c :: a, b)

def fromStr (s : List Char) : Except ParseError PortRange :=
  match parseU16 s with
  | some n => .ok ⟨n, n⟩
  | none =>
    match Decimal.parseNat (2 ^ 64 - 1) s with
    | some n => .error (.outOfRange n)
    | none =>
      match splitOnce s with
      | some (a, b) =>
        match parseU16 a, parseU16 b with
        | some aa, some bb =>
          if bb < aa then .error (.decreasing s)
          else if aa = 0 ∧ bb ≠ 0 then .error (.zeroInRange s)
          else .ok ⟨aa, bb⟩
        | _, _ => .error (.notARange s)
      | none => .error (.notARange s)

theorem parseU16_showNat (n : UInt16) : parseU16 (Decimal.showNat n.toNat) = some n := by
  have := n.toNat_lt
  rw [parseU16, Decimal.parseNat_showNat 65535 n.toNat (by omega) (by decide), Option.map_some, UInt16.ofNat_toNat]

theorem splitOnce_append : ∀ (a b : List Char), '-' ∉ a → splitOnce (a ++ '-' :: b) = some (a, b)
  | [], b, _ => by rw [List.nil_append, splitOnce, if_pos rfl]
  | c :: a, b, h => by
    rw [List.mem_cons, not_or] at h
    rw [List.cons_append, splitOnce, if_neg (Ne.symm h.1), splitOnce_append a b h.2]
    rfl

/-- What is read back from the text of two different ports. -/
theorem fromStr_display_of_ne (r : PortRange) (hne : r.begin ≠ r.end) : fromStr r.display =
    if r.end < r.begin then .error (.decreasing r.display)
    else if r.begin = 0 ∧ r.end ≠ 0 then .error (.zeroInRange r.display) else .ok r := by
  have hdash : '-' ∉ Decimal.showNat r.begin.toNat := by
    intro hm
    have := Decimal.digit_of_mem_showNat _ _ hm
    exact absurd this (by decide)
  have hm : '-' ∈ Decimal.showNat r.begin.toNat ++ '-' :: Decimal.showNat r.end.toNat :=
    List.mem_append_right _ List.mem_cons_self
  have hnone : ∀ max,
      Decimal.parseNat max (Decimal.showNat r.begin.toNat ++ '-' :: Decimal.showNat r.end.toNat) = none :=
    fun max => Decimal.parseNat_eq_none max _ '-' hm (by decide) (by decide)
  unfold display
  rw [if_neg hne]
  unfold fromStr
  rw [parseU16, hnone, Option.map_none]
  simp only [hnone, splitOnce_append _ _ hdash, parseU16_showNat]

/-- **A valid range reads back from its text.** -/
theorem fromStr_display (r : PortRange) (h : r.valid) : fromStr r.display = .ok r := by
  by_cases hne : r.begin = r.end
  · unfold display
    rw [if_pos hne, fromStr, parseU16_showNat]
    simp only
    obtain ⟨b, e⟩ := r
    simp only at hne
    rw [hne]
  · rw [fromStr_display_of_ne r hne]
    rcases h with ⟨h0, h1⟩ | ⟨h0, h1⟩
    · exact absurd (h0.trans h1.symm) hne
    · rw [if_neg (UInt16.not_lt.2 h1), if_neg fun h => absurd h0 (by rw [h.1]; decide)]

/-- And no other is read from its own. -/
theorem fromStr_display_error (r : PortRange) (h : ¬ r.valid) : ∃ e, fromStr r.display = .error e := by
  have hne : r.begin ≠ r.end := fun he => h (by
    by_cases h0 : r.begin = 0
    · exact Or.inl ⟨h0, he ▸ h0⟩
    · exact Or.inr ⟨UInt16.pos_iff_ne_zero.2 h0, he ▸ UInt16.le_refl _⟩)
  rw [fromStr_display_of_ne r hne]
  split
  · exact ⟨_, rfl⟩
  · rename_i hle
    have h0 : r.begin = 0 := Classical.not_not.1 fun h0 => h (Or.inr ⟨UInt16.pos_iff_ne_zero.2 h0, UInt16.not_lt.1 hle⟩)
    rw [if_pos ⟨h0, fun he => hne (h0.trans he.symm)⟩]
    exact ⟨_, rfl⟩

theorem valid_single (n : UInt16) : valid ⟨n, n⟩ := by
  by_cases h : n = 0
  · exact Or.inl ⟨h, h⟩
  · exact Or.inr ⟨UInt16.pos_iff_ne_zero.2 h, UInt16.le_refl n⟩

/-- **Only valid ranges are read.** -/
theorem valid_of_fromStr (s : List Char) (r : PortRange) (h : fromStr s = .ok r) : r.valid := by
  unfold fromStr at h
  split at h
  · cases h; exact valid_single _
  split at h
  · cases h
  split at h
  · split at h
    · rename_i a b aa bb _ _
      split at h
      · cases h
      rename_i hle
      split at h
      · cases h
      rename_i hz
      cases h
      by_cases h0 : aa = 0
      · exact Or.inl ⟨h0, Classical.not_not.1 fun hb => hz ⟨h0, hb⟩⟩
      · exact Or.inr ⟨UInt16.pos_iff_ne_zero.2 h0, UInt16.not_lt.1 hle⟩
    · cases h
  · cases h

def isDefault (r : PortRange) : Bool := r.begin == 0 && r.begin == r.end

/-- The intersection of two preferences, or both of them when they are disjoint. -/
def combine (self theirs : PortRange) : Except (PortRange × PortRange) PortRange :=
  if self.isDefault then .ok theirs
  else if theirs.isDefault then .ok self
  else
    let begin := max self.begin theirs.begin
    let «end» := min self.end theirs.end
    if begin ≤ «end» then .ok ⟨begin, «end»⟩ else .error (theirs, self)

theorem isDefault_iff (r : PortRange) : r.isDefault = true ↔ r.begin = 0 ∧ r.end = 0 := by
  unfold isDefault
  rw [Bool.and_eq_true, beq_iff_eq, beq_iff_eq]
  constructor
  · rintro ⟨h0, he⟩; exact ⟨h0, he ▸ h0⟩
  · rintro ⟨h0, he⟩; exact ⟨h0, h0.trans he.symm⟩

/-- Two valid ranges combine to a valid one. -/
theorem combine_valid (a b r : PortRange) (ha : a.valid) (hb : b.valid) (h : combine a b = .ok r) : r.valid := by
  unfold combine at h
  split at h
  · cases h; exact hb
  rename_i hda
  split at h
  · cases h; exact ha
  rename_i hdb
  simp only at h
  split at h
  · rename_i hle
    cases h
    rw [isDefault_iff] at hda hdb
    have ha' := ha.resolve_left hda
    refine Or.inr ⟨?_, hle⟩
    show 0 < if a.begin ≤ b.begin then b.begin else a.begin
    split
    · exact (hb.resolve_left hdb).1
    · exact ha'.1
  · cases h

end PortRange
end Qcp
