import Mathlib
/-!
# Decimal — printing and reading unsigned numbers

`showNat` prints a number below `10 ^ 20` without leading zeros, `parseNat` reads digits with an optional plus sign up
to a bound; `parseNat_showNat` is the round trip.
-/
namespace Decimal

def digitChar (d : Nat) : Char := Char.ofNat (48 + d)

def digitVal (c : Char) : Option Nat := if 48 ≤ c.toNat ∧ c.toNat < 58 then some (c.toNat - 48) else none

/-- At most `k + 1` digits, in front of `acc`. -/
def showDigits : Nat → Nat → List Char → List Char
  | 0, n, acc => digitChar (n % 10) :: acc
  | k + 1, n, acc => if n < 10 then digitChar n :: acc else showDigits k (n / 10) (digitChar (n % 10) :: acc)

def showNat (n : Nat) : List Char := showDigits 19 n []

/-- The value of the digits read after a number `v`. -/
def readDigits (v : Nat) : List Char → Option Nat
  | [] => some v
  | c :: cs => match digitVal c with
    | none => none
    | some d => readDigits (10 * v + d) cs

/-- Digits, at least one, after an optional plus sign, worth at most `max`. -/
def parseNat (max : Nat) (s : List Char) : Option Nat :=
  let s := if s.head? = some '+' then s.tail else s
  if s = [] then none else (readDigits 0 s).filter (· ≤ max)

theorem toNat_digitChar (d : Nat) (h : d < 10) : (digitChar d).toNat = 48 + d := by
  rw [digitChar, Char.toNat_ofNat, if_pos (Or.inl (by omega))]

theorem digitVal_digitChar (d : Nat) (h : d < 10) : digitVal (digitChar d) = some d := by
  unfold digitVal
  rw [toNat_digitChar d h, if_pos (by omega)]
  congr 1
  omega

theorem readDigits_showDigits : ∀ (k n : Nat) (acc : List Char), n < 10 ^ (k + 1) →
    readDigits 0 (showDigits k n acc) = readDigits n acc
  | 0, n, acc, h => by
    have hn : n % 10 = n := by omega
    rw [showDigits, readDigits, digitVal_digitChar _ (by omega), hn]
    simp only [Nat.mul_zero, Nat.zero_add]
  | k + 1, n, acc, h => by
    rw [showDigits]
    split
    · rename_i hlt
      rw [readDigits, digitVal_digitChar _ hlt]
      simp only [Nat.mul_zero, Nat.zero_add]
    · have hq : n / 10 < 10 ^ (k + 1) := by
        rw [Nat.div_lt_iff_lt_mul (by decide)]
        rwa [Nat.pow_succ] at h
      rw [readDigits_showDigits k (n / 10) _ hq, readDigits, digitVal_digitChar _ (by omega)]
      simp only
      congr 1
      omega

theorem showDigits_head : ∀ (k n : Nat) (acc : List Char), ∃ d rest, d < 10 ∧
    showDigits k n acc = digitChar d :: rest
  | 0, n, acc => ⟨n % 10, acc, by omega, rfl⟩
  | k + 1, n, acc => by
    rw [showDigits]
    split
    · rename_i h; exact ⟨n, acc, h, rfl⟩
    · exact showDigits_head k _ _

/-- **Reading what was printed.** -/
theorem parseNat_showNat (max n : Nat) (hn : n ≤ max) (hmax : max < 10 ^ 20) :
    parseNat max (showNat n) = some n := by
  obtain ⟨d, rest, hd, he⟩ := showDigits_head 19 n []
  have hr := readDigits_showDigits 19 n [] (by omega)
  have hp : digitChar d ≠ '+' := by
    intro h
    have := congrArg Char.toNat h
    rw [toNat_digitChar d hd, show ('+' : Char).toNat = 43 from rfl] at this
    omega
  have hh : (showDigits 19 n []).head? ≠ some '+' := by
    rw [he, List.head?_cons]
    exact fun h => hp (Option.some.inj h)
  have hne : showDigits 19 n [] ≠ [] := by rw [he]; exact List.cons_ne_nil _ _
  unfold parseNat showNat
  simp only [if_neg hh, if_neg hne, hr, readDigits]
  exact Option.filter_eq_some_iff.2 ⟨rfl, by simpa using hn⟩

/-- Every character printed is a digit. -/
theorem digit_of_mem_showDigits : ∀ (k n : Nat) (acc : List Char), (∀ c ∈ acc, (digitVal c).isSome) →
    ∀ c ∈ showDigits k n acc, (digitVal c).isSome
  | 0, n, acc, h, c, hc => by
    rcases List.mem_cons.1 hc with rfl | hc
    · rw [digitVal_digitChar _ (by omega)]; rfl
    · exact h c hc
  | k + 1, n, acc, h, c, hc => by
    rw [showDigits] at hc
    split at hc
    · rename_i hlt
      rcases List.mem_cons.1 hc with rfl | hc
      · rw [digitVal_digitChar _ hlt]; rfl
      · exact h c hc
    · refine digit_of_mem_showDigits k _ _ (fun x hx => ?_) c hc
      rcases List.mem_cons.1 hx with rfl | hx
      · rw [digitVal_digitChar _ (by omega)]; rfl
      · exact h x hx

theorem digit_of_mem_showNat (n : Nat) : ∀ c ∈ showNat n, (digitVal c).isSome :=
  digit_of_mem_showDigits 19 n [] fun c hc => by cases hc

/-- A text with a character that is neither a digit nor a leading plus is not a number. -/
theorem readDigits_eq_none : ∀ (s : List Char) (v : Nat) (c : Char), c ∈ s → digitVal c = none → readDigits v s = none
  | [], _, c, h, _ => by cases h
  | x :: s, v, c, h, hc => by
    rw [readDigits]
    rcases List.mem_cons.1 h with rfl | h
    · rw [hc]
    · cases hx : digitVal x with
      | none => rfl
      | some d => exact readDigits_eq_none s _ c h hc

theorem parseNat_eq_none (max : Nat) (s : List Char) (c : Char) (h : c ∈ s) (hc : digitVal c = none) (hp : c ≠ '+') :
    parseNat max s = none := by
  unfold parseNat
  have key : ∀ t : List Char, c ∈ t → (if t = [] then none else (readDigits 0 t).filter (· ≤ max)) = none := by
    intro t ht
    split
    · rfl
    · rw [readDigits_eq_none t 0 c ht hc]; rfl
  apply key _
  split
  · rename_i hs
    cases s with
    | nil => cases h
    | cons x s =>
      have hx : x = '+' := Option.some.inj hs
      rcases List.mem_cons.1 h with rfl | h
      · exact absurd hx hp
      · exact h
  · exact h

end Decimal
