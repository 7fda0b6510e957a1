import Qcp.Bare
/-!
# HostMatch — the hosts a list of patterns lets in

`evaluateHostMatch` lets a host in with any of its patterns, and a negated pattern stands for all hosts but those of its
remainder.  `hostLine_applies` says so, and that patterns which do not match the host make no difference;
`not_excludes` that a negated pattern does not keep a host out when another one lets it in.
-/
namespace Qcp

open Bare (Text)

section

-- whether a pattern without negation matches a host
variable (wild : Text → Text → Bool)

def matchOnePattern (host pattern : Text) : Bool :=
  if pattern.head? = some '!' then !wild pattern.tail host else wild pattern host

/-- Without a host only the pattern for all of them counts. -/
def evaluateHostMatch (host : Option Text) (args : List Text) : Bool :=
  match host with
  | some host => args.any fun arg => matchOnePattern wild host arg
  | none => args.any fun arg => arg = ['*']

/-! ## Negation -/

/-- What is left of a pattern without its negation matches the host. -/
def Matched (host pattern : Text) : Prop :=
  wild (if pattern.head? = some '!' then pattern.tail else pattern) host = true

/-- One of the negated patterns has a remainder that matches the host. -/
def Excluded (host : Text) (args : List Text) : Prop := ∃ p ∈ args, p.head? = some '!' ∧ Matched wild host p

/-- The hosts a pattern stands for: a negated one for all but those of its remainder. -/
def hosts (pattern : Text) : Set Text :=
  if pattern.head? = some '!' then {host | wild pattern.tail host = true}ᶜ else {host | wild pattern host = true}

variable {wild}

theorem mem_hosts_negated (host pattern : Text) (h : pattern.head? = some '!') :
    host ∈ hosts wild pattern ↔ ¬ Matched wild host pattern := by
  unfold hosts Matched
  rw [if_pos h, if_pos h]
  rfl

theorem mem_hosts_positive (host pattern : Text) (h : pattern.head? ≠ some '!') :
    host ∈ hosts wild pattern ↔ Matched wild host pattern := by
  unfold hosts Matched
  rw [if_neg h, if_neg h]
  rfl

theorem matchOnePattern_iff (host pattern : Text) :
    matchOnePattern wild host pattern = true ↔ host ∈ hosts wild pattern := by
  unfold matchOnePattern hosts
  by_cases h : pattern.head? = some '!' <;> simp [h]

/-- **A line applies to the hosts its patterns stand for**, those of one as those of another. -/
theorem evaluateHostMatch_iff (host : Text) (args : List Text) :
    evaluateHostMatch wild (some host) args = true ↔ ∃ p ∈ args, host ∈ hosts wild p := by
  unfold evaluateHostMatch
  simp only [List.any_eq_true, matchOnePattern_iff]

/-- **Patterns that stand for other hosts** make no difference, wherever they are added. -/
theorem evaluateHostMatch_add (host : Text) (args more all : List Text) (hall : ∀ p, p ∈ all ↔ p ∈ args ∨ p ∈ more)
    (hmore : ∀ p ∈ more, host ∉ hosts wild p) :
    evaluateHostMatch wild (some host) all = evaluateHostMatch wild (some host) args := by
  rw [Bool.eq_iff_iff, evaluateHostMatch_iff, evaluateHostMatch_iff]
  constructor
  · rintro ⟨p, hp, hin⟩
    rcases (hall p).1 hp with hp | hp
    · exact ⟨p, hp, hin⟩
    · exact absurd hin (hmore p hp)
  · rintro ⟨p, hp, hin⟩
    exact ⟨p, (hall p).2 (Or.inl hp), hin⟩

/-- **Patterns whose text does not match** make no difference only if the host is in already, or none of them is
negated: a negated one stands for the host then. -/
theorem added_iff (host : Text) (args more all : List Text) (hall : ∀ p, p ∈ all ↔ p ∈ args ∨ p ∈ more)
    (hmore : ∀ p ∈ more, ¬ Matched wild host p) :
    evaluateHostMatch wild (some host) all = evaluateHostMatch wild (some host) args ↔
      (∃ p ∈ args, host ∈ hosts wild p) ∨ ∀ p ∈ more, p.head? ≠ some '!' := by
  constructor
  · intro h
    by_cases hin : ∃ p ∈ args, host ∈ hosts wild p
    · exact Or.inl hin
    · right
      intro p hp hneg
      rw [Bool.eq_iff_iff, evaluateHostMatch_iff, evaluateHostMatch_iff] at h
      exact hin (h.1 ⟨p, (hall p).2 (Or.inr hp), (mem_hosts_negated host p hneg).2 (hmore p hp)⟩)
  · rintro (⟨p, hp, hin⟩ | hpos)
    · rw [(evaluateHostMatch_iff host all).2 ⟨p, (hall p).2 (Or.inl hp), hin⟩,
        (evaluateHostMatch_iff host args).2 ⟨p, hp, hin⟩]
    · refine evaluateHostMatch_add host args more all hall fun p hp => ?_
      rw [mem_hosts_positive host p (hpos p hp)]
      exact hmore p hp

/-- **What a line of patterns comes to for a host**: it applies when one of them is positive and matches, or negated
with a remainder that does not; a negated one whose remainder matches leaves it to the others, and keeps the host out
when all are such, or positive ones that do not match; and patterns that do not match the host change nothing. -/
theorem hostLine_applies (host : Text) (args more all : List Text) (hall : ∀ p, p ∈ all ↔ p ∈ args ∨ p ∈ more) :
    (evaluateHostMatch wild (some host) args = true ↔
      (∃ p ∈ args, p.head? ≠ some '!' ∧ Matched wild host p) ∨
        ∃ p ∈ args, p.head? = some '!' ∧ ¬ Matched wild host p) ∧
    (∀ before p after, args = before ++ p :: after → p.head? = some '!' → Matched wild host p →
      evaluateHostMatch wild (some host) args = evaluateHostMatch wild (some host) (before ++ after)) ∧
    ((∀ p ∈ args, p.head? = some '!' ↔ Matched wild host p) →
      evaluateHostMatch wild (some host) args = false) ∧
    ((∀ p ∈ more, p.head? = some '!' ↔ Matched wild host p) →
      evaluateHostMatch wild (some host) all = evaluateHostMatch wild (some host) args) := by
  have hout : ∀ p : Text, (p.head? = some '!' ↔ Matched wild host p) → host ∉ hosts wild p := by
    intro p h
    by_cases hneg : p.head? = some '!'
    · rw [mem_hosts_negated host p hneg]
      exact not_not_intro (h.1 hneg)
    · rw [mem_hosts_positive host p hneg]
      exact fun hm => hneg (h.2 hm)
  refine ⟨?_, ?_, ?_, fun hmore => evaluateHostMatch_add host args more all hall fun p hp => hout p (hmore p hp)⟩
  · rw [evaluateHostMatch_iff]
    constructor
    · rintro ⟨p, hp, hin⟩
      by_cases hneg : p.head? = some '!'
      · exact Or.inr ⟨p, hp, hneg, (mem_hosts_negated host p hneg).1 hin⟩
      · exact Or.inl ⟨p, hp, hneg, (mem_hosts_positive host p hneg).1 hin⟩
    · rintro (⟨p, hp, hpos, hm⟩ | ⟨p, hp, hneg, hm⟩)
      · exact ⟨p, hp, (mem_hosts_positive host p hpos).2 hm⟩
      · exact ⟨p, hp, (mem_hosts_negated host p hneg).2 hm⟩
  · rintro before p after rfl hneg hm
    refine evaluateHostMatch_add host (before ++ after) [p] _ (fun q => ?_) fun q hq => ?_
    · simp only [List.mem_append, List.mem_cons, List.not_mem_nil, or_false]
      tauto
    · rw [List.mem_singleton.1 hq]
      exact hout p (iff_of_true hneg hm)
  · intro hall'
    rw [← Bool.not_eq_true, evaluateHostMatch_iff]
    rintro ⟨p, hp, hin⟩
    exact hout p (hall' p hp) hin

end

/-! ## Wildcards -/

/-- A star is any text, a question mark any character. -/
def wildMatch : Text → Text → Bool
  | [], host => host.isEmpty
  | c :: pattern, host =>
    if c = '*' then host.tails.any (wildMatch pattern)
    else
      match host with
      | [] => false
      | d :: host => (c = '?' ∨ c = d) && wildMatch pattern host

/-- `Host !a *` applies to `b` with both patterns, and `a` added changes nothing. -/
theorem hostLine_applies_b :
    evaluateHostMatch wildMatch (some ['b']) [['!', 'a'], ['*']] = true ∧
    evaluateHostMatch wildMatch (some ['b']) [['!', 'a'], ['a'], ['*']] =
      evaluateHostMatch wildMatch (some ['b']) [['!', 'a'], ['*']] := by
  have h := @hostLine_applies wildMatch ['b'] [['!', 'a'], ['*']] [['a']] [['!', 'a'], ['a'], ['*']]
    (by simp only [List.mem_cons, List.not_mem_nil, or_false]; tauto)
  exact ⟨h.1.2 (Or.inr ⟨['!', 'a'], by decide, rfl, by unfold Matched; decide⟩), h.2.2.2 (by simp [Matched, wildMatch])⟩

/-- All hosts but one, and that one. -/
theorem not_excludes :
    ¬ ∀ host args, Excluded wildMatch host args → evaluateHostMatch wildMatch (some host) args = false := by
  intro h
  have hout := h ['a'] [['*'], ['!', 'a']] ⟨['!', 'a'], by simp, rfl, by rfl⟩
  revert hout
  decide

end Qcp
