import Qcp.Jobspecs
/-!
# Filespecs — files as they are written on the command line

`FileSpec.fromStr` takes a text that starts with a bracket apart at `]:`, and any other at its first colon, unless the
platform takes it for a local path.  `Written` is what can be meant: a path on a host given by its IPv6 address, with a
user in front of it or not, or a local file.  `means_iff` says that only the user in front of a bracket is misread.
-/
namespace Qcp

open Bare (Text)

/-- The text in front of and behind the first `c`. -/
def splitOnceAt (c : Char) (s : Text) : Option (Text × Text) :=
  match s.span (· ≠ c) with
  | (front, _ :: back) => some (front, back)
  | (_, []) => none

theorem span_append (c : Char) : ∀ (front back : Text), c ∉ front →
    (front ++ c :: back).span (· ≠ c) = (front, c :: back) := by
  intro front back h
  have hall : ∀ x ∈ front, decide (x ≠ c) = true := by
    intro x hx
    simpa using fun he : x = c => h (he ▸ hx)
  rw [List.span_eq_takeWhile_dropWhile, List.takeWhile_append_of_pos hall, List.dropWhile_append_of_pos hall]
  simp

theorem splitOnceAt_append (c : Char) (front back : Text) (h : c ∉ front) :
    splitOnceAt c (front ++ c :: back) = some (front, back) := by
  unfold splitOnceAt
  rw [span_append c front back h]

theorem splitOnceAt_of_notMem (c : Char) (s : Text) (h : c ∉ s) : splitOnceAt c s = none := by
  have hall : ∀ x ∈ s, decide (x ≠ c) = true := by
    intro x hx
    simpa using fun he : x = c => h (he ▸ hx)
  unfold splitOnceAt
  rw [List.span_eq_takeWhile_dropWhile, List.takeWhile_eq_self_iff.2 hall, List.dropWhile_eq_nil_iff.2 hall]

theorem splitOnceAt_eq_some (c : Char) (s front back : Text) (h : splitOnceAt c s = some (front, back)) :
    c ∉ front ∧ s = front ++ c :: back := by
  by_cases hc : c ∈ s
  · obtain ⟨f, b, hs, hf⟩ := List.eq_append_cons_of_mem hc
    rw [hs, splitOnceAt_append c f b hf] at h
    cases h
    exact ⟨hf, hs⟩
  · rw [splitOnceAt_of_notMem c s hc] at h
    cases h

theorem splitAtSign_eq (s : Text) : splitAtSign s = splitOnceAt '@' s := rfl

/-- The text in front of and behind the first `]:`. -/
def splitAtBracket : Text → Option (Text × Text)
  | [] => none
  | c :: rest =>
    if c = ']' ∧ rest.head? = some ':' then some ([], rest.tail)
    else (splitAtBracket rest).map fun (front, back) => (c :: front, back)

theorem splitAtBracket_append : ∀ (front back : Text), ']' ∉ front →
    splitAtBracket (front ++ ']' :: ':' :: back) = some (front, back)
  | [], _, _ => rfl
  | c :: front, back, h => by
    rw [List.mem_cons, not_or] at h
    rw [List.cons_append, splitAtBracket, if_neg (fun hc => h.1 hc.1.symm), splitAtBracket_append front back h.2]
    rfl

theorem splitAtBracket_of_notMem : ∀ (s : Text), ':' ∉ s → splitAtBracket s = none
  | [], _ => rfl
  | c :: s, h => by
    rw [List.mem_cons, not_or] at h
    have hne : ¬ (c = ']' ∧ s.head? = some ':') := fun hc => h.2 (List.mem_of_head? hc.2)
    rw [splitAtBracket, if_neg hne, splitAtBracket_of_notMem s h.2]
    rfl

theorem hostnameOf_of_notMem (host : Text) (h : '@' ∉ host) : hostnameOf host = host := by
  unfold hostnameOf
  rw [splitAtSign_eq, splitOnceAt_of_notMem '@' host h]
  rfl

/-- What is left of a host without its user was there before. -/
theorem mem_of_mem_hostnameOf (userAtHost : Text) (c : Char) (h : c ∈ hostnameOf userAtHost) : c ∈ userAtHost := by
  unfold hostnameOf at h
  rw [splitAtSign_eq] at h
  cases hs : splitOnceAt '@' userAtHost with
  | none => rw [hs] at h; exact h
  | some parts =>
    rw [hs] at h
    rw [(splitOnceAt_eq_some '@' userAtHost parts.1 parts.2 hs).2]
    exact List.mem_append_right _ (List.mem_cons_of_mem _ h)

theorem usernameOf_of_notMem (host : Text) (h : '@' ∉ host) : usernameOf host = none := by
  unfold usernameOf
  rw [splitAtSign_eq, splitOnceAt_of_notMem '@' host h]
  rfl

namespace FileSpec

/-- A file source or destination as specified by the user. -/
def fromStr (overridePathIsLocal : Text → Bool) (s : Text) : FileSpec :=
  if s.head? = some '[' then
    -- a raw IPv6 address, whose leading bracket is lost as well
    match splitAtBracket s with
    | some (hostish, filename) => ⟨some (hostish.drop 1), filename⟩
    | none => ⟨none, s⟩
  else if overridePathIsLocal s then ⟨none, s⟩
  else
    match splitOnceAt ':' s with
    | some (host, filename) => ⟨some host, filename⟩
    | none => ⟨none, s⟩

end FileSpec

/-! ## What is meant -/

/-- What every IPv6 literal has: a colon, and no bracket or at sign. -/
structure Ipv6Literal where
  text : Text
  colon : ':' ∈ text
  bracket : ']' ∉ text
  atSign : '@' ∉ text

structure UserName where
  text : Text
  atSign : '@' ∉ text
  colon : ':' ∉ text
  bracket : '[' ∉ text

structure LocalName where
  text : Text
  colon : ':' ∉ text

/-- A file as the user means it. -/
inductive Written where
  | bracketed (h : Ipv6Literal) (path : Text)
  | withUser (user : UserName) (h : Ipv6Literal) (path : Text)
  | plain (name : LocalName)

namespace Written

/-- The argument it is written as. -/
def text : Written → Text
  | bracketed h path => '[' :: (h.text ++ ']' :: ':' :: path)
  | withUser user h path => user.text ++ '@' :: '[' :: (h.text ++ ']' :: ':' :: path)
  | plain name => name.text

def hostname : Written → Option Text
  | bracketed h _ => some h.text
  | withUser _ h _ => some h.text
  | plain _ => none

def user : Written → Option Text
  | bracketed _ _ => none
  | withUser user _ _ => some user.text
  | plain _ => none

def filename : Written → Text
  | bracketed _ path => path
  | withUser _ _ path => path
  | plain name => name.text

end Written

/-- The specification is the file that is meant. -/
def FileSpec.Means (f : FileSpec) (w : Written) : Prop :=
  f.hostname = w.hostname ∧ f.remoteUser = w.user ∧ f.filename = w.filename

section Reading

variable (overridePathIsLocal : Text → Bool)

theorem means_bracketed (h : Ipv6Literal) (path : Text) :
    (FileSpec.fromStr overridePathIsLocal (Written.bracketed h path).text).Means (.bracketed h path) := by
  have hs : splitAtBracket ('[' :: (h.text ++ ']' :: ':' :: path)) = some ('[' :: h.text, path) :=
    splitAtBracket_append ('[' :: h.text) path (by simp [h.bracket])
  have hf : FileSpec.fromStr overridePathIsLocal (Written.bracketed h path).text = ⟨some h.text, path⟩ := by
    unfold Written.text FileSpec.fromStr
    simp [hs]
  rw [hf]
  apply And.intro
  · exact congrArg some (hostnameOf_of_notMem h.text h.atSign)
  · exact ⟨usernameOf_of_notMem h.text h.atSign, rfl⟩

theorem means_plain (name : LocalName) :
    (FileSpec.fromStr overridePathIsLocal (Written.plain name).text).Means (.plain name) := by
  have hf : FileSpec.fromStr overridePathIsLocal (Written.plain name).text = ⟨none, name.text⟩ := by
    unfold Written.text FileSpec.fromStr
    simp [splitAtBracket_of_notMem name.text name.colon, splitOnceAt_of_notMem ':' name.text name.colon]
  rw [hf]
  exact ⟨rfl, rfl, rfl⟩

/-- A bracket that is not in front is no bracket: the host ends at the first colon, inside the address. -/
theorem hostname_withUser (user : UserName) (h : Ipv6Literal) (path : Text) :
    (FileSpec.fromStr overridePathIsLocal (Written.withUser user h path).text).hostname ≠ some h.text := by
  have hhead : (Written.withUser user h path).text.head? ≠ some '[' := by
    have hnot := user.bracket
    show (user.text ++ '@' :: '[' :: (h.text ++ ']' :: ':' :: path)).head? ≠ some '['
    cases hu : user.text with
    | nil => exact fun hc => by cases hc
    | cons c cs =>
      rw [hu, List.mem_cons, not_or] at hnot
      exact fun hc => hnot.1 (Option.some.inj hc).symm
  unfold FileSpec.fromStr
  rw [if_neg hhead]
  split
  · exact fun he => by cases he
  split
  · rename_i host filename hs
    intro he
    have hhost : hostnameOf host = h.text := Option.some.inj he
    have hmem : ':' ∈ hostnameOf host := hhost ▸ h.colon
    exact (splitOnceAt_eq_some ':' _ host filename hs).1 (mem_of_mem_hostnameOf host ':' hmem)
  · exact fun he => by cases he

/-- **A file is read as it is meant unless a user is written in front of a bracketed address.** -/
theorem means_iff (w : Written) : (FileSpec.fromStr overridePathIsLocal w.text).Means w ↔ w.user = none := by
  cases w with
  | bracketed h path => exact ⟨fun _ => rfl, fun _ => means_bracketed overridePathIsLocal h path⟩
  | plain name => exact ⟨fun _ => rfl, fun _ => means_plain overridePathIsLocal name⟩
  | withUser user h path =>
    constructor
    · intro hm
      exact absurd hm.1 (hostname_withUser overridePathIsLocal user h path)
    · intro hu
      cases hu

end Reading

/-- `me@[::1]:f` is no file on the host `::1`. -/
theorem not_means_me : ¬ ∀ w : Written, (FileSpec.fromStr (fun _ => false) w.text).Means w := by
  intro h
  have hm := h (.withUser ⟨['m', 'e'], by decide, by decide, by decide⟩
    ⟨[':', ':', '1'], by decide, by decide, by decide⟩ ['f'])
  revert hm
  unfold FileSpec.Means
  decide

end Qcp
