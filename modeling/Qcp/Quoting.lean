import Qcp.Bare
/-!
# Quoting — the arguments of a configuration line

`splitArgs` takes a line apart.  `splitArgs_quotedArgs` says that quoted arguments are read back, whatever is in them,
and `splitArgs_error_iff` that a line is refused exactly when one of its quotes is never closed.
-/
namespace Qcp

open Bare (Text)

/-! ## Splitting -/

def isBlank (c : Char) : Prop := c = ' ' ∨ c = '\t'

def isQuote (c : Char) : Prop := c = '\'' ∨ c = '"'

/-- What a backslash takes with it. -/
def isEscapable (c : Char) : Prop := c = '\'' ∨ c = '"' ∨ c = '\\'

instance (c : Char) : Decidable (isBlank c) := inferInstanceAs (Decidable (_ ∨ _))

instance (c : Char) : Decidable (isQuote c) := inferInstanceAs (Decidable (_ ∨ _))

instance (c : Char) : Decidable (isEscapable c) := inferInstanceAs (Decidable (_ ∨ _ ∨ _))

/-- Outside of a quote. -/
def noQuote : Char := '\x00'

/-- An argument from where it starts: the argument, the quote it ended in, and the input from where it ended. -/
def token : Text → Text → Char → Text × Char × Text
  | [], currentArg, quoteState => (currentArg, quoteState, [])
  | ch :: rest, currentArg, quoteState =>
    if ch = '\\' then
      match rest with
      | [] => (currentArg ++ [ch], quoteState, [])
      | nn :: rest' =>
        if isEscapable nn then token rest' (currentArg ++ [nn]) quoteState
        else token (nn :: rest') (currentArg ++ [ch]) quoteState
    else if isBlank ch ∧ quoteState = noQuote then (currentArg, quoteState, ch :: rest)
    else if isQuote ch ∧ quoteState = noQuote then token rest currentArg ch
    else if ch = quoteState then token rest currentArg noQuote
    else token rest (currentArg ++ [ch]) quoteState

def unterminatedQuote : Text := "unterminated quote".toList

/-- The loop, for at most so many rounds. -/
def splitLoop : Nat → Text → Except Text (List Text)
  | 0, _ => .ok []
  | _ + 1, [] => .ok []
  | n + 1, ch :: rest =>
    if isBlank ch then splitLoop n rest
    else if ch = '#' then .ok []
    else
      match token (ch :: rest) [] noQuote with
      | (currentArg, quoteState, rest') =>
        if quoteState = noQuote then (splitLoop n rest'.tail).map (currentArg :: ·) else .error unterminatedQuote

/-- A round takes a character at least. -/
def splitArgs (input : Text) : Except Text (List Text) := splitLoop input.length input

/-! ## The grammar -/

/-- What starts like this is a backslash and what it takes with it. -/
def Escapes (c : Char) (rest : Text) : Prop := c = '\\' ∧ ∃ e rest', rest = e :: rest' ∧ isEscapable e

/-- **A quote that is open** is closed, and this is what is behind it. -/
inductive Closes (q : Char) : Text → Text → Prop
  | close (rest : Text) : Closes q (q :: rest) rest
  | escape (e : Char) (rest rest' : Text) : isEscapable e → Closes q rest rest' → Closes q ('\\' :: e :: rest) rest'
  | char (c : Char) (rest rest' : Text) : c ≠ q → ¬ Escapes c rest → Closes q rest rest' → Closes q (c :: rest) rest'

/-- **A quote is opened outside another quote and never closed.** Whether an argument has been started tells a comment
from a character like any other. -/
inductive Unclosed : Bool → Text → Prop
  | quote (started : Bool) (q : Char) (rest : Text) :
    isQuote q → (¬ ∃ rest', Closes q rest rest') → Unclosed started (q :: rest)
  | quoted (started : Bool) (q : Char) (rest rest' : Text) : isQuote q → Closes q rest rest' → Unclosed true rest' →
      Unclosed started (q :: rest)
  | escape (started : Bool) (e : Char) (rest : Text) : isEscapable e → Unclosed true rest →
      Unclosed started ('\\' :: e :: rest)
  | blank (started : Bool) (c : Char) (rest : Text) : isBlank c → Unclosed false rest → Unclosed started (c :: rest)
  | char (started : Bool) (c : Char) (rest : Text) : ¬ isQuote c → ¬ isBlank c → ¬ Escapes c rest →
      (c = '#' → started = true) → Unclosed true rest → Unclosed started (c :: rest)

/-! ## One argument -/

theorem token_escape (e : Char) (rest arg : Text) (q : Char) (h : isEscapable e) :
    token ('\\' :: e :: rest) arg q = token rest (arg ++ [e]) q := by
  rw [token, if_pos rfl]
  simp only [if_pos h]

/-- A character that is nothing special, a backslash before another one as well. -/
theorem token_char (c : Char) (rest arg : Text) (q : Char) (h1 : ¬ Escapes c rest) (h2 : ¬ (isBlank c ∧ q = noQuote))
    (h3 : ¬ (isQuote c ∧ q = noQuote)) (h4 : c ≠ q ∨ c = '\\') :
    token (c :: rest) arg q = token rest (arg ++ [c]) q := by
  rw [token.eq_def]
  by_cases hc : c = '\\'
  · simp only [if_pos hc]
    cases rest with
    | nil => rfl
    | cons e rest' =>
      have he : ¬ isEscapable e := fun he => h1 ⟨hc, e, rest', rfl, he⟩
      simp only [if_neg he]
  · simp only [if_neg hc, if_neg h2, if_neg h3, if_neg (h4.resolve_right hc)]

theorem token_blank (c : Char) (rest arg : Text) (h : isBlank c) :
    token (c :: rest) arg noQuote = (arg, noQuote, c :: rest) := by
  have hc : c ≠ '\\' := by rintro rfl; exact absurd h (by decide)
  rw [token.eq_def]
  simp only [if_neg hc, h, true_and, if_true]

theorem token_open (q : Char) (rest arg : Text) (h : isQuote q) : token (q :: rest) arg noQuote = token rest arg q := by
  have hc : q ≠ '\\' := by rintro rfl; exact absurd h (by decide)
  have hb : ¬ isBlank q := by rcases h with rfl | rfl <;> decide
  rw [token.eq_def]
  simp only [if_neg hc, hb, h, false_and, true_and, if_false, if_true]

theorem token_close (q : Char) (rest arg : Text) (h : isQuote q) :
    token (q :: rest) arg q = token rest arg noQuote := by
  have hc : q ≠ '\\' := by rintro rfl; exact absurd h (by decide)
  have hn : q ≠ noQuote := by rintro rfl; exact absurd h (by decide)
  rw [token.eq_def]
  simp only [if_neg hc, hn, and_false, if_false, if_true]

/-- Where an argument ends, nothing is added to the input. -/
theorem token_length (input arg : Text) (q : Char) : (token input arg q).2.2.length ≤ input.length := by
  fun_induction token input arg q <;> simp_all <;> omega

/-! ## Quotes that are closed -/

theorem backslash_not_quote : ¬ isQuote '\\' := by decide

theorem quote_ne_noQuote {q : Char} (h : isQuote q) : q ≠ noQuote := by
  rintro rfl
  exact absurd h (by decide)

theorem closes_char_iff {q : Char} (c : Char) (rest rest' : Text) (hc : c ≠ q) (hesc : ¬ Escapes c rest) :
    Closes q (c :: rest) rest' ↔ Closes q rest rest' := by
  constructor
  · intro h
    cases h with
    | close => exact absurd rfl hc
    | escape e rest _ he h => exact absurd ⟨rfl, e, rest, rfl, he⟩ hesc
    | char _ _ _ _ _ h => exact h
  · exact .char c rest rest' hc hesc

section

variable {q : Char} (hq : isQuote q)
include hq

theorem closes_close_iff (rest rest' : Text) : Closes q (q :: rest) rest' ↔ rest' = rest := by
  constructor
  · intro h
    cases h with
    | close => rfl
    | escape e rest _ he h => exact absurd hq backslash_not_quote
    | char c rest _ hc _ h => exact absurd rfl hc
  · rintro rfl
    exact .close rest'

theorem closes_escape_iff (e : Char) (he : isEscapable e) (rest rest' : Text) :
    Closes q ('\\' :: e :: rest) rest' ↔ Closes q rest rest' := by
  constructor
  · intro h
    cases h with
    | close => exact absurd hq backslash_not_quote
    | escape _ _ _ _ h => exact h
    | char _ _ _ _ hc h => exact absurd ⟨rfl, e, rest, rfl, he⟩ hc
  · exact .escape e rest rest' he

/-- **In a quote** an argument goes on behind where the quote is closed, or else ends in it. -/
theorem token_in_quote (input arg : Text) :
    (∃ rest' arg', (∀ r, Closes q input r ↔ r = rest') ∧ rest'.length < input.length ∧
      token input arg q = token rest' arg' noQuote) ∨
      ((¬ ∃ r, Closes q input r) ∧ (token input arg q).2.1 = q) :=
  match input with
  | [] => by
    right
    refine ⟨?_, rfl⟩
    rintro ⟨r, h⟩
    cases h
  | c :: rest => by
    by_cases hesc : Escapes c rest
    · obtain ⟨rfl, e, rest, rfl, he⟩ := hesc
      rw [token_escape e rest arg q he]
      simp only [closes_escape_iff hq e he]
      rcases token_in_quote rest (arg ++ [e]) with ⟨rest', arg', h1, h2, h3⟩ | h
      · exact Or.inl ⟨rest', arg', h1, by simp only [List.length_cons]; omega, h3⟩
      · exact Or.inr h
    · by_cases hc : c = q
      · subst hc
        rw [token_close c rest arg hq]
        simp only [closes_close_iff hq]
        exact Or.inl ⟨rest, arg, fun r => Iff.rfl, by simp, rfl⟩
      · have hn := quote_ne_noQuote hq
        rw [token_char c rest arg q hesc (fun h => hn h.2) (fun h => hn h.2) (Or.inl hc)]
        simp only [closes_char_iff c rest _ hc hesc]
        rcases token_in_quote rest (arg ++ [c]) with ⟨rest', arg', h1, h2, h3⟩ | h
        · exact Or.inl ⟨rest', arg', h1, by simp only [List.length_cons]; omega, h3⟩
        · exact Or.inr h
termination_by input.length

end

/-! ## Quotes that are not -/

/-- What is read first decides. -/
theorem unclosed_cons_iff (started : Bool) (c : Char) (rest : Text) : Unclosed started (c :: rest) ↔
    (isQuote c ∧ ((¬ ∃ r, Closes c rest r) ∨ ∃ r, Closes c rest r ∧ Unclosed true r)) ∨
    (c = '\\' ∧ ∃ e rest', rest = e :: rest' ∧ isEscapable e ∧ Unclosed true rest') ∨
    (isBlank c ∧ Unclosed false rest) ∨
    (¬ isQuote c ∧ ¬ isBlank c ∧ ¬ Escapes c rest ∧ (c = '#' → started = true) ∧ Unclosed true rest) := by
  constructor
  · intro h
    cases h with
    | quote _ _ _ hq hn => exact Or.inl ⟨hq, Or.inl hn⟩
    | quoted _ _ _ r hq hc h => exact Or.inl ⟨hq, Or.inr ⟨r, hc, h⟩⟩
    | escape _ e rest he h => exact Or.inr (Or.inl ⟨rfl, e, rest, rfl, he, h⟩)
    | blank _ _ _ hb h => exact Or.inr (Or.inr (Or.inl ⟨hb, h⟩))
    | char _ _ _ h1 h2 h3 h4 h => exact Or.inr (Or.inr (Or.inr ⟨h1, h2, h3, h4, h⟩))
  · rintro (⟨hq, hn | ⟨r, hc, h⟩⟩ | ⟨rfl, e, rest, rfl, he, h⟩ | ⟨hb, h⟩ | ⟨h1, h2, h3, h4, h⟩)
    · exact .quote started c rest hq hn
    · exact .quoted started c rest r hq hc h
    · exact .escape started e rest he h
    · exact .blank started c rest hb h
    · exact .char started c rest h1 h2 h3 h4 h

theorem blank_not_quote {c : Char} (h : isBlank c) : ¬ isQuote c ∧ c ≠ '\\' := by
  rcases h with rfl | rfl <;> decide

theorem quote_not_blank {c : Char} (h : isQuote c) : ¬ isBlank c ∧ c ≠ '\\' := by
  rcases h with rfl | rfl <;> decide

theorem unclosed_quote_iff (started : Bool) (q : Char) (rest : Text) (hq : isQuote q) : Unclosed started (q :: rest) ↔
    (¬ ∃ r, Closes q rest r) ∨ ∃ r, Closes q rest r ∧ Unclosed true r := by
  rw [unclosed_cons_iff]
  simp only [hq, quote_not_blank hq, not_true_eq_false, true_and, false_and, or_false]

theorem unclosed_escape_iff (started : Bool) (e : Char) (rest : Text) (he : isEscapable e) :
    Unclosed started ('\\' :: e :: rest) ↔ Unclosed true rest := by
  have hb : ¬ isBlank '\\' := by decide
  have hesc : Escapes '\\' (e :: rest) := ⟨rfl, e, rest, rfl, he⟩
  rw [unclosed_cons_iff]
  simp [backslash_not_quote, hb, hesc, he]

theorem unclosed_blank_iff (started : Bool) (c : Char) (rest : Text) (hb : isBlank c) :
    Unclosed started (c :: rest) ↔ Unclosed false rest := by
  rw [unclosed_cons_iff]
  simp only [hb, blank_not_quote hb, not_true_eq_false, true_and, false_and, and_false, or_false, false_or]

theorem unclosed_char_iff (started : Bool) (c : Char) (rest : Text) (h1 : ¬ isQuote c) (h2 : ¬ isBlank c)
    (h3 : ¬ Escapes c rest) : Unclosed started (c :: rest) ↔ (c = '#' → started = true) ∧ Unclosed true rest := by
  have hesc : ¬ (c = '\\' ∧ ∃ e rest', rest = e :: rest' ∧ isEscapable e ∧ Unclosed true rest') := by
    rintro ⟨rfl, e, rest', rfl, he, -⟩
    exact h3 ⟨rfl, e, rest', rfl, he⟩
  rw [unclosed_cons_iff]
  simp only [h1, h2, h3, hesc, not_false_eq_true, true_and, false_and, false_or]

/-- An argument goes over a NUL outside of its quotes. -/
theorem token_noQuote (rest arg : Text) : token (noQuote :: rest) arg noQuote = token rest arg noQuote := by
  rw [token.eq_def]
  simp [noQuote, isBlank, isQuote]

/-- **One argument**: a quote is left open in it, or in what is behind it. -/
theorem unclosed_iff_token (input arg : Text) : Unclosed true input ↔
    (token input arg noQuote).2.1 ≠ noQuote ∨ Unclosed false (token input arg noQuote).2.2 :=
  match input with
  | [] => by
    refine iff_of_false (fun h => by cases h) ?_
    rintro (h | h)
    · exact h rfl
    · cases h
  | c :: rest => by
    by_cases hq : isQuote c
    · rw [token_open c rest arg hq, unclosed_quote_iff true c rest hq]
      rcases token_in_quote hq rest arg with ⟨rest', arg', h1, h2, h3⟩ | ⟨h1, h2⟩
      · rw [h3, ← unclosed_iff_token rest' arg']
        simp only [h1, exists_eq, not_true_eq_false, false_or, exists_eq_left]
      · rw [h2]
        exact iff_of_true (Or.inl h1) (Or.inl (quote_ne_noQuote hq))
    · by_cases hb : isBlank c
      · rw [token_blank c rest arg hb, unclosed_blank_iff true c rest hb]
        simp only [ne_eq, not_true_eq_false, false_or, unclosed_blank_iff false c rest hb]
      · by_cases hesc : Escapes c rest
        · obtain ⟨rfl, e, rest, rfl, he⟩ := hesc
          rw [token_escape e rest arg noQuote he, unclosed_escape_iff true e rest he]
          exact unclosed_iff_token rest (arg ++ [e])
        · rw [unclosed_char_iff true c rest hq hb hesc]
          simp only [implies_true, true_and]
          by_cases hc : c = noQuote
          · rw [hc, token_noQuote]
            exact unclosed_iff_token rest arg
          · rw [token_char c rest arg noQuote hesc (fun h => hb h.1) (fun h => hq h.1) (Or.inl hc)]
            exact unclosed_iff_token rest (arg ++ [c])
termination_by input.length

/-! ## The line -/

/-- **Rounds for the characters there are are enough.** -/
theorem splitLoop_fuel : ∀ (n m : Nat) (input : Text), input.length ≤ n → input.length ≤ m →
    splitLoop n input = splitLoop m input
  | n, m, [], _, _ => by cases n <;> cases m <;> rfl
  | 0, _, _ :: _, h, _ => absurd h (by simp)
  | _, 0, _ :: _, _, h => absurd h (by simp)
  | n + 1, m + 1, c :: rest, hn, hm => by
    rw [List.length_cons] at hn hm
    have htoken := token_length (c :: rest) [] noQuote
    rw [List.length_cons] at htoken
    have htail : (token (c :: rest) [] noQuote).2.2.tail.length ≤ rest.length := by
      rw [List.length_tail]
      omega
    have hrest := splitLoop_fuel n m rest (by omega) (by omega)
    have hbehind := splitLoop_fuel n m _ (htail.trans (by omega)) (htail.trans (by omega))
    rw [splitLoop, splitLoop]
    simp only [hrest, hbehind]

theorem splitArgs_blank (c : Char) (rest : Text) (h : isBlank c) : splitArgs (c :: rest) = splitArgs rest := by
  show splitLoop (rest.length + 1) (c :: rest) = splitLoop rest.length rest
  rw [splitLoop, if_pos h]

theorem splitArgs_comment (rest : Text) : splitArgs ('#' :: rest) = .ok [] := by
  show splitLoop (rest.length + 1) ('#' :: rest) = .ok []
  rw [splitLoop, if_neg (by decide), if_pos rfl]

theorem splitArgs_token (c : Char) (rest : Text) (h1 : ¬ isBlank c) (h2 : c ≠ '#') : splitArgs (c :: rest) =
    if (token (c :: rest) [] noQuote).2.1 = noQuote then
      (splitArgs (token (c :: rest) [] noQuote).2.2.tail).map ((token (c :: rest) [] noQuote).1 :: ·)
    else .error unterminatedQuote := by
  have htoken := token_length (c :: rest) [] noQuote
  rw [List.length_cons] at htoken
  have hfuel := splitLoop_fuel rest.length _ (token (c :: rest) [] noQuote).2.2.tail
    (by rw [List.length_tail]; omega) (le_refl _)
  show splitLoop (rest.length + 1) (c :: rest) = _
  rw [splitLoop, if_neg h1, if_neg h2]
  simp only [hfuel]
  rfl

/-- What an argument ends at, if not with the input, is a blank. -/
theorem token_ends (input arg : Text) (q : Char) :
    (token input arg q).2.2 = [] ∨ ∃ c rest, isBlank c ∧ (token input arg q).2.2 = c :: rest := by
  fun_induction token input arg q with
  | case5 c rest arg q hc h => exact Or.inr ⟨c, rest, h.1, rfl⟩
  | _ => first | exact Or.inl rfl | assumption

/-- A comment has no quotes. -/
theorem not_unclosed_comment (rest : Text) : ¬ Unclosed false ('#' :: rest) := by
  have hesc : ¬ Escapes '#' rest := by
    rintro ⟨h, -⟩
    exact absurd h (by decide)
  rw [unclosed_char_iff false '#' rest (by decide) (by decide) hesc]
  simp

/-- But for a comment it does not matter whether an argument has been started. -/
theorem unclosed_started (c : Char) (rest : Text) (h : c ≠ '#') :
    Unclosed false (c :: rest) ↔ Unclosed true (c :: rest) := by
  rw [unclosed_cons_iff, unclosed_cons_iff]
  simp only [h, false_implies]

theorem unclosed_tail (input arg : Text) (q : Char) :
    Unclosed false (token input arg q).2.2 ↔ Unclosed false (token input arg q).2.2.tail := by
  rcases token_ends input arg q with h | ⟨c, rest, hb, h⟩
  · rw [h]
    exact Iff.rfl
  · rw [h, unclosed_blank_iff false c rest hb]
    exact Iff.rfl

/-- **All arguments**: the line is refused when a quote is left open, and nothing else is wrong with it. -/
theorem splitArgs_cases (input : Text) : (Unclosed false input ∧ splitArgs input = .error unterminatedQuote) ∨
    (¬ Unclosed false input ∧ ∃ args, splitArgs input = .ok args) :=
  match input with
  | [] => Or.inr ⟨(fun h => by cases h), [], rfl⟩
  | c :: rest => by
    by_cases hb : isBlank c
    · rw [splitArgs_blank c rest hb, unclosed_blank_iff false c rest hb]
      exact splitArgs_cases rest
    · by_cases hc : c = '#'
      · rw [hc, splitArgs_comment]
        exact Or.inr ⟨not_unclosed_comment rest, [], rfl⟩
      · have htoken := token_length (c :: rest) [] noQuote
        rw [splitArgs_token c rest hb hc, unclosed_started c rest hc, unclosed_iff_token (c :: rest) []]
        by_cases hq : (token (c :: rest) [] noQuote).2.1 = noQuote
        · rw [if_pos hq, unclosed_tail]
          rcases splitArgs_cases (token (c :: rest) [] noQuote).2.2.tail with ⟨h1, h2⟩ | ⟨h1, args, h2⟩
          · exact Or.inl ⟨Or.inr h1, by rw [h2]; rfl⟩
          · refine Or.inr ⟨?_, _, by rw [h2]; rfl⟩
            rintro (h | h)
            · exact h hq
            · exact h1 h
        · rw [if_neg hq]
          exact Or.inl ⟨Or.inl hq, rfl⟩
termination_by input.length
decreasing_by
  · simp
  · rw [List.length_tail]
    simp only [List.length_cons] at htoken ⊢
    omega

/-- **A line is refused exactly when one of its quotes is never closed.** -/
theorem splitArgs_error_iff (input : Text) : (∃ e, splitArgs input = .error e) ↔ Unclosed false input := by
  rcases splitArgs_cases input with ⟨h1, h2⟩ | ⟨h1, args, h2⟩
  · exact iff_of_true ⟨_, h2⟩ h1
  · refine iff_of_false ?_ h1
    rintro ⟨e, h⟩
    cases h2.symm.trans h

/-! ## Quoting -/

def escaped (c : Char) : Text := if isEscapable c then ['\\', c] else [c]

/-- An argument between double quotes. -/
def quoted (arg : Text) : Text := ['"'] ++ arg.flatMap escaped ++ ['"']

/-- What there may be between arguments. -/
def Blanks (gap : Text) : Prop := ∀ c ∈ gap, isBlank c

/-- Arguments, each with what is in front of it. -/
def quotedArgs (args : List (Text × Text)) : Text := args.flatMap fun x => x.1 ++ quoted x.2

theorem token_escaped (rest : Text) : ∀ arg currentArg : Text,
    token (arg.flatMap escaped ++ '"' :: rest) currentArg '"' = token rest (currentArg ++ arg) noQuote
  | [], currentArg => by
    rw [List.append_nil]
    exact token_close '"' rest currentArg (Or.inr rfl)
  | c :: arg, currentArg => by
    have hassoc : currentArg ++ c :: arg = currentArg ++ [c] ++ arg := by simp
    rw [List.flatMap_cons, hassoc, ← token_escaped rest arg (currentArg ++ [c])]
    by_cases he : isEscapable c
    · rw [escaped, if_pos he]
      exact token_escape c _ currentArg '"' he
    · have hesc : ∀ r, ¬ Escapes c r := by
        rintro r ⟨rfl, -⟩
        exact he (by decide)
      have hc : c ≠ '"' := by
        rintro rfl
        exact he (by decide)
      have hq : '"' ≠ noQuote := by decide
      rw [escaped, if_neg he]
      exact token_char c _ currentArg '"' (hesc _) (fun h => hq h.2) (fun h => hq h.2) (Or.inl hc)

/-- **A quoted argument is read back** up to what is behind it. -/
theorem token_quoted (arg rest : Text) : token (quoted arg ++ rest) [] noQuote = token rest arg noQuote := by
  have hopen := token_open '"' (arg.flatMap escaped ++ '"' :: rest) [] (Or.inr rfl)
  have hcat : quoted arg ++ rest = '"' :: (arg.flatMap escaped ++ '"' :: rest) := by simp [quoted]
  rw [hcat, hopen, token_escaped, List.nil_append]

theorem splitArgs_blanks (rest : Text) : ∀ gap : Text, Blanks gap → splitArgs (gap ++ rest) = splitArgs rest
  | [], _ => rfl
  | c :: gap, h => by
    rw [List.cons_append, splitArgs_blank c _ (h c List.mem_cons_self)]
    exact splitArgs_blanks rest gap fun d hd => h d (List.mem_cons_of_mem _ hd)

/-- What begins with a gap, if with anything, ends an argument. -/
theorem quotedArgs_begins : ∀ args : List (Text × Text), (∀ x ∈ args, Blanks x.1) → (∀ x ∈ args, x.1 ≠ []) →
    quotedArgs args = [] ∨ ∃ c rest, isBlank c ∧ quotedArgs args = c :: rest
  | [], _, _ => Or.inl rfl
  | ([], _) :: _, _, hne => absurd rfl (hne _ List.mem_cons_self)
  | (c :: gap, arg) :: args, hb, _ => by
    right
    exact ⟨c, _, hb _ List.mem_cons_self c List.mem_cons_self, rfl⟩

/-- **Quoted arguments are read back**, whatever is in them and however much is between them. -/
theorem splitArgs_quotedArgs : ∀ args : List (Text × Text), (∀ x ∈ args, Blanks x.1) → (∀ x ∈ args.tail, x.1 ≠ []) →
    splitArgs (quotedArgs args) = .ok (args.map Prod.snd)
  | [], _, _ => rfl
  | (gap, arg) :: args, hb, hne => by
    rw [List.forall_mem_cons] at hb
    have hcat : quotedArgs ((gap, arg) :: args) = gap ++ (quoted arg ++ quotedArgs args) := by simp [quotedArgs]
    have hquoted : quoted arg ++ quotedArgs args = '"' :: (arg.flatMap escaped ++ '"' :: quotedArgs args) := by
      simp [quoted]
    have htoken := token_quoted arg (quotedArgs args)
    have hbegins := quotedArgs_begins args hb.2 hne
    have hends : token (quotedArgs args) arg noQuote = (arg, noQuote, quotedArgs args) := by
      rcases hbegins with h | ⟨c, rest, hc, h⟩
      · rw [h]; rfl
      · rw [h, token_blank c rest arg hc]
    have htail : splitArgs (quotedArgs args).tail = splitArgs (quotedArgs args) := by
      rcases hbegins with h | ⟨c, rest, hc, h⟩
      · rw [h]; rfl
      · rw [h, splitArgs_blank c rest hc]; rfl
    have ih := splitArgs_quotedArgs args hb.2 fun x hx => hne x (List.mem_of_mem_tail hx)
    rw [hends, hquoted] at htoken
    rw [hcat, splitArgs_blanks _ gap hb.1, hquoted, splitArgs_token _ _ (by decide) (by decide), htoken, if_pos rfl,
      htail, ih]
    rfl

/-- **What is quoted is read back, and what is refused has a quote that is not closed.** -/
theorem splitArgs_spec :
    (∀ args : List (Text × Text), (∀ x ∈ args, Blanks x.1) → (∀ x ∈ args.tail, x.1 ≠ []) →
      splitArgs (quotedArgs args) = .ok (args.map Prod.snd)) ∧
      ∀ input, (∃ e, splitArgs input = .error e) ↔ Unclosed false input :=
  ⟨splitArgs_quotedArgs, splitArgs_error_iff⟩

theorem splitArgs_spec_two :
    splitArgs (quotedArgs [([], "#\\ ".toList), ([' ', '\t'], [])]) = .ok ["#\\ ".toList, []] :=
  splitArgs_spec.1 [([], "#\\ ".toList), ([' ', '\t'], [])] (by simp [Blanks, isBlank]) (by simp)

example : splitArgs "\"a \\\"b\" '\\'c d'# e\\  #f".toList = .ok ["a \"b".toList, "'c d#".toList, "e\\".toList] := by
  decide +kernel

end Qcp
