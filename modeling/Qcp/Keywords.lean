import Qcp.Quoting
import Qcp.Decimal
/-!
# Keywords — one line of a configuration file

`parseLine` takes the keyword off a line and reads what is left as its arguments.  `parseLine_separators_iff` says
when it does not matter what stands between the two.
-/
namespace Qcp

open Bare (Text)

/-! ## Lines -/

/-- A line that was read. -/
inductive Line where
  | empty
  | host (lineNumber : Nat) (args : List Text)
  | match_ (lineNumber : Nat) (args : List Text)
  | include_ (lineNumber : Nat) (args : List Text)
  /-- With its keyword in canonical form. -/
  | generic (lineNumber : Nat) (keyword : Text) (args : List Text)
deriving DecidableEq, Repr

/-- The fields of a configuration. -/
def fieldNames : List Text :=
  ["rx".toList, "tx".toList, "rtt".toList, "congestion".toList, "initial_congestion_window".toList, "port".toList,
    "timeout".toList, "udp_buffer".toList, "packet_threshold".toList, "time_threshold".toList, "initial_mtu".toList,
    "min_mtu".toList, "max_mtu".toList, "address_family".toList, "ssh".toList, "remote_qcp_binary".toList,
    "ssh_options".toList, "remote_port".toList, "remote_user".toList, "time_format".toList, "ssh_config".toList,
    "ssh_subsystem".toList, "color".toList, "tls_auth_type".toList, "aes256".toList, "io_buffer_size".toList]

/-- Lowercase, without underscores and hyphens. -/
def canonicalIntermediate (input : Text) : Text := (input.map Char.toLower).filter fun ch => ch ≠ '_' ∧ ch ≠ '-'

/-- The field of that name; what is not a field stays as it is. -/
def toConfigurationField (keyword : Text) : Text :=
  (fieldNames.find? fun field => canonicalIntermediate field = keyword).getD keyword

example : fieldNames.map (fun f => toConfigurationField (canonicalIntermediate f)) = fieldNames := by decide +kernel

/-! ## Reading a line -/

/-- The characters of the Unicode property `White_Space`. -/
def isWhitespace (c : Char) : Bool :=
  (9 ≤ c.toNat ∧ c.toNat ≤ 13) ∨ c.toNat = 32 ∨ c.toNat = 133 ∨ c.toNat = 160 ∨ c.toNat = 5760 ∨
    (8192 ≤ c.toNat ∧ c.toNat ≤ 8202) ∨ c.toNat = 8232 ∨ c.toNat = 8233 ∨ c.toNat = 8239 ∨ c.toNat = 8287 ∨
    c.toNat = 12288

def trimEnd (s : Text) : Text := s.rdropWhile isWhitespace

def trim (s : Text) : Text := trimEnd (s.dropWhile isWhitespace)

/-- What ends a keyword. -/
def isDelimiter (c : Char) : Prop := c = ' ' ∨ c = '\t' ∨ c = '='

instance (c : Char) : Decidable (isDelimiter c) := inferInstanceAs (Decidable (_ ∨ _ ∨ _))

/-- In front of the first delimiter and behind it. -/
def splitKeyword (line : Text) : Text × Text :=
  match line.span fun c => ¬ isDelimiter c with
  | (keyword, _ :: rest) => (keyword, rest)
  | (keyword, []) => (keyword, [])

def atLine (lineNumber : Nat) : Text := "at line ".toList ++ Decimal.showNat lineNumber

def missingArgument (lineNumber : Nat) : Text := "missing argument at line ".toList ++ Decimal.showNat lineNumber

def lineOf (lineNumber : Nat) (keyword : Text) (args : List Text) : Line :=
  if keyword = "host".toList then .host lineNumber args
  else if keyword = "match".toList then .match_ lineNumber args
  else if keyword = "include".toList then .include_ lineNumber args
  else .generic lineNumber (toConfigurationField keyword) args

/-- A keyword with the arguments that could be read behind it; an error is a chain of causes, the outermost first. -/
def lineFrom (lineNumber : Nat) (keyword : Text) (args : Except Text (List Text)) : Except (List Text) Line :=
  match args with
  | .error e => .error [atLine lineNumber, e]
  | .ok [] => .error [missingArgument lineNumber]
  | .ok args => .ok (lineOf lineNumber keyword args)

def parseLine (lineNumber : Nat) (line : Text) : Except (List Text) Line :=
  match splitKeyword (trim line) with
  | ([], _) => .ok .empty
  | (kw, rest) =>
    let keyword := canonicalIntermediate kw
    if keyword.head? = some '#' then .ok .empty else lineFrom lineNumber keyword (splitArgs rest)

/-! ## White space at the end -/

theorem trimEnd_append (a b : Text) : trimEnd (a ++ b) = if trimEnd b = [] then trimEnd a else a ++ trimEnd b := by
  unfold trimEnd List.rdropWhile
  rw [List.reverse_append, List.dropWhile_append]
  cases b.reverse.dropWhile isWhitespace with
  | nil => simp
  | cons c rest => simp

theorem trimEnd_eq_nil {s : Text} (h : ∀ c ∈ s, isWhitespace c = true) : trimEnd s = [] :=
  List.rdropWhile_eq_nil_iff.2 h

theorem trimEnd_eq_self {s : Text} (h : ∀ c ∈ s, isWhitespace c = false) : trimEnd s = s := by
  apply List.rdropWhile_eq_self_iff.2
  intro hne
  rw [h _ (List.getLast_mem hne)]
  exact Bool.false_ne_true

theorem whitespace_of_blank {c : Char} (h : isBlank c) : isWhitespace c = true := by
  rcases h with rfl | rfl <;> decide

theorem delimiter_of_blank {c : Char} (h : isBlank c) : isDelimiter c := by
  rcases h with rfl | rfl <;> decide

/-! ## The keyword -/

/-- A word that is not empty, without an equals sign. -/
structure Keyword (key : Text) : Prop where
  ne_nil : key ≠ []
  word : ∀ c ∈ key, isWhitespace c = false
  noEquals : '=' ∉ key

theorem Keyword.no_delimiter {key : Text} (h : Keyword key) : ∀ c ∈ key, ¬ isDelimiter c := by
  intro c hc hd
  have hword := h.word c hc
  rcases hd with rfl | rfl | rfl
  · exact absurd hword (by decide)
  · exact absurd hword (by decide)
  · exact h.noEquals hc

theorem Keyword.trim_append {key : Text} (h : Keyword key) (rest : Text) :
    trim (key ++ rest) = key ++ trimEnd rest := by
  obtain ⟨c, cs, rfl⟩ := List.exists_cons_of_ne_nil h.ne_nil
  have hc := h.word c List.mem_cons_self
  have hstart : (c :: cs ++ rest).dropWhile isWhitespace = c :: cs ++ rest := by
    rw [List.cons_append, List.dropWhile_cons, hc]
    rfl
  rw [trim, hstart, trimEnd_append, trimEnd_eq_self h.word]
  split
  · rename_i he
    rw [he, List.append_nil]
  · rfl

theorem splitKeyword_append (key rest : Text) (h : ∀ c ∈ key, ¬ isDelimiter c) (hr : ∀ c ∈ rest.head?, isDelimiter c) :
    splitKeyword (key ++ rest) = (key, rest.tail) := by
  have htake : key.takeWhile (fun c => decide (¬ isDelimiter c)) = key := by
    rw [List.takeWhile_eq_self_iff]
    intro c hc
    exact decide_eq_true (h c hc)
  have hdrop : key.dropWhile (fun c => decide (¬ isDelimiter c)) = [] := by
    rw [List.dropWhile_eq_nil_iff]
    intro c hc
    exact decide_eq_true (h c hc)
  unfold splitKeyword
  rw [List.span_eq_takeWhile_dropWhile, List.takeWhile_append, List.dropWhile_append, htake, hdrop]
  cases rest with
  | nil => simp
  | cons d rest =>
    have hd : isDelimiter d := hr d rfl
    simp [hd]

/-- **A line with a keyword** is what is behind the keyword, of which the first character goes. -/
theorem parseLine_keyword (n : Nat) {key : Text} (h : Keyword key) (rest : Text)
    (hr : ∀ c ∈ rest.head?, isDelimiter c) :
    parseLine n (key ++ rest) = if (canonicalIntermediate key).head? = some '#' then .ok .empty
      else lineFrom n (canonicalIntermediate key) (splitArgs (trimEnd rest).tail) := by
  have hend : ∀ c ∈ (trimEnd rest).head?, isDelimiter c := by
    intro c hc
    apply hr
    obtain ⟨back, hback⟩ := List.rdropWhile_prefix isWhitespace (l := rest)
    rw [← hback]
    cases hx : rest.rdropWhile isWhitespace with
    | nil => rw [trimEnd, hx] at hc; cases hc
    | cons d ds => rw [trimEnd, hx] at hc; exact hc
  unfold parseLine
  rw [h.trim_append, splitKeyword_append key _ h.no_delimiter hend]
  obtain ⟨c, cs, rfl⟩ := List.exists_cons_of_ne_nil h.ne_nil
  rfl

/-! ## An equals sign too many -/

/-- What is read of an argument is put behind what there is of it. -/
theorem token_append (x input arg : Text) (q : Char) :
    token input (x ++ arg) q = (x ++ (token input arg q).1, (token input arg q).2.1, (token input arg q).2.2) :=
  match input with
  | [] => rfl
  | c :: rest => by
    by_cases hesc : Escapes c rest
    · obtain ⟨rfl, e, rest, rfl, he⟩ := hesc
      rw [token_escape e rest _ q he, token_escape e rest _ q he, List.append_assoc]
      exact token_append x rest (arg ++ [e]) q
    · by_cases hb : isBlank c ∧ q = noQuote
      · obtain ⟨hb, rfl⟩ := hb
        rw [token_blank c rest _ hb, token_blank c rest _ hb]
      · by_cases hq : isQuote c ∧ q = noQuote
        · obtain ⟨hq, rfl⟩ := hq
          rw [token_open c rest _ hq, token_open c rest _ hq]
          exact token_append x rest arg c
        · by_cases hc : c = q ∧ c ≠ '\\'
          · obtain ⟨rfl, hne⟩ := hc
            have hclose : ∀ a : Text, token (c :: rest) a c = token rest a noQuote := by
              intro a
              rw [token.eq_def]
              simp [hne, hb, hq]
            rw [hclose, hclose]
            exact token_append x rest arg noQuote
          · have hne : c ≠ q ∨ c = '\\' := by tauto
            rw [token_char c rest _ q hesc hb hq hne, token_char c rest _ q hesc hb hq hne, List.append_assoc]
            exact token_append x rest (arg ++ [c]) q
termination_by input.length

theorem Unclosed.started {rest : Text} (h : Unclosed false rest) : Unclosed true rest := by
  cases rest with
  | nil => cases h
  | cons c rest =>
    by_cases hc : c = '#'
    · rw [hc] at h
      exact absurd h (not_unclosed_comment rest)
    · exact (unclosed_started c rest hc).1 h

theorem splitArgs_equals (p : Text) : splitArgs ('=' :: p) =
    if (token p [] noQuote).2.1 = noQuote then
      (splitArgs (token p [] noQuote).2.2.tail).map (('=' :: (token p [] noQuote).1) :: ·)
    else .error unterminatedQuote := by
  have hesc : ¬ Escapes '=' p := by
    rintro ⟨h, -⟩
    exact absurd h (by decide)
  have htoken : token ('=' :: p) [] noQuote = token p ['='] noQuote :=
    token_char '=' p [] noQuote hesc (by decide) (by decide) (Or.inl (by decide))
  have happ := token_append ['='] p [] noQuote
  rw [List.append_nil] at happ
  rw [splitArgs_token '=' p (by decide) (by decide), htoken, happ]
  rfl

/-- **An equals sign in front of the arguments is read as one of them**, or as the beginning of the first. -/
theorem splitArgs_equals_ne (p : Text) (args args' : List Text) (h : splitArgs p = .ok args)
    (h' : splitArgs ('=' :: p) = .ok args') : args' ≠ [] ∧ args' ≠ args := by
  rw [splitArgs_equals] at h'
  by_cases hq : (token p [] noQuote).2.1 = noQuote
  · rw [if_pos hq] at h'
    cases hmore : splitArgs (token p [] noQuote).2.2.tail with
    | error e =>
      rw [hmore] at h'
      cases h'
    | ok more =>
      rw [hmore] at h'
      cases h'
      refine ⟨List.cons_ne_nil _ _, ?_⟩
      rintro rfl
      cases p with
      | nil => cases h
      | cons c rest =>
        by_cases hb : isBlank c
        · -- the arguments are those behind the blank, and one less than with the sign
          rw [splitArgs_blank c rest hb] at h
          rw [token_blank c rest [] hb, List.tail_cons, h] at hmore
          have hlen := congrArg List.length (Except.ok.inj hmore)
          simp at hlen
        · by_cases hc : c = '#'
          · rw [hc, splitArgs_comment] at h
            cases h
          · rw [splitArgs_token c rest hb hc, if_pos hq, hmore] at h
            have hhead := (List.cons.inj (Except.ok.inj h)).1
            have hlen := congrArg List.length hhead
            simp at hlen
  · rw [if_neg hq] at h'
    cases h'

theorem splitArgs_equals_error (p : Text) (h : Unclosed false p) : splitArgs ('=' :: p) = splitArgs p := by
  have hesc : ¬ Escapes '=' p := by
    rintro ⟨h, -⟩
    exact absurd h (by decide)
  have hequals : Unclosed false ('=' :: p) := by
    rw [unclosed_char_iff false '=' p (by decide) (by decide) hesc]
    exact ⟨fun h => absurd h (by decide), h.started⟩
  rcases splitArgs_cases p with ⟨-, h1⟩ | ⟨h1, -⟩
  · rcases splitArgs_cases ('=' :: p) with ⟨-, h2⟩ | ⟨h2, -⟩
    · rw [h1, h2]
    · exact absurd hequals h2
  · exact absurd h h1

theorem lineOf_injective (n : Nat) (keyword : Text) (args args' : List Text)
    (h : lineOf n keyword args = lineOf n keyword args') : args = args' := by
  unfold lineOf at h
  split at h
  · cases h; rfl
  split at h
  · cases h; rfl
  split at h
  · cases h; rfl
  · cases h; rfl

/-- **With an equals sign in front of its arguments** a line is another one, unless a quote in them is not closed. -/
theorem lineFrom_equals_iff (n : Nat) (keyword p : Text) :
    lineFrom n keyword (splitArgs ('=' :: p)) = lineFrom n keyword (splitArgs p) ↔ Unclosed false p := by
  constructor
  · intro h
    rcases splitArgs_cases p with ⟨hu, -⟩ | ⟨-, args, hargs⟩
    · exact hu
    · exfalso
      rw [hargs] at h
      cases hargs' : splitArgs ('=' :: p) with
      | error e =>
        rw [hargs'] at h
        cases args <;> cases h
      | ok args' =>
        obtain ⟨hne, hdiff⟩ := splitArgs_equals_ne p args args' hargs hargs'
        obtain ⟨a, as, rfl⟩ := List.exists_cons_of_ne_nil hne
        rw [hargs'] at h
        cases args with
        | nil => cases h
        | cons b bs => exact hdiff (lineOf_injective n keyword _ _ (Except.ok.inj h))
  · intro h
    rw [splitArgs_equals_error p h]

/-! ## Between a keyword and its arguments -/

theorem trimEnd_blanks {gap : Text} (h : Blanks gap) : trimEnd gap = [] :=
  trimEnd_eq_nil fun c hc => whitespace_of_blank (h c hc)

/-- Blanks in front of arguments make no difference, at the end of the line either. -/
theorem splitArgs_trimEnd_blanks (gap value : Text) (h : Blanks gap) :
    splitArgs (trimEnd (gap ++ value)) = splitArgs (trimEnd value) := by
  rw [trimEnd_append]
  split
  · rename_i he
    rw [trimEnd_blanks h, he]
  · exact splitArgs_blanks _ gap h

theorem splitArgs_trimEnd_blanks_tail (gap value : Text) (h : Blanks gap) (hne : gap ≠ []) :
    splitArgs (trimEnd (gap ++ value)).tail = splitArgs (trimEnd value) := by
  obtain ⟨c, gap, rfl⟩ := List.exists_cons_of_ne_nil hne
  rw [trimEnd_append]
  split
  · rename_i he
    rw [trimEnd_blanks h, he]
    rfl
  · exact splitArgs_blanks _ gap fun d hd => h d (List.mem_cons_of_mem _ hd)

/-- What is behind the character that ends the keyword, if an equals sign is to come. -/
theorem splitArgs_behind_equals (pre post value : Text) (hpre : Blanks pre) (hpost : Blanks post) :
    splitArgs (trimEnd (pre ++ '=' :: (post ++ value))).tail =
      if pre = [] then splitArgs (trimEnd value) else splitArgs ('=' :: trimEnd (post ++ value)) := by
  have hequals : trimEnd ('=' :: (post ++ value)) = '=' :: trimEnd (post ++ value) := by
    have happ := trimEnd_append ['='] (post ++ value)
    have hsingle : trimEnd ['='] = ['='] := by decide
    rw [hsingle] at happ
    by_cases he : trimEnd (post ++ value) = []
    · rw [if_pos he] at happ
      rw [he]
      exact happ
    · rw [if_neg he] at happ
      exact happ
  rw [trimEnd_append, hequals, if_neg (List.cons_ne_nil _ _)]
  cases pre with
  | nil => exact splitArgs_trimEnd_blanks post value hpost
  | cons c pre =>
    rw [if_neg (List.cons_ne_nil _ _)]
    exact splitArgs_blanks _ pre fun d hd => hpre d (List.mem_cons_of_mem _ hd)

theorem head_of_blanks {gap : Text} (h : Blanks gap) (rest : Text) (hr : ∀ c ∈ rest.head?, isDelimiter c) :
    ∀ c ∈ (gap ++ rest).head?, isDelimiter c := by
  cases gap with
  | nil => exact hr
  | cons d gap =>
    intro c hc
    cases hc
    exact delimiter_of_blank (h d List.mem_cons_self)

/-- **An equals sign makes no difference** exactly when nothing is in front of it, or the line is a comment, or it is
refused for a quote that is not closed. -/
theorem parseLine_separators_iff (n : Nat) (key value pre post gap : Text) (hkey : Keyword key) (hpre : Blanks pre)
    (hpost : Blanks post) (hgap : Blanks gap) (hne : gap ≠ []) :
    parseLine n (key ++ (pre ++ '=' :: (post ++ value))) = parseLine n (key ++ (gap ++ value)) ↔
      pre = [] ∨ (canonicalIntermediate key).head? = some '#' ∨ Unclosed false (trimEnd value) := by
  have hequals : ∀ c ∈ ('=' :: (post ++ value)).head?, isDelimiter c := by
    intro c hc
    cases hc
    exact Or.inr (Or.inr rfl)
  have hhead : ∀ c ∈ (gap ++ value).head?, isDelimiter c := by
    obtain ⟨d, gap, rfl⟩ := List.exists_cons_of_ne_nil hne
    intro c hc
    cases hc
    exact delimiter_of_blank (hgap d List.mem_cons_self)
  rw [parseLine_keyword n hkey _ (head_of_blanks hpre _ hequals), parseLine_keyword n hkey _ hhead,
    splitArgs_behind_equals pre post value hpre hpost, splitArgs_trimEnd_blanks_tail gap value hgap hne]
  by_cases hc : (canonicalIntermediate key).head? = some '#'
  · simp [hc]
  · rw [if_neg hc, if_neg hc]
    by_cases hp : pre = []
    · simp [hp]
    · have hiff : Unclosed false (trimEnd (post ++ value)) ↔ Unclosed false (trimEnd value) := by
        rw [← splitArgs_error_iff, ← splitArgs_error_iff, splitArgs_trimEnd_blanks post value hpost]
      rw [if_neg hp, ← splitArgs_trimEnd_blanks post value hpost, lineFrom_equals_iff, hiff]
      simp [hc, hp]

theorem keyword_rx : Keyword ['r', 'x'] := by
  constructor
  · exact List.cons_ne_nil _ _
  · intro c hc
    simp only [List.mem_cons, List.not_mem_nil, or_false] at hc
    rcases hc with rfl | rfl <;> decide
  · decide

theorem blanks_one : Blanks [' '] := by simp [Blanks, isBlank]

theorem parseLine_separators_iff_rx :
    parseLine 1 (['r', 'x'] ++ ([' '] ++ '=' :: ([' '] ++ ['5', 'M']))) = parseLine 1
    (['r', 'x'] ++ ([' '] ++ ['5', 'M'])) ↔
      [' '] = [] ∨ (canonicalIntermediate ['r', 'x']).head? = some '#' ∨ Unclosed false (trimEnd ['5', 'M']) :=
  parseLine_separators_iff 1 ['r', 'x'] ['5', 'M'] [' '] [' '] [' '] keyword_rx blanks_one blanks_one blanks_one
    (List.cons_ne_nil _ _)

/-- `rx = 5M` is not `rx 5M`. -/
theorem not_parseLine_separators : ¬ ∀ (n : Nat) (key value pre post gap : Text), Keyword key → Blanks pre →
    Blanks post → Blanks gap → gap ≠ [] →
    parseLine n (key ++ (pre ++ '=' :: (post ++ value))) = parseLine n (key ++ (gap ++ value)) := by
  intro h
  have heq := h 1 ['r', 'x'] ['5', 'M'] [' '] [' '] [' '] keyword_rx blanks_one blanks_one blanks_one
    (List.cons_ne_nil _ _)
  revert heq
  decide +kernel

end Qcp
