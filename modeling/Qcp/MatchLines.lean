import Qcp.ConfigFile
/-!
# MatchLines — Match lines, and the settings behind them

A Match line is only warned of.  `match_lines_ignored` says that nothing changes if such lines are left blank, and the
settings behind them too wherever the most recent Host line does not match.
-/
namespace Qcp

open Bare (Text)
open Sections (andThen visit)

/-! ## Blank lines -/

def blankLines (S : Nat → Bool) : Nat → List Text → List Text
  | _, [] => []
  | n, line :: lines => (if S (n + 1) then [] else line) :: blankLines S (n + 1) lines

/-- The file with some of its lines left blank. -/
def FileText.blank (text : FileText) (S : Nat → Bool) : FileText := { text with lines := blankLines S 0 text.lines }

def Surroundings.blank (E : Surroundings) (S : ValueSource → Nat → Bool) : Surroundings :=
  { E with openFile := fun p => (E.openFile p).map fun text => text.blank (S (.file p)) }

def Parser.blank (P : Parser) (S : ValueSource → Nat → Bool) : Parser := { P with text := P.text.blank (S P.source) }

/-- What is read of it. -/
def Event.blank (S : ValueSource → Nat → Bool) : Event → Event
  | .line source n (.ok read) => .line source n (.ok (if S source n then .empty else read))
  | event => event

/-- A line that may be left blank without anything else being read: it can be read, and it is no Include. -/
def Blankable (S : ValueSource → Nat → Bool) (event : Event) : Prop :=
  ∀ source n read, event = .line source n read → S source n = true → ∃ line, read = .ok line ∧ ∀ m args,
    line ≠ .include_ m args

section

variable {E : Surroundings} {isUser : Bool} {S : ValueSource → Nat → Bool}

theorem parseLine_blank (n : Nat) : parseLine n [] = .ok .empty := rfl

theorem stops_blank (event : Event) : (event.blank S).stops = event.stops := by
  cases event with
  | line source n read => cases read <;> rfl
  | tooDeep | badPattern | unopened | unread => rfl

theorem findIncludeFiles_blank (arg : Text) :
    findIncludeFiles (E.blank S) arg isUser = findIncludeFiles E arg isUser := rfl

section

variable {sub sub' : ValueSource → FileText → List Event}
  (hsub : ∀ p text, (∀ e ∈ sub (.file p) text, Blankable S e) →
    sub' (.file p) (text.blank (S (.file p))) = (sub (.file p) text).map (Event.blank S))

include hsub

theorem includeEvents_blank (source : ValueSource) (n : Nat) (arg : Text)
    (h : ∀ e ∈ includeEvents E isUser sub source n arg, Blankable S e) :
    includeEvents (E.blank S) isUser sub' source n arg = (includeEvents E isUser sub source n arg).map
    (Event.blank S) := by
  unfold includeEvents at h ⊢
  rw [findIncludeFiles_blank]
  cases hfiles : findIncludeFiles E arg isUser with
  | error causes => rfl
  | ok files =>
    rw [hfiles] at h
    refine Sections.visit_map stops_blank files (fun f _ hf => ?_) h
    have hblank : (E.blank S).openFile f = (E.openFile f).map fun text => text.blank (S (.file f)) := rfl
    rw [hblank]
    cases hopen : E.openFile f with
    | error e => rfl
    | ok text =>
      rw [hopen] at hf
      exact hsub f text hf

theorem lineEvents_blank (source : ValueSource) (n : Nat) (line : Text)
    (h : ∀ e ∈ lineEvents E isUser sub source n line, Blankable S e) :
    lineEvents (E.blank S) isUser sub' source n (if S source n then [] else line) =
      (lineEvents E isUser sub source n line).map (Event.blank S) := by
  have hhead := h _ List.mem_cons_self source n (parseLine n line) rfl
  unfold lineEvents at h ⊢
  cases hS : S source n with
  | true =>
    obtain ⟨l, hl, hinclude⟩ := hhead hS
    rw [if_pos rfl, parseLine_blank, hl]
    cases l with
    | include_ m args => exact absurd rfl (hinclude m args)
    | empty | host | match_ | generic => simp [Event.blank, hS]
  | false =>
    rw [if_neg Bool.false_ne_true]
    cases hl : parseLine n line with
    | error causes => rfl
    | ok l =>
      rw [hl] at h
      have hkeep : ∀ l : Line, Event.blank S (.line source n (.ok l)) = .line source n (.ok l) := by
        intro l
        simp [Event.blank, hS]
      cases l with
      | empty | host | match_ | generic => simp only [List.map_cons, List.map_nil, hkeep]
      | include_ m args =>
        simp only [List.map_cons, hkeep]
        rw [Sections.visit_map stops_blank args (fun arg _ ha => includeEvents_blank hsub source n arg ha)
          fun e he => h e (List.mem_cons_of_mem _ he)]

theorem linesEvents_blank (source : ValueSource) (fault : Option Text) : ∀ (n : Nat) (lines : List Text),
    (∀ e ∈ linesEvents E isUser sub source fault n lines, Blankable S e) →
    linesEvents (E.blank S) isUser sub' source fault n (blankLines (S source) n lines) =
      (linesEvents E isUser sub source fault n lines).map (Event.blank S)
  | _, [], _ => by cases fault <;> rfl
  | n, line :: lines, h => by
    apply Sections.andThen_map stops_blank
    · exact lineEvents_blank hsub source (n + 1) line fun e he => h e (Sections.mem_andThen_left _ he)
    · intro hs
      exact linesEvents_blank source fault (n + 1) lines fun e he => h e (Sections.mem_andThen_right hs he)

end

theorem fileEvents_blank : ∀ (left : Nat) (source : ValueSource) (text : FileText),
    (∀ e ∈ fileEvents E isUser left source text, Blankable S e) →
    fileEvents (E.blank S) isUser left source (text.blank (S source)) =
      (fileEvents E isUser left source text).map (Event.blank S)
  | 0, _, _, _ => rfl
  | left + 1, source, text, h =>
    linesEvents_blank (fun p text => fileEvents_blank left (.file p) text) source text.fault 0 text.lines h

end

/-! ## Match lines -/

/-- A Match line. -/
def Event.IsMatch (event : Event) : Prop := ∃ source n m args, event = .line source n (.ok (.match_ m args))

/-- A Match line was read, and no Host line since. -/
def BehindMatch (before : List Event) : Prop :=
  ∃ b event a, before = b ++ event :: a ∧ event.IsMatch ∧ ∀ e ∈ a, e.hostArgs? = none

/-- **A line that has no effect**: a Match line, one that is blank, or a setting behind a Match line where the most
recent Host line does not match. -/
def Ignored (wild : Text → Text → Bool) (host : Option Text) (before : List Event)
    (read : Except (List Text) Line) : Prop :=
  (∃ m args, read = .ok (.match_ m args)) ∨ read = .ok .empty ∨
    ((∃ m keyword args, read = .ok (.generic m keyword args)) ∧ BehindMatch before ∧ ¬ Active wild host before)

section

variable {E : Surroundings} {wild : Text → Text → Bool} {host : Option Text} {S : ValueSource → Nat → Bool} {P : Parser}

theorem Ignored.blankable {before : List Event} {read : Except (List Text) Line} (h : Ignored wild host before read) :
    ∃ line, read = .ok line ∧ ∀ m args, line ≠ .include_ m args := by
  rcases h with ⟨m, args, rfl⟩ | rfl | ⟨⟨m, keyword, args, rfl⟩, -⟩
  · exact ⟨_, rfl, fun _ _ h => by cases h⟩
  · exact ⟨_, rfl, fun _ _ h => by cases h⟩
  · exact ⟨_, rfl, fun _ _ h => by cases h⟩

/-- To the settings a line that is ignored might as well be blank. -/
theorem item_blank {before : List Event} (event : Event)
    (h : ∀ source n read, event = .line source n read → S source n = true → Ignored wild host before read) :
    (event.blank S).item wild host = event.item wild host ∨ ((event.blank S).item wild host = .other ∧
      ∃ keyword setting, event.item wild host = .setting keyword setting ∧
        Sections.meant true (before.map (Event.item wild host)) = false) := by
  cases event with
  | tooDeep | badPattern | unopened | unread => exact Or.inl rfl
  | line source n read =>
    cases hread : read with
    | error causes => exact Or.inl rfl
    | ok line =>
      have hblank : Event.blank S (.line source n (.ok line)) =
          .line source n (.ok (if S source n then .empty else line)) := rfl
      rw [hblank]
      cases hS : S source n with
      | false => exact Or.inl rfl
      | true =>
        rw [if_pos rfl]
        rcases h source n read rfl hS with ⟨m, args, hm⟩ | hm | ⟨⟨m, keyword, args, hm⟩, -, hactive⟩
        · cases hread.symm.trans hm
          exact Or.inl rfl
        · cases hread.symm.trans hm
          exact Or.inl rfl
        · cases hread.symm.trans hm
          rw [← meant_iff, Bool.not_eq_true] at hactive
          exact Or.inr ⟨rfl, _, _, rfl, hactive⟩

/-- **Lines that are ignored can be left blank.** -/
theorem parseFileFor_blank
    (h : ∀ before source n read after, P.events E = before ++ .line source n read :: after → S source n = true →
      Ignored wild host before read) :
    (P.blank S).parseFileFor (E.blank S) wild host = P.parseFileFor E wild host := by
  have hblank : (P.blank S).events (E.blank S) = (P.events E).map (Event.blank S) := by
    apply fileEvents_blank
    rintro e he source n read rfl hS
    obtain ⟨before, after, heq⟩ := List.append_of_mem he
    exact (h before source n read after heq hS).blankable
  rw [parseFileFor_eq, parseFileFor_eq, hblank, List.map_map]
  have hrun : Sections.run ⟨true, fun _ => none⟩ ((P.events E).map (Event.item wild host ∘ Event.blank S)) =
      Sections.run ⟨true, fun _ => none⟩ ((P.events E).map (Event.item wild host)) := by
    apply Sections.run_map_congr
    intro before event after heq
    apply item_blank event
    rintro source n read rfl hS
    exact h before source n read after heq hS
  rw [hrun]
  rfl

/-- The settings that are read are those that count. -/
theorem data_of_parseFileFor {config : HostConfiguration} (h : P.parseFileFor E wild host = .ok config) (keyword : Text)
    (setting : Setting) : config.data keyword = some setting ↔ FirstSetting wild host (P.events E) keyword setting := by
  rw [parseFileFor_eq] at h
  cases hrun : Sections.run ⟨true, fun _ => none⟩ ((P.events E).map (Event.item wild host)) with
  | error causes =>
    rw [hrun] at h
    cases h
  | ok t =>
    rw [hrun] at h
    cases h
    exact ((run_items_iff (P.events E) wild host t).1 hrun).2.2 keyword setting

/-- Where the host is not meant, what is up to the next Host line does not count. -/
theorem firstSetting_skip_iff {before block after : List Event} (keyword : Text) (setting : Setting)
    (hblock : ∀ e ∈ block, e.hostArgs? = none) (hactive : ¬ Active wild host before) :
    FirstSetting wild host (before ++ (block ++ after)) keyword setting ↔
      FirstSetting wild host (before ++ after) keyword setting := by
  rw [← first_iff, ← first_iff, List.map_append, List.map_append, List.map_append]
  apply Sections.first_skip_iff
  · intro x hx
    obtain ⟨e, he, rfl⟩ := List.mem_map.1 hx
    rw [item_heading?, hblock e he]
    rfl
  · rw [← meant_iff, Bool.not_eq_true] at hactive
    exact hactive

end

/-- **Match lines have no effect.** They can be left blank, and with them the settings up to the next Host line
wherever the most recent Host line does not match; where it does not, these settings are none of the host's. -/
theorem match_lines_ignored (P : Parser) (E : Surroundings) (wild : Text → Text → Bool) (host : Option Text)
    (S : ValueSource → Nat → Bool)
    (h : ∀ before source n read after, P.events E = before ++ .line source n read :: after → S source n = true →
      Ignored wild host before read) :
    (P.blank S).parseFileFor (E.blank S) wild host = P.parseFileFor E wild host ∧
      ∀ config, P.parseFileFor E wild host = .ok config → ∀ before event block after,
        P.events E = before ++ (event :: block ++ after) → event.IsMatch → (∀ e ∈ block, e.hostArgs? = none) →
        ¬ Active wild host before → ∀ keyword setting, config.data keyword = some setting ↔
          FirstSetting wild host (before ++ after) keyword setting := by
  refine ⟨parseFileFor_blank h, ?_⟩
  rintro config hconfig before event block after heq ⟨source, n, m, args, rfl⟩ hblock hactive keyword setting
  rw [data_of_parseFileFor hconfig, heq]
  apply firstSetting_skip_iff keyword setting ?_ hactive
  intro e he
  rcases List.mem_cons.1 he with rfl | he
  · rfl
  · exact hblock e he

/-! ## A Match line at the top -/

/-- There are no files. -/
def nowhere : Surroundings := ⟨.ok none, fun _ => .ok none, none, none, fun _ => .ok [], fun _ => .error []⟩

/-- A text that is read as it is. -/
def parserOf (lines : List Text) : Parser := ⟨.string, true, ⟨lines, none⟩⟩

def hostX : Text := ['H', 'o', 's', 't', ' ', 'x']

def hostZ : Text := ['H', 'o', 's', 't', ' ', 'z']

def matchAll : Text := ['M', 'a', 't', 'c', 'h', ' ', 'a', 'l', 'l']

def txOne : Text := ['t', 'x', ' ', '1']

def rxFive : Text := ['r', 'x', ' ', '5']

def aside : Parser := parserOf [hostX, matchAll, txOne]

theorem events_aside : aside.events nowhere =
    [.line .string 1 (.ok (.host 1 [['x']])), .line .string 2 (.ok (.match_ 2 [['a', 'l', 'l']])),
      .line .string 3 (.ok (.generic 3 ['t', 'x'] [['1']]))] := by
  have h1 : parseLine 1 hostX = .ok (.host 1 [['x']]) := by decide +kernel
  have h2 : parseLine 2 matchAll = .ok (.match_ 2 [['a', 'l', 'l']]) := by decide +kernel
  have h3 : parseLine 3 txOne = .ok (.generic 3 ['t', 'x'] [['1']]) := by decide +kernel
  show linesEvents nowhere true _ .string none 0 [hostX, matchAll, txOne] = _
  simp only [linesEvents, lineEvents, h1, h2, h3]
  rfl

theorem match_lines_ignored_aside :
    (aside.blank fun _ n => 2 ≤ n).parseFileFor (nowhere.blank fun _ n => 2 ≤ n) wildMatch (some ['z']) =
        aside.parseFileFor nowhere wildMatch (some ['z']) ∧
      ∀ config, aside.parseFileFor nowhere wildMatch (some ['z']) = .ok config → ∀ before event block after,
        aside.events nowhere = before ++ (event :: block ++ after) → event.IsMatch → (∀ e ∈ block, e.hostArgs? = none) →
        ¬ Active wildMatch (some ['z']) before → ∀ keyword setting, config.data keyword = some setting ↔
          FirstSetting wildMatch (some ['z']) (before ++ after) keyword setting := by
  refine match_lines_ignored aside nowhere wildMatch (some ['z']) (fun _ n => 2 ≤ n) ?_
  intro before source n read after heq hS
  rw [events_aside] at heq
  cases before with
  | nil =>
    cases heq
    exact absurd hS (by decide)
  | cons e before =>
    cases before with
    | nil =>
      cases heq
      exact Or.inl ⟨2, _, rfl⟩
    | cons e' before =>
      cases before with
      | nil =>
        cases heq
        refine Or.inr (Or.inr ⟨⟨3, _, _, rfl⟩, ?_, ?_⟩)
        · exact ⟨[_], _, [], rfl, ⟨_, _, _, _, rfl⟩, fun e he => absurd he List.not_mem_nil⟩
        · intro hactive
          exact absurd (hactive [['x']] rfl) (by decide +kernel)
      | cons e'' before => cases before <;> cases heq

/-- A Match line at the top, and a setting behind it. -/
def matchTop : Event := .line .string 1 (.ok (.match_ 1 [['a', 'l', 'l']]))

def txBehind : Event := .line .string 2 (.ok (.generic 2 ['t', 'x'] [['1']]))

theorem events_top : (parserOf [matchAll, txOne]).events nowhere = [matchTop, txBehind] := by
  have h1 : parseLine 1 matchAll = .ok (.match_ 1 [['a', 'l', 'l']]) := by decide +kernel
  have h2 : parseLine 2 txOne = .ok (.generic 2 ['t', 'x'] [['1']]) := by decide +kernel
  show linesEvents nowhere true _ .string none 0 [matchAll, txOne] = _
  simp only [linesEvents, lineEvents, h1, h2]
  rfl

/-- **A setting behind a Match line is read**; and where it is not, a line less makes the lines behind it others. -/
theorem not_match_ignored :
    (¬ ∀ (P : Parser) (host : Option Text) (config : HostConfiguration) (before : List Event) (event : Event)
      (block after : List Event), P.parseFileFor nowhere wildMatch host = .ok config →
      P.events nowhere = before ++ (event :: block ++ after) → event.IsMatch → (∀ e ∈ block, e.hostArgs? = none) →
      ∀ keyword setting, config.data keyword = some setting ↔
        FirstSetting wildMatch host (before ++ after) keyword setting) ∧
    ((parserOf [hostX, matchAll, txOne, hostZ, rxFive]).parseFileFor nowhere
        wildMatch (some ['z'])).map (fun config => config.data ['r', 'x']) ≠
      ((parserOf [hostX, matchAll, hostZ, rxFive]).parseFileFor nowhere
        wildMatch (some ['z'])).map fun config => config.data ['r', 'x'] := by
  constructor
  · intro h
    have hdata : ((parserOf [matchAll, txOne]).parseFileFor nowhere wildMatch none).map
        (fun config => config.data ['t', 'x']) = .ok (some ⟨[], 2, [['1']]⟩) := by decide +kernel
    cases hp : (parserOf [matchAll, txOne]).parseFileFor nowhere wildMatch none with
    | error causes =>
      rw [hp] at hdata
      cases hdata
    | ok config =>
      rw [hp] at hdata
      obtain ⟨before, event, after, heq, -⟩ := (h _ none config [] matchTop [txBehind] [] hp events_top
        ⟨_, _, _, _, rfl⟩ (List.forall_mem_singleton.2 rfl) _ _).1 (Except.ok.inj hdata)
      cases before <;> cases heq
  · decide +kernel

end Qcp
