import Qcp.HostMatch
import Qcp.Keywords
import Qcp.Posix
import Qcp.Sections
/-!
# ConfigFile — a configuration file, with the files it includes

`parseFileFor` reads a file for a host, and the files that it includes where it includes them.  `Parser.events` says
what is come across in doing so, line by line, up to the first thing that goes wrong; `parseFileFor_spec` says what
that makes of the configuration.
-/
namespace Qcp

open Bare (Text)
open Posix (Path push absolute)

/-! ## Files -/

/-- What can be read of a file: its lines, and what goes wrong behind them. -/
structure FileText where
  lines : List Text
  fault : Option Text

/-- Where home directories are, which files there are, and what is in them. -/
structure Surroundings where
  myHome : Except Text (Option Path)
  homeOf : Text → Except Text (Option Path)
  homeDir : Option Path
  systemSshDir : Option Path
  /-- The paths of a pattern, those left out that cannot be told; or what is wrong with the pattern. -/
  glob : Text → Except Text (List Path)
  openFile : Path → Except Text FileText

inductive ValueSource where
  | string
  | file (path : Path)
deriving DecidableEq

namespace ValueSource

def filename : ValueSource → Option Path
  | string => none
  | file path => some path

def filenameStringLossy (source : ValueSource) : Text := source.filename.getD []

end ValueSource

/-! ## Includes -/

def noHomeText : Text := "could not determine home directory".toList

def noOtherHomeText : Text := "could not determine other home directory".toList

/-- An error with one more cause in front. -/
def withContext {α : Type} (context : Text) : Except (List Text) α → Except (List Text) α
  | .ok a => .ok a
  | .error causes => .error (context :: causes)

/-- An error with no other behind it. -/
def orBail {α : Type} : Except Text α → Except (List Text) α
  | .ok a => .ok a
  | .error e => .error [e]

/-- A tilde is a home directory. -/
def expandHomeDirectory (E : Surroundings) (path : Text) : Except (List Text) Path :=
  match path with
  | ['~'] => do
    match ← orBail E.myHome with
    | some home => return home
    | none => .error [noHomeText]
  | '~' :: '/' :: rest =>
    match E.myHome with
    | .ok (some home) => .ok (push home rest)
    | _ => .error [noHomeText]
  | '~' :: user => do
    let (username, rest) := user.span fun c => c ≠ Posix.sep
    match ← orBail (E.homeOf username) with
    | none => .error [noOtherHomeText]
    | some home =>
      match rest with
      | [] => return home
      | _ :: rest => return push home rest
  | path => .ok path

/-- The directory that relative paths are in. -/
def includeDir (E : Surroundings) (isUser : Bool) : Except (List Text) Path :=
  if isUser then
    match E.homeDir with
    | some home => .ok (push home ".ssh".toList)
    | none => .error [noHomeText]
  else
    match E.systemSshDir with
    | some dir => .ok dir
    | none => .error ["could not determine system ssh config directory".toList]

/-- The files an Include asks for. -/
def findIncludeFiles (E : Surroundings) (arg : Text) (isUser : Bool) : Except (List Text) (List Path) := do
  let path ← if arg.head? = some '~' then
      if isUser then withContext ("expanding include expression ".toList ++ arg) (expandHomeDirectory E arg)
      else .error ["include paths may not start with ~ in a system configuration file".toList]
    else .ok arg
  let path ← if absolute path then .ok path else (includeDir E isUser).map fun dir => push dir path
  orBail (E.glob path)

/-! ## Reading -/

structure Setting where
  source : Text
  lineNumber : Nat
  args : List Text
deriving DecidableEq

structure HostConfiguration where
  host : Option Text
  source : Option Path
  data : Text → Option Setting

/-- A setting for a keyword that has none yet. -/
def HostConfiguration.orInsert (config : HostConfiguration) (keyword : Text) (setting : Setting) : HostConfiguration :=
  { config with data := Sections.orInsert config.data keyword setting }

def HostConfiguration.new (host : Option Text) (source : Option Path) : HostConfiguration :=
  ⟨host, source, fun _ => none⟩

/-- What is handed on from line to line, and from file to file. -/
structure Reading where
  accepting : Bool
  output : HostConfiguration

/-- A file to be read. -/
structure Parser where
  source : ValueSource
  isUser : Bool
  text : FileText

def includeDepthLimit : Nat := 16

def tooManyIncludes : Text := "too many nested includes".toList

def includeDirective (source : ValueSource) (lineNumber : Nat) : Text :=
  "Include directive at ".toList ++ source.filenameStringLossy ++ " line ".toList ++ Decimal.showNat lineNumber

section

variable (E : Surroundings) (wild : Text → Text → Bool) (isUser : Bool)

/-- One line; `sub` reads a file that is included. -/
def handleLine (sub : ValueSource → FileText → Reading → Except (List Text) Reading) (source : ValueSource)
    (lineNumber : Nat) (r : Reading) : Line → Except (List Text) Reading
  | .empty => .ok r
  | .host _ args => .ok { r with accepting := evaluateHostMatch wild r.output.host args }
  | .match_ _ _ => .ok r
  | .include_ _ args =>
    args.foldlM (fun r arg => do
      (← findIncludeFiles E arg isUser).foldlM (fun r f => do
        let text ← withContext (includeDirective source lineNumber) (orBail (E.openFile f))
        sub (.file f) text r) r) r
  | .generic _ keyword args =>
    if r.accepting then
      .ok { r with output := r.output.orInsert keyword ⟨source.filenameStringLossy, lineNumber, args⟩ }
    else .ok r

/-- The lines behind the first `n`. -/
def parseLines (sub : ValueSource → FileText → Reading → Except (List Text) Reading) (source : ValueSource)
    (fault : Option Text) : Nat → List Text → Reading → Except (List Text) Reading
  | _, [], r =>
    match fault with
    | none => .ok r
    | some e => .error [e]
  | n, line :: lines, r => do
    let line ← parseLine (n + 1) line
    let r ← handleLine E wild isUser sub source (n + 1) r line
    parseLines sub source fault (n + 1) lines r

/-- One file, at depth `includeDepthLimit - left`. -/
def parseFileInner : Nat → ValueSource → FileText → Reading → Except (List Text) Reading
  | 0, _, _, _ => .error [tooManyIncludes]
  | left + 1, source, text, r => parseLines E wild isUser (parseFileInner left) source text.fault 0 text.lines r

end

def Parser.parseFileFor (P : Parser) (E : Surroundings) (wild : Text → Text → Bool) (host : Option Text) :
    Except (List Text) HostConfiguration := do
  let r ← parseFileInner E wild P.isUser includeDepthLimit P.source P.text ⟨true, .new host P.source.filename⟩
  return r.output

/-! ## What is read -/

/-- What is come across in reading. -/
inductive Event where
  /-- A line, as it could be read. -/
  | line (source : ValueSource) (lineNumber : Nat) (read : Except (List Text) Line)
  | tooDeep
  | badPattern (causes : List Text)
  | unopened (source : ValueSource) (lineNumber : Nat) (error : Text)
  | unread (error : Text)

namespace Event

/-- What goes wrong: a line that is refused, a file or a pattern that cannot be read, or too many files in one
another. -/
def fault? : Event → Option (List Text)
  | line _ _ (.ok _) => none
  | line _ _ (.error causes) => some causes
  | tooDeep => some [tooManyIncludes]
  | badPattern causes => some causes
  | unopened source lineNumber error => some [includeDirective source lineNumber, error]
  | unread error => some [error]

def stops (event : Event) : Bool := event.fault?.isSome

/-- The patterns of a Host line. -/
def hostArgs? : Event → Option (List Text)
  | line _ _ (.ok (.host _ args)) => some args
  | _ => none

/-- The keyword that is set, and the setting. -/
def setting? : Event → Option (Text × Setting)
  | line source lineNumber (.ok (.generic _ keyword args)) =>
    some (keyword, ⟨source.filenameStringLossy, lineNumber, args⟩)
  | _ => none

end Event

open Sections (andThen visit)

section

variable (E : Surroundings) (isUser : Bool)

/-- The files of an Include, one after another. -/
def includeEvents (sub : ValueSource → FileText → List Event) (source : ValueSource) (lineNumber : Nat) (arg : Text) :
    List Event :=
  match findIncludeFiles E arg isUser with
  | .error causes => [.badPattern causes]
  | .ok files => visit Event.stops (fun f =>
      match E.openFile f with
      | .error e => [.unopened source lineNumber e]
      | .ok text => sub (.file f) text) files

/-- A line, and behind an Include what is included. -/
def lineEvents (sub : ValueSource → FileText → List Event) (source : ValueSource) (lineNumber : Nat) (line : Text) :
    List Event :=
  .line source lineNumber (parseLine lineNumber line) ::
    match parseLine lineNumber line with
    | .ok (.include_ _ args) => visit Event.stops (includeEvents E isUser sub source lineNumber) args
    | _ => []

def linesEvents (sub : ValueSource → FileText → List Event) (source : ValueSource) (fault : Option Text) :
    Nat → List Text → List Event
  | _, [] =>
    match fault with
    | none => []
    | some e => [.unread e]
  | n, line :: lines => andThen Event.stops (lineEvents E isUser sub source (n + 1) line)
      (linesEvents sub source fault (n + 1) lines)

/-- One file, at depth `includeDepthLimit - left`. -/
def fileEvents : Nat → ValueSource → FileText → List Event
  | 0, _, _ => [.tooDeep]
  | left + 1, source, text => linesEvents E isUser (fileEvents left) source text.fault 0 text.lines

end

/-- **All that is read, in order**, up to the first thing that goes wrong. -/
def Parser.events (P : Parser) (E : Surroundings) : List Event :=
  fileEvents E P.isUser includeDepthLimit P.source P.text

section

variable (wild : Text → Text → Bool) (host : Option Text)

/-- **The most recent Host line matches the host**, or there is none. -/
def Active (before : List Event) : Prop :=
  ∀ args, (before.filterMap Event.hostArgs?).getLast? = some args → evaluateHostMatch wild host args = true

/-- **The first line with the keyword that is read while this is so** is where the setting is from. -/
def FirstSetting (events : List Event) (keyword : Text) (setting : Setting) : Prop :=
  ∃ before event after, events = before ++ event :: after ∧ event.setting? = some (keyword, setting) ∧
    Active wild host before ∧
    ∀ b e setting' a, before = b ++ e :: a → e.setting? = some (keyword, setting') → ¬ Active wild host b

/-! ## A line is an item -/

/-- What an event is to the settings. -/
def Event.item : Event → Sections.Item Text Setting (List Text)
  | .line source lineNumber (.ok (.generic _ keyword args)) =>
    .setting keyword ⟨source.filenameStringLossy, lineNumber, args⟩
  | .line _ _ (.ok (.host _ args)) => .heading (evaluateHostMatch wild host args)
  | .line _ _ (.ok _) => .other
  | .line _ _ (.error causes) => .fault causes
  | .tooDeep => .fault [tooManyIncludes]
  | .badPattern causes => .fault causes
  | .unopened source lineNumber error => .fault [includeDirective source lineNumber, error]
  | .unread error => .fault [error]

variable {wild host}

theorem item_isFault (event : Event) : (event.item wild host).isFault = event.stops := by
  cases event with
  | line source n read =>
    cases read with
    | error causes => rfl
    | ok line => cases line <;> rfl
  | tooDeep | badPattern | unopened | unread => rfl

theorem item_eq_fault_iff (event : Event) (causes : List Text) :
    event.item wild host = .fault causes ↔ event.fault? = some causes := by
  cases event with
  | line source n read =>
    cases read with
    | error c => simp [Event.item, Event.fault?]
    | ok line => cases line <;> simp [Event.item, Event.fault?]
  | tooDeep | badPattern | unopened | unread => simp [Event.item, Event.fault?]

theorem item_eq_setting_iff (event : Event) (keyword : Text) (setting : Setting) :
    event.item wild host = .setting keyword setting ↔ event.setting? = some (keyword, setting) := by
  cases event with
  | line source n read =>
    cases read with
    | error c => simp [Event.item, Event.setting?]
    | ok line => cases line <;> simp [Event.item, Event.setting?]
  | tooDeep | badPattern | unopened | unread => simp [Event.item, Event.setting?]

theorem item_heading? (event : Event) :
    (event.item wild host).heading? = event.hostArgs?.map (evaluateHostMatch wild host) := by
  cases event with
  | line source n read =>
    cases read with
    | error c => rfl
    | ok line => cases line <;> rfl
  | tooDeep | badPattern | unopened | unread => rfl

/-- The last heading is the last Host line. -/
theorem meant_iff (before : List Event) :
    Sections.meant true (before.map (Event.item wild host)) = true ↔ Active wild host before := by
  have hheadings : (before.map (Event.item wild host)).filterMap Sections.Item.heading? =
      (before.filterMap Event.hostArgs?).map (evaluateHostMatch wild host) := by
    rw [List.filterMap_map, List.map_filterMap]
    exact congrArg (fun f => List.filterMap f before) (funext item_heading?)
  unfold Sections.meant Active
  rw [hheadings, List.getLast?_map]
  cases (before.filterMap Event.hostArgs?).getLast? <;> simp

theorem first_iff (events : List Event) (keyword : Text) (setting : Setting) :
    Sections.First true (events.map (Event.item wild host)) keyword setting ↔
    FirstSetting wild host events keyword setting := by
  constructor
  · rintro ⟨before, after, heq, hm, hno⟩
    obtain ⟨before, rest, rfl, rfl, hrest⟩ := List.map_eq_append_iff.1 heq
    obtain ⟨event, after, rfl, hevent, rfl⟩ := List.map_eq_cons_iff.1 hrest
    refine ⟨before, event, after, rfl, (item_eq_setting_iff _ _ _).1 hevent, (meant_iff _).1 hm, ?_⟩
    rintro b e setting' a rfl he hactive
    have := hno (b.map (Event.item wild host)) setting' (a.map (Event.item wild host)) (by
      rw [List.map_append, List.map_cons, (item_eq_setting_iff _ _ _).2 he])
    rw [(meant_iff _).2 hactive] at this
    cases this
  · rintro ⟨before, event, after, rfl, he, hm, hno⟩
    refine ⟨before.map (Event.item wild host), after.map (Event.item wild host), ?_, (meant_iff _).2 hm, ?_⟩
    · rw [List.map_append, List.map_cons, (item_eq_setting_iff _ _ _).2 he]
    · intro b setting' a heq
      obtain ⟨b, rest, rfl, rfl, hrest⟩ := List.map_eq_append_iff.1 heq
      obtain ⟨e, a, rfl, hev, rfl⟩ := List.map_eq_cons_iff.1 hrest
      rw [← Bool.not_eq_true, meant_iff]
      exact hno b e setting' a rfl ((item_eq_setting_iff _ _ _).1 hev)

end

/-! ## Reading is going through the items -/

def Reading.kept (r : Reading) : Sections.Kept Text Setting := ⟨r.accepting, r.output.data⟩

def Reading.update (r : Reading) (k : Sections.Kept Text Setting) : Reading :=
  ⟨k.accepting, { r.output with data := k.data }⟩

/-- **What is done with these events**, for the host. -/
def Follows (wild : Text → Text → Bool) (host : Option Text) (p : Reading → Except (List Text) Reading)
    (events : List Event) : Prop :=
  ∀ r, r.output.host = host → p r = (Sections.run r.kept (events.map (Event.item wild host))).map r.update

section

variable {E : Surroundings} {wild : Text → Text → Bool} {host : Option Text} {isUser : Bool}

theorem Follows.nothing : Follows wild host .ok [] := fun _ _ => rfl

theorem Follows.fault {event : Event} {causes : List Text} (h : event.fault? = some causes) :
    Follows wild host (fun _ => .error causes) [event] := by
  intro r _
  rw [List.map_singleton, (item_eq_fault_iff _ _).2 h]
  rfl

theorem Follows.then {p q : Reading → Except (List Text) Reading} {xs ys : List Event} (hp : Follows wild host p xs)
    (hq : Follows wild host q ys) : Follows wild host (fun r => p r >>= q) (andThen Event.stops xs ys) := by
  intro r hr
  have hmap : (andThen Event.stops xs ys).map (Event.item wild host) =
      andThen Sections.Item.isFault (xs.map (Event.item wild host)) (ys.map (Event.item wild host)) :=
    Sections.map_andThen item_isFault xs ys
  rw [hmap, Sections.run_andThen]
  show p r >>= q = _
  rw [hp r hr]
  cases Sections.run r.kept (xs.map (Event.item wild host)) with
  | error e => rfl
  | ok k => exact hq (r.update k) hr

theorem Follows.each {β : Type} {f : β → Reading → Except (List Text) Reading} {events : β → List Event}
    (h : ∀ b, Follows wild host (f b) (events b)) : ∀ bs : List β,
    Follows wild host (fun r => bs.foldlM (fun r b => f b r) r) (visit Event.stops events bs)
  | [] => .nothing
  | b :: bs => by
    intro r hr
    show (b :: bs).foldlM (fun r b => f b r) r = _
    rw [List.foldlM_cons]
    exact Follows.then (h b) (Follows.each h bs) r hr

section

variable {sub : ValueSource → FileText → Reading → Except (List Text) Reading}
    {subEvents : ValueSource → FileText → List Event}
  (hsub : ∀ source text, Follows wild host (sub source text) (subEvents source text))

include hsub

/-- The files of an Include. -/
theorem Follows.included (source : ValueSource) (n : Nat) (arg : Text) :
    Follows wild host (fun r => do
      (← findIncludeFiles E arg isUser).foldlM (fun r f => do
        let text ← withContext (includeDirective source n) (orBail (E.openFile f))
        sub (.file f) text r) r) (includeEvents E isUser subEvents source n arg) := by
  unfold includeEvents
  cases findIncludeFiles E arg isUser with
  | error causes => exact .fault rfl
  | ok files =>
    refine Follows.each (f := fun f r => do
      let text ← withContext (includeDirective source n) (orBail (E.openFile f))
      sub (.file f) text r) (fun f => ?_) files
    cases E.openFile f with
    | error e => exact .fault rfl
    | ok text => exact hsub (.file f) text

/-- **A line.** -/
theorem Follows.line (source : ValueSource) (n : Nat) (line : Text) :
    Follows wild host (fun r => do
      let line ← parseLine n line
      handleLine E wild isUser sub source n r line) (lineEvents E isUser subEvents source n line) := by
  intro r hr
  unfold lineEvents
  cases parseLine n line with
  | error causes => rfl
  | ok line =>
    cases line with
    | empty => rfl
    | match_ m args => rfl
    | host m args =>
      show Except.ok _ = _
      rw [hr]
      rfl
    | include_ m args => exact Follows.each (Follows.included hsub source n) args r hr
    | generic m keyword args =>
      show handleLine E wild isUser sub source n r (.generic m keyword args) = Except.ok (r.update (ite _ _ _))
      unfold handleLine
      obtain ⟨accepting, output⟩ := r
      cases accepting <;> rfl

theorem Follows.lines (source : ValueSource) (fault : Option Text) : ∀ (n : Nat) (lines : List Text),
    Follows wild host (parseLines E wild isUser sub source fault n lines)
    (linesEvents E isUser subEvents source fault n lines)
  | n, [] => by
    intro r hr
    cases fault with
    | none => rfl
    | some e => rfl
  | n, line :: lines => by
    intro r hr
    refine Eq.trans ?_ (Follows.then (Follows.line hsub source (n + 1) line)
      (Follows.lines source fault (n + 1) lines) r hr)
    simp only [parseLines, bind_assoc]

end

/-- **A file, and all that it includes.** -/
theorem Follows.file (E : Surroundings) (wild : Text → Text → Bool) (host : Option Text) (isUser : Bool) :
    ∀ (left : Nat) (source : ValueSource) (text : FileText),
      Follows wild host (parseFileInner E wild isUser left source text) (fileEvents E isUser left source text)
  | 0, _, _ => .fault rfl
  | left + 1, source, text => Follows.lines (Follows.file E wild host isUser left) source text.fault 0 text.lines

/-! ## Nothing is read behind a fault -/

section

variable {subEvents : ValueSource → FileText → List Event}
  (hsub : ∀ source text, Sections.Ends Event.stops (subEvents source text))

include hsub

theorem ends_includeEvents (source : ValueSource) (n : Nat) (arg : Text) :
    Sections.Ends Event.stops (includeEvents E isUser subEvents source n arg) := by
  unfold includeEvents
  split
  · exact .single _
  · apply Sections.Ends.visit
    intro f
    split
    · exact .single _
    · exact hsub _ _

theorem ends_lineEvents (source : ValueSource) (n : Nat) (line : Text) :
    Sections.Ends Event.stops (lineEvents E isUser subEvents source n line) := by
  unfold lineEvents
  cases parseLine n line with
  | error causes => exact .single _
  | ok line =>
    cases line with
    | include_ m args => exact .cons rfl (.visit (ends_includeEvents hsub source n) args)
    | empty | host | match_ | generic => exact .single _

theorem ends_linesEvents (source : ValueSource) (fault : Option Text) : ∀ (n : Nat) (lines : List Text),
    Sections.Ends Event.stops (linesEvents E isUser subEvents source fault n lines)
  | _, [] => by
    cases fault with
    | none => exact .nil
    | some e => exact .single _
  | n, line :: lines => .andThen (ends_lineEvents hsub source (n + 1) line)
    (ends_linesEvents source fault (n + 1) lines)

end

theorem ends_fileEvents : ∀ (left : Nat) (source : ValueSource) (text : FileText),
    Sections.Ends Event.stops (fileEvents E isUser left source text)
  | 0, _, _ => .single _
  | left + 1, source, text => ends_linesEvents (ends_fileEvents left) source text.fault 0 text.lines

end

/-! ## What a file means -/

/-- What is kept of the items are the first settings, if nothing goes wrong. -/
theorem run_items_iff (events : List Event) (wild : Text → Text → Bool) (host : Option Text)
    (t : Sections.Kept Text Setting) : Sections.run ⟨true, fun _ => none⟩ (events.map (Event.item wild host)) = .ok t ↔
      (∀ event ∈ events, event.fault? = none) ∧
        t.accepting = Sections.meant true (events.map (Event.item wild host)) ∧
        ∀ keyword setting, t.data keyword = some setting ↔ FirstSetting wild host events keyword setting := by
  have hfault : (∀ causes, .fault causes ∉ events.map (Event.item wild host)) ↔ ∀ event ∈ events,
      event.fault? = none := by
    simp only [List.mem_map, item_eq_fault_iff, not_exists, not_and, Option.eq_none_iff_forall_ne_some]
    exact ⟨fun h event he causes => h causes event he, fun h causes event he => h event he causes⟩
  rw [Sections.run_eq_ok_iff, hfault]
  simp [first_iff]

/-- A file is read by going through its items. -/
theorem parseFileFor_eq (P : Parser) (E : Surroundings) (wild : Text → Text → Bool) (host : Option Text) :
    P.parseFileFor E wild host = (Sections.run ⟨true, fun _ => none⟩ ((P.events E).map (Event.item wild host))).map
      fun k => ⟨host, P.source.filename, k.data⟩ := by
  have h := Follows.file E wild host P.isUser includeDepthLimit P.source P.text ⟨true, .new host P.source.filename⟩ rfl
  unfold Parser.parseFileFor
  rw [h]
  show (Except.map _ (Sections.run ⟨true, fun _ => none⟩ ((P.events E).map (Event.item wild host))) >>= _) = _
  cases Sections.run ⟨true, fun _ => none⟩ ((P.events E).map (Event.item wild host)) <;> rfl

/-- **What a configuration file means for a host**: it cannot be read if something goes wrong on the way, and then for
that reason; else each keyword is set by the first line with it that is read while the most recent Host line
matches. -/
theorem parseFileFor_spec (P : Parser) (E : Surroundings) (wild : Text → Text → Bool) (host : Option Text) :
    (∀ causes, P.parseFileFor E wild host = .error causes ↔ ∃ event ∈ P.events E, event.fault? = some causes) ∧
      ∀ config, P.parseFileFor E wild host = .ok config ↔
        (∀ event ∈ P.events E, event.fault? = none) ∧ config.host = host ∧ config.source = P.source.filename ∧
          ∀ keyword setting, config.data keyword = some setting ↔
            FirstSetting wild host (P.events E) keyword setting := by
  rw [parseFileFor_eq]
  constructor
  · intro causes
    have hends : Sections.Ends Sections.Item.isFault ((P.events E).map (Event.item wild host)) :=
      (ends_fileEvents includeDepthLimit P.source P.text).map item_isFault
    have herror := Sections.run_eq_error_iff hends ⟨true, fun _ => none⟩ causes
    simp only [List.mem_map, item_eq_fault_iff] at herror
    rw [← herror]
    cases Sections.run ⟨true, fun _ => none⟩ ((P.events E).map (Event.item wild host)) <;> simp [Except.map]
  · intro config
    constructor
    · intro h
      cases hrun : Sections.run ⟨true, fun _ => none⟩ ((P.events E).map (Event.item wild host)) with
      | error causes =>
        rw [hrun] at h
        cases h
      | ok t =>
        rw [hrun] at h
        cases h
        obtain ⟨hfault, -, hdata⟩ := (run_items_iff (P.events E) wild host t).1 hrun
        exact ⟨hfault, rfl, rfl, hdata⟩
    · rintro ⟨hfault, rfl, hsource, hdata⟩
      rw [(run_items_iff (P.events E) wild config.host ⟨_, config.data⟩).2 ⟨hfault, rfl, hdata⟩, ← hsource]
      rfl

end Qcp
