import Qcp.ConfigFile
import Qcp.OneHost
import Qcp.Profiles
/-!
# Precedence — where a configuration comes from

A `HostManager` collects the configuration for a host: colours from the environment, the system's file, the user's
files, the command line and the user named in a path, over the system default.  They come to lie in three profiles,
one of which is named after the host and may be either of the others.  `merged_build` says that a layer nevertheless
prevails over all that were put there before it; `precedence` says what that makes of the manager of a command line.
-/
namespace Qcp

open Bare (Text)
open Layers (Dict)
open Posix (Path)
open Profiles (Provider Store)

/-! ## Profiles -/

/-- The name of a profile, in which the case of letters makes no difference. -/
structure Profile where
  name : Text
  lower : name.map Char.toLower = name
deriving DecidableEq

namespace Profile

def new (name : Text) : Profile where
  name := name.map Char.toLower
  lower := by simp

def default : Profile := new "default".toList

def global : Profile := new "global".toList

theorem global_ne_default : global ≠ default := by decide +kernel

/-- The profile a host's configuration is extracted from. -/
def ofHost : Option Text → Profile
  | none => default
  | some host => new host

end Profile

/-- A value before it is given a type. -/
inductive FigmentValue where
  | unit
  | bool (b : Bool)
  | number (q : Rat)
  | string (s : Text)
  | array (vs : List Text)
deriving DecidableEq

/-- The library that layers configurations. -/
abbrev Figment := Store Profile Text FigmentValue Profile.default Profile.global

abbrev FigmentProvider := Provider Profile Text FigmentValue

/-! ## Layers -/

def ofFields (fields : List (Text × FigmentValue)) : Dict Text FigmentValue := fun k =>
  (fields.find? fun field => field.1 = k).map Prod.snd

def systemDefaultFields (E : EngRepr) : List (Text × FigmentValue) :=
  let c := Configuration.systemDefault
  [("rx".toList, .string (E.toEng c.rx)), ("tx".toList, .string (E.toEng c.tx)),
    ("rtt".toList, .number c.rtt.toNat), ("congestion".toList, .string c.congestion.toString),
    ("initial_congestion_window".toList, .string (E.toEng c.initialCongestionWindow)),
    ("port".toList, .string c.port.display), ("timeout".toList, .number c.timeout.toNat),
    ("udp_buffer".toList, .string (E.toEng c.udpBuffer)), ("packet_threshold".toList, .number 3),
    ("time_threshold".toList, .number (9 / 8)), ("initial_mtu".toList, .number c.initialMtu.toNat),
    ("min_mtu".toList, .number c.minMtu.toNat), ("max_mtu".toList, .number c.maxMtu.toNat),
    ("address_family".toList, .string "any".toList), ("ssh".toList, .string "ssh".toList),
    ("remote_qcp_binary".toList, .string "qcp".toList), ("ssh_options".toList, .array []),
    ("remote_port".toList, .string c.remotePort.display), ("remote_user".toList, .string []),
    ("time_format".toList, .string "local".toList), ("ssh_config".toList, .array []),
    ("ssh_subsystem".toList, .bool false),
    ("color".toList, .string "auto".toList), ("tls_auth_type".toList, .string c.tlsAuthType.toString),
    ("aes256".toList, .bool false), ("io_buffer_size".toList, .string (E.toEng c.ioBufferSize))]

/-- The system default, at the lowest priority. -/
def SystemDefault (E : EngRepr) : FigmentProvider := .of none .default (ofFields (systemDefaultFields E))

/-- Where configurations are found. -/
structure Sources where
  var : Text → Option Text
  systemConfigPath : Option Path
  userConfigPaths : List Path
  pathExists : Path → Bool
  files : Surroundings
  wild : Text → Text → Bool

/-- What the environment says of colours. -/
def clicolor (S : Sources) : Option Text :=
  if (S.var "NO_COLOR".toList).isSome then some "never".toList
  else if (S.var "CLICOLOR_FORCE".toList).isSome then some "always".toList
  else match S.var "CLICOLOR".toList with
    | some v => if v = [] ∨ v = ['0'] then some "never".toList else some "auto".toList
    | none => none

def clicolorEntries (S : Sources) : Dict Text FigmentValue :=
  ofFields ((clicolor S).map fun v => ("color".toList, FigmentValue.string v)).toList

def ClicolorEnv (S : Sources) : FigmentProvider := .of none .default (clicolorEntries S)

/-- A setting of a configuration file as a value. -/
def Setting.value (setting : Setting) : FigmentValue :=
  match setting.args with
  | [] => .unit
  | [arg] => .string arg
  | args => .array args

def ValueProvider (key : Text) (value : Setting) (profile : Profile) : FigmentProvider :=
  .of (some profile) profile (ofFields [(key, value.value)])

/-- What a file has for its host: of each key what its own value provides. -/
def HostConfiguration.asFigment (config : HostConfiguration) : FigmentProvider :=
  let profile := Profile.ofHost config.host
  ⟨some profile, fun p k => (config.data k).bind fun v => (ValueProvider k v profile).data p k⟩

/-- **That is its settings as values**, all in its host's profile. -/
theorem HostConfiguration.asFigment_eq (config : HostConfiguration) : config.asFigment =
    .of (some (.ofHost config.host)) (.ofHost config.host) fun k => (config.data k).map Setting.value := by
  refine congrArg (Provider.mk _) (funext fun p => funext fun k => ?_)
  unfold ValueProvider Provider.of ofFields
  by_cases hp : p = .ofHost config.host
  · cases hd : config.data k <;> simp [hp, hd]
  · cases config.data k <;> simp [hp]

/-- What was given on the command line. -/
def ConfigurationOptional.provider (commandLine : Dict Text FigmentValue) : FigmentProvider :=
  .of none .global commandLine

/-- The user that all paths with a user in them agree on. -/
def remoteUserOf : Option Text → List FileSpec → Option Text
  | remoteUser, [] => remoteUser
  | remoteUser, spec :: specs =>
    match spec.remoteUser with
    | none => remoteUserOf remoteUser specs
    | some u =>
      match remoteUser with
      | none => remoteUserOf (some u) specs
      -- conflicting users: none is picked
      | some existing => if existing ≠ u then none else remoteUserOf (some existing) specs

def CliArgs.remoteUserEntries (args : CliArgs) : Dict Text FigmentValue :=
  ofFields ((remoteUserOf none args.paths).map fun u => ("remote_user".toList, FigmentValue.string u)).toList

def CliArgs.remoteUserAsConfig (args : CliArgs) : FigmentProvider := .of none .global args.remoteUserEntries

/-! ## The manager -/

/-- A configuration file, read for a host. -/
def readConfig (S : Sources) (isUser : Bool) (path : Path) (host : Option Text) :
    Except (List Text) HostConfiguration := do
  let text ← orBail (S.files.openFile path)
  Parser.parseFileFor ⟨.file path, isUser, text⟩ S.files S.wild host

/-- All possible configuration sources, processed and merged for a host. -/
structure HostManager (F : Figment) where
  data : F.Data
  host : Option Text

namespace HostManager

variable {F : Figment} (S : Sources) (E : EngRepr)

def mergeProvider (m : HostManager F) (provider : FigmentProvider) : HostManager F :=
  { m with data := F.merge m.data provider }

/-- A file that cannot be read is left out. -/
def mergeSshConfig (m : HostManager F) (path : Path) (host : Option Text) (isUser : Bool) : HostManager F :=
  match readConfig S isUser path host with
  | .ok config => m.mergeProvider config.asFigment
  | .error _ => m

def addConfig (m : HostManager F) (isUser : Bool) (path : Option Path) (forHost : Option Text) : HostManager F :=
  match path with
  | none => m
  | some path => if S.pathExists path then m.mergeSshConfig S path forHost isUser else m

def applySystemDefault (m : HostManager F) : HostManager F := { m with data := F.join m.data (SystemDefault E) }

def new (host : Option Text) (applyEnv applyConfigFiles : Bool) : HostManager F :=
  let m : HostManager F := ⟨F.select (.ofHost host) F.new, host⟩
  let m := if applyEnv then m.mergeProvider (ClicolorEnv S) else m
  if applyConfigFiles then
    S.userConfigPaths.foldl (fun m path => m.addConfig S true (some path) host)
      (m.addConfig S false S.systemConfigPath host)
  else m

/-- The files and the environment. -/
def standard (forHost : Option Text) : HostManager F := new S forHost true true

/-- The manager of a command line. -/
def ofCliArgs (args : CliArgs) (commandLine : Dict Text FigmentValue) : Except Text (HostManager F) := do
  let host ← args.remoteHostLossy
  let mgr := (standard S host).mergeProvider (ConfigurationOptional.provider commandLine)
  return mgr.mergeProvider args.remoteUserAsConfig

/-- Attempts to extract something from the data. -/
def get {α : Type} (deserialize : Dict Text FigmentValue → Except ConfigError α) (m : HostManager F) :
    Except ConfigError α := deserialize (F.merged m.data)

end HostManager

/-! ## Layer by layer -/

inductive Layer where
  | systemDefault
  | environment
  | configFile (isUser : Bool) (path : Option Path)
  | commandLine
  | jobspec
deriving DecidableEq

/-- What a file has, if there is one and it can be read. -/
def fileEntries (S : Sources) (host : Option Text) (isUser : Bool) (path : Option Path) : Dict Text FigmentValue :=
  match path with
  | none => fun _ => none
  | some path =>
    if S.pathExists path then
      match readConfig S isUser path host with
      | .ok config => fun k => (config.data k).map Setting.value
      | .error _ => fun _ => none
    else fun _ => none

/-- Everything a manager is built from. -/
structure Inputs where
  sources : Sources
  eng : EngRepr
  args : CliArgs
  commandLine : Dict Text FigmentValue
  host : Option Text

namespace Inputs

variable (I : Inputs)

/-- What a layer sets. -/
def entries : Layer → Dict Text FigmentValue
  | .systemDefault => ofFields (systemDefaultFields I.eng)
  | .environment => clicolorEntries I.sources
  | .configFile isUser path => fileEntries I.sources I.host isUser path
  | .commandLine => I.commandLine
  | .jobspec => I.args.remoteUserEntries

/-- The profile a layer is put in. -/
def profile : Layer → Profile
  | .systemDefault | .environment => .default
  | .configFile _ _ => .ofHost I.host
  | .commandLine | .jobspec => .global

/-- One layer more, as the code puts it there. -/
def apply {F : Figment} (m : HostManager F) : Layer → HostManager F
  | .systemDefault => m.applySystemDefault I.eng
  | .environment => m.mergeProvider (ClicolorEnv I.sources)
  | .configFile isUser path => m.addConfig I.sources isUser path I.host
  | .commandLine => m.mergeProvider (ConfigurationOptional.provider I.commandLine)
  | .jobspec => m.mergeProvider I.args.remoteUserAsConfig

def build (F : Figment) (layers : List Layer) : HostManager F :=
  layers.foldl I.apply (HostManager.new I.sources I.host false false)

/-- The layers of the code but for the system default, from the lowest to the highest. -/
def layers : List Layer :=
  .environment :: .configFile false I.sources.systemConfigPath ::
    (I.sources.userConfigPaths.map fun path => Layer.configFile true (some path)) ++ [.commandLine, .jobspec]

theorem ofCliArgs_eq (F : Figment) (h : I.args.remoteHostLossy = .ok I.host) :
    HostManager.ofCliArgs I.sources I.args I.commandLine = .ok (I.build F I.layers) := by
  have hfiles : ∀ (paths : List Path) (m : HostManager F),
      (paths.map fun path => Layer.configFile true (some path)).foldl I.apply m =
        paths.foldl (fun m path => m.addConfig I.sources true (some path) I.host) m := by
    intro paths m
    rw [List.foldl_map]
    rfl
  unfold HostManager.ofCliArgs build layers
  simp only [h, List.cons_append, List.foldl_append, List.foldl_cons, hfiles]
  rfl

/-! ## One layer more -/

variable {F : Figment} {m : HostManager F}

/-- A file that is read has been read for the host. -/
theorem host_of_readConfig (S : Sources) (isUser : Bool) (path : Path) (host : Option Text) (config : HostConfiguration)
    (h : readConfig S isUser path host = .ok config) : config.host = host := by
  unfold readConfig at h
  cases ht : orBail (S.files.openFile path) with
  | error e => rw [ht] at h; cases h
  | ok text =>
    rw [ht] at h
    have hp : Parser.parseFileFor ⟨.file path, isUser, text⟩ S.files S.wild host = .ok config := h
    rw [parseFileFor_eq] at hp
    cases hr : Sections.run ⟨true, fun _ => none⟩
        ((Parser.events ⟨.file path, isUser, text⟩ S.files).map (Event.item S.wild host)) with
    | error e => rw [hr] at hp; cases hp
    | ok kept => rw [hr] at hp; cases hp; rfl

/-- **A file is merged into the host's profile**, or it has nothing. -/
theorem apply_configFile (isUser : Bool) (path : Option Path) :
    (I.apply m (.configFile isUser path) = m ∧ ∀ k, I.entries (.configFile isUser path) k = none) ∨
      I.apply m (.configFile isUser path) =
        m.mergeProvider (.of (some (.ofHost I.host)) (.ofHost I.host) (I.entries (.configFile isUser path))) := by
  unfold apply entries HostManager.addConfig fileEntries
  cases path with
  | none => exact Or.inl ⟨rfl, fun _ => rfl⟩
  | some path =>
    simp only
    by_cases he : I.sources.pathExists path = true
    · rw [if_pos he, if_pos he]
      unfold HostManager.mergeSshConfig
      cases hr : readConfig I.sources isUser path I.host with
      | error e => exact Or.inl ⟨rfl, fun _ => rfl⟩
      | ok config =>
        apply Or.inr
        simp only
        rw [HostConfiguration.asFigment_eq, host_of_readConfig I.sources isUser path I.host config hr]
    · rw [if_neg he, if_neg he]
      exact Or.inl ⟨rfl, fun _ => rfl⟩

theorem profile_apply (l : Layer) (h : F.profile m.data = .ofHost I.host) :
    F.profile (I.apply m l).data = .ofHost I.host := by
  cases l with
  | systemDefault => exact (F.profile_join _ _).trans h
  | environment => exact (F.profile_merge _ _).trans h
  | commandLine => exact (F.profile_merge _ _).trans h
  | jobspec => exact (F.profile_merge _ _).trans h
  | configFile isUser path =>
    rcases I.apply_configFile (m := m) isUser path with ⟨he, -⟩ | he
    · rw [he]; exact h
    · rw [he]; exact F.profile_merge _ _

/-- Other profiles are left as they are. -/
theorem within_apply (l : Layer) (q : Profile) (k : Text) (h : q ≠ I.profile l) :
    F.within (I.apply m l).data q k = F.within m.data q k := by
  cases l with
  | systemDefault => exact (F.within_join_of _ _ _ _ _ _).trans (if_neg h)
  | environment => exact (F.within_merge_of _ _ _ _ _ _).trans (if_neg h)
  | commandLine => exact (F.within_merge_of _ _ _ _ _ _).trans (if_neg h)
  | jobspec => exact (F.within_merge_of _ _ _ _ _ _).trans (if_neg h)
  | configFile isUser path =>
    rcases I.apply_configFile (m := m) isUser path with ⟨he, -⟩ | he
    · rw [he]
    · rw [he]; exact (F.within_merge_of _ _ _ _ _ _).trans (if_neg h)

/-- Nothing lies above the profile the layer is put in. -/
def Clear (data : F.Data) (k : Text) : Layer → Prop
  | .systemDefault | .commandLine | .jobspec => True
  | .environment => ∀ q, q ≠ .default → F.within data q k = none
  | .configFile _ _ => Profile.ofHost I.host ≠ .global → F.within data .global k = none

theorem merged_systemDefault (k : Text) : F.merged (I.apply m .systemDefault).data k =
    (F.merged m.data k).or (I.entries .systemDefault k) :=
  F.merged_join_default _ _ _ _ Profile.global_ne_default

/-- **A layer prevails over what was there before it**, when nothing lies above its profile. -/
theorem merged_apply (l : Layer) (k : Text) (hl : l ≠ .systemDefault) (hp : F.profile m.data = .ofHost I.host)
    (hc : I.Clear m.data k l) : F.merged (I.apply m l).data k = (I.entries l k).or (F.merged m.data k) := by
  cases l with
  | systemDefault => exact absurd rfl hl
  | environment => exact F.merged_merge_default _ _ _ _ Profile.global_ne_default rfl hc
  | commandLine => exact F.merged_merge_global _ _ _ _ Profile.global_ne_default rfl
  | jobspec => exact F.merged_merge_global _ _ _ _ Profile.global_ne_default rfl
  | configFile isUser path =>
    rcases I.apply_configFile (m := m) isUser path with ⟨he, hn⟩ | he
    · rw [he, hn, Option.none_or]
    · rw [he]
      have hc' : F.profile m.data ≠ .global → F.within m.data .global k = none := by
        rw [hp]
        exact hc
      have h := F.merged_merge_selected m.data (some (F.profile m.data)) (I.entries (.configFile isUser path)) k
        Profile.global_ne_default rfl hc'
      rw [hp] at h
      exact h

end Inputs

/-! ## Any number of layers -/

/-- The entry of the first dictionary that has one. -/
def firstOf {K V : Type} (dicts : List (Dict K V)) : Dict K V := fun k => dicts.findSome? fun d => d k

theorem firstOf_cons {K V : Type} (d : Dict K V) (dicts : List (Dict K V)) (k : K) :
    firstOf (d :: dicts) k = (d k).or (firstOf dicts k) := by
  unfold firstOf
  rw [List.findSome?_cons]
  cases d k <;> rfl

theorem firstOf_append {K V : Type} (ds es : List (Dict K V)) (k : K) :
    firstOf (ds ++ es) k = (firstOf ds k).or (firstOf es k) := List.findSome?_append

namespace Layer

def rank : Layer → Nat
  | systemDefault | environment => 0
  | configFile _ _ => 1
  | commandLine | jobspec => 2

/-- The layers apart from the system default. -/
def proper (layers : List Layer) : List Layer := layers.filter (· ≠ systemDefault)

/-- None of them comes before one that belongs in a lower profile. -/
def InOrder (layers : List Layer) : Prop := (proper layers).Pairwise fun a b => a.rank ≤ b.rank

theorem proper_append (layers : List Layer) (l : Layer) (h : l ≠ systemDefault) :
    proper (layers ++ [l]) = proper layers ++ [l] := by
  unfold proper
  rw [List.filter_append]
  simp [h]

theorem proper_append_systemDefault (layers : List Layer) : proper (layers ++ [systemDefault]) = proper layers := by
  unfold proper
  rw [List.filter_append]
  simp

end Layer

namespace Inputs

variable (I : Inputs) (F : Figment)

theorem build_append (layers : List Layer) (l : Layer) : I.build F (layers ++ [l]) = I.apply (I.build F layers) l :=
  List.foldl_concat ..

theorem profile_build (layers : List Layer) : F.profile (I.build F layers).data = .ofHost I.host := by
  induction layers using List.reverseRecOn with
  | nil => exact F.profile_select _ _
  | append_singleton layers l ih =>
    rw [build_append]
    exact I.profile_apply l ih

/-- A profile that no layer was put in has nothing. -/
theorem within_build (layers : List Layer) (q : Profile) (k : Text) (h : ∀ l ∈ layers, q ≠ I.profile l) :
    F.within (I.build F layers).data q k = none := by
  induction layers using List.reverseRecOn with
  | nil =>
    show F.within (F.select _ F.new) q k = none
    rw [F.within_select, F.within_new]
  | append_singleton layers l ih =>
    rw [build_append, I.within_apply l q k (h l (by simp))]
    exact ih fun l' hl' => h l' (by simp [hl'])

/-- Layers in order leave everything above clear for the next. -/
theorem clear_build (layers : List Layer) (l : Layer) (k : Text)
    (h : ∀ l' ∈ layers, l' ≠ .systemDefault → l'.rank ≤ l.rank) : I.Clear (I.build F layers).data k l := by
  have hrank : ∀ l' ∈ layers, l' = .systemDefault ∨ l'.rank ≤ l.rank := fun l' hl' => by
    by_cases hs : l' = .systemDefault
    · exact Or.inl hs
    · exact Or.inr (h l' hl' hs)
  cases l with
  | systemDefault => exact trivial
  | commandLine => exact trivial
  | jobspec => exact trivial
  | environment =>
    intro q hq
    apply I.within_build F
    intro l' hl'
    rcases hrank l' hl' with rfl | hr
    · exact hq
    · cases l' with
      | systemDefault => exact hq
      | environment => exact hq
      | configFile u p => simp [Layer.rank] at hr
      | commandLine => simp [Layer.rank] at hr
      | jobspec => simp [Layer.rank] at hr
  | configFile isUser path =>
    intro hne
    apply I.within_build F
    intro l' hl'
    rcases hrank l' hl' with rfl | hr
    · exact Profile.global_ne_default
    · cases l' with
      | systemDefault => exact Profile.global_ne_default
      | environment => exact Profile.global_ne_default
      | configFile u p => exact hne.symm
      | commandLine => simp [Layer.rank] at hr
      | jobspec => simp [Layer.rank] at hr

/-- **What was built**: the last layer that sets a key prevails, and the system default is beneath them all, wherever
and however often it was put there. -/
theorem merged_build (layers : List Layer) (k : Text) (h : Layer.InOrder layers) :
    F.merged (I.build F layers).data k = (firstOf ((Layer.proper layers).reverse.map I.entries) k).or
      (if .systemDefault ∈ layers then I.entries .systemDefault k else none) := by
  induction layers using List.reverseRecOn with
  | nil =>
    show F.merged (F.select _ F.new) k = none
    rw [F.merged_apply, F.within_select, F.within_new, F.within_new, F.within_new]
    rfl
  | append_singleton layers l ih =>
    by_cases hl : l = .systemDefault
    · rw [hl] at h ⊢
      unfold Layer.InOrder at h
      rw [Layer.proper_append_systemDefault] at h ⊢
      have hmem : Layer.systemDefault ∈ layers ++ [Layer.systemDefault] := by simp
      rw [if_pos hmem, build_append, merged_systemDefault, ih h]
      split
      · rw [Option.or_assoc, Option.or_self]
      · rw [Option.or_none]
    · unfold Layer.InOrder at h
      rw [Layer.proper_append layers l hl, List.pairwise_append] at h
      have hrank : ∀ l' ∈ layers, l' ≠ .systemDefault → l'.rank ≤ l.rank := fun l' hl' hs =>
        h.2.2 l' (List.mem_filter.2 ⟨hl', by simpa using hs⟩) l (List.mem_singleton_self l)
      rw [build_append, I.merged_apply l k hl (I.profile_build F layers) (I.clear_build F layers l k hrank), ih h.1,
        Layer.proper_append layers l hl, List.reverse_append, List.map_append, List.reverse_singleton,
        List.map_singleton, firstOf_append]
      have hmem : Layer.systemDefault ∈ layers ++ [l] ↔ Layer.systemDefault ∈ layers := by
        simp [Ne.symm hl]
      have hone : firstOf [I.entries l] k = I.entries l k := by
        rw [firstOf_cons]
        exact Option.or_none
      simp only [hmem, hone, Option.or_assoc]

/-! ## The layers of a command line -/

/-- The sources of a configuration, from the highest priority to the lowest. -/
def priorities : List (Dict Text FigmentValue) :=
  [I.args.remoteUserEntries, I.commandLine] ++
    (I.sources.userConfigPaths.reverse.map fun path => fileEntries I.sources I.host true (some path)) ++
    [fileEntries I.sources I.host false I.sources.systemConfigPath, clicolorEntries I.sources,
      ofFields (systemDefaultFields I.eng)]

theorem firstOf_priorities (k : Text) :
    firstOf I.priorities k = (firstOf (I.layers.reverse.map I.entries) k).or (I.entries .systemDefault k) := by
  have hone : I.entries .systemDefault k = firstOf [ofFields (systemDefaultFields I.eng)] k := by
    rw [firstOf_cons]
    exact Option.or_none.symm
  have hfiles : ∀ paths : List Path, ((paths.map fun path => Layer.configFile true (some path)).reverse.map I.entries) =
      paths.reverse.map fun path => fileEntries I.sources I.host true (some path) := by
    intro paths
    rw [← List.map_reverse, List.map_map]
    rfl
  rw [hone, ← firstOf_append]
  unfold priorities layers
  rw [List.cons_append, List.cons_append]
  simp only [List.reverse_cons, List.reverse_append, List.map_append, hfiles, List.append_assoc]
  rfl

theorem inOrder_layers (layers : List Layer) (h : Layer.proper layers = I.layers) : Layer.InOrder layers := by
  unfold Layer.InOrder
  rw [h]
  unfold Inputs.layers
  rw [List.cons_append, List.cons_append, List.pairwise_cons, List.pairwise_cons, List.pairwise_append]
  have hfile : ∀ l ∈ I.sources.userConfigPaths.map fun path => Layer.configFile true (some path), l.rank = 1 := by
    intro l hl
    obtain ⟨path, -, rfl⟩ := List.mem_map.1 hl
    rfl
  have htwo : ∀ l ∈ [Layer.commandLine, Layer.jobspec], l.rank = 2 := by simp [Layer.rank]
  apply And.intro
  · intro l _
    exact Nat.zero_le _
  · apply And.intro
    · intro l hl
      rcases List.mem_append.1 hl with hl | hl
      · exact (hfile l hl).ge
      · exact Nat.le_of_lt (htwo l hl).ge
    · refine ⟨?_, by simp [Layer.rank], fun a ha b hb => ?_⟩
      · apply List.pairwise_of_forall_mem_list
        intro a ha b hb
        rw [hfile a ha, hfile b hb]
      · rw [hfile a ha, htwo b hb]
        decide

/-- The layers of the code, the system default put among them anywhere and any number of times. -/
theorem merged_layers (layers : List Layer) (h : Layer.proper layers = I.layers) (hd : .systemDefault ∈ layers) :
    F.merged (I.build F layers).data = firstOf I.priorities := by
  funext k
  rw [I.merged_build F layers k (I.inOrder_layers layers h), h, if_pos hd, I.firstOf_priorities]

theorem proper_layers : Layer.proper I.layers = I.layers := by
  unfold Layer.proper
  rw [List.filter_eq_self]
  intro l hl
  have hne : l ≠ .systemDefault := by
    intro he
    subst he
    unfold layers at hl
    simp at hl
  simpa using hne

theorem proper_append_replicate (layers : List Layer) (n : Nat) :
    Layer.proper (layers ++ List.replicate n .systemDefault) = Layer.proper layers := by
  induction n with
  | zero => rw [List.replicate_zero, List.append_nil]
  | succ n ih =>
    rw [List.replicate_succ', ← List.append_assoc, Layer.proper_append_systemDefault, ih]

theorem build_append_replicate (layers : List Layer) (n : Nat) :
    I.build F (layers ++ List.replicate n .systemDefault) =
      (fun m => m.applySystemDefault I.eng)^[n] (I.build F layers) := by
  induction n with
  | zero => rw [List.replicate_zero, List.append_nil]; rfl
  | succ n ih =>
    rw [List.replicate_succ', ← List.append_assoc, build_append, ih, Function.iterate_succ_apply']
    rfl

end Inputs

/-- Each field is among those of the system default, so it always has a value. -/
theorem isSome_priorities (I : Inputs) (k : Text) (hk : k ∈ fieldNames) : (firstOf I.priorities k).isSome := by
  have hkeys : (systemDefaultFields I.eng).map Prod.fst = fieldNames := rfl
  rw [I.firstOf_priorities, Option.isSome_or, Bool.or_eq_true]
  apply Or.inr
  show (ofFields (systemDefaultFields I.eng) k).isSome
  rw [← hkeys, List.mem_map] at hk
  obtain ⟨field, hmem, rfl⟩ := hk
  unfold ofFields
  rw [Option.isSome_map, List.find?_isSome]
  exact ⟨field, hmem, by simp⟩

/-- **Precedence**: whatever is extracted is read from the first of the sources that has it, when the system default has
been applied, be it at the end or anywhere among the others, once or more often; and each field has a value. -/
theorem precedence (F : Figment) (I : Inputs) (h : I.args.remoteHostLossy = .ok I.host) :
    (∃ m : HostManager F, HostManager.ofCliArgs I.sources I.args I.commandLine = .ok m ∧
      ∀ (n : Nat) {α : Type} (deserialize : Dict Text FigmentValue → Except ConfigError α),
        ((fun m => m.applySystemDefault I.eng)^[n + 1] m).get deserialize = deserialize (firstOf I.priorities)) ∧
    (∀ layers : List Layer, Layer.proper layers = I.layers → .systemDefault ∈ layers →
      ∀ {α : Type} (deserialize : Dict Text FigmentValue → Except ConfigError α),
        (I.build F layers).get deserialize = deserialize (firstOf I.priorities)) ∧
    ∀ k ∈ fieldNames, (firstOf I.priorities k).isSome := by
  refine ⟨⟨I.build F I.layers, I.ofCliArgs_eq F h, fun n α deserialize => ?_⟩,
    fun layers hp hd α deserialize => ?_, isSome_priorities I⟩
  · unfold HostManager.get
    rw [← I.build_append_replicate F I.layers (n + 1), I.merged_layers F]
    · rw [Inputs.proper_append_replicate, I.proper_layers]
    · simp
  · unfold HostManager.get
    rw [I.merged_layers F layers hp hd]

/-- A host with the name of a profile, colours in the environment and in a file, and a user in the path. -/
def globalHost : Inputs where
  sources :=
    { var := fun name => if name = "CLICOLOR_FORCE".toList then some ['1'] else none
      systemConfigPath := none
      userConfigPaths := ["qcp.conf".toList]
      pathExists := fun _ => true
      files := ⟨.ok none, fun _ => .ok none, none, none, fun _ => .ok [],
        fun _ => .ok ⟨["host global".toList, "RemoteUser you".toList, "color never".toList], none⟩⟩
      wild := fun pattern host => pattern = host.map Char.toLower }
  eng := .decimal
  args := ⟨[⟨none, "a".toList⟩, ⟨some "me@GLOBAL".toList, []⟩], false, false⟩
  commandLine := ofFields [("ssh".toList, .string "plink".toList)]
  host := some "GLOBAL".toList

/-- Some of what is extracted. -/
def extracted (config : Dict Text FigmentValue) : Except ConfigError (List (Option FigmentValue)) :=
  .ok ((["remote_user", "ssh", "color", "time_format"].map String.toList).map config)

theorem precedence_globalHost : ∃ m : HostManager (Store.plain Profile Text FigmentValue .default .global),
    HostManager.ofCliArgs globalHost.sources globalHost.args globalHost.commandLine = .ok m ∧
      (m.applySystemDefault globalHost.eng).get extracted = .ok
      [some (.string "me".toList), some (.string "plink".toList),
        some (.string "never".toList), some (.string "local".toList)] := by
  obtain ⟨⟨m, hm, hget⟩, -, -⟩ :=
    precedence (Store.plain Profile Text FigmentValue .default .global) globalHost (by decide +kernel)
  refine ⟨m, hm, (hget 0 extracted).trans ?_⟩
  decide +kernel

end Qcp
