import Qcp.ConfigFile
import Qcp.OneHost
import Qcp.Socket
/-!
# Aliases — the address that a client calls

A host on the command line may be an alias.  `resolveHostAlias` goes through ssh's own configuration files for the
name it stands for, and `lookupHostByFamily` takes that to an address.  `prep_ok_iff` says whose address it is in the
end.
-/
namespace Qcp

open Bare (Text)
open Posix (Path)
open Walkdir (Root)

/-! ## ssh's configuration files -/

/-- A file, and whether it is a user's: in one that is, a tilde stands for a home directory. -/
structure SshConfigFile where
  path : Path
  user : Bool

/-- The files named, or else the user's and the system's where there are such places. -/
def SshConfigFile.files (userSshConfig systemSshConfig : Option Path) (configFiles : List Path) : List SshConfigFile :=
  if configFiles = [] then
    (userSshConfig.map fun f => ⟨f, true⟩).toList ++ (systemSshConfig.map fun p => ⟨p, false⟩).toList
  else configFiles.map fun s => ⟨s, true⟩

def Setting.firstArg (setting : Setting) : Text := setting.args.head?.getD []

section

variable (fileExists : Path → Except Text Bool) (E : Surroundings) (wild : Text → Text → Bool)

/-- What a file sets for a host; one that is not there, or that something is wrong with, sets nothing. -/
def SshConfigFile.get (file : SshConfigFile) (host key : Text) : Option Setting :=
  match fileExists file.path with
  | .ok true =>
    match E.openFile file.path with
    | .error _ => none
    | .ok text =>
      match (Parser.mk (.file file.path) file.user text).parseFileFor E wild (some host) with
      | .error _ => none
      | .ok data => data.data key
  | _ => none

/-- The first of the files to set it does. -/
def sshConfigGet (files : List SshConfigFile) (host key : Text) : Option Setting :=
  files.findSome? fun c => c.get fileExists E wild host key

def hostNameKey : Text := "hostname".toList

def resolveHostAlias (files : List SshConfigFile) (host : Text) : Option Text :=
  (sshConfigGet fileExists E wild files host hostNameKey).map Setting.firstArg

end

/-! ## The name service -/

inductive AddressFamily where
  | inet
  | inet6
  | any
deriving DecidableEq, Repr

namespace AddressFamily

def debug : AddressFamily → Text
  | inet => "Inet".toList
  | inet6 => "Inet6".toList
  | any => "Any".toList

def admits : AddressFamily → IpAddr → Bool
  | any, _ => true
  | inet, .v4 _ => true
  | inet6, .v6 _ => true
  | _, _ => false

end AddressFamily

/-- The first address of the family that the resolver has for a host. -/
def lookupHostByFamily (resolver : Text → Except Text (List SocketAddr)) (desired : AddressFamily) (host : Text) :
    Except Text IpAddr :=
  match resolver host with
  | .error _ => .error ("host name lookup for ".toList ++ host ++ " failed".toList)
  | .ok addrs =>
    match addrs.find? fun a => desired.admits a.addr with
    | some a => .ok a.addr
    | none => .error ("host ".toList ++ host ++ " found, but not as ".toList ++ desired.debug)

/-! ## What they come to -/

section

variable {fileExists : Path → Except Text Bool} {E : Surroundings} {wild : Text → Text → Bool}

/-- **What a file has to say**: it is there and can be read through, and the first line with the keyword that is for the
host says so. -/
structure SshConfigFile.Provides (fileExists : Path → Except Text Bool) (E : Surroundings) (wild : Text → Text → Bool)
    (file : SshConfigFile) (host key : Text) (setting : Setting) : Prop where
  there : fileExists file.path = .ok true
  read : ∃ text, E.openFile file.path = .ok text ∧
    (∀ event ∈ (Parser.mk (.file file.path) file.user text).events E, event.fault? = none) ∧
    FirstSetting wild (some host) ((Parser.mk (.file file.path) file.user text).events E) key setting

/-- A file that is read has the settings that come first in it. -/
theorem parseFileFor_data_iff (P : Parser) (host : Option Text) (key : Text) (setting : Setting) :
    (∃ data, P.parseFileFor E wild host = .ok data ∧ data.data key = some setting) ↔
      (∀ event ∈ P.events E, event.fault? = none) ∧ FirstSetting wild host (P.events E) key setting := by
  rw [parseFileFor_eq]
  cases hrun : Sections.run ⟨true, fun _ => none⟩ ((P.events E).map (Event.item wild host)) with
  | error causes =>
    have hends : Sections.Ends Sections.Item.isFault ((P.events E).map (Event.item wild host)) :=
      (ends_fileEvents includeDepthLimit P.source P.text).map item_isFault
    obtain ⟨event, hmem, hitem⟩ := List.mem_map.1 ((Sections.run_eq_error_iff hends _ causes).1 hrun)
    have hfault := (item_eq_fault_iff event causes).1 hitem
    constructor
    · rintro ⟨data, h, -⟩
      cases h
    · rintro ⟨hnone, -⟩
      rw [hnone event hmem] at hfault
      cases hfault
  | ok k =>
    obtain ⟨hfault, -, hdata⟩ := (run_items_iff (P.events E) wild host k).1 hrun
    constructor
    · rintro ⟨data, h, hkey⟩
      cases h
      exact ⟨hfault, (hdata key setting).1 hkey⟩
    · rintro ⟨-, hfirst⟩
      exact ⟨_, rfl, (hdata key setting).2 hfirst⟩

theorem get_eq_some_iff (file : SshConfigFile) (host key : Text) (setting : Setting) :
    file.get fileExists E wild host key = some setting ↔ file.Provides fileExists E wild host key setting := by
  have hdata : ∀ text,
      (∃ data, (Parser.mk (.file file.path) file.user text).parseFileFor E wild (some host) = .ok data ∧ _) ↔ _ :=
    fun text => parseFileFor_data_iff ⟨.file file.path, file.user, text⟩ (some host) key setting
  constructor
  · intro h
    unfold SshConfigFile.get at h
    split at h
    · rename_i hthere
      split at h
      · cases h
      · rename_i text hopen
        split at h
        · cases h
        · rename_i data hparse
          exact ⟨hthere, text, hopen, (hdata text).1 ⟨data, hparse, h⟩⟩
    · cases h
  · rintro ⟨hthere, text, hopen, hread⟩
    obtain ⟨data, hparse, h⟩ := (hdata text).2 hread
    unfold SshConfigFile.get
    rw [hthere]
    simp only
    rw [hopen]
    simp only
    rw [hparse]
    exact h

/-- **What a host stands for**: what the first file with anything to say about it says, or else itself. -/
inductive StandsFor (fileExists : Path → Except Text Bool) (E : Surroundings) (wild : Text → Text → Bool)
    (files : List SshConfigFile) (host : Text) : Text → Prop where
  | renamed (front : List SshConfigFile) (file : SshConfigFile) (back : List SshConfigFile) (setting : Setting)
      (hfiles : files = front ++ file :: back) (hfile : file.Provides fileExists E wild host hostNameKey setting)
      (hfront : ∀ f ∈ front, ∀ s, ¬ f.Provides fileExists E wild host hostNameKey s) :
      StandsFor fileExists E wild files host setting.firstArg
  | itself (hfiles : ∀ f ∈ files, ∀ s, ¬ f.Provides fileExists E wild host hostNameKey s) :
      StandsFor fileExists E wild files host host

theorem get_eq_none_iff (file : SshConfigFile) (host key : Text) :
    file.get fileExists E wild host key = none ↔ ∀ s, ¬ file.Provides fileExists E wild host key s := by
  simp only [Option.eq_none_iff_forall_ne_some, ne_eq, get_eq_some_iff]

/-- A host stands for one name. -/
theorem resolveHostAlias_iff (files : List SshConfigFile) (host name : Text) :
    (resolveHostAlias fileExists E wild files host).getD host = name ↔ StandsFor fileExists E wild files host name := by
  unfold resolveHostAlias sshConfigGet
  constructor
  · rintro rfl
    cases hfind : files.findSome? fun c => c.get fileExists E wild host hostNameKey with
    | none =>
      exact .itself fun f hf => (get_eq_none_iff f host hostNameKey).1 (List.findSome?_eq_none_iff.1 hfind f hf)
    | some setting =>
      obtain ⟨front, file, back, hfiles, hfile, hfront⟩ := List.findSome?_eq_some_iff.1 hfind
      exact .renamed front file back setting hfiles ((get_eq_some_iff file host hostNameKey setting).1 hfile)
        fun f hf =>
        (get_eq_none_iff f host hostNameKey).1 (hfront f hf)
  · intro h
    cases h with
    | renamed front file back setting hfiles hfile hfront =>
      rw [List.findSome?_eq_some_iff.2
        ⟨front, file, back, hfiles, (get_eq_some_iff file host hostNameKey setting).2 hfile,
        fun f hf => (get_eq_none_iff f host hostNameKey).2 (hfront f hf)⟩]
      rfl
    | itself hfiles =>
      rw [List.findSome?_eq_none_iff.2 fun f hf => (get_eq_none_iff f host hostNameKey).2 (hfiles f hf)]
      rfl

end

/-- **The first address of the family.** -/
structure FirstAddress (family : AddressFamily) (addrs : List SocketAddr) (ip : IpAddr) : Prop where
  admits : family.admits ip = true
  first : ∃ front a back, addrs = front ++ a :: back ∧ a.addr = ip ∧ ∀ b ∈ front, family.admits b.addr = false

theorem lookupHostByFamily_ok_iff (resolver : Text → Except Text (List SocketAddr)) (family : AddressFamily)
    (host : Text) (ip : IpAddr) : lookupHostByFamily resolver family host = .ok ip ↔
      ∃ addrs, resolver host = .ok addrs ∧ FirstAddress family addrs ip := by
  unfold lookupHostByFamily
  cases resolver host with
  | error e => simp
  | ok addrs =>
    simp only [Except.ok.injEq, exists_eq_left']
    constructor
    · intro h
      split at h
      · rename_i a ha
        cases h
        obtain ⟨hadmits, front, back, rfl, hfront⟩ := List.find?_eq_some_iff_append.1 ha
        exact ⟨hadmits, front, a, back, rfl, rfl, by simpa using hfront⟩
      · cases h
    · rintro ⟨hadmits, front, a, back, rfl, rfl, hfront⟩
      have hfind : (front ++ a :: back).find? (fun a => family.admits a.addr) = some a :=
        List.find?_eq_some_iff_append.2 ⟨hadmits, front, back, rfl, by simpa using hfront⟩
      rw [hfind]

/-- All jobs are with one host. -/
theorem exists_remoteHost {tree : Path → Root} {args : CliArgs} {success : Bool} {jobs : List CopyJobSpec}
    (h : jobspecs tree args = .ok (success, jobs)) : ∃ host, ∀ job ∈ jobs, job.remoteHost = host := by
  obtain ⟨sources, destination, hc⟩ := checked_of_jobspecs tree args success jobs h
  obtain ⟨host, hosts, hhosts⟩ := List.exists_cons_of_ne_nil hc.hosts_ne_nil
  obtain ⟨direction, hwith⟩ := hc.with_host host (by rw [hhosts]; rfl)
  exact ⟨host, fun job hjob => (hwith job hjob).remoteHost⟩

/-- **The address that a client calls** is that of the host of all its jobs: the first one of the family asked for,
under the name that the first of ssh's files with anything to say about the host has for it. -/
theorem prep_ok_iff (tree : Path → Root) (fileExists : Path → Except Text Bool) (E : Surroundings)
    (wild : Text → Text → Bool) (userSshConfig systemSshConfig : Option Path) (sshConfig : List Path)
    (resolver : Text → Except Text (List SocketAddr)) (family : AddressFamily) (args : CliArgs)
    (r : PrepResult IpAddr) :
    prep tree (resolveHostAlias fileExists E wild (SshConfigFile.files userSshConfig systemSshConfig sshConfig))
        (lookupHostByFamily resolver family) args = .ok r ↔
      jobspecs tree args = .ok (r.fullSuccess, r.jobSpecs) ∧ r.jobSpecs ≠ [] ∧
        ∃ host name addrs, (∀ job ∈ r.jobSpecs, job.remoteHost = host) ∧
          StandsFor fileExists E wild (SshConfigFile.files userSshConfig systemSshConfig sshConfig) host name ∧
          resolver name = .ok addrs ∧ FirstAddress family addrs r.remoteAddress := by
  obtain ⟨remoteAddress, jobSpecs, fullSuccess⟩ := r
  unfold prep
  rcases hj : jobspecs tree args with e | ⟨success, _ | ⟨job, jobs⟩⟩
  · simp
  · constructor
    · intro h
      cases h
    · rintro ⟨h, hne, -⟩
      cases h
      exact absurd rfl hne
  · obtain ⟨host, hhost⟩ := exists_remoteHost hj
    have hstands : ∀ host name, _ ↔ StandsFor fileExists E wild _ host name :=
      resolveHostAlias_iff (SshConfigFile.files userSshConfig systemSshConfig sshConfig)
    have hlookup := lookupHostByFamily_ok_iff resolver family
    constructor
    · intro h
      simp only at h
      split at h
      · cases h
      · rename_i ip hip
        cases h
        obtain ⟨addrs, haddrs, hfirst⟩ := (hlookup _ _).1 hip
        rw [hhost job List.mem_cons_self] at haddrs
        exact ⟨rfl, List.cons_ne_nil _ _, host, _, addrs, hhost, (hstands host _).1 rfl, haddrs, hfirst⟩
    · rintro ⟨h, -, host', name, addrs, hhost', hname, haddrs, hfirst⟩
      cases h
      obtain rfl := (hhost job List.mem_cons_self).symm.trans (hhost' job List.mem_cons_self)
      simp only
      rw [hhost job List.mem_cons_self, (hstands host name).2 hname, (hlookup name remoteAddress).2
        ⟨addrs, haddrs, hfirst⟩]

end Qcp
