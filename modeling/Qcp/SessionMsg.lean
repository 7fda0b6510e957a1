import Qcp.Compat
import Qcp.Decimal
import Qcp.Variant
/-!
# SessionMsg — the messages of the session protocol, and their wire forms

Commands, responses, file headers and trailers and directory listings, each with its `codec`.  Texts and lists that
take few bytes are ones that can be written (`text_wf_of_length`, `list_wf_of_length`), and so is tagged data that is
`Plain`.
-/
namespace Qcp

open Bare

/-! ## Enumerations -/

inductive Status where
  | ok
  | fileNotFound
  | incorrectPermissions
  | directoryDoesNotExist
  | ioError
  | diskFull
  | notYetImplemented
  | itIsADirectory
  | itIsAFile
  | unknownError
  | encodingFailed
deriving DecidableEq, Repr

def Status.toRepr : Status → UInt64
  | ok => 0
  | fileNotFound => 1
  | incorrectPermissions => 2
  | directoryDoesNotExist => 3
  | ioError => 4
  | diskFull => 5
  | notYetImplemented => 6
  | itIsADirectory => 7
  | itIsAFile => 8
  | unknownError => 9
  | encodingFailed => 10

def Status.fromRepr (n : UInt64) : Option Status :=
  [ok, fileNotFound, incorrectPermissions, directoryDoesNotExist, ioError, diskFull, notYetImplemented, itIsADirectory,
    itIsAFile, unknownError, encodingFailed].find? fun s => s.toRepr = n

theorem Status.fromRepr_toRepr (s : Status) : fromRepr s.toRepr = some s := by cases s <;> rfl

def Status.name : Status → Text
  | ok => "Ok".toList
  | fileNotFound => "FileNotFound".toList
  | incorrectPermissions => "IncorrectPermissions".toList
  | directoryDoesNotExist => "DirectoryDoesNotExist".toList
  | ioError => "IoError".toList
  | diskFull => "DiskFull".toList
  | notYetImplemented => "NotYetImplemented".toList
  | itIsADirectory => "ItIsADirectory".toList
  | itIsAFile => "ItIsAFile".toList
  | unknownError => "UnknownError".toList
  | encodingFailed => "EncodingFailed".toList

/-- The text for a status, known or not. -/
def Status.toString (n : UInt64) : Text :=
  match fromRepr n with
  | some s => s.name
  | none => "Unknown status code ".toList ++ Decimal.showNat n.toNat

theorem Status.toRepr_eq_zero_iff (s : Status) : s.toRepr = 0 ↔ s = ok := by
  cases s <;> decide

inductive CommandParam where
  | invalid
  | preserveMetadata
  | recurse
deriving DecidableEq, Repr

def CommandParam.toRepr : CommandParam → UInt64
  | invalid => 0
  | preserveMetadata => 1
  | recurse => 2

inductive MetadataAttr where
  | invalid
  | modeBits
  | accessTime
  | modificationTime
deriving DecidableEq, Repr

namespace MetadataAttr

def toRepr : MetadataAttr → UInt64
  | invalid => 0
  | modeBits => 1
  | accessTime => 2
  | modificationTime => 3

def fromRepr (n : UInt64) : Option MetadataAttr :=
  if n = 0 then some invalid else if n = 1 then some modeBits else if n = 2 then some accessTime
  else if n = 3 then some modificationTime else none

theorem fromRepr_toRepr (a : MetadataAttr) : fromRepr a.toRepr = some a := by cases a <;> rfl

def withUnsigned (a : MetadataAttr) (n : UInt64) : TaggedData := ⟨a.toRepr, .unsigned n⟩

end MetadataAttr

/-- The number in a value, if it holds one. -/
def Variant.asUnsigned : Variant → Option UInt64
  | unsigned u => some u
  | _ => none

/-! ## Messages -/

structure GetArgs where
  filename : Text

structure Get2Args where
  filename : Text
  options : List TaggedData

structure CreateDirectoryArgs where
  dirName : Text
  options : List TaggedData

structure SetMetadataArgs where
  path : Text
  metadata : List TaggedData
  options : List TaggedData

structure ListArgs where
  path : Text
  options : List TaggedData

inductive Command where
  | get (args : GetArgs)
  | put (args : GetArgs)
  | get2 (args : Get2Args)
  | put2 (args : Get2Args)
  | createDirectory (args : CreateDirectoryArgs)
  | setMetadata (args : SetMetadataArgs)
  | list (args : ListArgs)

/-- A response; its status may be one that this build does not know. -/
structure Response where
  status : UInt64
  message : Option Text
deriving DecidableEq, Repr

def Response.display (r : Response) : Text :=
  match r.message with
  | some msg => Status.toString r.status ++ " with message ".toList ++ msg
  | none => Status.toString r.status

structure FileHeaderV1 where
  size : UInt64
  filename : Text

structure FileHeaderV2 where
  size : UInt64
  filename : Text
  metadata : List TaggedData

inductive FileHeader where
  | v1 (h : FileHeaderV1)
  | v2 (h : FileHeaderV2)

def FileHeader.toV2 : FileHeader → FileHeaderV2
  | v1 h => ⟨h.size, h.filename, []⟩
  | v2 h => h

structure FileTrailerV2 where
  metadata : List TaggedData

inductive FileTrailer where
  | v1
  | v2 (t : FileTrailerV2)

def FileTrailer.toV2 : FileTrailer → FileTrailerV2
  | v1 => ⟨[]⟩
  | v2 t => t

structure ListEntry where
  name : Text
  directory : Bool
  size : UInt64
  attributes : List TaggedData

structure ListData where
  entries : List ListEntry
  moreToCome : Bool

/-- The parts of a listing as one. -/
def ListData.join (parts : List ListData) : ListData := ⟨parts.flatMap ListData.entries, false⟩

/-! ## Jobs -/

structure FileSpec where
  userAtHost : Option Text
  filename : Text

/-- What a client is to transfer. -/
structure CopyJobSpec where
  source : FileSpec
  destination : FileSpec
  userAtHost : Text
  preserve : Bool
  directory : Bool
  mode : Option UInt32

/-! ## Wire forms -/

namespace TaggedData

/-- Data without structure of its own: none, or a number. -/
def Plain (t : TaggedData) : Prop := t.data = .empty ∨ ∃ n, t.data = .unsigned n

theorem Plain.wf {t : TaggedData} (h : t.Plain) : codec.wf t := by
  obtain ⟨tag, data⟩ := t
  refine ⟨trivial, ?_⟩
  rcases h with rfl | ⟨n, rfl⟩
  · show Variant.wf .empty
    simp only [Variant.wf]
  · show Variant.wf (.unsigned n)
    simp only [Variant.wf]

theorem enc_length_pos (t : TaggedData) : 0 < (codec.enc t).length := by
  show 0 < (Codec.uint.enc t.tag ++ _).length
  rw [List.length_append]
  have := Variant.uint_enc_length_pos t.tag
  omega

end TaggedData

theorem length_le_flatMap {α : Type} (e : α → Bytes) (h : ∀ a, 0 < (e a).length) : ∀ (as : List α),
    as.length ≤ (as.flatMap e).length
  | [] => Nat.le_refl 0
  | a :: as => by
    rw [List.flatMap_cons, List.length_append, List.length_cons]
    have := h a
    have := length_le_flatMap e h as
    omega

theorem length_le_of_mem_flatMap {α : Type} (e : α → Bytes) (as : List α) (a : α) (h : a ∈ as) :
    (e a).length ≤ (as.flatMap e).length := by
  obtain ⟨s, t, rfl⟩ := List.append_of_mem h
  rw [List.flatMap_append, List.flatMap_cons, List.length_append, List.length_append]
  omega

theorem list_enc_length {α : Type} (c : Codec α) (as : List α) :
    (as.flatMap c.enc).length ≤ ((Codec.list c).enc as).length := by
  show _ ≤ (Codec.uint.enc (UInt64.ofNat as.length) ++ as.flatMap c.enc).length
  rw [List.length_append]
  omega

/-- A text that takes few bytes is one that can be written. -/
theorem text_wf_of_length (s : Text) (h : (Codec.text.enc s).length < 2 ^ 64) : Codec.text.wf s := by
  show (Codec.encText s).length < 2 ^ 64
  have hd : ((Codec.encText s).flatMap Codec.u8.enc).length ≤ (Codec.text.enc s).length := list_enc_length Codec.u8 _
  have := length_le_flatMap Codec.u8.enc (fun _ => Nat.one_pos) (Codec.encText s)
  omega

/-- So is a list of values that can be. -/
theorem list_wf_of_length {α : Type} (c : Codec α) (as : List α) (hp : ∀ a, 0 < (c.enc a).length)
    (hw : ∀ a ∈ as, (c.enc a).length ≤ ((Codec.list c).enc as).length → c.wf a)
    (h : ((Codec.list c).enc as).length < 2 ^ 64) : (Codec.list c).wf as := by
  have hf := list_enc_length c as
  refine ⟨?_, fun a ha => hw a ha ?_⟩
  · have := length_le_flatMap c.enc hp as
    omega
  · exact (length_le_of_mem_flatMap c.enc as a ha).trans hf

theorem plain_wf_of_length (tds : List TaggedData) (hp : ∀ t ∈ tds, t.Plain)
    (h : ((Codec.list TaggedData.codec).enc tds).length < 2 ^ 64) : (Codec.list TaggedData.codec).wf tds :=
  list_wf_of_length _ tds TaggedData.enc_length_pos (fun t ht _ => (hp t ht).wf) h

/-! ### Sizes -/

theorem uint_enc_length_le (n : UInt64) : (Codec.uint.enc n).length ≤ 10 :=
  Bare.encVar_length_le 9 9 n.toNat (Nat.lt_trans n.toNat_lt (by decide))

theorem TaggedData.Plain.enc_length_le {t : TaggedData} (h : t.Plain) : (TaggedData.codec.enc t).length ≤ 30 := by
  show (Codec.uint.enc t.tag ++ Variant.enc t.data).length ≤ 30
  have htag := uint_enc_length_le t.tag
  rw [List.length_append]
  rcases h with hd | ⟨n, hd⟩
  · rw [hd, Variant.enc]
    have := uint_enc_length_le 0
    omega
  · rw [hd, Variant.enc, List.length_append]
    have := uint_enc_length_le 3
    have := uint_enc_length_le n
    omega

theorem plain_flatMap_length_le (ts : List TaggedData) (h : ∀ t ∈ ts, t.Plain) :
    (ts.flatMap TaggedData.codec.enc).length ≤ 30 * ts.length := by
  induction ts with
  | nil => exact Nat.le_refl 0
  | cons t ts ih =>
    rw [List.forall_mem_cons] at h
    have ht := h.1.enc_length_le
    have := ih h.2
    rw [List.flatMap_cons, List.length_append, List.length_cons]
    omega

theorem data_enc_length_le (bs : Bytes) : (Codec.data.enc bs).length ≤ 10 + bs.length := by
  show (Codec.uint.enc (UInt64.ofNat bs.length) ++ bs.flatMap Codec.u8.enc).length ≤ _
  have hone : (bs.flatMap Codec.u8.enc).length = bs.length := by
    induction bs with
    | nil => rfl
    | cons b bs ih => rw [List.flatMap_cons, List.length_append, ih, List.length_cons, Nat.add_comm]; rfl
  rw [List.length_append, hone]
  have := uint_enc_length_le (UInt64.ofNat bs.length)
  omega

theorem text_enc_length_le (s : Text) : (Codec.text.enc s).length ≤ 10 + (Codec.encText s).length :=
  data_enc_length_le _

/-- A character takes four bytes at most. -/
theorem encText_length_le (s : Text) : (Codec.encText s).length ≤ 4 * s.length := by
  unfold Codec.encText
  induction s with
  | nil => exact Nat.le_refl 0
  | cons c s ih =>
    have hc : (String.utf8EncodeChar c).length = c.utf8Size := String.length_utf8EncodeChar c
    have := c.utf8Size_le_four
    rw [List.flatMap_cons, List.length_append, List.length_cons]
    omega

/-! ### The messages -/

def taggedList : Codec (List TaggedData) := Codec.list TaggedData.codec

def GetArgs.codec : Codec GetArgs := Codec.text.iso GetArgs.mk GetArgs.filename fun _ => rfl

def Get2Args.codec : Codec Get2Args :=
  (Codec.text.pair taggedList).iso (fun p => ⟨p.1, p.2⟩) (fun a => (a.filename, a.options)) fun _ => rfl

def CreateDirectoryArgs.codec : Codec CreateDirectoryArgs :=
  (Codec.text.pair taggedList).iso (fun p => ⟨p.1, p.2⟩) (fun a => (a.dirName, a.options)) fun _ => rfl

def SetMetadataArgs.codec : Codec SetMetadataArgs :=
  (Codec.text.pair (taggedList.pair taggedList)).iso (fun p => ⟨p.1, p.2.1, p.2.2⟩)
    (fun a => (a.path, a.metadata, a.options)) fun _ => rfl

def ListArgs.codec : Codec ListArgs :=
  (Codec.text.pair taggedList).iso (fun p => ⟨p.1, p.2⟩) (fun a => (a.path, a.options)) fun _ => rfl

namespace Command

def tag : Command → UInt64
  | get _ => 0
  | put _ => 1
  | get2 _ => 2
  | put2 _ => 3
  | createDirectory _ => 4
  | setMetadata _ => 5
  | list _ => 6

def body : Command → Bytes
  | get a | put a => GetArgs.codec.enc a
  | get2 a | put2 a => Get2Args.codec.enc a
  | createDirectory a => CreateDirectoryArgs.codec.enc a
  | setMetadata a => SetMetadataArgs.codec.enc a
  | list a => ListArgs.codec.enc a

def arm (t : UInt64) : Decoder Command :=
  if t = 0 then get <$> GetArgs.codec.dec else if t = 1 then put <$> GetArgs.codec.dec
  else if t = 2 then get2 <$> Get2Args.codec.dec else if t = 3 then put2 <$> Get2Args.codec.dec
  else if t = 4 then createDirectory <$> CreateDirectoryArgs.codec.dec
  else if t = 5 then setMetadata <$> SetMetadataArgs.codec.dec
  else if t = 6 then list <$> ListArgs.codec.dec else fail

def wf : Command → Prop
  | get a | put a => GetArgs.codec.wf a
  | get2 a | put2 a => Get2Args.codec.wf a
  | createDirectory a => CreateDirectoryArgs.codec.wf a
  | setMetadata a => SetMetadataArgs.codec.wf a
  | list a => ListArgs.codec.wf a

def codec : Codec Command := Codec.union tag body arm wf fun c h => by
  cases c with
  | get a => exact (GetArgs.codec.decodes a h).map get
  | put a => exact (GetArgs.codec.decodes a h).map put
  | get2 a => exact (Get2Args.codec.decodes a h).map get2
  | put2 a => exact (Get2Args.codec.decodes a h).map put2
  | createDirectory a => exact (CreateDirectoryArgs.codec.decodes a h).map createDirectory
  | setMetadata a => exact (SetMetadataArgs.codec.decodes a h).map setMetadata
  | list a => exact (ListArgs.codec.decodes a h).map list

end Command

def Response.body : Codec Response :=
  (Codec.uint.pair (Codec.option Codec.text)).iso (fun p => ⟨p.1, p.2⟩) (fun r => (r.status, r.message)) fun _ => rfl

/-- A response is the only arm of its union. -/
def Response.codec : Codec Response :=
  Codec.union (fun _ => 0) body.enc (fun t => if t = 0 then body.dec else fail) body.wf fun r h => body.decodes r h

def FileHeaderV1.codec : Codec FileHeaderV1 :=
  (Codec.uint.pair Codec.text).iso (fun p => ⟨p.1, p.2⟩) (fun h => (h.size, h.filename)) fun _ => rfl

def FileHeaderV2.codec : Codec FileHeaderV2 :=
  (Codec.uint.pair (Codec.text.pair taggedList)).iso (fun p => ⟨p.1, p.2.1, p.2.2⟩)
    (fun h => (h.size, h.filename, h.metadata)) fun _ => rfl

namespace FileHeader

def wf : FileHeader → Prop
  | v1 h => FileHeaderV1.codec.wf h
  | v2 h => FileHeaderV2.codec.wf h

def tag : FileHeader → UInt64
  | v1 _ => 0
  | v2 _ => 1

def body : FileHeader → Bytes
  | v1 h => FileHeaderV1.codec.enc h
  | v2 h => FileHeaderV2.codec.enc h

def arm (t : UInt64) : Decoder FileHeader :=
  if t = 0 then v1 <$> FileHeaderV1.codec.dec else if t = 1 then v2 <$> FileHeaderV2.codec.dec else fail

def codec : Codec FileHeader := Codec.union tag body arm wf fun h hw => by
  cases h with
  | v1 h => exact (FileHeaderV1.codec.decodes h hw).map v1
  | v2 h => exact (FileHeaderV2.codec.decodes h hw).map v2

end FileHeader

def FileTrailerV2.codec : Codec FileTrailerV2 :=
  taggedList.iso FileTrailerV2.mk FileTrailerV2.metadata fun _ => rfl

namespace FileTrailer

def wf : FileTrailer → Prop
  | v1 => True
  | v2 t => FileTrailerV2.codec.wf t

def tag : FileTrailer → UInt64
  | v1 => 0
  | v2 _ => 1

def body : FileTrailer → Bytes
  | v1 => []
  | v2 t => FileTrailerV2.codec.enc t

def arm (t : UInt64) : Decoder FileTrailer :=
  if t = 0 then pure v1 else if t = 1 then v2 <$> FileTrailerV2.codec.dec else fail

def codec : Codec FileTrailer := Codec.union tag body arm wf fun t hw => by
  cases t with
  | v1 => exact Decodes.pure _
  | v2 t => exact (FileTrailerV2.codec.decodes t hw).map v2

end FileTrailer

def ListEntry.codec : Codec ListEntry :=
  (Codec.text.pair (Codec.bool.pair (Codec.uint.pair taggedList))).iso (fun p => ⟨p.1, p.2.1, p.2.2.1, p.2.2.2⟩)
    (fun e => (e.name, e.directory, e.size, e.attributes)) fun _ => rfl

def ListData.codec : Codec ListData :=
  ((Codec.list ListEntry.codec).pair Codec.bool).iso (fun p => ⟨p.1, p.2⟩) (fun l => (l.entries, l.moreToCome))
    fun _ => rfl

end Qcp
