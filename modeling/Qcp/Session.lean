import Qcp.Config
import Qcp.FileExt
/-!
# Session — the requests, on either side of a stream

For each request the program a client runs (`sendImpl`) and the program a server answers it with (`handleImpl`).
`handleStream` is a server's side of one stream: it reads the command and runs its handler.
-/
namespace Qcp

open Bare (Bytes Text)
open Posix (Path)
open Proc (Task View Ok)

/-! ## What the handlers share -/

/-- What a handler knows besides its stream; and whether the program was built to stop at an overflow. -/
structure SessionCommandInner where
  compat : Compatibility
  config : Configuration
  overflowChecks : Bool

/-- What a finished request leaves to its caller. -/
structure RequestResult where
  payloadBytes : UInt64
  list : Option ListData

def RequestResult.default : RequestResult := ⟨0, none⟩

/-- Why a server refuses a request. -/
inductive Refusal where
  | status (s : Status)
  | io (e : IoError)
  | other (text : Text)

def ioErrorToStatus (io : IoError) : Status × Option Text :=
  match io.kind with
  | .notFound => (.fileNotFound, none)
  | .permissionDenied => (.incorrectPermissions, none)
  | .isADirectory => (.itIsADirectory, none)
  | .storageFull => (.diskFull, none)
  | _ => (.ioError, some io.text)

def errorToStatus : Refusal → Status × Option Text
  | .status st => (st, none)
  | .io io => ioErrorToStatus io
  | .other text => (.unknownError, some text)

theorem ioErrorToStatus_ne_ok (io : IoError) : (ioErrorToStatus io).1 ≠ .ok := by
  unfold ioErrorToStatus
  split <;> exact nofun

/-- A refusal is never said with the status of success. -/
theorem errorToStatus_ne_ok (r : Refusal) (h : r ≠ .status .ok) : (errorToStatus r).1 ≠ .ok := by
  cases r with
  | status s => exact fun hs => h (congrArg Refusal.status hs)
  | io e => exact ioErrorToStatus_ne_ok e
  | other t => exact nofun

section Shared

variable {H : Host}

def sendResponse (status : Status) (message : Option Text) : Act H Unit :=
  toWriterFramed Response.form ⟨status.toRepr, message⟩

def sendOk : Act H Unit := sendResponse .ok none

/-- Answers with an error and is done. -/
def errorAndReturn (err : Refusal) : Act H Unit := sendResponse (errorToStatus err).1 (errorToStatus err).2

/-- A response as an outcome. -/
def intoResult (r : Response) : Act H Response :=
  if r.status = Status.ok.toRepr then pure r else Task.fail (.response r)

def unwrapNoneText : Text := "called `Option::unwrap()` on a `None` value".toList

/-- The name of a file as the protocol has it: the last component of its path. -/
def protocolFilename (path : Path) : Act H Text :=
  match Posix.fileName path with
  | some name => pure name
  | none => Task.fail (.panicked unwrapNoneText)

def ensure (c : Bool) (text : Text) : Act H Unit := if c then pure () else Task.fail (.other text)

/-- The length of a progress bar, which is added up from numbers of any size. -/
def progressBarFor (inner : SessionCommandInner) (steps : Nat) : Act H Unit :=
  if inner.overflowChecks && decide (2 ^ 64 ≤ steps) then
    Task.fail (.panicked "attempt to add with overflow".toList)
  else pure ()

/-- The data of an option that was given. -/
def findOption (options : List TaggedData) (tag : CommandParam) : Option Variant := findTag options tag.toRepr

def CommandParam.tagged (p : CommandParam) : TaggedData := ⟨p.toRepr, .empty⟩

end Shared

/-! ## GET -/

namespace GetHandler

variable {H : Host}

def command (inner : SessionCommandInner) (job : CopyJobSpec) : Command :=
  if inner.compat.supports .get2Put2 then
    .get2 ⟨job.source.filename, if job.preserve then [CommandParam.preserveMetadata.tagged] else []⟩
  else .get ⟨job.source.filename⟩

def sendImpl (inner : SessionCommandInner) (job : CopyJobSpec) : Act H RequestResult := do
  toWriterFramed Command.form (command inner job)
  Act.flush
  let _ ← intoResult (← fromReaderFramed Response.form)
  let header := (← fromReaderFramed FileHeader.form).toV2
  let file ← Act.ofExcept .io (← createOrTruncate job.destination.filename header)
  progressBarFor inner (header.size.toNat + 17)
  let _ ← Act.ofExcept .io (← copyIn header.size.toNat file inner.config.ioBufferSize.toNat)
  let trailer := (← fromReaderFramed FileTrailer.form).toV2
  Act.ofExcept .io (← TokioFile.flush file)
  updateMetadata file trailer.metadata
  return ⟨header.size, none⟩

def handleImpl (inner : SessionCommandInner) (args : Get2Args) : Act H Unit := do
  match ← openWithMeta args.filename with
  | .error e => errorAndReturn (.io e)
  | .ok (file, originalMeta) =>
    if originalMeta.isDir then errorAndReturn (.status .itIsADirectory)
    else
      sendOk
      let name ← protocolFilename args.filename
      toWriterFramed FileHeader.form (.forFile inner.compat originalMeta name)
      match ← copyOut file inner.config.ioBufferSize.toNat with
      | .error _ => Task.fail (.other "copy ended prematurely".toList)
      | .ok sent =>
        ensure (sent = originalMeta.len.toNat) "logic error: file sent size doesn't match metadata".toList
        let preserve := (findOption args.options .preserveMetadata).isSome
        toWriterFramed FileTrailer.form (.forFile inner.compat originalMeta preserve)
        Act.flush

end GetHandler

/-! ## PUT -/

namespace PutHandler

variable {H : Host}

def command (inner : SessionCommandInner) (job : CopyJobSpec) : Command :=
  if inner.compat.supports .get2Put2 then
    .put2 ⟨job.destination.filename, if job.preserve then [CommandParam.preserveMetadata.tagged] else []⟩
  else .put ⟨job.destination.filename⟩

/-- After a failed write: what the server may have had to say. -/
def explainFailure (e : IoError) : Act H RequestResult :=
  if e.kind = .connectionReset then do
    match ← (fromReaderFramed Response.form : Act H Response).attempt with
    | .error _ => Task.fail (.other "connection closed unexpectedly".toList)
    | .ok response => Task.fail (.other ("remote closed connection: Uint(".toList ++
        Decimal.showNat response.status.toNat ++ "): ".toList ++ response.message.getD "(no message)".toList))
  else Task.fail (.io e)

def sizeText (sent len : Nat) : Text :=
  "File sent size ".toList ++ Decimal.showNat sent ++ " doesn't match its metadata ".toList ++ Decimal.showNat len

/-- The last word of the server. -/
def ensureComplete (srcFilename : Path) (response : Response) : Act H Unit :=
  ensure (response.status = Status.ok.toRepr) ("PUTx (".toList ++ srcFilename ++
    ") failed on completion check: ".toList ++ response.display)

def sendImpl (inner : SessionCommandInner) (job : CopyJobSpec) : Act H RequestResult := do
  let (file, srcMeta) ← Act.ofExcept .io (← openWithMeta job.source.filename)
  if srcMeta.isDir then Task.fail (.other "PUT: Source is a directory".toList)
  else
    progressBarFor inner (srcMeta.len.toNat + 48 + 36 + 16 + 2 * (Bare.Codec.encText job.destination.filename).length)
    toWriterFramed Command.form (command inner job)
    Act.flush
    let name ← protocolFilename job.source.filename
    toWriterFramed FileHeader.form (.forFile inner.compat srcMeta name)
    let _ ← intoResult (← fromReaderFramed Response.form)
    match ← copyOut file inner.config.ioBufferSize.toNat with
    | .error e => explainFailure e
    | .ok sent =>
      ensure (sent = srcMeta.len.toNat) (sizeText sent srcMeta.len.toNat)
      toWriterFramed FileTrailer.form (.forFile inner.compat srcMeta job.preserve)
      Act.flush
      ensureComplete job.source.filename (← fromReaderFramed Response.form)
      return ⟨srcMeta.len, none⟩

/-- Whether the name in the header is to be added to the destination; nothing if the destination cannot be written. -/
def appendFilename (destination : Path) : Act H (Option Bool) := do
  if destination = [] ∨ destination = Posix.dot then return some true
  else
    let extant ← if ← Fs.isDir destination then pure true else Fs.isFile destination
    if extant then return some (← Fs.isDir destination)
    else if Posix.endsWithSep destination then return none
    else
      let parentDir := Posix.pop destination
      let parentDir := if parentDir = [] then Posix.dot else parentDir
      if ← Fs.isDir parentDir then return some false else return none

def handleImpl (inner : SessionCommandInner) (args : Get2Args) : Act H Unit := do
  match ← appendFilename args.filename with
  | none => errorAndReturn (.status .directoryDoesNotExist)
  | some append =>
    let header := (← fromReaderFramed FileHeader.form).toV2
    let path := if append then Posix.push args.filename header.filename else args.filename
    match ← createOrTruncate path header with
    | .error e => errorAndReturn (.io e)
    | .ok file =>
      sendOk
      Act.flush
      match ← copyIn header.size.toNat file inner.config.ioBufferSize.toNat with
      | .error e => errorAndReturn (.io e)
      | .ok _ =>
        let trailer := (← fromReaderFramed FileTrailer.form).toV2
        Act.ofExcept .io (← TokioFile.flush file)
        updateMetadata file trailer.metadata
        sendOk
        Act.flush

end PutHandler

/-! ## Directories -/

def notSupportedText : Text := "Operation not supported by remote".toList

namespace CreateDirectoryHandler

variable {H : Host}

def sendImpl (inner : SessionCommandInner) (job : CopyJobSpec) : Act H RequestResult := do
  ensure (inner.compat.supports .mkdirSetmetaLs) notSupportedText
  ensure job.destination.userAtHost.isSome "logic error: mkdir called for local destination".toList
  toWriterFramed Command.form (.createDirectory ⟨job.destination.filename, []⟩)
  Act.flush
  let _ ← intoResult (← fromReaderFramed Response.form)
  return .default

def handleImpl (args : CreateDirectoryArgs) : Act H Unit := do
  match ← Fs.metadata args.dirName with
  | .ok info =>
    if info.isFile then errorAndReturn (.status .itIsAFile)
    else if info.isDir then sendOk
    else Task.fail (.other ("mkdir: existing entity \"".toList ++ args.dirName ++
      "\" is neither file nor directory".toList))
  | .error _ =>
    match ← Fs.createDir args.dirName with
    | .error e => errorAndReturn (.io e)
    | .ok _ => sendOk

end CreateDirectoryHandler

namespace SetMetadataHandler

variable {H : Host}

def sendImpl (inner : SessionCommandInner) (job : CopyJobSpec) : Act H RequestResult := do
  ensure (inner.compat.supports .mkdirSetmetaLs) notSupportedText
  let localmeta ← Act.ofExcept .io (← Fs.metadata job.source.filename)
  ensure localmeta.isDir "SetMetadata currently only supports directories".toList
  toWriterFramed Command.form
    (.setMetadata ⟨job.destination.filename, localmeta.taggedDataForDir inner.compat, []⟩)
  Act.flush
  let _ ← intoResult (← fromReaderFramed Response.form)
  return .default

/-- The items of metadata, one by one; the first that cannot be applied ends it. -/
def applyAll (path : Path) : List TaggedData → Act H Unit
  | [] => sendOk
  | md :: mds =>
    match md.metadataAttr with
    | none | some .invalid => applyAll path mds
    | some .modeBits =>
      match md.data.asUnsigned with
      | none => applyAll path mds
      | some mode => do
        match ← Fs.setPermissions path (modeOf mode) with
        | .error e => errorAndReturn (.io e)
        | .ok _ => applyAll path mds
    | some .accessTime => Task.fail (.other "unknown metadata tag AccessTime".toList)
    | some .modificationTime => Task.fail (.other "unknown metadata tag ModificationTime".toList)

def handleImpl (args : SetMetadataArgs) : Act H Unit := do
  match ← Fs.metadata args.path with
  | .error e => errorAndReturn (.io e)
  | .ok localmeta =>
    if localmeta.isDir then applyAll args.path args.metadata else errorAndReturn (.status .itIsAFile)

end SetMetadataHandler

/-! ## Listings -/

/-- An entry of a listing: the mode is told of directories only. -/
def ListEntry.ofDirEntry (e : DirEntry) : ListEntry where
  name := e.path
  directory := e.directory
  size := (e.info.map Metadata.len).getD 0
  attributes := if e.directory then (e.info.map fun m => MetadataAttr.newMode m.mode).toList else []

namespace ListData

/-- The entries that go into a packet, and those that are left. -/
def takeFitting (maxSize : Nat) : Nat → List ListEntry → List ListEntry × List ListEntry
  | _, [] => ([], [])
  | size, e :: es =>
    if size + (ListEntry.codec.enc e).length > maxSize then ([], e :: es)
    else
      let (fitting, left) := takeFitting maxSize (size + (ListEntry.codec.enc e).length) es
      (e :: fitting, left)

/-- The size a packet starts with: an empty one's, and what its length may come to take. -/
def baseSize : Nat := (codec.enc ⟨[], false⟩).length + 7

/-- At most so many packets. -/
def packets (maxSize : Nat) : Nat → List ListEntry → Option (List ListData)
  | _, [] => some []
  | 0, _ :: _ => none
  | k + 1, e :: es =>
    let (fitting, left) := takeFitting maxSize baseSize (e :: es)
    (packets maxSize k left).map (⟨fitting, !left.isEmpty⟩ :: ·)

/-- The parts of a listing; none if an entry fits no packet, for then there is no end to empty ones. -/
def splitBySize (l : ListData) (maxSize : Nat) : Option (List ListData) :=
  if (codec.enc l).length ≤ maxSize then some [l] else packets maxSize l.entries.length l.entries

end ListData

namespace ListingHandler

variable {H : Host}

def sendImpl (inner : SessionCommandInner) (job : CopyJobSpec) (recurse : Bool) : Act H RequestResult := do
  ensure (inner.compat.supports .mkdirSetmetaLs) notSupportedText
  toWriterFramed Command.form
    (.list ⟨job.source.filename, if recurse then [CommandParam.recurse.tagged] else []⟩)
  Act.flush
  let _ ← intoResult (← fromReaderFramed Response.form)
  let data ← Task.loop (fun (data : List ListData) => do
    let packet ← fromReaderFramed ListData.form
    if packet.moreToCome then return .inl (data ++ [packet]) else return .inr (data ++ [packet])) []
  return ⟨0, some (ListData.join data)⟩

/-- The packets, one after another. -/
def sendAll : List ListData → Act H Unit
  | [] => Act.flush
  | p :: ps => do
    toWriterFramed ListData.form p
    sendAll ps

def handleImpl (args : ListArgs) : Act H Unit := do
  let recurse := (findOption args.options .recurse).isSome
  match ← Fs.metadata args.path with
  | .error e => errorAndReturn (.io e)
  | .ok info =>
    if info.isFile then
      sendOk
      toWriterFramed ListData.form ⟨[⟨args.path, false, info.len, []⟩], false⟩
    else
      match ← Fs.walkDir args.path recurse with
      | .error e => errorAndReturn (.other e)
      | .ok entries =>
        match (ListData.mk (entries.map ListEntry.ofDirEntry) false).splitBySize wireEncodingLimit with
        | none => Task.hang
        | some packets =>
          sendOk
          sendAll packets

end ListingHandler

/-! ## Both ends of a stream -/

/-- The handler for a command; a command of the first version is one without options. -/
def commandHandler {H : Host} (inner : SessionCommandInner) : Command → Act H Unit
  | .get args => GetHandler.handleImpl inner ⟨args.filename, []⟩
  | .get2 args => GetHandler.handleImpl inner args
  | .put args => PutHandler.handleImpl inner ⟨args.filename, []⟩
  | .put2 args => PutHandler.handleImpl inner args
  | .createDirectory args => CreateDirectoryHandler.handleImpl args
  | .setMetadata args => SetMetadataHandler.handleImpl args
  | .list args => ListingHandler.handleImpl args

/-- A server's side of a stream. -/
def handleStream {H : Host} (inner : SessionCommandInner) : Act H Unit := do
  match ← (fromReaderFramed Command.form : Act H Command).attempt with
  | .ok command => commandHandler inner command
  | .error (.recv (.short e)) => if e.kind = .unexpectedEof then return () else Task.fail (.recv (.short e))
  | .error e => Task.fail e

/-- What a client asks for on a stream. -/
inductive Request where
  | get (job : CopyJobSpec)
  | put (job : CopyJobSpec)
  | createDirectory (job : CopyJobSpec)
  | setMetadata (job : CopyJobSpec)
  | list (job : CopyJobSpec) (recurse : Bool)

/-- A client's side of a stream. -/
def Request.sendImpl {H : Host} (inner : SessionCommandInner) : Request → Act H RequestResult
  | .get job => GetHandler.sendImpl inner job
  | .put job => PutHandler.sendImpl inner job
  | .createDirectory job => CreateDirectoryHandler.sendImpl inner job
  | .setMetadata job => SetMetadataHandler.sendImpl inner job
  | .list job recurse => ListingHandler.sendImpl inner job recurse

/-! ## Rules -/

section Rules

variable {H : Host} {I : View H.sig → Prop} {v : View H.sig}

theorem Ok.intoResult {r : Response} {Q : Response → View H.sig → Prop} (hi : I v)
    (h : r.status = Status.ok.toRepr → Q r v) : Ok I Q (Qcp.intoResult r : Act H Response) v := by
  unfold Qcp.intoResult
  split
  · rename_i hs; exact Ok.pure hi (h hs)
  · exact Ok.fail hi

theorem Ok.ensure {c : Bool} {text : Text} {Q : Unit → View H.sig → Prop} (hi : I v) (h : c = true → Q () v) :
    Ok I Q (Qcp.ensure c text : Act H Unit) v := by
  unfold Qcp.ensure
  split
  · rename_i hc; exact Ok.pure hi (h hc)
  · exact Ok.fail hi

theorem Ok.progressBarFor {inner : SessionCommandInner} {steps : Nat} {Q : Unit → View H.sig → Prop} (hi : I v)
    (h : Q () v) : Ok I Q (Qcp.progressBarFor inner steps : Act H Unit) v := by
  unfold Qcp.progressBarFor
  split
  · exact Ok.fail hi
  · exact Ok.pure hi h

theorem Ok.protocolFilename {path : Path} {Q : Text → View H.sig → Prop} (hi : I v)
    (h : ∀ name, Posix.fileName path = some name → Q name v) : Ok I Q (Qcp.protocolFilename path : Act H Text) v := by
  unfold Qcp.protocolFilename
  split
  · rename_i name hn; exact Ok.pure hi (h name hn)
  · exact Ok.fail hi

end Rules

end Qcp
