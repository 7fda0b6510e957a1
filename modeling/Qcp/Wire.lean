import Qcp.ControlMsg
import Qcp.Host
import Qcp.Runs
import Qcp.SessionMsg
/-!
# Wire — what either side sends, and how

Everything that goes over a stream is a `Msg`.  All but the banner and the payload of a file are framed: a `Form` says
how a type is encoded and how long it may be, `toWriterFramed` and `fromReaderFramed` write and read it, and
`Ok.writer` and `Ok.reader` are their rules.  `readsBack_of_fits` says that what is short enough to be sent reads
back, for each message of the session protocol.
-/
namespace Qcp

open Bare (Bytes Text Codec)
open Proc (Sig Task View Local Ok Ends Gives Comes)
open Frame (frame RecvError)

inductive Msg where
  | banner (text : Text)
  | clientGreeting (g : ClientGreeting)
  | serverGreeting (g : ServerGreeting)
  | clientMessage (m : ClientMessage)
  | serverMessage (m : ServerMessage)
  | command (c : Command)
  | response (r : Response)
  | fileHeader (h : FileHeader)
  | fileTrailer (t : FileTrailer)
  | listData (l : ListData)
  | payload (bs : Bytes)

namespace Msg

def enc : Msg → Bytes
  | banner text => Codec.encText text
  | clientGreeting g => frame (ClientGreeting.codec.enc g)
  | serverGreeting g => frame (ServerGreeting.codec.enc g)
  | clientMessage m => frame (ClientMessage.codec.enc m)
  | serverMessage m => frame (ServerMessage.codec.enc m)
  | command c => frame (Command.codec.enc c)
  | response r => frame (Response.codec.enc r)
  | fileHeader h => frame (FileHeader.codec.enc h)
  | fileTrailer t => frame (FileTrailer.codec.enc t)
  | listData l => frame (ListData.codec.enc l)
  | payload bs => bs

/-- The payload of a file is not a message of its own. -/
def isMessage : Msg → Bool
  | payload _ => false
  | _ => true

end Msg

/-- What either side is, to its programs. -/
@[reducible] def Host.sig (H : Host) : Sig := ⟨Msg, Msg.enc, IoError, Op, Op.Ret, World, H.sem⟩

/-! ## Framed messages -/

/-- How a type is framed. -/
structure Form (α : Type) extends Frame.Wire α where
  msg : α → Msg
  enc_msg : ∀ a, (msg a).enc = frame (codec.enc a)

def wireEncodingLimit : Nat := 1048576

def ClientGreeting.form : Form ClientGreeting := ⟨⟨codec, 4096, by decide⟩, .clientGreeting, fun _ => rfl⟩

def ServerGreeting.form : Form ServerGreeting := ⟨⟨codec, 4096, by decide⟩, .serverGreeting, fun _ => rfl⟩

def ClientMessage.form : Form ClientMessage := ⟨⟨codec, wireEncodingLimit, by decide⟩, .clientMessage, fun _ => rfl⟩

def ServerMessage.form : Form ServerMessage := ⟨⟨codec, wireEncodingLimit, by decide⟩, .serverMessage, fun _ => rfl⟩

def Command.form : Form Command := ⟨⟨codec, wireEncodingLimit, by decide⟩, .command, fun _ => rfl⟩

def Response.form : Form Response := ⟨⟨codec, 65536, by decide⟩, .response, fun _ => rfl⟩

def FileHeader.form : Form FileHeader := ⟨⟨codec, 65536, by decide⟩, .fileHeader, fun _ => rfl⟩

def FileTrailer.form : Form FileTrailer := ⟨⟨codec, 65536, by decide⟩, .fileTrailer, fun _ => rfl⟩

def ListData.form : Form ListData := ⟨⟨codec, wireEncodingLimit, by decide⟩, .listData, fun _ => rfl⟩

/-- Short enough to be sent. -/
def Form.Fits {α : Type} (F : Form α) (a : α) : Prop := (F.codec.enc a).length ≤ F.limit

instance {α : Type} (F : Form α) (a : α) : Decidable (F.Fits a) := inferInstanceAs (Decidable (_ ≤ _))

theorem Form.Fits.lt {α : Type} {F : Form α} {a : α} (h : F.Fits a) : (F.codec.enc a).length < 2 ^ 32 :=
  Nat.lt_of_le_of_lt h F.limit_lt

/-! ## What fits reads back -/

/-- A message of which all that is sent reads back. -/
def Form.ReadsBack {α : Type} (F : Form α) (a : α) : Prop := F.codec.decode (F.codec.enc a) = some a

theorem Form.readsBack_of_wf {α : Type} {F : Form α} {a : α} (h : F.codec.wf a) : F.ReadsBack a :=
  F.codec.decode_enc a h

/-- A text, and then data without structure. -/
theorem textPlain_wf (s : Text) (tds : List TaggedData) (hp : ∀ t ∈ tds, t.Plain)
    (h : ((Codec.text.pair taggedList).enc (s, tds)).length < 2 ^ 64) : (Codec.text.pair taggedList).wf (s, tds) := by
  have hl : (Codec.text.enc s).length + (taggedList.enc tds).length < 2 ^ 64 := by
    rw [← List.length_append]; exact h
  exact ⟨text_wf_of_length s (by omega), plain_wf_of_length tds hp (by unfold taggedList at hl; omega)⟩

namespace Command

/-- The tagged data a command carries. -/
def tagged : Command → List TaggedData
  | get _ | put _ => []
  | get2 a | put2 a => a.options
  | createDirectory a => a.options
  | setMetadata a => a.metadata ++ a.options
  | list a => a.options

theorem readsBack_of_fits (c : Command) (hp : ∀ t ∈ c.tagged, t.Plain) (h : form.Fits c) : form.ReadsBack c := by
  have hl : c.body.length < 2 ^ 64 := by
    have h1 : (Codec.uint.enc c.tag ++ c.body).length < 2 ^ 32 := h.lt
    rw [List.length_append] at h1
    omega
  apply Form.readsBack_of_wf
  show c.wf
  cases c with
  | get a => exact text_wf_of_length a.filename hl
  | put a => exact text_wf_of_length a.filename hl
  | get2 a => exact textPlain_wf a.filename a.options hp hl
  | put2 a => exact textPlain_wf a.filename a.options hp hl
  | createDirectory a => exact textPlain_wf a.dirName a.options hp hl
  | list a => exact textPlain_wf a.path a.options hp hl
  | setMetadata a =>
    have hb : (Codec.text.enc a.path ++ (taggedList.enc a.metadata ++ taggedList.enc a.options)).length < 2 ^ 64 := hl
    rw [List.length_append, List.length_append] at hb
    have hm : (taggedList.enc a.metadata).length < 2 ^ 64 := by omega
    have ho : (taggedList.enc a.options).length < 2 ^ 64 := by omega
    exact ⟨text_wf_of_length a.path (by omega),
      plain_wf_of_length a.metadata (fun t ht => hp t (List.mem_append_left _ ht)) hm,
      plain_wf_of_length a.options (fun t ht => hp t (List.mem_append_right _ ht)) ho⟩

end Command

theorem Response.readsBack_of_fits (r : Response) (h : form.Fits r) : form.ReadsBack r := by
  refine Form.readsBack_of_wf ⟨trivial, fun t ht => text_wf_of_length t ?_⟩
  have h1 : (Codec.uint.enc 0 ++ (Codec.uint.enc r.status ++ (Codec.option Codec.text).enc r.message)).length <
      2 ^ 32 :=
    h.lt
  have hm : r.message = some t := ht
  rw [List.length_append, List.length_append, hm] at h1
  have h2 : ((Codec.option Codec.text).enc (some t)).length = (Codec.text.enc t).length + 1 := rfl
  omega

theorem FileHeader.readsBack_of_fits (f : FileHeader) (hp : ∀ t ∈ f.toV2.metadata, t.Plain) (h : form.Fits f) :
    form.ReadsBack f := by
  have hl : f.body.length < 2 ^ 64 := by
    have h1 : (Codec.uint.enc f.tag ++ f.body).length < 2 ^ 32 := h.lt
    rw [List.length_append] at h1
    omega
  apply Form.readsBack_of_wf
  cases f with
  | v1 f =>
    have hb : (Codec.uint.enc f.size ++ Codec.text.enc f.filename).length < 2 ^ 64 := hl
    rw [List.length_append] at hb
    exact ⟨trivial, text_wf_of_length f.filename (by omega)⟩
  | v2 f =>
    have hb : (Codec.uint.enc f.size ++ (Codec.text.pair taggedList).enc (f.filename, f.metadata)).length < 2 ^ 64 := hl
    rw [List.length_append] at hb
    exact ⟨trivial, textPlain_wf f.filename f.metadata hp (by omega)⟩

theorem FileTrailer.readsBack_of_fits (t : FileTrailer) (hp : ∀ d ∈ t.toV2.metadata, d.Plain) (h : form.Fits t) :
    form.ReadsBack t := by
  have hl : t.body.length < 2 ^ 64 := by
    have h1 : (Codec.uint.enc t.tag ++ t.body).length < 2 ^ 32 := h.lt
    rw [List.length_append] at h1
    omega
  apply Form.readsBack_of_wf
  cases t with
  | v1 => exact trivial
  | v2 t => exact plain_wf_of_length t.metadata hp hl

theorem ListEntry.enc_length_pos (e : ListEntry) : 0 < (codec.enc e).length := by
  show 0 < (Codec.text.enc e.name ++ (Codec.bool.enc e.directory ++ _)).length
  rw [List.length_append, List.length_append]
  have : (Codec.bool.enc e.directory).length = 1 := rfl
  omega

theorem ListData.readsBack_of_fits (l : ListData) (hp : ∀ e ∈ l.entries, ∀ t ∈ e.attributes, t.Plain)
    (h : form.Fits l) : form.ReadsBack l := by
  have h1 : ((Codec.list ListEntry.codec).enc l.entries ++ Codec.bool.enc l.moreToCome).length < 2 ^ 32 := h.lt
  rw [List.length_append] at h1
  have hl : ((Codec.list ListEntry.codec).enc l.entries).length < 2 ^ 64 := by omega
  refine Form.readsBack_of_wf ⟨?_, trivial⟩
  refine list_wf_of_length ListEntry.codec l.entries ListEntry.enc_length_pos (fun e he hle => ?_) hl
  have h2 : (Codec.text.enc e.name ++ (Codec.bool.enc e.directory ++ (Codec.uint.enc e.size ++
      taggedList.enc e.attributes))).length ≤ ((Codec.list ListEntry.codec).enc l.entries).length := hle
  rw [List.length_append, List.length_append, List.length_append] at h2
  exact ⟨text_wf_of_length e.name (by omega), trivial, trivial,
    plain_wf_of_length e.attributes (hp e he) (by unfold taggedList at h2; omega)⟩

/-! ## Tasks -/

/-- What goes wrong. -/
inductive Err where
  | status (s : Status)
  | io (e : IoError)
  | response (r : Response)
  | recv (e : RecvError IoError)
  /-- A message that is longer than its type may be. -/
  | tooLong (size limit : Nat)
  | other (text : Text)
  | panicked (text : Text)

abbrev Act (H : Host) (α : Type) := Task H.sig Err α

section Acts

variable {H : Host}

/-- Goes on with a value, or fails. -/
def Act.ofExcept {ε α : Type} (wrap : ε → Err) : Except ε α → Act H α
  | .ok a => pure a
  | .error e => Task.fail (wrap e)

/-- Asks for something. -/
def Act.call (op : Op) : Act H op.Ret := Task.call (S := H.sig) op

def Act.flush : Act H Unit := do Act.ofExcept .io (← Task.flush)

def toWriterFramed {α : Type} (F : Form α) (a : α) : Act H Unit :=
  if F.Fits a then do Act.ofExcept .io (← Task.send (F.msg a))
  else Task.fail (.tooLong (F.codec.enc a).length F.limit)

def fromReaderFramed {α : Type} (F : Form α) : Act H α := do
  let a ← Frame.recv .recv F.toWire
  Task.note (F.msg a)
  return a

end Acts

/-! ## Rules -/

section Rules

variable {H : Host} {α : Type} {I : View H.sig → Prop} {v : View H.sig}

theorem Ok.ofExcept {ε : Type} {wrap : ε → Err} {Q : α → View H.sig → Prop} {r : Except ε α} (hi : I v)
    (h : ∀ a, r = .ok a → Q a v) : Ok I Q (Act.ofExcept wrap r : Act H α) v := by
  cases r with
  | ok a => exact Ok.pure hi (h a rfl)
  | error e => exact Ok.fail hi

theorem Ok.flushed {Q : Unit → View H.sig → Prop} (hi : I v) (h : Q () v) : Ok I Q (Act.flush : Act H Unit) v :=
  Ok.then (Ok.flush hi fun _ => Ok.ofExcept hi fun _ _ => h)

/-- **A message is written whole, or it is the last.** -/
theorem Ok.writer {F : Form α} {a : α} {Q : Unit → View H.sig → Prop} (hi : I v)
    (hi' : F.Fits a → ∀ sent, I { v with tried := v.tried ++ [F.msg a], sent := sent })
    (h : F.Fits a → Q () { v with tried := v.tried ++ [F.msg a], sent := v.sent ++ [F.msg a] }) :
    Ok I Q (toWriterFramed F a : Act H Unit) v := by
  unfold toWriterFramed
  split
  · rename_i hf
    refine Ok.then (Ok.send hi (hi' hf _) ?_ (hi' hf _) fun f => ?_)
    · exact Ok.ofExcept (hi' hf _) fun _ _ => h hf
    · exact Ok.ofExcept (hi' hf _) nofun
  · exact Ok.fail hi

/-- **A message is read whole, decoded and kept.** -/
theorem Ok.reader {F : Form α} {Q : α → View H.sig → Prop} (hI : ∀ bs l, I { v with taken := v.taken ++ bs, lost := l })
    (hi : ∀ bs a, v.lost = false → bs.length ≤ F.limit → F.codec.decode bs = some a →
      I { v with taken := v.taken ++ frame bs, got := v.got ++ [F.msg a] })
    (h : ∀ bs a, v.lost = false → bs.length ≤ F.limit → F.codec.decode bs = some a →
      Q a { v with taken := v.taken ++ frame bs, got := v.got ++ [F.msg a] }) :
    Ok I Q (fromReaderFramed F : Act H α) v := by
  refine Ok.then (Frame.Ok.recv hI fun bs a hl hb hd => Ok.then (Ok.note (hI _ _) (hi bs a hl hb hd) ?_))
  exact Ok.pure (hi bs a hl hb hd) (h bs a hl hb hd)

end Rules

section EndRules

variable {H : Host} {α : Type} {W : Prop} {v : View H.sig}

theorem Ends.ofExcept {ε : Type} {wrap : ε → Err} {Q : Except Err α → View H.sig → Prop} {r : Except ε α}
    (h : ∀ a, r = .ok a → Q (.ok a) v) (he : ∀ e, r = .error e → Q (.error (wrap e)) v) :
    Ends W Q (Act.ofExcept wrap r : Act H α) v := by
  cases r with
  | ok a => exact Ends.pure (h a rfl)
  | error e => exact Ends.fail (he e rfl)

theorem Ends.flushed {Q : Except Err Unit → View H.sig → Prop} (h : Q (.ok ()) v)
    (he : ¬ W → ∀ e, Q (.error (.io e)) v) :
    Ends W Q (Act.flush : Act H Unit) v :=
  Ends.then (Ends.flush (Ends.ofExcept (fun _ _ => h) nofun) fun w f =>
    Ends.ofExcept nofun fun e he' => by cases he'; exact he w f)

/-- **A message is written whole**, unless it is too long or the stream is lost. -/
theorem Ends.writer {F : Form α} {a : α} {Q : Except Err Unit → View H.sig → Prop}
    (h : F.Fits a → Q (.ok ()) { v with tried := v.tried ++ [F.msg a], sent := v.sent ++ [F.msg a] })
    (hlong : ¬ F.Fits a → Q (.error (.tooLong (F.codec.enc a).length F.limit)) v)
    (hlost : ¬ W → ∀ e, Q (.error (.io e)) { v with tried := v.tried ++ [F.msg a] }) :
    Ends W Q (toWriterFramed F a : Act H Unit) v := by
  unfold toWriterFramed
  split
  · rename_i hf
    refine Ends.then (Ends.send (Ends.ofExcept (fun _ _ => h hf) nofun) fun w f => ?_)
    exact Ends.ofExcept nofun fun e he => by cases he; exact hlost w f
  · rename_i hf
    exact Ends.fail (hlong hf)

theorem Ends.reader {F : Form α} {Q : Except Err α → View H.sig → Prop}
    (h : ∀ bs a, v.lost = false → bs.length ≤ F.limit → F.codec.decode bs = some a →
      Q (.ok a) { v with taken := v.taken ++ frame bs, got := v.got ++ [F.msg a] })
    (hshort : ∀ e bs, Q (.error (.recv (.short e))) { v with taken := v.taken ++ bs, lost := true })
    (hlong : ∀ hdr bs l, hdr.length = 4 → F.limit < Frame.frameSize hdr →
      Q (.error (.recv (.tooLong (Frame.frameSize hdr)))) { v with taken := v.taken ++ (hdr ++ bs), lost := l })
    (hbad : ∀ bs, bs.length ≤ F.limit → F.codec.decode bs = none →
      Q (.error (.recv .malformed)) { v with taken := v.taken ++ frame bs }) :
    Ends W Q (fromReaderFramed F : Act H α) v :=
  Ends.then (Frame.Ends.recv (fun bs a hl hb hd => Ends.then (Ends.note (Ends.pure (h bs a hl hb hd)))) hshort
    hlong hbad)

end EndRules

/-! ## Possible runs -/

section Possible

variable {H : Host} {α : Type} {s : Local H.sig}

theorem Gives.flushed : Gives (Act.flush : Act H Unit) s () s := Gives.then (Gives.flush (.ok ()) s) (Gives.pure () s)

theorem Gives.writer {F : Form α} {a : α} (hf : F.Fits a) (hs : s.sendLost = false) :
    Gives (toWriterFramed F a : Act H Unit) s () (s.push (.sent (F.msg a))) := by
  unfold toWriterFramed
  rw [if_pos hf]
  exact Gives.then (Gives.send (S := H.sig) hs) (Gives.pure () _)

/-- A state in which one more message was read. -/
def hear (F : Form α) (a : α) (s : Local H.sig) : Local H.sig :=
  ((s.push (.took (Codec.encLe 4 (F.codec.enc a).length))).push (.took (F.codec.enc a))).push (.got (F.msg a))

theorem Gives.reader {F : Form α} {a : α} (hf : F.Fits a) (hb : F.ReadsBack a) (hs : s.recvLost = false) :
    Gives (fromReaderFramed F : Act H α) s a (hear F a s) :=
  Gives.then (Gives.recv hs hf hb) (Gives.then (Gives.note _ _) (Gives.pure a _))

theorem Comes.flushed {W : Prop} (hs : s.sendLost = false) : Comes W (Act.flush : Act H Unit) s (.ok ()) s :=
  Comes.then (Comes.flush hs) (Comes.pure () s)

theorem Comes.writer {W : Prop} {F : Form α} {a : α} (hf : F.Fits a) (hs : s.sendLost = false) :
    Comes W (toWriterFramed F a : Act H Unit) s (.ok ()) (s.push (.sent (F.msg a))) := by
  unfold toWriterFramed
  rw [if_pos hf]
  exact Comes.then (Comes.send (S := H.sig) hs) (Comes.pure () _)

/-- The stream may be lost before any of a message is written. -/
theorem Comes.unwritten {W : Prop} {F : Form α} {a : α} (hf : F.Fits a) (e : IoError) (hw : ¬ W) (s : Local H.sig) :
    Comes W (toWriterFramed F a : Act H Unit) s (.error (.io e)) (s.push (.cut (F.msg a) [])).loseSend := by
  have hl : 0 < (H.sig.enc (F.msg a)).length := by
    show 0 < (F.msg a).enc.length
    rw [F.enc_msg, Frame.frame_length]
    omega
  unfold toWriterFramed
  rw [if_pos hf]
  exact Comes.then (Comes.cut (S := H.sig) e hw hl s) (Comes.fail _ _)

theorem Comes.reader {W : Prop} {F : Form α} {a : α} (hf : F.Fits a) (hb : F.ReadsBack a) (hr : s.recvLost = false)
    (hs : s.sendLost = false) : Comes W (fromReaderFramed F : Act H α) s (.ok a) (hear F a s) :=
  Comes.then (Comes.recv hr hs hf hb) (Comes.then (Comes.note _ hs) (Comes.pure a _))

@[simp] theorem hear_world (F : Form α) (a : α) (s : Local H.sig) : (hear F a s).world = s.world := rfl
@[simp] theorem hear_sendLost (F : Form α) (a : α) (s : Local H.sig) : (hear F a s).sendLost = s.sendLost := rfl
@[simp] theorem hear_recvLost (F : Form α) (a : α) (s : Local H.sig) : (hear F a s).recvLost = s.recvLost := rfl
@[simp] theorem got_hear (F : Form α) (a : α) (s : Local H.sig) : (hear F a s).got = s.got ++ [F.msg a] := by
  simp [hear, Proc.Event.got?]
@[simp] theorem done_hear (F : Form α) (a : α) (s : Local H.sig) : (hear F a s).done = s.done := by
  simp [hear, Proc.Event.done?]
@[simp] theorem out_hear (F : Form α) (a : α) (s : Local H.sig) : (hear F a s).out = s.out := by
  simp [hear, Proc.Event.wrote]
@[simp] theorem taken_hear (F : Form α) (a : α) (s : Local H.sig) :
    (hear F a s).taken = s.taken ++ frame (F.codec.enc a) := by
  simp [hear, Proc.Event.read, frame]

end Possible

end Qcp
