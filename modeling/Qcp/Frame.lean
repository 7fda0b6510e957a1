import Qcp.Ends
/-!
# Frame — messages with their length in front

A frame is four bytes of length and as many bytes of payload, so that frames are never confused: `frame_cancel` takes
one off the front of two streams, `frames_prefix` any number of them.  `recv` reads a frame and decodes its payload;
`Ok.recv` says what it leaves behind, `Ends.recv` how it fails.
-/
namespace Frame

open Bare Proc

def frame (bs : Bytes) : Bytes := Codec.encLe 4 bs.length ++ bs

/-- The length a frame's header announces. -/
def frameSize (hdr : Bytes) : Nat := ((Codec.decLe 4 hdr).map Prod.fst).getD 0

theorem frame_length (bs : Bytes) : (frame bs).length = 4 + bs.length := by
  rw [frame, List.length_append, Codec.encLe_length]

/-- Where nothing is there is no frame. -/
theorem not_frame_prefix_nil (bs x : Bytes) : ¬ frame bs ++ x <+: [] := by
  intro h
  have := h.length_le
  rw [List.length_append, frame_length, List.length_nil] at this
  omega

/-- As many bytes as a number takes are the bytes of some number. -/
theorem encLe_decLe : ∀ (k : Nat) (hdr : Bytes), hdr.length = k →
    ∃ n, Codec.decLe k hdr = some (n, []) ∧ Codec.encLe k n = hdr
  | 0, [], _ => ⟨0, rfl, rfl⟩
  | k + 1, b :: hdr, h => by
    obtain ⟨n, hd, he⟩ := encLe_decLe k hdr (Nat.succ.inj h)
    have hb := b.toNat_lt
    refine ⟨b.toNat + 256 * n, ?_, ?_⟩
    · show (Codec.decLe k hdr).bind (fun r => some (b.toNat + 256 * r.1, r.2)) = _
      rw [hd]
      rfl
    · have h1 : (b.toNat + 256 * n) % 256 = b.toNat := by omega
      have h2 : (b.toNat + 256 * n) / 256 = n := by omega
      rw [Codec.encLe, h1, h2, he, UInt8.ofNat_toNat]

/-- A header and the payload it announces are a frame. -/
theorem frame_of_parts (hdr bs : Bytes) (hh : hdr.length = 4) (hb : bs.length = frameSize hdr) :
    hdr ++ bs = frame bs := by
  obtain ⟨n, hd, he⟩ := encLe_decLe 4 hdr hh
  have hn : frameSize hdr = n := by rw [frameSize, hd]; rfl
  rw [frame, hb, hn, he]

/-- Equal announcements are equal lengths. -/
theorem encLe_inj (m n : Nat) (hm : m < 2 ^ 32) (hn : n < 2 ^ 32) (h : Codec.encLe 4 m = Codec.encLe 4 n) : m = n := by
  have d1 := Codec.decLe_encLe 4 m (by omega) []
  have d2 := Codec.decLe_encLe 4 n (by omega) []
  rw [h] at d1
  exact (Prod.mk.inj (Option.some.inj (d1.symm.trans d2))).1

/-- **Frames are taken off the front of a stream one by one.** -/
theorem frame_cancel (a b x y : Bytes) (ha : a.length < 2 ^ 32) (hb : b.length < 2 ^ 32)
    (h : frame a ++ x <+: frame b ++ y) : a = b ∧ x <+: y := by
  obtain ⟨t, ht⟩ := h
  unfold frame at ht
  simp only [List.append_assoc] at ht
  obtain ⟨h1, h2⟩ := List.append_inj ht (by rw [Codec.encLe_length, Codec.encLe_length])
  have hl := encLe_inj _ _ ha hb h1
  obtain ⟨h3, h4⟩ := List.append_inj h2 hl
  exact ⟨h3, t, h4⟩

/-- A whole frame does not fit into the front of another. -/
theorem not_frame_prefix (a b front x : Bytes) (ha : a.length < 2 ^ 32) (hb : b.length < 2 ^ 32)
    (hf : front <+: frame b) (hl : front.length < (frame b).length) : ¬ frame a ++ x <+: front := by
  intro h
  have hp : frame a ++ x <+: frame b ++ [] := by rw [List.append_nil]; exact h.trans hf
  obtain ⟨rfl, -⟩ := frame_cancel a b x [] ha hb hp
  have := h.length_le
  rw [List.length_append] at this
  omega

/-- The front of at most one more frame. -/
def Rest (front : Bytes) : Prop :=
  front = [] ∨ ∃ b, b.length < 2 ^ 32 ∧ front <+: frame b ∧ front.length < (frame b).length

/-- **Frames read are the first of the frames written.** -/
theorem frames_prefix : ∀ (as bs : List Bytes) (x front : Bytes), (∀ a ∈ as, a.length < 2 ^ 32) →
    (∀ b ∈ bs, b.length < 2 ^ 32) → Rest front → as.flatMap frame ++ x <+: bs.flatMap frame ++ front → as <+: bs
  | [], _, _, _, _, _, _, _ => List.nil_prefix
  | a :: as, [], x, front, ha, _, hr, h => by
    exfalso
    have ha' := ha a List.mem_cons_self
    rw [List.flatMap_cons, List.flatMap_nil, List.nil_append, List.append_assoc] at h
    rcases hr with rfl | ⟨b, hb, hf, hl⟩
    · exact not_frame_prefix_nil _ _ h
    · exact not_frame_prefix a b front _ ha' hb hf hl h
  | a :: as, b :: bs, x, front, ha, hb, hr, h => by
    rw [List.flatMap_cons, List.flatMap_cons, List.append_assoc, List.append_assoc] at h
    obtain ⟨rfl, hrest⟩ := frame_cancel a b _ _ (ha a List.mem_cons_self) (hb b List.mem_cons_self) h
    exact List.cons_prefix_cons.2 ⟨rfl, frames_prefix as bs x front (fun c hc => ha c (List.mem_cons_of_mem _ hc))
      (fun c hc => hb c (List.mem_cons_of_mem _ hc)) hr hrest⟩

/-! ## Reading a frame -/

/-- A message type: its form, and how long its payload may be. -/
structure Wire (α : Type) where
  codec : Codec α
  limit : Nat
  limit_lt : limit < 2 ^ 32

inductive RecvError (F : Type) where
  | short (fault : F)
  | tooLong (size : Nat)
  | malformed

section Recv

variable {S : Sig} {E α : Type}

/-- Reads a frame and decodes its payload.  After an announcement that is too long some of what is there is read, to
show it. -/
def recv (err : RecvError S.Fault → E) (w : Wire α) : Task S E α := do
  match ← Task.read 4 with
  | .error f => Task.fail (err (.short f))
  | .ok hdr =>
    let size := frameSize hdr
    if size > w.limit then
      let _ ← Task.fill 252
      Task.fail (err (.tooLong size))
    else
      match ← Task.read size with
      | .error f => Task.fail (err (.short f))
      | .ok bs =>
        match w.codec.decode bs with
        | none => Task.fail (err .malformed)
        | some a => return a

/-- **A frame is read whole and decoded**, or the task fails having read what it could. -/
theorem Ok.recv {I : View S → Prop} {Q : α → View S → Prop} {err : RecvError S.Fault → E} {w : Wire α} {v : View S}
    (hI : ∀ bs l, I { v with taken := v.taken ++ bs, lost := l })
    (hok : ∀ bs a, v.lost = false → bs.length ≤ w.limit → w.codec.decode bs = some a →
      Q a { v with taken := v.taken ++ frame bs }) : Ok I Q (recv err w) v := by
  refine Ok.then (Ok.read hI (fun hdr hl hh => ?_) fun f bs => Ok.fail (hI bs true))
  have hI' : ∀ bs l, I { v with taken := v.taken ++ hdr ++ bs, lost := l } := fun bs l => by
    rw [List.append_assoc]
    exact hI (hdr ++ bs) l
  simp only
  split
  · exact Ok.then (Ok.fill hI' (fun bs _ _ _ => Ok.fail (hI' bs _)) (Ok.fail (hI hdr true))
      (fun _ => Ok.fail (hI hdr _)) fun f => Ok.fail (hI hdr true))
  · rename_i hsize
    refine Ok.then (Ok.read hI' (fun bs _ hb => ?_) fun f bs => Ok.fail (hI' bs true))
    have hf := frame_of_parts hdr bs hh hb
    simp only
    cases hd : w.codec.decode bs with
    | none => exact Ok.fail (hI' bs _)
    | some a =>
      apply Ok.pure (hI' bs _)
      rw [List.append_assoc, hf]
      exact hok bs a hl (by omega) hd

/-- **Reading a frame ends** with a message, or short of one, or with one that is too long or malformed. -/
theorem Ends.recv {W : Prop} {Q : Except E α → View S → Prop} {err : RecvError S.Fault → E} {w : Wire α} {v : View S}
    (hok : ∀ bs a, v.lost = false → bs.length ≤ w.limit → w.codec.decode bs = some a →
      Q (.ok a) { v with taken := v.taken ++ frame bs })
    (hshort : ∀ f bs, Q (.error (err (.short f))) { v with taken := v.taken ++ bs, lost := true })
    (hlong : ∀ hdr bs l, hdr.length = 4 → w.limit < frameSize hdr →
      Q (.error (err (.tooLong (frameSize hdr)))) { v with taken := v.taken ++ (hdr ++ bs), lost := l })
    (hbad : ∀ bs, bs.length ≤ w.limit → w.codec.decode bs = none →
      Q (.error (err .malformed)) { v with taken := v.taken ++ frame bs }) : Ends W Q (recv err w) v := by
  refine Ends.then (Ends.read (fun hdr hl hh => ?_) fun f bs _ => Ends.fail (hshort f bs))
  show Ends W Q (if frameSize hdr > w.limit then _ else _) _
  split
  · rename_i hsize
    have hlong' := fun bs l => hlong hdr bs l hh hsize
    refine Ends.then (Ends.fill (fun bs _ _ _ => Ends.fail ?_) (Ends.fail ?_) (fun _ => Ends.fail ?_)
      fun f => Ends.fail ?_)
    · simpa using hlong' bs v.lost
    · simpa using hlong' [] true
    · simpa using hlong' [] v.lost
    · simpa using hlong' [] true
  · rename_i hsize
    refine Ends.then (Ends.read (fun bs _ hb => ?_) fun f bs _ => Ends.fail ?_)
    · have hf := frame_of_parts hdr bs hh hb
      show Ends W Q (match w.codec.decode bs with
        | none => _
        | some a => _) _
      cases hd : w.codec.decode bs with
      | none => exact Ends.fail (by simpa [hf] using hbad bs (by omega) hd)
      | some a => exact Ends.pure (by simpa [hf] using hok bs a hl (by omega) hd)
    · simpa using hshort f (hdr ++ bs)

end Recv

end Frame
