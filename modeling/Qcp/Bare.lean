import Mathlib
/-!
# Bare — codecs that carry their round trip

Decoders take bytes off the front of their input (`Decoder`); `Decodes p bs a` says that `p` reads exactly `bs` and
returns `a` whatever follows, and composes along `bind`.  A `Codec` bundles an encoder, a decoder, the values it can
write and the round trip.  The formats are BARE's: variable-length integers (`uint`, `sint`), little-endian fixed
words, length-prefixed sequences, UTF-8 text, options, records (`pair`, `iso`) and tagged unions (`union`).
-/
namespace Bare

abbrev Bytes := List UInt8
abbrev Text := List Char

/-- A decoder takes bytes off the front of its input, or fails. -/
abbrev Decoder (α : Type) := StateT Bytes Option α

/-- **`p` reads exactly `bs` and returns `a`, whatever follows.** -/
def Decodes {α : Type} (p : Decoder α) (bs : Bytes) (a : α) : Prop := ∀ rest, p (bs ++ rest) = some (a, rest)

section Decoders

variable {α β : Type}

theorem Decodes.pure (a : α) : Decodes (Pure.pure a : Decoder α) [] a := fun _ => rfl

theorem Decodes.bind {p : Decoder α} {f : α → Decoder β} {xs ys : Bytes} {a : α} {b : β} (hp : Decodes p xs a)
    (hf : Decodes (f a) ys b) : Decodes (p >>= f) (xs ++ ys) b := by
  intro rest
  show (p (xs ++ ys ++ rest)).bind (fun r => f r.1 r.2) = _
  rw [List.append_assoc, hp]
  exact hf rest

theorem Decodes.map {p : Decoder α} {bs : Bytes} {a : α} (f : α → β) (hp : Decodes p bs a) :
    Decodes (f <$> p) bs (f a) := by
  intro rest
  show (p (bs ++ rest)).bind (fun r => some (f r.1, r.2)) = _
  rw [hp]; rfl

theorem Decodes.bind_pure {p : Decoder α} {bs : Bytes} {a : α} (f : α → β) (hp : Decodes p bs a) :
    Decodes (p >>= fun x => Pure.pure (f x)) bs (f a) := by
  rw [← List.append_nil bs]
  exact hp.bind (Decodes.pure _)

/-- The failing decoder. -/
def fail : Decoder α := fun _ => none

/-- One byte. -/
def byte : Decoder UInt8
  | [] => none
  | b :: bs => some (b, bs)

theorem byte_decodes (b : UInt8) : Decodes byte [b] b := fun _ => rfl

/-- Exactly `n` bytes. -/
def take (n : Nat) : Decoder Bytes := fun bs =>
  if n ≤ bs.length then some (bs.take n, bs.drop n) else none

/-- The same decoder `n` times. -/
def times (p : Decoder α) : Nat → Decoder (List α)
  | 0 => Pure.pure []
  | n + 1 => do
    let a ← p
    let as ← times p n
    return a :: as

theorem times_decodes {p : Decoder α} {e : α → Bytes} : ∀ (as : List α), (∀ a ∈ as, Decodes p (e a) a) →
    Decodes (times p as.length) (as.flatMap e) as
  | [], _ => Decodes.pure []
  | a :: as, h => by
    rw [List.flatMap_cons]
    apply Decodes.bind (h a List.mem_cons_self)
    exact (times_decodes as fun x hx => h x (List.mem_cons_of_mem a hx)).bind_pure (a :: ·)

end Decoders

/-! ## Variable-length integers -/

/-- Little-endian groups of seven bits, the high bit set on every byte but the last. -/
def encVar : Nat → Nat → Bytes
  | 0, n => [UInt8.ofNat n]
  | k + 1, n => if n < 128 then [UInt8.ofNat n] else UInt8.ofNat (n % 128 + 128) :: encVar k (n / 128)

theorem encVar_length_le : ∀ (k j n : Nat), n < 128 ^ (j + 1) → (encVar k n).length ≤ j + 1
  | 0, j, n, _ => Nat.le_add_left 1 j
  | k + 1, j, n, h => by
    unfold encVar
    by_cases hn : n < 128
    · rw [if_pos hn]
      exact Nat.le_add_left 1 j
    · rw [if_neg hn, List.length_cons]
      cases j with
      | zero => omega
      | succ j =>
        have := encVar_length_le k j (n / 128) (Nat.div_lt_of_lt_mul (by rw [Nat.pow_succ] at h; omega))
        omega

/-- At most `k` continued bytes; the byte after them may hold one bit only. -/
def decVar : Nat → Decoder Nat
  | 0 => do
    let b ← byte
    if b.toNat < 2 then return b.toNat else fail
  | k + 1 => do
    let b ← byte
    if b.toNat < 128 then return b.toNat else
      let n ← decVar k
      return (b.toNat - 128) + 128 * n

theorem decVar_encVar : ∀ (k n : Nat), n < 2 * 128 ^ k → Decodes (decVar k) (encVar k n) n
  | 0, n, h => by
    have hn : (UInt8.ofNat n).toNat = n := by rw [UInt8.toNat_ofNat']; omega
    apply Decodes.bind (byte_decodes _)
    rw [hn, if_pos (by omega)]
    exact Decodes.pure n
  | k + 1, n, h => by
    unfold encVar
    split
    · rename_i hlt
      have hn : (UInt8.ofNat n).toNat = n := by rw [UInt8.toNat_ofNat']; omega
      apply Decodes.bind (byte_decodes _)
      rw [hn, if_pos hlt]
      exact Decodes.pure n
    · rename_i hge
      have hn : (UInt8.ofNat (n % 128 + 128)).toNat = n % 128 + 128 := by rw [UInt8.toNat_ofNat']; omega
      have hq : n / 128 < 2 * 128 ^ k := by
        rw [Nat.div_lt_iff_lt_mul (by decide)]
        rw [Nat.pow_succ] at h; omega
      apply Decodes.bind (byte_decodes _)
      rw [hn, if_neg (by omega)]
      have := (decVar_encVar k _ hq).bind_pure fun q => n % 128 + 128 - 128 + 128 * q
      have e : n % 128 + 128 - 128 + 128 * (n / 128) = n := by omega
      rwa [e] at this

theorem encVar_ne_nil (k n : Nat) : encVar k n ≠ [] := by
  cases k with
  | zero => exact List.cons_ne_nil _ _
  | succ k => unfold encVar; split <;> exact List.cons_ne_nil _ _

/-! ## Codecs -/

/-- **An encoder and a decoder that reads back what it wrote**, on the values it can write. -/
structure Codec (α : Type) where
  enc : α → Bytes
  dec : Decoder α
  wf : α → Prop
  decodes : ∀ a, wf a → Decodes dec (enc a) a

namespace Codec

variable {α β : Type}

/-- What a decoder of a whole slice returns; bytes left over are ignored. -/
def decode (c : Codec α) (bs : Bytes) : Option α := (c.dec bs).map Prod.fst

theorem decode_enc (c : Codec α) (a : α) (h : c.wf a) : c.decode (c.enc a) = some a := by
  have := c.decodes a h []
  rw [List.append_nil] at this
  rw [decode, this]; rfl

/-- Nothing on the wire. -/
def nothing (a : α) : Codec α where
  enc _ := []
  dec := Pure.pure a
  wf x := x = a
  decodes := by rintro _ rfl; exact Decodes.pure _

def pair (c : Codec α) (d : Codec β) : Codec (α × β) where
  enc p := c.enc p.1 ++ d.enc p.2
  dec := do
    let a ← c.dec
    let b ← d.dec
    return (a, b)
  wf p := c.wf p.1 ∧ d.wf p.2
  decodes := by
    rintro ⟨a, b⟩ ⟨ha, hb⟩
    exact Decodes.bind (c.decodes a ha) ((d.decodes b hb).bind_pure (a, ·))

/-- The same bytes read as another type. -/
def iso (c : Codec α) (f : α → β) (g : β → α) (h : ∀ b, f (g b) = b) : Codec β where
  enc b := c.enc (g b)
  dec := f <$> c.dec
  wf b := c.wf (g b)
  decodes b hb := by
    have := (c.decodes (g b) hb).map f
    rwa [h] at this

/-- Another type, not all of whose bytes are values. -/
def partialIso (c : Codec α) (f : α → Option β) (g : β → α) (h : ∀ b, f (g b) = some b) : Codec β where
  enc b := c.enc (g b)
  dec := do
    let a ← c.dec
    match f a with
    | some b => return b
    | none => fail
  wf b := c.wf (g b)
  decodes b hb := by
    rw [← List.append_nil (c.enc (g b))]
    apply Decodes.bind (c.decodes (g b) hb)
    rw [h]
    exact Decodes.pure b

def u8 : Codec UInt8 where
  enc b := [b]
  dec := byte
  wf _ := True
  decodes b _ := byte_decodes b

def bool : Codec Bool where
  enc b := [if b then 1 else 0]
  dec := do
    let b ← byte
    if b = 0 then return false else if b = 1 then return true else fail
  wf _ := True
  decodes b _ := by cases b <;> exact fun _ => rfl

/-- `n` little-endian bytes. -/
def encLe : Nat → Nat → Bytes
  | 0, _ => []
  | k + 1, n => UInt8.ofNat (n % 256) :: encLe k (n / 256)

def decLe : Nat → Decoder Nat
  | 0 => Pure.pure 0
  | k + 1 => do
    let b ← byte
    let n ← decLe k
    return b.toNat + 256 * n

theorem encLe_length : ∀ (k n : Nat), (encLe k n).length = k
  | 0, _ => rfl
  | k + 1, n => by rw [encLe, List.length_cons, encLe_length k]

theorem decLe_encLe : ∀ (k n : Nat), n < 256 ^ k → Decodes (decLe k) (encLe k n) n
  | 0, n, h => by
    have : n = 0 := by simpa using h
    subst this
    exact Decodes.pure 0
  | k + 1, n, h => by
    have hn : (UInt8.ofNat (n % 256)).toNat = n % 256 := by rw [UInt8.toNat_ofNat']; omega
    have hq : n / 256 < 256 ^ k := by
      rw [Nat.div_lt_iff_lt_mul (by decide)]
      rwa [Nat.pow_succ] at h
    unfold encLe
    apply Decodes.bind (byte_decodes _)
    rw [hn]
    have := (decLe_encLe k _ hq).bind_pure fun q => n % 256 + 256 * q
    have e : n % 256 + 256 * (n / 256) = n := by omega
    rwa [e] at this

def u16 : Codec UInt16 where
  enc n := encLe 2 n.toNat
  dec := UInt16.ofNat <$> decLe 2
  wf _ := True
  decodes n _ := by
    have := (decLe_encLe 2 n.toNat (by have := n.toNat_lt; omega)).map UInt16.ofNat
    rwa [UInt16.ofNat_toNat] at this

def u32 : Codec UInt32 where
  enc n := encLe 4 n.toNat
  dec := UInt32.ofNat <$> decLe 4
  wf _ := True
  decodes n _ := by
    have := (decLe_encLe 4 n.toNat (by have := n.toNat_lt; omega)).map UInt32.ofNat
    rwa [UInt32.ofNat_toNat] at this

/-- An unsigned integer of variable length. -/
def uint : Codec UInt64 where
  enc n := encVar 9 n.toNat
  dec := UInt64.ofNat <$> decVar 9
  wf _ := True
  decodes n _ := by
    have := (decVar_encVar 9 n.toNat (by have := n.toNat_lt; omega)).map UInt64.ofNat
    rwa [UInt64.ofNat_toNat] at this

/-- Signed integers go to natural numbers alternating around zero. -/
def zigzag (i : Int) : Nat := if i < 0 then (-2 * i - 1).toNat else (2 * i).toNat

def unzigzag (n : Nat) : Int := if n % 2 = 1 then -(n / 2 : Nat) - 1 else (n / 2 : Nat)

theorem unzigzag_zigzag (i : Int) : unzigzag (zigzag i) = i := by
  unfold zigzag unzigzag
  split <;> split <;> omega

/-- A signed integer of variable length. -/
def sint : Codec Int64 where
  enc i := encVar 9 (zigzag i.toInt)
  dec := (fun n => Int64.ofInt (unzigzag n)) <$> decVar 9
  wf _ := True
  decodes i _ := by
    have h : zigzag i.toInt < 2 * 128 ^ 9 := by
      have := i.toInt_lt
      have := i.le_toInt
      unfold zigzag
      split <;> omega
    have := (decVar_encVar 9 _ h).map fun n => Int64.ofInt (unzigzag n)
    rwa [unzigzag_zigzag, Int64.ofInt_toInt] at this

/-- A length, then the elements. -/
def list (c : Codec α) : Codec (List α) where
  enc as := uint.enc (UInt64.ofNat as.length) ++ as.flatMap c.enc
  dec := do
    let n ← uint.dec
    times c.dec n.toNat
  wf as := as.length < 2 ^ 64 ∧ ∀ a ∈ as, c.wf a
  decodes := by
    rintro as ⟨hl, h⟩
    apply Decodes.bind (uint.decodes _ trivial)
    rw [UInt64.toNat_ofNat_of_lt' hl]
    exact times_decodes as fun a ha => c.decodes a (h a ha)

def data : Codec Bytes := list u8

def option (c : Codec α) : Codec (Option α) where
  enc
    | none => [0]
    | some a => 1 :: c.enc a
  dec := do
    let b ← byte
    if b = 0 then return none else if b = 1 then some <$> c.dec else fail
  wf o := ∀ a ∈ o, c.wf a
  decodes := by
    rintro (_ | a) h
    · exact fun _ => rfl
    · exact Decodes.bind (byte_decodes 1) ((c.decodes a (h a rfl)).map some)

/-! ### Text -/

def encText (s : Text) : Bytes := s.flatMap String.utf8EncodeChar

/-- At most `n` characters; the whole slice has to be well-formed UTF-8. -/
def decText : Nat → Bytes → Option Text
  | _, [] => some []
  | 0, _ :: _ => none
  | n + 1, b :: bs =>
    match (b :: bs).toByteArray.utf8DecodeChar? 0 with
    | none => none
    | some c => (decText n ((b :: bs).drop c.utf8Size)).map (c :: ·)

theorem decText_encText : ∀ (s : Text) (n : Nat), (encText s).length ≤ n → decText n (encText s) = some s
  | [], n, _ => by cases n <;> rfl
  | c :: s, n, h => by
    have hc : (String.utf8EncodeChar c).length = c.utf8Size := String.length_utf8EncodeChar c
    have hp : 0 < c.utf8Size := c.utf8Size_pos
    have he : encText (c :: s) = String.utf8EncodeChar c ++ encText s := rfl
    rw [he] at h ⊢
    rw [List.length_append] at h
    cases n with
    | zero => omega
    | succ n =>
      cases hb : String.utf8EncodeChar c ++ encText s with
      | nil =>
        have := congrArg List.length hb
        rw [List.length_append, List.length_nil] at this
        omega
      | cons b bs =>
        have hd : (b :: bs).toByteArray.utf8DecodeChar? 0 = some c := by
          rw [← hb, List.toByteArray_append]
          exact ByteArray.utf8DecodeChar?_utf8EncodeChar_append
        have hr : (b :: bs).drop c.utf8Size = encText s := by rw [← hb, ← hc, List.drop_left]
        rw [decText, hd]
        simp only
        rw [hr, decText_encText s n (by omega)]
        rfl

theorem append_of_utf8DecodeChar {bs : Bytes} {c : Char} (h : bs.toByteArray.utf8DecodeChar? 0 = some c) :
    ∃ rest, bs = String.utf8EncodeChar c ++ rest := by
  obtain ⟨l, hl⟩ := ByteArray.exists_of_utf8DecodeChar?_eq_some h
  refine ⟨l.data.toList, ?_⟩
  have := congrArg (fun b : ByteArray => b.data.toList) hl
  simpa using this

/-- What is decoded is what was encoded. -/
theorem encText_of_decText : ∀ (n : Nat) {bs : Bytes} {s : Text}, decText n bs = some s → encText s = bs
  | _, [], s, h => by
    unfold decText at h
    cases h
    rfl
  | 0, _ :: _, s, h => by cases h
  | n + 1, b :: bs, s, h => by
    unfold decText at h
    split at h
    · cases h
    · rename_i c hc
      obtain ⟨t, ht, rfl⟩ := Option.map_eq_some_iff.1 h
      obtain ⟨rest, hrest⟩ := append_of_utf8DecodeChar hc
      rw [hrest, ← String.length_utf8EncodeChar c, List.drop_left] at ht
      show String.utf8EncodeChar c ++ encText t = _
      rw [encText_of_decText n ht, hrest]

def text : Codec Text where
  enc s := data.enc (encText s)
  dec := do
    let bs ← data.dec
    match decText bs.length bs with
    | some s => return s
    | none => fail
  wf s := (encText s).length < 2 ^ 64
  decodes s h := by
    rw [← List.append_nil (data.enc (encText s))]
    refine Decodes.bind (data.decodes _ ⟨h, fun _ _ => trivial⟩) ?_
    rw [decText_encText s _ (Nat.le_refl _)]
    exact Decodes.pure s

/-! ### Tagged unions -/

/-- A tag, then the body of that arm. -/
def union (tag : α → UInt64) (body : α → Bytes) (arm : UInt64 → Decoder α) (wf : α → Prop)
    (h : ∀ a, wf a → Decodes (arm (tag a)) (body a) a) : Codec α where
  enc a := uint.enc (tag a) ++ body a
  dec := do
    let t ← uint.dec
    arm t
  wf := wf
  decodes a ha := Decodes.bind (uint.decodes _ trivial) (h a ha)

end Codec
end Bare
