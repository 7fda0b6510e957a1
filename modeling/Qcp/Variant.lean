import Qcp.Bare
/-!
# Variant — the self-describing values of tagged data

`Variant` with its coercions, its wire form (`Variant.codec`, a union whose list and map arms nest) and `TaggedData`, a
raw tag with a `Variant`.  A map is kept in key order without repeats; `Variant.wf` says what a value in memory has.
-/
namespace Qcp

open Bare

inductive Variant where
  | empty
  | boolean (b : Bool)
  | signed (i : Int64)
  | unsigned (u : UInt64)
  | string (s : Text)
  | bytes (bs : Bytes)
  | list (vs : List Variant)
  | map (kvs : List (Text × Variant))

namespace Variant

/-- Integers are cast, booleans are 1 or 0, everything else is 0. -/
def coerceUnsigned : Variant → UInt64
  | signed i => i.toUInt64
  | unsigned u => u
  | boolean b => if b then 1 else 0
  | _ => 0

def asStr : Variant → Option Text
  | string s => some s
  | _ => none

/-! ## On the wire -/

mutual
def enc : Variant → Bytes
  | empty => Codec.uint.enc 0
  | boolean b => Codec.uint.enc 1 ++ Codec.bool.enc b
  | signed i => Codec.uint.enc 2 ++ Codec.sint.enc i
  | unsigned u => Codec.uint.enc 3 ++ Codec.uint.enc u
  | string s => Codec.uint.enc 4 ++ Codec.text.enc s
  | bytes bs => Codec.uint.enc 5 ++ Codec.data.enc bs
  | list vs => Codec.uint.enc 6 ++ (Codec.uint.enc (UInt64.ofNat vs.length) ++ encList vs)
  | map kvs => Codec.uint.enc 7 ++ (Codec.uint.enc (UInt64.ofNat kvs.length) ++ encMap kvs)
def encList : List Variant → Bytes
  | [] => []
  | v :: vs => enc v ++ encList vs
def encMap : List (Text × Variant) → Bytes
  | [] => []
  | (k, v) :: kvs => Codec.text.enc k ++ enc v ++ encMap kvs
end

/-- Setting a key keeps the map in key order. -/
def insertKey (k : Text) (v : Variant) : List (Text × Variant) → List (Text × Variant)
  | [] => [(k, v)]
  | (k', v') :: m => if k < k' then (k, v) :: (k', v') :: m else if k = k' then (k, v) :: m else (k', v') ::
    insertKey k v m

def fromPairs (kvs : List (Text × Variant)) : List (Text × Variant) :=
  kvs.foldl (fun m kv => insertKey kv.1 kv.2 m) []

/-- Values nested up to `n` deep. -/
def dec : Nat → Decoder Variant
  | 0 => fail
  | n + 1 => do
    let t ← Codec.uint.dec
    match t with
    | 0 => return empty
    | 1 => boolean <$> Codec.bool.dec
    | 2 => signed <$> Codec.sint.dec
    | 3 => unsigned <$> Codec.uint.dec
    | 4 => string <$> Codec.text.dec
    | 5 => bytes <$> Codec.data.dec
    | 6 => do
      let k ← Codec.uint.dec
      list <$> times (dec n) k.toNat
    | 7 => do
      let k ← Codec.uint.dec
      let kvs ← times (do
        let key ← Codec.text.dec
        let v ← dec n
        return (key, v)) k.toNat
      return map (fromPairs kvs)
    | _ => fail

mutual
def depth : Variant → Nat
  | list vs => depthList vs + 1
  | map kvs => depthMap kvs + 1
  | _ => 1
def depthList : List Variant → Nat
  | [] => 0
  | v :: vs => max (depth v) (depthList vs)
def depthMap : List (Text × Variant) → Nat
  | [] => 0
  | (_, v) :: kvs => max (depth v) (depthMap kvs)
end

mutual
/-- What every value in memory satisfies: lengths fit a word, a map is in key order. -/
def wf : Variant → Prop
  | string s => Codec.text.wf s
  | bytes bs => Codec.data.wf bs
  | list vs => vs.length < 2 ^ 64 ∧ wfList vs
  | map kvs => kvs.length < 2 ^ 64 ∧ (kvs.map Prod.fst).Pairwise (· < ·) ∧ wfMap kvs
  | _ => True
def wfList : List Variant → Prop
  | [] => True
  | v :: vs => wf v ∧ wfList vs
def wfMap : List (Text × Variant) → Prop
  | [] => True
  | (k, v) :: kvs => Codec.text.wf k ∧ wf v ∧ wfMap kvs
end

theorem insertKey_last (k : Text) (v : Variant) : ∀ (m : List (Text × Variant)), (∀ p ∈ m, p.1 < k) →
    insertKey k v m = m ++ [(k, v)]
  | [], _ => rfl
  | (k', v') :: m, h => by
    have hk : k' < k := h (k', v') List.mem_cons_self
    rw [insertKey, if_neg (lt_asymm hk), if_neg (ne_of_gt hk),
      insertKey_last k v m fun p hp => h p (List.mem_cons_of_mem _ hp)]
    rfl

theorem foldl_insertKey : ∀ (kvs m : List (Text × Variant)), (kvs.map Prod.fst).Pairwise (· < ·) →
    (∀ p ∈ m, ∀ q ∈ kvs, p.1 < q.1) → kvs.foldl (fun m kv => insertKey kv.1 kv.2 m) m = m ++ kvs
  | [], m, _, _ => (List.append_nil m).symm
  | (k, v) :: kvs, m, hs, hm => by
    rw [List.map_cons, List.pairwise_cons] at hs
    rw [List.foldl_cons, insertKey_last k v m fun p hp => hm p hp (k, v) List.mem_cons_self,
      foldl_insertKey kvs (m ++ [(k, v)]) hs.2 ?_, List.append_assoc]
    · rfl
    · intro p hp q hq
      rcases List.mem_append.1 hp with hp | hp
      · exact hm p hp q (List.mem_cons_of_mem _ hq)
      · rw [List.mem_singleton.1 hp]
        exact hs.1 q.1 (List.mem_map_of_mem hq)

/-- A map in key order is rebuilt as it was. -/
theorem fromPairs_sorted (kvs : List (Text × Variant)) (h : (kvs.map Prod.fst).Pairwise (· < ·)) :
    fromPairs kvs = kvs := foldl_insertKey kvs [] h fun p hp => by cases hp

mutual
theorem dec_enc : ∀ (v : Variant) (n : Nat), v.depth ≤ n → v.wf → Decodes (dec n) v.enc v
  | v, 0, h, _ => by cases v <;> simp [depth] at h
  | empty, n + 1, _, _ => Decodes.bind (Codec.uint.decodes 0 trivial) (Decodes.pure _)
  | boolean b, n + 1, _, _ =>
    Decodes.bind (Codec.uint.decodes 1 trivial) ((Codec.bool.decodes b trivial).map boolean)
  | signed i, n + 1, _, _ => Decodes.bind (Codec.uint.decodes 2 trivial) ((Codec.sint.decodes i trivial).map signed)
  | unsigned u, n + 1, _, _ =>
    Decodes.bind (Codec.uint.decodes 3 trivial) ((Codec.uint.decodes u trivial).map unsigned)
  | string s, n + 1, _, hw => Decodes.bind (Codec.uint.decodes 4 trivial) ((Codec.text.decodes s hw).map string)
  | bytes bs, n + 1, _, hw => Decodes.bind (Codec.uint.decodes 5 trivial) ((Codec.data.decodes bs hw).map bytes)
  | list vs, n + 1, h, hw => by
    rw [depth] at h
    rw [wf] at hw
    refine Decodes.bind (Codec.uint.decodes 6 trivial) (Decodes.bind (Codec.uint.decodes _ trivial) ?_)
    rw [UInt64.toNat_ofNat_of_lt' hw.1]
    exact (decList_enc vs n (by omega) hw.2).map list
  | map kvs, n + 1, h, hw => by
    rw [depth] at h
    rw [wf] at hw
    refine Decodes.bind (Codec.uint.decodes 7 trivial) (Decodes.bind (Codec.uint.decodes _ trivial) ?_)
    rw [UInt64.toNat_ofNat_of_lt' hw.1]
    have := (decMap_enc kvs n (by omega) hw.2.2).bind_pure fun kvs => map (fromPairs kvs)
    rwa [fromPairs_sorted kvs hw.2.1] at this
theorem decList_enc : ∀ (vs : List Variant) (n : Nat), depthList vs ≤ n → wfList vs →
    Decodes (times (dec n) vs.length) (encList vs) vs
  | [], _, _, _ => Decodes.pure []
  | v :: vs, n, h, hw => by
    rw [depthList] at h
    rw [wfList] at hw
    rw [encList]
    exact Decodes.bind (dec_enc v n (by omega) hw.1) ((decList_enc vs n (by omega) hw.2).bind_pure (v :: ·))
theorem decMap_enc : ∀ (kvs : List (Text × Variant)) (n : Nat), depthMap kvs ≤ n → wfMap kvs →
    Decodes (times (do
      let key ← Codec.text.dec
      let v ← dec n
      return (key, v)) kvs.length) (encMap kvs) kvs
  | [], _, _, _ => Decodes.pure []
  | (k, v) :: kvs, n, h, hw => by
    rw [depthMap] at h
    rw [wfMap] at hw
    rw [encMap]
    exact Decodes.bind (Decodes.bind (Codec.text.decodes k hw.1) ((dec_enc v n (by omega) hw.2.1).bind_pure (k, ·)))
      ((decMap_enc kvs n (by omega) hw.2.2).bind_pure ((k, v) :: ·))
end

theorem encVar_length_pos (k n : Nat) : 0 < (encVar k n).length :=
  List.length_pos_of_ne_nil (encVar_ne_nil k n)

theorem uint_enc_length_pos (u : UInt64) : 0 < (Codec.uint.enc u).length := encVar_length_pos 9 u.toNat

mutual
theorem depth_le_enc : ∀ (v : Variant), v.depth ≤ v.enc.length
  | empty => by simp only [depth, enc]; exact uint_enc_length_pos 0
  | boolean _ => by simp only [depth, enc, List.length_append]; have := uint_enc_length_pos 1; omega
  | signed _ => by simp only [depth, enc, List.length_append]; have := uint_enc_length_pos 2; omega
  | unsigned _ => by simp only [depth, enc, List.length_append]; have := uint_enc_length_pos 3; omega
  | string _ => by simp only [depth, enc, List.length_append]; have := uint_enc_length_pos 4; omega
  | bytes _ => by simp only [depth, enc, List.length_append]; have := uint_enc_length_pos 5; omega
  | list vs => by
    have := uint_enc_length_pos 6
    have := depthList_le_enc vs
    rw [depth, enc, List.length_append, List.length_append]; omega
  | map kvs => by
    have := uint_enc_length_pos 7
    have := depthMap_le_enc kvs
    rw [depth, enc, List.length_append, List.length_append]; omega
theorem depthList_le_enc : ∀ (vs : List Variant), depthList vs ≤ (encList vs).length
  | [] => Nat.le_refl 0
  | v :: vs => by
    have := depth_le_enc v
    have := depthList_le_enc vs
    rw [depthList, encList, List.length_append]; omega
theorem depthMap_le_enc : ∀ (kvs : List (Text × Variant)), depthMap kvs ≤ (encMap kvs).length
  | [] => Nat.le_refl 0
  | (k, v) :: kvs => by
    have := depth_le_enc v
    have := depthMap_le_enc kvs
    rw [depthMap, encMap, List.length_append, List.length_append]; omega
end

/-- **The wire form of a value**: no value is nested deeper than its encoding is long. -/
def codec : Codec Variant where
  enc := enc
  dec := fun bs => dec bs.length bs
  wf := wf
  decodes v hv rest := dec_enc v _ (by have := depth_le_enc v; rw [List.length_append]; omega) hv rest

end Variant

/-! ## Tagged data -/

/-- A tag as it came (known or not), and its value. -/
structure TaggedData where
  tag : UInt64
  data : Variant

namespace TaggedData

def codec : Codec TaggedData :=
  (Codec.uint.pair Variant.codec).iso (fun p => ⟨p.1, p.2⟩) (fun t => (t.tag, t.data)) fun _ => rfl

end TaggedData

/-- The data of the first element with that tag. -/
def findTag (tds : List TaggedData) (tag : UInt64) : Option Variant :=
  (tds.find? fun td => td.tag == tag).map TaggedData.data

end Qcp
