import Qcp.Compat
import Qcp.PortRange
import Qcp.Host
/-!
# Socket — a port out of a range

`bindRangeForAddress` tries the ports of a range one after the other.  `bindRange_usesWhole_iff` says when it finds a
free port of the range if there is one: its loop leaves out the last.
-/
namespace Qcp

inductive IpAddr where
  | v4 (bits : BitVec 32)
  | v6 (bits : BitVec 128)
deriving DecidableEq, Repr

/-- An address and a port; port 0 stands for any that is free. -/
structure SocketAddr where
  addr : IpAddr
  port : UInt16
deriving DecidableEq, Repr

/-- A socket, by what it was bound to. -/
structure UdpSocket where
  boundTo : SocketAddr
deriving DecidableEq, Repr

section Bind

variable (os : SocketAddr → Except IoError Unit) (addr : IpAddr)

def UdpSocket.bind (a : SocketAddr) : Except IoError UdpSocket :=
  match os a with
  | .ok () => .ok ⟨a⟩
  | .error e => .error e

/-- The first of so many ports that can be had, from one port up. -/
def bindFirst (port : Nat) : Nat → Option UdpSocket
  | 0 => none
  | n + 1 =>
    match UdpSocket.bind os ⟨addr, UInt16.ofNat port⟩ with
    | .ok sock => some sock
    | .error _ => bindFirst (port + 1) n

def bindRangeForAddress (range : PortRange) : Except IoError UdpSocket :=
  if range.begin = range.end then UdpSocket.bind os ⟨addr, range.begin⟩
  else
    match bindFirst os addr range.begin.toNat (range.end.toNat - range.begin.toNat) with
    | some sock => .ok sock
    | none => .error ⟨.other, "failed to bind a port in the given range".toList⟩

def bindRangeForFamily (family : ConnectionType) (range : PortRange) : Except IoError UdpSocket :=
  match family with
  | .ipv4 => bindRangeForAddress os (.v4 0) range
  | .ipv6 => bindRangeForAddress os (.v6 0) range

/-- Whether a port can be had. -/
def Bindable (port : UInt16) : Prop := os ⟨addr, port⟩ = .ok ()

/-- **A range is used in full**: a port of it is bound if one can be, and there is no failure unless none can be. -/
structure UsesWhole (range : PortRange) : Prop where
  bound : ∀ p, range.begin ≤ p → p ≤ range.end → Bindable os addr p →
    ∃ q, range.begin ≤ q ∧ q ≤ range.end ∧ Bindable os addr q ∧ bindRangeForAddress os addr range = .ok ⟨⟨addr, q⟩⟩
  failed : ∀ e, bindRangeForAddress os addr range = .error e → ∀ p, range.begin ≤ p → p ≤ range.end →
    ¬ Bindable os addr p

variable {os addr}

theorem bind_ok_iff {a : SocketAddr} {sock : UdpSocket} :
    UdpSocket.bind os a = .ok sock ↔ os a = .ok () ∧ sock = ⟨a⟩ := by
  unfold UdpSocket.bind
  cases h : os a with
  | ok u => simp [eq_comm]
  | error e => simp

/-- What fails is the one bind there is, or all of them. -/
theorem bindRangeForFamily_error {family : ConnectionType} {range : PortRange} {e : IoError}
    (h : bindRangeForFamily os family range = .error e) :
    (∃ a, os a = .error e) ∨ e = ⟨.other, "failed to bind a port in the given range".toList⟩ := by
  have one : ∀ addr, bindRangeForAddress os addr range = .error e →
      (∃ a, os a = .error e) ∨ e = ⟨.other, "failed to bind a port in the given range".toList⟩ := by
    intro addr h
    unfold bindRangeForAddress UdpSocket.bind at h
    split at h
    · split at h
      · cases h
      · rename_i e' he
        cases h
        exact Or.inl ⟨_, he⟩
    · split at h
      · cases h
      · cases h
        exact Or.inr rfl
  cases family with
  | ipv4 => exact one _ h
  | ipv6 => exact one _ h

theorem bindFirst_some {sock : UdpSocket} : ∀ (n port : Nat), bindFirst os addr port n = some sock →
    ∃ i < n, Bindable os addr (UInt16.ofNat (port + i)) ∧ sock = ⟨⟨addr, UInt16.ofNat (port + i)⟩⟩
  | 0, _, h => by cases h
  | n + 1, port, h => by
    unfold bindFirst at h
    split at h
    · rename_i sock' hb
      cases h
      obtain ⟨hok, rfl⟩ := bind_ok_iff.1 hb
      exact ⟨0, Nat.succ_pos n, hok, rfl⟩
    · obtain ⟨i, hi, hb, rfl⟩ := bindFirst_some n (port + 1) h
      have he : port + 1 + i = port + (i + 1) := by omega
      rw [he] at hb ⊢
      exact ⟨i + 1, by omega, hb, rfl⟩

theorem bindFirst_none : ∀ (n port : Nat), bindFirst os addr port n = none →
    ∀ i < n, ¬ Bindable os addr (UInt16.ofNat (port + i))
  | 0, _, _, i, hi => absurd hi (Nat.not_lt_zero i)
  | n + 1, port, h, i, hi => by
    unfold bindFirst at h
    split at h
    · cases h
    · rename_i e hb
      cases i with
      | zero =>
        intro hok
        rw [Nat.add_zero] at hok
        cases hb.symm.trans (bind_ok_iff.2 ⟨hok, rfl⟩)
      | succ i =>
        have := bindFirst_none n (port + 1) h i (by omega)
        rwa [show port + 1 + i = port + (i + 1) by omega] at this

/-- What the loop tries: the ports below the last. -/
theorem bindFirst_range (range : PortRange) (h : range.begin < range.end) :
    (∃ q, range.begin ≤ q ∧ q < range.end ∧ Bindable os addr q ∧
        bindRangeForAddress os addr range = .ok ⟨⟨addr, q⟩⟩) ∨
      (∃ e, bindRangeForAddress os addr range = .error e) ∧
        ∀ p, range.begin ≤ p → p < range.end → ¬ Bindable os addr p := by
  have hlt := range.end.toNat_lt
  have hlt' : range.begin.toNat < range.end.toNat := UInt16.lt_iff_toNat_lt.1 h
  unfold bindRangeForAddress
  rw [if_neg fun he => by rw [he] at hlt'; exact Nat.lt_irrefl _ hlt']
  cases hf : bindFirst os addr range.begin.toNat (range.end.toNat - range.begin.toNat) with
  | some sock =>
    obtain ⟨i, hi, hb, rfl⟩ := bindFirst_some _ _ hf
    have hn : (UInt16.ofNat (range.begin.toNat + i)).toNat = range.begin.toNat + i :=
      UInt16.toNat_ofNat_of_lt' (show _ < 2 ^ 16 by omega)
    refine Or.inl ⟨_, UInt16.le_iff_toNat_le.2 ?_, UInt16.lt_iff_toNat_lt.2 ?_, hb, rfl⟩ <;> omega
  | none =>
    refine Or.inr ⟨⟨_, rfl⟩, fun p hp hp' => ?_⟩
    have hp := UInt16.le_iff_toNat_le.1 hp
    have hp' := UInt16.lt_iff_toNat_lt.1 hp'
    have := bindFirst_none _ _ hf (p.toNat - range.begin.toNat) (by omega)
    rwa [show range.begin.toNat + (p.toNat - range.begin.toNat) = p.toNat by omega, UInt16.ofNat_toNat] at this

/-- **A range is used in full exactly when** it is one port, or a port before its last can be had, or its last
cannot. -/
theorem bindRange_usesWhole_iff (range : PortRange) (h : range.begin ≤ range.end) :
    UsesWhole os addr range ↔ range.begin = range.end ∨
      (∃ p, range.begin ≤ p ∧ p < range.end ∧ Bindable os addr p) ∨ ¬ Bindable os addr range.end := by
  by_cases he : range.begin = range.end
  · refine iff_of_true ⟨fun p hp hp' hb => ?_, fun e hr p hp hp' hb => ?_⟩ (Or.inl he)
    · have hpe : p = range.begin := UInt16.le_antisymm (he ▸ hp') hp
      subst hpe
      exact ⟨range.begin, hp, hp', hb, by rw [bindRangeForAddress, if_pos he]; exact bind_ok_iff.2 ⟨hb, rfl⟩⟩
    · have hpe : p = range.begin := UInt16.le_antisymm (he ▸ hp') hp
      subst hpe
      rw [bindRangeForAddress, if_pos he] at hr
      cases hr.symm.trans (bind_ok_iff.2 ⟨hb, rfl⟩)
  · have hlt : range.begin < range.end := UInt16.lt_of_le_of_ne h he
    rw [or_iff_right he]
    rcases bindFirst_range  range hlt with ⟨q, hq, hq', hb, hr⟩ | ⟨⟨e, hr⟩, hno⟩
    · refine iff_of_true ⟨fun _ _ _ _ => ⟨q, hq, UInt16.le_of_lt hq', hb, hr⟩, fun e hr' => ?_⟩
        (Or.inl ⟨q, hq, hq', hb⟩)
      cases hr.symm.trans hr'
    · have hno' : ¬ ∃ p, range.begin ≤ p ∧ p < range.end ∧ Bindable os addr p := fun ⟨p, hp, hp', hb⟩ => hno p hp hp' hb
      rw [or_iff_right hno']
      refine ⟨fun hu => hu.failed e hr _ h (UInt16.le_refl _), fun hlast => ?_⟩
      have hall : ∀ p, range.begin ≤ p → p ≤ range.end → ¬ Bindable os addr p := fun p hp hp' hb => by
        by_cases hpe : p = range.end
        · exact hlast (hpe ▸ hb)
        · exact hno p hp (UInt16.lt_of_le_of_ne hp' hpe) hb
      exact ⟨fun p hp hp' hb => absurd hb (hall p hp hp'), fun _ _ => hall⟩

end Bind

/-- A host on which one port is free. -/
def onlyFree (port : UInt16) (a : SocketAddr) : Except IoError Unit :=
  if a.port = port then .ok () else .error ⟨.other, "Address already in use".toList⟩

theorem bindRange_usesWhole_iff_first : UsesWhole (onlyFree 60000) (.v4 0) ⟨60000, 60001⟩ ↔
    (60000 : UInt16) = 60001 ∨
      (∃ p, 60000 ≤ p ∧ p < 60001 ∧ Bindable (onlyFree 60000) (.v4 0) p) ∨ ¬ Bindable (onlyFree 60000) (.v4 0) 60001 :=
  bindRange_usesWhole_iff ⟨60000, 60001⟩ (by decide)

/-- **The last port of a range is never bound.** -/
theorem not_usesWhole : ¬ ∀ (os : SocketAddr → Except IoError Unit) (addr : IpAddr) (range : PortRange),
    range.begin ≤ range.end → UsesWhole os addr range := by
  intro h
  have hu := h (onlyFree 60001) (.v4 0) ⟨60000, 60001⟩ (by decide)
  exact hu.failed ⟨.other, "failed to bind a port in the given range".toList⟩ (by decide) 60001 (by decide) (by decide)
    rfl

end Qcp
