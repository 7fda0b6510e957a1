import Qcp.Compat
import Qcp.Layers
import Qcp.PortRange
/-!
# Config — the configuration and the layers it is read from

A configuration is read field by field out of layered dictionaries (`Manager`).  A `Field` is a key with the way its
values are read; `Configuration.extract` and `ConfigurationOptional.extract` read every field, and
`Configuration.extract_toDict`, `ConfigurationOptional.extract_toDict` read back what the providers write.  Quantities
are written and read in engineering notation (`EngRepr`).  `tryValidate` is the check on a whole configuration.
-/
namespace Qcp

open Layers (Dict Layered)

/-- Engineering notation that reads back what it prints. -/
structure EngRepr where
  toEng : UInt64 → List Char
  parse : List Char → Option UInt64
  parse_toEng : ∀ n, parse (toEng n) = some n

namespace EngRepr

/-- Plain decimal digits. -/
def decimal : EngRepr where
  toEng n := Decimal.showNat n.toNat
  parse s := (Decimal.parseNat (2 ^ 64 - 1) s).map UInt64.ofNat
  parse_toEng n := by
    have := n.toNat_lt
    rw [Decimal.parseNat_showNat _ _ (by omega) (by decide), Option.map_some, UInt64.ofNat_toNat]

end EngRepr

/-- The configuration fields by name. -/
inductive Key where
  | rx
  | tx
  | rtt
  | congestion
  | initialCongestionWindow
  | port
  | timeout
  | udpBuffer
  | initialMtu
  | minMtu
  | maxMtu
  | remotePort
  | tlsAuthType
  | ioBufferSize
deriving DecidableEq, Repr

inductive Value where
  | num (n : UInt64)
  | str (s : List Char)
deriving DecidableEq, Repr

inductive ConfigError where
  | fused (message : List Char)
  | missingField (k : Key)
  | invalidValue (k : Key) (v : Value)
deriving DecidableEq, Repr

/-! ## Fields -/

/-- A key, and how its values are read. -/
structure Field (α : Type) where
  key : Key
  read : Value → Option α

namespace Field

variable {α : Type}

/-- The field as an optional preference. -/
def getOpt (f : Field α) (look : Dict Key Value) : Except ConfigError (Option α) :=
  match look f.key with
  | none => .ok none
  | some v => match f.read v with
    | none => .error (.invalidValue f.key v)
    | some a => .ok (some a)

/-- The field where a value is required. -/
def get (f : Field α) (look : Dict Key Value) : Except ConfigError α :=
  match look f.key with
  | none => .error (.missingField f.key)
  | some v => match f.read v with
    | none => .error (.invalidValue f.key v)
    | some a => .ok a

theorem get_congr (f : Field α) (look look' : Dict Key Value) (h : look f.key = look' f.key) :
    f.get look = f.get look' := by
  unfold get
  rw [h]

theorem get_of_look (f : Field α) (look : Dict Key Value) (v : Value) (a : α) (hl : look f.key = some v)
    (hr : f.read v = some a) : f.get look = .ok a := by
  unfold get
  rw [hl]
  simp only [hr]

theorem get_of_unread (f : Field α) (look : Dict Key Value) (v : Value) (hl : look f.key = some v)
    (hr : f.read v = none) : f.get look = .error (.invalidValue f.key v) := by
  unfold get
  rw [hl]
  simp only [hr]

theorem getOpt_of_look (f : Field α) (look : Dict Key Value) (v : Value) (a : α) (hl : look f.key = some v)
    (hr : f.read v = some a) : f.getOpt look = .ok (some a) := by
  unfold getOpt
  rw [hl]
  simp only [hr]

theorem getOpt_none_iff (f : Field α) (look : Dict Key Value) : f.getOpt look = .ok none ↔ look f.key = none := by
  unfold getOpt
  constructor
  · intro h
    split at h
    · assumption
    · split at h <;> cases h
  · intro h
    rw [h]

/-- A stated preference is a value that reads as it. -/
theorem getOpt_some_iff (f : Field α) (look : Dict Key Value) (a : α) :
    f.getOpt look = .ok (some a) ↔ ∃ v, look f.key = some v ∧ f.read v = some a := by
  constructor
  · intro h
    unfold getOpt at h
    split at h
    · cases h
    · rename_i v hv
      split at h
      · cases h
      · rename_i b hb
        cases h
        exact ⟨v, hv, hb⟩
  · rintro ⟨v, hv, hr⟩
    exact f.getOpt_of_look look v a hv hr

/-- **A field over a default**: the stated preference, or else what the default says. -/
theorem get_or (f : Field α) (look dflt : Dict Key Value) (s : Option α) (hs : f.getOpt look = .ok s) :
    f.get (fun k => (look k).or (dflt k)) = s.elim (f.get dflt) .ok := by
  cases s with
  | none =>
    have hn := (f.getOpt_none_iff look).1 hs
    show (match (look f.key).or (dflt f.key) with
      | none => _
      | some v => _) = _
    rw [hn, Option.none_or]
    rfl
  | some a =>
    obtain ⟨v, hv, hr⟩ := (f.getOpt_some_iff look a).1 hs
    exact f.get_of_look _ v a (by rw [hv, Option.some_or]) hr

end Field

def readQuantity (E : EngRepr) : Value → Option UInt64
  | .num n => some n
  | .str s => E.parse s

def readU16 : Value → Option UInt16
  | .num n => if n < 65536 then some n.toUInt16 else none
  | .str s => (Decimal.parseNat 65535 s).map UInt16.ofNat

def readCongestion : Value → Option CongestionController
  | .num _ => none
  | .str s => CongestionController.tryUnscribe s

def readPortRange : Value → Option PortRange
  | .num _ => none
  | .str s => (PortRange.fromStr s).toOption

def readCredentialsType : Value → Option CredentialsType
  | .num _ => none
  | .str s => CredentialsType.tryUnscribe s

namespace Field

def rx (E : EngRepr) : Field UInt64 := ⟨.rx, readQuantity E⟩
def tx (E : EngRepr) : Field UInt64 := ⟨.tx, readQuantity E⟩
def rtt : Field UInt16 := ⟨.rtt, readU16⟩
def congestion : Field CongestionController := ⟨.congestion, readCongestion⟩
def initialCongestionWindow (E : EngRepr) : Field UInt64 := ⟨.initialCongestionWindow, readQuantity E⟩
def port : Field PortRange := ⟨.port, readPortRange⟩
def timeout : Field UInt16 := ⟨.timeout, readU16⟩
def udpBuffer (E : EngRepr) : Field UInt64 := ⟨.udpBuffer, readQuantity E⟩
def initialMtu : Field UInt16 := ⟨.initialMtu, readU16⟩
def minMtu : Field UInt16 := ⟨.minMtu, readU16⟩
def maxMtu : Field UInt16 := ⟨.maxMtu, readU16⟩
def remotePort : Field PortRange := ⟨.remotePort, readPortRange⟩
def tlsAuthType : Field CredentialsType := ⟨.tlsAuthType, readCredentialsType⟩
def ioBufferSize (E : EngRepr) : Field UInt64 := ⟨.ioBufferSize, readQuantity E⟩

end Field

/-! ## The configuration -/

structure Configuration where
  rx : UInt64
  tx : UInt64
  rtt : UInt16
  congestion : CongestionController
  initialCongestionWindow : UInt64
  port : PortRange
  timeout : UInt16
  udpBuffer : UInt64
  initialMtu : UInt16
  minMtu : UInt16
  maxMtu : UInt16
  remotePort : PortRange
  tlsAuthType : CredentialsType
  ioBufferSize : UInt64
deriving DecidableEq, Repr

structure ConfigurationOptional where
  rx : Option UInt64
  tx : Option UInt64
  rtt : Option UInt16
  congestion : Option CongestionController
  initialCongestionWindow : Option UInt64
  port : Option PortRange
  timeout : Option UInt16
  udpBuffer : Option UInt64
  initialMtu : Option UInt16
  minMtu : Option UInt16
  maxMtu : Option UInt16
  remotePort : Option PortRange
  tlsAuthType : Option CredentialsType
  ioBufferSize : Option UInt64
deriving DecidableEq, Repr

/-- No preference at all. -/
def ConfigurationOptional.empty : ConfigurationOptional :=
  ⟨none, none, none, none, none, none, none, none, none, none, none, none, none, none⟩

instance : Inhabited ConfigurationOptional := ⟨.empty⟩

namespace Configuration

def systemDefault : Configuration where
  rx := 12500000
  tx := 0
  rtt := 300
  congestion := .cubic
  initialCongestionWindow := 0
  port := ⟨0, 0⟩
  timeout := 5
  udpBuffer := 4000000
  initialMtu := 1200
  minMtu := 1200
  maxMtu := 1452
  remotePort := ⟨0, 0⟩
  tlsAuthType := .any
  ioBufferSize := 1048576

def getRx (c : Configuration) : UInt64 := c.rx

/-- A `tx` of 0 is the `rx`. -/
def getTx (c : Configuration) : UInt64 := if c.tx = 0 then c.getRx else c.tx

def extract (E : EngRepr) (look : Dict Key Value) : Except ConfigError Configuration := do
  let rx ← (Field.rx E).get look
  let tx ← (Field.tx E).get look
  let rtt ← Field.rtt.get look
  let congestion ← Field.congestion.get look
  let initialCongestionWindow ← (Field.initialCongestionWindow E).get look
  let port ← Field.port.get look
  let timeout ← Field.timeout.get look
  let udpBuffer ← (Field.udpBuffer E).get look
  let initialMtu ← Field.initialMtu.get look
  let minMtu ← Field.minMtu.get look
  let maxMtu ← Field.maxMtu.get look
  let remotePort ← Field.remotePort.get look
  let tlsAuthType ← Field.tlsAuthType.get look
  let ioBufferSize ← (Field.ioBufferSize E).get look
  return ⟨rx, tx, rtt, congestion, initialCongestionWindow, port, timeout, udpBuffer, initialMtu, minMtu, maxMtu,
    remotePort, tlsAuthType, ioBufferSize⟩

/-- The dictionary of a whole configuration. -/
def toDict (E : EngRepr) (c : Configuration) : Dict Key Value
  | .rx => some (.str (E.toEng c.rx))
  | .tx => some (.str (E.toEng c.tx))
  | .rtt => some (.num c.rtt.toUInt64)
  | .congestion => some (.str c.congestion.toString)
  | .initialCongestionWindow => some (.str (E.toEng c.initialCongestionWindow))
  | .port => some (.str c.port.display)
  | .timeout => some (.num c.timeout.toUInt64)
  | .udpBuffer => some (.str (E.toEng c.udpBuffer))
  | .initialMtu => some (.num c.initialMtu.toUInt64)
  | .minMtu => some (.num c.minMtu.toUInt64)
  | .maxMtu => some (.num c.maxMtu.toUInt64)
  | .remotePort => some (.str c.remotePort.display)
  | .tlsAuthType => some (.str c.tlsAuthType.toString)
  | .ioBufferSize => some (.str (E.toEng c.ioBufferSize))

/-- What the configuration read from a dictionary has in each field. -/
structure Reads (E : EngRepr) (look : Dict Key Value) (c : Configuration) : Prop where
  rx : (Field.rx E).get look = .ok c.rx
  tx : (Field.tx E).get look = .ok c.tx
  rtt : Field.rtt.get look = .ok c.rtt
  congestion : Field.congestion.get look = .ok c.congestion
  initialCongestionWindow : (Field.initialCongestionWindow E).get look = .ok c.initialCongestionWindow
  port : Field.port.get look = .ok c.port
  timeout : Field.timeout.get look = .ok c.timeout
  udpBuffer : (Field.udpBuffer E).get look = .ok c.udpBuffer
  initialMtu : Field.initialMtu.get look = .ok c.initialMtu
  minMtu : Field.minMtu.get look = .ok c.minMtu
  maxMtu : Field.maxMtu.get look = .ok c.maxMtu
  remotePort : Field.remotePort.get look = .ok c.remotePort
  tlsAuthType : Field.tlsAuthType.get look = .ok c.tlsAuthType
  ioBufferSize : (Field.ioBufferSize E).get look = .ok c.ioBufferSize

theorem bind_eq_ok {ε α β : Type} (x : Except ε α) (f : α → Except ε β) (b : β) :
    (x >>= f) = .ok b ↔ ∃ a, x = .ok a ∧ f a = .ok b := by
  cases x with
  | error e => exact ⟨nofun, nofun⟩
  | ok a => exact ⟨fun h => ⟨a, rfl, h⟩, fun ⟨_, h, hf⟩ => by cases h; exact hf⟩

theorem bind_eq_error {ε α β : Type} (x : Except ε α) (f : α → Except ε β) (e : ε) :
    (x >>= f) = .error e ↔ x = .error e ∨ ∃ a, x = .ok a ∧ f a = .error e := by
  cases x with
  | error e' => exact ⟨fun h => by cases h; exact Or.inl rfl, fun h => by rcases h with h | ⟨_, h, -⟩ <;> cases h; rfl⟩
  | ok a =>
    refine ⟨fun h => Or.inr ⟨a, rfl, h⟩, fun h => ?_⟩
    rcases h with h | ⟨_, h, hf⟩
    · cases h
    · cases h
      exact hf

theorem extract_eq_ok_iff (E : EngRepr) (look : Dict Key Value) (c : Configuration) :
    extract E look = .ok c ↔ Reads E look c := by
  unfold extract
  simp only [bind_eq_ok]
  constructor
  · rintro ⟨_, h1, _, h2, _, h3, _, h4, _, h5, _, h6, _, h7, _, h8, _, h9, _, h10, _, h11, _, h12, _, h13, _, h14, h⟩
    cases h
    exact ⟨h1, h2, h3, h4, h5, h6, h7, h8, h9, h10, h11, h12, h13, h14⟩
  · intro h
    exact ⟨_, h.rx, _, h.tx, _, h.rtt, _, h.congestion, _, h.initialCongestionWindow, _, h.port, _, h.timeout, _,
      h.udpBuffer, _, h.initialMtu, _, h.minMtu, _, h.maxMtu, _, h.remotePort, _, h.tlsAuthType, _, h.ioBufferSize, rfl⟩

theorem readU16_num (n : UInt16) : readU16 (.num n.toUInt64) = some n := by
  have h : n.toUInt64 < 65536 := by
    rw [UInt64.lt_iff_toNat_lt]
    exact n.toNat_lt
  rw [readU16, if_pos h]
  simp

theorem readPortRange_display (r : PortRange) (h : r.valid) : readPortRange (.str r.display) = some r := by
  rw [readPortRange, PortRange.fromStr_display r h]
  rfl

/-- **A whole configuration is read back from its dictionary.** -/
theorem extract_toDict (E : EngRepr) (c : Configuration) (hp : c.port.valid) (hr : c.remotePort.valid) :
    extract E (c.toDict E) = .ok c := by
  rw [extract_eq_ok_iff]
  exact ⟨Field.get_of_look _ _ _ _ rfl (E.parse_toEng _), Field.get_of_look _ _ _ _ rfl (E.parse_toEng _),
    Field.get_of_look _ _ _ _ rfl (readU16_num _),
    Field.get_of_look _ _ _ _ rfl (CongestionController.tryUnscribe_toString _),
    Field.get_of_look _ _ _ _ rfl (E.parse_toEng _), Field.get_of_look _ _ _ _ rfl (readPortRange_display _ hp),
    Field.get_of_look _ _ _ _ rfl (readU16_num _), Field.get_of_look _ _ _ _ rfl (E.parse_toEng _),
    Field.get_of_look _ _ _ _ rfl (readU16_num _), Field.get_of_look _ _ _ _ rfl (readU16_num _),
    Field.get_of_look _ _ _ _ rfl (readU16_num _), Field.get_of_look _ _ _ _ rfl (readPortRange_display _ hr),
    Field.get_of_look _ _ _ _ rfl (CredentialsType.tryUnscribe_toString _),
    Field.get_of_look _ _ _ _ rfl (E.parse_toEng _)⟩

end Configuration

namespace ConfigurationOptional

def extract (E : EngRepr) (look : Dict Key Value) : Except ConfigError ConfigurationOptional := do
  let rx ← (Field.rx E).getOpt look
  let tx ← (Field.tx E).getOpt look
  let rtt ← Field.rtt.getOpt look
  let congestion ← Field.congestion.getOpt look
  let initialCongestionWindow ← (Field.initialCongestionWindow E).getOpt look
  let port ← Field.port.getOpt look
  let timeout ← Field.timeout.getOpt look
  let udpBuffer ← (Field.udpBuffer E).getOpt look
  let initialMtu ← Field.initialMtu.getOpt look
  let minMtu ← Field.minMtu.getOpt look
  let maxMtu ← Field.maxMtu.getOpt look
  let remotePort ← Field.remotePort.getOpt look
  let tlsAuthType ← Field.tlsAuthType.getOpt look
  let ioBufferSize ← (Field.ioBufferSize E).getOpt look
  return ⟨rx, tx, rtt, congestion, initialCongestionWindow, port, timeout, udpBuffer, initialMtu, minMtu, maxMtu,
    remotePort, tlsAuthType, ioBufferSize⟩

/-- The dictionary of the preferences stated. -/
def toDict (E : EngRepr) (o : ConfigurationOptional) : Dict Key Value
  | .rx => o.rx.map fun n => .str (E.toEng n)
  | .tx => o.tx.map fun n => .str (E.toEng n)
  | .rtt => o.rtt.map fun n => .num n.toUInt64
  | .congestion => o.congestion.map fun c => .str c.toString
  | .initialCongestionWindow => o.initialCongestionWindow.map fun n => .str (E.toEng n)
  | .port => o.port.map fun r => .str r.display
  | .timeout => o.timeout.map fun n => .num n.toUInt64
  | .udpBuffer => o.udpBuffer.map fun n => .str (E.toEng n)
  | .initialMtu => o.initialMtu.map fun n => .num n.toUInt64
  | .minMtu => o.minMtu.map fun n => .num n.toUInt64
  | .maxMtu => o.maxMtu.map fun n => .num n.toUInt64
  | .remotePort => o.remotePort.map fun r => .str r.display
  | .tlsAuthType => o.tlsAuthType.map fun c => .str c.toString
  | .ioBufferSize => o.ioBufferSize.map fun n => .str (E.toEng n)

/-- What the preferences read from a dictionary are in each field. -/
structure Reads (E : EngRepr) (look : Dict Key Value) (o : ConfigurationOptional) : Prop where
  rx : (Field.rx E).getOpt look = .ok o.rx
  tx : (Field.tx E).getOpt look = .ok o.tx
  rtt : Field.rtt.getOpt look = .ok o.rtt
  congestion : Field.congestion.getOpt look = .ok o.congestion
  initialCongestionWindow : (Field.initialCongestionWindow E).getOpt look = .ok o.initialCongestionWindow
  port : Field.port.getOpt look = .ok o.port
  timeout : Field.timeout.getOpt look = .ok o.timeout
  udpBuffer : (Field.udpBuffer E).getOpt look = .ok o.udpBuffer
  initialMtu : Field.initialMtu.getOpt look = .ok o.initialMtu
  minMtu : Field.minMtu.getOpt look = .ok o.minMtu
  maxMtu : Field.maxMtu.getOpt look = .ok o.maxMtu
  remotePort : Field.remotePort.getOpt look = .ok o.remotePort
  tlsAuthType : Field.tlsAuthType.getOpt look = .ok o.tlsAuthType
  ioBufferSize : (Field.ioBufferSize E).getOpt look = .ok o.ioBufferSize

theorem extract_eq_ok_iff (E : EngRepr) (look : Dict Key Value) (o : ConfigurationOptional) :
    extract E look = .ok o ↔ Reads E look o := by
  unfold extract
  simp only [Configuration.bind_eq_ok]
  constructor
  · rintro ⟨_, h1, _, h2, _, h3, _, h4, _, h5, _, h6, _, h7, _, h8, _, h9, _, h10, _, h11, _, h12, _, h13, _, h14, h⟩
    cases h
    exact ⟨h1, h2, h3, h4, h5, h6, h7, h8, h9, h10, h11, h12, h13, h14⟩
  · intro h
    exact ⟨_, h.rx, _, h.tx, _, h.rtt, _, h.congestion, _, h.initialCongestionWindow, _, h.port, _, h.timeout, _,
      h.udpBuffer, _, h.initialMtu, _, h.minMtu, _, h.maxMtu, _, h.remotePort, _, h.tlsAuthType, _, h.ioBufferSize, rfl⟩

theorem getOpt_map {α : Type} (f : Field α) (look : Dict Key Value) (o : Option α) (w : α → Value)
    (hl : look f.key = o.map w) (hr : ∀ a ∈ o, f.read (w a) = some a) : f.getOpt look = .ok o := by
  cases o with
  | none => exact (f.getOpt_none_iff look).2 hl
  | some a => exact f.getOpt_of_look look (w a) a hl (hr a rfl)

/-- **The preferences stated are read back from their dictionary.** -/
theorem extract_toDict (E : EngRepr) (o : ConfigurationOptional) (hp : ∀ r ∈ o.port, r.valid)
    (hr : ∀ r ∈ o.remotePort, r.valid) : extract E (o.toDict E) = .ok o := by
  rw [extract_eq_ok_iff]
  exact ⟨getOpt_map _ _ _ _ rfl fun n _ => E.parse_toEng n, getOpt_map _ _ _ _ rfl fun n _ => E.parse_toEng n,
    getOpt_map _ _ _ _ rfl fun n _ => Configuration.readU16_num n,
    getOpt_map _ _ _ _ rfl fun c _ => CongestionController.tryUnscribe_toString c,
    getOpt_map _ _ _ _ rfl fun n _ => E.parse_toEng n,
    getOpt_map _ _ _ _ rfl fun r h => Configuration.readPortRange_display r (hp r h),
    getOpt_map _ _ _ _ rfl fun n _ => Configuration.readU16_num n,
    getOpt_map _ _ _ _ rfl fun n _ => E.parse_toEng n, getOpt_map _ _ _ _ rfl fun n _ => Configuration.readU16_num n,
    getOpt_map _ _ _ _ rfl fun n _ => Configuration.readU16_num n,
    getOpt_map _ _ _ _ rfl fun n _ => Configuration.readU16_num n,
    getOpt_map _ _ _ _ rfl fun r h => Configuration.readPortRange_display r (hr r h),
    getOpt_map _ _ _ _ rfl fun c _ => CredentialsType.tryUnscribe_toString c,
    getOpt_map _ _ _ _ rfl fun n _ => E.parse_toEng n⟩

end ConfigurationOptional

/-! ## The manager -/

/-- A manager holds the layers, or the error a provider left it with. -/
structure Manager where
  data : Except ConfigError (Layered Key Value)

namespace Manager

/-- What a provider puts in the global profile, merged. -/
def mergeProvider (m : Manager) (d : Except ConfigError (Dict Key Value)) : Manager :=
  ⟨m.data.bind fun l => d.map fun d => l.merge .global d⟩

def applySystemDefault (E : EngRepr) (m : Manager) : Manager :=
  ⟨m.data.map fun l => l.join .dflt (Configuration.systemDefault.toDict E)⟩

def get (E : EngRepr) (m : Manager) : Except ConfigError Configuration :=
  m.data.bind fun l => Configuration.extract E l.look

def getOptional (E : EngRepr) (m : Manager) : Except ConfigError ConfigurationOptional :=
  m.data.bind fun l => ConfigurationOptional.extract E l.look

/-- The manager that holds just what one side states. -/
def ofOptional (E : EngRepr) (o : ConfigurationOptional) : Manager :=
  ⟨.ok (Layered.new.merge .global (o.toDict E))⟩

theorem getOptional_ofOptional (E : EngRepr) (o : ConfigurationOptional) (hp : ∀ r ∈ o.port, r.valid)
    (hr : ∀ r ∈ o.remotePort, r.valid) : (ofOptional E o).getOptional E = .ok o := by
  show ConfigurationOptional.extract E (Layered.new.merge .global (o.toDict E)).look = .ok o
  have : (Layered.new.merge .global (o.toDict E)).look = o.toDict E := by
    funext k
    rw [Layered.look_merge_global, Layered.look_new, Option.or_none]
  rw [this]
  exact ConfigurationOptional.extract_toDict E o hp hr

end Manager

/-! ## Validation -/

inductive ValidationError where
  | rxTooSmall (rx : UInt64)
  | rttZero
  | rxOverflow (rx : UInt64) (rtt : UInt16)
  | txTooSmall (tx : UInt64)
  | txOverflow (tx : UInt64) (rtt : UInt16)
  | udpTooSmall (udp : UInt64)
  | minMtu (mtu : UInt16)
  | maxMtu (mtu : UInt16)
  | initialMtu (mtu : UInt16)
deriving DecidableEq, Repr

def minimumBandwidth : UInt64 := 150
def minimumUdpBuffer : UInt64 := 1024

/-- The text of each check, between the colour codes of the console. -/
def ValidationError.message (E : EngRepr) (info reset : List Char) : ValidationError → List Char
  | rxTooSmall rx => "The receive bandwidth (".toList ++ info ++ "rx ".toList ++ E.toEng rx ++ reset ++
      "B) is too small; it must be at least ".toList ++ E.toEng minimumBandwidth
  | rttZero => "RTT cannot be zero".toList
  | rxOverflow rx rtt => "The receive bandwidth delay product calculation (".toList ++ info ++ "rx ".toList ++
      E.toEng rx ++ reset ++ "B x ".toList ++ info ++ "rtt ".toList ++ Decimal.showNat rtt.toNat ++ reset ++
      "ms) overflowed".toList
  | txTooSmall tx => "The transmit bandwidth (".toList ++ info ++ "tx ".toList ++ E.toEng tx ++ reset ++
      "B) is too small; it must be at least ".toList ++ E.toEng minimumBandwidth
  | txOverflow tx rtt => "The transmit bandwidth delay product calculation (".toList ++ info ++ "tx ".toList ++
      E.toEng tx ++ reset ++ "B x ".toList ++ info ++ "rtt ".toList ++ Decimal.showNat rtt.toNat ++ reset ++
      "ms) overflowed".toList
  | udpTooSmall udp => "The UDP buffer size (".toList ++ info ++ Decimal.showNat udp.toNat ++ reset ++
      ") is too small; it must be at least ".toList ++ Decimal.showNat minimumUdpBuffer.toNat
  | minMtu mtu => "Minimum MTU (".toList ++ Decimal.showNat mtu.toNat ++ ") cannot be less than 1200".toList
  | maxMtu mtu => "Maximum MTU (".toList ++ Decimal.showNat mtu.toNat ++ ") cannot be less than 1200".toList
  | initialMtu mtu => "Initial MTU (".toList ++ Decimal.showNat mtu.toNat ++ ") cannot be less than 1200".toList

/-- `checked_mul(..).is_some()` on 64 bits. -/
def mulFits (a : UInt64) (b : UInt16) : Bool := decide (a.toNat * b.toNat < 2 ^ 64)

namespace Configuration

def tryValidate (c : Configuration) : Except ValidationError Unit :=
  let rtt := c.rtt
  let rx := c.getRx
  let tx := c.getTx
  let udp := c.udpBuffer
  if ¬ rx ≥ minimumBandwidth then .error (.rxTooSmall rx)
  else if ¬ rtt > 0 then .error .rttZero
  else if ¬ mulFits rx rtt then .error (.rxOverflow rx rtt)
  else if ¬ (tx = 0 ∨ tx ≥ minimumBandwidth) then .error (.txTooSmall tx)
  else if ¬ (tx = 0 ∨ mulFits tx rtt) then .error (.txOverflow tx rtt)
  else if ¬ udp ≥ minimumUdpBuffer then .error (.udpTooSmall udp)
  else if ¬ c.minMtu ≥ 1200 then .error (.minMtu c.minMtu)
  else if ¬ c.maxMtu ≥ 1200 then .error (.maxMtu c.maxMtu)
  else if ¬ c.initialMtu ≥ 1200 then .error (.initialMtu c.initialMtu)
  else .ok ()

def validate (c : Configuration) : Except ValidationError Configuration := c.tryValidate.map fun _ => c

theorem validate_eq_ok_iff (c c' : Configuration) : c.validate = .ok c' ↔ c' = c ∧ c.tryValidate = .ok () := by
  unfold validate
  cases c.tryValidate with
  | error e => exact ⟨nofun, nofun⟩
  | ok _ => exact ⟨fun h => by cases h; exact ⟨rfl, rfl⟩, fun ⟨h, _⟩ => by rw [h]; rfl⟩

/-- **The system default passes its own check.** -/
theorem tryValidate_systemDefault : systemDefault.tryValidate = .ok () := by decide

end Configuration
end Qcp
