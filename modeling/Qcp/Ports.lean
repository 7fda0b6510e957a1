import Qcp.NegotiateTable
import Qcp.Agreement
/-!
# Ports — ranges as the sets of ports they let through

`ports` is what a range means; port 0 alone lets every port through.  A valid range is given by its ports
(`eq_of_ports`), and `combine` is the intersection (`combine_eq_ok_iff`): from this come its identity, its symmetry and
when it fails, and that the negotiated range reads back from its own text in the merged configuration.
-/
namespace Qcp
namespace PortRange

/-- The ports a preference lets through. -/
def ports (r : PortRange) : Set UInt16 := fun p => r.isDefault = true ∨ (r.begin ≤ p ∧ p ≤ r.end)

theorem mem_ports (r : PortRange) (p : UInt16) :
    p ∈ r.ports ↔ (r.begin = 0 ∧ r.end = 0) ∨ (r.begin ≤ p ∧ p ≤ r.end) := by
  rw [← isDefault_iff]
  exact Iff.rfl

@[simp] theorem ports_default : ports ⟨0, 0⟩ = Set.univ := by
  ext p
  simp [mem_ports]

theorem zero_mem_ports (r : PortRange) (h : r.valid) : 0 ∈ r.ports ↔ r = ⟨0, 0⟩ := by
  obtain ⟨b, e⟩ := r
  rw [mem_ports, PortRange.mk.injEq]
  have h' : (b = 0 ∧ e = 0) ∨ (0 < b ∧ b ≤ e) := h
  grind

theorem begin_mem_ports (r : PortRange) (h : r.valid) : r.begin ∈ r.ports :=
  (mem_ports r _).2 (Or.inr ⟨UInt16.le_refl _, le_end_of_valid r h⟩)

theorem end_mem_ports (r : PortRange) (h : r.valid) : r.end ∈ r.ports :=
  (mem_ports r _).2 (Or.inr ⟨le_end_of_valid r h, UInt16.le_refl _⟩)

/-- **A valid range is the set of ports it lets through.** -/
theorem eq_of_ports (a b : PortRange) (ha : a.valid) (hb : b.valid) (h : a.ports = b.ports) : a = b := by
  by_cases hd : a = ⟨0, 0⟩
  · have h0 : 0 ∈ b.ports := h ▸ (zero_mem_ports a ha).2 hd
    rw [hd, (zero_mem_ports b hb).1 h0]
  · have hd' : b ≠ ⟨0, 0⟩ := fun hb0 => hd ((zero_mem_ports a ha).1 (h ▸ (zero_mem_ports b hb).2 hb0))
    have h1 := (mem_ports b _).1 (h ▸ begin_mem_ports a ha)
    have h2 := (mem_ports b _).1 (h ▸ end_mem_ports a ha)
    have h3 := (mem_ports a _).1 (h ▸ begin_mem_ports b hb)
    have h4 := (mem_ports a _).1 (h ▸ end_mem_ports b hb)
    obtain ⟨ab, ae⟩ := a
    obtain ⟨bb, be⟩ := b
    simp only [PortRange.mk.injEq, ne_eq] at *
    grind

/-- The ports that both of two preferences let through. -/
theorem mem_inter (a b : PortRange) (ha : a.begin ≠ 0) (hb : b.begin ≠ 0) (p : UInt16) :
    p ∈ a.ports ∩ b.ports ↔ max a.begin b.begin ≤ p ∧ p ≤ min a.end b.end := by
  rw [Set.mem_inter_iff, mem_ports, mem_ports]
  have hmax : max a.begin b.begin = if a.begin ≤ b.begin then b.begin else a.begin := rfl
  have hmin : min a.end b.end = if a.end ≤ b.end then a.end else b.end := rfl
  rw [hmax, hmin]
  split <;> split <;> grind

theorem begin_ne_zero (r : PortRange) (h : r.valid) (hd : r ≠ ⟨0, 0⟩) : r.begin ≠ 0 := by
  rcases h with ⟨h0, h1⟩ | ⟨h0, -⟩
  · obtain ⟨b, e⟩ := r
    exact absurd (PortRange.mk.injEq b e 0 0 ▸ ⟨h0, h1⟩) hd
  · exact UInt16.pos_iff_ne_zero.1 h0

theorem max_ne_zero {m n : UInt16} (hm : m ≠ 0) (hn : n ≠ 0) : max m n ≠ 0 := by
  have h : max m n = if m ≤ n then n else m := rfl
  rw [h]
  split
  · exact hn
  · exact hm

theorem combine_default (a : PortRange) : combine a ⟨0, 0⟩ = .ok a := by
  unfold combine
  split
  · rename_i hd
    rw [(isDefault_iff_eq a).1 hd]
  · rfl

theorem default_combine (a : PortRange) : combine ⟨0, 0⟩ a = .ok a := rfl

theorem combine_of_ne (a b : PortRange) (ha : a ≠ ⟨0, 0⟩) (hb : b ≠ ⟨0, 0⟩) : combine a b =
    if max a.begin b.begin ≤ min a.end b.end then .ok ⟨max a.begin b.begin, min a.end b.end⟩ else .error (b, a) := by
  unfold combine
  rw [if_neg (fun h => ha ((isDefault_iff_eq a).1 h)), if_neg (fun h => hb ((isDefault_iff_eq b).1 h))]

/-- What `combine` gives lets through the ports that both ranges do. -/
theorem ports_combine (a b r : PortRange) (ha : a.valid) (hb : b.valid) (h : combine a b = .ok r) :
    r.ports = a.ports ∩ b.ports := by
  by_cases hda : a = ⟨0, 0⟩
  · rw [hda, default_combine] at h
    cases h
    rw [hda, ports_default, Set.univ_inter]
  by_cases hdb : b = ⟨0, 0⟩
  · rw [hdb, combine_default] at h
    cases h
    rw [hdb, ports_default, Set.inter_univ]
  rw [combine_of_ne a b hda hdb] at h
  split at h
  · cases h
    ext p
    rw [mem_inter a b (begin_ne_zero a ha hda) (begin_ne_zero b hb hdb), mem_ports]
    constructor
    · rintro (⟨h0, -⟩ | hp)
      · exact absurd h0 (max_ne_zero (begin_ne_zero a ha hda) (begin_ne_zero b hb hdb))
      · exact hp
    · exact Or.inr
  · cases h

/-- **Two ranges that do not combine** are preferences with no port in common. -/
theorem disjoint_of_combine (a b : PortRange) (ha : a.valid) (hb : b.valid) (e : PortRange × PortRange)
    (h : combine a b = .error e) : a ≠ ⟨0, 0⟩ ∧ b ≠ ⟨0, 0⟩ ∧ a.ports ∩ b.ports = ∅ := by
  have hda : a ≠ ⟨0, 0⟩ := by
    rintro rfl
    rw [default_combine] at h
    cases h
  have hdb : b ≠ ⟨0, 0⟩ := by
    rintro rfl
    rw [combine_default] at h
    cases h
  rw [combine_of_ne a b hda hdb] at h
  split at h
  · cases h
  rename_i hne
  apply And.intro hda
  apply And.intro hdb
  ext p
  rw [mem_inter a b (begin_ne_zero a ha hda) (begin_ne_zero b hb hdb)]
  constructor
  · rintro ⟨h1, h2⟩
    exact absurd (UInt16.le_trans h1 h2) hne
  · exact fun h => absurd h (Set.notMem_empty p)

/-- **`combine` is the intersection**: what it gives is the valid range of the ports both let through. -/
theorem combine_eq_ok_iff (a b r : PortRange) (ha : a.valid) (hb : b.valid) :
    combine a b = .ok r ↔ r.valid ∧ r.ports = a.ports ∩ b.ports := by
  constructor
  · intro h
    exact ⟨combine_valid a b r ha hb h, ports_combine a b r ha hb h⟩
  · rintro ⟨hr, hp⟩
    cases h : combine a b with
    | ok x =>
      rw [eq_of_ports x r (combine_valid a b x ha hb h) hr ((ports_combine a b x ha hb h).trans hp.symm)]
    | error e =>
      have hempty := (disjoint_of_combine a b ha hb e h).2.2
      have hmem := begin_mem_ports r hr
      rw [hp, hempty] at hmem
      exact absurd hmem (Set.notMem_empty _)

/-- **`combine` fails** just on two preferences with no port in common. -/
theorem combine_error_iff (a b : PortRange) (ha : a.valid) (hb : b.valid) :
    (∃ e, combine a b = .error e) ↔ a ≠ ⟨0, 0⟩ ∧ b ≠ ⟨0, 0⟩ ∧ a.ports ∩ b.ports = ∅ := by
  constructor
  · rintro ⟨e, h⟩
    exact disjoint_of_combine a b ha hb e h
  · rintro ⟨-, -, hempty⟩
    cases h : combine a b with
    | error e => exact ⟨e, rfl⟩
    | ok r =>
      obtain ⟨hr, hp⟩ := (combine_eq_ok_iff a b r ha hb).1 h
      have hmem := begin_mem_ports r hr
      rw [hp, hempty] at hmem
      exact absurd hmem (Set.notMem_empty _)

theorem combine_comm (a b r : PortRange) (ha : a.valid) (hb : b.valid) :
    combine a b = .ok r ↔ combine b a = .ok r := by
  rw [combine_eq_ok_iff a b r ha hb, combine_eq_ok_iff b a r hb ha, Set.inter_comm]

theorem combine_error_comm (a b : PortRange) (ha : a.valid) (hb : b.valid) :
    (∃ e, combine a b = .error e) ↔ ∃ e, combine b a = .error e := by
  rw [combine_error_iff a b ha hb, combine_error_iff b a hb ha, Set.inter_comm, and_left_comm]

theorem getD_valid (o : Option PortRange) (h : ∀ p ∈ o, p.valid) : (o.getD ⟨0, 0⟩).valid := by
  cases o with
  | none => exact valid_single 0
  | some p => exact h p rfl

theorem combine_self (a : PortRange) (ha : a.valid) : combine a a = .ok a :=
  (combine_eq_ok_iff a a a ha ha).2 ⟨ha, (Set.inter_self _).symm⟩

end PortRange

/-! ## The negotiated range -/

/-- **What the two sides' preferences settle on** is their combination, 0-0 standing for none. -/
theorem settle_portConflict (client server : Option PortRange) (r : PortRange) (hc : ∀ p ∈ client, p.valid)
    (hs : ∀ p ∈ server, p.valid) : settle portConflict client server Configuration.systemDefault.port = .ok r ↔
      PortRange.combine (client.getD ⟨0, 0⟩) (server.getD ⟨0, 0⟩) = .ok r := by
  cases client with
  | none => cases server <;> simp [settle, PortRange.default_combine, Configuration.systemDefault]
  | some c =>
    cases server with
    | none => simp [settle, PortRange.combine_default]
    | some s =>
      by_cases he : c = s
      · simp [settle, he, PortRange.combine_self s (hs s rfl)]
      · cases h : PortRange.combine c s <;> simp [settle, he, portConflict, h]

theorem Field.getOpt_of_get {α : Type} (f : Field α) (look : Layers.Dict Key Value) (a : α) (h : f.get look = .ok a) :
    f.getOpt look = .ok (some a) := by
  unfold Field.get at h
  split at h
  · cases h
  rename_i v hv
  split at h
  · cases h
  rename_i b hb
  cases h
  exact f.getOpt_of_look look v a hv hb

theorem Manager.states_of_getOpt {α : Type} (f : Field α) (l : Layers.Layered Key Value) (a : α)
    (h : f.getOpt l.look = .ok (some a)) : Manager.states f ⟨.ok l⟩ = some a := by
  unfold Manager.states
  simp only [h]

/-- **The negotiated range is read back from the text it was written as.** -/
theorem port_of_combinedManager (E : EngRepr) (manager m : Manager) (client : Requests) (server : ConfigurationOptional)
    (hc : ∀ p ∈ client.port, p.valid) (hs : manager.getOptional E = .ok server)
    (h : combinedManager E manager client = .ok m) : ∃ r, r.valid ∧ m.states Field.port = some r ∧
      PortRange.combine (client.port.getD ⟨0, 0⟩) (server.port.getD ⟨0, 0⟩) = .ok r := by
  obtain ⟨data⟩ := manager
  cases data with
  | error e => cases hs
  | ok l =>
    have hl := (ConfigurationOptional.extract_eq_ok_iff E _ _).1 hs
    have hv := Outcomes.valid_of_getOpt server.port hl.port
    unfold combinedManager at h
    simp only [hs, Configuration.bind_eq_ok, mapError_eq_ok, Except.ok.injEq] at h
    obtain ⟨_, rfl, p, hp, hm⟩ := h
    obtain ⟨o⟩ := Outcomes.exists_of_ok p hp
    rw [o.negotiateAll_eq] at hp
    cases hp
    cases hm
    have hset := settle_eq_of_outcome _ _ _ Configuration.systemDefault.port _ _ o.port_eq
    generalize (o.port.2.or (o.port.1.or server.port)).getD Configuration.systemDefault.port = r at hset
    have hcomb := (settle_portConflict client.port server.port r hc hv).1 hset
    have hget := Field.getOpt_of_get _ _ _ ((o.reads_port hl hc r).2 hset)
    have hlook : (((l.merge .global (makeDictHumanFriendly E o.picks)).merge .global
        (makeDictHumanFriendly E o.negotiated)).join .dflt (Configuration.systemDefault.toDict E)).look =
        o.final E l.look := by
      funext k
      rw [Layers.Layered.look_join_default, Layers.Layered.look_merge_global, Layers.Layered.look_merge_global]
      rfl
    rw [← hlook] at hget
    have hr := PortRange.combine_valid _ _ r (PortRange.getD_valid _ hc) (PortRange.getD_valid _ hv) hcomb
    apply Exists.intro r
    exact ⟨hr, Manager.states_of_getOpt Field.port _ r hget, hcomb⟩

/-- **The algebra of port ranges**: only valid ranges are read and each is read back from its text; `combine` is the
intersection, with 0-0 as its identity, in either order; and what is negotiated with it is read back. -/
theorem port_range_algebra (a b : PortRange) (ha : a.valid) (hb : b.valid) :
    (∀ s r, PortRange.fromStr s = .ok r → r.valid) ∧ PortRange.fromStr a.display = .ok a ∧
    (∀ r, PortRange.combine a b = .ok r ↔ PortRange.combine b a = .ok r) ∧
    ((∃ e, PortRange.combine a b = .error e) ↔ ∃ e, PortRange.combine b a = .error e) ∧
    PortRange.combine a ⟨0, 0⟩ = .ok a ∧ PortRange.combine ⟨0, 0⟩ a = .ok a ∧
    (∀ r, PortRange.combine a b = .ok r ↔ r.valid ∧ r.ports = a.ports ∩ b.ports) ∧
    ((∃ e, PortRange.combine a b = .error e) ↔ a ≠ ⟨0, 0⟩ ∧ b ≠ ⟨0, 0⟩ ∧ a.ports ∩ b.ports = ∅) ∧
    (∀ r, PortRange.combine a b = .ok r → PortRange.fromStr r.display = .ok r) ∧
    ∀ (E : EngRepr) (manager m : Manager) (client : Requests) (server : ConfigurationOptional),
      (∀ p ∈ client.port, p.valid) → manager.getOptional E = .ok server → combinedManager E manager client = .ok m →
      ∃ r, r.valid ∧ m.states Field.port = some r ∧
        PortRange.combine (client.port.getD ⟨0, 0⟩) (server.port.getD ⟨0, 0⟩) = .ok r := by
  have hcomb := fun r => PortRange.combine_eq_ok_iff a b r ha hb
  refine ⟨PortRange.valid_of_fromStr, PortRange.fromStr_display a ha, fun r => PortRange.combine_comm a b r ha hb,
    PortRange.combine_error_comm a b ha hb, PortRange.combine_default a, PortRange.default_combine a, hcomb,
    PortRange.combine_error_iff a b ha hb, ?_, port_of_combinedManager⟩
  intro r h
  exact PortRange.fromStr_display r ((hcomb r).1 h).1

/-- A server that has ports of its own. -/
def portServer : Manager := .ofOptional EngRepr.decimal { ConfigurationOptional.empty with port := some ⟨150, 300⟩ }

/-- And a client that asks for some of them. -/
def portRequest : Requests := { Requests.ofAttributes [] with port := some ⟨100, 200⟩ }

theorem port_range_algebra_overlapping : PortRange.combine ⟨100, 200⟩ ⟨150, 300⟩ = .ok ⟨150, 200⟩ ∧
    PortRange.combine ⟨150, 300⟩ ⟨100, 200⟩ = .ok ⟨150, 200⟩ ∧
    ∃ m, combinedManager EngRepr.decimal portServer portRequest = .ok m ∧ m.states Field.port = some ⟨150, 200⟩ := by
  have hmeet : PortRange.combine ⟨100, 200⟩ ⟨150, 300⟩ = .ok ⟨150, 200⟩ := by decide
  obtain ⟨-, -, hcomm, -, -, -, -, -, -, hread⟩ := port_range_algebra ⟨100, 200⟩ ⟨150, 300⟩ (by decide) (by decide)
  obtain ⟨m, hm⟩ : ∃ m, combinedManager EngRepr.decimal portServer portRequest = .ok m := ⟨_, rfl⟩
  have hserver : portServer.getOptional EngRepr.decimal =
      .ok { ConfigurationOptional.empty with port := some ⟨150, 300⟩ } := by rfl
  obtain ⟨r, -, hr, hcomb⟩ :=
    hread EngRepr.decimal portServer m portRequest _ (fun p hp => by cases hp; decide) hserver hm
  cases hmeet.symm.trans hcomb
  exact ⟨hmeet, (hcomm _).1 hmeet, m, hm, hr⟩

end Qcp
