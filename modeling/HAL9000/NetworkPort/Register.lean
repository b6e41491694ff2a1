import HAL9000.NetworkPort.Cleanup

/-!
# Network devices: the result of registering a driver

`NetworkPortRegisterMiniportDriver` goes on to the next device when one cannot be configured, and decides
at the end, from the number of devices that were, whether it has succeeded. It asks for more than one. So
with a single device configured it fails and frees the extension of the driver, which the interrupt
handler and the transmit thread of this device use.

How a device is configured is a parameter here: it returns, with success or not, and leaves the blocks
that were there alone. So does `_NetworkPortConfigureDevice`, also if it fails and does not clean up, unless it uses
what it has freed (`configures_of_outcomes`).
-/

namespace HAL9000.NetworkPort
open Lib

variable {D : Type} {configure : D → Blocks → Exec (Status × Blocks)} {succeeds : D → Bool}
  {r : Registration} {m : Matching D} {s s' : Driver D} {p p' : Blocks} {v : Pointers} {a : Nat}

/-- The blocks that were there still are. -/
structure Keeps (p p' : Blocks) : Prop where
  next : p.next ≤ p'.next
  block : ∀ a, a < p.next → p'.block a = p.block a

/-- Devices are configured one by one, those that `succeeds` says with success. -/
def Configures (configure : D → Blocks → Exec (Status × Blocks)) (succeeds : D → Bool) : Prop :=
  ∀ d p, ∃ status p', configure d p = .ok (status, p') ∧ (status = .success ↔ succeeds d = true) ∧
    Keeps p p'

/-- The devices that get configured: none if the loop is not reached. -/
def Matching.configured (m : Matching D) (succeeds : D → Bool) (r : Registration) : List D :=
  match m.devices with
  | .error _ => []
  | .ok devices =>
    if networkPortValidateBufferDescription r.rxBuffers ∧ networkPortValidateBufferDescription r.txBuffers ∧
        networkPortValidateMiniportFunctions r.miniportFunctions ∧ m.driverExtension ∧
        m.rxPhysicalAddresses ∧ m.txPhysicalAddresses then devices.filter succeeds
    else []

/-- The call returns success if and only if a device was configured, and then the driver still has its
    extension. -/
def Registers (configure : D → Blocks → Exec (Status × Blocks)) (r : Registration) (m : Matching D)
    (s : Driver D) : Prop :=
  ∃ status s', networkPortRegisterMiniportDriver configure r m s = .ok (status, s') ∧
    (status = .success ↔ s'.configured ≠ []) ∧
    (s'.configured ≠ [] → ∃ e, s'.driverExtension = some e ∧ s'.pool.block e ≠ none)

variable {x : Option Nat} {L : List Nat}

lemma Keeps.refl (p : Blocks) : Keeps p p := ⟨Nat.le_refl _, fun _ _ => rfl⟩

lemma Keeps.trans {q : Blocks} (h : Keeps p p') (h' : Keeps p' q) : Keeps p q where
  next := Nat.le_trans h.next h'.next
  block a ha := (h'.block a (Nat.lt_of_lt_of_le ha h.next)).trans (h.block a ha)

lemma configureDevices_eq (hc : Configures configure succeeds) (ds : List D) (s : Driver D) :
    ∃ p', configureDevices configure ds s =
        .ok ((ds.filter succeeds).length, { s with pool := p', configured := s.configured ++ ds.filter succeeds }) ∧
      Keeps s.pool p' := by
  induction ds generalizing s with
  | nil =>
    refine ⟨s.pool, ?_, .refl _⟩
    simp [configureDevices]
  | cons d ds ih =>
    obtain ⟨status, p1, h1, hst, hk1⟩ := hc d s.pool
    rw [configureDevices, h1, bind_okay]
    by_cases hd : succeeds d = true
    · obtain ⟨p2, h2, hk2⟩ := ih { s with pool := p1, configured := s.configured ++ [d] }
      refine ⟨p2, ?_, hk1.trans hk2⟩
      simp [hst.mpr hd, h2, hd]
    · obtain ⟨p2, h2, hk2⟩ := ih { s with pool := p1 }
      refine ⟨p2, ?_, hk1.trans hk2⟩
      simp [mt hst.mp hd, h2, hd]

/-- There is a block at each of these addresses, no two of which are the same. -/
structure Live (p : Blocks) (L : List Nat) : Prop where
  nodup : L.Nodup
  block : ∀ a ∈ L, p.block a ≠ none

lemma Live.nil : Live p [] := ⟨.nil, by simp⟩

lemma Live.perm {M : List Nat} (h : Live p L) (hp : L.Perm M) : Live p M :=
  ⟨hp.nodup_iff.mp h.nodup, fun a ha => h.block a (hp.mem_iff.mpr ha)⟩

lemma Live.lt (h : Live p L) (ha : a ∈ L) : a < p.next :=
  Nat.lt_of_not_le fun hle => h.block a ha (p.unused a hle)

lemma Live.keeps (h : Live p L) (hk : Keeps p p') : Live p' L :=
  ⟨h.nodup, fun a ha => (hk.block a (h.lt ha)).trans_ne (h.block a ha)⟩

lemma Live.alloc (h : Live p L) (o : Obj) : Live (p.alloc o) (p.next :: L) := by
  refine ⟨List.nodup_cons.mpr ⟨fun hm => Nat.lt_irrefl _ (h.lt hm), h.nodup⟩,
    List.forall_mem_cons.mpr ⟨by simp [Pool.alloc_block], ?_⟩⟩
  exact (h.keeps ⟨Nat.le_succ _, fun _ hlt => if_neg (Nat.ne_of_lt hlt)⟩).block

lemma freeIfAny_eq (h : Live p (x.toList ++ L)) : ∃ q, freeIfAny x p = .ok q ∧ Live q L := by
  cases x with
  | none => exact ⟨p, rfl, h⟩
  | some a =>
    obtain ⟨hne, hn⟩ := List.nodup_cons.mp h.nodup
    obtain ⟨hblock, hL⟩ := List.forall_mem_cons.mp h.block
    obtain ⟨o, ho⟩ := Option.ne_none_iff_exists'.mp hblock
    refine ⟨_, Pool.free_live ho, hn, fun b hb => ?_⟩
    have hba : b ≠ a := by
      rintro rfl
      exact hne hb
    rw [Pool.erase_block_of_notMem (List.mem_singleton.not.mpr hba)]
    exact hL b hb

/-- What the `__finally` block frees, in its order. -/
abbrev toFree (v : Pointers) (s : Driver D) : List Nat :=
  v.pRxPhysicalAddresses.toList ++ (v.pTxPhysicalAddresses.toList ++ (v.pPciDevices.toList ++
    (s.driverExtension.toList ++ [])))

lemma registerMiniportDriverFinally_eq (h : Live s.pool (toFree v s)) :
    ∃ p' q, (∀ e ∈ s.driverExtension, p'.block e ≠ none) ∧
      registerMiniportDriverFinally v s =
        if v.noOfDevicesInitialized > 1 then .ok (.success, { s with pool := p' })
        else .ok (.deviceDoesNotExist, { s with pool := q, driverExtension := none }) := by
  obtain ⟨p1, h1, hlive⟩ := freeIfAny_eq h
  obtain ⟨p2, h2, hlive⟩ := freeIfAny_eq hlive
  obtain ⟨p3, h3, hlive⟩ := freeIfAny_eq hlive
  obtain ⟨p4, h4, -⟩ := freeIfAny_eq hlive
  refine ⟨p3, p4, fun e he => hlive.block e (by simpa using he), ?_⟩
  rw [registerMiniportDriverFinally, h1, bind_okay, h2, bind_okay, h3, bind_okay, h4, bind_okay]
  rfl

/-- The devices that get configured, if the arguments have passed their checks. -/
def Matching.reached (m : Matching D) (succeeds : D → Bool) : List D :=
  match m.devices with
  | .error _ => []
  | .ok devices =>
    if m.driverExtension ∧ m.rxPhysicalAddresses ∧ m.txPhysicalAddresses then devices.filter succeeds
    else []

lemma registerMiniportDriverTry_eq (hc : Configures configure succeeds) (hs : s.driverExtension = none) :
    ∃ v s', registerMiniportDriverTry configure m s = .ok (v, s') ∧ Live s'.pool (toFree v s') ∧
      v.noOfDevicesInitialized = (m.reached succeeds).length ∧
      s'.configured = s.configured ++ m.reached succeeds ∧
      (m.reached succeeds ≠ [] → s'.driverExtension ≠ none) := by
  unfold registerMiniportDriverTry Matching.reached
  cases hd : m.devices with
  | error e => exact ⟨_, _, rfl, by simp [toFree, hs, Live.nil], by simp⟩
  | ok devices =>
    simp only [ensure_pos hs, bind_okay]
    generalize hpci : exAllocatePoolWithTag (!devices.isEmpty) .memory s.pool = pci
    obtain ⟨x, p⟩ := pci
    have hx : Live p x.toList := by
      unfold exAllocatePoolWithTag at hpci
      split at hpci <;> cases hpci
      · exact Live.nil.alloc _
      · exact .nil
    have hext := (hx.alloc .memory).perm (List.perm_append_singleton p.next x.toList).symm
    cases he : m.driverExtension with
    | false => exact ⟨_, _, rfl, by simpa [toFree, hs] using hx, by simp⟩
    | true =>
      cases hrx : m.rxPhysicalAddresses with
      | false => exact ⟨_, _, rfl, hext, by simp⟩
      | true =>
        cases htx : m.txPhysicalAddresses with
        | false => exact ⟨_, _, rfl, hext.alloc .memory, by simp⟩
        | true =>
          obtain ⟨p', h', hk⟩ := configureDevices_eq hc devices
            { s with pool := ((p.alloc .memory).alloc .memory).alloc .memory, driverExtension := some p.next }
          refine ⟨⟨x, some (p.next + 1), some (p.next + 1 + 1), (devices.filter succeeds).length⟩, { s with
              pool := p'
              driverExtension := some p.next
              configured := s.configured ++ devices.filter succeeds }, ?_,
            (((hext.alloc .memory).alloc .memory).perm (.swap ..)).keeps hk, by simp, by simp, by simp⟩
          simp [exAllocatePoolWithTag, h']

/-- The call does what it should if and only if not exactly one device gets configured. -/
theorem registers_iff (hc : Configures configure succeeds) (r : Registration) (m : Matching D)
    (s : Driver D) (hs : s.driverExtension = none) (hnew : s.configured = []) :
    Registers configure r m s ↔ (m.configured succeeds r).length ≠ 1 := by
  by_cases hv : networkPortValidateBufferDescription r.rxBuffers ∧
      networkPortValidateBufferDescription r.txBuffers ∧
      networkPortValidateMiniportFunctions r.miniportFunctions
  · obtain ⟨h1, h2, h3⟩ := hv
    have hlist : m.configured succeeds r = m.reached succeeds := by
      simp only [Matching.configured, Matching.reached, h1, h2, h3, true_and]
    obtain ⟨v, s', htry, hready, hn, hconf, hext⟩ := registerMiniportDriverTry_eq (m := m) hc hs
    obtain ⟨p', q, hlive, hfin⟩ := registerMiniportDriverFinally_eq hready
    rw [hnew, List.nil_append] at hconf
    have hrun : networkPortRegisterMiniportDriver configure r m s =
        registerMiniportDriverFinally v s' := by
      simp [networkPortRegisterMiniportDriver, h1, h2, h3, htry]
    rw [hlist, Registers, hrun, hfin, hn]
    by_cases hmany : (m.reached succeeds).length > 1
    · have hne : m.reached succeeds ≠ [] := by
        intro e
        simp [e] at hmany
      obtain ⟨e, he⟩ := Option.ne_none_iff_exists'.mp (hext hne)
      rw [if_pos hmany]
      refine iff_of_true ⟨_, _, rfl, ?_, ?_⟩ (Nat.ne_of_gt hmany)
      · simpa [hconf] using hne
      · exact fun _ => ⟨e, he, hlive e he⟩
    · rw [if_neg hmany]
      constructor
      · rintro ⟨status, s1, h, hst, -⟩ hone
        cases h
        simp only [reduceCtorEq, false_iff, not_not, hconf] at hst
        simp [hst] at hone
      · intro hone
        have hnil : m.reached succeeds = [] := List.length_eq_zero_iff.mp (by omega)
        exact ⟨_, _, rfl, by simp [hconf, hnil], by simp [hconf, hnil]⟩
  · have hlist : m.configured succeeds r = [] := by
      unfold Matching.configured
      cases m.devices with
      | error e => rfl
      | ok devices => exact if_neg fun h => hv ⟨h.1, h.2.1, h.2.2.1⟩
    rw [hlist]
    refine iff_of_true ?_ (by simp)
    unfold Registers networkPortRegisterMiniportDriver
    split
    · exact ⟨_, _, rfl, by simp [hnew], by simp [hnew]⟩
    · split
      · exact ⟨_, _, rfl, by simp [hnew], by simp [hnew]⟩
      · split
        · exact ⟨_, _, rfl, by simp [hnew], by simp [hnew]⟩
        · next h1 h2 h3 => exact absurd ⟨not_not.mp h1, not_not.mp h2, not_not.mp h3⟩ hv

/-- `_NetworkPortConfigureDevice` does so, unless it fails when the port points to the miniport, and then uses what
    it has freed. -/
lemma configures_of_outcomes {outcomes : D → Outcomes}
    (hok : ∀ d, succeeds d = true → ¬ (outcomes d).Fails r ∧ (outcomes d).interrupt = true)
    (hfail : ∀ d, succeeds d = false → ¬ ((outcomes d).Starts r ∧ (outcomes d).Continues r)) :
    Configures (fun d => networkPortConfigureDevice r (outcomes d)) succeeds := by
  intro d p
  cases hd : succeeds d with
  | true =>
    obtain ⟨h1, h2⟩ := hok d hd
    obtain ⟨q, cs, hq, hext⟩ := networkPortConfigureDevice_ok p h1 h2
    exact ⟨.success, q, hq, by simp, hext.next, fun a => hext.same_of_lt⟩
  | false =>
    by_cases hs : (outcomes d).Starts r
    · obtain ⟨status, q, R, hq, hst, -, hext⟩ := networkPortConfigureDevice_leaks p hs fun hc => hfail d hd ⟨hs, hc⟩
      exact ⟨status, q, hq, by simpa using hst, hext.next, fun a => hext.same_of_lt⟩
    · obtain ⟨status, q, hq, hst, hext⟩ := networkPortConfigureDevice_early p hs
      exact ⟨status, q, hq, by simpa using hst, hext.next, fun a => hext.same_of_lt⟩

def sampleOutcomes (d : Bool) : Outcomes := { allSucceed with rx := ⟨true, fun _ => d, true⟩ }

def newDriver : Driver Bool := ⟨noBlocks, none, []⟩

/-- A single device: the call fails and frees the extension of the driver. -/
theorem single_device_loses_extension : ∃ status s', networkPortRegisterMiniportDriver
        (fun d => networkPortConfigureDevice sampleRegistration (sampleOutcomes d)) sampleRegistration
        ⟨.ok [true], true, true, true⟩ newDriver = .ok (status, s') ∧
      s'.configured = [true] ∧ status = .deviceDoesNotExist ∧ s'.driverExtension = none ∧
      s'.pool.block 1 = none := exists_ok_pair (by decide)

/-- Two devices that are configured and one that is not: the driver is registered. -/
theorem two_devices_register :
    Registers (fun d => networkPortConfigureDevice sampleRegistration (sampleOutcomes d)) sampleRegistration
      ⟨.ok [true, false, true], true, true, true⟩ newDriver := by
  have hc : Configures (fun d => networkPortConfigureDevice sampleRegistration (sampleOutcomes d)) id := by
    refine configures_of_outcomes ?_ ?_
    · rintro d ⟨⟩
      refine ⟨not_not.mpr ⟨⟨by decide, by simp [Outcomes.HasMiniport, sampleOutcomes, allSucceed], ?_⟩,
        ⟨?_, rfl⟩, by simp [Outcomes.Ports, sampleOutcomes, allSucceed]⟩, rfl⟩
      · simp [BufferOutcomes.Succeeds, sampleRegistration, sampleOutcomes]
      · simp [BufferOutcomes.Succeeds, sampleRegistration, sampleOutcomes, allSucceed]
    · rintro d ⟨⟩ ⟨h, -⟩
      simpa [sampleOutcomes] using (h.rx.2.1 0 (by decide)).2
  exact (registers_iff hc _ _ _ rfl rfl).mpr (by decide)

end HAL9000.NetworkPort
