import Mathlib.Data.List.ReduceOption
import Mathlib.Tactic.Abel
import HAL9000.NetworkPort.Driver

/-!
# Network devices: what a failed configuration leaves behind

When `_NetworkPortConfigureDevice` fails, it frees what its local variables point to. `Progress` says what
this is: the device and its extension, the miniport and its extension, and the arrays of buffers. As long
as the port does not point to the miniport yet, the `__finally` block frees these blocks, each of them
once, and nothing else.

The two arrays of descriptors are not among them: from the receive buffers on, a failure leaves them
allocated. Once the port points to the miniport, `NetworkPortDeviceUninit` frees the miniport, and the
`__finally` block then reads it.
-/

namespace HAL9000.NetworkPort
open Lib Pool List Prog

variable {p q old : Blocks} {r : Registration} {o : Outcomes} {f : Frame} {a b m : Nat} {cs : Multiset (Nat × Obj)}

/-- Blocks without pointers in them. -/
def memory (bs : List Nat) : Multiset (Nat × Obj) := Multiset.ofList (bs.map (·, Obj.memory))

/-- An array of buffers, if there is one, and its buffers. -/
def bufferCells : Option (Nat × List Nat) → Multiset (Nat × Obj)
  | none => 0
  | some (a, bs) => {(a, .buffers (bs.map some))} + memory bs

lemma memory_nil : memory [] = 0 := rfl

lemma memory_cons (b : Nat) (bs : List Nat) : memory (b :: bs) = {(b, .memory)} + memory bs := rfl

section Buffers

variable {d : BufferDescription} {u : BufferOutcomes} {size k i : Nat} {pre es : List (Option Nat)}

lemma readBuffers_live (h : p.block a = some (.buffers es)) : readBuffers p a = .ok es := by
  rw [readBuffers, read_live h]
  rfl

lemma writeBuffer_live {x : Option Nat} (h : p.block a = some (.buffers (pre ++ x :: es))) (y : Option Nat) :
    writeBuffer p a pre.length y = .ok (p.set a (.buffers (pre ++ y :: es))) := by
  rw [writeBuffer, readBuffers_live h, bind_okay, if_pos (by simp), write_live h]
  simp

lemma freeBuffersFrom_eq (pre : List (Option Nat))
    (h : Extends old p ({(a, .buffers (pre ++ es))} + (memory es.reduceOption + cs))) :
    ∃ q es', freeBuffersFrom a es.length pre.length p = .ok q ∧ Extends old q ({(a, .buffers es')} + cs) := by
  induction es generalizing p pre with
  | nil => exact ⟨p, _, rfl, by simpa [memory] using h⟩
  | cons x es ih =>
    simp only [length_cons, freeBuffersFrom, readBuffers_live h.block, bind_okay]
    rw [getElem?_append_right (Nat.le_refl _), Nat.sub_self, getElem?_cons_zero]
    cases x with
    | none =>
      rw [append_cons] at h
      obtain ⟨q, es', hq, hext⟩ := ih _ h
      rw [length_append] at hq
      exact ⟨q, es', hq, hext⟩
    | some b =>
      rw [reduceOption_cons_of_some, memory_cons, add_assoc, add_left_comm] at h
      have ha := h.erase
      have hset := ha.set (.buffers (pre ++ none :: es))
      rw [append_cons] at hset
      obtain ⟨q, es', hq, hext⟩ := ih _ hset
      rw [length_append, ← append_cons] at hq
      refine ⟨q, es', ?_, hext⟩
      simp only [free_live h.block, bind_okay, writeBuffer_live ha.block]
      exact hq

lemma freeBuffers_eq (h : Extends old p ({(a, .buffers es)} + (memory es.reduceOption + cs))) :
    ∃ q, freeBuffers es.length a p = .ok q ∧ Extends old q cs := by
  obtain ⟨q, es', hq, hext⟩ := freeBuffersFrom_eq [] h
  exact ⟨_, bind_ok.mpr ⟨q, hq, free_live hext.block⟩, hext.erase⟩

lemma allocateBuffersFrom_eq (u : BufferOutcomes) (pre : List (Option Nat)) (k size : Nat)
    (h : Extends old p ({(a, .buffers (pre ++ replicate k none))} + cs)) :
    ∃ bs q, allocateBuffersFrom u size a k pre.length p = .ok (decide (bs.length = k), q) ∧ bs.length ≤ k ∧
      Extends old q ({(a, .buffers (pre ++ bs.map some ++ replicate (k - bs.length) none))} + (memory bs + cs)) ∧
      (bs.length = k ↔ ∀ j, j < k → size ≠ 0 ∧ u.buffer (pre.length + j) = true) := by
  induction k generalizing p pre cs with
  | zero => exact ⟨[], p, rfl, Nat.le_refl _, by simpa [memory] using h, by simp⟩
  | succ k ih =>
    rw [replicate_succ] at h
    by_cases hok : size ≠ 0 ∧ u.buffer pre.length = true
    · -- a new block, and its address in the array
      have hnew : ioAllocateContinuousMemory (u.buffer pre.length) size p =
          (some p.next, p.alloc .memory) := by
        simp [ioAllocateContinuousMemory, exAllocatePoolWithTag, hok]
      have h1 := h.alloc .memory
      rw [add_left_comm] at h1
      have h2 := h1.set (.buffers (pre ++ some p.next :: replicate k none))
      rw [append_cons] at h2
      obtain ⟨bs, q, hq, hlen, hext, hiff⟩ := ih _ h2
      rw [length_append, length_singleton] at hq hiff
      rw [← append_cons] at hq
      refine ⟨p.next :: bs, q, ?_, Nat.succ_le_succ hlen, ?_, ?_⟩
      · simp only [allocateBuffersFrom, hnew, writeBuffer_live h1.block, bind_okay, reduceCtorEq, if_false,
          hq, length_cons, Nat.add_right_cancel_iff]
      · rw [add_left_comm (memory bs), ← add_assoc {(p.next, _)}, ← memory_cons] at hext
        simpa using hext
      · rw [length_cons, Nat.add_right_cancel_iff, hiff]
        constructor
        · intro hall j hj
          cases j with
          | zero => exact hok
          | succ j =>
            have := hall j (Nat.lt_of_succ_lt_succ hj)
            rwa [Nat.add_assoc, Nat.add_comm 1 j] at this
        · intro hall j hj
          have := hall (j + 1) (Nat.succ_lt_succ hj)
          rwa [Nat.add_assoc, Nat.add_comm 1 j]
    · have hnone : ioAllocateContinuousMemory (u.buffer pre.length) size p = (none, p) := by
        unfold ioAllocateContinuousMemory exAllocatePoolWithTag
        split
        · rfl
        · next hs => rw [if_neg fun hb => hok ⟨hs, hb⟩]
      refine ⟨[], p, ?_, Nat.zero_le _, by simpa [replicate_succ, memory] using h, ?_⟩
      · simp only [allocateBuffersFrom, hnone, writeBuffer_live h.block, bind_okay, if_true, set_self h.block]
        rfl
      · refine iff_of_false (by simp) fun hall => hok ?_
        simpa using hall 0 (Nat.succ_pos k)

/-- All allocations of `_NetworkPortInitializeMiniportBuffers` succeed. -/
def BufferOutcomes.Succeeds (u : BufferOutcomes) (d : BufferDescription) : Prop :=
  u.bufferArray = true ∧ (∀ j, j < d.numberOfBuffers → d.bufferSize ≠ 0 ∧ u.buffer j = true) ∧
    (d.numberOfBuffers * d.descriptorSize) % 2 ^ 32 ≠ 0 ∧ u.descriptorArray = true

lemma reduceOption_map_some (bs : List Nat) : (bs.map some).reduceOption = bs := by
  simp [reduceOption]

lemma allocateBuffers_eq (u : BufferOutcomes) (d : BufferDescription) (h : Extends old p cs) :
    ∃ bs q, allocateBuffersFrom u d.bufferSize p.next d.numberOfBuffers 0
        (p.alloc (.buffers (replicate d.numberOfBuffers none))) =
          .ok (decide (bs.length = d.numberOfBuffers), q) ∧
      (∃ q', freeBuffers d.numberOfBuffers p.next q = .ok q' ∧ Extends old q' cs) ∧
      (bs.length = d.numberOfBuffers → Extends old q (bufferCells (some (p.next, bs)) + cs)) ∧
      (bs.length = d.numberOfBuffers ↔ ∀ j, j < d.numberOfBuffers → d.bufferSize ≠ 0 ∧ u.buffer j = true) := by
  obtain ⟨bs, q, hq, hlen, hext, hiff⟩ := allocateBuffersFrom_eq u [] d.numberOfBuffers d.bufferSize
    (h.alloc (.buffers (replicate d.numberOfBuffers none)))
  refine ⟨bs, q, hq, ?_, fun hall => ?_, by simpa using hiff⟩
  · have hreduce : ([] ++ bs.map some ++ replicate (d.numberOfBuffers - bs.length) none).reduceOption = bs := by
      simp [reduceOption_append, reduceOption_map_some]
    have hfree := freeBuffers_eq (by rwa [hreduce])
    simpa [Nat.add_sub_cancel' hlen] using hfree
  · rw [hall, Nat.sub_self, replicate_zero, append_nil, nil_append] at hext
    rwa [bufferCells, add_assoc]

lemma initializeMiniportBuffers_ok (h : Extends old p cs) (hu : u.Succeeds d) :
    ∃ a bs ring q, networkPortInitializeMiniportBuffers u d p = .ok (.ok (a, ring), q) ∧
      bs.length = d.numberOfBuffers ∧ Extends old q ({(ring, .memory)} + (bufferCells (some (a, bs)) + cs)) := by
  obtain ⟨h1, h2, h3, h4⟩ := hu
  obtain ⟨bs, q, hq, -, hext, hiff⟩ := allocateBuffers_eq u d h
  have hall := hiff.mpr h2
  refine ⟨p.next, bs, q.next, q.alloc .memory, ?_, hall, (hext hall).alloc .memory⟩
  have hring : ioAllocateContinuousMemory u.descriptorArray
      ((d.numberOfBuffers * d.descriptorSize) % 2 ^ 32) q = (some q.next, q.alloc .memory) := by
    rw [ioAllocateContinuousMemory, if_neg h3, exAllocatePoolWithTag, if_pos h4]
  simp only [networkPortInitializeMiniportBuffers, exAllocatePoolWithTag, h1, if_true, hq, bind_okay,
    hall, decide_true, hring]
  rfl

lemma initializeMiniportBuffers_fail (h : Extends old p cs) (hu : ¬ u.Succeeds d) :
    ∃ q, networkPortInitializeMiniportBuffers u d p = .ok (.error .heapInsufficientResources, q) ∧
      Extends old q cs := by
  cases h1 : u.bufferArray with
  | false =>
    refine ⟨p, ?_, h⟩
    simp [networkPortInitializeMiniportBuffers, exAllocatePoolWithTag, h1]
  | true =>
    obtain ⟨bs, q, hq, ⟨q', hq', hext⟩, -, hiff⟩ := allocateBuffers_eq u d h
    refine ⟨q', ?_, hext⟩
    by_cases hall : bs.length = d.numberOfBuffers
    · have hring : ioAllocateContinuousMemory u.descriptorArray
          ((d.numberOfBuffers * d.descriptorSize) % 2 ^ 32) q = (none, q) := by
        unfold ioAllocateContinuousMemory exAllocatePoolWithTag
        split
        · rfl
        · next hs => rw [if_neg fun hr => hu ⟨h1, hiff.mp hall, hs, hr⟩]
      simp only [networkPortInitializeMiniportBuffers, exAllocatePoolWithTag, h1, if_true, hq, bind_okay,
        hall, decide_true, hring, hq']
      rfl
    · simp only [networkPortInitializeMiniportBuffers, exAllocatePoolWithTag, h1, if_true, hq, bind_okay,
        hall, decide_false, hq']
      rfl

end Buffers

section Finally

/-- What the local variables point to: the device and its extension, the miniport with its extension, and
    the two arrays with their buffers. -/
structure Owned where
  dev : Nat
  port : Nat
  miniport : Option (Nat × Option Nat)
  rx : Option (Nat × List Nat)
  tx : Option (Nat × List Nat)

def miniportCells (dev : Nat) : Option (Nat × Option Nat) → Multiset (Nat × Obj)
  | none => 0
  | some (m, e) => memory e.toList + {(m, .miniport ⟨dev, e⟩)}

/-- The blocks, in the order in which they are freed. -/
def Owned.cells (w : Owned) : Multiset (Nat × Obj) :=
  {(w.port, .portDevice ⟨none, none, none⟩)} + ({(w.dev, .deviceObject (some w.port))} +
    (miniportCells w.dev w.miniport + (bufferCells w.rx + bufferCells w.tx)))

/-- How far the `__try` block has got: the local variables point to the blocks of `w`, and these and the
    arrays of descriptors `R` are what has been allocated. The port points to none of them. -/
structure Progress (r : Registration) (old : Blocks) (w : Owned) (R : List Nat) (f : Frame) : Prop where
  pDevObj : f.pDevObj = some w.dev
  pPortDevice : f.pPortDevice = some w.port
  pMiniportDevice : f.pMiniportDevice = w.miniport.map (·.1)
  pRxBuffers : f.pRxBuffers = w.rx.map (·.1)
  pTxBuffers : f.pTxBuffers = w.tx.map (·.1)
  rx : ∀ x ∈ w.rx, x.2.length = r.rxBuffers.numberOfBuffers
  tx : ∀ x ∈ w.tx, x.2.length = r.txBuffers.numberOfBuffers
  cells : Extends old f.pool (w.cells + memory R)

variable {w : Owned} {dev n : Nat} {R : List Nat}

lemma readDeviceObject_live {e : Option Nat} (h : p.block a = some (.deviceObject e)) :
    readDeviceObject p a = .ok e := by
  rw [readDeviceObject, read_live h]
  rfl

lemma readPortDevice_live {d : PortDevice} (h : p.block a = some (.portDevice d)) : readPortDevice p a = .ok d := by
  rw [readPortDevice, read_live h]
  rfl

lemma readMiniport_live {d : MiniportDevice} (h : p.block a = some (.miniport d)) : readMiniport p a = .ok d := by
  rw [readMiniport, read_live h]
  rfl

lemma ioDeleteDevice_eq {port : Nat} {x : PortDevice}
    (h : Extends old p ({(port, .portDevice x)} + ({(dev, .deviceObject (some port))} + cs))) :
    ∃ q, ioDeleteDevice dev p = .ok q ∧ Extends old q cs := by
  have hdev := h
  rw [add_left_comm] at hdev
  have h1 := h.erase
  have h2 := h1.set (.deviceObject none)
  refine ⟨_, ?_, h2.erase⟩
  simp only [ioDeleteDevice, readDeviceObject_live hdev.block, bind_okay, free_live h.block, write_live h1.block,
    free_live h2.block]

lemma freeMiniport_eq {y : Option (Nat × Option Nat)} (h : Extends old p (miniportCells dev y + cs)) :
    ∃ q, ifAny (y.map (·.1)) freeMiniport p = .ok q ∧ Extends old q cs := by
  obtain _ | ⟨m, _ | e⟩ := y
  · exact ⟨p, rfl, by simpa [miniportCells] using h⟩
  · replace h : Extends old p ({(m, .miniport ⟨dev, none⟩)} + cs) := by simpa [miniportCells, memory] using h
    refine ⟨_, ?_, h.erase⟩
    simp only [Option.map_some, ifAny, freeMiniport, readMiniport_live h.block, bind_okay, pure_okay,
      free_live h.block]
  · replace h : Extends old p ({(e, .memory)} + ({(m, .miniport ⟨dev, some e⟩)} + cs)) := by
      simpa only [miniportCells, Option.toList_some, memory_cons, memory_nil, add_assoc, zero_add] using h
    have hm := h
    rw [add_left_comm] at hm
    have h1 := h.erase
    have h2 := h1.set (.miniport ⟨dev, none⟩)
    refine ⟨_, ?_, h2.erase⟩
    simp only [Option.map_some, ifAny, freeMiniport, readMiniport_live hm.block, bind_okay, free_live h.block,
      write_live h1.block, free_live h2.block]

lemma ifAny_freeBuffers {y : Option (Nat × List Nat)} (hn : ∀ x ∈ y, x.2.length = n)
    (h : Extends old p (bufferCells y + cs)) :
    ∃ q, ifAny (y.map (·.1)) (freeBuffers n) p = .ok q ∧ Extends old q cs := by
  obtain _ | ⟨a, bs⟩ := y
  · exact ⟨p, rfl, by simpa [bufferCells] using h⟩
  · obtain rfl : bs.length = n := hn _ rfl
    rw [bufferCells, add_assoc] at h
    have hfree := freeBuffers_eq (by rwa [reduceOption_map_some])
    rwa [length_map] at hfree

lemma Progress.finally (h : Progress r old w R f) :
    ∃ q, configureDeviceFinally r f = .ok q ∧ Extends old q (memory R) := by
  have h0 := h.cells
  simp only [Owned.cells, add_assoc] at h0
  obtain ⟨q1, hq1, h1⟩ := ioDeleteDevice_eq h0
  obtain ⟨q2, hq2, h2⟩ := freeMiniport_eq h1
  obtain ⟨q3, hq3, h3⟩ := ifAny_freeBuffers h.rx h2
  obtain ⟨q4, hq4, h4⟩ := ifAny_freeBuffers h.tx h3
  refine ⟨q4, ?_, h4⟩
  have hidle : networkPortDeviceUninit w.port f.pool = .ok f.pool := by
    simp only [networkPortDeviceUninit, readPortDevice_live h0.block, bind_okay, ifAny, pure_okay,
      write_live h0.block, set_self h0.block]
  simp only [configureDeviceFinally, h.pPortDevice, h.pDevObj, h.pMiniportDevice, h.pRxBuffers, h.pTxBuffers]
  simp only [ifAny] at hq2 hq3 hq4 ⊢
  rw [hidle, bind_okay, hq1, bind_okay, hq2, bind_okay, hq3, bind_okay, hq4]

end Finally

section Try

variable {w : Owned} {R bs : List Nat} {dev port ring : Nat} {u : BufferOutcomes} {d : BufferDescription} {α : Type}
  {e : Option Nat}

lemma onPool_eq {x : Blocks → Exec (α × Blocks)} {y : α} (h : x f.pool = .ok (y, q)) :
    onPool x f = .ok (.ok y, { f with pool := q }) := by
  rw [onPool, h]
  rfl

lemma onRead_eq {x : Blocks → Exec α} {y : α} (h : x f.pool = .ok y) : onRead x f = .ok (.ok y, f) := by
  rw [onRead, h]
  rfl

lemma createDevice_fail (p : Blocks) (h : ¬ (o.device = true ∧ o.portDevice = true)) :
    ∃ q, createDevice o (.start p) = .ok (.error .deviceCouldNotBeCreated, .start q) ∧ Extends p q 0 := by
  have hio : ∃ q, ioCreateDevice o p = .ok (none, q) ∧ Extends p q 0 := by
    cases h1 : o.device with
    | false => exact ⟨p, by simp [ioCreateDevice, exAllocatePoolWithTag, h1], .refl p⟩
    | true =>
      have h2 : o.portDevice = false := by simpa [h1] using h
      have hnew := (Extends.refl p).alloc (.deviceObject none)
      refine ⟨_, ?_, hnew.erase⟩
      simp [ioCreateDevice, exAllocatePoolWithTag, h1, h2, free_live hnew.block]
  obtain ⟨q, hq, hext⟩ := hio
  refine ⟨q, ?_, hext⟩
  rw [createDevice, bind_of_ok (onPool_eq (f := .start p) hq)]
  rfl

lemma createDevice_ok (p : Blocks) (h1 : o.device = true) (h2 : o.portDevice = true) :
    ∃ dev port f, createDevice o (.start p) = .ok (.ok (dev, port), f) ∧
      Progress r p ⟨dev, port, none, none, none⟩ [] f := by
  have hnew := ((Extends.refl p).alloc (.deviceObject none)).alloc (.portDevice ⟨none, none, none⟩)
  rw [add_left_comm] at hnew
  obtain ⟨q, hio, hdev⟩ : ∃ q, ioCreateDevice o p = .ok (some p.next, q) ∧
      Extends p q ({(p.next, .deviceObject (some (p.next + 1)))} +
        ({(p.next + 1, .portDevice ⟨none, none, none⟩)} + 0)) :=
    ⟨_, by simp [ioCreateDevice, exAllocatePoolWithTag, h1, h2, write_live hnew.block], hnew.set _⟩
  have hport := hdev
  rw [add_left_comm] at hport
  refine ⟨p.next, p.next + 1,
    { Frame.start p with pool := q, pDevObj := some p.next, pPortDevice := some (p.next + 1) }, ?_,
    ⟨rfl, rfl, rfl, rfl, rfl, nofun, nofun, ?_⟩⟩
  · rw [createDevice, bind_of_ok (onPool_eq (f := .start p) hio)]
    simp only [bind_of_ok modify_apply]
    rw [bind_of_ok (onRead_eq (readDeviceObject_live hdev.block))]
    simp only [bind_of_ok modify_apply]
    rw [bind_of_ok (onPool_eq (y := ()) (q := q) (by simp [write_live hport.block, set_self hport.block]))]
    rfl
  · simpa [Owned.cells, miniportCells, bufferCells, memory_nil] using hport

lemma Progress.withMiniport {y : Option (Nat × Option Nat)} (h : Progress r p ⟨dev, port, none, none, none⟩ [] f)
    (hq : Extends p q (miniportCells dev y + (Owned.cells ⟨dev, port, none, none, none⟩ + memory []))) :
    Progress r p ⟨dev, port, y, none, none⟩ [] { f with pool := q, pMiniportDevice := y.map (·.1) } :=
  ⟨h.pDevObj, h.pPortDevice, rfl, h.pRxBuffers, h.pTxBuffers, nofun, nofun, by
    simp only [Owned.cells, show miniportCells dev none = 0 from rfl] at hq ⊢
    convert hq using 1
    abel⟩

/-- The miniport can be created, with its extension if it asks for one. -/
def Outcomes.HasMiniport (o : Outcomes) (r : Registration) : Prop :=
  o.miniport = true ∧ (r.deviceContextSize ≠ 0 → o.deviceContext = true)

lemma createMiniport_eq (o : Outcomes) (h : Progress r p ⟨dev, port, none, none, none⟩ [] f) :
    ∃ y f', Progress r p ⟨dev, port, y, none, none⟩ [] f' ∧
      (o.HasMiniport r → ∃ m e, y = some (m, e) ∧ createMiniport r o dev f = .ok (.ok m, f')) ∧
      (¬ o.HasMiniport r → createMiniport r o dev f = .ok (.error .heapInsufficientResources, f')) := by
  unfold Outcomes.HasMiniport
  cases h1 : o.miniport with
  | false =>
    refine ⟨none, f, h, by simp, fun _ => ?_⟩
    have hnone : f.pMiniportDevice = none := h.pMiniportDevice
    rw [createMiniport, bind_of_ok (onPool_eq (y := none) (q := f.pool) (by
      simp [exAllocatePoolWithTag, h1])), bind_of_ok modify_apply]
    simp only [← hnone]
    rfl
  | true =>
    have hnew := h.cells.alloc (.miniport ⟨dev, none⟩)
    have hp := h.withMiniport (y := some (f.pool.next, none)) (by simpa [miniportCells, memory_nil] using hnew)
    rw [createMiniport, bind_of_ok (onPool_eq (y := some f.pool.next) (q := f.pool.alloc (.miniport ⟨dev, none⟩))
      (by simp [exAllocatePoolWithTag, h1])), bind_of_ok modify_apply]
    by_cases hc : r.deviceContextSize = 0
    · refine ⟨_, _, hp, fun _ => ⟨_, _, rfl, ?_⟩, by simp [hc]⟩
      simp only [if_pos hc]
      rfl
    · simp only [if_neg hc]
      cases h2 : o.deviceContext with
      | false =>
        refine ⟨_, _, hp, by simp [hc], fun _ => ?_⟩
        rw [bind_of_ok (onPool_eq (y := none) (q := f.pool.alloc (.miniport ⟨dev, none⟩)) (by
            simp [exAllocatePoolWithTag])),
          bind_of_ok (onPool_eq (y := ()) (q := f.pool.alloc (.miniport ⟨dev, none⟩)) (by
            simp [write_live hnew.block, set_self hnew.block]))]
        rfl
      | true =>
        have hcontext := hnew.alloc .memory
        rw [add_left_comm] at hcontext
        refine ⟨some (f.pool.next, some (f.pool.next + 1)), _,
          h.withMiniport (q := ((f.pool.alloc (.miniport ⟨dev, none⟩)).alloc .memory).set f.pool.next
            (.miniport ⟨dev, some (f.pool.next + 1)⟩)) ?_, fun _ => ⟨_, _, rfl, ?_⟩, by simp⟩
        · have hset := hcontext.set (.miniport ⟨dev, some (f.pool.next + 1)⟩)
          rw [add_left_comm, memory_nil] at hset
          rwa [miniportCells, Option.toList_some, memory_cons, memory_nil, add_zero, add_assoc]
        · rw [bind_of_ok (onPool_eq (y := some (f.pool.next + 1))
              (q := (f.pool.alloc (.miniport ⟨dev, none⟩)).alloc .memory) (by simp [exAllocatePoolWithTag])),
            bind_of_ok (onPool_eq (y := ()) (congrArg (· >>= _) (write_live hcontext.block)))]
          rfl

lemma createBuffers_ok (store : Nat → Nat → Frame → Frame) (h : Extends old f.pool cs) (hu : u.Succeeds d) :
    ∃ a bs ring q, createBuffers u d store f = .ok (.ok a, store a ring { f with pool := q }) ∧
      bs.length = d.numberOfBuffers ∧ Extends old q ({(ring, .memory)} + (bufferCells (some (a, bs)) + cs)) := by
  obtain ⟨a, bs, ring, q, hq, hlen, hext⟩ := initializeMiniportBuffers_ok h hu
  refine ⟨a, bs, ring, q, ?_, hlen, hext⟩
  rw [createBuffers, bind_of_ok (onPool_eq hq)]
  rfl

lemma createBuffers_fail (store : Nat → Nat → Frame → Frame) (h : Extends old f.pool cs) (hu : ¬ u.Succeeds d) :
    ∃ q, createBuffers u d store f = .ok (.error .heapInsufficientResources, { f with pool := q }) ∧
      Extends old q cs := by
  obtain ⟨q, hq, hext⟩ := initializeMiniportBuffers_fail h hu
  refine ⟨q, ?_, hext⟩
  rw [createBuffers, bind_of_ok (onPool_eq hq)]
  rfl

/-- The calls up to the receive buffers succeed. -/
structure Outcomes.Starts (o : Outcomes) (r : Registration) : Prop where
  device : o.device = true ∧ o.portDevice = true
  miniport : o.HasMiniport r
  rx : o.rx.Succeeds r.rxBuffers

lemma configureDeviceTry_early (p : Blocks) (h : ¬ o.Starts r) :
    ∃ status f, configureDeviceTry r o (.start p) = .ok (.error status, f) ∧ status ≠ .success ∧
      ((∃ q, f = .start q ∧ Extends p q 0) ∨ ∃ w, Progress r p w [] f) := by
  by_cases h1 : o.device = true ∧ o.portDevice = true
  · obtain ⟨dev, port, f1, hf1, hp1⟩ := createDevice_ok (r := r) p h1.1 h1.2
    obtain ⟨y, f2, hp2, hok, hfail⟩ := createMiniport_eq o hp1
    by_cases h2 : o.HasMiniport r
    · obtain ⟨m, e, rfl, hf2⟩ := hok h2
      have h3 : ¬ o.rx.Succeeds r.rxBuffers := fun h3 => h ⟨h1, h2, h3⟩
      obtain ⟨q, hq, hext⟩ := createBuffers_fail (fun array ring f =>
        { f with pRxBuffers := some array, rxRingBuffer := some ring }) hp2.cells h3
      refine ⟨.heapInsufficientResources, { f2 with pool := q }, ?_, by simp, .inr ⟨_, { hp2 with cells := hext }⟩⟩
      exact (bind_of_ok hf1).trans ((bind_of_ok hf2).trans (bind_of_fail hq))
    · exact ⟨_, _, (bind_of_ok hf1).trans (bind_of_fail (hfail h2)), by simp, .inr ⟨_, hp2⟩⟩
  · obtain ⟨q, hq, hext⟩ := createDevice_fail p h1
    exact ⟨_, _, bind_of_fail hq, by simp, .inl ⟨q, rfl, hext⟩⟩

lemma configureDeviceTry_late (p : Blocks) (h : o.Starts r) : ∃ dev port m e a bs ring f,
      configureDeviceTry r o (.start p) = configureDeviceRest r o port m a f ∧
      Progress r p ⟨dev, port, some (m, e), some (a, bs), none⟩ [ring] f := by
  obtain ⟨dev, port, f1, hf1, hp1⟩ := createDevice_ok (r := r) p h.device.1 h.device.2
  obtain ⟨y, f2, hp2, hok, -⟩ := createMiniport_eq o hp1
  obtain ⟨m, e, rfl, hf2⟩ := hok h.miniport
  obtain ⟨a, bs, ring, q, hq, hlen, hext⟩ := createBuffers_ok (fun array ring f =>
    { f with pRxBuffers := some array, rxRingBuffer := some ring }) hp2.cells h.rx
  refine ⟨dev, port, m, e, a, bs, ring, { f2 with pool := q, pRxBuffers := some a, rxRingBuffer := some ring },
    (bind_of_ok hf1).trans ((bind_of_ok hf2).trans (bind_of_ok hq)),
    { hp2 with pRxBuffers := rfl, rx := by rintro x ⟨⟩; exact hlen, cells := ?_ }⟩
  simp only [Owned.cells, memory_cons, show bufferCells none = 0 from rfl] at hext ⊢
  convert hext using 1
  abel

/-- The transmit buffers and the miniport are set up. -/
structure Outcomes.Continues (o : Outcomes) (r : Registration) : Prop where
  tx : o.tx.Succeeds r.txBuffers
  miniportInitializeDevice : o.miniportInitializeDevice = .success

lemma configureDeviceRest_leak (h : Progress r p ⟨dev, port, some (m, e), some (a, bs), none⟩ [ring] f)
    (hc : ¬ o.Continues r) :
    ∃ status f' w R, configureDeviceRest r o port m a f = .ok (.error status, f') ∧ status ≠ .success ∧
      ring ∈ R ∧ Progress r p w R f' := by
  by_cases h1 : o.tx.Succeeds r.txBuffers
  · have h2 : o.miniportInitializeDevice ≠ .success := fun h2 => hc ⟨h1, h2⟩
    obtain ⟨a', bs', ring', q, hq, hlen, hext⟩ := createBuffers_ok (fun array ring f =>
      { f with pTxBuffers := some array, txRingBuffer := some ring }) h.cells h1
    refine ⟨o.miniportInitializeDevice, { f with pool := q, pTxBuffers := some a', txRingBuffer := some ring' },
      ⟨dev, port, some (m, e), some (a, bs), some (a', bs')⟩, [ring', ring], ?_, h2, by simp,
      { h with pTxBuffers := rfl, tx := by rintro x ⟨⟩; exact hlen, cells := ?_ }⟩
    · refine (bind_of_ok hq).trans ?_
      simp only [ne_eq, h2, not_false_eq_true, if_true, fail_apply]
    · simp only [Owned.cells, memory_cons, show bufferCells none = 0 from rfl] at hext ⊢
      convert hext using 1
      abel
  · obtain ⟨q, hq, hext⟩ := createBuffers_fail (fun array ring f =>
      { f with pTxBuffers := some array, txRingBuffer := some ring }) h.cells h1
    exact ⟨_, { f with pool := q }, _, _, bind_of_fail hq, by simp, mem_singleton_self ring,
      { h with cells := hext }⟩

/-- All steps of `NetworkPortDeviceInit` that can fail succeed. -/
def Outcomes.Ports (o : Outcomes) : Prop :=
  o.rxFramesEvent = .success ∧ o.txFramesEvent = .success ∧ o.descriptorsAvailable = .success ∧
    o.transmitThread = .success

lemma BufferOutcomes.Succeeds.ne_zero (h : u.Succeeds d) : d.numberOfBuffers ≠ 0 ∧ d.bufferSize ≠ 0 := by
  have hn : d.numberOfBuffers ≠ 0 := fun hn => h.2.2.1 (by simp [hn])
  exact ⟨hn, (h.2.1 0 (Nat.pos_of_ne_zero hn)).1⟩

lemma networkPortDeviceInit_eq {x : PortDevice} (m rx tx : Nat) (hrx : o.rx.Succeeds r.rxBuffers)
    (htx : o.tx.Succeeds r.txBuffers) (h : Extends old p ({(port, .portDevice x)} + cs)) :
    ∃ status x' q, networkPortDeviceInit r o port m rx tx p = .ok (status, q) ∧
      Extends old q ({(port, .portDevice x')} + cs) ∧ x'.miniport = some m ∧ (status = .success ↔ o.Ports) := by
  have hm := h.set (.portDevice ⟨some m, none, none⟩)
  have hmrx := hm.set (.portDevice ⟨some m, some rx, none⟩)
  have hall := hmrx.set (.portDevice ⟨some m, some rx, some tx⟩)
  unfold networkPortDeviceInit Outcomes.Ports
  simp only [hrx.ne_zero, htx.ne_zero, if_false, write_live h.block, write_live hm.block, write_live hmrx.block,
    bind_okay]
  by_cases h1 : o.rxFramesEvent = .success
  · by_cases h2 : o.txFramesEvent = .success
    · by_cases h3 : o.descriptorsAvailable = .success
      · exact ⟨_, _, _, by simp [h1, h2, h3]; rfl, hall, rfl, by simp [h1, h2, h3]⟩
      · exact ⟨_, _, _, by simp [h1, h2, h3]; rfl, hall, rfl, by simp [h3]⟩
    · exact ⟨_, _, _, by simp [h1, h2]; rfl, hall, rfl, by simp [h2]⟩
  · exact ⟨_, _, _, by simp [h1]; rfl, hmrx, rfl, by simp [h1]⟩

lemma configureDeviceRest_init (h : Progress r p ⟨dev, port, some (m, e), some (a, bs), none⟩ [ring] f)
    (hrx : o.rx.Succeeds r.rxBuffers) (hc : o.Continues r) :
    ∃ status f' x cs, configureDeviceRest r o port m a f =
        (if status ≠ .success then Prog.fail status else Prog.assert (o.interrupt = true)) f' ∧
      (status = .success ↔ o.Ports) ∧ f'.pPortDevice = some port ∧ f'.pMiniportDevice = some m ∧
      x.miniport = some m ∧ Extends p f'.pool ({(port, .portDevice x)} + cs) := by
  obtain ⟨a', bs', ring', q, hq, -, hext⟩ := createBuffers_ok (fun array ring f =>
    { f with pTxBuffers := some array, txRingBuffer := some ring }) h.cells hc.tx
  rw [Owned.cells, add_assoc, add_left_comm (bufferCells _), add_left_comm {(ring', _)}] at hext
  obtain ⟨status, x, q', hinit, hext', hx, hst⟩ := networkPortDeviceInit_eq m a a' hrx hc.tx hext
  refine ⟨status, { f with pool := q', pTxBuffers := some a', txRingBuffer := some ring' }, x, _, ?_, hst,
    h.pPortDevice, h.pMiniportDevice, hx, hext'⟩
  refine (bind_of_ok hq).trans ?_
  simp only [ne_eq, hc.miniportInitializeDevice, not_true_eq_false, if_false]
  exact bind_of_ok (onPool_eq (f := { f with
    pool := q, pTxBuffers := some a', txRingBuffer := some ring' }) hinit)

end Try

section Faults

variable {port : Nat} {d : PortDevice}

lemma ifAny_dead {x : Option Nat} {g : Nat → Blocks → Exec Blocks}
    (hg : ∀ a p q, g a p = .ok q → p.block b = none → q.block b = none) (h : ifAny x g p = .ok q)
    (hb : p.block b = none) : q.block b = none := by
  cases x with
  | none =>
    cases h
    exact hb
  | some a => exact hg a p q h hb

lemma freeMiniport_dead (h : freeMiniport m p = .ok q) :
    q.block m = none ∧ ∀ b, p.block b = none → q.block b = none := by
  obtain ⟨mini, -, h⟩ := bind_ok.mp h
  obtain ⟨p1, h1, h⟩ := bind_ok.mp h
  obtain ⟨hm, hrest⟩ := free_dead h
  refine ⟨hm, fun b hb => hrest b (ifAny_dead ?_ h1 hb)⟩
  intro e p q h hb
  obtain ⟨p1, h1, h⟩ := bind_ok.mp h
  exact write_dead h ((free_dead h1).2 b hb)

lemma freeField_dead (h : freeField port d a p = .ok q) (hb : p.block b = none) : q.block b = none := by
  obtain ⟨p1, h1, h⟩ := bind_ok.mp h
  exact write_dead h ((free_dead h1).2 b hb)

lemma ioDeleteDevice_dead (h : ioDeleteDevice a p = .ok q) (hb : p.block b = none) : q.block b = none := by
  obtain ⟨e, -, h⟩ := bind_ok.mp h
  cases e with
  | none => cases h
  | some e =>
    obtain ⟨p1, h1, h⟩ := bind_ok.mp h
    obtain ⟨p2, h2, h⟩ := bind_ok.mp h
    exact (free_dead h).2 b (write_dead h2 ((free_dead h1).2 b hb))

lemma networkPortDeviceUninit_dead (hport : p.block port = some (.portDevice d)) (hm : d.miniport = some m)
    (h : networkPortDeviceUninit port p = .ok q) : q.block m = none := by
  rw [networkPortDeviceUninit, readPortDevice_live hport, bind_okay, hm] at h
  obtain ⟨p1, h1, h⟩ := bind_ok.mp h
  obtain ⟨p2, h2, h⟩ := bind_ok.mp h
  obtain ⟨p3, h3, h⟩ := bind_ok.mp h
  obtain ⟨mini, -, h1⟩ := bind_ok.mp h1
  obtain ⟨e, -, h1⟩ := bind_ok.mp h1
  have hdead := (freeMiniport_dead h1).1
  exact write_dead h (ifAny_dead (fun _ _ _ => freeField_dead) h3
    (ifAny_dead (fun _ _ _ => freeField_dead) h2 hdead))

lemma configureDeviceFinally_fault (hp : f.pPortDevice = some port) (hmini : f.pMiniportDevice = some m)
    (hport : f.pool.block port = some (.portDevice d)) (hm : d.miniport = some m) :
    configureDeviceFinally r f ≠ .ok q := by
  intro h
  rw [configureDeviceFinally, hp, hmini] at h
  obtain ⟨p1, h1, h⟩ := bind_ok.mp h
  obtain ⟨p2, h2, h⟩ := bind_ok.mp h
  obtain ⟨p3, h3, h⟩ := bind_ok.mp h
  have hdead : p2.block m = none :=
    ifAny_dead (fun _ _ _ => ioDeleteDevice_dead) h2 (networkPortDeviceUninit_dead hport hm h1)
  have hread : readMiniport p2 m = .error .wild := by
    rw [readMiniport, read_dead hdead]
    rfl
  have h3 : freeMiniport m p2 = .ok p3 := h3
  rw [freeMiniport, hread] at h3
  cases h3

end Faults

/-- Some call of `_NetworkPortConfigureDevice` that can fail does. -/
def Outcomes.Fails (o : Outcomes) (r : Registration) : Prop := ¬ (o.Starts r ∧ o.Continues r ∧ o.Ports)

/-- The call fails, without using or freeing a block that has been freed, and the blocks are those that
    were there before. -/
def CleansUp (r : Registration) (o : Outcomes) (p : Blocks) : Prop :=
  ∃ status q, networkPortConfigureDevice r o p = .ok (status, q) ∧ status ≠ .success ∧
    ∀ a, q.block a = p.block a

lemma networkPortConfigureDevice_of_error {status : Status}
    (h : configureDeviceTry r o (.start p) = .ok (.error status, f)) :
    networkPortConfigureDevice r o p = (do
      let p ← configureDeviceFinally r f
      pure (status, p)) := by
  rw [networkPortConfigureDevice, h]
  rfl

lemma networkPortConfigureDevice_early (p : Blocks) (h : ¬ o.Starts r) :
    ∃ status q, networkPortConfigureDevice r o p = .ok (status, q) ∧ status ≠ .success ∧ Extends p q 0 := by
  obtain ⟨status, f, hf, hst, ⟨q, rfl, hext⟩ | ⟨w, hp⟩⟩ := configureDeviceTry_early p h
  · refine ⟨status, q, ?_, hst, hext⟩
    rw [networkPortConfigureDevice_of_error hf]
    rfl
  · obtain ⟨q, hq, hext⟩ := hp.finally
    refine ⟨status, q, ?_, hst, hext⟩
    rw [networkPortConfigureDevice_of_error hf, hq]
    rfl

/-- A failure behind the receive buffers, but before the port points to the miniport, leaves an array of
    descriptors behind. -/
lemma networkPortConfigureDevice_leaks (p : Blocks) (hs : o.Starts r) (hc : ¬ o.Continues r) :
    ∃ status q R, networkPortConfigureDevice r o p = .ok (status, q) ∧ status ≠ .success ∧ R ≠ [] ∧
      Extends p q (memory R) := by
  obtain ⟨dev, port, m, e, a, bs, ring, f, htry, hp⟩ := configureDeviceTry_late p hs
  obtain ⟨st, f', w, R, hrest, hst, hring, hp'⟩ := configureDeviceRest_leak hp hc
  obtain ⟨q, hq, hext⟩ := hp'.finally
  refine ⟨st, q, R, ?_, hst, ne_nil_of_mem hring, hext⟩
  rw [networkPortConfigureDevice_of_error (htry.trans hrest), hq]
  rfl

/-- A failed call of `_NetworkPortConfigureDevice` frees what it has allocated, once and without using it
    afterwards, if and only if it fails no later than at the receive buffers. -/
theorem cleansUp_iff (r : Registration) (o : Outcomes) (p : Blocks) (hfail : o.Fails r) :
    CleansUp r o p ↔ ¬ o.Starts r := by
  constructor
  swap
  · intro hs
    obtain ⟨status, q, hrun, hst, hext⟩ := networkPortConfigureDevice_early p hs
    exact ⟨status, q, hrun, hst, fun a => hext.same a (by simp)⟩
  rintro ⟨status, q, hrun, -, hclean⟩ hs
  by_cases hc : o.Continues r
  · -- the port points to the miniport
    obtain ⟨dev, port, m, e, a, bs, ring, f, htry, hp⟩ := configureDeviceTry_late p hs
    obtain ⟨st, f', x, cs, hrest, hst, hport, hmini, hx, hext⟩ := configureDeviceRest_init hp hs.rx hc
    rw [if_pos fun e => hfail ⟨hs, hc, hst.mp e⟩] at hrest
    rw [networkPortConfigureDevice_of_error (htry.trans hrest)] at hrun
    obtain ⟨q', hfin, -⟩ := bind_ok.mp hrun
    exact configureDeviceFinally_fault hport hmini hext.block hx hfin
  · -- the array of receive descriptors is still there
    obtain ⟨st, q', R, hrun', -, hne, hext⟩ := networkPortConfigureDevice_leaks p hs hc
    cases hrun'.symm.trans hrun
    obtain ⟨ring, hring⟩ := exists_mem_of_ne_nil R hne
    obtain ⟨hnew, hlive⟩ := hext.cell (ring, .memory) (by simpa [memory] using hring)
    rw [hclean, p.unused ring hnew] at hlive
    cases hlive

lemma networkPortConfigureDevice_ok (p : Blocks) (h : ¬ o.Fails r) (hi : o.interrupt = true) :
    ∃ q cs, networkPortConfigureDevice r o p = .ok (.success, q) ∧ Extends p q cs := by
  obtain ⟨hs, hc, hports⟩ := not_not.mp h
  obtain ⟨dev, port, m, e, a, bs, ring, f, htry, hp⟩ := configureDeviceTry_late p hs
  obtain ⟨st, f', x, cs, hrest, hst, -, -, -, hext⟩ := configureDeviceRest_init hp hs.rx hc
  rw [hst.mpr hports, if_neg (by simp), assert_pos hi] at hrest
  refine ⟨f'.pool, _, ?_, hext⟩
  rw [networkPortConfigureDevice, htry.trans hrest]
  rfl

def sampleRegistration : Registration where
  deviceContextSize := 8
  rxBuffers := ⟨1, 16, 2048⟩
  txBuffers := ⟨1, 16, 2048⟩
  miniportFunctions := ⟨true, true, true, true⟩

def allSucceed : Outcomes where
  device := true
  portDevice := true
  miniport := true
  deviceContext := true
  rx := ⟨true, fun _ => true, true⟩
  tx := ⟨true, fun _ => true, true⟩
  miniportInitializeDevice := .success
  rxFramesEvent := .success
  txFramesEvent := .success
  descriptorsAvailable := .success
  transmitThread := .success
  interrupt := true

def noBlocks : Blocks := ⟨0, fun _ => none, fun _ _ => rfl⟩

/-- A miniport that cannot be initialized leaves the two arrays of descriptors allocated, and a thread that
    cannot be created makes the `__finally` block use the miniport after it was freed. -/
theorem failed_configuration_leaves_blocks : (∃ status q, networkPortConfigureDevice sampleRegistration
        { allSucceed with miniportInitializeDevice := .deviceNotConnected } noBlocks = .ok (status, q) ∧
      status ≠ .success ∧ q.block 6 ≠ noBlocks.block 6) ∧
    networkPortConfigureDevice sampleRegistration
        { allSucceed with transmitThread := .unsuccessful } noBlocks = .error .wild :=
  ⟨exists_ok_pair (by decide), rfl⟩

/-- A receive buffer that cannot be allocated. -/
theorem cleansUp_without_buffer : CleansUp sampleRegistration
      { allSucceed with rx := ⟨true, fun _ => false, true⟩ } noBlocks := by
  have hrx : ¬ Outcomes.Starts { allSucceed with rx := ⟨true, fun _ => false, true⟩ } sampleRegistration :=
    fun h => by simpa using (h.rx.2.1 0 (by decide)).2
  exact (cleansUp_iff _ _ _ fun h => hrx h.1).mpr hrx

end HAL9000.NetworkPort
