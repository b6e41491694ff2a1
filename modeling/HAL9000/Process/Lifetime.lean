import HAL9000.Process.Moves

/-!
# Processes: how long they live

A process starts with one reference, every thread in its list has one, and so has the handle that
`ProcessCreate` returns. The first one is dropped after the last thread has been removed. `ProcessCreate`
takes the reference of its caller after the main thread has been started: if the first one is dropped
before, the process is destroyed while `ProcessCreate` still uses it. In every run in which that does
not happen, and in which no thread is abandoned after it was put in the list, the process is destroyed
once, when its last thread has been removed and its handle closed (`process_lives`).
-/

namespace HAL9000.Process
open Lib Ipc

variable {T : Type}

structure Listed (w : World T) : Prop where
  mem : ∀ {t}, t ∈ w.threadList ↔ (w.pc t).listed = true
  nodup : w.threadList.Nodup
  number : w.numberOfThreads = w.threadList.length
  lock : ∀ {t}, w.threadListLock = some t ↔ (w.pc t).locks = true

structure Made (g : Ghost T) (w : World T) : Prop where
  young : w.create.young = true → ∀ t, w.pc t = .unused
  creating : ∀ {t}, w.create = .creating t → (w.pc t).making = true
  alone : ∀ {t u}, w.create = .creating t → u ≠ t → w.pc u = .unused
  closing : ∀ {t}, w.create = .closing t → (w.pc t).making = false ∧ w.pc t ≠ .unused
  spawning : ∀ {u t}, w.pc u = .spawning t → (w.pc t).making = true ∧ g.maker t = u ∧
    w.create ≠ .creating t
  making : ∀ {t}, (w.pc t).making = true → w.create = .creating t ∨ w.pc (g.maker t) = .spawning t
  handle : ∀ {t}, w.threadHandle t = true → w.create ≠ .closing t ∧ (w.pc t).making = false ∧
    w.pc t ≠ .unused
  abandoned : ∀ t, w.pc t ≠ .abandoned
  fresh : ∀ {t}, w.pc t = .unused → w.threadReferenceCount t = 0
  early : ∀ {t}, (w.pc t).making = true → w.pc t ≠ .setup → w.threadReferenceCount t = 1
  setup : ∀ {t}, w.pc t = .setup → w.threadReferenceCount t = 2
  lives : ∀ {t}, (w.pc t).lives = true →
    (w.threadReferenceCount t = 2 ∧ (w.threadHandle t = true ∨ w.create = .closing t)) ∨
    (w.threadReferenceCount t = 1 ∧ w.threadHandle t = false ∧ w.create ≠ .closing t)
  ended : ∀ {t}, w.pc t = .ended → w.threadReferenceCount t = 1 ∧
    (w.threadHandle t = true ∨ w.create = .closing t)
  removed : ∀ {t}, (w.pc t).removed = true → w.threadReferenceCount t = 0 ∧
    w.threadHandle t = false ∧ w.create ≠ .closing t

variable [DecidableEq T]

attribute [local grind] Pc.listed Pc.locks Pc.making Pc.lives Pc.removed Pc.last Pc.more Pc.leaves
  CreatePc.busy  CreatePc.young CreatePc.started
attribute [local grind =] Function.update_apply

section Makers

variable {g g' : Ghost T} {w w' : World T} (h : Made g w) (hv : Move g w g' w')
include h hv

variable {t : T}

lemma young_move (hy : w'.create.young = true) (t : T) : w'.pc t = .unused := by
  have young := h.young
  have handle := @h.handle
  clear h
  cases hv <;> grind -linarith

lemma creating_move (hc : w'.create = .creating t) : (w'.pc t).making = true := by
  have creating := @h.creating
  have handle := @h.handle
  have spawning := @h.spawning
  clear h
  cases hv <;> grind -linarith

lemma alone_move {u : T} (hc : w'.create = .creating t) (hu : u ≠ t) : w'.pc u = .unused := by
  have young := h.young
  have alone := @h.alone
  have handle := @h.handle
  have creating := @h.creating
  clear h
  cases hv <;> grind -linarith

lemma closing_move (hc : w'.create = .closing t) : (w'.pc t).making = false ∧ w'.pc t ≠ .unused := by
  have closing := @h.closing
  clear h
  cases hv <;> grind -linarith

lemma spawning_move {u : T} (hu : w'.pc u = .spawning t) :
    (w'.pc t).making = true ∧ g'.maker t = u ∧ w'.create ≠ .creating t := by
  have spawning := @h.spawning
  have creating := @h.creating
  have handle := @h.handle
  have closing := @h.closing
  clear h
  cases hv <;> grind -linarith

lemma making_move (ht : (w'.pc t).making = true) :
    w'.create = .creating t ∨ w'.pc (g'.maker t) = .spawning t := by
  have making := @h.making
  have closing := @h.closing
  have handle := @h.handle
  have lives := @h.lives
  clear h
  cases hv <;> grind -linarith

lemma handle_move (ht : w'.threadHandle t = true) :
    w'.create ≠ .closing t ∧ (w'.pc t).making = false ∧ w'.pc t ≠ .unused := by
  have handle := @h.handle
  have spawning := @h.spawning
  have closing := @h.closing
  clear h
  cases hv <;> grind -linarith

lemma abandoned_move (t : T) : w'.pc t ≠ .abandoned := by
  have abandoned := h.abandoned
  clear h
  cases hv <;> grind -linarith

lemma fresh_move (ht : w'.pc t = .unused) : w'.threadReferenceCount t = 0 := by
  have fresh := @h.fresh
  have closing := @h.closing
  have handle := @h.handle
  clear h
  cases hv <;> grind -linarith

lemma early_move (ht : (w'.pc t).making = true) (hs : w'.pc t ≠ .setup) : w'.threadReferenceCount t = 1 := by
  have early := @h.early
  have closing := @h.closing
  have handle := @h.handle
  clear h
  cases hv <;> grind -linarith

lemma setup_move (ht : w'.pc t = .setup) : w'.threadReferenceCount t = 2 := by
  have setup := @h.setup
  have closing := @h.closing
  have handle := @h.handle
  clear h
  cases hv <;> grind -linarith

lemma lives_move (ht : (w'.pc t).lives = true) :
    (w'.threadReferenceCount t = 2 ∧ (w'.threadHandle t = true ∨ w'.create = .closing t)) ∨
    (w'.threadReferenceCount t = 1 ∧ w'.threadHandle t = false ∧ w'.create ≠ .closing t) := by
  have lives := @h.lives
  have setup := @h.setup
  have handle := @h.handle
  have spawning := @h.spawning
  clear h
  cases hv <;> grind -linarith

lemma ended_move (ht : w'.pc t = .ended) : w'.threadReferenceCount t = 1 ∧
    (w'.threadHandle t = true ∨ w'.create = .closing t) := by
  have ended := @h.ended
  have lives := @h.lives
  have handle := @h.handle
  clear h
  cases hv <;> grind -linarith

lemma removed_move (ht : (w'.pc t).removed = true) : w'.threadReferenceCount t = 0 ∧
    w'.threadHandle t = false ∧ w'.create ≠ .closing t := by
  have removed := @h.removed
  have lives := @h.lives
  have ended := @h.ended
  have handle := @h.handle
  clear h
  cases hv <;> grind -linarith

lemma Made.move : Made g' w' where
  young := young_move h hv
  creating := creating_move h hv
  alone := alone_move h hv
  closing := closing_move h hv
  spawning := spawning_move h hv
  making := making_move h hv
  handle := handle_move h hv
  abandoned := abandoned_move h hv
  fresh := fresh_move h hv
  early := early_move h hv
  setup := setup_move h hv
  lives := lives_move h hv
  ended := ended_move h hv
  removed := removed_move h hv

end Makers

variable {g : Ghost T} {w : World T} {t : T} {pc : Pc T} {a : Action T}

omit [DecidableEq T] in
lemma Made.ended_of_handle (h : Made g w)
    (ht : w.threadHandle t = true ∨ w.create = .closing t) (h1 : w.threadReferenceCount t = 1) :
    w.pc t = .ended := by
  have closing := @h.closing t
  have handle := @h.handle t
  have lives := @h.lives t
  have removed := @h.removed t
  have abandoned := h.abandoned t
  cases hc : w.pc t <;> simp_all [Pc.making, Pc.lives, Pc.removed]

section Lists

variable {g g' : Ghost T} {w w' : World T} (h : Listed w) (hm : Made g w) (hv : Move g w g' w')
include h hm hv

lemma mem_move : t ∈ w'.threadList ↔ (w'.pc t).listed = true := by
  have mem := @h.mem
  have nodup := h.nodup
  have ended := @hm.ended_of_handle
  clear h hm
  cases hv <;> grind -linarith

omit hm in
lemma nodup_move : w'.threadList.Nodup := by
  have nodup := h.nodup
  cases hv with
  | @insert t hc =>
    have hnot : t ∉ w.threadList := by simp [h.mem, hc, Pc.listed]
    exact List.nodup_append.mpr ⟨nodup, by simp, by grind⟩
  | remove | removeFinal => exact nodup.erase _
  | _ => exact nodup

omit hm in
lemma number_move : w'.numberOfThreads = w'.threadList.length := by
  have number := h.number
  cases hv with
  | insert => simp [number]
  | @remove t hc _ =>
    have hmem : t ∈ w.threadList := by simp [h.mem, hc, Pc.listed]
    simp [number, List.length_erase_of_mem hmem]
  | @removeFinal t hc h1 =>
    have hmem : t ∈ w.threadList := by simp [h.mem, hc, Pc.listed]
    simp [List.length_erase_of_mem hmem, ← number, h1]
  | _ => exact number

lemma lock_move : w'.threadListLock = some t ↔ (w'.pc t).locks = true := by
  have lock := @h.lock
  have ended := @hm.ended_of_handle
  clear h hm
  cases hv <;> grind -linarith

lemma Listed.move : Listed w' where
  mem := mem_move h hm hv
  nodup := nodup_move h hv
  number := number_move h hv
  lock := lock_move h hm hv

end Lists

structure Counted (g : Ghost T) (w : World T) : Prop where
  count : w.referenceCount + (if g.entering = none then 0 else 1) =
    (if g.initial then 1 else 0) + (if w.handle then 1 else 0) + w.threadList.length +
      (if g.leaving = none then 0 else 1)
  entering : ∀ {t}, g.entering = some t ↔ w.pc t = .insertReference
  leaving : ∀ {t}, g.leaving = some t ↔ (w.pc t).leaves = true
  final : ∀ {t}, g.final = some t ↔ (w.pc t).last = true
  alive : 0 < w.referenceCount → w.destroyed = 0
  dead : w.referenceCount = 0 → w.create ≠ .unused → w.destroyed = 1
  unused : w.create = .unused → w.referenceCount = 0 ∧ w.destroyed = 0
  initial : w.threadList ≠ [] ∨ w.create.busy = true ∨ g.final ≠ none → g.initial = true
  idle : w.create = .unused ∨ w.create = .failed → g.initial = false
  last : g.final ≠ none → w.threadList = [] ∧ (w.create.started = true ∨ w.create = .returned)
  more : ∀ {t}, (w.pc t).more = true → w.threadList ≠ []
  returned : w.create = .returned → g.initial = true → w.threadList ≠ [] ∨ g.final ≠ none
  handle : w.handle = true → w.create = .returned
  started : w.create.started = true → w.threadList ≠ [] ∨ g.final ≠ none
  small : w.referenceCount < 2 ^ 32 ∧ w.numberOfThreads < 2 ^ 32

omit [DecidableEq T] in
lemma Pc.locks_of_leaves (h : pc.leaves = true) : pc.locks = true := by
  cases pc <;> simp_all [Pc.leaves, Pc.locks]

omit [DecidableEq T] in
lemma Pc.locks_of_more (h : pc.more = true) : pc.locks = true := by
  cases pc <;> simp_all [Pc.more, Pc.locks]

attribute [local grind →] Pc.locks_of_leaves Pc.locks_of_more

omit [DecidableEq T] in
lemma Listed.ne_nil (h : Listed w) (ht : (w.pc t).listed = true) : w.threadList ≠ [] :=
  List.ne_nil_of_mem (h.mem.mpr ht)

lemma Listed.erase_eq_nil (h : Listed w) (ht : w.pc t = .remove) :
    w.threadList.erase t = [] ↔ w.numberOfThreads = 1 := by
  have hmem : t ∈ w.threadList := h.mem.mpr (by rw [ht]; rfl)
  have hpos := List.length_pos_of_mem hmem
  rw [← List.length_eq_zero_iff, List.length_erase_of_mem hmem, h.number]
  omega

section

omit [DecidableEq T]

lemma Listed.eq_nil_of_young (h : Listed w) (hm : Made g w)
    (hy : w.create.young = true) : w.threadList = [] := by
  refine List.eq_nil_iff_forall_not_mem.mpr fun t ht => ?_
  have hl := h.mem.mp ht
  rw [hm.young hy t] at hl
  cases hl

lemma Counted.entering_le (h : Counted g w) (hl : Listed w) :
    (if g.entering = none then 0 else 1) ≤ w.threadList.length := by
  cases he : g.entering with
  | none => simp
  | some t =>
    have hmem : t ∈ w.threadList := hl.mem.mpr (by rw [h.entering.mp he]; rfl)
    have hpos := List.length_pos_of_mem hmem
    simp
    omega

lemma Counted.pos (h : Counted g w) (hl : Listed w) (hi : g.initial = true) : 0 < w.referenceCount := by
  have hc := h.count
  have hle := h.entering_le hl
  rw [if_pos hi] at hc
  omega

lemma Counted.pos_of_handle (h : Counted g w) (hl : Listed w)
    (hh : w.handle = true) : 0 < w.referenceCount := by
  have hc := h.count
  have hle := h.entering_le hl
  rw [if_pos hh] at hc
  omega

lemma Made.creating_or_listed (hm : Made g w) (hl : Listed w)
    (ht : (w.pc t).making = true) : w.create = .creating t ∨ w.threadList ≠ [] :=
  (hm.making ht).imp_right fun hu => hl.ne_nil (by rw [hu]; rfl)

/-- The main thread has been created before a thread is removed. -/
lemma Made.started_of_remove (hm : Made g w) (ht : w.pc t = .remove) :
    w.create.started = true ∨ w.create = .returned := by
  have young := hm.young
  have creating := @hm.creating
  have alone := @hm.alone
  cases hc : w.create <;> grind -linarith

variable (h : Counted g w) (hl : Listed w) (ht : (w.pc t).locks = true)
include h hl ht

lemma Counted.entering_eq_none (hne : w.pc t ≠ .insertReference) : g.entering = none := by
  refine Option.eq_none_iff_forall_ne_some.mpr fun u hu => hne ?_
  have hpc := h.entering.mp hu
  have hlock := hl.lock.mpr ht
  rw [hl.lock.mpr (show (w.pc u).locks = true by rw [hpc]; rfl)] at hlock
  rwa [← Option.some.inj hlock]

lemma Counted.leaving_eq_none (hne : (w.pc t).leaves = false) : g.leaving = none := by
  refine Option.eq_none_iff_forall_ne_some.mpr fun u hu => ?_
  have hpc := h.leaving.mp hu
  have hlock := hl.lock.mpr ht
  rw [hl.lock.mpr (Pc.locks_of_leaves hpc)] at hlock
  rw [Option.some.inj hlock, hne] at hpc
  cases hpc

end

section Counts

variable {g g' : Ghost T} {w w' : World T} (h : Counted g w) (hl : Listed w) (hm : Made g w)
  (hv : Move g w g' w')
include h hl hm hv

lemma entering_move : g'.entering = some t ↔ w'.pc t = .insertReference := by
  have entering := @h.entering
  have lock := @hl.lock
  have ended := @hm.ended_of_handle
  clear h hl hm
  cases hv <;> grind -linarith

lemma leaving_move : g'.leaving = some t ↔ (w'.pc t).leaves = true := by
  have leaving := @h.leaving
  have lock := @hl.lock
  have ended := @hm.ended_of_handle
  clear h hl hm
  cases hv <;> grind -linarith

lemma final_move : g'.final = some t ↔ (w'.pc t).last = true := by
  have final := @h.final
  have last := h.last
  have mem := @hl.mem
  have ended := @hm.ended_of_handle
  clear h hl hm
  cases hv <;> grind -linarith

lemma more_move (ht : (w'.pc t).more = true) : w'.threadList ≠ [] := by
  have more := @h.more t
  have lock := @hl.lock
  have ended := @hm.ended_of_handle
  have erase := fun t (ht : w.pc t = .remove) => hl.erase_eq_nil ht
  clear h hl hm
  cases hv with
  | insert hc => simp
  | _ => grind -linarith

omit hm in
lemma alive_move (hr : 0 < w'.referenceCount) : w'.destroyed = 0 := by
  have alive := h.alive
  have unused := h.unused
  have initial := h.initial
  have pos := h.pos hl
  have listed := @hl.ne_nil
  clear h hl
  cases hv <;> first | exact alive hr | grind -linarith

omit hm in
lemma dead_move (hr : w'.referenceCount = 0) (hc : w'.create ≠ .unused) : w'.destroyed = 1 := by
  have dead := h.dead
  have unused := h.unused
  have initial := h.initial
  have pos := h.pos hl
  clear h hl
  cases hv <;> first | exact dead hr hc | grind -linarith

omit hl in
lemma unused_move (hc : w'.create = .unused) : w'.referenceCount = 0 ∧ w'.destroyed = 0 := by
  have unused := h.unused
  have young := hm.young
  have handle := h.handle
  clear h hm
  cases hv <;> first | exact unused hc | grind -linarith

lemma initial_move (hi : w'.threadList ≠ [] ∨ w'.create.busy = true ∨ g'.final ≠ none) : g'.initial = true := by
  have initial := h.initial
  have making := fun t (ht : (w.pc t).making = true) => hm.creating_or_listed hl ht
  have young := hl.eq_nil_of_young hm
  have ne := @hl.ne_nil
  have last := h.last
  have final := @h.final
  clear h hl hm
  cases hv <;> first | exact initial hi | grind -linarith

omit hl hm in
lemma idle_move (hc : w'.create = .unused ∨ w'.create = .failed) : g'.initial = false := by
  have idle := h.idle
  clear h
  cases hv <;> first | exact idle hc | grind -linarith

lemma last_move (hf : g'.final ≠ none) :
    w'.threadList = [] ∧ (w'.create.started = true ∨ w'.create = .returned) := by
  have last := h.last
  have making := fun t (ht : (w.pc t).making = true) => hm.creating_or_listed hl ht
  have erase := fun t (ht : w.pc t = .remove) => hl.erase_eq_nil ht
  have young := hm.young
  have started := fun t (ht : w.pc t = .remove) => hm.started_of_remove ht
  clear h hl hm
  cases hv <;> first | exact last hf | grind -linarith

omit hm in
lemma returned_move (hc : w'.create = .returned) (hi : g'.initial = true) :
    w'.threadList ≠ [] ∨ g'.final ≠ none := by
  have returned := h.returned
  have started := h.started
  have erase := fun t (ht : w.pc t = .remove) => hl.erase_eq_nil ht
  clear h hl
  cases hv with
  | insert => exact .inl (by simp)
  | _ => first | exact returned hc hi | grind -linarith

omit hl hm in
lemma handle_count_move (hh : w'.handle = true) : w'.create = .returned := by
  have handle := h.handle
  clear h
  cases hv <;> first | exact handle hh | grind -linarith

omit hm in
lemma started_move (hc : w'.create.started = true) : w'.threadList ≠ [] ∨ g'.final ≠ none := by
  have started := h.started
  have erase := fun t (ht : w.pc t = .remove) => hl.erase_eq_nil ht
  have ne := @hl.ne_nil
  clear h hl
  cases hv with
  | insert => exact .inl (by simp)
  | _ => first | exact started hc | grind -linarith

omit hm in
lemma count_move : w'.referenceCount + (if g'.entering = none then 0 else 1) =
    (if g'.initial then 1 else 0) + (if w'.handle then 1 else 0) + w'.threadList.length +
      (if g'.leaving = none then 0 else 1) := by
  have count := h.count
  cases hv with
  | processCreate hc =>
    have unused := h.unused hc
    simp only [h.idle (.inl hc), unused.1, Bool.false_eq_true, if_false, if_true] at count ⊢
    omega
  | reference hc =>
    have handle : w.handle = false := Bool.eq_false_iff.mpr fun hh => by
      simp [h.handle hh] at hc
    simp only [handle, Bool.false_eq_true, if_false, if_true] at count ⊢
    omega
  | dereference hc =>
    have initial := h.initial (.inr (.inl (by rw [hc]; rfl)))
    have hpos := h.pos hl initial
    simp only [initial, Bool.false_eq_true, if_false, if_true] at count ⊢
    omega
  | @insert t hc =>
    have hnone := h.entering_eq_none hl (t := t) (by rw [hc]; rfl) (by simp [hc])
    simp only [hnone, reduceCtorEq, if_true, if_false, List.length_append, List.length_singleton]
      at count ⊢
    omega
  | insertReference hc =>
    simp only [h.entering.mpr hc, reduceCtorEq, if_true, if_false] at count ⊢
    omega
  | @remove t hc _ | @removeFinal t hc _ =>
    have hnone := h.leaving_eq_none hl (t := t) (by rw [hc]; rfl) (by rw [hc]; rfl)
    have hmem : t ∈ w.threadList := hl.mem.mpr (by rw [hc]; rfl)
    have hpos := List.length_pos_of_mem hmem
    simp only [hnone, List.length_erase_of_mem hmem, reduceCtorEq, if_true, if_false] at count ⊢
    omega
  | @removeDereference t last hc =>
    have hsome : g.leaving = some t := h.leaving.mpr (by rw [hc]; rfl)
    have hnone := h.entering_eq_none hl (t := t) (by rw [hc]; rfl) (by simp [hc])
    simp only [hsome, hnone, reduceCtorEq, if_true, if_false] at count ⊢
    omega
  | @removeLast t hc =>
    have hfinal : g.final = some t := h.final.mpr (by rw [hc]; rfl)
    have initial := h.initial (.inr (.inr (by simp [hfinal])))
    have hpos := h.pos hl initial
    simp only [initial, Bool.false_eq_true, if_false, if_true] at count ⊢
    omega
  | processCloseHandle hh =>
    have hpos := h.pos_of_handle hl hh
    simp only [hh, Bool.false_eq_true, if_false, if_true] at count ⊢
    omega
  | _ => exact count

omit hl hm in
lemma small_move : w'.referenceCount < 2 ^ 32 ∧ w'.numberOfThreads < 2 ^ 32 := by
  obtain ⟨hr, hn⟩ := h.small
  cases hv <;> refine ⟨?_, ?_⟩ <;> simp only <;> omega

lemma Counted.move : Counted g' w' where
  count := count_move h hl hv
  entering := entering_move h hl hm hv
  leaving := leaving_move h hl hm hv
  final := final_move h hl hm hv
  alive := alive_move h hl hv
  dead := dead_move h hl hv
  unused := unused_move h hm hv
  initial := initial_move h hl hm hv
  idle := idle_move h hv
  last := last_move h hl hm hv
  more := more_move h hl hm hv
  returned := returned_move h hl hv
  handle := handle_count_move h hv
  started := started_move h hl hv
  small := small_move h hv

end Counts

omit [DecidableEq T] in
lemma Counted.pos_of_pc (h : Counted g w) (hl : Listed w) (hm : Made g w) (hu : w.pc t ≠ .unused)
    (hg : w.pc t ≠ .gone) : 0 < w.referenceCount := by
  have hlisted (ht : (w.pc t).listed = true) : 0 < w.referenceCount :=
    h.pos hl (h.initial (.inl (hl.ne_nil ht)))
  have hmaking (ht : (w.pc t).making = true) : 0 < w.referenceCount := by
    refine h.pos hl (h.initial ?_)
    rcases hm.creating_or_listed hl ht with hb | hn
    · exact .inr (.inl (by rw [hb]; rfl))
    · exact .inl hn
  have hlast (ht : (w.pc t).last = true) : 0 < w.referenceCount :=
    h.pos hl (h.initial (.inr (.inr (by simp [h.final.mpr ht]))))
  have hmore (ht : (w.pc t).more = true) : 0 < w.referenceCount :=
    h.pos hl (h.initial (.inl (h.more ht)))
  cases hc : w.pc t with
  | unused => exact absurd hc hu
  | gone => exact absurd hc hg
  | insertLock | insert => exact hmaking (by rw [hc]; rfl)
  | removeLast => exact hlast (by rw [hc]; rfl)
  | removeDereference last | removeUnlock last =>
    cases last with
    | false => exact hmore (by rw [hc]; rfl)
    | true => exact hlast (by rw [hc]; rfl)
  | _ => exact hlisted (by rw [hc]; rfl)

structure Lives (w : World T) : Prop where
  /-- It is destroyed at most once. -/
  once : w.destroyed ≤ 1
  /-- It is not destroyed before `ProcessCreate` has returned, the handle has been closed and all
      threads have been removed. -/
  after : w.destroyed ≠ 0 → (w.create = .returned ∨ w.create = .failed) ∧ w.handle = false ∧
    ∀ t, w.pc t = .unused ∨ w.pc t = .gone
  /-- It is destroyed when they have. -/
  destroyed : w.create = .returned ∨ w.create = .failed → w.handle = false →
    (∀ t, w.pc t = .unused ∨ w.pc t = .gone) → w.destroyed = 1
  /-- A process that could not be created has been destroyed. -/
  failed : w.create = .failed → w.destroyed = 1
  /-- Its memory is not accessed after it has been freed. -/
  safe : ∀ a, w.next a ≠ .error .wild

structure Kept (g : Ghost T) (w : World T) : Prop where
  made : Made g w
  listed : Listed w
  counted : Counted g w

omit [DecidableEq T] in
lemma Kept.small (h : Kept g w) : Small w := by
  refine ⟨h.counted.small.1, h.counted.small.2, fun t => ?_, fun ht => ?_⟩
  · have hm := h.made
    have hle : w.threadReferenceCount t ≤ 2 := by
      cases hc : w.pc t with
      | unused => simp [hm.fresh hc]
      | setup => simp [hm.setup hc]
      | ended => simp [(hm.ended hc).1]
      | abandoned => exact absurd hc (hm.abandoned t)
      | running | spawning | exited =>
        rcases hm.lives (t := t) (by rw [hc]; rfl) with hn | hn
        · exact hn.1.le
        · simp [hn.1]
      | insertLock | insert | insertReference | insertUnlock | threadReference =>
        simp [hm.early (t := t) (by rw [hc]; rfl) (by simp [hc])]
      | _ => simp [(hm.removed (t := t) (by rw [hc]; rfl)).1]
    omega
  · exact h.made.early (by rw [ht]; rfl) (by simp [ht])

/-- Every step keeps the invariant. -/
lemma Kept.step {w' : World T} (h : Kept g w) (ht : Timely w a) (hst : Step w a w') : ∃ g', Kept g' w' := by
  obtain ⟨g', hv⟩ := move_of_next g h.small ht hst
  exact ⟨g', h.made.move hv, h.listed.move h.made hv, h.counted.move h.listed h.made hv⟩

omit [DecidableEq T] in
lemma Initial.kept (h : Initial w) : Kept ⟨id, false, none, none, none⟩ w := by
  refine ⟨?_, ?_, ?_⟩ <;> constructor <;>
    simp [h.create, h.referenceCount, h.numberOfThreads, h.threadList, h.threadListLock, h.destroyed,
      h.handle, h.threadReferenceCount, h.pc, h.threadHandle, Pc.listed, Pc.locks, Pc.making, Pc.lives,
      Pc.removed, Pc.last, Pc.more, Pc.leaves, CreatePc.busy, CreatePc.young, CreatePc.started]

lemma rfcReference_ne (n : Nat) : rfcReference n ≠ .error .wild := by
  simp [rfcReference, bind_fault]

lemma rfcDereference_ne (n : Nat) : rfcDereference n ≠ .error .wild := by
  simp [rfcDereference, bind_fault]

section

omit [DecidableEq T]

lemma access_wild : w.access = .error .wild ↔ w.destroyed ≠ 0 := by
  unfold World.access
  split <;> simp_all

lemma processReference_wild (h : w.processReference = .error .wild) : w.destroyed ≠ 0 := by
  simpa [World.processReference, bind_fault, access_wild, rfcReference_ne] using h

lemma processDereference_wild (h : w.processDereference = .error .wild) : w.destroyed ≠ 0 := by
  simp only [World.processDereference, bind_fault, access_wild, rfcDereference_ne, false_or] at h
  rcases h with h | ⟨_, -, n, -, h⟩
  · exact h
  · split at h <;> simp [bind_fault] at h

end

lemma run_wild (h : w.run t = .error .wild) : w.destroyed ≠ 0 ∧ w.pc t ≠ .unused ∧ w.pc t ≠ .gone := by
  cases hc : w.pc t with
  | insertLock | removeLock =>
    simp only [World.run, hc, bind_fault, access_wild] at h
    rcases h with h | ⟨_, -, h⟩
    · simp [h]
    · split at h <;> simp at h
  | insert | insertUnlock | remove | removeUnlock =>
    simp [World.run, hc, bind_fault, access_wild] at h
    simp [h]
  | insertReference =>
    simp [World.run, hc, bind_fault] at h
    simp [processReference_wild h]
  | removeDereference | removeLast =>
    simp [World.run, hc, bind_fault] at h
    simp [processDereference_wild h]
  | threadReference => simp [World.run, hc, bind_fault, rfcReference_ne] at h
  | _ => simp [World.run, hc] at h

lemma step_wild (h : w.step = .error .wild) : w.destroyed ≠ 0 ∧ w.create.busy = true := by
  cases hc : w.create with
  | reference =>
    simp [World.step, hc, bind_fault] at h
    exact ⟨processReference_wild h, rfl⟩
  | dereference =>
    simp [World.step, hc, bind_fault] at h
    exact ⟨processDereference_wild h, rfl⟩
  | closing => simp [World.step, hc, bind_fault, rfcDereference_ne] at h
  | removing =>
    simp only [World.step, hc] at h
    split at h <;> simp at h
  | _ => simp [World.step, hc] at h

/-- Only a call that is under way, or the handle, reaches a process that is destroyed. -/
lemma next_wild (h : w.next a = .error .wild) :
    w.destroyed ≠ 0 ∧ ((∃ t, w.pc t ≠ .unused ∧ w.pc t ≠ .gone) ∨ w.create.busy = true ∨ w.handle = true) := by
  cases a with
  | step =>
    obtain ⟨h0, hb⟩ := step_wild h
    exact ⟨h0, .inr (.inl hb)⟩
  | run t =>
    obtain ⟨h0, ht⟩ := run_wild h
    exact ⟨h0, .inl ⟨t, ht⟩⟩
  | mainSetup t | spawnSetup _ t =>
    simp only [World.next] at h
    split at h
    · obtain ⟨-, hp⟩ := ‹_ ∧ _›
      simp [bind_fault, access_wild] at h
      exact ⟨h, .inl ⟨t, by simp [hp]⟩⟩
    · simp at h
  | exit t =>
    by_cases hp : w.pc t = .running
    · simp [World.next, hp, bind_fault, access_wild] at h
      exact ⟨h, .inl ⟨t, by simp [hp]⟩⟩
    · simp [World.next, hp] at h
  | processCloseHandle =>
    by_cases hh : w.handle = true
    · simp only [World.next, hh, if_true] at h
      exact ⟨by simpa using processDereference_wild h, .inr (.inr hh)⟩
    · simp [World.next, hh] at h
  | cleanup | threadCloseHandle =>
    simp only [World.next] at h
    split at h <;> simp [World.threadDereference, bind_fault, rfcDereference_ne] at h
  | _ =>
    simp only [World.next] at h
    split at h <;> simp at h

omit [DecidableEq T] in
lemma Kept.referenceCount_eq_zero (h : Kept g w)
    (hcr : w.create = .returned ∨ w.create = .failed) (hh : w.handle = false)
    (hg : ∀ t, w.pc t = .unused ∨ w.pc t = .gone) : w.referenceCount = 0 := by
  obtain ⟨hm, hl, hc⟩ := h
  have hnil : w.threadList = [] := List.eq_nil_iff_forall_not_mem.mpr fun t ht => by
    have hlisted := hl.mem.mp ht
    rcases hg t with hp | hp <;> rw [hp] at hlisted <;> cases hlisted
  have hleaving : g.leaving = none := Option.eq_none_iff_forall_ne_some.mpr fun t ht => by
    have hleaves := hc.leaving.mp ht
    rcases hg t with hp | hp <;> rw [hp] at hleaves <;> cases hleaves
  have hfinal : g.final = none := Option.eq_none_iff_forall_ne_some.mpr fun t ht => by
    have hlast := hc.final.mp ht
    rcases hg t with hp | hp <;> rw [hp] at hlast <;> cases hlast
  have hinitial : g.initial = false := by
    rcases hcr with hcr | hcr
    · refine Bool.eq_false_iff.mpr fun hi => ?_
      simpa [hnil, hfinal] using hc.returned hcr hi
    · exact hc.idle (.inr hcr)
  have hcount := hc.count
  simp only [hinitial, hh, hnil, hleaving, Bool.false_eq_true, if_false, if_true, List.length_nil]
    at hcount
  omega

section Runs

def noProcess (T : Type) : World T where
  create := .unused
  referenceCount := 0
  numberOfThreads := 0
  threadList := []
  threadListLock := none
  destroyed := 0
  handle := false
  threadReferenceCount _ := 0
  pc _ := .unused
  threadHandle _ := false

omit [DecidableEq T] in
lemma initial_noProcess : Initial (noProcess T) := by
  constructor <;> first | rfl | exact fun _ => rfl

def startRun (t : T) : List (Action T) :=
  [.processCreate, .main t] ++ List.replicate 5 (.run t) ++ [.mainSetup t false]

def earlyRun (t : T) : List (Action T) := startRun t ++ [.step, .exit t, .cleanup t] ++ List.replicate 5 (.run t)

instance (w : World (Fin 2)) : (a : Action (Fin 2)) → Decidable (Timely w a)
  | .mainSetup _ fails | .spawnSetup _ _ fails => inferInstanceAs (Decidable (fails = false))
  | .run t => inferInstanceAs (Decidable (w.pc t = .removeLast → w.create = .returned))
  | .processCreate | .fail | .main _ | .step | .spawn .. | .exit _ | .cleanup _ | .threadCloseHandle _
  | .processCloseHandle => .isTrue trivial

def lateRun (t u : T) : List (Action T) := startRun t ++ [.step, .spawn t u] ++ List.replicate 5 (.run u) ++
    [.spawnSetup t u false, .exit t, .cleanup t] ++ List.replicate 4 (.run t) ++
    [.exit u, .cleanup u, .threadCloseHandle u] ++ List.replicate 4 (.run u) ++ [.step, .run u, .processCloseHandle]

end Runs

end HAL9000.Process

