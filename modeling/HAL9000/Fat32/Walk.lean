import HAL9000.Lib.Walk
import HAL9000.Fat32.Table

/-!
# FAT32: following a chain

`successor` is the cluster behind another one in the table. `NextClusterInChain` and
`NextSectorInClusterChain` find it, and repair a table entry that is 0 on the way; the rest of the module says
what one iteration of the loop over a directory does. Transfers may fail here.
-/

namespace HAL9000.Fat32
open Lib Prog

variable {fd : FatData} {v : Volume} {disk : Mem} {past : Nat → Option UInt8} {bad : Fault → Prop}
  {c d fuel k : Nat}

def successor (fd : FatData) (disk : Mem) (c : Nat) : Option Nat :=
  if isEoc (nextOf (tableEntry fd disk c)) then none else some (nextOf (tableEntry fd disk c))

lemma successor_repaired : successor fd (repaired fd disk c) = successor fd disk := by
  funext d
  rw [repaired]
  split
  · next h0 =>
    by_cases hd : d = c
    · subst hd
      rw [successor, successor, tableEntry_setEntry_self (by decide), h0]
      rfl
    · rw [successor, successor, tableEntry_setEntry_of_ne hd]
  · rfl

lemma repaired_of_successor (h : successor fd disk c = some d) : repaired fd disk c = disk := by
  refine if_neg fun h0 => ?_
  rw [successor, h0] at h
  cases h

lemma eq_of_repaired {disk' : Mem} (hne : tableEntry fd disk c ≠ 0)
    (h : disk' = disk ∨ disk' = repaired fd disk c) : disk' = disk := by
  rcases h with h | h
  · exact h
  · rw [h, repaired, if_neg hne]

lemma ioReadDevice_runs {length offset : Nat} : Runs bad (ioReadDevice fd.volumeDevice length offset) v fun r v' =>
      v' = ⟨v.disk, v.reads + 1⟩ ∧ ∀ m, r = .ok m → m = fun i => v.disk (offset + i) := by
  rw [Runs, ioReadDevice]
  cases fd.volumeDevice.readFailure offset length with
  | some st => exact ⟨rfl, by simp⟩
  | none => exact ⟨rfl, fun m hm => by cases hm; rfl⟩

lemma ioWriteDevice_runs {buffer : Mem} {length offset : Nat} :
    Runs bad (ioWriteDevice fd.volumeDevice buffer length offset) v fun _ v' =>
      v' = v ∨ v' = ⟨copyTo v.disk offset length buffer, v.reads⟩ := by
  rw [Runs, ioWriteDevice]
  cases fd.volumeDevice.writeFailure offset length with
  | some st => exact .inl rfl
  | none => exact .inr rfl

lemma nextClusterInChain_runs (g : Geometry fd) : Runs bad (nextClusterInChain fd c) v fun r v' =>
      v'.reads = v.reads + 1 ∧ (v'.disk = v.disk ∨ v'.disk = repaired fd v.disk c) ∧
        ∀ d, r = .ok d → d = nextOf (tableEntry fd v.disk c) := by
  rw [nextClusterInChain]
  refine ioReadDevice_runs.seq ?_ fun st v' h => ⟨by rw [h.1], .inl (by rw [h.1]), by simp⟩
  rintro m v' ⟨rfl, hm⟩
  rw [hm m rfl, fatEntryAt_sector g, ← tableEntry]
  dsimp only
  rw [nextOf]
  split
  · next h0 =>
    have hcopy := copyTo_setFatEntryAt g.clustered v.disk c eocMark
    rw [if_pos (.inl h0), repaired, if_pos h0]
    refine ioWriteDevice_runs.seq ?_ ?_
    · rintro u v' (rfl | rfl)
      · exact .pure ⟨rfl, .inl rfl, fun d hd => by cases hd; rfl⟩
      · exact .pure ⟨rfl, .inr hcopy, fun d hd => by cases hd; rfl⟩
    · rintro st v' (rfl | rfl)
      · exact ⟨rfl, .inl rfl, by simp⟩
      · exact ⟨rfl, .inr hcopy, by simp⟩
  · next h0 =>
    split
    · next hb => exact .pure ⟨rfl, .inl rfl, fun d hd => by cases hd; rw [if_pos (.inr hb)]⟩
    · next hb => exact .pure ⟨rfl, .inl rfl, fun d hd => by cases hd; rw [if_neg (by tauto)]⟩

/-- From a cluster of a chain the first sector of the next one is found, if the transfers do not fail. -/
lemma nextSectorInClusterChain_runs (g : Geometry fd) (hc : IsData fd c) :
    Runs bad (nextSectorInClusterChain fd (sectorOf fd c) false) v fun r v' =>
      v'.reads = v.reads + 1 ∧ (v'.disk = v.disk ∨ v'.disk = repaired fd v.disk c) ∧
        ∀ next, r = .ok next → successor fd v.disk c = none ∧ next = 0 ∨
          ∃ d, successor fd v.disk c = some d ∧ IsData fd d ∧ next = sectorOf fd d := by
  rw [nextSectorInClusterChain, clusterOfSector_sectorOf g hc, ofExcept_ok_bind]
  refine (nextClusterInChain_runs g).seq ?_ fun st v' h => ⟨h.1, h.2.1, by simp⟩
  rintro e v' ⟨hreads, hdisk, he⟩
  cases he e rfl
  split
  · next hend =>
    refine .pure ⟨hreads, hdisk, fun next hnext => .inl ⟨by rw [successor, if_pos hend], ?_⟩⟩
    cases hnext
    rfl
  · next hend =>
    refine .ofExcept ⟨hreads, hdisk, fun next hnext => .inr ⟨_, by rw [successor, if_neg hend], ?_⟩⟩
    exact (firstSectorOfCluster_eq_ok g).mp hnext

lemma nextSectorInClusterChain_eq (g : Clustered fd) (hr : Reliable fd) (hc : IsData fd c) {i : Nat}
    (hi : i < fd.sectorsPerCluster) (hd : ∀ d ∈ successor fd v.disk c, IsData fd d) :
    nextSectorInClusterChain fd (sectorOf fd c + i) false v =
      .ok (.ok (((successor fd v.disk c).map (sectorOf fd)).getD 0), ⟨repaired fd v.disk c, v.reads + 1⟩) := by
  rw [nextSectorInClusterChain, clusterOfSector_ok g hc hi, ofExcept_ok_bind,
    bind_of_ok (nextClusterInChain_eq g hr c)]
  rw [successor] at hd ⊢
  split
  · rfl
  · next hend =>
    rw [firstSectorOfCluster_ok g (hd _ (if_neg hend))]
    rfl

section Scan

variable {ρ β : Type} {visit : Visitor ρ β} {s : Scan ρ} {entries : Mem}

lemma writePartialLongFatNameToName_error {a n : Nat} {e : Fault} {buffer : Mem}
    (h : writePartialLongFatNameToName entries a n buffer = .error e) : e = .wild := by
  rw [writePartialLongFatNameToName] at h
  split at h
  · split at h
    · split at h
      · cases h
      · cases h
        rfl
    · cases h
  · cases h

lemma entriesPerCluster_pos (g : Geometry fd) : 0 < entriesPerCluster fd := by
  rw [entriesPerCluster, g.entriesPerSector]
  exact Nat.mul_pos (Nat.div_pos (Nat.le_of_dvd g.bytesPerSector_pos g.bytesPerSector_dvd) (by decide))
    g.sectorsPerCluster_pos

lemma sizeofDirEntry_mul_entriesPerCluster (g : Geometry fd) :
    sizeofDirEntry * entriesPerCluster fd = bytesPerCluster fd := by
  rw [entriesPerCluster, bytesPerCluster, g.entriesPerSector, ← Nat.mul_assoc]
  exact congrArg (· * fd.sectorsPerCluster) (Nat.mul_div_cancel' g.bytesPerSector_dvd)

/-- Looking at an entry comes to an end if the visit of a short one does. -/
lemma scanEntry_ends
    (hv : ∀ sector m a name acc, Runs (· = .fuel) (visit sector m a name acc) v fun _ v' => v' = v) :
    Runs (· = .fuel) (scanEntry visit s entries) v fun _ v' => v' = v := by
  rw [scanEntry]
  refine .ite (fun _ => .pure rfl) fun _ => .ite (fun _ => ?_) fun _ => ?_
  · refine .ofExec_bind (fun e he => ?_) fun _ _ => .assert_bind (by simp) fun _ => .pure rfl
    rw [writePartialLongFatNameToName_error he]
    simp
  · refine (hv ..).seq ?_ fun _ _ h => h
    rintro (⟨acc, name⟩ | b) v' rfl
    · exact .pure rfl
    · exact .pure rfl

lemma refill_scanStart {sector : Nat} {acc : ρ} : Runs bad (refill fd (scanStart sector acc)) v fun r v' =>
      v' = ⟨v.disk, v.reads + 1⟩ ∧ ∀ p, r = .ok p → ∃ m,
        m = (fun i => v.disk (sector * fd.bytesPerSector + i)) ∧
          p = some (⟨sector, some m, 0, fun _ => 0, acc⟩, m) := by
  rw [refill, scanStart, Nat.zero_mod, if_pos rfl]
  dsimp only
  rw [pure_bind, if_neg (by simp)]
  refine ioReadDevice_runs.seq ?_ fun st v' h => ⟨h.1, nofun⟩
  rintro m v' ⟨rfl, hm⟩
  exact .pure ⟨rfl, fun p hp => ⟨m, hm m rfl, by cases hp; rfl⟩⟩

lemma fatPopulate_error {entries : Mem} {a : Nat} {e : Fault}
    (h : fatPopulateFileInformationFromFatEntry fd entries a = .error e) : e = .check := by
  have hdemand : ∀ {x y : Nat} {e : Fault}, demandDateTime x y = .error e → e = .check := by
    intro x y e h
    rw [demandDateTime] at h
    split at h
    · cases h
    · cases h
      rfl
  rw [fatPopulateFileInformationFromFatEntry] at h
  split at h
  · cases h
  · cases h1 : demandDateTime (readLE entries (a + 0x10) 2) (readLE entries (a + 0xE) 2) with
    | error e' =>
      rw [h1] at h
      cases h
      exact hdemand h1
    | ok t1 =>
      cases h2 : demandDateTime (readLE entries (a + 0x18) 2) (readLE entries (a + 0x16) 2) with rw [h1, h2] at h
      | error e' =>
        cases h
        exact hdemand h2
      | ok t2 => cases h

lemma searchVisit_runs (hb : ¬ bad .check) {name : List UInt8} {type : Nat} {info : Bool}
    {sector a : Nat} {m longName : Mem} {acc : Unit} :
    Runs bad (searchVisit fd name type info sector m a longName acc) v fun _ v' => v' = v := by
  rw [searchVisit]
  split
  · exact .fault hb
  · refine .ite (fun _ => .ite (fun _ => .fail rfl) fun _ => ?_) fun _ => .pure rfl
    refine Runs.seq (Q := fun _ v' => v' = v) (.ofExcept rfl) ?_ fun _ _ h => h
    rintro sector v' rfl
    refine .ite (fun _ => ?_) fun _ => .pure rfl
    exact .ofExec_bind (fun e he => fatPopulate_error he ▸ hb) fun _ _ => .pure rfl

lemma queryVisit_runs (hb : ¬ bad .check) {size sector a : Nat} {m longName : Mem} {acc : Listing} :
    Runs bad (queryVisit fd size sector m a longName acc) v fun _ v' => v' = v := by
  rw [queryVisit]
  split
  · exact .fault hb
  · refine .assert_bind (fun h => absurd h hb) fun _ => ?_
    refine .ite (fun _ => ?_) fun _ => .pure rfl
    exact .ofExec_bind (fun e he => fatPopulate_error he ▸ hb) fun _ _ => .pure rfl

end Scan

end HAL9000.Fat32
