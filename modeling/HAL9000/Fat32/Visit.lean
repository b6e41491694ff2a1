import HAL9000.Fat32.End

/-!
# FAT32: from sector to sector along a chain

`ClusterOfSector` subtracts without a check, and the difference of a sector before the data is too large for a
cluster. So it accepts the sectors of the data region only, and `NextSectorInClusterChain` takes any sector of a
cluster to the first sector of the next one.
-/

namespace HAL9000.Fat32
open Lib Prog

variable {fd : FatData} {v : Volume} {disk : Mem} {cs : List Nat} {c i k n sector : Nat}

/-- The sectors that `n` calls of `NextSectorInClusterChain` lead to. -/
def nextSectors (fd : FatData) : Nat → Nat → Fs (List Nat)
  | 0, _ => pure []
  | n + 1, sector => do
    let next ← nextSectorInClusterChain fd sector false
    let rest ← nextSectors fd n next
    pure (next :: rest)

section

variable (g : Clustered fd)
include g

lemma clusterOfSector_accepts (hs : sector < 2 ^ 64) : (∃ c, clusterOfSector fd sector = .ok c) ↔
    fd.firstDataSector ≤ sector ∧ sector < fd.firstDataSector + fd.countOfClusters * fd.sectorsPerCluster := by
  have hsec := g.sectors
  have hcount := g.clusters
  have hpos := g.sectorsPerCluster_pos
  have hdiv := Nat.div_lt_iff_lt_mul (x := wsub 64 sector fd.firstDataSector) (y := fd.countOfClusters) hpos
  have hle := Nat.div_le_self (wsub 64 sector fd.firstDataSector) fd.sectorsPerCluster
  have hsub : wsub 64 sector fd.firstDataSector < fd.countOfClusters * fd.sectorsPerCluster ↔
      fd.firstDataSector ≤ sector ∧ sector < fd.firstDataSector + fd.countOfClusters * fd.sectorsPerCluster := by
    unfold wsub
    omega
  have hlt : wsub 64 sector fd.firstDataSector < 2 ^ 64 := by
    unfold wsub
    omega
  simp only [clusterOfSector, g.wadd_one]
  generalize wsub 64 sector fd.firstDataSector / fd.sectorsPerCluster = q at *
  split
  · next hout =>
    refine iff_of_false (by simp) fun hin => ?_
    have := hdiv.mpr (hsub.mpr hin)
    unfold wadd at hout
    omega
  · next hin =>
    refine iff_of_true ⟨_, rfl⟩ (hsub.mp (hdiv.mp ?_))
    unfold wadd at hin
    omega

variable (hr : Reliable fd)
include hr

variable (h : Chain fd disk cs) (hs : successor fd v.disk = successor fd disk)
include h hs

lemma Chain.next_eq (hk : k < cs.length) (hi : i < fd.sectorsPerCluster) :
    ∃ v', successor fd v'.disk = successor fd disk ∧
      nextSectorInClusterChain fd (sectorOf fd (cs.getD k 0) + i) false v =
        .ok (.ok (sectorAt fd cs (k + 1)), v') := by
  have hc := h.isData hk
  have hnext := h.successor_eq hk
  rw [← hs] at hnext
  refine ⟨⟨repaired fd v.disk (cs.getD k 0), v.reads + 1⟩, successor_repaired.trans hs, ?_⟩
  rw [nextSectorInClusterChain_eq g hr hc hi, hnext, sectorAt]
  exact fun d hd => h.data d (List.mem_of_getElem? (hnext.symm.trans hd))

lemma Chain.nextSectors_eq (hn : k + n = cs.length) : ∃ v', nextSectors fd n (sectorAt fd cs k) v =
      .ok (.ok ((List.range' (k + 1) n).map (sectorAt fd cs)), v') := by
  induction n generalizing k v with
  | zero => exact ⟨v, rfl⟩
  | succ n ih =>
    obtain ⟨v1, hs1, h1⟩ := h.next_eq (k := k) g hr hs (by omega) g.sectorsPerCluster_pos
    obtain ⟨v2, h2⟩ := ih (k := k + 1) hs1 (by omega)
    refine ⟨v2, ?_⟩
    rw [Nat.add_zero, ← sectorAt_lt (by omega)] at h1
    rw [nextSectors, bind_of_ok h1, bind_of_ok h2]
    rfl

end

/-- The sectors of the data region are those that have a cluster. From any sector of a cluster of a chain
    `NextSectorInClusterChain` leads to the first sector of the next one, and to 0 from the last; so it goes
    through the clusters in their order. -/
theorem nextSectorInClusterChain_visits (g : Clustered fd) (hr : Reliable fd) :
    (∀ sector < 2 ^ 64, (∃ c, clusterOfSector fd sector = .ok c) ↔ fd.firstDataSector ≤ sector ∧
      sector < fd.firstDataSector + fd.countOfClusters * fd.sectorsPerCluster) ∧
    (∀ c, IsData fd c → ∀ i < fd.sectorsPerCluster, clusterOfSector fd (sectorOf fd c + i) = .ok c) ∧
    ∀ v cs, Chain fd v.disk cs →
      (∀ k < cs.length, ∀ i < fd.sectorsPerCluster, ∃ v',
        nextSectorInClusterChain fd (sectorOf fd (cs.getD k 0) + i) false v =
          .ok (.ok (if k + 1 < cs.length then sectorOf fd (cs.getD (k + 1) 0) else 0), v')) ∧
      ∀ c ∈ cs.head?, ∃ v', nextSectors fd cs.length (sectorOf fd c) v =
        .ok (.ok (cs.tail.map (sectorOf fd) ++ [0]), v') := by
  refine ⟨fun _ hs => clusterOfSector_accepts g hs, fun c hc i hi => clusterOfSector_ok g hc hi,
    fun v cs h => ⟨fun k hk i hi => ?_, fun c hc => ?_⟩⟩
  · obtain ⟨v', -, hnext⟩ := h.next_eq g hr rfl hk hi
    refine ⟨v', hnext.trans ?_⟩
    split
    · next hlt => rw [sectorAt_lt hlt]
    · next hge => rw [show k + 1 = cs.length by omega, sectorAt_length]
  · obtain ⟨v', hv⟩ := h.nextSectors_eq g hr (k := 0) rfl (Nat.zero_add _)
    obtain ⟨cs, rfl⟩ := List.head?_eq_some_iff.mp hc
    refine ⟨v', hv.trans ?_⟩
    have hmap : (List.range' 1 (cs.length + 1)).map (sectorAt fd (c :: cs)) = cs.map (sectorOf fd) ++ [0] := by
      rw [List.range'_concat, List.map_append]
      congr 1
      · refine List.ext_getElem (by simp) fun j _ hj => ?_
        rw [List.length_map] at hj
        simp [sectorAt, Nat.add_comm 1 j, hj]
      · simp [sectorAt, Nat.add_comm 1]
    rw [List.length_cons, hmap]
    rfl

/-- The file in the clusters 3, 5 and 4, with two sectors each. -/
theorem nextSectorInClusterChain_visits_pairFile :
    ∃ v', nextSectors pairData 3 (sectorOf pairData 3) ⟨pairFile, 0⟩ = .ok (.ok [552, 550, 0], v') :=
  ((nextSectorInClusterChain_visits pairData_geometry.clustered fun _ _ => ⟨rfl, rfl⟩).2.2 ⟨pairFile, 0⟩ [3, 5, 4]
    pairFile_chain).2 3 rfl

end HAL9000.Fat32
