import HAL9000.Fat32.Places

/-!
# FAT32: the directories of a volume

`Directory fd disk c` says that cluster `c` belongs to a directory that a search can come to: the root
directory, what follows in a chain, and the first cluster of an entry with the attribute of a
directory. Where all these clusters are taken and their chains stay in the data region
(`SoundDirectories`), a search leaves the volume as it is, and ends up at a directory again
(`fatSearch_directory`).
-/

namespace HAL9000.Fat32
open Lib Prog

variable {fd : FatData} {v : Volume} {disk : Mem} {past : Nat → Option UInt8} {c d fuel n : Nat}

def rootCluster (fd : FatData) : Nat :=
  (fd.rootDirectoryStartSector - fd.firstDataSector) / fd.sectorsPerCluster + 2

/-- A mounted volume: the information sector fits into a sector, and the root directory starts with a
    cluster. -/
structure Mounted (fd : FatData) : Prop extends Geometry fd where
  info : sizeofFsInfo ≤ fd.bytesPerSector
  root : IsData fd (rootCluster fd)
  rootSector : fd.rootDirectoryStartSector = sectorOf fd (rootCluster fd)

/-- The sample volume is mounted. -/
lemma sampleData_mounted : Mounted sampleData where
  toGeometry := sampleData_geometry
  info := by decide
  root := by decide
  rootSector := by decide

/-- A search looks at the entry: it is in use, and no part of a long name. The first entry of a cluster
    is looked at even if it is an end mark. -/
structure Visited (entries : Mem) (index : Nat) : Prop where
  used : isFree entries (sizeofDirEntry * index) = false
  short : isLong entries (sizeofDirEntry * index) = false
  mark : index = 0 ∨ entries (sizeofDirEntry * index) ≠ freeAll

def entryType (entries : Mem) (index : Nat) : Nat :=
  dirAttr entries (sizeofDirEntry * index) &&& (attrDirectory ||| attrVolumeId)

/-- The cluster belongs to a directory that a search can come to. -/
inductive Directory (fd : FatData) (disk : Mem) : Nat → Prop where
  | root : Directory fd disk (rootCluster fd)
  | next {c d : Nat} : Directory fd disk c → IsData fd c → successor fd disk c = some d → Directory fd disk d
  | entry {c index : Nat} : Directory fd disk c → IsData fd c → index < entriesPerCluster fd →
      Visited (clusterBytes fd disk c) index → entryType (clusterBytes fd disk c) index = attrDirectory →
      Directory fd disk (dirCluster (clusterBytes fd disk c) (sizeofDirEntry * index))

/-- The clusters of the directories are taken, and their chains stay in the data region. -/
def SoundDirectories (fd : FatData) (disk : Mem) : Prop := ∀ c, Directory fd disk c → IsData fd c →
    tableEntry fd disk c ≠ 0 ∧ ∀ d, successor fd disk c = some d → IsData fd d

section Walk

variable {ρ β : Type} {visit : Visitor ρ β} {q q' : Place ρ}

/-- The place is in a directory, and no end mark unless it is at the start of a cluster. -/
structure Place.InDirectory (fd : FatData) (disk : Mem) (q : Place ρ) : Prop where
  directory : Directory fd disk q.cluster
  inside : q.Inside fd
  mark : q.index = 0 ∨ q.entries fd disk q.offset ≠ freeAll

/-- The loop stays in the directories, and goes over no end mark. -/
lemma Place.InDirectory.next (g : Geometry fd) (hq : q.InDirectory fd disk)
    (h : nextPlace fd past disk visit q = some q') : q'.InDirectory fd disk := by
  have hin := hq.inside.next g h
  obtain ⟨acc, m, -, ⟨-, hne, rfl⟩ | ⟨-, -, d, hs, -, rfl⟩⟩ := nextPlace_cases h
  · exact ⟨hq.directory, hin, .inr hne⟩
  · exact ⟨hq.directory.next hq.inside.data hs, hin, .inl rfl⟩

end Walk

section Search

/-- What a search for a type of entry comes to: the first sector of such an entry in a directory. -/
def FoundIn (fd : FatData) (disk : Mem) (type sector : Nat) : Prop :=
  ∃ c index, Directory fd disk c ∧ IsData fd c ∧ index < entriesPerCluster fd ∧
    Visited (clusterBytes fd disk c) index ∧ entryType (clusterBytes fd disk c) index = type ∧
    IsData fd (dirCluster (clusterBytes fd disk c) (sizeofDirEntry * index)) ∧
    sector = sectorOf fd (dirCluster (clusterBytes fd disk c) (sizeofDirEntry * index))

variable {name : List UInt8} {type : Nat} {info : Bool}

/-- A search leaves the loop with the first sector of an entry of the type that it searches for. -/
lemma searchVisit_leaves (g : Geometry fd) {sector a : Nat} {entries longName : Mem} {acc : Unit} :
    Runs (fun _ => False) (searchVisit fd name type info sector entries a longName acc) v fun r v' => v' = v ∧
      ∀ b, r = .ok (.leave b) → dirAttr entries a &&& (attrDirectory ||| attrVolumeId) = type ∧
        IsData fd (dirCluster entries a) ∧ b.sector = sectorOf fd (dirCluster entries a) := by
  rw [searchVisit]
  split
  · exact .fault id
  · refine .ite (fun _ => .ite (fun _ => .fail ⟨rfl, by simp⟩) fun htype => ?_) fun _ => .pure ⟨rfl, by simp⟩
    cases hsec : firstSectorOfCluster fd (dirCluster entries a) with
    | error st => exact ⟨rfl, by simp⟩
    | ok sector =>
      obtain ⟨hdata, rfl⟩ := (firstSectorOfCluster_eq_ok g).mp hsec
      rw [ofExcept_ok_bind]
      refine .ite (fun _ => ?_) fun _ => .pure ⟨rfl, fun b h => ?_⟩
      · refine .ofExec_bind (fun _ _ => id) fun _ _ => .pure ⟨rfl, fun b h => ?_⟩
        cases h
        exact ⟨not_not.mp htype, hdata, rfl⟩
      · cases h
        exact ⟨not_not.mp htype, hdata, rfl⟩

/-- A search stops at a place it gets to. What it finds is the first sector of the entry there. -/
lemma fatSearchDirectoryEntry_place (g : Geometry fd) (hc : IsData fd c) :
    Runs (fun _ => False) (fatSearchDirectoryEntry fd past fuel (sectorOf fd c) name type info) v fun r v' =>
      ∃ q, SearchGets fd past v c name type info q ∧
        (v'.disk = v.disk ∨ v'.disk = repaired fd v.disk q.cluster) ∧ ∀ found, r = .ok found →
          isFree (q.entries fd v.disk) q.offset = false ∧ isLong (q.entries fd v.disk) q.offset = false ∧
          entryType (q.entries fd v.disk) q.index = type ∧ IsData fd (dirCluster (q.entries fd v.disk) q.offset) ∧
          found.sector = sectorOf fd (dirCluster (q.entries fd v.disk) q.offset) := by
  rw [fatSearchDirectoryEntry]
  cases fuel with
  | zero => exact .fault id
  | succ fuel =>
    refine (scanStart_walks g searchVisit_steady hc (fun _ => False) (fun _ _ _ _ _ => id) False.elim).seq ?_ ?_
    · rintro (u | found) v' ⟨k, q, hq, hstop⟩
      · exact .fail ⟨q, ⟨k, hq⟩, hstop.volume, by simp⟩
      · refine .pure ⟨q, ⟨k, hq⟩, hstop.volume, fun f hf => ?_⟩
        cases hf
        obtain ⟨hfree, hlong, v1, hvisit⟩ := Place.look_leave (hstop.leave found rfl)
        exact ⟨hfree, hlong, ((searchVisit_leaves g).apply hvisit).2 found rfl⟩
    · rintro st v' ⟨k, q, hq, hstop⟩
      exact ⟨q, ⟨k, hq⟩, hstop.volume, by simp⟩

/-- A search in a directory finds what one of its entries says. -/
lemma fatSearchDirectoryEntry_directory (g : Geometry fd) (hsound : SoundDirectories fd v.disk)
    (hc : Directory fd v.disk c) (hdata : IsData fd c) :
    Runs (fun _ => False) (fatSearchDirectoryEntry fd past fuel (sectorOf fd c) name type info) v
      fun r v' => v'.disk = v.disk ∧ ∀ found, r = .ok found → FoundIn fd v.disk type found.sector := by
  refine (fatSearchDirectoryEntry_place g hdata).mono ?_
  rintro r v' ⟨q, ⟨k, hq⟩, hdisk, hfound⟩
  have hin : q.InDirectory fd v.disk :=
    follow_invariant (fun _ _ hp => hp.next g) ⟨hc, ⟨hdata, entriesPerCluster_pos g⟩, .inl rfl⟩ hq
  refine ⟨eq_of_repaired (hsound _ hin.directory hin.inside.data).1 hdisk, fun found h => ?_⟩
  obtain ⟨hfree, hlong, htype, hd, hsec⟩ := hfound found h
  exact ⟨q.cluster, q.index, hin.directory, hin.inside.data, hin.inside.index, ⟨hfree, hlong, hin.mark⟩, htype, hd,
    hsec⟩

/-- A directory that is found is one. -/
lemma FoundIn.directory {sector : Nat} (h : FoundIn fd disk attrDirectory sector) :
    ∃ c, Directory fd disk c ∧ IsData fd c ∧ sector = sectorOf fd c := by
  obtain ⟨c, index, hc, hdata, hlt, hvis, htype, hdata', rfl⟩ := h
  exact ⟨_, hc.entry hdata hlt hvis htype, hdata', rfl⟩

/-- The search for a path goes from directory to directory. -/
lemma searchPath_directory (g : Geometry fd) (hsound : SoundDirectories fd v.disk)
    (hc : Directory fd v.disk c) (hdata : IsData fd c) {rest : List UInt8} :
    Runs (fun _ => False) (searchPath fd past fuel type info n (sectorOf fd c) rest) v
      fun r v' => v'.disk = v.disk ∧ ∀ found, r = .ok found → FoundIn fd v.disk type found.sector := by
  induction n generalizing v c rest with
  | zero => exact .fault id
  | succ n ih =>
    rw [searchPath]
    refine .ite (fun _ => .fail ⟨rfl, by simp⟩) fun _ => ?_
    refine (fatSearchDirectoryEntry_directory g hsound hc hdata).seq ?_ fun _ _ h => ⟨h.1, by simp⟩
    rintro found v1 ⟨hv1, hfound⟩
    have hf := hfound found rfl
    by_cases hlast : clStrchr rest fatDelimiter = 0
    · rw [if_pos hlast] at hf ⊢
      exact .pure ⟨hv1, fun f h => by cases h; exact hf⟩
    · rw [if_neg hlast] at hf ⊢
      obtain ⟨d, hd, hdd, hsec⟩ := hf.directory
      rw [← hv1] at hsound hd ⊢
      rw [hsec]
      exact ih hsound hd hdd

/-- `FatSearch` finds an entry of a directory, or the root. -/
lemma fatSearch_directory (m : Mounted fd) (hsound : SoundDirectories fd v.disk) :
    Runs (fun _ => False) (fatSearch fd past fuel name type info) v fun r v' => v'.disk = v.disk ∧
      ∀ found, r = .ok found → FoundIn fd v.disk type found.sector ∨
        found.sector = sectorOf fd (rootCluster fd) := by
  cases name with
  | nil => exact .fail ⟨rfl, by simp⟩
  | cons b rest =>
    rw [fatSearch]
    refine .ite (fun _ => .fail ⟨rfl, by simp⟩) fun _ => .ite (fun _ => ?_) fun _ => ?_
    · refine .ite (fun _ => .fail ⟨rfl, by simp⟩) fun _ => .pure ⟨rfl, fun f h => ?_⟩
      cases h
      exact .inr m.rootSector
    · rw [m.rootSector]
      refine (searchPath_directory m.toGeometry hsound .root m.root).mono ?_
      rintro r v' ⟨hv', hr⟩
      exact ⟨hv', fun f h => .inl (hr f h)⟩

/-- A parent that `FatSearch` finds is a directory. -/
lemma fatSearch_parent (m : Mounted fd) (hsound : SoundDirectories fd v.disk) :
    Runs (fun _ => False) (fatSearch fd past fuel name attrDirectory info) v fun r v' =>
      v'.disk = v.disk ∧ ∀ found, r = .ok found →
        ∃ c, Directory fd v.disk c ∧ IsData fd c ∧ found.sector = sectorOf fd c := by
  refine (fatSearch_directory m hsound).mono ?_
  rintro r v' ⟨hv', hr⟩
  refine ⟨hv', fun f h => ?_⟩
  rcases hr f h with hfound | hroot
  · exact hfound.directory
  · exact ⟨_, .root, m.root, hroot⟩

end Search

end HAL9000.Fat32
