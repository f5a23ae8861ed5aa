/-
The drive letters and capacities of the IDE driver and the volumes of FatFs.

`disk_io` gives out its letters in order to the devices it detects, while FatFs numbers its
volumes by the drives, detected or not.  So the letters agree as long as no drive is missing
before a detected one.  The number of sectors is put together from two words as an `int`,
which gets its sign from the highest bit.
-/
import EvtDrivenOs.Ide.Disk
import Mathlib.Data.Nat.Count

namespace EvtDrivenOs.Ide

/-- `FF_VOLUME_STRS`; with `FF_MULTI_PARTITION` 0 an entry names the volume of the physical
drive of the same number. -/
def ffVolumeStrs : List Char := ['C', 'D', 'E', 'F']

variable (detect : ℕ → ℕ → Detection)

/-- The detection for entry `did`. -/
def detected (did : ℕ) : Detection := detect (did / 2) (did % 2)

/-- There is a device for entry `did`. -/
def Found (did : ℕ) : Prop := (detected detect did).result ≠ ideNoDevice

instance : DecidablePred (Found detect) := fun _ => inferInstanceAs (Decidable (_ ≠ _))

/-- The number of sectors in an identity block. -/
def sectorCount (identity : ℕ → BitVec 16) : ℕ :=
  65536 * (identity ideCapLbaHi).toNat + (identity ideCapLbaLo).toNat

/-- The table of `disk_io`: just the detected devices have a letter, each its own and that
of its volume, and their capacity is that of their sectors. -/
structure TableAgrees : Prop where
  /-- An entry has a letter just if a device was found. -/
  letter : ∀ did dev, (diskIo detect)[did]? = some dev →
    (dev.letter ≠ ideNoLetter ↔ Found detect did)
  /-- No two devices have the same letter. -/
  distinct : ∀ did did' dev dev', (diskIo detect)[did]? = some dev →
    (diskIo detect)[did']? = some dev' → Found detect did → Found detect did' →
    dev.letter = dev'.letter → did = did'
  /-- The letter is that of the volume of FatFs with the same number. -/
  volume : ∀ did dev, (diskIo detect)[did]? = some dev → Found detect did →
    ffVolumeStrs[did]? = some dev.letter
  /-- The capacity is that of the sectors that the device has told. -/
  capacity : ∀ did dev, (diskIo detect)[did]? = some dev → Found detect did →
    dev.capacity.toNat = 512 * sectorCount (detected detect did).identity

/-! ### The entries of the table -/

/-- The entry that `disk_io` makes for `did` when it has given out `n` letters. -/
def entryOf (did n : ℕ) : IdeDev :=
  let found := detected detect did
  { letter := if Found detect did then ['C', 'D', 'E', 'F'].getD n ideNoLetter else ideNoLetter
    ideBus := BitVec.ofNat 8 (did / 2)
    busDev := BitVec.ofNat 8 (did % 2)
    ataDetect := found.result
    capacity := if Found detect did then capSectors found.identity * ideAtaSectorBytes else 0
    identityBlock := found.identity }

variable {detect}

lemma diskIoEntry_eq (did : ℕ) (devs : List IdeDev) :
    diskIoEntry detect (did / 2) (did % 2) (devs, Nat.count (Found detect) did) =
      (devs ++ [entryOf detect did (Nat.count (Found detect) did)],
        Nat.count (Found detect) (did + 1)) := by
  rw [Nat.count_succ]
  by_cases h : Found detect did
  · simp only [diskIoEntry, entryOf, if_pos h]
    exact if_pos h
  · simp only [diskIoEntry, entryOf, if_neg h]
    exact if_neg h

/-- The table: every entry has the letter of its rank among the detected devices. -/
lemma diskIo_eq :
    diskIo detect =
      (List.range 4).map fun did => entryOf detect did (Nat.count (Found detect) did) := by
  have h0 (devs : List IdeDev) : diskIoEntry detect 0 0 (devs, 0) = _ := diskIoEntry_eq 0 devs
  have h1 (devs : List IdeDev) : diskIoEntry detect 0 1 (devs, _) = _ := diskIoEntry_eq 1 devs
  have h2 (devs : List IdeDev) : diskIoEntry detect 1 0 (devs, _) = _ := diskIoEntry_eq 2 devs
  have h3 (devs : List IdeDev) : diskIoEntry detect 1 1 (devs, _) = _ := diskIoEntry_eq 3 devs
  simp only [diskIo, ideDevBuses, ideBusDevices, List.range_succ, List.range_zero, List.nil_append,
    List.foldl_cons, List.foldl_nil, h0, h1, h2, h3, List.map_cons, List.map_nil, List.cons_append]

lemma diskIo_getElem {did : ℕ} {dev : IdeDev} (h : (diskIo detect)[did]? = some dev) :
    did < 4 ∧ dev = entryOf detect did (Nat.count (Found detect) did) := by
  rw [diskIo_eq, List.getElem?_map, Option.map_eq_some_iff] at h
  obtain ⟨i, hi, rfl⟩ := h
  obtain ⟨hlt, rfl⟩ := List.getElem?_eq_some_iff.1 hi
  rw [List.length_range] at hlt
  exact ⟨hlt, by rw [List.getElem_range]⟩

lemma diskIo_getElem_of_lt {did : ℕ} (h : did < 4) :
    (diskIo detect)[did]? = some (entryOf detect did (Nat.count (Found detect) did)) := by
  rw [diskIo_eq, List.getElem?_map, List.getElem?_range h, Option.map_some]

/-! ### Letters -/

lemma nodup_ffVolumeStrs : ffVolumeStrs.Nodup := by decide

/-- The letter of a detected device is the volume string of its rank. -/
lemma letter_entryOf {did : ℕ} (hdid : did < 4) (hf : Found detect did) :
    ffVolumeStrs[Nat.count (Found detect) did]? =
      some (entryOf detect did (Nat.count (Found detect) did)).letter := by
  have hrank : Nat.count (Found detect) did < ffVolumeStrs.length := (Nat.count_le _).trans_lt hdid
  rw [entryOf, if_pos hf, List.getD_eq_getElem?_getD]
  change _ = some ((ffVolumeStrs[Nat.count (Found detect) did]?).getD ideNoLetter)
  rw [List.getElem?_eq_getElem hrank, Option.getD_some]

lemma ne_noLetter_of_volume {n : ℕ} {c : Char} (h : ffVolumeStrs[n]? = some c) :
    c ≠ ideNoLetter := by
  have hmem : c ∈ ffVolumeStrs := List.mem_of_getElem? h
  have hall : ∀ c ∈ ffVolumeStrs, c ≠ ideNoLetter := by
    simp [ffVolumeStrs, ideNoLetter]
  exact hall c hmem

/-- The letters of devices at different ranks are different. -/
lemma rank_inj {i j : ℕ} {c : Char} (hi : ffVolumeStrs[i]? = some c)
    (hj : ffVolumeStrs[j]? = some c) : i = j :=
  (List.getElem?_inj (List.getElem?_eq_some_iff.1 hi).1 nodup_ffVolumeStrs).1 (hi.trans hj.symm)

/-! ### Capacities -/

lemma toNat_words (hi lo : BitVec 16) :
    (hi.setWidth 32 <<< 16 ||| lo.setWidth 32).toNat = 65536 * hi.toNat + lo.toNat := by
  have hhi := hi.isLt
  have hlo := lo.isLt
  have hor : hi.toNat <<< 16 ||| lo.toNat = hi.toNat <<< 16 + lo.toNat :=
    (Nat.shiftLeft_add_eq_or_of_lt hlo _).symm
  rw [BitVec.toNat_or, BitVec.toNat_shiftLeft, BitVec.toNat_setWidth, BitVec.toNat_setWidth,
    Nat.mod_eq_of_lt (by omega : hi.toNat < 2 ^ 32),
    Nat.mod_eq_of_lt (by omega : lo.toNat < 2 ^ 32)]
  rw [Nat.mod_eq_of_lt (by rw [Nat.shiftLeft_eq]; omega), hor, Nat.shiftLeft_eq]
  omega

/-- The capacity is that of the sectors unless the number of sectors is negative as an
`int`. -/
lemma capacity_eq_iff (identity : ℕ → BitVec 16) :
    (capSectors identity * ideAtaSectorBytes).toNat = 512 * sectorCount identity ↔
      (identity ideCapLbaHi).toNat < 2 ^ 15 := by
  have hhi := (identity ideCapLbaHi).isLt
  have hlo := (identity ideCapLbaLo).isLt
  have hwords := toNat_words (identity ideCapLbaHi) (identity ideCapLbaLo)
  have hbytes : ideAtaSectorBytes.toNat = 512 := by decide
  rw [BitVec.toNat_mul, hbytes, capSectors, BitVec.toNat_signExtend, BitVec.msb_eq_decide, hwords,
    BitVec.toNat_setWidth, hwords, sectorCount]
  split
  · next h =>
    simp only [decide_eq_true_eq] at h
    omega
  · next h =>
    simp only [decide_eq_true_eq] at h
    omega

lemma capacity_entryOf {did n : ℕ} (hf : Found detect did) :
    (entryOf detect did n).capacity =
      capSectors (detected detect did).identity * ideAtaSectorBytes := if_pos hf

/-! ### When the table agrees with FatFs -/

/-- The letters and capacities of `disk_io` agree with the volumes of FatFs and the sizes of
the drives if and only if no drive is missing before a detected one and the highest bit of
every number of sectors is clear. -/
theorem diskIo_agrees_iff (detect : ℕ → ℕ → Detection) :
    TableAgrees detect ↔ ∀ did < 4, Found detect did →
      (∀ d < did, Found detect d) ∧
        ((detected detect did).identity ideCapLbaHi).toNat < 2 ^ 15 := by
  constructor
  · intro h did hdid hf
    have hdev := @diskIo_getElem_of_lt detect did hdid
    -- the letter tells the rank, which is the number only if no drive is missing before
    have hrank : Nat.count (Found detect) did = did :=
      rank_inj (letter_entryOf hdid hf) (h.volume did _ hdev hf)
    have hcap := h.capacity did _ hdev hf
    rw [capacity_entryOf hf, capacity_eq_iff] at hcap
    exact ⟨Nat.count_iff_forall.1 hrank, hcap⟩
  · intro h
    constructor
    · intro did dev hdev
      obtain ⟨hdid, rfl⟩ := diskIo_getElem hdev
      by_cases hf : Found detect did
      · exact iff_of_true (ne_noLetter_of_volume (letter_entryOf hdid hf)) hf
      · refine iff_of_false ?_ hf
        rw [entryOf, if_neg hf]
        exact not_not.2 rfl
    · intro did did' dev dev' hdev hdev' hf hf' heq
      obtain ⟨hdid, rfl⟩ := diskIo_getElem hdev
      obtain ⟨hdid', rfl⟩ := diskIo_getElem hdev'
      have hletter := letter_entryOf hdid hf
      rw [heq] at hletter
      exact Nat.count_injective hf hf' (rank_inj hletter (letter_entryOf hdid' hf'))
    · intro did dev hdev hf
      obtain ⟨hdid, rfl⟩ := diskIo_getElem hdev
      have hrank : Nat.count (Found detect) did = did := Nat.count_iff_forall.2 (h did hdid hf).1
      have hletter := letter_entryOf hdid hf
      rwa [hrank] at hletter ⊢
    · intro did dev hdev hf
      obtain ⟨hdid, rfl⟩ := diskIo_getElem hdev
      rw [capacity_entryOf hf, capacity_eq_iff]
      exact (h did hdid hf).2

/-- A drive of 2^31 sectors, alone at the second place. -/
def slaveOnly (bus dev : ℕ) : Detection :=
  if bus = 0 ∧ dev = 1 then ⟨ideAtaDevice, fun i => if i = ideCapLbaHi then 0x8000 else 0⟩
  else ⟨ideNoDevice, fun _ => 0⟩

/-- It gets the letter C, while its volume is D, and a negative capacity. -/
theorem diskIo_slaveOnly :
    ∃ dev, (diskIo slaveOnly)[1]? = some dev ∧ Found slaveOnly 1 ∧ dev.letter = 'C' ∧
      ffVolumeStrs[1]? = some 'D' ∧ dev.capacity.toInt = -2 ^ 40 ∧
      sectorCount (detected slaveOnly 1).identity = 2 ^ 31 ∧ ¬ TableAgrees slaveOnly := by
  have hdev := @diskIo_getElem_of_lt slaveOnly 1 (by decide)
  have hf : Found slaveOnly 1 := by decide
  have hletter : (entryOf slaveOnly 1 (Nat.count (Found slaveOnly) 1)).letter = 'C' := by decide
  refine ⟨_, hdev, hf, hletter, rfl, by decide, by decide, fun h => ?_⟩
  have hvolume := h.volume 1 _ hdev hf
  rw [hletter] at hvolume
  exact absurd hvolume (by decide)

end EvtDrivenOs.Ide
