/-
The ring of descriptors in memory, byte by byte.

`xsgdma_ring` writes the descriptors with stores of the processor, which end up in the caches, and
then writes the caches back, so that the engine finds the ring in the memory.  The control word of
a descriptor is written in three steps, each of which reads it first.
-/
import EvtDrivenOs.Lib.Ring
import EvtDrivenOs.Xcache.Words
import EvtDrivenOs.Xdma.Basic

namespace EvtDrivenOs.Xdma

open EvtDrivenOs.Lib EvtDrivenOs.Xcache

/-! ### The code -/

/-- The bit fields of the control word of a descriptor. -/
def setBufferLen (len w : BitVec 32) : BitVec 32 := (w &&& 0xFC000000) ||| (len &&& 0x03FFFFFF)

/-- The flag for the end of a frame. -/
def setTxEof (w : BitVec 32) : BitVec 32 := w ||| 0x04000000

/-- The flag for the start of a frame. -/
def setTxSof (w : BitVec 32) : BitVec 32 := w ||| 0x08000000

/-- The body of the loop of `xsgdma_ring`. -/
def ringBody (chunk : BitVec 32) (saAddr bdDesc : Addr) (c : DCache) : DCache :=
  let c := modifyWord c (bdDesc + 0x18) setTxSof
  let c := modifyWord c (bdDesc + 0x18) setTxEof
  let c := modifyWord c (bdDesc + 0x18) (setBufferLen chunk)
  let c := storeWord c bdDesc (bdDesc + 64)
  storeWord c (bdDesc + 8) saAddr

/-- The loop over the remaining `n` descriptors. -/
def ringLoop (chunk : BitVec 32) : ℕ → Addr → Addr → DCache → Addr × DCache
  | 0, _, bdDesc, c => (bdDesc, c)
  | n + 1, saAddr, bdDesc, c =>
    ringLoop chunk n (saAddr + chunk) (bdDesc + 64) (ringBody chunk saAddr bdDesc c)

/-- `xsgdma_ring` on the caches; `none` if the write-back does not end. -/
def xsgdmaRingInMemory (head ioHead : Addr) (len chunk : BitVec 32) (c : DCache) :
    Option (BitVec 32 × DCache) :=
  let bdCount := len / chunk
  let bdMemsize := bdCount * 64
  let c := memset c head 0 bdMemsize.toNat
  let (bdDesc, c) := ringLoop chunk bdCount.toNat ioHead head c
  let c := storeWord c (bdDesc - 64) head
  (xdcacheFlush head bdMemsize c).map fun c => (bdCount, c)

/-- The descriptor at an address of some memory. -/
def descAt (m : Addr → Byte) (d : Addr) : XsgdmaDesc :=
  let control := word m (d + 0x18)
  let status := word m (d + 0x1C)
  { next := (word m d).toNat
    buffer := (word m (d + 8)).toNat
    control :=
      { bufferLen := control.extractLsb' 0 26
        txEof := control.getLsbD 26
        txSof := control.getLsbD 27 }
    status :=
      { transLen := status.extractLsb' 0 26
        dmaIntErr := status.getLsbD 28
        dmaIntSlvErr := status.getLsbD 29
        dmaDecErr := status.getLsbD 30
        cmplt := status.getLsbD 31 } }

/-! ### The rounds of the loop -/

/-- A buffer is a frame. -/
def ringControl (chunk : BitVec 32) : BitVec 32 := setBufferLen chunk (setTxEof (setTxSof 0))

/-- What a round makes of a memory whose control word was 0. -/
def ringRound (chunk : BitVec 32) (saAddr bdDesc : Addr) (m : Paging.Mem) : Paging.Mem :=
  Paging.store32 (Paging.store32 (Paging.store32 m (bdDesc.toNat + 0x18) (ringControl chunk))
    bdDesc.toNat (bdDesc + 64)) (bdDesc.toNat + 8) saAddr

/-- The rounds of the loop, each for the next buffer and the next descriptor. -/
def ringRounds (chunk : BitVec 32) : ℕ → Addr → Addr → Paging.Mem → Paging.Mem
  | 0, _, _, m => m
  | n + 1, saAddr, bdDesc, m =>
    ringRounds chunk n (saAddr + chunk) (bdDesc + 64) (ringRound chunk saAddr bdDesc m)

lemma ringRound_of_notMem {chunk : BitVec 32} {saAddr bdDesc : Addr} {m : Paging.Mem} {x : ℕ}
    (h : x < bdDesc.toNat ∨ bdDesc.toNat + 64 ≤ x) : ringRound chunk saAddr bdDesc m x = m x := by
  rw [ringRound, Paging.store32_of_notMem (by omega), Paging.store32_of_notMem (by omega),
    Paging.store32_of_notMem (by omega)]

lemma ringRounds_of_notMem {chunk : BitVec 32} {n : ℕ} {saAddr bdDesc : Addr} {m : Paging.Mem}
    {x : ℕ} (hend : bdDesc.toNat + 64 * n < 2 ^ 32)
    (h : x < bdDesc.toNat ∨ bdDesc.toNat + 64 * n ≤ x) :
    ringRounds chunk n saAddr bdDesc m x = m x := by
  induction n generalizing saAddr bdDesc m with
  | zero => rfl
  | succ n ih =>
    have hnext : (bdDesc + 64).toNat = bdDesc.toNat + 64 := toNat_add_of_le (j := 64) (by omega)
    rw [ringRounds, ih (by omega) (by omega), ringRound_of_notMem (by omega)]

/-- Descriptor `i` of the array at `head`. -/
def bdAt (head : Addr) (i : ℕ) : Addr := head + BitVec.ofNat 32 (64 * i)

@[simp] lemma bdAt_zero (head : Addr) : bdAt head 0 = head := BitVec.add_zero head

lemma bdAt_succ (head : Addr) (i : ℕ) : bdAt (head + 64) i = bdAt head (i + 1) := by
  rw [bdAt, bdAt, Nat.mul_succ, Nat.add_comm, BitVec.ofNat_add, BitVec.add_assoc]
  rfl

/-- A descriptor is written in its own round. -/
lemma ringRounds_desc {chunk : BitVec 32} {n i : ℕ} {saAddr bdDesc : Addr} {m : Paging.Mem} {x : ℕ}
    (hi : i < n) (hend : bdDesc.toNat + 64 * n < 2 ^ 32)
    (hx : bdDesc.toNat + 64 * i ≤ x ∧ x < bdDesc.toNat + 64 * i + 64) :
    ringRounds chunk n saAddr bdDesc m x =
      ringRound chunk (saAddr + BitVec.ofNat 32 (chunk.toNat * i)) (bdAt bdDesc i) m x := by
  induction n generalizing saAddr bdDesc m i with
  | zero => omega
  | succ n ih =>
    have hnext : (bdDesc + 64).toNat = bdDesc.toNat + 64 := toNat_add_of_le (j := 64) (by omega)
    rw [ringRounds]
    cases i with
    | zero =>
      rw [ringRounds_of_notMem (by omega) (by omega), bdAt_zero, Nat.mul_zero]
      simp
    | succ i =>
      have hsa : saAddr + chunk + BitVec.ofNat 32 (chunk.toNat * i) =
          saAddr + BitVec.ofNat 32 (chunk.toNat * (i + 1)) := by
        rw [Nat.mul_succ, Nat.add_comm, BitVec.ofNat_add, BitVec.ofNat_toNat, BitVec.setWidth_eq,
          BitVec.add_assoc]
      rw [@ih i (saAddr + chunk) (bdDesc + 64) _ (by omega) (by omega) (by omega), hsa, bdAt_succ]
      simp only [ringRound]
      refine Paging.store32_congr (Paging.store32_congr (Paging.store32_congr ?_ _ _) _ _) _ _
      exact ringRound_of_notMem (by omega)

section Loop

variable {f : DCache → Addr → Byte} (hf : Caches.Observer l1Line l2Line f)

include hf

lemma image_ringBody (chunk : BitVec 32) (saAddr : Addr) {bdDesc : Addr} {c : DCache}
    (hend : bdDesc.toNat + 64 < 2 ^ 32)
    (hzero : word (c.view l1Line l2Line) (bdDesc + 0x18) = 0) :
    image (f (ringBody chunk saAddr bdDesc c)) = ringRound chunk saAddr bdDesc (image (f c)) := by
  have hbuffer : (bdDesc + 8).toNat = bdDesc.toNat + 8 := toNat_add_of_le (j := 8) (by omega)
  have hcontrol : (bdDesc + 0x18).toNat = bdDesc.toNat + 0x18 :=
    toNat_add_of_le (j := 0x18) (by omega)
  have hfits : (bdDesc + 0x18).toNat + 4 ≤ 2 ^ 32 := by omega
  -- each of the three steps reads what the one before it wrote
  rw [ringBody, image_storeWord hf _ (by omega), image_storeWord hf _ (by omega),
    image_modifyWord hf _ hfits, image_modifyWord hf _ hfits, image_modifyWord hf _ hfits,
    Paging.store32_store32, Paging.store32_store32, word_modifyWord _ hfits,
    word_modifyWord _ hfits, hzero, hbuffer, hcontrol]
  rfl

/-- The loop on the caches goes through these rounds when the descriptors have been cleared. -/
lemma image_ringLoop (chunk : BitVec 32) {n : ℕ} {saAddr bdDesc : Addr} {c : DCache}
    (hend : bdDesc.toNat + 64 * n < 2 ^ 32)
    (hzero : ∀ x, bdDesc.toNat ≤ x → x < bdDesc.toNat + 64 * n →
      image (c.view l1Line l2Line) x = 0) :
    (ringLoop chunk n saAddr bdDesc c).1 = bdAt bdDesc n ∧
      image (f (ringLoop chunk n saAddr bdDesc c).2) =
        ringRounds chunk n saAddr bdDesc (image (f c)) := by
  induction n generalizing saAddr bdDesc c with
  | zero => exact ⟨(bdAt_zero bdDesc).symm, rfl⟩
  | succ n ih =>
    have hnext : (bdDesc + 64).toNat = bdDesc.toNat + 64 := toNat_add_of_le (j := 64) (by omega)
    have hcontrol : (bdDesc + 0x18).toNat = bdDesc.toNat + 0x18 :=
      toNat_add_of_le (j := 0x18) (by omega)
    have hclear : word (c.view l1Line l2Line) (bdDesc + 0x18) = 0 := by
      apply BitVec.eq_of_toNat_eq
      rw [toNat_word _ (by omega), Paging.load32_of_zero]
      · rfl
      · intro x hx hx'
        exact hzero x (by omega) (by omega)
    have hrest : ∀ x, (bdDesc + 64).toNat ≤ x → x < (bdDesc + 64).toNat + 64 * n →
        image ((ringBody chunk saAddr bdDesc c).view l1Line l2Line) x = 0 := fun x hx hx' => by
      rw [image_ringBody Caches.observer_view chunk saAddr (by omega) hclear,
        ringRound_of_notMem (by omega)]
      exact hzero x (by omega) (by omega)
    obtain ⟨hbd, himage⟩ := @ih (saAddr + chunk) (bdDesc + 64) _ (by omega) hrest
    refine ⟨hbd.trans (bdAt_succ bdDesc n), ?_⟩
    rw [ringLoop, himage, image_ringBody hf chunk saAddr (by omega) hclear, ringRounds]

end Loop

/-- The loop keeps what loads and stores keep. -/
lemma stable_ringLoop {P : DCache → Prop} (hP : Stable P) (chunk : BitVec 32) (n : ℕ)
    (saAddr bdDesc : Addr) {c : DCache} (h : P c) : P (ringLoop chunk n saAddr bdDesc c).2 := by
  induction n generalizing c saAddr bdDesc with
  | zero => exact h
  | succ n ih =>
    refine ih _ _ (hP.storeWord _ _ (hP.storeWord _ _ ?_))
    exact hP.modifyWord _ _ (hP.modifyWord _ _ (hP.modifyWord _ _ h))

/-! ### The descriptors in an image -/

lemma toNat_ringControl (chunk : BitVec 32) :
    (ringControl chunk).toNat = 3 * 2 ^ 26 + chunk.toNat % 2 ^ 26 := by
  have hflags : setTxEof (setTxSof 0) &&& 0xFC000000 = 0x0C000000 := by decide
  have hlen : chunk.toNat &&& 0x03FFFFFF = chunk.toNat % 2 ^ 26 :=
    Nat.and_two_pow_sub_one_eq_mod chunk.toNat 26
  have hsum := Nat.shiftLeft_add_eq_or_of_lt (Nat.mod_lt chunk.toNat (by omega : 0 < 2 ^ 26)) 3
  rw [ringControl, setBufferLen, hflags, BitVec.toNat_or, BitVec.toNat_and]
  show 0x0C000000 ||| (chunk.toNat &&& 0x03FFFFFF) = _
  rw [hlen, ← Nat.shiftLeft_eq, hsum]
  rfl

/-- The fields of the control word. -/
lemma ringControl_fields (chunk : BitVec 32) :
    (ringControl chunk).extractLsb' 0 26 = BitVec.ofNat 26 chunk.toNat ∧
      (ringControl chunk).getLsbD 26 = true ∧ (ringControl chunk).getLsbD 27 = true := by
  have htoNat := toNat_ringControl chunk
  refine ⟨?_, ?_, ?_⟩
  · apply BitVec.eq_of_toNat_eq
    rw [BitVec.extractLsb'_toNat, htoNat, BitVec.toNat_ofNat, Nat.shiftRight_zero]
    omega
  · rw [BitVec.getLsbD, htoNat, Nat.testBit_eq_decide_div_mod_eq]
    exact decide_eq_true (by omega)
  · rw [BitVec.getLsbD, htoNat, Nat.testBit_eq_decide_div_mod_eq]
    exact decide_eq_true (by omega)

lemma toNat_bdAt {head : Addr} {i : ℕ} (h : head.toNat + 64 * i < 2 ^ 32) :
    (bdAt head i).toNat = head.toNat + 64 * i := toNat_add_of_le h

/-- The memory behind the last store of `xsgdma_ring`, which closes the ring. -/
def ringImage (head ioHead : Addr) (chunk : BitVec 32) (n : ℕ) (m : Paging.Mem) : Paging.Mem :=
  Paging.store32 (ringRounds chunk n ioHead head m) (bdAt head (n - 1)).toNat head

section Words

variable {head ioHead : Addr} {chunk : BitVec 32} {n i : ℕ} {m : Paging.Mem}

/-- The words of a descriptor behind its first one are those of its round. -/
lemma load32_ringImage (hend : head.toNat + 64 * n < 2 ^ 32) (hi : i < n) {o : ℕ} (ho : 4 ≤ o)
    (ho' : o + 4 ≤ 64) : Paging.load32 (ringImage head ioHead chunk n m) (head.toNat + 64 * i + o) =
      Paging.load32 (ringRound chunk (ioHead + BitVec.ofNat 32 (chunk.toNat * i)) (bdAt head i) m)
        (head.toNat + 64 * i + o) := by
  have hlast := @toNat_bdAt head (n - 1) (by omega)
  rw [ringImage, Paging.load32_store32_of_disjoint (by omega)]
  exact Paging.load32_congr fun x hx hx' => ringRounds_desc hi hend (by omega)

lemma load32_next (hend : head.toNat + 64 * n < 2 ^ 32) (hi : i < n) :
    Paging.load32 (ringImage head ioHead chunk n m) (head.toNat + 64 * i) =
      bdAddr head.toNat ((i + 1) % n) := by
  have hlast := @toNat_bdAt head (n - 1) (by omega)
  have hbd := @toNat_bdAt head i (by omega)
  rw [ringImage]
  rcases Nat.eq_or_lt_of_le (Nat.succ_le_of_lt hi) with heq | hlt
  · have haddr : head.toNat + 64 * i = (bdAt head (n - 1)).toNat := by
      rw [hlast, ← heq]
      rfl
    rw [haddr, Paging.load32_store32, ← heq, Nat.mod_self, bdAddr_zero]
  · have hnext : (bdAt head i + 64).toNat = head.toNat + 64 * (i + 1) := by
      rw [show bdAt head i + 64 = bdAt head i + BitVec.ofNat 32 64 from rfl,
        toNat_add_of_le (by omega), hbd]
      omega
    rw [Paging.load32_store32_of_disjoint (by omega), Nat.mod_eq_of_lt hlt, bdAddr, ← hnext]
    rw [Paging.load32_congr (m := ringRound chunk (ioHead + BitVec.ofNat 32 (chunk.toNat * i))
      (bdAt head i) m) fun x hx hx' => ringRounds_desc hi hend (by omega)]
    rw [ringRound, hbd, Paging.load32_store32_of_disjoint (by omega), Paging.load32_store32]

lemma load32_buffer (hend : head.toNat + 64 * n < 2 ^ 32) (hi : i < n) :
    Paging.load32 (ringImage head ioHead chunk n m) (head.toNat + 64 * i + 8) =
      (ioHead + BitVec.ofNat 32 (chunk.toNat * i)).toNat := by
  have hbd := @toNat_bdAt head i (by omega)
  rw [load32_ringImage hend hi (by omega) (by omega), ringRound, hbd, Paging.load32_store32]

lemma load32_control (hend : head.toNat + 64 * n < 2 ^ 32) (hi : i < n) :
    Paging.load32 (ringImage head ioHead chunk n m) (head.toNat + 64 * i + 0x18) =
      (ringControl chunk).toNat := by
  have hbd := @toNat_bdAt head i (by omega)
  rw [load32_ringImage hend hi (by omega) (by omega), ringRound, hbd,
    Paging.load32_store32_of_disjoint (by omega), Paging.load32_store32_of_disjoint (by omega),
    Paging.load32_store32]

/-- The status of a descriptor is not written after it was cleared. -/
lemma load32_status (hend : head.toNat + 64 * n < 2 ^ 32) (hi : i < n)
    (hzero : ∀ x, head.toNat ≤ x → x < head.toNat + 64 * n → m x = 0) :
    Paging.load32 (ringImage head ioHead chunk n m) (head.toNat + 64 * i + 0x1C) = 0 := by
  have hbd := @toNat_bdAt head i (by omega)
  rw [load32_ringImage hend hi (by omega) (by omega), ringRound, hbd,
    Paging.load32_store32_of_disjoint (by omega), Paging.load32_store32_of_disjoint (by omega),
    Paging.load32_store32_of_disjoint (by omega)]
  exact Paging.load32_of_zero fun x hx hx' => hzero x (by omega) (by omega)

end Words

/-- Descriptor `i` of a ring of `n`. -/
def ringDesc (head ioHead chunk n i : ℕ) : XsgdmaDesc :=
  { next := bdAddr head ((i + 1) % n)
    buffer := ioHead + chunk * i
    control := { txSof := true, txEof := true, bufferLen := BitVec.ofNat 26 chunk }
    status := {} }

/-- A memory that agrees with the image on the descriptors holds the ring. -/
lemma descAt_of_image {head ioHead : Addr} {chunk : BitVec 32} {n i : ℕ} {m : Paging.Mem}
    {mem : Addr → Byte} (hend : head.toNat + 64 * n < 2 ^ 32) (hi : i < n)
    (hio : ioHead.toNat + chunk.toNat * i < 2 ^ 32)
    (hzero : ∀ x, head.toNat ≤ x → x < head.toNat + 64 * n → m x = 0)
    (hmem : ∀ x, head.toNat ≤ x → x < head.toNat + 64 * n →
      image mem x = ringImage head ioHead chunk n m x) :
    descAt mem (bdAt head i) = ringDesc head.toNat ioHead.toNat chunk.toNat n i := by
  have hbd := @toNat_bdAt head i (by omega)
  -- a word of the descriptor is the one in the image
  have hword : ∀ o, o + 4 ≤ 64 → (word mem (bdAt head i + BitVec.ofNat 32 o)).toNat =
      Paging.load32 (ringImage head ioHead chunk n m) (head.toNat + 64 * i + o) := fun o ho => by
    have haddr : (bdAt head i + BitVec.ofNat 32 o).toNat = head.toNat + 64 * i + o := by
      rw [toNat_add_of_le (by omega), hbd]
    rw [toNat_word _ (by omega), haddr]
    exact Paging.load32_congr fun x hx hx' => hmem x (by omega) (by omega)
  have hnext : (word mem (bdAt head i)).toNat = bdAddr head.toNat ((i + 1) % n) := by
    have := hword 0 (by omega)
    rwa [BitVec.add_zero, Nat.add_zero, load32_next hend hi] at this
  have hbuffer : (word mem (bdAt head i + 8)).toNat = ioHead.toNat + chunk.toNat * i := by
    rw [← toNat_add_of_le hio, ← load32_buffer hend hi]
    exact hword 8 (by omega)
  have hcontrol : word mem (bdAt head i + 0x18) = ringControl chunk := by
    apply BitVec.eq_of_toNat_eq
    rw [← load32_control hend hi]
    exact hword 0x18 (by omega)
  have hstatus : word mem (bdAt head i + 0x1C) = 0 := by
    apply BitVec.eq_of_toNat_eq
    exact (hword 0x1C (by omega)).trans (load32_status hend hi hzero)
  obtain ⟨hlen, heof, hsof⟩ := ringControl_fields chunk
  rw [descAt, ringDesc, hnext, hbuffer, hcontrol, hstatus, hlen, heof, hsof]
  rfl

/-! ### The ring -/

/-- The byte at the address `a` belongs to the buffer of the descriptor. -/
def XsgdmaDesc.Owns (d : XsgdmaDesc) (a : ℕ) : Prop :=
  d.buffer ≤ a ∧ a < d.buffer + d.control.bufferLen.toNat

/-- The descriptors at `head` form one cycle by their first words, their `next` pointers; their
buffers are consecutive chunks that partition `len` bytes at `ioHead`. -/
structure RingOver (head ioHead : Addr) (len chunk : ℕ) (m : Addr → Byte) : Prop where
  /-- The links lead through the descriptors in the order of their addresses. -/
  visits : ∀ i < len / chunk, (word m)^[i] head = bdAt head i
  /-- They come back to the first one, and not earlier. -/
  cycle : Function.minimalPeriod (word m) head = len / chunk
  /-- The buffers follow one another. -/
  consecutive : ∀ i < len / chunk, (descAt m (bdAt head i)).buffer = ioHead.toNat + chunk * i
  /-- Each is in the area. -/
  inside : ∀ i < len / chunk, ∀ a, (descAt m (bdAt head i)).Owns a →
    ioHead.toNat ≤ a ∧ a < ioHead.toNat + len
  /-- Together they are the area. -/
  cover : ∀ a, ioHead.toNat ≤ a → a < ioHead.toNat + len →
    ∃ i < len / chunk, (descAt m (bdAt head i)).Owns a
  /-- No two of them share a byte. -/
  disjoint : ∀ i < len / chunk, ∀ j < len / chunk, i ≠ j → ∀ a,
    (descAt m (bdAt head i)).Owns a → ¬ (descAt m (bdAt head j)).Owns a
  /-- Each has the length of a chunk and is a frame of its own. -/
  control : ∀ i < len / chunk, (descAt m (bdAt head i)).control.bufferLen.toNat = chunk ∧
    (descAt m (bdAt head i)).control.txSof = true ∧ (descAt m (bdAt head i)).control.txEof = true

section Ring

variable {head ioHead : Addr} {len chunk : ℕ} {m : Addr → Byte}

lemma ringOver_of_descAt (hchunk : 0 < chunk) (hlen : 0 < len) (hmul : chunk ∣ len)
    (hmax : len ≤ 16384) (hend : head.toNat + 64 * (len / chunk) < 2 ^ 32)
    (hdesc : ∀ i < len / chunk, descAt m (bdAt head i) =
      ringDesc head.toNat ioHead.toNat chunk (len / chunk) i) :
    RingOver head ioHead len chunk m := by
  obtain ⟨n, rfl⟩ := hmul
  have hdiv : chunk * n / chunk = n := Nat.mul_div_cancel_left n hchunk
  have hn : 0 < n := Nat.pos_of_mul_pos_left hlen
  have hle : chunk ≤ chunk * n := Nat.le_mul_of_pos_right chunk hn
  rw [hdiv] at hend hdesc
  have hbuffer : ∀ i < n, (descAt m (bdAt head i)).buffer = ioHead.toNat + chunk * i :=
    fun i hi => by rw [hdesc i hi]; rfl
  have hbufferLen : ∀ i < n, (descAt m (bdAt head i)).control.bufferLen.toNat = chunk :=
    fun i hi => by
      rw [hdesc i hi, ringDesc, BitVec.toNat_ofNat, Nat.mod_eq_of_lt (by omega)]
  have howns : ∀ i < n, ∀ a, (descAt m (bdAt head i)).Owns a ↔
      ioHead.toNat + chunk * i ≤ a ∧ a < ioHead.toNat + chunk * i + chunk := fun i hi a => by
    rw [XsgdmaDesc.Owns, hbuffer i hi, hbufferLen i hi]
  have hnext : ∀ i < n, word m (bdAt head i) = bdAt head ((i + 1) % n) := fun i hi => by
    have hmod := Nat.mod_lt (i + 1) hn
    apply BitVec.eq_of_toNat_eq
    rw [toNat_bdAt (by omega)]
    exact congrArg XsgdmaDesc.next (hdesc i hi)
  have hfirst : ∀ i < n, bdAt head i = bdAt head 0 → i = 0 := fun i hi heq => by
    have htoNat := congrArg BitVec.toNat heq
    rw [toNat_bdAt (by omega), toNat_bdAt (by omega)] at htoNat
    omega
  have hvisits : ∀ i < n, (word m)^[i] (bdAt head 0) = bdAt head i := fun i hi =>
    iterate_ring hnext hi
  have hcycle := minimalPeriod_ring hn hnext hfirst
  rw [bdAt_zero] at hvisits hcycle
  refine ⟨hdiv.symm ▸ hvisits, hcycle.trans hdiv.symm, hdiv.symm ▸ hbuffer, ?_, ?_, ?_, ?_⟩
  · rw [hdiv]
    intro i hi a ha
    have hfits := @chunk_le chunk i n ioHead.toNat hi
    obtain ⟨hfst, hlst⟩ := (howns i hi a).1 ha
    omega
  · rw [hdiv]
    intro a ha ha'
    obtain ⟨i, hi, hin⟩ := exists_chunk ha ha'
    exact ⟨i, hi, (howns i hi a).2 hin⟩
  · rw [hdiv]
    intro i hi j hj hne a hai haj
    have hapart := @chunk_disjoint chunk i j ioHead.toNat hne
    obtain ⟨hfi, hli⟩ := (howns i hi a).1 hai
    obtain ⟨hfj, hlj⟩ := (howns j hj a).1 haj
    omega
  · rw [hdiv]
    intro i hi
    exact ⟨hbufferLen i hi, by rw [hdesc i hi]; rfl, by rw [hdesc i hi]; rfl⟩

end Ring

/-! ### `xsgdma_ring` -/

/-- The caches before they are written back. -/
def ringStored (head ioHead : Addr) (chunk : BitVec 32) (n : ℕ) (c : DCache) : DCache :=
  let r := ringLoop chunk n ioHead head (memset c head 0 (64 * n))
  storeWord r.2 (r.1 - 64) head

/-- What `xsgdma_ring` may do to a byte outside the descriptors: a line of the caches that holds
it may be written back or dropped. -/
structure Kept (c c' : DCache) (a : Addr) : Prop where
  backing : c'.backing l2Line a = c.backing l2Line a
  view : c'.view l1Line l2Line a = c.view l1Line l2Line a ∨
    c'.view l1Line l2Line a = c.backing l2Line a
  mem : c'.mem a = c.mem a ∨ c'.mem a = c.backing l2Line a

/-- The ring is there for the processor and for the engine, and nothing else has changed. -/
def BuildsRing (head ioHead : Addr) (len chunk : BitVec 32) (c : DCache) : Prop :=
  ∃ bdCount c', xsgdmaRingInMemory head ioHead len chunk c = some (bdCount, c') ∧
    bdCount.toNat = len.toNat / chunk.toNat ∧
    RingOver head ioHead len.toNat chunk.toNat (c'.view l1Line l2Line) ∧
    RingOver head ioHead len.toNat chunk.toNat c'.mem ∧
    ∀ a : Addr, a.toNat < head.toNat ∨ head.toNat + 64 * (len.toNat / chunk.toNat) ≤ a.toNat →
      Kept c c' a

section Stored

variable {head : Addr} (ioHead : Addr) (chunk : BitVec 32) {n : ℕ} (c : DCache)

lemma image_ringStored {f : DCache → Addr → Byte} (hf : Caches.Observer l1Line l2Line f)
    (hn : 0 < n) (hend : head.toNat + 64 * n < 2 ^ 32) :
    image (f (ringStored head ioHead chunk n c)) =
      ringImage head ioHead chunk n (image (f (memset c head 0 (64 * n)))) := by
  have hzero : ∀ x, head.toNat ≤ x → x < head.toNat + 64 * n →
      image ((memset c head 0 (64 * n)).view l1Line l2Line) x = 0 := fun x hx hx' => by
    rw [image_memset Caches.observer_view c 0 (by omega), if_pos ⟨hx, hx'⟩]
  have hlast : bdAt head n - 64 = bdAt head (n - 1) := by
    apply BitVec.eq_of_toNat_eq
    rw [BitVec.toNat_sub, toNat_bdAt (by omega), toNat_bdAt (by omega)]
    show (2 ^ 32 - 64 + (head.toNat + 64 * n)) % 2 ^ 32 = _
    omega
  have hfits : (bdAt head (n - 1)).toNat + 4 ≤ 2 ^ 32 := by
    rw [toNat_bdAt (by omega)]
    omega
  obtain ⟨hbd, himage⟩ := @image_ringLoop f hf chunk n ioHead head _ hend hzero
  simp only [ringStored]
  rw [hbd, hlast, image_storeWord hf _ hfits, himage, ringImage]

/-- Outside the descriptors the stores leave everything. -/
lemma ringStored_outside {f : DCache → Addr → Byte} (hf : Caches.Observer l1Line l2Line f)
    (hn : 0 < n) (hend : head.toNat + 64 * n < 2 ^ 32) {a : Addr}
    (ha : a.toNat < head.toNat ∨ head.toNat + 64 * n ≤ a.toNat) :
    f (ringStored head ioHead chunk n c) a = f c a := by
  have hlast := @toNat_bdAt head (n - 1) (by omega)
  rw [← image_toNat (f (ringStored head ioHead chunk n c)), ← image_toNat (f c),
    image_ringStored ioHead chunk c hf hn hend, ringImage, Paging.store32_of_notMem (by omega),
    ringRounds_of_notMem hend ha, image_memset hf c 0 (by omega), if_neg (by omega)]

/-- What observes the stores finds the descriptors. -/
lemma descAt_ringStored {f : DCache → Addr → Byte} (hf : Caches.Observer l1Line l2Line f)
    (hend : head.toNat + 64 * n < 2 ^ 32) (hio : ioHead.toNat + chunk.toNat * n ≤ 2 ^ 32)
    (hchunk : 0 < chunk.toNat) {m : Addr → Byte}
    (hm : ∀ a : Addr, head.toNat ≤ a.toNat → a.toNat < head.toNat + 64 * n →
      m a = f (ringStored head ioHead chunk n c) a) {i : ℕ} (hi : i < n) :
    descAt m (bdAt head i) = ringDesc head.toNat ioHead.toNat chunk.toNat n i := by
  have hfits := @chunk_le chunk.toNat i n ioHead.toNat hi
  refine descAt_of_image (m := image (f (memset c head 0 (64 * n)))) hend hi (by omega) ?_ ?_
  · intro x hx hx'
    rw [image_memset hf c 0 (by omega), if_pos ⟨hx, hx'⟩]
  · intro x hx hx'
    have hx32 : (BitVec.ofNat 32 x).toNat = x := Nat.mod_eq_of_lt (by omega)
    rw [← image_ringStored ioHead chunk c hf (by omega) hend, image, image,
      hm _ (by rwa [hx32]) (by rwa [hx32])]

lemma mem_ringStored : (ringStored head ioHead chunk n c).mem = c.mem :=
  (Stable.mem c.mem).storeWord _ _ (stable_ringLoop (Stable.mem c.mem) _ _ _ _
    ((Stable.mem c.mem).memset _ _ _ rfl))

/-- The descriptors are pending. -/
lemma pending_ringStored (hend : head.toNat + 64 * n < 2 ^ 32) {a : Addr}
    (ha : head.toNat ≤ a.toNat) (ha' : a.toNat < head.toNat + 64 * n) :
    (ringStored head ioHead chunk n c).Pending (l2Line a) :=
  (Stable.pending _).storeWord _ _ (stable_ringLoop (Stable.pending _) _ _ _ _
    (pending_memset (by omega) ha ha'))

end Stored

/-- The size of the descriptors in bytes. -/
lemma toNat_bdMemsize {len chunk : BitVec 32} (hmax : len.toNat ≤ 16384) :
    (len / chunk * 64).toNat = 64 * (len.toNat / chunk.toNat) := by
  have hle := Nat.div_le_self len.toNat chunk.toNat
  rw [BitVec.toNat_mul, BitVec.toNat_udiv]
  show len.toNat / chunk.toNat * 64 % 2 ^ 32 = _
  omega

lemma xsgdmaRingInMemory_eq {head ioHead : Addr} {len chunk : BitVec 32} {n : ℕ}
    (hn : len.toNat / chunk.toNat = n) (hsize : (len / chunk * 64).toNat = 64 * n) (c : DCache) :
    xsgdmaRingInMemory head ioHead len chunk c =
      (xdcacheFlush head (len / chunk * 64) (ringStored head ioHead chunk n c)).map
        fun c => (len / chunk, c) := by
  have hcount : (len / chunk).toNat = n := by rw [BitVec.toNat_udiv, hn]
  simp only [xsgdmaRingInMemory, hsize, hcount]
  rfl

/-- Behind the write-back both sides find in the descriptors what was stored. -/
lemma xdcacheFlush_ringStored {head size : Addr} (ioHead : Addr) (chunk : BitVec 32) {n : ℕ}
    (hn : 0 < n) (hsize : size.toNat = 64 * n) (hend : head.toNat + 64 * n ≤ 0xFFFFFFF0)
    (c : DCache) :
    ∃ c', xdcacheFlush head size (ringStored head ioHead chunk n c) = some c' ∧
      (∀ a : Addr, head.toNat ≤ a.toNat → a.toNat < head.toNat + 64 * n →
        c'.view l1Line l2Line a = (ringStored head ioHead chunk n c).backing l2Line a ∧
          c'.mem a = (ringStored head ioHead chunk n c).backing l2Line a) ∧
      ∀ a : Addr, a.toNat < head.toNat ∨ head.toNat + 64 * n ≤ a.toNat → Kept c c' a := by
  have hne : size ≠ 0 := ne_zero_of_toNat (by omega)
  obtain ⟨c', hflush, hback, hwritten⟩ := xdcacheFlush_spec hne
    (by omega : head.toNat + size.toNat ≤ 2 ^ 32 - 16) (ringStored head ioHead chunk n c)
  obtain ⟨hsame, hview, hmem⟩ := xdcacheFlush_rest hne (by omega) hflush
  refine ⟨c', hflush, fun a ha ha' => ⟨?_, ?_⟩, fun a ha => ?_⟩
  · rw [hsame a (toNat_div_mem_linesOf hne ha (by omega)), hback]
  · exact hwritten a (toNat_div_mem_linesOf hne ha (by omega))
      (pending_ringStored ioHead chunk c (by omega) ha ha')
  · have hbacking := ringStored_outside ioHead chunk c Caches.observer_backing hn (by omega) ha
    have hseen := ringStored_outside ioHead chunk c Caches.observer_view hn (by omega) ha
    refine ⟨?_, ?_, ?_⟩
    · rw [hback, hbacking]
    · rw [← hseen, ← hbacking]
      exact hview a
    · rw [← hbacking, ← mem_ringStored ioHead chunk c]
      exact hmem a

section Builds

variable {head ioHead : Addr} {len chunk : BitVec 32}

/-- **The ring of `xsgdma_ring`.**  The addresses do not wrap if the buffers end with the address
space or before it and the descriptors sixteen bytes before it: the write-back looks at the line
behind the last one. -/
theorem xsgdmaRing_buildsRing (hchunk : 0 < chunk.toNat) (hlen : 0 < len.toNat)
    (hmul : chunk.toNat ∣ len.toNat) (hmax : len.toNat ≤ 16384)
    (hio : ioHead.toNat + len.toNat ≤ 2 ^ 32)
    (hend : head.toNat + 64 * (len.toNat / chunk.toNat) ≤ 0xFFFFFFF0) (c : DCache) :
    BuildsRing head ioHead len chunk c := by
  have hsize := @toNat_bdMemsize len chunk hmax
  have hn : 0 < len.toNat / chunk.toNat := Nat.div_pos (Nat.le_of_dvd hlen hmul) hchunk
  have hprod : chunk.toNat * (len.toNat / chunk.toNat) = len.toNat := Nat.mul_div_cancel' hmul
  obtain ⟨c', hflush, hinside, hkept⟩ := xdcacheFlush_ringStored ioHead chunk hn hsize hend c
  -- what agrees with the stores on the descriptors holds the ring
  have hring : ∀ m : Addr → Byte, (∀ a : Addr, head.toNat ≤ a.toNat →
      a.toNat < head.toNat + 64 * (len.toNat / chunk.toNat) →
        m a = (ringStored head ioHead chunk (len.toNat / chunk.toNat) c).backing l2Line a) →
      RingOver head ioHead len.toNat chunk.toNat m := fun m hm =>
    ringOver_of_descAt hchunk hlen hmul hmax (by omega) fun i hi =>
      descAt_ringStored ioHead chunk c Caches.observer_backing (by omega) (by omega) hchunk hm hi
  refine ⟨len / chunk, c', ?_, BitVec.toNat_udiv, ?_, ?_, hkept⟩
  · rw [xsgdmaRingInMemory_eq rfl hsize, hflush, Option.map_some]
  · exact hring _ fun a ha ha' => (hinside a ha ha').1
  · exact hring _ fun a ha ha' => (hinside a ha ha').2

/-- The ring of the sound driver: two halves of its buffer. -/
theorem xsgdmaRing_buildsRing_sound :
    BuildsRing 0x80010000 0x80004000 16384 8192
      ⟨fun _ => false, fun _ => 0, fun _ => false, fun _ => false, fun _ => 0, fun _ => 0xFF⟩ :=
  xsgdmaRing_buildsRing (by decide) (by decide) (by decide) (by decide) (by decide) (by decide) _

/-- Nearer to the end of the address space the write-back goes round for ever. -/
theorem isSome_xsgdmaRingInMemory (hchunk : 0 < chunk.toNat) (hlen : 0 < len.toNat)
    (hmul : chunk.toNat ∣ len.toNat) (hmax : len.toNat ≤ 16384)
    (hend : head.toNat + 64 * (len.toNat / chunk.toNat) ≤ 2 ^ 32) (c : DCache) :
    (xsgdmaRingInMemory head ioHead len chunk c).isSome ↔
      head.toNat + 64 * (len.toNat / chunk.toNat) ≤ 0xFFFFFFF0 := by
  have hsize := @toNat_bdMemsize len chunk hmax
  have hn : 0 < len.toNat / chunk.toNat := Nat.div_pos (Nat.le_of_dvd hlen hmul) hchunk
  have hne : len / chunk * 64 ≠ 0 := ne_zero_of_toNat (by omega)
  have hlast := toNat_last hne (by omega : head.toNat + (len / chunk * 64).toNat ≤ 2 ^ 32)
  rw [xsgdmaRingInMemory_eq rfl hsize, Option.isSome_map, isSome_xdcacheFlush hne, Ends, l1Line,
    hlast, hsize]
  omega

/-- The engine finds the descriptors that `xsgdmaRing` has in its memory of descriptors. -/
theorem xsgdmaRingInMemory_refines (hchunk : 0 < chunk.toNat) (hlen : 0 < len.toNat)
    (hmul : chunk.toNat ∣ len.toNat) (hmax : len.toNat ≤ 16384)
    (hio : ioHead.toNat + len.toNat ≤ 2 ^ 32)
    (hend : head.toNat + 64 * (len.toNat / chunk.toNat) ≤ 0xFFFFFFF0) {c c' : DCache}
    {bdCount : BitVec 32} (h : xsgdmaRingInMemory head ioHead len chunk c = some (bdCount, c'))
    (bd : ℕ → XsgdmaDesc) :
    bdCount.toNat = (xsgdmaRing head.toNat ioHead.toNat len.toNat chunk.toNat bd).1 ∧
      ∀ i < len.toNat / chunk.toNat, descAt c'.mem (bdAt head i) =
        (xsgdmaRing head.toNat ioHead.toNat len.toNat chunk.toNat bd).2 (bdAddr head.toNat i) := by
  have hsize := @toNat_bdMemsize len chunk hmax
  have hn : 0 < len.toNat / chunk.toNat := Nat.div_pos (Nat.le_of_dvd hlen hmul) hchunk
  have hprod : chunk.toNat * (len.toNat / chunk.toNat) = len.toNat := Nat.mul_div_cancel' hmul
  obtain ⟨c'', hflush, hinside, -⟩ := xdcacheFlush_ringStored ioHead chunk hn hsize hend c
  rw [xsgdmaRingInMemory_eq rfl hsize, hflush, Option.map_some] at h
  obtain ⟨rfl, rfl⟩ := Prod.mk.inj (Option.some.inj h)
  refine ⟨BitVec.toNat_udiv, fun i hi => ?_⟩
  rw [xsgdmaRing_bd hi hio hchunk]
  exact descAt_ringStored ioHead chunk c Caches.observer_backing (by omega) (by omega) hchunk
    (fun a ha ha' => (hinside a ha ha').2) hi

end Builds

end EvtDrivenOs.Xdma
