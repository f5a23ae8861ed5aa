/-
A whole playback, from the command to the end of the file.

The file is played in chunks of 8192 bytes behind two silent buffers, those that
`_sbdma_sgcyclic` fills: the refill after completion `j` writes chunk `j`, and the
engine plays it as completion `j + 2`.  `sb_playcount` counts the completions down
from the number of chunks and two, and reaches zero at the completion of the last
chunk, where nothing is left to read.
-/
import EvtDrivenOs.Lib.Chunks
import EvtDrivenOs.Sound.Refill

namespace EvtDrivenOs.Sound

open EvtDrivenOs.Lib EvtDrivenOs.Fat EvtDrivenOs.Xdma

variable {φ : Type*}

/-! ### The file -/

/-- What is relied on of FatFs: a file is read from where it stands on, as far as it goes.
`rest` tells what is left of a file. -/
structure Reads (F : FatFs φ) (rest : φ → Option ℕ → List UInt8) : Prop where
  bytes : ∀ fs fp n, (F.fRead fs fp n).2.1 = (rest fs fp).take n
  rest : ∀ fs fp n, rest (F.fRead fs fp n).2.2 fp = (rest fs fp).drop n

/-- What is left of the file that the service plays. -/
def unread (rest : φ → Option ℕ → List UInt8) (s : Sb φ) : List UInt8 :=
  match fatSlot s.fd with
  | none => []
  | some i => rest s.files.fs (s.files.openFiles i)

/-- The number of chunks of a file of this size. -/
def chunksOf (size : UInt32) : ℕ := (size.toNat + 8191) / 8192

/-- The refill after completion `j`, for a file that declares `size` bytes and has `data`. -/
def sbChunk (size : UInt32) (data : List UInt8) (j : ℕ) : Frame :=
  padded 8192 sbSSample (chunk 8192 (data.take size.toNat) j)

/-- A buffer of silence. -/
def sbSilence : Frame := List.replicate 8192 sbSSample

/-- What the engine plays as its buffer `m`. -/
def sbFrame (size : UInt32) (data : List UInt8) (m : ℕ) : Frame :=
  if m < 2 then sbSilence else sbChunk size data (m - 2)

/-- After the last chunk there is silence. -/
lemma sbChunk_silence {size : UInt32} {j : ℕ} (data : List UInt8) (h : chunksOf size ≤ j) :
    chunk 8192 (data.take size.toNat) j = [] := by
  refine chunk_eq_nil ?_
  rw [List.length_take]
  simp only [chunksOf] at h
  omega

lemma toNat_chunkCount (size : UInt32) : (chunkCount size).toNat = chunksOf size + 1 := by
  have hlt := size.toNat_lt
  have hdiv : (size / sbBuffChunk).toNat = size.toNat / 8192 := UInt32.toNat_div _ _
  have hmod : (size % sbBuffChunk).toNat = size.toNat % 8192 := UInt32.toNat_mod _ _
  simp only [chunkCount, chunksOf, gt_iff_lt, UInt32.lt_iff_toNat_lt, hmod, UInt32.toNat_zero]
  split <;> simp only [UInt32.toNat_add, hdiv, UInt32.toNat_one] <;> omega

/-! ### A refill -/

section Refill

variable {F : FatFs φ} {rest : φ → Option ℕ → List UInt8} {s : Sb φ}

/-- The service asks for what is left, but at most for a chunk. -/
lemma toNat_sbReadsize (s : Sb φ) : (sbReadsize s).toNat = min 8192 s.sbPlaysize.toNat := by
  have hchunk : sbBuffChunk.toNat = 8192 := rfl
  simp only [sbReadsize, gt_iff_lt, UInt32.lt_iff_toNat_lt, hchunk]
  split
  · omega
  · omega

lemma fatFread_eq (hF : Reads F rest) (s : Sb φ) (n : ℕ) :
    ∃ files, fatFread F s.files s.fd n = ((unread rest s).take n, files) ∧
      files.openFiles = s.files.openFiles ∧
      unread rest { s with files := files } = (unread rest s).drop n := by
  refine ⟨(fatFread F s.files s.fd n).2, ?_⟩
  cases hslot : fatSlot s.fd with
  | none => simp [fatFread, unread, hslot]
  | some i =>
    simp only [fatFread, unread, hslot]
    exact ⟨by rw [hF.bytes], rfl, hF.rest _ _ _⟩

/-- The end of a refill that goes on: the buffer holds what was read, and then silence. -/
lemma sbWritten_of_refill {m : ℕ → UInt8} {b : ℕ} {bytes : List UInt8}
    (hram : s.drv.ram = store m b bytes) (hlen : bytes.length ≤ 8192)
    (hgo : bytes.length = 0 → s.sbPlaycount ≠ 0) :
    ∃ m', sbWritten F s b bytes.length = { s with drv := { s.drv with ram := m' } } ∧
      load m' b 8192 = padded 8192 sbSSample bytes ∧
      ∀ a, a + 8192 ≤ b ∨ b + 8192 ≤ a → load m' a 8192 = load m a 8192 := by
  have hchunk : sbBuffChunk.toNat = 8192 := rfl
  simp only [sbWritten, hchunk, padded]
  split
  · next hzero =>
    have hnil := List.eq_nil_of_length_eq_zero hzero
    rw [if_neg (hgo hzero), memset, hram, hnil]
    refine ⟨_, rfl, ?_, fun a ha => ?_⟩
    · exact load_store_replicate _ le_rfl le_rfl
    · rw [store_nil, load_store_of_disjoint (by rw [List.length_replicate]; exact ha)]
  · split
    · next hshort =>
      rw [memset, hram]
      refine ⟨_, rfl, ?_, fun a ha => ?_⟩
      · have := load_store_store m b bytes (List.replicate (8192 - bytes.length) sbSSample)
        rwa [List.length_replicate, Nat.add_sub_cancel' hlen] at this
      · rw [load_store_of_disjoint (by rw [List.length_replicate]; omega),
          load_store_of_disjoint (by omega)]
    · next hfull =>
      have hlen' : bytes.length = 8192 := by omega
      refine ⟨s.drv.ram, rfl, ?_, fun a ha => ?_⟩
      · rw [hlen', Nat.sub_self, List.replicate_zero, List.append_nil, hram, ← hlen', load_store]
      · rw [hram, load_store_of_disjoint (by omega)]

/-- A refill that goes on. -/
lemma sbWrite_of_refill {b : ℕ} {d : State} {bytes : List UInt8} {files : Files φ}
    (hbuf : sbdmaSgcmplt s.drv sbBuffChunk = (some b, d))
    (hread : fatFread F s.files s.fd (sbReadsize s).toNat = (bytes, files))
    (hlen : bytes.length ≤ 8192) (hgo : bytes.length = 0 → s.sbPlaycount ≠ 0) :
    ∃ m, sbWrite F s = { s with
        sbReg := .sbWait
        files := files
        drv := { d with ram := m }
        sbPlaysize := s.sbPlaysize - UInt32.ofNat bytes.length } ∧
      load m b 8192 = padded 8192 sbSSample bytes ∧
      ∀ a, a + 8192 ≤ b ∨ b + 8192 ≤ a → load m a 8192 = load d.ram a 8192 := by
  rw [sbWrite_eq hbuf hread]
  exact sbWritten_of_refill rfl hlen hgo

/-- The refill that finds nothing to read and nothing left to play closes the file. -/
lemma sbWrite_of_end {b : ℕ} {d : State} {files : Files φ}
    (hbuf : sbdmaSgcmplt s.drv sbBuffChunk = (some b, d))
    (hread : fatFread F s.files s.fd (sbReadsize s).toNat = ([], files))
    (hend : s.sbPlaycount = 0) :
    (sbWrite F s).sbReg = .sbIdle ∧ (sbWrite F s).sbPlaycount = 0 ∧
      (sbWrite F s).files = fatFclose F files s.fd := by
  rw [sbWrite_eq hbuf hread, sbWritten, if_pos List.length_nil, if_pos hend]
  exact ⟨rfl, rfl, rfl⟩

end Refill

/-! ### The invariant -/

section Invariant

/-- The engine completes a buffer when all before it were served, and the handler runs on
a completion; ticks come at any time. -/
def playOk (t : SbSys φ) : SbEvent → Prop
  | .complete => t.sb.drv.dma1Mm2s.active = true ∧ t.served.length = t.played.length
  | .irq => t.sb.drv.dma1Mm2s.sr.iocIrq = true
  | .tick _ => True

instance (t : SbSys φ) (e : SbEvent) : Decidable (playOk t e) :=
  match e with
  | .complete => inferInstanceAs (Decidable (_ ∧ _))
  | .irq => inferInstanceAs (Decidable (_ = true))
  | .tick _ => isTrue trivial

variable (rest : φ → Option ℕ → List UInt8) (size : UInt32) (data : List UInt8) (s : Sb φ)

/-- The playback of a file goes on; `s` is the service as the command left it. -/
structure PlayInv (t : SbSys φ) : Prop where
  playing : Playing t
  few : t.played.length ≤ t.served.length + 1
  served_lt : t.served.length < chunksOf size + 2
  playcount : t.sb.sbPlaycount.toNat + t.served.length = chunksOf size + 2
  playsize : t.sb.sbPlaysize.toNat + consumed 8192 (data.take size.toNat) t.served.length =
    size.toNat
  left : unread rest t.sb = data.drop (consumed 8192 (data.take size.toNat) t.served.length)
  fd : t.sb.fd = s.fd
  openFiles : t.sb.files.openFiles = s.files.openFiles
  /-- The two buffers hold what is played next. -/
  ram : ∀ m, t.served.length ≤ m → m < t.served.length + 2 →
    load t.sb.drv.ram (sbBuffer (m % 2)) 8192 = sbFrame size data m
  played : t.played = (List.range t.played.length).map (sbFrame size data)
  fills : t.fills = (List.range t.served.length).map fun j =>
    (sbBuffer (j % 2), sbChunk size data j)

/-- The playback of a file has ended. -/
structure PlayEnded (t : SbSys φ) : Prop where
  stopped : Stopped t
  served : t.served.length = chunksOf size + 2
  playcount : t.sb.sbPlaycount = 0
  file : ∃ k, fatSlot s.fd = some k ∧
    t.sb.files.openFiles = Function.update s.files.openFiles k none
  played : t.played = (List.range (chunksOf size + 2)).map (sbFrame size data)
  fills : t.fills = (List.range (chunksOf size + 1)).map fun j =>
    (sbBuffer (j % 2), sbChunk size data j)

end Invariant

namespace PlayInv

variable {F : FatFs φ} {rest : φ → Option ℕ → List UInt8} {size : UInt32} {data : List UInt8}
  {s : Sb φ} {t : SbSys φ}

/-- The engine plays the buffer that was refilled two completions ago. -/
lemma complete (h : PlayInv rest size data s t) (hall : t.served.length = t.played.length) :
    PlayInv rest size data s t.complete where
  playing := h.playing.complete
  few := by simp [SbSys.complete, hall]
  served_lt := h.served_lt
  playcount := h.playcount
  playsize := h.playsize
  left := h.left
  fd := h.fd
  openFiles := h.openFiles
  ram := h.ram
  played := by
    have hplayed := h.played
    have hframe := h.ram t.played.length (by omega) (by omega)
    simp only [SbSys.complete, List.length_append, List.length_singleton, List.range_succ,
      List.map_append, List.map_singleton, ← hplayed, h.playing.ring.bdFrame_eq, hframe]
  fills := h.fills

lemma irq (h : PlayInv rest size data s t) (hioc : t.sb.drv.dma1Mm2s.sr.iocIrq = true) :
    PlayInv rest size data s t.irq where
  playing := h.playing.irq hioc
  few := h.few
  served_lt := h.served_lt
  playcount := h.playcount
  playsize := h.playsize
  left := h.left
  fd := h.fd
  openFiles := h.openFiles
  ram := h.ram
  played := h.played
  fills := h.fills

/-- A serving tick is handed the buffer of the only completion that waits. -/
lemma sgcmplt_eq (h : PlayInv rest size data s t) {pending : Bool} (hs : Serves t.sb pending) :
    t.played.length = t.served.length + 1 ∧ t.InOrder ∧
      sbdmaSgcmplt t.sb.drv sbBuffChunk = (some (sbBuffer (t.served.length % 2)),
        SbRing.handOut t.sb.drv (t.served.length % 2)) := by
  have hann := h.playing.announced
  have hfew := h.few
  rw [hs.2.2.1, Bool.toNat_true] at hann
  unfold SbSys.unserved at hann
  have hone : t.played.length = t.served.length + 1 := by omega
  refine ⟨hone, Or.inl (by unfold SbSys.unserved; omega), ?_⟩
  have hsome := h.playing.ring.sbdmaSgcmplt_some (by omega)
  rwa [if_pos hone] at hsome

/-- The read of a refill: the chunk whose turn it is. -/
lemma fatFread_chunk (hF : Reads F rest) (h : PlayInv rest size data s t) :
    ∃ files, fatFread F (sbSeen t.sb).files (sbSeen t.sb).fd (sbReadsize (sbSeen t.sb)).toNat =
        (chunk 8192 (data.take size.toNat) t.served.length, files) ∧
      files.openFiles = s.files.openFiles ∧
      unread rest { t.sb with files := files } =
        data.drop (consumed 8192 (data.take size.toNat) (t.served.length + 1)) := by
  have hsize : (sbReadsize (sbSeen t.sb)).toNat =
      min 8192 (size.toNat - consumed 8192 (data.take size.toNat) t.served.length) := by
    have hplaysize : (sbSeen t.sb).sbPlaysize = t.sb.sbPlaysize := rfl
    have := h.playsize
    rw [toNat_sbReadsize, hplaysize]
    omega
  obtain ⟨files, hread, hopen, hleft⟩ := fatFread_eq hF t.sb (sbReadsize (sbSeen t.sb)).toNat
  refine ⟨files, ?_, hopen.trans h.openFiles, ?_⟩
  · rw [← take_drop_consumed 8192 data t.served.length size.toNat, ← hsize, ← h.left]
    exact hread
  · rw [hleft, h.left, hsize, drop_drop_consumed]

/-- The counter after `SB_WAIT` has counted a completion. -/
lemma playcount_sbSeen (h : PlayInv rest size data s t) :
    (sbSeen t.sb).sbPlaycount.toNat + (t.served.length + 1) = chunksOf size + 2 := by
  have hcount := h.playcount
  have hlt := h.served_lt
  have hsub : (t.sb.sbPlaycount - 1).toNat = t.sb.sbPlaycount.toNat - 1 :=
    UInt32.toNat_sub_of_le _ _ (UInt32.le_iff_toNat_le.2 (by rw [UInt32.toNat_one]; omega))
  simp only [sbSeen, hsub]
  omega

/-- The size that is left after a refill. -/
lemma playsize_sub (h : PlayInv rest size data s t) :
    (t.sb.sbPlaysize -
        UInt32.ofNat (chunk 8192 (data.take size.toNat) t.served.length).length).toNat +
      consumed 8192 (data.take size.toNat) (t.served.length + 1) = size.toNat := by
  have hsize := h.playsize
  have hlen := length_chunk 8192 (data.take size.toNat) t.served.length
  have hconsumed := consumed_succ 8192 (data.take size.toNat) t.served.length
  have hle : consumed 8192 (data.take size.toNat) (t.served.length + 1) ≤ size.toNat :=
    (min_le_right _ _).trans (List.length_take_le _ _)
  have hlt : t.sb.sbPlaysize.toNat < UInt32.size := t.sb.sbPlaysize.toNat_lt
  generalize (chunk 8192 (data.take size.toNat) t.served.length).length = n at *
  have hn : (UInt32.ofNat n).toNat = n := UInt32.toNat_ofNat_of_lt' (by omega)
  rw [UInt32.toNat_sub_of_le _ _ (UInt32.le_iff_toNat_le.2 (by omega)), hn]
  omega

/-- A tick that serves one of the first completions refills its buffer. -/
lemma tick_goes (hF : Reads F rest) (h : PlayInv rest size data s t) {pending : Bool}
    (hs : Serves t.sb pending) (hlt : t.served.length + 1 < chunksOf size + 2) :
    ∃ t', t.tick F pending = .ok t' ∧ PlayInv rest size data s t' := by
  obtain ⟨hone, hinorder, hbuf⟩ := h.sgcmplt_eq hs
  obtain ⟨files, hread, hopen, hleft⟩ := h.fatFread_chunk hF
  have hcount := h.playcount_sbSeen
  obtain ⟨m, hwrite, hload, hother⟩ := sbWrite_of_refill (F := F) (s := sbSeen t.sb) hbuf hread
    (length_chunk_le _ _ _) (fun _ hzero => by
      rw [hzero, UInt32.toNat_zero] at hcount
      omega)
  obtain ⟨t', htick, hinv⟩ := h.playing.tick_serves (F := F) hs hinorder
  refine ⟨t', htick, ?_⟩
  rw [SbSys.tick_of_serves hs hbuf, hwrite, if_pos rfl] at htick
  obtain rfl := Except.ok.inj htick
  have hplaying := hinv.resolve_right fun hstopped => absurd hstopped.reg (by simp)
  have hsucc : ∀ x, (t.served ++ [x]).length = t.served.length + 1 := fun x => by simp
  refine
    { playing := hplaying
      few := ?_
      served_lt := ?_
      playcount := ?_
      playsize := ?_
      left := ?_
      fd := h.fd
      openFiles := hopen
      ram := fun n hle hn => ?_
      played := h.played
      fills := ?_ }
  · rw [hsucc, hone]
    omega
  · rw [hsucc]
    exact hlt
  · rw [hsucc]
    exact hcount
  · rw [hsucc]
    exact h.playsize_sub
  · rw [hsucc]
    exact hleft
  · rw [hsucc] at hle hn
    rcases Nat.lt_or_ge n (t.served.length + 2) with hold | hnew
    · -- the buffer of the next completion is the other one
      have hne : sbBuffer (n % 2) + 8192 ≤ sbBuffer (t.served.length % 2) ∨
          sbBuffer (t.served.length % 2) + 8192 ≤ sbBuffer (n % 2) :=
        chunk_disjoint _ (by omega)
      exact (hother _ hne).trans (h.ram n (by omega) hold)
    · -- the refilled buffer is played two completions later
      obtain rfl : n = t.served.length + 2 := by omega
      rw [Nat.add_mod_right, sbFrame, if_neg (by omega), Nat.add_sub_cancel]
      exact hload
  · rw [hsucc, List.range_succ, List.map_append, ← h.fills, List.map_singleton]
    simp only [hload]
    rfl

/-- The tick that serves the last completion closes the file. -/
lemma tick_ends (hF : Reads F rest) (h : PlayInv rest size data s t)
    (hslot : ∃ k, fatSlot s.fd = some k) {pending : Bool} (hs : Serves t.sb pending)
    (hlast : t.served.length + 1 = chunksOf size + 2) :
    ∃ t', t.tick F pending = .ok t' ∧ PlayEnded size data s t' := by
  obtain ⟨hone, hinorder, hbuf⟩ := h.sgcmplt_eq hs
  obtain ⟨files, hread, hopen, -⟩ := h.fatFread_chunk hF
  have hcount := h.playcount_sbSeen
  have hzero : (sbSeen t.sb).sbPlaycount = 0 := by
    rw [← UInt32.toNat_inj, UInt32.toNat_zero]
    omega
  -- all chunks were read before, so this read returns nothing
  rw [sbChunk_silence data (by omega)] at hread
  obtain ⟨hreg, hplaycount, hfiles⟩ := sbWrite_of_end (s := sbSeen t.sb) hbuf hread hzero
  obtain ⟨t', htick, hinv⟩ := h.playing.tick_serves (F := F) hs hinorder
  refine ⟨t', htick, ?_⟩
  rw [SbSys.tick_of_serves hs hbuf, if_neg (by rw [hreg]; decide)] at htick
  obtain rfl := Except.ok.inj htick
  obtain ⟨k, hk⟩ := hslot
  have hfd : (sbSeen t.sb).fd = s.fd := h.fd
  refine
    { stopped := hinv.resolve_left fun hplaying => absurd hplaying.reg (by rw [hreg]; decide)
      served := by rw [List.length_append, List.length_singleton, hlast]
      playcount := hplaycount
      file := ⟨k, hk, ?_⟩
      played := ?_
      fills := ?_ }
  · rw [hfiles, hfd, fatFclose_openFiles F files hk, hopen]
  · have hlen : t.played.length = chunksOf size + 2 := by omega
    rw [← hlen]
    exact h.played
  · have hlen : t.served.length = chunksOf size + 1 := by omega
    rw [← hlen]
    exact h.fills

end PlayInv

/-! ### Runs -/

/-- What holds of the playback of a file with `data` that declares `size` bytes, when the
command has left the service as `s`. -/
structure PlaybackCorrect (size : UInt32) (data : List UInt8) (s : Sb φ) (t : SbSys φ) : Prop
    extends RefillCorrect t where
  /-- There are two completions more than chunks, those of the silence in front. -/
  served_le : t.served.length ≤ chunksOf size + 2
  /-- The first completions are answered by the chunks of the file, each written to the buffer
  that was completed, and one by silence. -/
  fills : t.fills = (List.range (min t.served.length (chunksOf size + 1))).map fun j =>
    (sbBuffer (j % 2), sbChunk size data j)
  /-- The buffer behind the last chunk is filled with silence. -/
  silence : chunksOf size < t.served.length →
    t.fills[chunksOf size]? = some (sbBuffer (chunksOf size % 2), sbSilence)
  /-- The counter counts down, and does not wrap. -/
  playcount : t.sb.sbPlaycount.toNat + t.served.length = chunksOf size + 2
  /-- Before the last completion is served the file is open and the engine runs. -/
  goes_on : t.served.length < chunksOf size + 2 →
    t.sb.sbReg = .sbWait ∧ t.sb.drv.dma1Mm2s.active = true ∧ t.sb.fd = s.fd ∧
      t.sb.files.openFiles = s.files.openFiles
  /-- Then the file is closed, the engine stopped, and the whole file was played. -/
  ends : t.served.length = chunksOf size + 2 →
    t.sb.sbReg = .sbIdle ∧ t.sb.drv.dma1Mm2s.active = false ∧ t.sb.fd = -1 ∧
      (∃ k, fatSlot s.fd = some k ∧
        t.sb.files.openFiles = Function.update s.files.openFiles k none) ∧
      t.played = sbSilence :: sbSilence :: (List.range (chunksOf size)).map (sbChunk size data)
  /-- Behind the two silent buffers this is the data up to the declared size, with silence
  up to a whole number of chunks. -/
  heard : t.served.length = chunksOf size + 2 →
    (t.played.drop 2).flatten = data.take size.toNat ++
      List.replicate (8192 * chunksOf size - (data.take size.toNat).length) sbSSample

/-- The buffers that are played, all together. -/
lemma map_sbFrame (size : UInt32) (data : List UInt8) (n : ℕ) :
    (List.range (n + 2)).map (sbFrame size data) =
      sbSilence :: sbSilence :: (List.range n).map (sbChunk size data) := by
  simp [List.range_succ_eq_map, sbFrame, Function.comp_def]

/-- The chunks of the file put together. -/
lemma flatten_sbChunk (size : UInt32) (data : List UInt8) :
    ((List.range (chunksOf size)).map (sbChunk size data)).flatten = data.take size.toNat ++
      List.replicate (8192 * chunksOf size - (data.take size.toNat).length) sbSSample := by
  have hlen : (data.take size.toNat).length ≤ 8192 * chunksOf size := by
    rw [List.length_take, chunksOf]
    omega
  have hflat := flatten_padded 8192 sbSSample (data.take size.toNat) (chunksOf size)
  rw [List.take_of_length_le hlen] at hflat
  exact hflat

lemma fills_silence {size : UInt32} {data : List UInt8} {n : ℕ} (h : chunksOf size < n) :
    ((List.range n).map fun j => (sbBuffer (j % 2), sbChunk size data j))[chunksOf size]? =
      some (sbBuffer (chunksOf size % 2), sbSilence) := by
  rw [List.getElem?_map, List.getElem?_range h, Option.map_some, sbChunk,
    sbChunk_silence data le_rfl, padded_nil, sbSilence]

section Runs

variable {F : FatFs φ} {rest : φ → Option ℕ → List UInt8} {size : UInt32} {data : List UInt8}
  {s : Sb φ} {t : SbSys φ}

lemma PlayInv.correct (h : PlayInv rest size data s t) : PlaybackCorrect size data s t where
  toRefillCorrect := RefillInv.correct (Or.inl h.playing)
  served_le := h.served_lt.le
  fills := by
    have hlt := h.served_lt
    rw [min_eq_left (by omega)]
    exact h.fills
  silence hlt := by
    rw [h.fills]
    exact fills_silence hlt
  playcount := h.playcount
  goes_on _ := ⟨h.playing.reg, h.playing.ring.active, h.fd, h.openFiles⟩
  ends hend := absurd hend h.served_lt.ne
  heard hend := absurd hend h.served_lt.ne

lemma PlayEnded.correct (h : PlayEnded size data s t) : PlaybackCorrect size data s t where
  toRefillCorrect := RefillInv.correct (Or.inr h.stopped)
  served_le := h.served.le
  fills := by
    rw [h.served, min_eq_right (by omega)]
    exact h.fills
  silence _ := by
    rw [h.fills]
    exact fills_silence (Nat.lt_succ_self _)
  playcount := by rw [h.playcount, h.served, UInt32.toNat_zero, Nat.zero_add]
  goes_on hlt := absurd h.served hlt.ne
  ends _ := ⟨h.stopped.reg, h.stopped.active, h.stopped.fd, h.file, by rw [h.played, map_sbFrame]⟩
  heard _ := by
    rw [h.played, map_sbFrame]
    exact flatten_sbChunk size data

lemma PlayInv.step (hF : Reads F rest) (hslot : ∃ k, fatSlot s.fd = some k)
    (h : PlayInv rest size data s t ∨ PlayEnded size data s t) {e : SbEvent} (he : playOk t e) :
    ∃ t', sbStep F t e = .ok t' ∧ (PlayInv rest size data s t' ∨ PlayEnded size data s t') := by
  rcases h with h | h
  · cases e with
    | complete => exact ⟨_, rfl, Or.inl (h.complete he.2)⟩
    | irq => exact ⟨_, rfl, Or.inl (h.irq he)⟩
    | tick pending =>
      by_cases hs : Serves t.sb pending
      · rcases Nat.lt_or_ge (t.served.length + 1) (chunksOf size + 2) with hlt | hge
        · obtain ⟨t', htick, hinv⟩ := h.tick_goes hF hs hlt
          exact ⟨t', htick, Or.inl hinv⟩
        · have hlt := h.served_lt
          obtain ⟨t', htick, hend⟩ := h.tick_ends hF hslot hs (by omega)
          exact ⟨t', htick, Or.inr hend⟩
      · exact ⟨t, SbSys.tick_of_not_serves hs
          (sbService_of_not_serves h.playing.reg h.playing.ring.buserr hs), Or.inl h⟩
  · cases e with
    | complete => exact absurd he.1 (by rw [h.stopped.active]; decide)
    | irq => exact absurd he (by rw [playOk, h.stopped.ioc]; decide)
    | tick pending =>
      have hs : ¬ Serves t.sb pending :=
        fun hs => absurd (h.stopped.reg.symm.trans hs.1) (by decide)
      exact ⟨t, SbSys.tick_of_not_serves hs
        (sbService_of_idle h.stopped.reg (by rw [h.stopped.fd]; decide)), Or.inr h⟩

/-- The tick after an accepted command has started the engine. -/
lemma PlayInv.start {s' : Sb φ} {pending : Bool} (hidle : s.sbReg = .sbIdle)
    (hcount : s.sbPlaycount = chunkCount size) (hsize : s.sbPlaysize = size)
    (hstart : sbService F s pending = .ok s') (hgoes : s'.sbReg = .sbWait) :
    PlayInv rest size (unread rest s) s { sb := s' } := by
  have hplaying : Playing { sb := s' } := Playing.start hidle hstart hgoes
  obtain ⟨-, buf, d, hcyclic, rfl⟩ := sbService_start hidle hstart hgoes
  obtain ⟨-, -, -, hram⟩ := sbdmaSgcyclic_ok hcyclic
  have hlt : chunksOf size + 2 < 2 ^ 32 := by
    have := size.toNat_lt
    unfold chunksOf
    omega
  refine
    { playing := hplaying
      few := Nat.zero_le _
      served_lt := Nat.succ_pos _
      playcount := ?_
      playsize := ?_
      left := ?_
      fd := rfl
      openFiles := rfl
      ram := fun m _ hm => ?_
      played := rfl
      fills := rfl }
  · show (s.sbPlaycount + 1).toNat + 0 = _
    rw [hcount, UInt32.toNat_add, toNat_chunkCount, UInt32.toNat_one]
    omega
  · show s.sbPlaysize.toNat + consumed _ _ 0 = _
    rw [consumed_zero, hsize, Nat.add_zero]
  · show unread rest s = List.drop (consumed _ _ 0) _
    rw [consumed_zero, List.drop_zero]
  · have hm' : m < 2 := by simpa using hm
    show load d.ram _ _ = _
    rw [hram, sbFrame, if_pos hm', sbSilence]
    refine load_store_replicate _ ?_ ?_
    · exact Nat.le_add_right _ _
    · simp only [sbBuffer]
      omega

/-- **A playback over its whole run.**  After an accepted command and the tick that starts
the engine, in every run in which each completion is served before the next one, the file
is played as far as its header declares and it goes, and closed after its last chunk. -/
theorem playback_correct (hF : Reads F rest) {s₀ s₁ s₂ : Sb φ} {cmd path : String}
    {args : List String} {stack : List UInt8} {pending : Bool} {evs : List SbEvent}
    (hidle : s₀.sbReg = .sbIdle) (hplay : sbM F s₀ (cmd :: path :: args) stack = .ok (0, s₁))
    (hstart : sbService F s₁ pending = .ok s₂) (hgoes : s₂.sbReg = .sbWait)
    (hevs : AdmissibleE (sbStep F) playOk { sb := s₂ } evs) :
    ∃ t, runE (sbStep F) { sb := s₂ } evs = .ok t ∧
      PlaybackCorrect (dataSize (playHeader F s₀ path stack)) (unread rest s₁) s₁ t := by
  obtain ⟨hreg, hslot, hcount, hsize⟩ := sbM_accepted hplay
  have hinit : PlayInv rest _ _ s₁ { sb := s₂ } :=
    PlayInv.start (hreg.trans hidle) hcount hsize hstart hgoes
  obtain ⟨t, hrun, ht⟩ := hevs.invariant (fun _ _ h he => PlayInv.step hF hslot h he)
    (Or.inl hinit)
  exact ⟨t, hrun, ht.elim PlayInv.correct PlayEnded.correct⟩

end Runs

lemma reads_oneFile : Reads oneFile fun fs _ => fs := ⟨fun _ _ _ => rfl, fun _ _ _ => rfl⟩

theorem playback_correct_boot :
    ∃ t, runE (sbStep oneFile) { sb := sbBoot }
        [.complete, .irq, .tick true, .complete, .tick true, .irq, .tick true, .complete, .irq,
          .tick true] = .ok t ∧
      PlaybackCorrect (dataSize (playHeader oneFile sbFresh "a.wav" []))
        (unread (fun fs _ => fs) sbOpened) sbOpened t :=
  playback_correct reads_oneFile rfl sbOpened_eq sbBoot_eq rfl (by decide)

end EvtDrivenOs.Sound
