/-
The SD card as a store of sectors, over whole runs.

The card and the channels of the DMA are now devices that do what they are told: the card has
sectors, a channel moves bytes between them and the memory.  FatFs reads and writes sectors,
and between its requests the processor loads and stores, and the caches drop lines and write
them back as they like.  If every write comes from a buffer whose lines hold what the memory
holds, nobody can tell the whole from a memory without caches and a plain list of sectors.
-/
import EvtDrivenOs.Lib.History
import EvtDrivenOs.Sdcard.Request

namespace EvtDrivenOs.Sdcard

open EvtDrivenOs.Lib EvtDrivenOs.Xcache
open EvtDrivenOs.Diskio (DResult DiskT diskRequest)

/-! ### The devices -/

/-- The bytes of a memory from an address on. -/
def bytesAt (m : Addr → Byte) (a : Addr) (n : ℕ) : List Byte :=
  (List.range n).map fun i => m (a + BitVec.ofNat 32 i)

/-- A transfer: the registers of the channel, and then those of the card. -/
structure Transfer where
  ch : Channel
  buffer : Addr
  transLen : BitVec 26
  addr : BitVec 32
  cr : BitVec 32

namespace Transfer

/-- The first byte on the card. -/
def start (t : Transfer) : ℕ := 512 * t.addr.toNat

/-- The number of bytes that the card moves. -/
def size (t : Transfer) : ℕ := 512 * (sCountOf t.cr).toNat

/-- The operation that the card is told to carry out. -/
def opCode (t : Transfer) : BitVec 3 := t.cr.extractLsb' 0 3

end Transfer

/-- The transfer that a request has programmed. -/
def transferOf : List SdIo → Option Transfer
  | .dma ch buffer transLen :: .card addr cr :: _ => some ⟨ch, buffer, transLen, addr, cr⟩
  | _ :: io => transferOf io
  | [] => none

/-- The card, which contains `disk` before the transfer and `disk'` after it, and the channel do
what they are told.  If the card reports an error, nothing is known about the bytes of the
transfer. -/
structure Performs (h : SdAnswers) (mem : Addr → Byte) (t : Transfer) (disk disk' : ℕ → Byte) :
    Prop where
  /-- A read leaves the card as it is, a write leaves the other sectors. -/
  outside : ∀ b, t.opCode ≠ ioWrite ∨ b < t.start ∨ t.start + t.size ≤ b → disk' b = disk b
  /-- The channel of a read writes to its buffer, that of a write to nothing. -/
  arrives : ∀ a, h.arrived a ≠ none →
    t.ch = .s2mm ∧ t.buffer.toNat ≤ a.toNat ∧ a.toNat < t.buffer.toNat + t.transLen.toNat
  wrote : h.ioe = false → t.opCode = ioWrite → t.ch = .mm2s → t.transLen.toNat = t.size →
    disk' = store disk t.start (bytesAt mem t.buffer t.size)
  read : h.ioe = false → t.opCode = ioRead → t.ch = .s2mm → t.transLen.toNat = t.size →
    ∀ i < t.size, h.arrived (t.buffer + BitVec.ofNat 32 i) = some (disk (t.start + i))

/-- What becomes of the card in a request that has done `io`, with `mem` in the memory. -/
def Served (h : SdAnswers) (mem : Addr → Byte) (io : List SdIo) (disk disk' : ℕ → Byte) : Prop :=
  match transferOf io with
  | none => disk' = disk
  | some t => Performs h mem t disk disk'

/-! ### The system -/

/-- The processor with its caches and its memory, and the bytes of the card. -/
structure World where
  sd : Sd
  disk : ℕ → Byte

/-- What the processor sees. -/
def World.seen (w : World) : Addr → Byte := w.sd.cache.view l1Line l2Line

/-- What happens in a run. -/
inductive Event where
  | load (a : Addr)
  | store (a : Addr) (v : Byte)
  /-- A line of the first level is dropped. -/
  | drop (k : ℕ)
  /-- A line of the second level is written back and dropped. -/
  | evict (k : ℕ)
  | read (buff : Addr) (sector : BitVec 64) (count : BitVec 32) (res : DResult)
  | write (buff : Addr) (sector : BitVec 64) (count : BitVec 32) (res : DResult)

/-- The first byte of a sector. -/
def startOf (sector : BitVec 64) : ℕ := 512 * sector.toNat

/-- The number of bytes in so many sectors. -/
def sizeOf (count : BitVec 32) : ℕ := 512 * count.toNat

/-- One step, with what FatFs hears of the card in it. -/
inductive Step (dsk : DiskT 32) : World → Event → List (Access Byte) → World → Prop
  | load (w : World) (a : Addr) : Step dsk w (.load a) []
      { w with sd.cache := w.sd.cache.load l1Line l2Line a }
  | store (w : World) (a : Addr) (v : Byte) : Step dsk w (.store a v) []
      { w with sd.cache := w.sd.cache.store l2Line a v }
  | drop (w : World) (k : ℕ) : Step dsk w (.drop k) [] { w with sd.cache := w.sd.cache.clear₁ k }
  | evict (w : World) (k : ℕ) : Step dsk w (.evict k) []
      { w with sd.cache := (w.sd.cache.flush₂ l2Line k).clear₂ k }
  | read {w w' : World} {fuel : ℕ} {h : SdAnswers} {buff : Addr} {sector : BitVec 64}
      {count : BitVec 32} {res : DResult} {io : List SdIo}
      (hreq : diskRead fuel h dsk 0 buff sector count w.sd = some (res, w'.sd))
      (hio : w'.sd.io = w.sd.io ++ io) (hcard : Served h w'.sd.cache.mem io w.disk w'.disk) :
      Step dsk w (.read buff sector count res)
        (if res = .ok then [.read (startOf sector) (bytesAt w'.seen buff (sizeOf count))] else [])
        w'
  | write {w w' : World} {fuel : ℕ} {h : SdAnswers} {buff : Addr} {sector : BitVec 64}
      {count : BitVec 32} {res : DResult} {io : List SdIo}
      (hreq : diskWrite fuel h dsk 0 buff sector count w.sd = some (res, w'.sd))
      (hio : w'.sd.io = w.sd.io ++ io) (hcard : Served h w'.sd.cache.mem io w.disk w'.disk) :
      Step dsk w (.write buff sector count res)
        [if res = .ok then .wrote (startOf sector) (bytesAt w.seen buff (sizeOf count))
          else .lost (startOf sector) (sizeOf count)]
        w'

/-- The lines of a range hold what the memory holds. -/
def Clean (c : DCache) (mem len : Addr) : Prop :=
  ∀ a, l2Line a ∈ linesOf 64 mem len → c.view l1Line l2Line a = c.mem a

/-- What may happen: the I/O buffer is the driver's, a request fits the registers, its buffer
lies apart from the I/O buffer, and that of a write is clean. -/
def Allowed (w : World) : Event → Prop
  | .store a _ => ¬ InIoBuffer a
  | .read buff sector count _ => Fits sector count ∧ Source buff (byteLen count)
  | .write buff sector count _ =>
    Fits sector count ∧ Source buff (byteLen count) ∧ Clean w.sd.cache buff (byteLen count)
  | _ => True

/-- A run, with what FatFs hears of the card. -/
inductive Runs (dsk : DiskT 32) : World → List Event → List (Access Byte) → World → Prop
  | nil (w : World) : Runs dsk w [] [] w
  | cons {w w' w'' : World} {e : Event} {es : List Event} {hist hist' : List (Access Byte)} :
      Allowed w e → Step dsk w e hist w' → Runs dsk w' es hist' w'' →
        Runs dsk w (e :: es) (hist ++ hist') w''

/-! ### The plain system -/

/-- A memory without caches, and a list of sectors. -/
structure Plain where
  ram : Addr → Byte
  disk : ℕ → Byte

namespace Plain

/-- The memory with the bytes of the disk from `start` on at `buff`. -/
def fetched (p : Plain) (buff : Addr) (start n : ℕ) : Addr → Byte := fun a =>
  if buff.toNat ≤ a.toNat ∧ a.toNat < buff.toNat + n then p.disk (start + (a.toNat - buff.toNat))
  else p.ram a

/-- What an event does to the memory and the sectors, with no cache and no dma. -/
inductive Step : Plain → Event → Plain → Prop
  | load (p : Plain) (a : Addr) : Step p (.load a) p
  | store (p : Plain) (a : Addr) (v : Byte) :
      Step p (.store a v) { p with ram := Function.update p.ram a v }
  | drop (p : Plain) (k : ℕ) : Step p (.drop k) p
  | evict (p : Plain) (k : ℕ) : Step p (.evict k) p
  | read (p : Plain) (buff : Addr) (sector : BitVec 64) (count : BitVec 32) :
      Step p (.read buff sector count .ok)
        { p with ram := p.fetched buff (startOf sector) (sizeOf count) }
  | readFailed (p : Plain) (buff : Addr) (sector : BitVec 64) (count : BitVec 32) {res : DResult}
      (hres : res ≠ .ok) : Step p (.read buff sector count res) p
  | write (p : Plain) (buff : Addr) (sector : BitVec 64) (count : BitVec 32) :
      Step p (.write buff sector count .ok)
        { p with disk := Lib.store p.disk (startOf sector) (bytesAt p.ram buff (sizeOf count)) }
  | writeFailed (p : Plain) (buff : Addr) (sector : BitVec 64) (count : BitVec 32)
      {res : DResult} (hres : res ≠ .ok) {disk : ℕ → Byte}
      (h : ∀ b, b < startOf sector ∨ startOf sector + sizeOf count ≤ b → disk b = p.disk b) :
      Step p (.write buff sector count res) { p with disk := disk }

/-- One event after the other. -/
inductive Runs : Plain → List Event → Plain → Prop
  | nil (p : Plain) : Runs p [] p
  | cons {p p' p'' : Plain} {e : Event} {es : List Event} :
      Step p e p' → Runs p' es p'' → Runs p (e :: es) p''

end Plain

/-- Behind the first level lies what it shows, but for the I/O buffer. -/
def Coherent (c : DCache) : Prop :=
  ∀ a, ¬ InIoBuffer a → c.view l1Line l2Line a = c.backing l2Line a

/-- The plain system shows what the processor sees outside the I/O buffer, and the card. -/
structure Shows (p : Plain) (w : World) : Prop where
  ram : ∀ a, ¬ InIoBuffer a → p.ram a = w.seen a
  disk : p.disk = w.disk

/-! ### What the driver does to what the processor sees -/

lemma linesOf_mono {mem len a : Addr} (hlen : len ≠ 0) (h : l1Line a ∈ linesOf 16 mem len) :
    l2Line a ∈ linesOf 64 mem len := by
  rw [mem_linesOf hlen, l1Line] at h
  rw [mem_linesOf hlen, l2Line]
  omega

lemma inIoBuffer_of_line {len a : Addr} (hlen : len ≠ 0) (hmax : len ≤ xdmaBttMax)
    (ha : l2Line a ∈ linesOf 64 xdma0IoAddr len) : InIoBuffer a := by
  have hio : xdma0IoAddr.toNat = 2 ^ 31 := by decide
  have hsize : xdmaIoBufferSize.toNat = 2 ^ 14 := by decide
  have hle : len.toNat ≤ 2 ^ 14 - 1 := hmax
  rw [mem_linesOf hlen, l2Line] at ha
  rw [InIoBuffer]
  omega

/-- The processor sees what it saw, where the lines that are dropped are clean. -/
lemma view_xdcacheInvalidate {mem len : Addr} (hlen : len ≠ 0)
    (hend : mem.toNat + len.toNat ≤ 2 ^ 32 - 16) {c c' : DCache}
    (h : xdcacheInvalidate mem len c = some c') {a : Addr}
    (ha : l2Line a ∈ linesOf 64 mem len → c.view l1Line l2Line a = c.mem a) :
    c'.view l1Line l2Line a = c.view l1Line l2Line a := by
  obtain ⟨as, has, hmap⟩ := map_l1Line_invalidate hlen hend
  rw [xdcacheInvalidate, has] at h
  obtain rfl := Option.some.inj h
  rw [Caches.view_foldl_clear₁, hmap, map_l2Line_invalidate hlen (by omega)]
  split
  case isTrue hline =>
    have hline₂ := linesOf_mono hlen hline
    rw [(Caches.foldl_clear₂ l2Line c _).2, if_pos (List.mem_reverse.mpr hline₂), ha hline₂]
  case isFalse => exact Caches.view_foldl_clear₂ l1Line _ fun hmem => ha (List.mem_reverse.mp hmem)

lemma view_xdcacheFlush {mem len : Addr} (hlen : len ≠ 0)
    (hend : mem.toNat + len.toNat ≤ 2 ^ 32 - 16) {c c' : DCache}
    (h : xdcacheFlush mem len c = some c') (a : Addr) :
    c'.view l1Line l2Line a =
      if l1Line a ∈ linesOf 16 mem len then c.backing l2Line a else c.view l1Line l2Line a := by
  obtain ⟨as, has, hmap⟩ := map_l1Line_invalidate hlen hend
  rw [xdcacheFlush, has] at h
  obtain rfl := Option.some.inj h
  rw [Caches.view_foldl_clear₁, hmap, Caches.backing_foldl_flush₂, Caches.view_foldl_flush₂]

/-- A copy between disjoint ranges, for whoever looks. -/
lemma observe_memcpy {f : DCache → Addr → Byte} (hf : Caches.Observer l1Line l2Line f)
    {dst src len : Addr} (hdst : dst.toNat + len.toNat ≤ 2 ^ 32)
    (hsrc : src.toNat + len.toNat ≤ 2 ^ 32)
    (hdisj : src.toNat + len.toNat ≤ dst.toNat ∨ dst.toNat + len.toNat ≤ src.toNat) (s : Sd) :
    (∀ i < len.toNat, f (memcpy dst src len s).cache (dst + BitVec.ofNat 32 i) =
      s.cache.view l1Line l2Line (src + BitVec.ofNat 32 i)) ∧
      ∀ a : Addr, a.toNat < dst.toNat ∨ dst.toNat + len.toNat ≤ a.toNat →
        f (memcpy dst src len s).cache a = f s.cache a := by
  refine ⟨fun i hi => ?_, fun a ha => hf.foldl_copy_of_not_mem (not_mem_fst_memcpyPairs hdst ha)⟩
  refine hf.foldl_copy (nodup_fst_memcpyPairs hdst) ?_ (mem_memcpyPairs hi)
  rintro p hp q hq heq
  obtain ⟨i, hi, rfl⟩ := List.mem_map.mp hp
  obtain ⟨j, hj, rfl⟩ := List.mem_map.mp hq
  rw [List.mem_range] at hi hj
  have hnat := congrArg BitVec.toNat heq
  simp only [toNat_add_ofNat hi hdst, toNat_add_ofNat hj hsrc] at hnat
  omega

/-- A write to the card, from a clean buffer, changes nothing that the processor sees. -/
lemma view_sdcdmaWrt {h : SdAnswers} {mem len : Addr} (hacc : Accepted h mem len)
    (hsrc : Source mem len) {s s' : Sd} (hclean : Clean s.cache mem len)
    (hs' : sdcdmaWrt h mem len s = some (xdma0IoAddr, s')) {a : Addr} (ha : ¬ InIoBuffer a) :
    s'.cache.view l1Line l2Line a = s.cache.view l1Line l2Line a := by
  have hio : xdma0IoAddr.toNat = 2 ^ 31 := by decide
  have hmax : len.toNat ≤ 2 ^ 14 - 1 := hacc.len_le
  have hbound := hsrc.bound
  have hapart := hsrc.apart
  have hsize : xdmaIoBufferSize.toNat = 2 ^ 14 := by decide
  have hfree : ¬ (h.dmaHalted = false ∧ h.dmaIdle = false) := by
    rcases hacc.free with hf | hf <;> simp [hf]
  have hlen : ¬ (mem = 0 ∨ len = 0 ∨ xdmaBttMax < len) := by
    rintro (h0 | h0 | h0)
    · exact hacc.mem_ne h0
    · exact hacc.len_ne h0
    · exact BitVec.not_le.mpr h0 hacc.len_le
  rw [sdcdmaWrt, if_neg hfree, if_neg hlen] at hs'
  obtain ⟨c₁, hc₁, hs'⟩ := Option.bind_eq_some_iff.mp hs'
  obtain ⟨c₃, hc₃, hs'⟩ := Option.bind_eq_some_iff.mp hs'
  have hcache : s'.cache = c₃ := by
    obtain ⟨-, rfl⟩ := Prod.mk.inj (Option.some.inj hs')
    rfl
  have hout : a.toNat < xdma0IoAddr.toNat ∨ xdma0IoAddr.toNat + len.toNat ≤ a.toNat := by
    rw [InIoBuffer] at ha
    omega
  have hline : l1Line a ∉ linesOf 16 xdma0IoAddr len := fun h =>
    ha (inIoBuffer_of_line hacc.len_ne hacc.len_le (linesOf_mono hacc.len_ne h))
  rw [hcache, view_xdcacheFlush hacc.len_ne (by omega) hc₃, if_neg hline,
    (observe_memcpy Caches.observer_view (by omega) (by omega) (by omega) _).2 a hout]
  exact view_xdcacheInvalidate hacc.len_ne hbound hc₁ (hclean a)

/-! ### The ends of a request -/

/-- The card and the channel have run for a read. -/
def readStarted (h : SdAnswers) (sector count : BitVec 32) (s : Sd) : Sd where
  cache := { s.cache with mem := fun a => (h.arrived a).getD (s.cache.mem a) }
  io := s.io ++ [.dma .s2mm xdma0IoAddr ((byteLen count).setWidth 26),
    .card sector (ctrlReg ioRead (count.setWidth 16))]

/-- The bytes of a read are taken from the I/O buffer. -/
def Taken (mem len : Addr) (s s' : Sd) : Prop :=
  ∃ c c', xdcacheInvalidate xdma0IoAddr len s.cache = some c ∧
    xdcacheFlush mem len (memcpy mem xdma0IoAddr len { s with cache := c }).cache = some c' ∧
      s' = { memcpy mem xdma0IoAddr len { s with cache := c } with cache := c' }

/-- A read is refused, or it fails on the card, or it succeeds. -/
lemma rsdcardRead_cases {fuel : ℕ} {h : SdAnswers} {mem sector count : BitVec 32} {s s' : Sd}
    {ok : Bool} (hr : rsdcardRead fuel h mem sector count s = some (ok, s')) :
    ok = false ∧ s' = s ∨
      byteLen count ≠ 0 ∧ ¬ xdmaBttMax < byteLen count ∧
        (ok = false ∧ h.ioe = true ∧ s' = readStarted h sector count s ∨
          ok = true ∧ h.ioe = false ∧
            Taken mem (byteLen count) (readStarted h sector count s) s') := by
  by_cases hidle : h.idle = false
  · rw [rsdcardRead, if_pos hidle] at hr
    cases hr
    exact .inl ⟨rfl, rfl⟩
  by_cases hne : (sdcdmaRdt h (byteLen count) s).1 = 0
  · have hs : (sdcdmaRdt h (byteLen count) s).2 = s := by
      rw [sdcdmaRdt] at hne ⊢
      split at hne
      case isTrue hbusy => rw [if_pos hbusy]
      case isFalse hfree =>
        rw [if_neg hfree]
        split at hne
        case isTrue hlen => rw [if_pos hlen]
        case isFalse hlen => exact absurd hne (by decide : xdma0IoAddr ≠ 0)
    simp only [rsdcardRead, if_neg hidle] at hr
    rw [show count * sdcardSectorSize = byteLen count from rfl, if_pos hne, hs] at hr
    cases hr
    exact .inl ⟨rfl, rfl⟩
  obtain ⟨heq, hlen, hmax⟩ := of_sdcdmaRdt hne
  refine .inr ⟨hlen, hmax, ?_⟩
  have hio : xdma0IoAddr ≠ 0 := by decide
  simp only [rsdcardRead, if_neg hidle, show count * sdcardSectorSize = byteLen count from rfl, heq,
    if_neg hio, Option.bind_eq_bind, Option.bind_eq_some_iff] at hr
  obtain ⟨t, ht, hr⟩ := hr
  rw [of_cardRequest ht, List.append_assoc] at hr
  split at hr
  case isTrue hioe =>
    cases hr
    exact .inl ⟨rfl, hioe, rfl⟩
  case isFalse hioe =>
    obtain ⟨c, hc, hr⟩ := Option.bind_eq_some_iff.mp hr
    obtain ⟨c', hc', hr⟩ := Option.bind_eq_some_iff.mp hr
    cases hr
    exact .inr ⟨rfl, Bool.eq_false_of_not_eq_true hioe, c, c', hc, hc', rfl⟩

/-- A write is refused, or its bytes are sent and the card has the last word. -/
lemma rsdcardWrite_cases {fuel : ℕ} {h : SdAnswers} {mem sector count : BitVec 32} {s s' : Sd}
    {ok : Bool} (hsrc : Source mem (byteLen count))
    (hr : rsdcardWrite fuel h mem sector count s = some (ok, s')) :
    ok = false ∧ s' = s ∨
      Accepted h mem (byteLen count) ∧ ok = !h.ioe ∧
        ∃ t, sdcdmaWrt h mem (byteLen count) s = some (xdma0IoAddr, t) ∧
          s' = { t with io := t.io ++ [.card sector (ctrlReg ioWrite (count.setWidth 16))] } := by
  by_cases hidle : h.idle = false
  · rw [rsdcardWrite, if_pos hidle] at hr
    cases hr
    exact .inl ⟨rfl, rfl⟩
  simp only [rsdcardWrite, if_neg hidle, show count * sdcardSectorSize = byteLen count from rfl,
    Option.bind_eq_bind, Option.bind_eq_some_iff] at hr
  obtain ⟨⟨ioBuffer, t⟩, ht, hr⟩ := hr
  by_cases hacc : Accepted h mem (byteLen count)
  · obtain ⟨t', ht', -⟩ := sdcdmaWrt_spec hacc hsrc s
    obtain ⟨rfl, rfl⟩ := Prod.mk.inj (Option.some.inj (ht.symm.trans ht'))
    rw [if_neg (by decide : ¬ xdma0IoAddr = 0)] at hr
    obtain ⟨u, hu, hr⟩ := Option.bind_eq_some_iff.mp hr
    rw [of_cardRequest hu] at hr
    obtain ⟨rfl, rfl⟩ := Prod.mk.inj (Option.some.inj hr)
    exact .inr ⟨hacc, rfl, t, ht', rfl⟩
  · -- the driver refuses before it does anything
    have href : sdcdmaWrt h mem (byteLen count) s = some (0, s) := by
      rw [sdcdmaWrt]
      split
      · rfl
      case isFalse hfree =>
        rw [if_pos]
        by_contra hno
        simp only [not_or] at hno
        refine hacc ⟨?_, hno.1, hno.2.1, BitVec.not_lt.mp hno.2.2⟩
        rw [not_and_or, Bool.not_eq_false, Bool.not_eq_false] at hfree
        exact hfree
    rw [href] at ht
    obtain ⟨rfl, rfl⟩ := Prod.mk.inj (Option.some.inj ht)
    rw [if_pos rfl] at hr
    cases hr
    exact .inl ⟨rfl, rfl⟩

/-- Only the I/O buffer gets what arrives, and the processor sees it in the buffer of the
request. -/
lemma taken_spec {mem len : Addr} {s t : Sd} (hlen : len ≠ 0) (hmax : len ≤ xdmaBttMax)
    (hsrc : Source mem len) (hcoh : Coherent s.cache) (ht : Taken mem len s t) :
    Coherent t.cache ∧
      (∀ i < len.toNat, t.cache.view l1Line l2Line (mem + BitVec.ofNat 32 i) =
        s.cache.mem (xdma0IoAddr + BitVec.ofNat 32 i)) ∧
      ∀ a, ¬ InIoBuffer a → a.toNat < mem.toNat ∨ mem.toNat + len.toNat ≤ a.toNat →
        t.cache.view l1Line l2Line a = s.cache.view l1Line l2Line a := by
  have hio : xdma0IoAddr.toNat = 2 ^ 31 := by decide
  have hsize : xdmaIoBufferSize.toNat = 2 ^ 14 := by decide
  have hle : len.toNat ≤ 2 ^ 14 - 1 := hmax
  have hbound := hsrc.bound
  have hapart := hsrc.apart
  obtain ⟨c, c', hc, hc', rfl⟩ := ht
  -- the lines of the I/O buffer are dropped: outside nothing changes
  obtain ⟨c₁, hc₁, hmem₁, hback₁, hview₁⟩ := xdcacheInvalidate_spec hlen
    (show xdma0IoAddr.toNat + len.toNat ≤ 2 ^ 32 - 16 by omega) s.cache
  obtain rfl := Option.some.inj (hc.symm.trans hc₁)
  have hview : ∀ a, ¬ InIoBuffer a → c.view l1Line l2Line a = s.cache.view l1Line l2Line a :=
    fun a ha => view_xdcacheInvalidate hlen (by omega) hc fun hline =>
      absurd (inIoBuffer_of_line hlen hmax hline) ha
  have hback : ∀ a, ¬ InIoBuffer a → c.backing l2Line a = s.cache.backing l2Line a := by
    intro a ha
    rw [hback₁, if_neg fun hline => ha (inIoBuffer_of_line hlen hmax hline)]
  have harrived : ∀ i < len.toNat, c.view l1Line l2Line (xdma0IoAddr + BitVec.ofNat 32 i) =
      s.cache.mem (xdma0IoAddr + BitVec.ofNat 32 i) := by
    intro i hi
    rw [hview₁ _ (mem_linesOf_of_lt hi (by omega)), hback₁,
      if_pos (show l2Line _ ∈ _ from mem_linesOf_of_lt hi (by omega))]
  -- the copy, seen through both levels and behind the first
  obtain ⟨hcopyV, hrestV⟩ := @observe_memcpy _ Caches.observer_view mem xdma0IoAddr len
    (by omega) (by omega) (by omega) { s with cache := c }
  obtain ⟨hcopyB, hrestB⟩ := @observe_memcpy _ Caches.observer_backing mem xdma0IoAddr len
    (by omega) (by omega) (by omega) { s with cache := c }
  have hcoh' : Coherent (memcpy mem xdma0IoAddr len { s with cache := c }).cache := by
    intro a ha
    by_cases hin : mem.toNat ≤ a.toNat ∧ a.toNat < mem.toNat + len.toNat
    · have ha' : a = mem + BitVec.ofNat 32 (a.toNat - mem.toNat) := by
        apply BitVec.eq_of_toNat_eq
        rw [@toNat_add_ofNat _ _ len.toNat (by omega) (by omega)]
        omega
      rw [ha', hcopyV _ (by omega), hcopyB _ (by omega)]
    · rw [hrestV a (by omega), hrestB a (by omega)]
      exact (hview a ha).trans ((hcoh a ha).trans (hback a ha).symm)
  -- the flush shows behind the first level what was seen through it
  obtain ⟨c₃, hc₃, hbackF, -⟩ := xdcacheFlush_spec hlen hbound
    (memcpy mem xdma0IoAddr len { s with cache := c }).cache
  obtain rfl := Option.some.inj (hc'.symm.trans hc₃)
  have hviewF : ∀ a, ¬ InIoBuffer a → c'.view l1Line l2Line a =
      (memcpy mem xdma0IoAddr len { s with cache := c }).cache.view l1Line l2Line a := by
    intro a ha
    rw [view_xdcacheFlush hlen hbound hc']
    split
    · exact (hcoh' a ha).symm
    · rfl
  refine ⟨fun a ha => ?_, fun i hi => ?_, fun a ha hout => ?_⟩
  · show c'.view _ _ _ = c'.backing _ _
    rw [hviewF a ha, hbackF]
    exact hcoh' a ha
  · have hnot : ¬ InIoBuffer (mem + BitVec.ofNat 32 i) := by
      rw [InIoBuffer, toNat_add_ofNat hi (by omega)]
      omega
    show c'.view _ _ _ = _
    rw [hviewF _ hnot, hcopyV i hi]
    exact harrived i hi
  · show c'.view _ _ _ = _
    rw [hviewF a ha, hrestV a hout]
    exact hview a ha

/-! ### Clean lines -/

/-- What the caches hold is in order outside the I/O buffer. -/
structure Orderly (c : DCache) : Prop where
  coherent : Coherent c
  settled : ∀ a, ¬ InIoBuffer a → c.Settled l2Line a

section Settled

variable {mem len a : Addr} {c c' : DCache}

lemma settled_xdcacheInvalidate (h : xdcacheInvalidate mem len c = some c')
    (hc : c.Settled l2Line a) : c'.Settled l2Line a := by
  obtain ⟨lines, -, h⟩ := Option.bind_eq_some_iff.mp h
  obtain rfl := Option.some.inj h
  refine List.foldlRecOn (motive := (Caches.Settled l2Line · a)) _ _ ?_
    fun c hc k _ => Caches.settled_clear₁ hc k
  exact List.foldlRecOn (motive := (Caches.Settled l2Line · a)) _ _ hc
    fun c hc k _ => Caches.settled_clear₂ hc k

lemma settled_xdcacheFlush (h : xdcacheFlush mem len c = some c') (hc : c.Settled l2Line a) :
    c'.Settled l2Line a := by
  obtain ⟨lines, -, h⟩ := Option.bind_eq_some_iff.mp h
  obtain rfl := Option.some.inj h
  refine List.foldlRecOn (motive := (Caches.Settled l2Line · a)) _ _ ?_
    fun c hc k _ => Caches.settled_clear₁ hc k
  exact List.foldlRecOn (motive := (Caches.Settled l2Line · a)) _ _ hc
    fun c hc k _ => Caches.settled_flush₂ hc k

lemma settled_memcpy {dst src : Addr} {s : Sd} (hs : s.cache.Settled l2Line a) :
    (memcpy dst src len s).cache.Settled l2Line a :=
  List.foldlRecOn (motive := (Caches.Settled l2Line · a)) _ _ hs
    fun _ hc p _ => Caches.settled_copy hc p

lemma settled_taken {s t : Sd} (ht : Taken mem len s t) (hs : s.cache.Settled l2Line a) :
    t.cache.Settled l2Line a := by
  obtain ⟨c, c', hc, hc', rfl⟩ := ht
  refine settled_xdcacheFlush hc' (settled_memcpy ?_)
  exact settled_xdcacheInvalidate hc hs

lemma settled_sdcdmaWrt {h : SdAnswers} {buffer : Addr} {s s' : Sd}
    (hs' : sdcdmaWrt h mem len s = some (buffer, s')) (hs : s.cache.Settled l2Line a) :
    s'.cache.Settled l2Line a := by
  rw [sdcdmaWrt] at hs'
  split at hs'
  · cases hs'
    exact hs
  split at hs'
  · cases hs'
    exact hs
  obtain ⟨c₁, hc₁, hs'⟩ := Option.bind_eq_some_iff.mp hs'
  obtain ⟨c₃, hc₃, hs'⟩ := Option.bind_eq_some_iff.mp hs'
  have hcache : s'.cache = c₃ := by
    rw [xdirectdmaTrans] at hs'
    split at hs' <;> cases hs' <;> rfl
  rw [hcache]
  exact settled_xdcacheFlush hc₃ (settled_memcpy (settled_xdcacheInvalidate hc₁ hs))

end Settled

/-! ### One request -/

lemma opCode_ctrlReg (opCode : BitVec 3) (sCount : BitVec 16) :
    (ctrlReg opCode sCount).extractLsb' 0 3 = opCode := by
  apply BitVec.eq_of_getLsbD_eq
  intro i hi
  simp only [ctrlReg, BitVec.getLsbD_extractLsb', BitVec.getLsbD_append]
  simp [hi]

/-- A request is answered by the driver alone, or by the card. -/
lemma diskRequest_cases {dsk : DiskT 32}
    {io : BitVec 32 → BitVec 32 → BitVec 32 → Sd → Option (Bool × Sd)} {buff : Addr}
    {sector : BitVec 64} {count : BitVec 32} {res : DResult} {s s' : Sd}
    (h : diskRequest getDisk dsk (ioDisk io) 0 buff sector count s = some (res, s')) :
    res = .ok ∧ io buff (sector.setWidth 32) count s = some (true, s') ∨
      res ≠ .ok ∧ (s' = s ∨ io buff (sector.setWidth 32) count s = some (false, s')) := by
  have hcheck : Diskio.checkDiskReady getDisk dsk 0 = true := rfl
  rw [diskRequest, if_pos hcheck] at h
  obtain ⟨⟨st, t⟩, ht, heq⟩ := Option.map_eq_some_iff.mp h
  obtain ⟨rfl, rfl⟩ := Prod.mk.inj heq
  rw [ioDisk] at ht
  split at ht
  · cases ht
    exact .inr ⟨by rintro ⟨⟩, .inl rfl⟩
  obtain ⟨⟨ok, u⟩, hu, hok⟩ := Option.map_eq_some_iff.mp ht
  obtain ⟨rfl, rfl⟩ := Prod.mk.inj hok
  rw [BitVec.setWidth_eq] at hu
  cases ok with
  | true => exact .inl ⟨rfl, hu⟩
  | false => exact .inr ⟨by rintro ⟨⟩, .inr hu⟩

/-- The transfer of a request that fits is the one that was asked for. -/
structure Asks (t : Transfer) (sector : BitVec 64) (count : BitVec 32) : Prop where
  start : t.start = startOf sector
  size : t.size = sizeOf count
  transLen : t.transLen.toNat = t.size

lemma asks {sector : BitVec 64} {count : BitVec 32} (hfits : Fits sector count)
    (hlen : byteLen count ≠ 0) (hmax : ¬ xdmaBttMax < byteLen count) (ch : Channel)
    (op : BitVec 3) :
    Asks ⟨ch, xdma0IoAddr, (byteLen count).setWidth 26, sector.setWidth 32,
      ctrlReg op (count.setWidth 16)⟩ sector count := by
  obtain ⟨haddr, hcount, htrans, -⟩ := (exact_iff op hlen hmax).mpr hfits
  refine ⟨?_, ?_, ?_⟩
  · rw [Transfer.start, haddr, startOf]
  · rw [Transfer.size, hcount, sizeOf]
  · rw [Transfer.size, hcount, htrans, Nat.mul_comm]

lemma toNat_byteLen {sector : BitVec 64} {count : BitVec 32} (hfits : Fits sector count) :
    (byteLen count).toNat = sizeOf count := by
  obtain ⟨-, -, hcount⟩ := hfits
  have hmul : (byteLen count).toNat = count.toNat * 512 % 2 ^ 32 := BitVec.toNat_mul _ _
  rw [hmul, sizeOf]
  omega

/-- What a step of the system gives: the caches stay in order, the plain system follows, and
the card obeys. -/
structure Follows (w w' : World) (e : Event) (hist : List (Access Byte)) : Prop where
  orderly : Orderly w'.sd.cache
  plain : ∀ p, Shows p w → ∃ p', Plain.Step p e p' ∧ Shows p' w'
  obeys : Access.ObeysAll w.disk hist w'.disk

/-! ### The steps -/

section Steps

variable {w w' : World}

/-- A step that changes neither what is seen nor the card. -/
lemma follows_of_same {e : Event} (horder : Orderly w'.sd.cache)
    (hseen : ∀ a, ¬ InIoBuffer a → w'.seen a = w.seen a) (hdisk : w'.disk = w.disk)
    (hplain : ∀ p, Plain.Step p e p) : Follows w w' e [] := by
  refine ⟨horder, fun p hp => ⟨p, hplain p, fun a ha => ?_, hp.disk.trans hdisk.symm⟩, ?_⟩
  · rw [hseen a ha]
    exact hp.ram a ha
  · rw [hdisk]
    exact .nil _

lemma follows_load (hw : Orderly w.sd.cache) (a : Addr) :
    Follows w { w with sd.cache := w.sd.cache.load l1Line l2Line a } (.load a) [] := by
  refine follows_of_same ⟨fun b hb => ?_, fun b hb => ?_⟩ (fun b _ => ?_) rfl fun p => .load p a
  · rw [Caches.view_load, Caches.backing_load]
    exact hw.coherent b hb
  · exact Caches.settled_load (hw.settled b hb) a
  · exact congrFun (Caches.view_load a) b

lemma follows_store (hw : Orderly w.sd.cache) (a : Addr) (v : Byte) :
    Follows w { w with sd.cache := w.sd.cache.store l2Line a v } (.store a v) [] := by
  refine ⟨⟨fun b hb => ?_, fun b hb => ?_⟩, fun p hp => ?_, .nil _⟩
  · rw [Caches.view_store, Caches.backing_store, hw.coherent b hb]
  · exact Caches.settled_store (hw.settled b hb) a v
  · refine ⟨_, .store p a v, fun b hb => ?_, hp.disk⟩
    show Function.update p.ram a v b = (w.sd.cache.store l2Line a v).view l1Line l2Line b
    rw [Caches.view_store, Function.update_apply]
    split
    case isTrue => rfl
    case isFalse => exact hp.ram b hb

lemma follows_drop (hw : Orderly w.sd.cache) (k : ℕ) :
    Follows w { w with sd.cache := w.sd.cache.clear₁ k } (.drop k) [] := by
  have hview : ∀ b, ¬ InIoBuffer b → (w.sd.cache.clear₁ k).view l1Line l2Line b =
      w.sd.cache.view l1Line l2Line b := by
    intro b hb
    rw [Caches.view_clear₁]
    split
    case isTrue => exact (hw.coherent b hb).symm
    case isFalse => rfl
  refine follows_of_same ⟨fun b hb => ?_, fun b hb => ?_⟩ hview rfl fun p => .drop p k
  · exact (hview b hb).trans (hw.coherent b hb)
  · exact Caches.settled_clear₁ (hw.settled b hb) k

lemma follows_evict (hw : Orderly w.sd.cache) (k : ℕ) :
    Follows w { w with sd.cache := (w.sd.cache.flush₂ l2Line k).clear₂ k } (.evict k) [] := by
  have hview : ∀ b, ¬ InIoBuffer b →
      ((w.sd.cache.flush₂ l2Line k).clear₂ k).view l1Line l2Line b =
        w.sd.cache.view l1Line l2Line b := by
    intro b hb
    -- the first level still has what it had, and behind it nothing changes
    rw [Caches.view, Caches.backing_evict (hw.settled b hb)]
    rfl
  refine follows_of_same ⟨fun b hb => ?_, fun b hb => ?_⟩ hview rfl fun p => .evict p k
  · rw [hview b hb, Caches.backing_evict (hw.settled b hb)]
    exact hw.coherent b hb
  · exact Caches.settled_clear₂ (Caches.settled_flush₂ (hw.settled b hb) k) k

variable {h : SdAnswers} {buff : Addr} {sector : BitVec 64} {count : BitVec 32}

/-- The channel of a read leaves everything but the I/O buffer. -/
lemma orderly_readStarted (hw : Orderly w.sd.cache)
    (harr : ∀ a, h.arrived a ≠ none → InIoBuffer a) (sector : BitVec 32) :
    Orderly (readStarted h sector count w.sd).cache ∧ ∀ a, ¬ InIoBuffer a →
      (readStarted h sector count w.sd).cache.view l1Line l2Line a = w.seen a := by
  have hmem : ∀ a, ¬ InIoBuffer a →
      (readStarted h sector count w.sd).cache.mem a = w.sd.cache.mem a := by
    intro a ha
    have hnone : h.arrived a = none := by
      by_contra hsome
      exact ha (harr a hsome)
    show (h.arrived a).getD _ = _
    rw [hnone, Option.getD_none]
  have hback : ∀ a, ¬ InIoBuffer a →
      (readStarted h sector count w.sd).cache.backing l2Line a =
        w.sd.cache.backing l2Line a := by
    intro a ha
    rw [Caches.backing, Caches.backing, hmem a ha]
    rfl
  have hview : ∀ a, ¬ InIoBuffer a →
      (readStarted h sector count w.sd).cache.view l1Line l2Line a = w.seen a := by
    intro a ha
    rw [Caches.view, hback a ha]
    rfl
  refine ⟨⟨fun a ha => ?_, fun a ha hpend => ?_⟩, hview⟩
  · rw [hview a ha, hback a ha]
    exact hw.coherent a ha
  · rw [hback a ha, hmem a ha]
    exact hw.settled a ha hpend

/-- A failed request is a step of the plain system that does nothing. -/
lemma follows_readFailed {res : DResult} (hres : res ≠ .ok) (horder : Orderly w'.sd.cache)
    (hseen : ∀ a, ¬ InIoBuffer a → w'.seen a = w.seen a) (hdisk : w'.disk = w.disk) :
    Follows w w' (.read buff sector count res) [] :=
  follows_of_same horder hseen hdisk fun p => .readFailed p buff sector count hres

lemma bytesAt_congr {m m' : Addr → Byte} {a : Addr} {n : ℕ}
    (h : ∀ i < n, m (a + BitVec.ofNat 32 i) = m' (a + BitVec.ofNat 32 i)) :
    bytesAt m a n = bytesAt m' a n :=
  List.map_congr_left fun i hi => h i (List.mem_range.mp hi)

/-- Bytes of a buffer that lies apart from the I/O buffer. -/
lemma not_inIoBuffer_of_source {len : Addr} (hsrc : Source buff len) {i : ℕ} (hi : i < len.toNat) :
    ¬ InIoBuffer (buff + BitVec.ofNat 32 i) := by
  have hio : xdma0IoAddr.toNat = 2 ^ 31 := by decide
  have hsize : xdmaIoBufferSize.toNat = 2 ^ 14 := by decide
  have hbound := hsrc.bound
  have hapart := hsrc.apart
  rw [InIoBuffer, toNat_add_ofNat hi (by omega)]
  omega

/-- The transfer of a read, which writes to the I/O buffer and to nothing else. -/
def readTransfer (sector count : BitVec 32) : Transfer :=
  ⟨.s2mm, xdma0IoAddr, (byteLen count).setWidth 26, sector, ctrlReg ioRead (count.setWidth 16)⟩

lemma performs_readTransfer {mem : Addr → Byte} {disk disk' : ℕ → Byte} (hfits : Fits sector count)
    (hlen : byteLen count ≠ 0) (hmax : ¬ xdmaBttMax < byteLen count)
    (hperf : Performs h mem (readTransfer (sector.setWidth 32) count) disk disk') :
    disk' = disk ∧ ∀ a, h.arrived a ≠ none → InIoBuffer a := by
  constructor
  · funext b
    refine hperf.outside b (.inl ?_)
    rw [Transfer.opCode, readTransfer, opCode_ctrlReg]
    decide
  · intro a ha
    obtain ⟨-, hlo, hhi⟩ := hperf.arrives a ha
    obtain ⟨-, hsize, htrans⟩ := asks hfits hlen hmax .s2mm ioRead
    have hsize' : xdmaIoBufferSize.toNat = 2 ^ 14 := by decide
    have hle : (byteLen count).toNat ≤ 2 ^ 14 - 1 := BitVec.not_lt.mp hmax
    rw [readTransfer, htrans, hsize, ← toNat_byteLen hfits] at hhi
    have hhi' : a.toNat < xdma0IoAddr.toNat + (byteLen count).toNat := hhi
    exact ⟨hlo, by omega⟩

lemma follows_read {fuel : ℕ} {dsk : DiskT 32} {res : DResult} {io : List SdIo}
    (hw : Orderly w.sd.cache) (hfits : Fits sector count) (hsrc : Source buff (byteLen count))
    (hreq : diskRead fuel h dsk 0 buff sector count w.sd = some (res, w'.sd))
    (hio : w'.sd.io = w.sd.io ++ io) (hcard : Served h w'.sd.cache.mem io w.disk w'.disk) :
    Follows w w' (.read buff sector count res)
      (if res = .ok then [.read (startOf sector) (bytesAt w'.seen buff (sizeOf count))]
        else []) := by
  have hsame {s : Sd} (hres : res ≠ .ok) (hs : w'.sd = s) (hsd : s = w.sd) :
      Follows w w' (.read buff sector count res) [] := by
    -- nothing was programmed
    have hnil : io = [] := by
      rw [hs, hsd] at hio
      exact (List.self_eq_append_right.mp hio)
    rw [hnil] at hcard
    refine follows_readFailed hres ?_ (fun a _ => ?_) hcard
    · rwa [hs, hsd]
    · rw [World.seen, hs, hsd]
      rfl
  rcases diskRequest_cases hreq with ⟨rfl, hr⟩ | ⟨hres, hr⟩
  · rcases rsdcardRead_cases hr with ⟨hf, -⟩ | ⟨hlen, hmax, ⟨hf, -⟩ | ⟨-, hioe, htaken⟩⟩
    · cases hf
    · cases hf
    have hmax' : byteLen count ≤ xdmaBttMax := BitVec.not_lt.mp hmax
    have hbytes := toNat_byteLen hfits
    obtain ⟨hstart, hsize, htrans⟩ := asks hfits hlen hmax .s2mm ioRead
    -- the registers are those of the request
    have hlog : io = [.dma .s2mm xdma0IoAddr ((byteLen count).setWidth 26),
        .card (sector.setWidth 32) (ctrlReg ioRead (count.setWidth 16)),
        .copy buff xdma0IoAddr (byteLen count)] :=
      List.append_cancel_left (hio.symm.trans (of_rsdcardRead hr).2)
    subst hlog
    have hperf : Performs h w'.sd.cache.mem (readTransfer (sector.setWidth 32) count) w.disk
      w'.disk := hcard
    obtain ⟨hdisk, harr⟩ := performs_readTransfer hfits hlen hmax hperf
    obtain ⟨horder, hview⟩ := @orderly_readStarted w h count hw harr (sector.setWidth 32)
    obtain ⟨hcoh, hgot, hrest⟩ := taken_spec hlen hmax' hsrc horder.coherent htaken
    have hdata : ∀ i < sizeOf count,
        w'.seen (buff + BitVec.ofNat 32 i) = w.disk (startOf sector + i) := by
      intro i hi
      have harrived : h.arrived (xdma0IoAddr + BitVec.ofNat 32 i) =
          some (w.disk (startOf sector + i)) := by
        rw [← hstart]
        exact hperf.read hioe (opCode_ctrlReg _ _) rfl htrans i (hsize ▸ hi)
      rw [World.seen, hgot i (hbytes ▸ hi)]
      show (h.arrived _).getD _ = _
      rw [harrived, Option.getD_some]
    have hbound := hsrc.bound
    refine ⟨⟨hcoh, fun a ha => settled_taken htaken (horder.settled a ha)⟩, fun p hp => ?_, ?_⟩
    · refine ⟨_, .read p buff sector count, fun a ha => ?_, hp.disk.trans hdisk.symm⟩
      show p.fetched buff (startOf sector) (sizeOf count) a = w'.seen a
      rw [Plain.fetched]
      split
      case isTrue hin =>
        have ha' : a = buff + BitVec.ofNat 32 (a.toNat - buff.toNat) := by
          apply BitVec.eq_of_toNat_eq
          rw [@toNat_add_ofNat _ _ (sizeOf count) (by omega) (by omega)]
          omega
        rw [hp.disk, ← hdata _ (by omega), ← ha']
      case isFalse hout =>
        rw [World.seen, hrest a ha (by omega), hview a ha]
        exact hp.ram a ha
    · have hread : bytesAt w'.seen buff (sizeOf count) =
          load w.disk (startOf sector) (sizeOf count) :=
        List.map_congr_left fun i hi => hdata i (List.mem_range.mp hi)
      rw [if_pos rfl, hread, hdisk]
      exact .cons (.read _ _ _) (.nil _)
  · rw [if_neg hres]
    rcases hr with hs | hr
    · exact hsame hres hs rfl
    rcases rsdcardRead_cases hr with ⟨-, hs⟩ | ⟨hlen, hmax, ⟨-, -, hs⟩ | ⟨hf, -⟩⟩
    · exact hsame hres hs rfl
    · -- the card reports an error: something may have arrived in the I/O buffer
      have hlog : io = [.dma .s2mm xdma0IoAddr ((byteLen count).setWidth 26),
          .card (sector.setWidth 32) (ctrlReg ioRead (count.setWidth 16))] := by
        rw [hs] at hio
        exact (List.append_cancel_left hio).symm
      subst hlog
      have hperf : Performs h w'.sd.cache.mem (readTransfer (sector.setWidth 32) count) w.disk
        w'.disk := hcard
      obtain ⟨hdisk, harr⟩ := performs_readTransfer hfits hlen hmax hperf
      obtain ⟨horder, hview⟩ := @orderly_readStarted w h count hw harr (sector.setWidth 32)
      refine follows_readFailed hres (hs ▸ horder) (fun a ha => ?_) hdisk
      rw [World.seen, hs]
      exact hview a ha
    · cases hf

/-- The transfer of a write. -/
def writeTransfer (sector count : BitVec 32) : Transfer :=
  ⟨.mm2s, xdma0IoAddr, (byteLen count).setWidth 26, sector, ctrlReg ioWrite (count.setWidth 16)⟩

/-- The bytes of a clean buffer have been sent, and the card has taken them or reports an error. -/
lemma follows_sent {res : DResult} {t : Sd} (hw : Orderly w.sd.cache) (hfits : Fits sector count)
    (hsrc : Source buff (byteLen count)) (hclean : Clean w.sd.cache buff (byteLen count))
    (hacc : Accepted h buff (byteLen count))
    (ht : sdcdmaWrt h buff (byteLen count) w.sd = some (xdma0IoAddr, t))
    (hs : w'.sd.cache = t.cache) (hres : res = .ok ↔ h.ioe = false)
    (hperf : Performs h w'.sd.cache.mem (writeTransfer (sector.setWidth 32) count) w.disk
      w'.disk) :
    Follows w w' (.write buff sector count res)
      [if res = .ok then .wrote (startOf sector) (bytesAt w.seen buff (sizeOf count))
        else .lost (startOf sector) (sizeOf count)] := by
  obtain ⟨t', ht', hmem, hback⟩ := sdcdmaWrt_spec hacc hsrc w.sd
  obtain ⟨-, rfl⟩ := Prod.mk.inj (Option.some.inj (ht.symm.trans ht'))
  have hbytes := toNat_byteLen hfits
  have hbound := hsrc.bound
  obtain ⟨hstart, hsize, htrans⟩ :=
    asks hfits hacc.len_ne (BitVec.not_lt.mpr hacc.len_le) .mm2s ioWrite
  have hview : ∀ a, ¬ InIoBuffer a → w'.seen a = w.seen a := by
    intro a ha
    rw [World.seen, hs]
    exact view_sdcdmaWrt hacc hsrc hclean ht ha
  have horder : Orderly w'.sd.cache := by
    refine ⟨fun a ha => ?_, fun a ha => ?_⟩
    · have hseen : w'.sd.cache.view l1Line l2Line a = w.sd.cache.view l1Line l2Line a := hview a ha
      rw [hseen, hs, hback a ha]
      split
      case isTrue hline => exact hclean a hline
      case isFalse => exact hw.coherent a ha
    · rw [hs]
      exact settled_sdcdmaWrt ht (hw.settled a ha)
  have hout : ∀ b, b < startOf sector ∨ startOf sector + sizeOf count ≤ b →
      w'.disk b = w.disk b := by
    intro b hb
    refine hperf.outside b (.inr ?_)
    rwa [writeTransfer, hstart, hsize]
  by_cases hioe : h.ioe = false
  · obtain rfl := hres.mpr hioe
    -- the buffer is clean: the memory has what the processor sees
    have hdata : bytesAt w'.sd.cache.mem xdma0IoAddr (sizeOf count) =
        bytesAt w.seen buff (sizeOf count) := by
      refine List.map_congr_left fun i hi => ?_
      rw [List.mem_range, ← hbytes] at hi
      rw [hs, hmem i hi, World.seen, hclean _ (mem_linesOf_of_lt hi (by omega))]
    have hdisk : w'.disk =
        store w.disk (startOf sector) (bytesAt w.seen buff (sizeOf count)) := by
      rw [← hdata, ← hstart, ← hsize]
      exact hperf.wrote hioe (opCode_ctrlReg _ _) rfl htrans
    refine ⟨horder, fun p hp => ?_, ?_⟩
    · refine ⟨_, .write p buff sector count, fun a ha => (hp.ram a ha).trans (hview a ha).symm, ?_⟩
      show store p.disk _ (bytesAt p.ram _ _) = _
      rw [hdisk, hp.disk, @bytesAt_congr p.ram w.seen]
      exact fun i hi => hp.ram _ (not_inIoBuffer_of_source hsrc (hbytes ▸ hi))
    · rw [if_pos rfl, hdisk]
      exact .cons (.wrote _ _ _) (.nil _)
  · have hne : res ≠ .ok := fun hok => hioe (hres.mp hok)
    rw [if_neg hne]
    refine ⟨horder, fun p hp => ?_, .cons (.lost hout) (.nil _)⟩
    refine ⟨_, .writeFailed p buff sector count hne (hp.disk ▸ hout), fun a ha => ?_, rfl⟩
    exact (hp.ram a ha).trans (hview a ha).symm

lemma follows_write {fuel : ℕ} {dsk : DiskT 32} {res : DResult} {io : List SdIo}
    (hw : Orderly w.sd.cache) (hfits : Fits sector count) (hsrc : Source buff (byteLen count))
    (hclean : Clean w.sd.cache buff (byteLen count))
    (hreq : diskWrite fuel h dsk 0 buff sector count w.sd = some (res, w'.sd))
    (hio : w'.sd.io = w.sd.io ++ io) (hcard : Served h w'.sd.cache.mem io w.disk w'.disk) :
    Follows w w' (.write buff sector count res)
      [if res = .ok then .wrote (startOf sector) (bytesAt w.seen buff (sizeOf count))
        else .lost (startOf sector) (sizeOf count)] := by
  have hrefused {s : Sd} (hres : res ≠ .ok) (hs : w'.sd = s) (hsd : s = w.sd) :
      Follows w w' (.write buff sector count res) [.lost (startOf sector) (sizeOf count)] := by
    -- nothing was programmed
    have hnil : io = [] := by
      rw [hs, hsd] at hio
      exact List.self_eq_append_right.mp hio
    rw [hnil] at hcard
    have hdisk : w'.disk = w.disk := hcard
    refine ⟨?_, fun p hp => ?_, .cons (.lost fun b _ => congrFun hdisk b) (.nil _)⟩
    · rwa [hs, hsd]
    · refine ⟨p, .writeFailed p buff sector count hres fun b _ => rfl, fun a ha => ?_, ?_⟩
      · rw [World.seen, hs, hsd]
        exact hp.ram a ha
      · exact hp.disk.trans hdisk.symm
  rcases diskRequest_cases hreq with ⟨rfl, hr⟩ | ⟨hres, hr⟩
  · rcases rsdcardWrite_cases hsrc hr with ⟨hf, -⟩ | ⟨hacc, hok, t, ht, hs⟩
    · cases hf
    have hlog := of_rsdcardWrite hr
    obtain rfl := List.append_cancel_left (hio.symm.trans hlog.2)
    refine follows_sent hw hfits hsrc hclean hacc ht (by rw [hs]) ?_ hcard
    cases hioe : h.ioe
    · exact iff_of_true rfl rfl
    · rw [hioe] at hok
      cases hok
  · rcases hr with hs | hr
    · rw [if_neg hres]
      exact hrefused hres hs rfl
    rcases rsdcardWrite_cases hsrc hr with ⟨-, hs⟩ | ⟨hacc, hok, t, ht, hs⟩
    · rw [if_neg hres]
      exact hrefused hres hs rfl
    have hlog : io = [.copy xdma0IoAddr buff (byteLen count),
        .dma .mm2s xdma0IoAddr ((byteLen count).setWidth 26),
        .card (sector.setWidth 32) (ctrlReg ioWrite (count.setWidth 16))] := by
      have hlog := (of_sdcdmaWrt ht (by decide)).2
      simp only [hs, hlog, List.append_assoc] at hio
      exact (List.append_cancel_left hio).symm
    subst hlog
    refine follows_sent hw hfits hsrc hclean hacc ht (by rw [hs]) ?_ hcard
    refine iff_of_false hres ?_
    intro hioe
    rw [hioe] at hok
    cases hok

lemma Step.follows {dsk : DiskT 32} {e : Event} {hist : List (Access Byte)}
    (hstep : Step dsk w e hist w') (hallow : Allowed w e) (hw : Orderly w.sd.cache) :
    Follows w w' e hist := by
  cases hstep with
  | load a => exact follows_load hw a
  | store a v => exact follows_store hw a v
  | drop k => exact follows_drop hw k
  | evict k => exact follows_evict hw k
  | read hreq hio hcard => exact follows_read hw hallow.1 hallow.2 hreq hio hcard
  | write hreq hio hcard => exact follows_write hw hallow.1 hallow.2.1 hallow.2.2 hreq hio hcard

end Steps

/-! ### Runs -/

lemma Runs.obeysAll {dsk : DiskT 32} {w w' : World} {es : List Event} {hist : List (Access Byte)}
    (hrun : Runs dsk w es hist w') (hw : Orderly w.sd.cache) :
    Access.ObeysAll w.disk hist w'.disk := by
  induction hrun with
  | nil => exact .nil _
  | cons hallow hstep _ ih =>
    have hfollows := hstep.follows hallow hw
    exact hfollows.obeys.append (ih hfollows.orderly)

/-! ### A sector there and back -/

/-- The devices are idle, and `disk` is what arrives from the start of the card. -/
def delivering (disk : ℕ → Byte) : SdAnswers :=
  { idleAnswers with
    arrived := fun a =>
      if xdma0IoAddr.toNat ≤ a.toNat ∧ a.toNat < xdma0IoAddr.toNat + 512 then
        some (disk (a.toNat - xdma0IoAddr.toNat))
      else none }

lemma exists_write (dsk : DiskT 32) (w : World) :
    ∃ hist w', Step dsk w (.write 0x1000 0 1 .ok) hist w' := by
  obtain ⟨s', hs'⟩ := @rsdcardWrite_idle 0x1000 1 (by decide) (by decide) (by decide)
    (by rw [Ends]; decide) 0 w.sd
  obtain ⟨-, hio⟩ := of_rsdcardWrite hs'
  obtain ⟨disk', hdisk⟩ : ∃ d, d = store w.disk 0 (bytesAt s'.cache.mem xdma0IoAddr 512) := ⟨_, rfl⟩
  have hperf : Performs idleAnswers s'.cache.mem (writeTransfer 0 1) w.disk disk' := by
    refine ⟨fun b hb => ?_, fun a ha => absurd rfl ha, fun _ _ _ _ => hdisk, fun _ hop => ?_⟩
    · rw [hdisk]
      refine store_of_notMem ?_
      rcases hb with hop | hb
      · exact absurd rfl hop
      · have hlen : (bytesAt s'.cache.mem xdma0IoAddr 512).length = 512 := by simp [bytesAt]
        have hend : (writeTransfer 0 1).start + (writeTransfer 0 1).size = 0 + 512 := by decide
        rw [hlen, ← hend]
        exact hb
    · exact absurd hop (by decide)
  exact ⟨_, ⟨s', disk'⟩, .write (diskRequest_of (by decide) hs') hio hperf⟩

lemma exists_read (dsk : DiskT 32) (w : World) :
    ∃ hist w', Step dsk w (.read 0x2000 0 1 .ok) hist w' := by
  have hio : xdma0IoAddr ≠ 0 := by decide
  have hidle : ¬ (delivering w.disk).idle = false := Bool.noConfusion
  have hioe : ¬ (delivering w.disk).ioe = true := Bool.noConfusion
  have hlen : byteLen 1 ≠ 0 := by decide
  have hmax : ¬ xdmaBttMax < byteLen 1 := by decide
  have hread : ∃ s', rsdcardRead 1 (delivering w.disk) 0x2000 0 1 w.sd = some (true, s') := by
    have hne : (sdcdmaRdt (delivering w.disk) (byteLen 1) w.sd).1 ≠ 0 := by
      rw [sdcdmaRdt, if_neg fun hbusy => Bool.noConfusion hbusy.1,
        if_neg (not_or.mpr ⟨hlen, hmax⟩)]
      exact hio
    have hcard : ∀ s, cardRequest 1 (delivering w.disk) ioRead 0 1 s =
        some { s with io := s.io ++ [.card 0 (ctrlReg ioRead 1)] } := fun _ => rfl
    simp only [rsdcardRead, if_neg hidle, show (1 : BitVec 32) * sdcardSectorSize = byteLen 1 from
      rfl, (of_sdcdmaRdt hne).1, if_neg hio, hcard, Option.bind_eq_bind, Option.bind_some,
      if_neg hioe]
    obtain ⟨c, hc⟩ := xdcacheInvalidate_some hlen (ends_ioBuffer hlen hmax) _
    rw [hc, Option.bind_some]
    obtain ⟨c', hc'⟩ := @xdcacheFlush_some 0x2000 (byteLen 1) hlen (by rw [Ends]; decide) _
    rw [hc', Option.bind_some]
    exact ⟨_, rfl⟩
  obtain ⟨s', hs'⟩ := hread
  obtain ⟨-, hlog⟩ := of_rsdcardRead hs'
  have hperf : Performs (delivering w.disk) s'.cache.mem (readTransfer 0 1) w.disk w.disk := by
    refine ⟨fun _ _ => rfl, fun a ha => ?_, fun _ hop => absurd hop (by decide), ?_⟩
    · by_contra hout
      refine ha (if_neg fun hin => hout ⟨rfl, hin.1, ?_⟩)
      exact hin.2
    · intro _ _ _ _ i hi
      have hi' : i < 512 := hi
      have hat : (xdma0IoAddr + BitVec.ofNat 32 i).toNat = xdma0IoAddr.toNat + i :=
        toNat_add_ofNat hi' (by decide)
      show (if _ then _ else _) = _
      rw [show (readTransfer 0 1).buffer = xdma0IoAddr from rfl, hat, if_pos (by omega),
        Nat.add_sub_cancel_left, show (readTransfer 0 1).start = 0 from rfl, Nat.zero_add]
  exact ⟨_, ⟨s', w.disk⟩, .read (diskRequest_of (by decide) hs') hlog hperf⟩

lemma orderly_emptyCache : Orderly emptyCache := ⟨fun _ _ => rfl, fun _ _ _ => rfl⟩

/-- A sector is written and read back. -/
lemma exists_writeRead (dsk : DiskT 32) (disk : ℕ → Byte) : ∃ hist w',
    Runs dsk ⟨⟨emptyCache, []⟩, disk⟩ [.write 0x1000 0 1 .ok, .read 0x2000 0 1 .ok] hist w' := by
  obtain ⟨hist, w, hw⟩ := exists_write dsk ⟨⟨emptyCache, []⟩, disk⟩
  obtain ⟨hist', w', hw'⟩ := exists_read dsk w
  refine ⟨_, w', .cons ⟨⟨by decide, by decide, by decide⟩, source_sector, fun _ _ => rfl⟩ hw
    (.cons ⟨⟨by decide, by decide, by decide⟩, ⟨by decide, by decide⟩⟩ hw' (.nil w'))⟩

/-- **The port runs like a machine without caches.**  In every run, with every answer of the
devices, the processor sees a plain memory, and the card contains plain sectors: a write copies
from one to the other, a read copies back, and nothing else is changed or lost. -/
theorem sdcard_refines {dsk : DiskT 32} {w w' : World} {es : List Event}
    {hist : List (Access Byte)} (hrun : Runs dsk w es hist w') (hw : Orderly w.sd.cache)
    {p : Plain} (hp : Shows p w) : ∃ p', Plain.Runs p es p' ∧ Shows p' w' := by
  induction hrun generalizing p with
  | nil => exact ⟨p, .nil p, hp⟩
  | cons hallow hstep _ ih =>
    have hfollows := hstep.follows hallow hw
    obtain ⟨p₁, hp₁, hshows⟩ := hfollows.plain p hp
    obtain ⟨p', hp', hshows'⟩ := ih hfollows.orderly hshows
    exact ⟨p', .cons hp₁ hp', hshows'⟩

theorem sdcard_refines_writeRead : ∃ hist w',
    Runs ⟨0, 0, 0, 0, 'A'⟩ ⟨⟨emptyCache, []⟩, fun _ => 7⟩
      [.write 0x1000 0 1 .ok, .read 0x2000 0 1 .ok] hist w' ∧
        ∃ p', Plain.Runs ⟨fun _ => 0, fun _ => 7⟩
          [.write 0x1000 0 1 .ok, .read 0x2000 0 1 .ok] p' ∧ Shows p' w' := by
  obtain ⟨hist, w', hrun⟩ := exists_writeRead ⟨0, 0, 0, 0, 'A'⟩ fun _ => 7
  refine ⟨hist, w', hrun, sdcard_refines hrun orderly_emptyCache ⟨fun _ _ => rfl, rfl⟩⟩

/-- **Reads return what was last written.**  In every run, a read that is reported done has in
its buffer, byte by byte, what the last write to these sectors had in its own, unless a write
to them has failed since. -/
theorem sdcard_serves {dsk : DiskT 32} {w w' : World} {es : List Event}
    {hist : List (Access Byte)} (hrun : Runs dsk w es hist w') (hw : Orderly w.sd.cache) :
    Access.Serves w.disk hist :=
  (hrun.obeysAll hw).serves

theorem sdcard_serves_writeRead : ∃ hist w',
    Runs ⟨0, 0, 0, 0, 'A'⟩ ⟨⟨emptyCache, []⟩, fun _ => 7⟩
      [.write 0x1000 0 1 .ok, .read 0x2000 0 1 .ok] hist w' ∧
        Access.Serves (fun _ => 7) hist := by
  obtain ⟨hist, w', hrun⟩ := exists_writeRead ⟨0, 0, 0, 0, 'A'⟩ fun _ => 7
  exact ⟨hist, w', hrun, sdcard_serves hrun orderly_emptyCache⟩

end EvtDrivenOs.Sdcard
