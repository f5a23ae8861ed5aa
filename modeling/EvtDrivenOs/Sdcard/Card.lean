/-
The SD card of the MicroBlaze port: the direct DMA channels and the card controller.

What the code writes to the devices is kept as a list.  What it reads from them is given
as the answers of the devices to one request; the loops that poll them take fuel.
-/
import EvtDrivenOs.Xcache
import Mathlib.Data.Stream.Init

namespace EvtDrivenOs.Sdcard

open EvtDrivenOs.Lib EvtDrivenOs.Xcache

/-! ### Devices -/

/-- The width of the data in bits. -/
def xdmaDataWidth : Addr := 32

/-- The greatest length of a transfer. -/
def xdmaBttMax : Addr := (1 <<< 14) - 1

/-- Where the I/O buffer is. -/
def xdma0IoAddr : Addr := 0x80000000

/-- The size of the I/O buffer. -/
def xdmaIoBufferSize : Addr := 1 <<< 14

/-- The size of a sector. -/
def sdcardSectorSize : BitVec 32 := 512

/-- The operation that reads. -/
def ioRead : BitVec 3 := 0x01

/-- The operation that writes. -/
def ioWrite : BitVec 3 := 0x02

/-- The two channels of the dma, from the memory and to it. -/
inductive Channel where
  | mm2s
  | s2mm
deriving DecidableEq

/-- What is done to the devices, and the copies between buffers. -/
inductive SdIo where
  | copy (dst src len : Addr)
  /-- The registers `buffer` and `trans_len` of a channel. -/
  | dma (ch : Channel) (buffer : Addr) (transLen : BitVec 26)
  /-- The registers `addr` and `cr` of the card. -/
  | card (addr cr : BitVec 32)
deriving DecidableEq

/-- The data caches and the memory, with what was done so far. -/
structure Sd where
  cache : DCache
  io : List SdIo

/-- The answers of the devices to a request. -/
structure SdAnswers where
  /-- `sr.idle` of the card before the request. -/
  idle : Bool
  /-- `sr.halted` and `sr.idle` of the channel. -/
  dmaHalted : Bool
  dmaIdle : Bool
  /-- `sr.idle` of the card while its start is awaited, `sr.ioc` while its end is. -/
  start : Stream' Bool
  completed : Stream' Bool
  ioe : Bool
  /-- What the channel has written to the memory when a read ends. -/
  arrived : Addr → Option Byte

/-- A loop that polls a flag until it is `v`. -/
def pollUntil (v : Bool) : ℕ → Stream' Bool → Option Unit
  | 0, _ => none
  | fuel + 1, st => if st.head = v then some () else pollUntil v fuel st.tail

/-! ### The DMA -/

/-- Where each byte goes and where it comes from, in the order of the copy. -/
def memcpyPairs (dst src len : Addr) : List (Addr × Addr) :=
  (List.range len.toNat).map fun i => (dst + BitVec.ofNat 32 i, src + BitVec.ofNat 32 i)

/-- The CPU copies the bytes through the caches. -/
def memcpy (dst src len : Addr) (s : Sd) : Sd :=
  { cache := (memcpyPairs dst src len).foldl (Caches.copy l1Line l2Line) s.cache
    io := s.io ++ [.copy dst src len] }

/-- `xdirectdma_trans`; 0 stands for the null pointer. -/
def xdirectdmaTrans (ch : Channel) (mem len : Addr) (s : Sd) : Addr × Sd :=
  if mem &&& (xdmaDataWidth - 1) ≠ 0 then (0, s)
  else (mem, { s with io := s.io ++ [.dma ch mem (len.setWidth 26)] })

/-- `_sdcdma_wrt` -/
def sdcdmaWrt (h : SdAnswers) (mem len : Addr) (s : Sd) : Option (Addr × Sd) :=
  if h.dmaHalted = false ∧ h.dmaIdle = false then some (0, s)
  else if mem = 0 ∨ len = 0 ∨ xdmaBttMax < len then some (0, s)
  else do
    let c ← xdcacheInvalidate mem len s.cache
    let s := memcpy xdma0IoAddr mem len { s with cache := c }
    let c ← xdcacheFlush xdma0IoAddr len s.cache
    some (xdirectdmaTrans .mm2s xdma0IoAddr len { s with cache := c })

/-- `_sdcdma_rdt` -/
def sdcdmaRdt (h : SdAnswers) (len : Addr) (s : Sd) : Addr × Sd :=
  if h.dmaHalted = false ∧ h.dmaIdle = false then (0, s)
  else if len = 0 ∨ xdmaBttMax < len then (0, s)
  else xdirectdmaTrans .s2mm xdma0IoAddr len s

/-! ### The card -/

/-- `ctrl_reg`: the operation in bits 0 to 2, the count in bits 4 to 19. -/
def ctrlReg (opCode : BitVec 3) (sCount : BitVec 16) : BitVec 32 :=
  (0 : BitVec 12) ++ sCount ++ (0 : BitVec 1) ++ opCode

/-- The count in a control word. -/
def sCountOf (cr : BitVec 32) : BitVec 16 := cr.extractLsb' 4 16

/-- The card is programmed, and its answer awaited. -/
def cardRequest (fuel : ℕ) (h : SdAnswers) (opCode : BitVec 3) (sector count : BitVec 32) (s : Sd) :
    Option Sd := do
  let s := { s with io := s.io ++ [.card sector (ctrlReg opCode (count.setWidth 16))] }
  pollUntil false fuel h.start
  pollUntil true fuel h.completed
  some s

/-- `_rsdcard_read` -/
def rsdcardRead (fuel : ℕ) (h : SdAnswers) (mem sector count : BitVec 32) (s : Sd) :
    Option (Bool × Sd) :=
  if h.idle = false then some (false, s)
  else
    let mLen := count * sdcardSectorSize
    let (ioBuffer, s) := sdcdmaRdt h mLen s
    if ioBuffer = 0 then some (false, s)
    else do
      let s ← cardRequest fuel h ioRead sector count s
      let s := { s with cache.mem := fun a => (h.arrived a).getD (s.cache.mem a) }
      if h.ioe then some (false, s)
      else do
        let c ← xdcacheInvalidate ioBuffer mLen s.cache
        let s := memcpy mem ioBuffer mLen { s with cache := c }
        let c ← xdcacheFlush mem mLen s.cache
        some (true, { s with cache := c })

/-- `_rsdcard_write` -/
def rsdcardWrite (fuel : ℕ) (h : SdAnswers) (mem sector count : BitVec 32) (s : Sd) :
    Option (Bool × Sd) := do
  if h.idle = false then some (false, s)
  else do
    let (ioBuffer, s) ← sdcdmaWrt h mem (count * sdcardSectorSize) s
    if ioBuffer = 0 then some (false, s)
    else do
      let s ← cardRequest fuel h ioWrite sector count s
      some (!h.ioe, s)

end EvtDrivenOs.Sdcard
