/-
The receive loop of the ethernet service, `lwip_ethInput`, which moves frames from the
receive queue to the network stack.

The functions of lwIP on pbufs are parameters, of which `Lwip.Documented` states what their
documentation says.  Whether `netif->input` takes a pbuf over, and the frames that arrive
between the iterations, are those of an arbitrary environment.  The calls made of the stack
are recorded: `Handled` says what they are for the frames that were removed, and `Accounted`
what this means for frames and pbufs.
-/
import Mathlib.Tactic.SplitIfs
import EvtDrivenOs.Lib.Custody
import EvtDrivenOs.Xdma.ReceiveRun

namespace EvtDrivenOs.Ethernet

open EvtDrivenOs.Lib EvtDrivenOs.Xdma

/-! ### The stack -/

/-- What the loop sees of a `struct netif`. -/
structure Netif where
  isUp : Bool
  isLinkUp : Bool
deriving DecidableEq, Repr

/-- `ERR_OK`; an `err_t` is signed. -/
def errOk : Int8 := 0

/-- A pbuf, by the number of the iteration that allocated it, with its `tot_len` bytes. -/
structure Pbuf where
  number : ℕ
  payload : Frame

/-- The functions of lwIP that the loop calls for pbufs. -/
structure Lwip where
  /-- `pbuf_alloc` in an iteration, for a length; `none` is `NULL`. -/
  pbufAlloc : ℕ → UInt16 → Option Pbuf
  /-- `pbuf_take`: what has become of the pbuf. -/
  pbufTake : Pbuf → Frame → UInt16 → Pbuf

/-- What lwIP documents of these functions. -/
structure Lwip.Documented (lwip : Lwip) : Prop where
  /-- `pbuf_alloc` returns `NULL` or a new pbuf, of the length that is asked for. -/
  alloc {number : ℕ} {length : UInt16} {p : Pbuf} (h : lwip.pbufAlloc number length = some p) :
    p.number = number ∧ p.payload.length = length.toNat
  /-- `pbuf_take` copies data for which the pbuf is large enough to its start; the pbuf stays the
  same, and keeps its length. -/
  take {p : Pbuf} {dataptr : Frame} {len : UInt16} (hdata : len.toNat ≤ dataptr.length)
    (hfits : len.toNat ≤ p.payload.length) :
    (lwip.pbufTake p dataptr len).number = p.number ∧
      (lwip.pbufTake p dataptr len).payload.length = p.payload.length ∧
      (lwip.pbufTake p dataptr len).payload.take len.toNat = dataptr.take len.toNat

/-- The calls of the stack.  The frame that a call is about is given by its number of
arrival, which the code does not know. -/
inductive LwipCall
  /-- `pbuf_alloc` returned `NULL` -/
  | noPbuf (frame : ℕ)
  | alloc (p : ℕ)
  /-- `netif->input`, the bytes it is given, and its result -/
  | input (p frame : ℕ) (payload : Frame) (err : Int8)
  | free (p : ℕ)
deriving DecidableEq, Repr

/-- What the surroundings do in an iteration. -/
structure Round where
  /-- The frames received before the queue is looked at. -/
  arrivals : List Frame
  /-- The result of `netif->input`. -/
  err : Int8

/-! ### The code -/

/-- The service: the receive side of the dma, its variables, and what it has told lwIP. -/
structure EthInput where
  rx : RxSys
  rxQcount : UInt32
  rxp : Frame
  lwipAllocError : Bool := false
  lwipInputError : Bool := false
  jrnl : List String := []
  /-- The number of frames taken from the queue. -/
  rounds : ℕ := 0
  calls : List LwipCall := []

namespace EthInput

variable (s : EthInput)

/-- `sizeof(rxp)`, which is `XTEMAC_MTU`. -/
def rxpSize : UInt32 := 1536

/-- An entry in the kernel's journal. -/
def jentry (text : String) : EthInput := { s with jrnl := s.jrnl ++ [text] }

/-- A call to lwIP. -/
def call (c : LwipCall) : EthInput := { s with calls := s.calls ++ [c] }

/-- The receive interrupts before an iteration. -/
def interrupts (e : Round) : EthInput := { s with rx := e.arrivals.foldl RxSys.receive s.rx }

/-- `_ethdma_rxsgcmplt` has copied `f` to `rxp`. -/
def dequeue (f : RxFrame) : EthInput :=
  { s with rx := s.rx.read rxpSize, rxp := f.mem ++ s.rxp.drop f.mem.length }

variable (lwip : Lwip)

/-- The loop's body, for a frame of `rx_len` bytes in `rxp`, the number `i` of arrival. -/
def body (e : Round) (rxLen i : ℕ) : EthInput :=
  match lwip.pbufAlloc s.rounds (UInt16.ofNat rxLen) with
  | none => { s.call (.noPbuf i) with lwipAllocError := true }
  | some p =>
    let s := s.call (.alloc p.number)
    let p := lwip.pbufTake p s.rxp (UInt16.ofNat rxLen)
    let s := s.call (.input p.number i p.payload e.err)
    if e.err ≠ errOk then { s.call (.free p.number) with lwipInputError := true } else s

/-- An iteration in which `_ethdma_rxsgcmplt` has returned `f`. -/
def iteration (e : Round) (f : RxFrame) : EthInput :=
  let i := s.rx.stamp (rxBd s.rx.drv.ethRxtail.toNat)
  { (s.dequeue f).body lwip e f.transLen i with rounds := s.rounds + 1 }

/-- The loop; the counter is decremented by each look at it. -/
def inputLoop (env : ℕ → Round) : ℕ → EthInput → Option EthInput
  | 0, _ => none
  | fuel + 1, s =>
    let rxQcount := s.rxQcount
    let s := { s with rxQcount := rxQcount - 1 }
    if rxQcount = 0 then some s
    else
      let s := s.interrupts (env s.rounds)
      match (ethdmaRxsgcmplt s.rx.drv rxpSize).1 with
      | none => some s
      | some f => inputLoop env fuel (s.iteration lwip (env s.rounds) f)

/-- The journal's entries after the loop. -/
def report : EthInput :=
  let s := if s.lwipInputError then s.jentry "lwIP input packet processing error" else s
  if s.lwipAllocError then s.jentry "lwIP cant allocate the buffer for input packet" else s

end EthInput

/-- `rxp` is the stack's content at the place of the buffer. -/
def lwipEthInput (lwip : Lwip) (env : ℕ → Round) (netif : Option Netif) (rxp : Frame) (rx : RxSys)
    (fuel : ℕ) : Option EthInput :=
  match netif with
  | none => some { rx, rxQcount := 0, rxp }
  | some netif =>
    if !netif.isUp || !netif.isLinkUp then some { rx, rxQcount := 0, rxp }
    else
      (EthInput.inputLoop lwip env fuel { rx, rxQcount := ethRxqcount rx.drv, rxp }).map
        EthInput.report

/-! ### Frames and calls -/

/-- The calls made for the frame `d`, with `p` as the next pbuf: there is none, or the stack
takes it over, or it is refused and freed. -/
inductive Handles (p : ℕ) (d : ℕ × RxFrame) : List LwipCall → Prop
  | noPbuf : Handles p d [.noPbuf d.1]
  | taken : Handles p d [.alloc p, .input p d.1 d.2.mem errOk]
  | refused {err : Int8} (herr : err ≠ errOk) :
    Handles p d [.alloc p, .input p d.1 d.2.mem err, .free p]

/-- The calls made for the frames `ds`, one after the other. -/
inductive Handled : List (ℕ × RxFrame) → List LwipCall → Prop
  | nil : Handled [] []
  | snoc {ds cs d cs'} (h : Handled ds cs) (hd : Handles ds.length d cs') :
    Handled (ds ++ [d]) (cs ++ cs')

namespace LwipCall

/-- What a call does with a pbuf: the stack takes it over just if the result is `ERR_OK`. -/
def custody? : LwipCall → Option (Custody ℕ)
  | noPbuf _ => none
  | alloc p => some (.alloc p)
  | input p _ _ err => if err = errOk then some (.passOn p) else none
  | free p => some (.free p)

/-- The frame offered to the stack. -/
def offer? : LwipCall → Option (ℕ × Frame)
  | input _ frame payload _ => some (frame, payload)
  | _ => none

end LwipCall

/-- The frames offered to the stack, the first one first. -/
def offers (cs : List LwipCall) : List (ℕ × Frame) := cs.filterMap LwipCall.offer?

/-- What was done with the pbufs. -/
def pbufs (cs : List LwipCall) : List (Custody ℕ) := cs.filterMap LwipCall.custody?

lemma pbufs_append (cs cs' : List LwipCall) : pbufs (cs ++ cs') = pbufs cs ++ pbufs cs' :=
  List.filterMap_append

/-- The stack took over the frame, or there was no pbuf for it, or the stack refused it. -/
def Disposed (d : ℕ × RxFrame) (cs : List LwipCall) : Prop :=
  (∃ p, .input p d.1 d.2.mem errOk ∈ cs) ∨ .noPbuf d.1 ∈ cs ∨
    ∃ p err, err ≠ errOk ∧ .input p d.1 d.2.mem err ∈ cs

lemma Disposed.mono {d : ℕ × RxFrame} {cs cs' : List LwipCall} (h : Disposed d cs)
    (hsub : cs ⊆ cs') : Disposed d cs' := by
  rcases h with ⟨p, hp⟩ | hnone | ⟨p, err, herr, hp⟩
  · exact .inl ⟨p, hsub hp⟩
  · exact .inr (.inl (hsub hnone))
  · exact .inr (.inr ⟨p, err, herr, hsub hp⟩)

namespace Handles

variable {p : ℕ} {d : ℕ × RxFrame} {cs : List LwipCall}

lemma pbufs_eq (h : Handles p d cs) : pbufs cs = [] ∨ pbufs cs = [.alloc p, .passOn p] ∨
    pbufs cs = [.alloc p, .free p] := by
  cases h with
  | noPbuf => exact .inl rfl
  | taken => exact .inr (.inl rfl)
  | refused herr =>
    refine .inr (.inr ?_)
    simp [pbufs, LwipCall.custody?, herr]

lemma res_eq (h : Handles p d cs) : ∀ c ∈ pbufs cs, c.res = p := by
  intro c hc
  rcases h.pbufs_eq with hnil | hpass | hfree
  · rw [hnil] at hc
    cases hc
  · rw [hpass] at hc
    simp only [List.mem_cons, List.not_mem_nil, or_false] at hc
    rcases hc with rfl | rfl <;> rfl
  · rw [hfree] at hc
    simp only [List.mem_cons, List.not_mem_nil, or_false] at hc
    rcases hc with rfl | rfl <;> rfl

lemma settled (h : Handles p d cs) : Custody.Settled p (pbufs cs) := by
  rcases h.pbufs_eq with hnil | hpass | hfree
  · exact hnil ▸ .nil p
  · exact hpass ▸ .passedOn p
  · exact hfree ▸ .freed p

lemma offers_sublist (h : Handles p d cs) : (offers cs).Sublist [(d.1, d.2.mem)] := by
  cases h with
  | noPbuf => exact List.nil_sublist _
  | taken | refused => exact List.Sublist.refl _

lemma disposed (h : Handles p d cs) : Disposed d cs := by
  cases h with
  | noPbuf => exact .inr (.inl (.head _))
  | taken => exact .inl ⟨p, .tail _ (.head _)⟩
  | refused herr => exact .inr (.inr ⟨p, _, herr, .tail _ (.head _)⟩)

end Handles

namespace Handled

variable {ds : List (ℕ × RxFrame)} {cs : List LwipCall}

/-- The pbufs are numbered by the frames. -/
lemma res_lt (h : Handled ds cs) : ∀ c ∈ pbufs cs, c.res < ds.length := by
  induction h with
  | nil => exact fun c hc => absurd hc List.not_mem_nil
  | snoc _ hd ih =>
    intro c hc
    rw [pbufs_append] at hc
    rw [List.length_append, List.length_singleton]
    rcases List.mem_append.mp hc with hold | hnew
    · exact Nat.lt_succ_of_lt (ih c hold)
    · rw [hd.res_eq c hnew]
      exact Nat.lt_succ_self _

/-- Each pbuf is settled when its frame has been handled. -/
lemma settled (h : Handled ds cs) (p : ℕ) : Custody.Settled p (pbufs cs) := by
  induction h generalizing p with
  | nil => exact .nil p
  | snoc h hd ih =>
    rw [pbufs_append]
    exact .append ih (fun c hc => (h.res_lt c hc).ne) hd.res_eq hd.settled p

/-- Each frame is offered at most once, in the order of the frames and with its bytes. -/
lemma offers_sublist (h : Handled ds cs) :
    (offers cs).Sublist (ds.map fun d => (d.1, d.2.mem)) := by
  induction h with
  | nil => exact List.Sublist.refl _
  | snoc _ hd ih =>
    simp only [offers, List.filterMap_append, List.map_append]
    exact ih.append hd.offers_sublist

lemma disposed (h : Handled ds cs) {d : ℕ × RxFrame} (hd : d ∈ ds) : Disposed d cs := by
  induction h with
  | nil => cases hd
  | snoc _ hlast ih =>
    rcases List.mem_append.mp hd with hd | hd
    · exact (ih hd).mono (List.subset_append_left _ _)
    · rw [List.mem_singleton.mp hd]
      exact hlast.disposed.mono (List.subset_append_right _ _)

end Handled

/-! ### The loop -/

namespace EthInput

variable {lwip : Lwip} {s : EthInput} {e : Round}

/-- The body makes calls, and changes nothing but the flags. -/
lemma body_rest (lwip : Lwip) (s : EthInput) (e : Round) (rxLen i : ℕ) :
    (s.body lwip e rxLen i).rx = s.rx ∧ (s.body lwip e rxLen i).rxQcount = s.rxQcount ∧
      (s.body lwip e rxLen i).jrnl = s.jrnl := by
  rw [body]
  split
  · exact ⟨rfl, rfl, rfl⟩
  · simp only
    split <;> exact ⟨rfl, rfl, rfl⟩

/-- The flags tell which of the failures there were. -/
structure Flags (s : EthInput) : Prop where
  alloc : s.lwipAllocError = true ↔ ∃ i, .noPbuf i ∈ s.calls
  input : s.lwipInputError = true ↔ ∃ p, .free p ∈ s.calls

lemma Flags.body (h : Flags s) (lwip : Lwip) (e : Round) (rxLen i : ℕ) :
    Flags (s.body lwip e rxLen i) := by
  rw [EthInput.body]
  split
  · constructor
    · simp [call]
    · simp [call, h.input]
  · simp only
    split
    · constructor
      · simp [call, h.alloc]
      · simp [call]
    · constructor
      · simp [call, h.alloc]
      · simp [call, h.input]

/-- The bytes in the pbuf are those of the frame: it has just the length of the frame, and the
copy fills it. -/
lemma take_alloc (hlwip : lwip.Documented) {n : ℕ} {mem r : Frame} {p : Pbuf}
    (hlen : mem.length ≤ 1536) (hp : lwip.pbufAlloc n (UInt16.ofNat mem.length) = some p) :
    p.number = n ∧ (lwip.pbufTake p (mem ++ r) (UInt16.ofNat mem.length)).number = n ∧
      (lwip.pbufTake p (mem ++ r) (UInt16.ofNat mem.length)).payload = mem := by
  have hnat : (UInt16.ofNat mem.length).toNat = mem.length := by
    rw [UInt16.toNat_ofNat']
    exact Nat.mod_eq_of_lt (by omega)
  obtain ⟨hnumber, hlength⟩ := hlwip.alloc hp
  have hdata : (UInt16.ofNat mem.length).toNat ≤ (mem ++ r).length := by
    rw [hnat, List.length_append]
    exact Nat.le_add_right _ _
  obtain ⟨hsame, hkept, htake⟩ := hlwip.take hdata hlength.ge
  refine ⟨hnumber, hsame.trans hnumber, ?_⟩
  rw [← hlength, List.take_of_length_le hkept.le, hlength, hnat, List.take_left] at htake
  exact htake

lemma handles_body (hlwip : lwip.Documented) {d : ℕ × RxFrame}
    (hlen : d.2.transLen = d.2.mem.length) (hle : d.2.mem.length ≤ 1536) :
    ∃ cs, ((s.dequeue d.2).body lwip e d.2.transLen d.1).calls = s.calls ++ cs ∧
      Handles s.rounds d cs := by
  have hrounds : (s.dequeue d.2).rounds = s.rounds := rfl
  rw [body, hrounds, hlen]
  cases hpbuf : lwip.pbufAlloc s.rounds (UInt16.ofNat d.2.mem.length) with
  | none => exact ⟨_, rfl, .noPbuf⟩
  | some p =>
    obtain ⟨hnumber, hsame, hpayload⟩ :=
      take_alloc (r := s.rxp.drop d.2.mem.length) hlwip hle hpbuf
    simp only [dequeue, call, hnumber, hsame, hpayload]
    by_cases herr : e.err = errOk
    · rw [if_neg (not_not_intro herr), herr]
      simp only [List.append_assoc, List.cons_append, List.nil_append]
      exact ⟨_, rfl, .taken⟩
    · rw [if_pos herr]
      simp only [List.append_assoc, List.cons_append, List.nil_append]
      exact ⟨_, rfl, .refused herr⟩

/-- What holds in front of each iteration of a call that started with the queue `t` and has
taken the frames `ds` from it. -/
structure Looping (chunk : ℕ) (s₀ : State) (t : RxSys) (ds : List (ℕ × RxFrame))
    (s : EthInput) : Prop where
  inv : RxInv chunk s₀ none 0 s.rx
  delivered : s.rx.delivered = t.delivered ++ ds
  rounds : s.rounds = ds.length
  handled : Handled ds s.calls
  flags : s.Flags
  jrnl : s.jrnl = []

namespace Looping

variable {chunk : ℕ} {s₀ : State} {t : RxSys} {ds : List (ℕ × RxFrame)}

lemma interrupts (h : Looping chunk s₀ t ds s) (e : Round) :
    Looping chunk s₀ t ds (s.interrupts e) := by
  obtain ⟨arrivals, err⟩ := e
  induction arrivals generalizing s with
  | nil => exact h
  | cons frame arrivals ih =>
    exact ih (s := { s with rx := s.rx.receive frame }) { h with
      inv := h.inv.receive frame
      flags := ⟨h.flags.alloc, h.flags.input⟩ }

lemma counted (h : Looping chunk s₀ t ds s) :
    Looping chunk s₀ t ds { s with rxQcount := s.rxQcount - 1 } :=
  { h with flags := ⟨h.flags.alloc, h.flags.input⟩ }

/-- What the queue gives: a frame of at most `XTEMAC_MTU` bytes, and its length. -/
lemma dequeued (h : Looping chunk s₀ t ds s) {f : RxFrame}
    (hf : (ethdmaRxsgcmplt s.rx.drv rxpSize).1 = some f) :
    f.transLen = f.mem.length ∧ f.mem.length ≤ 1536 := by
  rw [h.inv.ethdmaRxsgcmplt_eq] at hf
  split_ifs at hf with hfits
  cases hf
  exact ⟨rfl, hfits.2⟩

/-- A frame that was taken has been handled at the end of the iteration. -/
lemma iteration (hlwip : lwip.Documented) (h : Looping chunk s₀ t ds s) {f : RxFrame}
    (hf : (ethdmaRxsgcmplt s.rx.drv rxpSize).1 = some f) (e : Round) :
    ∃ d, Looping chunk s₀ t (ds ++ [d]) (s.iteration lwip e f) := by
  obtain ⟨hlen, hle⟩ := h.dequeued hf
  refine ⟨(s.rx.stamp (rxBd s.rx.drv.ethRxtail.toNat), f), ?_⟩
  obtain ⟨hrx, -, hjrnl⟩ := body_rest lwip (s.dequeue f) e f.transLen
    (s.rx.stamp (rxBd s.rx.drv.ethRxtail.toNat))
  have hread : (s.iteration lwip e f).rx = s.rx.read rxpSize := hrx
  have hflags : (s.dequeue f).Flags := ⟨h.flags.alloc, h.flags.input⟩
  constructor
  · rw [hread]
    exact h.inv.read rxpSize
  · rw [hread, RxSys.read, hf, ← List.append_assoc, ← h.delivered]
    rfl
  · rw [List.length_append, List.length_singleton, ← h.rounds]
    rfl
  · obtain ⟨cs, hcalls, hd⟩ := handles_body (s := s) (e := e) hlwip
      (d := (s.rx.stamp (rxBd s.rx.drv.ethRxtail.toNat), f)) hlen hle
    have hiter : (s.iteration lwip e f).calls = s.calls ++ cs := hcalls
    rw [hiter]
    exact h.handled.snoc (h.rounds ▸ hd)
  · have hbody := hflags.body lwip e f.transLen (s.rx.stamp (rxBd s.rx.drv.ethRxtail.toNat))
    exact ⟨hbody.alloc, hbody.input⟩
  · exact hjrnl.trans h.jrnl

end Looping

/-- The state in which an iteration looks at the queue. -/
def looks (env : ℕ → Round) (s : EthInput) : EthInput :=
  ({ s with rxQcount := s.rxQcount - 1 } : EthInput).interrupts (env s.rounds)

lemma inputLoop_succ (lwip : Lwip) (env : ℕ → Round) (fuel : ℕ) (hne : s.rxQcount ≠ 0) :
    inputLoop lwip env (fuel + 1) s =
      match (ethdmaRxsgcmplt (s.looks env).rx.drv rxpSize).1 with
      | none => some (s.looks env)
      | some f => inputLoop lwip env fuel ((s.looks env).iteration lwip (env s.rounds) f) := by
  rw [inputLoop, if_neg hne]
  rfl

/-- The loop ends, after at most as many frames as its counter says. -/
lemma inputLoop_ends {chunk n : ℕ} {s₀ : State} {t : RxSys} {ds : List (ℕ × RxFrame)}
    (hlwip : lwip.Documented) (env : ℕ → Round) (h : Looping chunk s₀ t ds s)
    (hn : s.rxQcount.toNat = n) :
    ∃ ds' u, Looping chunk s₀ t ds' u ∧ ds'.length ≤ ds.length + n ∧
      ∀ fuel, n < fuel → inputLoop lwip env fuel s = some u := by
  induction n generalizing s ds with
  | zero =>
    have hzero : s.rxQcount = 0 := UInt32.toNat_inj.mp hn
    refine ⟨ds, { s with rxQcount := s.rxQcount - 1 }, h.counted, le_refl _, fun fuel hfuel => ?_⟩
    obtain ⟨fuel, rfl⟩ : ∃ f, fuel = f + 1 := ⟨fuel - 1, by omega⟩
    rw [inputLoop, if_pos hzero]
  | succ n ih =>
    have hne : s.rxQcount ≠ 0 := by
      rintro h0
      rw [h0] at hn
      cases hn
    have hlook : Looping chunk s₀ t ds (s.looks env) := h.counted.interrupts (env s.rounds)
    cases hf : (ethdmaRxsgcmplt (s.looks env).rx.drv rxpSize).1 with
    | none =>
      refine ⟨ds, s.looks env, hlook, Nat.le_add_right _ _, fun fuel hfuel => ?_⟩
      obtain ⟨fuel, rfl⟩ : ∃ f, fuel = f + 1 := ⟨fuel - 1, by omega⟩
      rw [inputLoop_succ lwip env fuel hne, hf]
    | some f =>
      obtain ⟨d, hnext⟩ := hlook.iteration hlwip hf (env s.rounds)
      have hcount : ((s.looks env).iteration lwip (env s.rounds) f).rxQcount.toNat = n := by
        have hdec : ((s.looks env).iteration lwip (env s.rounds) f).rxQcount = s.rxQcount - 1 :=
          (body_rest _ _ _ _ _).2.1
        have hlt := s.rxQcount.toNat_lt
        have hone : (1 : UInt32).toNat = 1 := rfl
        rw [hdec, UInt32.toNat_sub, hn]
        omega
      obtain ⟨ds', u, hu, hlen, hrun⟩ := ih hnext hcount
      refine ⟨ds', u, hu, ?_, fun fuel hfuel => ?_⟩
      · rw [List.length_append, List.length_singleton] at hlen
        omega
      · obtain ⟨fuel, rfl⟩ : ∃ f, fuel = f + 1 := ⟨fuel - 1, by omega⟩
        rw [inputLoop_succ lwip env fuel hne, hf]
        exact hrun fuel (Nat.lt_of_succ_lt_succ hfuel)

end EthInput

/-! ### The call -/

/-- What a call that started with the queue `t` has done: it has removed the frames `ds`. -/
structure Accounted (t : RxSys) (ds : List (ℕ × RxFrame)) (u : EthInput) : Prop where
  /-- The frames `ds` are those that the call has removed from the queue. -/
  delivered : u.rx.delivered = t.delivered ++ ds
  /-- No more frames are removed than were queued at the start. -/
  removed_le : ds.length ≤ (ethRxqcount t.drv).toNat
  /-- The frames removed are the oldest ones, each removed once. -/
  order : (u.rx.delivered.map Prod.fst).Pairwise (· < ·)
  /-- Each has the bytes it was received with. -/
  bytes : ∀ d ∈ ds, d.2.mem = u.rx.frame d.1
  /-- The frames offered are among those removed, in their order and with their bytes. -/
  offers : (offers u.calls).Sublist (ds.map fun d => (d.1, u.rx.frame d.1))
  /-- Each pbuf is passed on or freed, once. -/
  settled : ∀ p, Custody.Settled p (pbufs u.calls)
  /-- Each frame is taken over, or there was no pbuf for it, or it was refused. -/
  disposed : ∀ d ∈ ds, Disposed d u.calls
  /-- The journal says that a pbuf was missing just if one was. -/
  allocReport : "lwIP cant allocate the buffer for input packet" ∈ u.jrnl ↔
    ∃ i, .noPbuf i ∈ u.calls
  /-- The journal says that a frame was refused just if a pbuf was freed. -/
  inputReport : "lwIP input packet processing error" ∈ u.jrnl ↔ ∃ p, .free p ∈ u.calls

namespace EthInput

variable {chunk : ℕ} {s₀ : State} {t : RxSys} {ds : List (ℕ × RxFrame)} {s : EthInput}

lemma Looping.start (h : RxInv chunk s₀ none 0 t) (rxQcount : UInt32) (rxp : Frame) :
    Looping chunk s₀ t [] { rx := t, rxQcount, rxp } where
  inv := h
  delivered := (List.append_nil _).symm
  rounds := rfl
  handled := .nil
  flags := ⟨by simp, by simp⟩
  jrnl := rfl

lemma report_rest (s : EthInput) : s.report.rx = s.rx ∧ s.report.calls = s.calls := by
  simp only [report, jentry]
  split_ifs <;> exact ⟨rfl, rfl⟩

lemma report_jrnl (s : EthInput) : s.report.jrnl = s.jrnl ++
    ((if s.lwipInputError then ["lwIP input packet processing error"] else []) ++
      if s.lwipAllocError then ["lwIP cant allocate the buffer for input packet"] else []) := by
  rw [report]
  cases s.lwipInputError <;> cases halloc : s.lwipAllocError <;> simp [jentry, halloc]

lemma Looping.accounted (h : Looping chunk s₀ t ds s)
    (hle : ds.length ≤ (ethRxqcount t.drv).toNat) : Accounted t ds s.report := by
  obtain ⟨hrx, hcalls⟩ := report_rest s
  have hbytes : ∀ d ∈ ds, d.2.mem = s.rx.frame d.1 := fun d hd =>
    (h.inv.returned d (by rw [h.delivered]; exact List.mem_append_right _ hd)).1
  constructor
  · rw [hrx, h.delivered]
  · exact hle
  · rw [hrx]
    exact h.inv.ledger.taken_sorted
  · rw [hrx]
    exact hbytes
  · have hmap : (ds.map fun d => (d.1, s.rx.frame d.1)) = ds.map fun d => (d.1, d.2.mem) :=
      List.map_congr_left fun d hd => by rw [hbytes d hd]
    rw [hrx, hcalls, hmap]
    exact h.handled.offers_sublist
  · rw [hcalls]
    exact h.handled.settled
  · rw [hcalls]
    exact fun d hd => h.handled.disposed hd
  · rw [hcalls, ← h.flags.alloc, report_jrnl, h.jrnl]
    simp
  · rw [hcalls, ← h.flags.input, report_jrnl, h.jrnl]
    simp

end EthInput

/-- A call on any queue of the driver ends, whatever arrives and whatever the stack answers,
and accounts for every frame it has removed and every pbuf it has allocated. -/
theorem lwipEthInput_accounted {s₀ s₁ : State} {allocLen ioBuff : UInt32} {buf : ℕ}
    {evs : List RxEvent} (hstart : ethdmaRxsgcyclic s₀ allocLen ioBuff = .ok (some buf, s₁))
    (hten : allocLen.toNat / ioBuff.toNat = 10) {lwip : Lwip} (hlwip : lwip.Documented)
    (env : ℕ → Round) (netif : Option Netif) (rxp : Frame) :
    ∃ ds u, Accounted (run rxStep { drv := s₁ } evs) ds u ∧
      ∀ fuel, (ethRxqcount (run rxStep { drv := s₁ } evs).drv).toNat < fuel →
        lwipEthInput lwip env netif rxp (run rxStep { drv := s₁ } evs) fuel = some u := by
  have hstep : ∀ t e, RxInv ioBuff.toNat s₀ none 0 t → RxInv ioBuff.toNat s₀ none 0 (rxStep t e) :=
    fun _ e h => h.step e
  have hinv := run_invariant hstep (RxInv.start hstart hten) evs
  generalize run rxStep { drv := s₁ } evs = t at hinv
  have hout : Accounted t [] { rx := t, rxQcount := 0, rxp } :=
    (EthInput.Looping.start hinv 0 rxp).accounted (Nat.zero_le _)
  cases netif with
  | none => exact ⟨[], _, hout, fun _ _ => rfl⟩
  | some netif =>
    by_cases hdown : !netif.isUp || !netif.isLinkUp
    · refine ⟨[], _, hout, fun fuel _ => ?_⟩
      simp only [lwipEthInput, hdown, if_true]
    · obtain ⟨ds, u, hu, hlen, hrun⟩ :=
        EthInput.inputLoop_ends hlwip env (EthInput.Looping.start hinv (ethRxqcount t.drv) rxp) rfl
      refine ⟨ds, u.report, hu.accounted (by simpa using hlen), fun fuel hfuel => ?_⟩
      simp only [lwipEthInput, hdown]
      rw [hrun fuel hfuel]
      rfl

/-- A stack that has a pbuf only in the first iteration. -/
def oncePool : Lwip where
  pbufAlloc number length :=
    if number = 0 then some ⟨number, List.replicate length.toNat 0⟩ else none
  pbufTake p dataptr len :=
    if p.payload.length < len.toNat then p
    else { p with payload := dataptr.take len.toNat ++ p.payload.drop len.toNat }

lemma oncePool_documented : oncePool.Documented where
  alloc {number length p} h := by
    have hsome : (if number = 0 then some ⟨number, List.replicate length.toNat 0⟩ else none) =
      some p := h
    split_ifs at hsome
    cases hsome
    exact ⟨rfl, List.length_replicate⟩
  take {p dataptr len} hdata hfits := by
    have htake : oncePool.pbufTake p dataptr len =
        { p with payload := dataptr.take len.toNat ++ p.payload.drop len.toNat } :=
      if_neg (Nat.not_lt.mpr hfits)
    have hlength : (dataptr.take len.toNat).length = len.toNat := List.length_take_of_le hdata
    rw [htake]
    refine ⟨rfl, ?_, List.take_left' hlength⟩
    rw [List.length_append, hlength, List.length_drop]
    omega

/-- Two frames wait: the first is refused, and there is no pbuf for the second. -/
theorem lwipEthInput_accounted_failures :
    ∃ ds u, Accounted (run rxStep { drv := rxBoot } [.receive [1, 2], .receive [3]]) ds u ∧
      ∀ fuel, 2 < fuel →
        lwipEthInput oncePool (fun _ => ⟨[[4]], -1⟩) (some ⟨true, true⟩) []
          (run rxStep { drv := rxBoot } [.receive [1, 2], .receive [3]]) fuel = some u :=
  lwipEthInput_accounted rxBoot_eq (by decide) oncePool_documented _ _ _

end EvtDrivenOs.Ethernet
