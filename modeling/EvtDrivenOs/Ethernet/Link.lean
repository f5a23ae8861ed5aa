/-
The link service of the Ethernet interface, `eth_service` of `eth_service.c`, and
the PHY whose link it follows.

A tick of the service makes many steps: it looks at the link signal, reads the PHY,
writes the MAC and marks the network interface.  The link may change before each of
them.  A change raises the PHY's interrupt line, and the handler sets the signal.

The signal is cleared by `_xtemac_phylink`, which is called by the service itself,
but also by `_xtemac_trxenable`, whose callers learn nothing of what it has read.  So
a change is forgotten when it falls between the two calls of a link-up, or in front of
the one of a recovery.  Besides, the link bit of the PHY is latched low: after a link
failure it reads 0 once, even if the link is back.  `Undisturbed` excludes these cases,
and `ethService_agrees` proves that without them no change is forgotten.
-/
import EvtDrivenOs.Lib.Run
import EvtDrivenOs.Ethernet.Phy

namespace EvtDrivenOs.Ethernet

open EvtDrivenOs.Lib

/-! ### The devices -/

/-- The PHY: whether the link is up and negotiated, whether it has failed since the last
read of the status register, its interrupt sources and its speed indication. -/
structure Phy where
  up : Bool
  failed : Bool
  isr : BitVec 16
  scsr : BitVec 16
deriving DecidableEq, Repr

namespace Phy

/-- The basic mode status register; its link bit is latched low. -/
def bmsr (p : Phy) : BitVec 16 :=
  if p.up then if p.failed then 0x0020 else 0x0024 else 0

/-- The status register shows the link as it is. -/
def Fresh (p : Phy) : Prop := p.up = true → p.failed = false

instance (p : Phy) : Decidable p.Fresh := inferInstanceAs (Decidable (_ → _))

/-- The interrupt line; `_xtemac_phy` unmasks the two sources of the link signal. -/
def irqLine (p : Phy) : Bool := isrLinkSig p.isr

end Phy

/-- What `_xtemac_trxenable` and `_xtemac_trxdisable` write of the configuration words
of the MAC. -/
structure Xtemac where
  transmitEnable : Bool
  txHalfDuplex : Bool
  receiverEnable : Bool
  rxHalfDuplex : Bool
  macSpeed : BitVec 2
deriving DecidableEq, Repr

/-! ### The service -/

/-- `ethcon_status_u` -/
inductive EthconStatus
  | ethLinkup
  | ethLinkdown
deriving DecidableEq, Repr

/-- What `_xtemac_trxenable` and `_xtemac_trxdisable` are called for. -/
inductive Purpose
  | link
  | recover
deriving DecidableEq, Repr

/-- The next access of `_xtemac_phylink`. -/
inductive PhylinkAt
  | sample
  | clear (linksig : Bool)
  | bmsr
  | scsr
deriving DecidableEq, Repr

/-- The next step of a tick.  `_xtemac_phylink` is called for the service itself, or by
`_xtemac_trxenable`. -/
inductive TickAt
  | idle
  | poll
  | look
  | phylink (caller : Option Purpose) (pos : PhylinkAt)
  | enableSpeed (purpose : Purpose)
  | enableTx (purpose : Purpose)
  | enableRx (purpose : Purpose)
  | disableTx (purpose : Purpose)
  | disableRx (purpose : Purpose)
  | netifUp
  | netifDown
  | buserr
  | resetRx
  | resetTx
deriving DecidableEq, Repr

/-- The service with the devices.  `trxPhy` is the local of `_xtemac_trxenable`, `netif`
the link flag of the default interface if there is one. -/
structure Eth where
  phy : Phy
  linkSig : Bool
  linkReg : EthconStatus
  phylink : Phylink
  trxPhy : Phylink
  netif : Option Bool
  mac : Xtemac
  txbuserr : Bool
  rxbuserr : Bool
  jrnl : List String
  tick : TickAt
deriving DecidableEq, Repr

/-- The steps of the service and what happens in between: link changes, the handlers of
the PHY and of the DMA.  A tick goes on after its check of the pending signals only if
`pending`, and a local that is not initialised contains `stack`. -/
inductive EthEvent
  | linkDown
  | autonegCmplt (scsr : BitVec 16)
  | phyIrq
  | dmaIrq (txbuserr rxbuserr : Bool)
  | service (pending : Bool) (stack : Phylink)
deriving DecidableEq, Repr

section Step

variable (s : Eth)

/-- Where `_xtemac_phylink` leaves the link parameters. -/
def phylinkOut : Option Purpose → Phylink → Eth
  | none, lk => { s with phylink := lk }
  | some _, lk => { s with trxPhy := lk }

/-- `_xtemac_trxenable` is entered: its local is not initialised. -/
def trxenable (purpose : Purpose) (stack : Phylink) : Eth :=
  { s with trxPhy := stack, tick := .phylink (some purpose) .sample }

/-- `_xtemac_trxenable` returns. -/
def trxenabled : Purpose → Eth
  | .link => { s with tick := .netifUp }
  | .recover => { s with tick := .idle }

/-- `_xtemac_trxdisable` returns. -/
def trxdisabled : Purpose → Eth
  | .link => { s with tick := .netifDown }
  | .recover => { s with tick := .resetRx }

/-- `_xtemac_phylink` returns to its caller. -/
def phylinked (stack : Phylink) : Option Purpose → Bool → Eth
  | none, true => trxenable { s with linkReg := .ethLinkup } .link stack
  | none, false => { s with linkReg := .ethLinkdown, tick := .disableTx .link }
  | some purpose, true => { s with tick := .enableSpeed purpose }
  | some purpose, false => trxenabled s purpose

/-- The accesses of `_xtemac_phylink`. -/
def phylinkStep (stack : Phylink) (caller : Option Purpose) : PhylinkAt → Eth
  | .sample => { s with tick := .phylink caller (.clear s.linkSig) }
  | .clear linksig =>
    { s with linkSig := if linksig then false else s.linkSig, tick := .phylink caller .bmsr }
  | .bmsr =>
    let s' := { s with phy := { s.phy with failed := false } }
    if linkstatus s.phy.bmsr then { s' with tick := .phylink caller .scsr }
    else phylinked s' stack caller false
  | .scsr =>
    let lk := match caller with
      | none => s.phylink
      | some _ => s.trxPhy
    phylinked (phylinkOut s caller (phylinkOfScsr lk s.phy.scsr)) stack caller true

/-- The next step of the service; `rst` is the configuration of the MAC after a reset. -/
def serviceStep (rst : Xtemac) (pending : Bool) (stack : Phylink) : Eth :=
  match s.tick with
  | .idle => { s with tick := if pending then .poll else .idle }
  | .poll =>
    { s with tick := if s.linkSig || (s.txbuserr || s.rxbuserr) then .look else .idle }
  | .look => { s with tick := if s.linkSig then .phylink none .sample else .buserr }
  | .phylink caller pos => phylinkStep s stack caller pos
  | .enableSpeed purpose =>
    { s with
      mac := { s.mac with macSpeed := if s.trxPhy.speed = .speed10mbps then 0 else 1 }
      tick := .enableTx purpose }
  | .enableTx purpose =>
    { s with
      mac := { s.mac with
        transmitEnable := true, txHalfDuplex := s.trxPhy.link = .linkHalfDuplex }
      tick := .enableRx purpose }
  | .enableRx purpose =>
    trxenabled { s with
      mac := { s.mac with
        receiverEnable := true, rxHalfDuplex := s.trxPhy.link = .linkHalfDuplex } } purpose
  | .disableTx purpose =>
    { s with mac := { s.mac with transmitEnable := false }, tick := .disableRx purpose }
  | .disableRx purpose =>
    trxdisabled { s with mac := { s.mac with receiverEnable := false } } purpose
  | .netifUp => { s with netif := s.netif.map fun _ => true, tick := .buserr }
  | .netifDown => { s with netif := s.netif.map fun _ => false, tick := .buserr }
  | .buserr =>
    if s.rxbuserr || s.txbuserr then
      { s with jrnl := s.jrnl ++ ["eth DMA internal error!"], tick := .disableTx .recover }
    else { s with tick := .idle }
  | .resetRx =>
    { s with
      mac := { s.mac with
        receiverEnable := rst.receiverEnable, rxHalfDuplex := rst.rxHalfDuplex }
      tick := .resetTx }
  | .resetTx =>
    trxenable { s with
      mac := { s.mac with
        transmitEnable := rst.transmitEnable, txHalfDuplex := rst.txHalfDuplex } } .recover stack

/-- One event. -/
def ethStep (rst : Xtemac) : EthEvent → Eth
  | .linkDown =>
    { s with phy := { s.phy with up := false, failed := true, isr := s.phy.isr ||| 0x10 } }
  | .autonegCmplt scsr =>
    { s with phy := { s.phy with up := true, isr := s.phy.isr ||| 0x40, scsr := scsr } }
  | .phyIrq =>
    -- the read of the interrupt sources clears them
    if s.phy.irqLine then
      { s with linkSig := isrLinkSig s.phy.isr, phy := { s.phy with isr := 0 } }
    else s
  | .dmaIrq txbuserr rxbuserr => { s with txbuserr := txbuserr, rxbuserr := rxbuserr }
  | .service pending stack => serviceStep s rst pending stack

end Step

/-! ### Agreement -/

namespace Eth

variable (s : Eth)

/-- A change is signalled, or its interrupt is outstanding. -/
def Signalled : Prop := s.linkSig = true ∨ s.phy.irqLine = true

/-- `link_reg` is what the PHY's link is. -/
def Recorded : Prop := s.linkReg = .ethLinkup ↔ s.phy.up = true

instance : Decidable s.Signalled := inferInstanceAs (Decidable (_ ∨ _))

instance : Decidable s.Recorded := inferInstanceAs (Decidable (_ ↔ _))

/-- `link_reg`, the link flag of the interface and the enable bits of the MAC agree with
the PHY's link. -/
structure Agrees : Prop where
  linkReg : s.Recorded
  netif : ∀ up ∈ s.netif, up = s.phy.up
  transmit : s.mac.transmitEnable = s.phy.up
  receive : s.mac.receiverEnable = s.phy.up

instance : Decidable s.Agrees :=
  decidable_of_iff
    (s.Recorded ∧ (∀ up ∈ s.netif, up = s.phy.up) ∧ s.mac.transmitEnable = s.phy.up ∧
      s.mac.receiverEnable = s.phy.up)
    ⟨fun h => ⟨h.1, h.2.1, h.2.2.1, h.2.2.2⟩,
      fun h => ⟨h.linkReg, h.netif, h.transmit, h.receive⟩⟩

/-- The service is between two ticks, and has followed the link so far. -/
structure Started : Prop where
  idle : s.tick = .idle
  agrees : s.Agrees
  fresh : s.phy.Fresh

instance : Decidable s.Started :=
  decidable_of_iff (s.tick = .idle ∧ s.Agrees ∧ s.phy.Fresh)
    ⟨fun h => ⟨h.1, h.2.1, h.2.2⟩, fun h => ⟨h.idle, h.agrees, h.fresh⟩⟩

end Eth

/-- The steps that cannot forget a change.  The service does not read a link that has
failed and is back as down, `_xtemac_trxenable` does not clear the signal of a change that
`link_reg` lacks, and a recovery that finds no link leaves the MAC disabled.  Where the
change is signalled again, the next tick makes up for it. -/
def Undisturbed (rst : Xtemac) (s : Eth) : EthEvent → Prop
  | .service _ _ =>
    match s.tick with
    | .phylink none .bmsr => s.Signalled ∨ s.phy.Fresh
    | .phylink (some _) (.clear true) => s.phy.irqLine = true ∨ s.Recorded ∧ s.phy.Fresh
    | .phylink (some .recover) .bmsr =>
      s.Signalled ∨ linkstatus s.phy.bmsr = true ∨
        rst.transmitEnable = false ∧ rst.receiverEnable = false
    | _ => True
  | _ => True

instance (rst : Xtemac) (s : Eth) (e : EthEvent) : Decidable (Undisturbed rst s e) := by
  unfold Undisturbed
  split
  · split <;> infer_instance
  · infer_instance

/-! ### The invariant of a tick -/

/-- What a tick has brought about itself: the link flag of the interface follows
`link_reg` but for the steps of a link change, and the MAC is as the last steps left it. -/
def Own (rst : Xtemac) (s : Eth) : Prop :=
  let netifRecords := ∀ up ∈ s.netif, up = true ↔ s.linkReg = .ethLinkup
  match s.tick with
  | .phylink (some .link) _ | .enableSpeed .link | .enableTx .link | .netifUp =>
    s.linkReg = .ethLinkup
  | .enableRx .link => s.linkReg = .ethLinkup ∧ s.mac.transmitEnable = true
  | .disableTx .link => s.linkReg = .ethLinkdown
  | .disableRx .link => s.linkReg = .ethLinkdown ∧ s.mac.transmitEnable = false
  | .netifDown =>
    s.linkReg = .ethLinkdown ∧ s.mac.transmitEnable = false ∧ s.mac.receiverEnable = false
  | .resetTx => netifRecords ∧ s.mac.receiverEnable = rst.receiverEnable
  | .phylink (some .recover) _ =>
    netifRecords ∧ s.mac.receiverEnable = rst.receiverEnable ∧
      s.mac.transmitEnable = rst.transmitEnable
  | .enableRx .recover => netifRecords ∧ s.mac.transmitEnable = true
  | _ => netifRecords

/-- What a tick knows of the link unless a change is signalled. -/
def Current (s : Eth) : Prop :=
  match s.tick with
  | .phylink none .scsr | .phylink (some .link) _ | .enableSpeed .link | .enableTx .link
  | .enableRx .link => s.phy.up = true ∧ s.phy.failed = false
  | .phylink none _ => True
  | .netifUp =>
    s.phy.up = true ∧ s.phy.failed = false ∧ s.mac.transmitEnable = true ∧
      s.mac.receiverEnable = true
  | .disableTx .link | .disableRx .link | .netifDown => s.phy.up = false
  | .phylink (some .recover) .scsr | .enableSpeed .recover | .enableTx .recover
  | .enableRx .recover => s.Recorded ∧ s.phy.up = true ∧ s.phy.failed = false
  | .phylink (some .recover) _ | .disableTx .recover | .disableRx .recover | .resetRx
  | .resetTx => s.Recorded ∧ s.phy.Fresh
  | _ =>
    s.Recorded ∧ s.phy.Fresh ∧ s.mac.transmitEnable = s.phy.up ∧ s.mac.receiverEnable = s.phy.up

/-- What a step keeps if nothing disturbs it. -/
structure Inv (rst : Xtemac) (s : Eth) : Prop where
  own : Own rst s
  current : s.Signalled ∨ Current s

variable {rst : Xtemac} {s : Eth}

lemma linkstatus_bmsr (p : Phy) : linkstatus p.bmsr = (p.up && !p.failed) := by
  rw [Phy.bmsr]
  cases p.up <;> cases p.failed <;> decide

lemma Phy.Fresh.linkstatus_bmsr {p : Phy} (h : p.Fresh) : linkstatus p.bmsr = p.up := by
  rw [Ethernet.linkstatus_bmsr]
  cases hup : p.up
  · rfl
  · rw [h hup]; rfl

lemma isrLinkSig_or_linkdown (isr : BitVec 16) : isrLinkSig (isr ||| 0x10) = true := by
  simp [isrLinkSig, isrLinkdown]

lemma isrLinkSig_or_autonegCmplt (isr : BitVec 16) : isrLinkSig (isr ||| 0x40) = true := by
  simp [isrLinkSig, isrAutonegCmplt]

/-- Between two steps of the service only the devices change: the service's own data stay,
and a change of the link is signalled. -/
lemma Inv.environment (h : Inv rst s) {e : EthEvent} (he : ∀ p k, e ≠ .service p k) :
    Inv rst (ethStep s rst e) := by
  cases e with
  | linkDown => exact ⟨h.own, .inl (.inr (isrLinkSig_or_linkdown _))⟩
  | autonegCmplt scsr => exact ⟨h.own, .inl (.inr (isrLinkSig_or_autonegCmplt _))⟩
  | phyIrq =>
    rw [ethStep]
    split
    · next hline => exact ⟨h.own, .inl (.inl hline)⟩
    · exact h
  | dmaIrq tx rx => exact ⟨h.own, h.current⟩
  | service p k => exact absurd rfl (he p k)


/-- The steps of the service's own call of `_xtemac_phylink`. -/
lemma Inv.serviceLook {stack : Phylink} {pos : PhylinkAt} (h : Inv rst s)
    (ht : s.tick = .phylink none pos) (he : Undisturbed rst s (.service true stack)) :
    Inv rst (phylinkStep s stack none pos) := by
  obtain ⟨own, current⟩ := h
  simp only [Own, Current, Undisturbed, ht] at own current he
  cases pos with
  | sample => exact ⟨own, .inr trivial⟩
  | clear linksig => exact ⟨own, .inr trivial⟩
  | bmsr =>
    simp only [phylinkStep]
    split
    · next hup =>
      rw [linkstatus_bmsr, Bool.and_eq_true, Bool.not_eq_true'] at hup
      exact ⟨own, .inr ⟨hup.1, rfl⟩⟩
    · next hup =>
      refine ⟨rfl, he.imp id fun hf => ?_⟩
      rw [hf.linkstatus_bmsr, Bool.not_eq_true] at hup
      exact hup
  | scsr => exact ⟨rfl, current⟩

/-- The steps of the call of `_xtemac_phylink` in `_xtemac_trxenable`. -/
lemma Inv.trxenableLook {stack : Phylink} {purpose : Purpose} {pos : PhylinkAt} (h : Inv rst s)
    (ht : s.tick = .phylink (some purpose) pos)
    (he : Undisturbed rst s (.service true stack)) :
    Inv rst (phylinkStep s stack (some purpose) pos) := by
  obtain ⟨own, current⟩ := h
  simp only [Own, Current, Undisturbed, ht] at own current he
  cases purpose with
  | link =>
    cases pos with
    | sample => exact ⟨own, current⟩
    | clear linksig =>
      refine ⟨own, ?_⟩
      cases linksig with
      | false => exact current
      | true => exact he.imp .inr fun hf => ⟨hf.1.1 own, hf.2 (hf.1.1 own)⟩
    | bmsr =>
      simp only [phylinkStep]
      split
      · exact ⟨own, current.imp id fun hc => ⟨hc.1, rfl⟩⟩
      · next hup =>
        refine ⟨own, current.imp id fun hc => ?_⟩
        rw [linkstatus_bmsr, hc.1, hc.2] at hup
        exact absurd rfl hup
    | scsr => exact ⟨own, current⟩
  | recover =>
    cases pos with
    | sample => exact ⟨own, current⟩
    | clear linksig =>
      refine ⟨own, ?_⟩
      cases linksig with
      | false => exact current
      | true => exact he.imp .inr id
    | bmsr =>
      simp only [phylinkStep]
      split
      · next hup =>
        rw [linkstatus_bmsr, Bool.and_eq_true] at hup
        exact ⟨own, current.imp id fun hc => ⟨hc.1, hup.1, rfl⟩⟩
      · next hup =>
        refine ⟨own.1, ?_⟩
        rcases current with hsig | ⟨hrec, hfresh⟩
        · exact .inl hsig
        · -- the link is down, so the reset has to leave the MAC disabled
          rw [hfresh.linkstatus_bmsr, Bool.not_eq_true] at hup
          refine he.imp id fun hrst => ?_
          rw [hfresh.linkstatus_bmsr, hup] at hrst
          obtain ⟨htx, hrx⟩ := hrst.resolve_left Bool.false_ne_true
          exact ⟨hrec, fun _ => rfl, (own.2.2.trans htx).trans hup.symm,
            (own.2.1.trans hrx).trans hup.symm⟩
    | scsr => exact ⟨own.1, current⟩

/-- One step of the service, by what the tick does next. -/
lemma Inv.service {pending : Bool} {stack : Phylink} (h : Inv rst s)
    (he : Undisturbed rst s (.service pending stack)) :
    Inv rst (serviceStep s rst pending stack) := by
  have own := h.own
  have current := h.current
  rw [Own] at own
  rw [Current] at current
  rw [serviceStep]
  cases ht : s.tick <;> rw [ht] at own current
  -- the accesses to the PHY have lemmas of their own
  case phylink caller pos =>
    cases caller with
    | none => exact h.serviceLook ht he
    | some purpose => exact h.trxenableLook ht he
  case idle | poll =>
    dsimp only
    split
    · exact ⟨own, current⟩
    · exact ⟨own, current⟩
  case look =>
    dsimp only
    split
    · exact ⟨own, .inr trivial⟩
    · exact ⟨own, current⟩
  case enableSpeed purpose =>
    cases purpose with
    | link => exact ⟨own, current⟩
    | recover => exact ⟨own, current⟩
  case enableTx purpose =>
    cases purpose with
    | link => exact ⟨⟨own, rfl⟩, current⟩
    | recover => exact ⟨⟨own, rfl⟩, current⟩
  -- with the receiver both directions are as the link is
  case enableRx purpose =>
    cases purpose with
    | link => exact ⟨own.1, current.imp id fun hc => ⟨hc.1, hc.2, own.2, rfl⟩⟩
    | recover =>
      exact ⟨own.1, current.imp id fun hc =>
        ⟨hc.1, fun _ => hc.2.2, own.2.trans hc.2.1.symm, hc.2.1.symm⟩⟩
  case disableTx purpose =>
    cases purpose with
    | link => exact ⟨⟨own, rfl⟩, current⟩
    | recover => exact ⟨own, current⟩
  case disableRx purpose =>
    cases purpose with
    | link => exact ⟨⟨own.1, own.2, rfl⟩, current⟩
    | recover => exact ⟨own, current⟩
  case netifUp =>
    refine ⟨?_, current.imp id fun hc => ?_⟩
    · intro up hup
      obtain ⟨_, _, rfl⟩ := Option.map_eq_some_iff.1 hup
      exact iff_of_true rfl own
    · obtain ⟨hup, hfailed, htx, hrx⟩ := hc
      exact ⟨iff_of_true own hup, fun _ => hfailed, htx.trans hup.symm, hrx.trans hup.symm⟩
  case netifDown =>
    obtain ⟨hreg, htx, hrx⟩ := own
    have hdown : s.linkReg ≠ .ethLinkup := by rw [hreg]; decide
    refine ⟨?_, current.imp id fun hc => ?_⟩
    · intro up hup
      obtain ⟨_, _, rfl⟩ := Option.map_eq_some_iff.1 hup
      exact iff_of_false Bool.false_ne_true hdown
    · have hup : s.phy.up ≠ true := by rw [hc]; decide
      exact ⟨iff_of_false hdown hup, fun h => absurd h hup, htx.trans hc.symm, hrx.trans hc.symm⟩
  case buserr =>
    dsimp only
    split
    · exact ⟨own, current.imp id fun hc => ⟨hc.1, hc.2.1⟩⟩
    · exact ⟨own, current⟩
  case resetRx => exact ⟨⟨own, rfl⟩, current⟩
  case resetTx => exact ⟨⟨own.1, own.2, rfl⟩, current⟩

lemma Inv.step {e : EthEvent} (h : Inv rst s) (he : Undisturbed rst s e) :
    Inv rst (ethStep s rst e) := by
  cases e with
  | service pending stack => exact h.service he
  | linkDown => exact h.environment fun _ _ => EthEvent.noConfusion
  | autonegCmplt scsr => exact h.environment fun _ _ => EthEvent.noConfusion
  | phyIrq => exact h.environment fun _ _ => EthEvent.noConfusion
  | dmaIrq tx rx => exact h.environment fun _ _ => EthEvent.noConfusion

lemma Eth.Started.inv (h : s.Started) : Inv rst s := by
  constructor
  · rw [Own, h.idle]
    intro up hup
    rw [h.agrees.netif up hup]
    exact h.agrees.linkReg.symm
  · rw [Current, h.idle]
    exact .inr ⟨h.agrees.linkReg, h.fresh, h.agrees.transmit, h.agrees.receive⟩

/-- Between ticks, a link that is not signalled is the one the last tick has seen. -/
lemma Inv.agrees (h : Inv rst s) (ht : s.tick = .idle) (hsig : ¬ s.Signalled) : s.Agrees := by
  have own := h.own
  have current := h.current.resolve_left hsig
  rw [Own, ht] at own
  rw [Current, ht] at current
  obtain ⟨hrec, -, htx, hrx⟩ := current
  refine ⟨hrec, fun up hup => ?_, htx, hrx⟩
  have hiff : up = true ↔ s.phy.up = true := (own up hup).trans hrec
  exact Bool.eq_iff_iff.2 hiff

/-- **No link change is forgotten** in a run of link changes, interrupts and ticks whose
steps are all undisturbed.  Whenever the service is between two ticks and no change is
signalled, `link_reg`, the link flag of the interface and the enable bits of the MAC agree
with the PHY's link. -/
theorem ethService_agrees (rst : Xtemac) {s : Eth} (hs : s.Started) {evs : List EthEvent}
    (hevs : Admissible (fun s => ethStep s rst) (Undisturbed rst) s evs)
    (ht : (run (fun s => ethStep s rst) s evs).tick = .idle)
    (hsig : (run (fun s => ethStep s rst) s evs).linkSig = false)
    (hirq : (run (fun s => ethStep s rst) s evs).phy.irqLine = false) :
    (run (fun s => ethStep s rst) s evs).Agrees := by
  have hinv : Inv rst (run (fun s => ethStep s rst) s evs) :=
    hevs.invariant (fun _ _ h he => h.step he) hs.inv
  refine hinv.agrees ht ?_
  rintro (h | h)
  · exact Bool.noConfusion (hsig.symm.trans h)
  · exact Bool.noConfusion (hirq.symm.trans h)

/-- The MAC with both directions disabled. -/
def macOff : Xtemac := ⟨false, false, false, false, 0⟩

/-- No cable, nothing signalled, and an interface that is marked down. -/
def unplugged : Eth where
  phy := ⟨false, false, 0, 0⟩
  linkSig := false
  linkReg := .ethLinkdown
  phylink := ⟨.speed10mbps, .linkHalfDuplex⟩
  trxPhy := ⟨.speed10mbps, .linkHalfDuplex⟩
  netif := some false
  mac := macOff
  txbuserr := false
  rxbuserr := false
  jrnl := []
  tick := .idle

/-- `n` steps of the service. -/
def serviceSteps (n : ℕ) : List EthEvent :=
  List.replicate n (.service true ⟨.speed10mbps, .linkHalfDuplex⟩)

/-- A cable is plugged in, and a tick takes notice of the link. -/
theorem ethService_agrees_linkup :
    (run (fun s => ethStep s macOff) unplugged
      ([.autonegCmplt 0x0018, .phyIrq] ++ serviceSteps 16)).Agrees :=
  ethService_agrees macOff (by decide) (by decide) (by decide) (by decide) (by decide)

/-- The link comes up, and fails again between the two calls of `_xtemac_phylink`: the
second call clears the signal, and the interface stays marked up. -/
theorem ethService_forgets :
    let s := run (fun s => ethStep s macOff) unplugged
      ([.autonegCmplt 0x0018, .phyIrq] ++ serviceSteps 7 ++ [.linkDown, .phyIrq] ++
        serviceSteps 5)
    unplugged.Started ∧ s.tick = .idle ∧ s.linkSig = false ∧ s.phy.irqLine = false ∧
      s.phy.up = false ∧ s.linkReg = .ethLinkup ∧ s.netif = some true ∧ ¬ s.Agrees := by
  decide

end EvtDrivenOs.Ethernet
