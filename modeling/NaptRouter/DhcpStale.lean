import NaptRouter.DhcpReplies

/-!
# What earlier datagrams leave in the buffer

The DHCP server receives every datagram into one buffer, so that behind a short one there is what
earlier ones have left. With the leases as they are, `handle_dhcp_packet` does the same whatever
that is exactly when the message type is not decided by it, nor what becomes of a REQUEST, and a
REQUEST that is refused is long enough to fill a NAK (`oblivious_iff`).
-/

namespace NaptRouter

open ByteMemory OptionWalk

/-- The offset is in the buffer, but not in the datagram. -/
def Stale (recvLen i : Nat) : Prop := recvLen ≤ i ∧ i < dhcpBufferSize

instance (recvLen i : Nat) : Decidable (Stale recvLen i) := inferInstanceAs (Decidable (_ ∧ _))

/-- Two memories that differ in stale bytes only. -/
def SameButStale (recvLen : Nat) (m m' : Mem) : Prop := ∀ i, ¬ Stale recvLen i → m i = m' i

/-- With these leases, the datagram that `datagram` holds is handled alike in any two buffers. -/
def Oblivious (now : Int) (leaseTable : LeaseTable) (datagram : Mem) (recvLen : Nat) : Prop :=
  ∀ m m', AgreeTo recvLen datagram m → SameButStale recvLen m m' →
    handleDhcpPacket initDhcpPool now leaseTable m recvLen =
      handleDhcpPacket initDhcpPool now leaseTable m' recvLen

/-! ## Walks over a datagram -/

/-- Where a walk over the datagram stops: at END, at the option, or at a header that is not all
in the datagram. -/
def Leaves (datagram : Mem) (recvLen : Nat) (option : UInt8) (x : Nat) : Prop :=
  datagram x = dhcpEnd ∨ datagram x = option ∨ recvLen ≤ x + 1

section Walk

variable {datagram m m' : Mem} {recvLen limit p q : Nat} {option : UInt8}

/-- Up to there the walk is the same in every buffer with this datagram. -/
theorem comes_of_datagram (hagree : AgreeTo recvLen datagram m) (hlimit : recvLen ≤ limit)
    (h : Comes (tlvNext datagram) (Leaves datagram recvLen option) p q) :
    Comes (tlvNext m) (Halts m limit option) p q := by
  apply h.congr (lt_tlvNext datagram)
  · intro x _ _ hgo hhalt
    obtain ⟨hend, hopt, hlt⟩ : datagram x ≠ dhcpEnd ∧ datagram x ≠ option ∧ x + 1 < recvLen := by
      simpa [Leaves] using hgo
    rw [Halts, Ends, ← hagree x (by omega)] at hhalt
    rcases hhalt with (hend' | hle) | hopt'
    · exact hend hend'
    · omega
    · exact hopt hopt'
  · intro x _ _ hgo _
    have hlt : x + 1 < recvLen := Nat.lt_of_not_le fun hle => hgo (Or.inr (Or.inr hle))
    rw [tlvNext, tlvNext, hagree (x + 1) hlt]

theorem exists_leave (datagram : Mem) (recvLen : Nat) (option : UInt8) :
    ∃ q, Comes (tlvNext datagram) (Leaves datagram recvLen option) 240 q ∧
      Leaves datagram recvLen option q :=
  exists_stop (lt_tlvNext datagram)
    (fun x (hx : recvLen ≤ x) => Or.inr (Or.inr (Nat.le_succ_of_le hx))) 240

/-- **The search in a buffer with this datagram**: it finds the option where the walk over the
datagram stops for it, and nothing where that stops for END. -/
theorem findOption_of_datagram (hagree : AgreeTo recvLen datagram m) (hlimit : recvLen ≤ limit)
    (h : Comes (tlvNext datagram) (Leaves datagram recvLen option) 240 q) (hfin : option ≠ dhcpEnd)
    (hq : q < recvLen) :
    (datagram q = option → findOption m limit option = some q) ∧
      (datagram q = dhcpEnd → findOption m limit option = none) := by
  have hcomes := comes_of_datagram hagree hlimit h
  have hbyte := hagree q hq
  constructor
  · intro hopt
    rw [hbyte] at hopt
    have hend : ¬ Ends m limit q := not_ends_iff.2 ⟨hopt ▸ hfin, by omega⟩
    exact findOption_eq_some_iff.2 ⟨hcomes, hend, hopt⟩
  · intro hend
    rw [hbyte] at hend
    exact findOption_eq_none hcomes (Or.inl hend)

/-- A walk that leaves below the bound of the loop by one more hop. -/
theorem findOption_of_leave (hagree : AgreeTo recvLen datagram m) (hlimit : recvLen ≤ limit)
    (h : Comes (tlvNext datagram) (Leaves datagram recvLen option) 240 q)
    (hq : q < recvLen → datagram q ≠ option ∧ limit ≤ q + 2) (hge : recvLen ≤ q → limit ≤ q) :
    findOption m limit option = none := by
  have hcomes := comes_of_datagram hagree hlimit h
  rcases Nat.lt_or_ge q recvLen with hlt | hle
  · obtain ⟨hopt, hbound⟩ := hq hlt
    rw [hagree q hlt] at hopt
    by_cases hend : Ends m limit q
    · exact findOption_eq_none hcomes hend
    · have hnext : limit ≤ tlvNext m q := by
        rw [tlvNext]
        omega
      exact findOption_eq_none (hcomes.trans (.single (not_or.2 ⟨hend, hopt⟩))) (Or.inr hnext)
  · exact findOption_eq_none hcomes (Or.inr (hge hle))

end Walk

/-! ## When the buffer does not matter -/

/-- A REQUEST for this address is acknowledged. -/
def Honours (now : Int) (leaseTable : LeaseTable) (ip : UInt32) : Prop :=
  isIpInPool initDhcpPool ip = true ∧ isIpAvailable now leaseTable ip = false

instance (now : Int) (leaseTable : LeaseTable) (ip : UInt32) :
    Decidable (Honours now leaseTable ip) := inferInstanceAs (Decidable (_ ∧ _))

/-- The search for the requested address comes to a stale byte: to the type of an option, or to
the length of an option that ends the datagram. -/
def SearchStale (datagram : Mem) (recvLen q : Nat) : Prop :=
  Stale recvLen q ∨ q + 1 = recvLen ∧ datagram q ≠ dhcpEnd ∧
    datagram q ≠ dhcpOptionRequestedIp ∧ q + 2 < dhcpBufferSize

/-- There are bytes behind the datagram with which it asks for `ip`, and is a REQUEST. -/
def MayAskFor (datagram : Mem) (recvLen typeAt : Nat) (ip : UInt32) : Prop :=
  ∃ q, Comes (tlvNext datagram) (Leaves datagram recvLen dhcpOptionRequestedIp) 240 q ∧
    (SearchStale datagram recvLen q ∨ q < recvLen ∧ datagram q = dhcpOptionRequestedIp ∧
      ∃ m, AgreeTo recvLen datagram m ∧ m typeAt = dhcpRequest ∧ m.load32 (q + 2) = ip)

/-- The search finds an address in the datagram: no byte of it is stale. -/
def AsksFresh (datagram : Mem) (recvLen q : Nat) : Prop :=
  Comes (tlvNext datagram) (Leaves datagram recvLen dhcpOptionRequestedIp) 240 q ∧
    q < recvLen ∧ datagram q = dhcpOptionRequestedIp ∧ ∀ i < 4, ¬ Stale recvLen (q + 2 + i)

/-- A REQUEST is refused in any case, and as long as the part of it that a NAK copies; or it asks
for an address of its own, and is as long or acknowledged. -/
def RequestSettled (now : Int) (leaseTable : LeaseTable) (datagram : Mem)
    (recvLen typeAt : Nat) : Prop :=
  (240 * 4 ≤ recvLen ∧
    ∀ ip, MayAskFor datagram recvLen typeAt ip → ¬ Honours now leaseTable ip) ∨
  ∃ q, AsksFresh datagram recvLen q ∧
    (240 * 4 ≤ recvLen ∨ Honours now leaseTable (datagram.load32 (q + 2)))

/-- The datagram settles its own handling: its message type is not a stale byte, and what it asks
for, if it may be a REQUEST, is settled. -/
def Settled (now : Int) (leaseTable : LeaseTable) (datagram : Mem) (recvLen : Nat) : Prop :=
  ∀ p, Comes (tlvNext datagram) (Leaves datagram recvLen dhcpOptionMessageType) 240 p →
    p < recvLen → datagram p = dhcpOptionMessageType →
    ¬ Stale recvLen (p + 2) ∧ ((p + 2 < recvLen → datagram (p + 2) = dhcpRequest) →
      RequestSettled now leaseTable datagram recvLen (p + 2))

section Settles

variable {datagram m m' : Mem} {recvLen p q : Nat} {now : Int} {leaseTable : LeaseTable}

theorem SearchStale.leaves (h : SearchStale datagram recvLen q) :
    Leaves datagram recvLen dhcpOptionRequestedIp q := by
  rcases h with hstale | ⟨hlast, -⟩
  · exact Or.inr (Or.inr (Nat.le_succ_of_le hstale.1))
  · exact Or.inr (Or.inr hlast.ge)

theorem messageType_of_datagram (hagree : AgreeTo recvLen datagram m)
    (h : Comes (tlvNext datagram) (Leaves datagram recvLen dhcpOptionMessageType) 240 p)
    (hp : p < recvLen) (htype : datagram p = dhcpOptionMessageType) :
    messageType m recvLen = m (p + 2) := by
  rw [messageType, (findOption_of_datagram hagree le_rfl h (by decide) hp).1 htype]

theorem messageType_of_leave (hagree : AgreeTo recvLen datagram m)
    (h : Comes (tlvNext datagram) (Leaves datagram recvLen dhcpOptionMessageType) 240 p)
    (hleave : Leaves datagram recvLen dhcpOptionMessageType p)
    (hp : p < recvLen → datagram p ≠ dhcpOptionMessageType) : messageType m recvLen = 0 := by
  have hnone : findOption m recvLen dhcpOptionMessageType = none := by
    by_cases hend : p < recvLen ∧ datagram p = dhcpEnd
    · exact (findOption_of_datagram hagree le_rfl h (by decide) hend.1).2 hend.2
    · refine findOption_of_leave hagree le_rfl h (fun hlt => ⟨hp hlt, ?_⟩) id
      rcases hleave with hfin | htype | hle
      · exact absurd ⟨hlt, hfin⟩ hend
      · exact absurd htype (hp hlt)
      · omega
  rw [messageType, hnone]

theorem SameButStale.agreeTo (h : SameButStale recvLen m m') : AgreeTo recvLen m m' :=
  fun i hi => h i fun hstale => Nat.not_le.2 hi hstale.1

theorem extractRequestedIp_of_some
    (h : findOption m dhcpBufferSize dhcpOptionRequestedIp = some q) :
    extractRequestedIp m = m.load32 (q + 2) := by
  rw [extractRequestedIp, h]

theorem extractRequestedIp_of_none (h : findOption m dhcpBufferSize dhcpOptionRequestedIp = none) :
    extractRequestedIp m = 0 := by
  rw [extractRequestedIp, h]

theorem not_honours_zero : ¬ Honours now leaseTable 0 :=
  fun h => absurd h.1 (by decide)

section Asks

variable (hagree : AgreeTo recvLen datagram m) (hlen : recvLen ≤ dhcpBufferSize)
  (hwalk : Comes (tlvNext datagram) (Leaves datagram recvLen dhcpOptionRequestedIp) 240 q)

include hagree hlen hwalk

theorem extractRequestedIp_of_datagram (hq : q < recvLen)
    (hopt : datagram q = dhcpOptionRequestedIp) : extractRequestedIp m = m.load32 (q + 2) :=
  extractRequestedIp_of_some ((findOption_of_datagram hagree hlen hwalk (by decide) hq).1 hopt)

/-- The search ends without an address, whatever is behind the datagram. -/
theorem extractRequestedIp_of_leave (hleave : Leaves datagram recvLen dhcpOptionRequestedIp q)
    (hstale : ¬ SearchStale datagram recvLen q)
    (hopt : q < recvLen → datagram q ≠ dhcpOptionRequestedIp) : extractRequestedIp m = 0 := by
  apply extractRequestedIp_of_none
  obtain ⟨hfresh, hlast⟩ := not_or.1 hstale
  by_cases hfin : q < recvLen ∧ datagram q = dhcpEnd
  · exact (findOption_of_datagram hagree hlen hwalk (by decide) hfin.1).2 hfin.2
  · refine findOption_of_leave hagree hlen hwalk (fun hlt => ⟨hopt hlt, ?_⟩)
      fun hle => Nat.le_of_not_lt fun hlt => hfresh ⟨hle, hlt⟩
    have hend : datagram q ≠ dhcpEnd := fun hend => hfin ⟨hlt, hend⟩
    have hle : recvLen ≤ q + 1 := (hleave.resolve_left hend).resolve_left (hopt hlt)
    by_contra hin
    exact hlast ⟨by omega, hend, hopt hlt, Nat.lt_of_not_le hin⟩

end Asks

/-- An address of which no byte is stale is in the datagram, unless it is at the end of the
buffer. -/
theorem load32_datagram (hagree : AgreeTo recvLen datagram m)
    (hfresh : ∀ i < 4, ¬ Stale recvLen (q + 2 + i)) (hin : q + 6 ≤ dhcpBufferSize) :
    datagram.load32 (q + 2) = m.load32 (q + 2) := by
  apply load32_congr
  apply Mem.read_congr
  intro i hi
  exact hagree _ (Nat.lt_of_not_le fun hle => hfresh i hi ⟨hle, by omega⟩)

/-- What a REQUEST asks for, if anything, it may ask for. -/
theorem mayAskFor_extractRequestedIp (hagree : AgreeTo recvLen datagram m)
    (hlen : recvLen ≤ dhcpBufferSize) {typeAt : Nat} (htype : m typeAt = dhcpRequest) :
    extractRequestedIp m = 0 ∨ MayAskFor datagram recvLen typeAt (extractRequestedIp m) := by
  obtain ⟨q, hwalk, hleave⟩ := exists_leave datagram recvLen dhcpOptionRequestedIp
  by_cases hstale : SearchStale datagram recvLen q
  · exact Or.inr ⟨q, hwalk, Or.inl hstale⟩
  · by_cases hfound : q < recvLen ∧ datagram q = dhcpOptionRequestedIp
    · obtain ⟨hq, hopt⟩ := hfound
      have hip := extractRequestedIp_of_datagram hagree hlen hwalk hq hopt
      exact Or.inr ⟨q, hwalk, Or.inr ⟨hq, hopt, m, hagree, htype, hip.symm⟩⟩
    · exact Or.inl (extractRequestedIp_of_leave hagree hlen hwalk hleave hstale
        fun hlt hopt => hfound ⟨hlt, hopt⟩)

theorem refuses_iff {ip : UInt32} :
    (!isIpInPool initDhcpPool ip || isIpAvailable now leaseTable ip) = true ↔
      ¬ Honours now leaseTable ip := by
  rw [Honours, Bool.or_eq_true, Bool.not_eq_true', not_and_or, Bool.not_eq_true,
    Bool.not_eq_false]

/-- A dispatch that sees the same of both buffers, of which a NAK copies more than an ACK. -/
theorem dhcpDispatch_congr {messageType : UInt8} {ip ip' : UInt32}
    (hhead : messageType ≠ 0 → AgreeTo 240 m m')
    (hrequest : messageType = dhcpRequest →
      (ip = ip' ∧ (AgreeTo (240 * 4) m m' ∨ Honours now leaseTable ip)) ∨
        (AgreeTo (240 * 4) m m' ∧ ¬ Honours now leaseTable ip ∧ ¬ Honours now leaseTable ip')) :
    dhcpDispatch initDhcpPool now leaseTable m messageType ip =
      dhcpDispatch initDhcpPool now leaseTable m' messageType ip' := by
  have hreply (copied : Nat) (fields : Mem → Mem) (options : List UInt8)
      (hcopy : AgreeTo copied m m') :
      dhcpReplyPacket m copied fields options = dhcpReplyPacket m' copied fields options := by
    rw [dhcpReplyPacket, dhcpReplyPacket, hcopy.read (Nat.zero_add copied).le]
  rw [dhcpDispatch, dhcpDispatch]
  by_cases hdiscover : messageType = dhcpDiscover
  · have hoffer (offeredIp : UInt32) : dhcpOfferPacket m offeredIp = dhcpOfferPacket m' offeredIp :=
      hreply _ _ _ (hhead (by rw [hdiscover]; decide))
    simp only [if_pos hdiscover, hoffer]
  rw [if_neg hdiscover, if_neg hdiscover]
  by_cases htype : messageType = dhcpRequest
  · have hnak (hcopy : AgreeTo (240 * 4) m m') : dhcpNakPacket m = dhcpNakPacket m' :=
      hreply _ _ _ hcopy
    have hack (ip : UInt32) : dhcpAckPacket m ip = dhcpAckPacket m' ip :=
      hreply _ _ _ (hhead (by rw [htype]; decide))
    rw [if_pos htype, if_pos htype]
    rcases hrequest htype with ⟨rfl, hcopy | hhonours⟩ | ⟨hcopy, hrefused, hrefused'⟩
    · rw [hnak hcopy, hack]
    · rw [if_neg (refuses_iff.not.2 (not_not_intro hhonours)),
        if_neg (refuses_iff.not.2 (not_not_intro hhonours)), hack]
    · rw [if_pos (refuses_iff.2 hrefused), if_pos (refuses_iff.2 hrefused'), hnak hcopy]
  · rw [if_neg htype, if_neg htype]

/-- A settled datagram is handled alike whatever is behind it. -/
theorem Settled.oblivious (h : Settled now leaseTable datagram recvLen)
    (hlen : recvLen ≤ dhcpBufferSize) : Oblivious now leaseTable datagram recvLen := by
  intro m m' hagree hsame
  have hagree' : AgreeTo recvLen datagram m' :=
    fun i hi => (hagree i hi).trans (hsame.agreeTo i hi)
  obtain ⟨p, hcomes, hleave⟩ := exists_leave datagram recvLen dhcpOptionMessageType
  have hle : 240 ≤ p := hcomes.le (lt_tlvNext datagram)
  rw [handleDhcpPacket, handleDhcpPacket]
  by_cases hfound : p < recvLen ∧ datagram p = dhcpOptionMessageType
  · obtain ⟨hlt, htype⟩ := hfound
    obtain ⟨hfresh, hrequest⟩ := h p hcomes hlt htype
    have hbyte : m (p + 2) = m' (p + 2) := hsame _ hfresh
    rw [messageType_of_datagram hagree hcomes hlt htype,
      messageType_of_datagram hagree' hcomes hlt htype, ← hbyte]
    refine dhcpDispatch_congr (fun _ i hi => hsame.agreeTo i (by omega)) fun hvalue => ?_
    have hcopied (hlong : 240 * 4 ≤ recvLen) : AgreeTo (240 * 4) m m' :=
      fun i hi => hsame.agreeTo i (hi.trans_le hlong)
    rcases hrequest fun hin => (hagree _ hin).trans hvalue with
      ⟨hlong, hrefused⟩ | ⟨q, ⟨hwalk, hq, hopt, hvalues⟩, hcase⟩
    · -- Whatever it asks for is refused.
      have hnot {mem : Mem} (hmem : AgreeTo recvLen datagram mem)
          (htype : mem (p + 2) = dhcpRequest) :
          ¬ Honours now leaseTable (extractRequestedIp mem) := by
        rcases mayAskFor_extractRequestedIp hmem hlen htype with hzero | hasks
        · rw [hzero]
          exact not_honours_zero
        · exact hrefused _ hasks
      exact Or.inr ⟨hcopied hlong, hnot hagree hvalue, hnot hagree' (hbyte.symm.trans hvalue)⟩
    · have hload : m.load32 (q + 2) = m'.load32 (q + 2) :=
        load32_congr (Mem.read_congr fun i hi => hsame _ (hvalues i hi))
      rw [extractRequestedIp_of_datagram hagree hlen hwalk hq hopt,
        extractRequestedIp_of_datagram hagree' hlen hwalk hq hopt]
      refine Or.inl ⟨hload, ?_⟩
      by_cases hlong : 240 * 4 ≤ recvLen
      · exact Or.inl (hcopied hlong)
      · have hown : datagram.load32 (q + 2) = m.load32 (q + 2) :=
          load32_datagram hagree hvalues (by rw [dhcpBufferSize]; omega)
        exact Or.inr (hown ▸ hcase.resolve_left hlong)
  · have hnone : p < recvLen → datagram p ≠ dhcpOptionMessageType :=
      fun hlt htype => hfound ⟨hlt, htype⟩
    rw [messageType_of_leave hagree hcomes hleave hnone,
      messageType_of_leave hagree' hcomes hleave hnone]
    exact dhcpDispatch_congr (fun h => absurd rfl h) fun hvalue => absurd hvalue (by decide)

end Settles

/-! ## When it does -/

section Depends

variable {datagram m m' : Mem} {recvLen p q i : Nat} {b : UInt8} {now : Int}
  {leaseTable : LeaseTable}

theorem agreeTo_update (h : AgreeTo recvLen datagram m) (hi : recvLen ≤ i) (b : UInt8) :
    AgreeTo recvLen datagram (Function.update m i b) := by
  intro j hj
  rw [Function.update_of_ne (by omega), h j hj]

theorem sameButStale_update (hi : Stale recvLen i) (b : UInt8) :
    SameButStale recvLen m (Function.update m i b) := by
  intro j hj
  rw [Function.update_of_ne]
  rintro rfl
  exact hj hi

theorem add_one_ne_self (b : UInt8) : b + 1 ≠ b := by
  intro heq
  have hnat := congrArg UInt8.toNat heq
  have hbound : b.toNat < 256 := b.toNat_lt
  have hone : (1 : UInt8).toNat = 1 := rfl
  rw [UInt8.toNat_add] at hnat
  omega

theorem not_oblivious (hagree : AgreeTo recvLen datagram m) (hsame : SameButStale recvLen m m')
    (h : (handleDhcpPacket initDhcpPool now leaseTable m recvLen).2 ≠
      (handleDhcpPacket initDhcpPool now leaseTable m' recvLen).2) :
    ¬ Oblivious now leaseTable datagram recvLen :=
  fun hall => h (congrArg Prod.snd (hall m m' hagree hsame))

theorem handle_honoured (htype : messageType m recvLen = dhcpRequest)
    (h : Honours now leaseTable (extractRequestedIp m)) :
    (handleDhcpPacket initDhcpPool now leaseTable m recvLen).2 =
      some (dhcpAckPacket m (extractRequestedIp m)) := by
  have hdiscover : dhcpRequest ≠ dhcpDiscover := by decide
  rw [handleDhcpPacket, htype, dhcpDispatch, if_neg hdiscover, if_pos rfl,
    if_neg (refuses_iff.not.2 (not_not_intro h))]

theorem handle_refused (htype : messageType m recvLen = dhcpRequest)
    (h : ¬ Honours now leaseTable (extractRequestedIp m)) :
    (handleDhcpPacket initDhcpPool now leaseTable m recvLen).2 = some (dhcpNakPacket m) := by
  have hdiscover : dhcpRequest ≠ dhcpDiscover := by decide
  rw [handleDhcpPacket, htype, dhcpDispatch, if_neg hdiscover, if_pos rfl,
    if_pos (refuses_iff.2 h)]

theorem dhcpAckPacket_ne_nak (ip : UInt32) : dhcpAckPacket m ip ≠ dhcpNakPacket m' := by
  intro heq
  have hkind := congrArg replyType heq
  rw [replyType_dhcpAckPacket, replyType_dhcpNakPacket] at hkind
  exact absurd hkind (by decide)

/-- Two requests, of which one is acknowledged and the other asks for another address. -/
theorem not_oblivious_of_honoured (hagree : AgreeTo recvLen datagram m)
    (hsame : SameButStale recvLen m m') (htype : messageType m recvLen = dhcpRequest)
    (htype' : messageType m' recvLen = dhcpRequest)
    (hhonours : Honours now leaseTable (extractRequestedIp m))
    (hne : extractRequestedIp m ≠ extractRequestedIp m') :
    ¬ Oblivious now leaseTable datagram recvLen := by
  apply not_oblivious hagree hsame
  rw [handle_honoured htype hhonours]
  by_cases hother : Honours now leaseTable (extractRequestedIp m')
  · rw [handle_honoured htype' hother]
    intro heq
    have hip := congrArg yiaddr (Option.some.inj heq)
    rw [yiaddr_dhcpAckPacket, yiaddr_dhcpAckPacket] at hip
    exact hne hip
  · rw [handle_refused htype' hother]
    exact fun heq => dhcpAckPacket_ne_nak _ (Option.some.inj heq)

theorem comes_of_agreeTo {limit : Nat} {option : UInt8} (h : AgreeTo q m m')
    (hcomes : Comes (tlvNext m) (Halts m limit option) p q) :
    Comes (tlvNext m') (Halts m' limit option) p q := by
  apply hcomes.congr (lt_tlvNext m)
  · intro x _ hx
    rw [Halts, Halts, Ends, Ends, h x hx]
    exact id
  · intro x _ hx _ hle
    have hinside : x + 1 < q := by
      rw [tlvNext] at hle
      omega
    rw [tlvNext, tlvNext, h (x + 1) hinside]

/-- The memory with an option of this type and value. -/
def withOption (m : Mem) (q : Nat) (type : UInt8) (ip : UInt32) : Mem :=
  Function.update (m.store32 (q + 2) ip) q type

section WithOption

variable {type : UInt8} {ip : UInt32}

theorem withOption_self : withOption m q type ip q = type := Function.update_self ..

theorem withOption_of_ne {x : Nat} (hx : x ≠ q) :
    withOption m q type ip x = m.store32 (q + 2) ip x :=
  Function.update_of_ne hx type (m.store32 (q + 2) ip)

theorem withOption_of_lt {x : Nat} (hx : x < q + 2) (hxq : x ≠ q) :
    withOption m q type ip x = m x :=
  (withOption_of_ne hxq).trans (Mem.write_apply_of_lt _ _ hx)

theorem comes_withOption {limit : Nat} {option : UInt8}
    (h : Comes (tlvNext m) (Halts m limit option) p q) :
    Comes (tlvNext (withOption m q type ip)) (Halts (withOption m q type ip) limit option) p q :=
  comes_of_agreeTo (fun x hx => (withOption_of_lt (by omega) hx.ne).symm) h

theorem sameButStale_withOption {type' : UInt8} (hq : Stale recvLen q) :
    SameButStale recvLen (withOption m q type ip) (withOption m q type' ip) := by
  intro x hx
  have hxq : x ≠ q := by
    rintro rfl
    exact hx hq
  rw [withOption_of_ne hxq, withOption_of_ne hxq]

/-- The option is found, with its value; -/
theorem extractRequestedIp_withOption (hq : q < dhcpBufferSize)
    (h : Comes (tlvNext m) (Halts m dhcpBufferSize dhcpOptionRequestedIp) 240 q) :
    extractRequestedIp (withOption m q dhcpOptionRequestedIp ip) = ip := by
  have hopt : withOption m q dhcpOptionRequestedIp ip q = dhcpOptionRequestedIp := withOption_self
  have hend : ¬ Ends (withOption m q dhcpOptionRequestedIp ip) dhcpBufferSize q :=
    not_ends_iff.2 ⟨by rw [hopt]; decide, hq⟩
  rw [extractRequestedIp_of_some (findOption_eq_some_iff.2 ⟨comes_withOption h, hend, hopt⟩)]
  exact (load32_congr (Mem.read_congr fun j _ => withOption_of_ne (by omega))).trans
    (load32_store32 m (q + 2) ip)

/-- END is found instead. -/
theorem extractRequestedIp_withEnd
    (h : Comes (tlvNext m) (Halts m dhcpBufferSize dhcpOptionRequestedIp) 240 q) :
    extractRequestedIp (withOption m q dhcpEnd ip) = 0 :=
  extractRequestedIp_of_none (findOption_eq_none (comes_withOption h) (Or.inl withOption_self))

end WithOption

variable (hcomes : Comes (tlvNext datagram) (Leaves datagram recvLen dhcpOptionMessageType) 240 p)
  (hlt : p < recvLen) (htype : datagram p = dhcpOptionMessageType)

include hcomes hlt htype

theorem messageType_request (hagree : AgreeTo recvLen datagram m)
    (hbyte : m (p + 2) = dhcpRequest) : messageType m recvLen = dhcpRequest :=
  (messageType_of_datagram hagree hcomes hlt htype).trans hbyte

/-- A NAK copies bytes behind a short REQUEST. -/
theorem not_oblivious_of_refused (hagree : AgreeTo recvLen datagram m)
    (hbyte : m (p + 2) = dhcpRequest) (hfresh : ¬ Stale recvLen (p + 2))
    (hshort : recvLen < 240 * 4) (hrefused : ¬ Honours now leaseTable (extractRequestedIp m)) :
    ¬ Oblivious now leaseTable datagram recvLen := by
  have hle : 240 ≤ p := hcomes.le (lt_tlvNext datagram)
  have hstale : Stale recvLen recvLen := ⟨le_rfl, by rw [dhcpBufferSize]; omega⟩
  have hne : p + 2 ≠ recvLen := by
    intro heq
    rw [heq] at hfresh
    exact hfresh hstale
  let other : Mem := Function.update m recvLen (m recvLen + 1)
  have hother : AgreeTo recvLen datagram other := agreeTo_update hagree le_rfl _
  have hkeep : other (p + 2) = dhcpRequest := (Function.update_of_ne hne _ m).trans hbyte
  have hrequest := messageType_request hcomes hlt htype hother hkeep
  apply not_oblivious hagree (sameButStale_update hstale _)
  rw [handle_refused (messageType_request hcomes hlt htype hagree hbyte) hrefused]
  by_cases hhonours : Honours now leaseTable (extractRequestedIp other)
  · rw [handle_honoured hrequest hhonours]
    exact fun heq => dhcpAckPacket_ne_nak _ (Option.some.inj heq).symm
  · rw [handle_refused hrequest hhonours]
    intro heq
    have hbytes := congrFun (congrArg received (Option.some.inj heq)) recvLen
    rw [dhcpNakPacket_apply m (by omega) (by omega),
      dhcpNakPacket_apply other (by omega) (by omega)] at hbytes
    exact add_one_ne_self _ (hbytes.trans (Function.update_self ..)).symm

/-- The search for the address of a REQUEST comes to a stale byte: it may be END, or the option
with any address. -/
theorem not_oblivious_of_stale (hagree : AgreeTo recvLen datagram m)
    (hbyte : m (p + 2) = dhcpRequest) (hfresh : ¬ Stale recvLen (p + 2)) (hpq : p < q)
    (hq : Stale recvLen q)
    (hwalk : Comes (tlvNext m) (Halts m dhcpBufferSize dhcpOptionRequestedIp) 240 q)
    (hcase : recvLen < 240 * 4 ∨ ∃ ip, Honours now leaseTable ip) :
    ¬ Oblivious now leaseTable datagram recvLen := by
  have hne : p + 2 ≠ q := by
    rintro rfl
    exact hfresh hq
  have hagree' (ip : UInt32) (type : UInt8) :
      AgreeTo recvLen datagram (withOption m q type ip) := by
    intro x hx
    have hlt := hq.1
    rw [withOption_of_lt (by omega) (by omega), hagree x hx]
  have hbyte' (ip : UInt32) (type : UInt8) : withOption m q type ip (p + 2) = dhcpRequest :=
    (withOption_of_lt (by omega) hne).trans hbyte
  rcases hcase with hshort | ⟨ip, hhonours⟩
  · refine not_oblivious_of_refused hcomes hlt htype (hagree' 0 dhcpEnd) (hbyte' 0 dhcpEnd) hfresh
      hshort ?_
    rw [extractRequestedIp_withEnd hwalk]
    exact not_honours_zero
  · -- Found, the address is honoured; not found, there is none to honour.
    have hsome : extractRequestedIp (withOption m q dhcpOptionRequestedIp ip) = ip :=
      extractRequestedIp_withOption hq.2 hwalk
    have hsame : SameButStale recvLen (withOption m q dhcpOptionRequestedIp ip)
      (withOption m q dhcpEnd ip) := sameButStale_withOption hq
    refine not_oblivious_of_honoured (hagree' ip _) hsame
      (messageType_request hcomes hlt htype (hagree' ip _) (hbyte' ip _))
      (messageType_request hcomes hlt htype (hagree' ip _) (hbyte' ip _)) ?_ ?_
    · rwa [hsome]
    · rw [hsome, extractRequestedIp_withEnd hwalk]
      rintro rfl
      exact not_honours_zero hhonours

/-- A byte of an address that is acknowledged is stale. -/
theorem not_oblivious_of_value {j : Nat} (hlen : recvLen ≤ dhcpBufferSize)
    (hagree : AgreeTo recvLen datagram m) (hbyte : m (p + 2) = dhcpRequest)
    (hfresh : ¬ Stale recvLen (p + 2))
    (hwalk : Comes (tlvNext datagram) (Leaves datagram recvLen dhcpOptionRequestedIp) 240 q)
    (hq : q < recvLen) (hopt : datagram q = dhcpOptionRequestedIp) (hj : j < 4)
    (hstale : Stale recvLen (q + 2 + j))
    (hhonours : Honours now leaseTable (extractRequestedIp m)) :
    ¬ Oblivious now leaseTable datagram recvLen := by
  let other : Mem := Function.update m (q + 2 + j) (m (q + 2 + j) + 1)
  have hother : AgreeTo recvLen datagram other := agreeTo_update hagree hstale.1 _
  have hkeep : other (p + 2) = dhcpRequest := by
    have hne : p + 2 ≠ q + 2 + j := by
      intro heq
      rw [heq] at hfresh
      exact hfresh hstale
    exact (Function.update_of_ne hne _ m).trans hbyte
  refine not_oblivious_of_honoured hagree (sameButStale_update hstale _)
    (messageType_request hcomes hlt htype hagree hbyte)
    (messageType_request hcomes hlt htype hother hkeep) hhonours ?_
  rw [extractRequestedIp_of_datagram hagree hlen hwalk hq hopt,
    extractRequestedIp_of_datagram hother hlen hwalk hq hopt]
  intro heq
  have hsame : m (q + 2 + j) = other (q + 2 + j) := load32_inj heq j hj
  exact add_one_ne_self _ (hsame.trans (Function.update_self ..)).symm

/-- The same where the search comes to the stale length of the last option: with no value, the
next one is behind the datagram. -/
theorem not_oblivious_of_searchStale (hlen : recvLen ≤ dhcpBufferSize)
    (hagree : AgreeTo recvLen datagram m) (hbyte : m (p + 2) = dhcpRequest)
    (hfresh : ¬ Stale recvLen (p + 2))
    (hwalk : Comes (tlvNext datagram) (Leaves datagram recvLen dhcpOptionRequestedIp) 240 q)
    (hstale : SearchStale datagram recvLen q)
    (hcase : recvLen < 240 * 4 ∨ ∃ ip, Honours now leaseTable ip) :
    ¬ Oblivious now leaseTable datagram recvLen := by
  rcases hstale with hq | ⟨hlast, hfin, hopt, hin⟩
  · exact not_oblivious_of_stale hcomes hlt htype hagree hbyte hfresh (hlt.trans_le hq.1) hq
      (comes_of_datagram hagree hlen hwalk) hcase
  · let next : Mem := Function.update m recvLen 0
    have hnext : AgreeTo recvLen datagram next := agreeTo_update hagree le_rfl _
    have hstale : Stale recvLen (recvLen + 1) := ⟨Nat.le_succ recvLen, by omega⟩
    have hne : p + 2 ≠ recvLen := by
      intro heq
      rw [heq] at hfresh
      exact hfresh ⟨le_rfl, Nat.lt_of_succ_lt hstale.2⟩
    have hkeep : next (p + 2) = dhcpRequest := (Function.update_of_ne hne _ m).trans hbyte
    have hgo : ¬ Halts next dhcpBufferSize dhcpOptionRequestedIp q := by
      rw [Halts, Ends, ← hnext q (by omega)]
      exact not_or.2 ⟨not_or.2 ⟨hfin, by omega⟩, hopt⟩
    have hhop : tlvNext next q = recvLen + 1 := by
      rw [tlvNext, hlast, show next recvLen = 0 from Function.update_self .., ← hlast]
      rfl
    have hwalk' := (comes_of_datagram hnext hlen hwalk).trans (.single hgo)
    rw [hhop] at hwalk'
    exact not_oblivious_of_stale hcomes hlt htype hnext hkeep hfresh (Nat.lt_succ_of_lt hlt) hstale
      hwalk' hcase

omit htype in
/-- The message type is a stale byte: the datagram may be a DISCOVER, or nothing at all. -/
theorem Oblivious.typeFresh (h : Oblivious now leaseTable datagram recvLen)
    (htype : datagram p = dhcpOptionMessageType) : ¬ Stale recvLen (p + 2) := by
  intro hstale
  let kind (b : UInt8) : Mem := Function.update datagram (p + 2) b
  have hagree (b : UInt8) : AgreeTo recvLen datagram (kind b) :=
    agreeTo_update (fun _ _ => rfl) hstale.1 b
  have hkind (b : UInt8) : messageType (kind b) recvLen = b :=
    (messageType_of_datagram (hagree b) hcomes hlt htype).trans (Function.update_self ..)
  have hsame : SameButStale recvLen (kind dhcpDiscover) (kind 0) := by
    intro x hx
    have hxp : x ≠ p + 2 := by
      rintro rfl
      exact hx hstale
    exact (Function.update_of_ne hxp _ datagram).trans (Function.update_of_ne hxp 0 datagram).symm
  refine not_oblivious (hagree _) hsame ?_ h
  rw [handleDhcpPacket, handleDhcpPacket, hkind, hkind]
  exact Option.some_ne_none _

/-- What a REQUEST asks for is settled. -/
theorem Oblivious.requestSettled (h : Oblivious now leaseTable datagram recvLen)
    (hlen : recvLen ≤ dhcpBufferSize) (hagree : AgreeTo recvLen datagram m)
    (hbyte : m (p + 2) = dhcpRequest) (hfresh : ¬ Stale recvLen (p + 2)) :
    RequestSettled now leaseTable datagram recvLen (p + 2) := by
  obtain ⟨q, hwalk, hleave⟩ := exists_leave datagram recvLen dhcpOptionRequestedIp
  have hrefused {mem : Mem} (hmem : AgreeTo recvLen datagram mem)
      (hrequest : mem (p + 2) = dhcpRequest) (hshort : recvLen < 240 * 4) :
      Honours now leaseTable (extractRequestedIp mem) := by
    by_contra hnot
    exact not_oblivious_of_refused hcomes hlt htype hmem hrequest hfresh hshort hnot h
  have hsearch (hcase : recvLen < 240 * 4 ∨ ∃ ip, Honours now leaseTable ip) :
      ¬ SearchStale datagram recvLen q := fun hstale =>
    not_oblivious_of_searchStale hcomes hlt htype hlen hagree hbyte hfresh hwalk hstale hcase h
  have hvalue {mem : Mem} (hmem : AgreeTo recvLen datagram mem)
      (hrequest : mem (p + 2) = dhcpRequest) (hq : q < recvLen)
      (hopt : datagram q = dhcpOptionRequestedIp)
      (hhonours : Honours now leaseTable (extractRequestedIp mem)) :
      AsksFresh datagram recvLen q :=
    ⟨hwalk, hq, hopt, fun j hj hstale => not_oblivious_of_value hcomes hlt htype hlen hmem hrequest
      hfresh hwalk hq hopt hj hstale hhonours h⟩
  rcases Nat.lt_or_ge recvLen (240 * 4) with hshort | hlong
  · -- It is never refused, so the search finds the address in the datagram.
    have hhonours := hrefused hagree hbyte hshort
    have hfound : q < recvLen ∧ datagram q = dhcpOptionRequestedIp := by
      by_contra hnot
      rw [extractRequestedIp_of_leave hagree hlen hwalk hleave (hsearch (Or.inl hshort))
        fun hq hopt => hnot ⟨hq, hopt⟩] at hhonours
      exact not_honours_zero hhonours
    obtain ⟨hq, hopt⟩ := hfound
    have hasks := hvalue hagree hbyte hq hopt hhonours
    refine Or.inr ⟨q, hasks, Or.inr ?_⟩
    rw [extractRequestedIp_of_datagram hagree hlen hwalk hq hopt] at hhonours
    rwa [load32_datagram hagree hasks.2.2.2 (by rw [dhcpBufferSize]; omega)]
  · by_cases hrefuse : ∀ ip, MayAskFor datagram recvLen (p + 2) ip → ¬ Honours now leaseTable ip
    · exact Or.inl ⟨hlong, hrefuse⟩
    · simp only [not_forall, not_not] at hrefuse
      obtain ⟨ip, ⟨q', hwalk', hcase⟩, hhonours⟩ := hrefuse
      have hsame : ∀ hleave', q = q' := hwalk.unique hleave hwalk'
      rcases hcase with hstale | ⟨hq, hopt, mem, hmem, hrequest, rfl⟩
      · obtain rfl := hsame (hstale.leaves)
        exact absurd hstale (hsearch (Or.inr ⟨ip, hhonours⟩))
      · obtain rfl := hsame (Or.inr (Or.inl hopt))
        rw [← extractRequestedIp_of_datagram hmem hlen hwalk hq hopt] at hhonours
        exact Or.inr ⟨q, hvalue hmem hrequest hq hopt hhonours, Or.inl hlong⟩

end Depends

/-- **What is behind a datagram does not matter** exactly when it settles its own handling. -/
theorem oblivious_iff {datagram : Mem} {recvLen : Nat} (h : recvLen ≤ dhcpBufferSize) (now : Int)
    (leaseTable : LeaseTable) :
    Oblivious now leaseTable datagram recvLen ↔ Settled now leaseTable datagram recvLen := by
  constructor
  · intro hobl p hcomes hlt htype
    have hfresh := hobl.typeFresh hcomes hlt htype
    refine ⟨hfresh, fun hrequest => ?_⟩
    let request : Mem := Function.update datagram (p + 2) dhcpRequest
    have hbyte : request (p + 2) = dhcpRequest := Function.update_self ..
    have hagree : AgreeTo recvLen datagram request := by
      intro i hi
      rcases eq_or_ne i (p + 2) with rfl | hne
      · rw [hbyte, hrequest hi]
      · exact (Function.update_of_ne hne _ datagram).symm
    exact hobl.requestSettled hcomes hlt htype h hagree hbyte hfresh
  · intro hsettled
    exact hsettled.oblivious h

/-- A REQUEST of 250 bytes for `192.168.1.100`. -/
def shortRequest : Mem := Mem.zero.write 240 [53, 1, 3, 50, 4, 192, 168, 1, 100, 255]

/-- The first address of the pool is leased. -/
def firstLeased : LeaseTable := fun i =>
  if i.val = 0 then
    { leaseTableInit i with ip := initDhcpPool.poolStart, leaseExpiry := 1, allocated := true }
  else leaseTableInit i

/-- A short REQUEST that is acknowledged. -/
theorem oblivious_acknowledged : Oblivious 0 firstLeased shortRequest 250 := by
  apply (oblivious_iff (by decide) 0 firstLeased).2
  intro p hcomes _ _
  have htype : Leaves shortRequest 250 dhcpOptionMessageType 240 := Or.inr (Or.inl (by decide))
  obtain rfl : p = 240 := by
    cases hcomes with
    | here => rfl
    | step hgo _ => exact absurd htype hgo
  have hgo : ¬ Leaves shortRequest 250 dhcpOptionRequestedIp 240 := by
    rw [Leaves]
    decide
  have hwalk : Comes (tlvNext shortRequest) (Leaves shortRequest 250 dhcpOptionRequestedIp)
      240 243 := .single hgo
  refine ⟨by decide, fun _ => Or.inr ⟨243, ⟨hwalk, by decide, by decide, by decide⟩, Or.inr ?_⟩⟩
  decide +kernel

/-- The NAK to a REQUEST of 244 bytes discloses a byte behind it. -/
theorem oblivious_fails :
    AgreeTo 244 (Mem.zero.write 240 [53, 1, 3, 255])
        ((Mem.zero.write 240 [53, 1, 3, 255]).write 300 [77]) ∧
      SameButStale 244 (Mem.zero.write 240 [53, 1, 3, 255])
        ((Mem.zero.write 240 [53, 1, 3, 255]).write 300 [77]) ∧
      (handleDhcpPacket initDhcpPool 0 leaseTableInit (Mem.zero.write 240 [53, 1, 3, 255]) 244).2 ≠
        (handleDhcpPacket initDhcpPool 0 leaseTableInit
          ((Mem.zero.write 240 [53, 1, 3, 255]).write 300 [77]) 244).2 := by
  have hless {i : Nat} (hi : i < 300) : Mem.zero.write 240 [53, 1, 3, 255] i =
      (Mem.zero.write 240 [53, 1, 3, 255]).write 300 [77] i :=
    (Mem.write_apply_of_lt _ _ hi).symm
  have hrefused {mem : Mem} (hmem : messageType mem 244 = dhcpRequest) :
      (handleDhcpPacket initDhcpPool 0 leaseTableInit mem 244).2 = some (dhcpNakPacket mem) :=
    handleDhcpPacket_refused hmem
  refine ⟨fun i hi => hless (by omega), fun i hi => ?_, ?_⟩
  · rcases Nat.lt_or_ge i 300 with hlt | hge
    · exact hless hlt
    · have hout : 300 + [(77 : UInt8)].length ≤ i := by
        by_contra hin
        exact hi ⟨by omega, Nat.lt_of_not_le fun hle => hin (le_trans (by decide) hle)⟩
      exact (Mem.write_apply_of_ge _ _ hout).symm
  · rw [hrefused (by decide +kernel), hrefused (by decide +kernel)]
    intro heq
    have hbytes := congrFun (congrArg received (Option.some.inj heq)) 300
    rw [dhcpNakPacket_apply _ (by decide) (by decide),
      dhcpNakPacket_apply _ (by decide) (by decide)] at hbytes
    exact absurd hbytes (by decide)

end NaptRouter
