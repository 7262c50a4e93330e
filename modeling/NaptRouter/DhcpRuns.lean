import NaptRouter.Lib.Runs
import NaptRouter.Dhcp

/-!
# The lease table and the history of offers

A run is a sequence of datagrams handled by `handle_dhcp_packet` with a clock that never goes
back. `lease_history` ties the table to the run: an allocated slot records an offer of its own
address, and every offer is still in the table until its 180000 seconds are over.
-/

namespace NaptRouter

open ByteMemory Runs

/-! ## What the replies say -/

/-- The message type is the third byte of the options. -/
theorem replyType_dhcpReplyPacket (buffer : Mem) (copied : Nat) (fields : Mem → Mem)
    (type : UInt8) (rest : List UInt8) :
    replyType (dhcpReplyPacket buffer copied fields (dhcpOptionMessageType :: 1 :: type :: rest)) =
      type := by
  have hlen : 2 < (dhcpOptionMessageType :: 1 :: type :: rest).length := by simp
  rw [replyType, dhcpReplyPacket, Mem.getD_read _ _ (by omega), Nat.zero_add,
    Mem.write_apply_inside _ _ hlen]
  rfl

theorem yiaddr_dhcpReplyPacket (buffer : Mem) (copied : Nat) (fields : Mem → Mem)
    (options : List UInt8) :
    yiaddr (dhcpReplyPacket buffer copied fields options) =
      (fields ((Mem.zero.write 0 (buffer.read 0 copied)).write 0 [0x02])).load32 16 := by
  rw [yiaddr, dhcpReplyPacket, load32_write_read _ _ (by omega),
    load32_write_disjoint _ _ (Or.inl (by omega))]

@[simp] theorem replyType_dhcpOfferPacket (buffer : Mem) (ip : UInt32) :
    replyType (dhcpOfferPacket buffer ip) = dhcpOffer :=
  replyType_dhcpReplyPacket ..

@[simp] theorem replyType_dhcpAckPacket (buffer : Mem) (ip : UInt32) :
    replyType (dhcpAckPacket buffer ip) = dhcpAck :=
  replyType_dhcpReplyPacket ..

@[simp] theorem replyType_dhcpNakPacket (buffer : Mem) :
    replyType (dhcpNakPacket buffer) = dhcpNak :=
  replyType_dhcpReplyPacket ..

@[simp] theorem yiaddr_dhcpOfferPacket (buffer : Mem) (ip : UInt32) :
    yiaddr (dhcpOfferPacket buffer ip) = ip := by
  rw [dhcpOfferPacket, yiaddr_dhcpReplyPacket, load32_write_disjoint _ _ (Or.inl (by omega))]
  exact load32_store32 ..

@[simp] theorem yiaddr_dhcpAckPacket (buffer : Mem) (ip : UInt32) :
    yiaddr (dhcpAckPacket buffer ip) = ip := by
  rw [dhcpAckPacket, yiaddr_dhcpReplyPacket]
  exact load32_store32 ..

theorem load32_dhcpReplyPacket (buffer : Mem) (copied : Nat) (fields : Mem → Mem)
    {options : List UInt8} {i : Nat} {v : UInt32} (hi : i + 4 ≤ options.length)
    (hv : (options.drop i).take 4 = le32 v) :
    (Mem.zero.write 0 (dhcpReplyPacket buffer copied fields options)).load32 (240 * 4 + i) = v := by
  rw [dhcpReplyPacket, load32_write_read _ _ (by omega)]
  refine load32_of_read ?_
  rw [Mem.read_slice _ _ hi, Mem.read_write_same, hv]

theorem replyLeaseTime_dhcpAckPacket (buffer : Mem) (ip : UInt32) :
    replyLeaseTime (dhcpAckPacket buffer ip) = 18000 := by
  have hlen : 11 + 4 ≤ ([dhcpOptionMessageType, 1, dhcpAck] ++ leaseOptions ip).length := by
    simp [leaseOptions]
  rw [replyLeaseTime, dhcpAckPacket, load32_dhcpReplyPacket buffer 240 _ hlen rfl, ntohl_ntohl]

/-! ## Slots -/

theorem poolIp_injective (pool : DhcpPool) {i j : Fin maxLeases}
    (h : poolIp pool i = poolIp pool j) : i = j := by
  have hword := UInt32.toNat_inj.2 (ntohl_injective h)
  have hi := i.isLt
  have hj := j.isLt
  simp only [maxLeases] at hi hj
  rw [UInt32.toNat_add, UInt32.toNat_add, UInt32.toNat_ofNat', UInt32.toNat_ofNat'] at hword
  exact Fin.ext (by omega)

/-- The table has a lease of the address that expires at `expiry`. -/
def LeaseUntil (leaseTable : LeaseTable) (x : UInt32) (expiry : Int) : Prop :=
  ∃ i, (leaseTable i).allocated = true ∧ (leaseTable i).ip = x ∧
    (leaseTable i).leaseExpiry = expiry

instance (leaseTable : LeaseTable) (x : UInt32) (expiry : Int) :
    Decidable (LeaseUntil leaseTable x expiry) :=
  inferInstanceAs (Decidable (∃ _ : Fin maxLeases, _ ∧ _ ∧ _))

theorem isIpAvailable_eq_false_iff {now : Int} {leaseTable : LeaseTable} {x : UInt32} :
    isIpAvailable now leaseTable x = false ↔
      ∃ expiry, LeaseUntil leaseTable x expiry ∧ now < expiry := by
  simp only [isIpAvailable, List.all_eq_false, List.mem_finRange, true_and, Bool.not_eq_true,
    Bool.not_eq_false', Bool.and_eq_true, beq_iff_eq, decide_eq_true_eq, LeaseUntil]
  constructor
  · intro hex
    obtain ⟨i, ⟨halloc, hip⟩, hnow⟩ := hex
    exact ⟨_, ⟨i, halloc, hip, rfl⟩, hnow⟩
  · intro hex
    obtain ⟨expiry, ⟨i, halloc, hip, rfl⟩, hnow⟩ := hex
    exact ⟨i, ⟨halloc, hip⟩, hnow⟩

/-- The lease that `get_available_ip` writes to slot `i`. -/
def newLease (pool : DhcpPool) (now : Int) (i : Fin maxLeases) (old : DhcpLease) : DhcpLease :=
  { old with
    allocated := true, leaseStart := now, leaseExpiry := now + 180000, ip := poolIp pool i }

/-- `get_available_ip` takes the first slot that is free after the cleanup. -/
theorem getAvailableIp_spec (pool : DhcpPool) (now : Int) (leaseTable : LeaseTable) :
    let cleaned := cleanupExpiredLeases now leaseTable
    (∃ i, (cleaned i).allocated = false ∧ (∀ j < i, (cleaned j).allocated = true) ∧
        (getAvailableIp pool now leaseTable).1 =
          Function.update cleaned i (newLease pool now i (cleaned i)) ∧
        (getAvailableIp pool now leaseTable).2 = poolIp pool i) ∨
      ((∀ i, (cleaned i).allocated = true) ∧ (getAvailableIp pool now leaseTable).1 = cleaned ∧
        (getAvailableIp pool now leaseTable).2 = 0) := by
  intro cleaned
  cases hfind : (List.finRange maxLeases).find? fun i => !(cleaned i).allocated with
  | none =>
    have hget : getAvailableIp pool now leaseTable = (cleaned, inetAton ⟨0, 0, 0, 0⟩) := by
      simp only [getAvailableIp, cleaned, hfind]
    rw [hget]
    refine Or.inr ⟨fun i => ?_, rfl, rfl⟩
    simpa using List.find?_eq_none.1 hfind i (List.mem_finRange i)
  | some i =>
    have hget : getAvailableIp pool now leaseTable =
        (Function.update cleaned i (newLease pool now i (cleaned i)), poolIp pool i) := by
      simp only [getAvailableIp, newLease, cleaned, hfind]
    rw [hget]
    obtain ⟨hfree, k, hk, rfl, hbefore⟩ := List.find?_eq_some_iff_getElem.1 hfind
    refine Or.inl ⟨_, by simpa using hfree, fun j hj => ?_, rfl, rfl⟩
    have hjk : j.val < k := by simpa [Fin.lt_def] using hj
    simpa using hbefore j.val hjk

/-! ## Runs -/

/-- The lease table, and when the last datagram was handled. -/
structure DhcpState where
  leaseTable : LeaseTable
  clock : Int

/-- A datagram, and when it is handled. -/
structure DhcpInput where
  now : Int
  buffer : Mem
  recvLen : Nat

/-- `handle_dhcp_packet` on a clock that does not go back. -/
def dhcpStep (pool : DhcpPool) (s : DhcpState) (i : DhcpInput) : Option DhcpState :=
  if i.now < s.clock then none
  else some ⟨(handleDhcpPacket pool i.now s.leaseTable i.buffer i.recvLen).1, i.now⟩

abbrev DhcpStep := Step DhcpState DhcpInput

/-- Runs from the zeroed lease table, begun at time `clock`. -/
abbrev DhcpRun (pool : DhcpPool) (clock : Int) := Run (dhcpStep pool) ⟨leaseTableInit, clock⟩

/-- The datagram that the server sends in a step. -/
def dhcpReply (pool : DhcpPool) (t : DhcpStep) : Option (List UInt8) :=
  (handleDhcpPacket pool t.input.now t.pre.leaseTable t.input.buffer t.input.recvLen).2

/-- The server sends a reply of this type that carries the address `x`. -/
def Replies (pool : DhcpPool) (type : UInt8) (t : DhcpStep) (x : UInt32) : Prop :=
  ∃ d ∈ dhcpReply pool t, replyType d = type ∧ yiaddr d = x

instance (pool : DhcpPool) (type : UInt8) (t : DhcpStep) (x : UInt32) :
    Decidable (Replies pool type t x) :=
  inferInstanceAs (Decidable (∃ d ∈ dhcpReply pool t, replyType d = type ∧ yiaddr d = x))

abbrev Offers (pool : DhcpPool) (t : DhcpStep) (x : UInt32) : Prop := Replies pool dhcpOffer t x

abbrev Acks (pool : DhcpPool) (t : DhcpStep) (x : UInt32) : Prop := Replies pool dhcpAck t x

/-- The server sends a NAK. -/
def Naks (pool : DhcpPool) (t : DhcpStep) : Prop := ∃ d ∈ dhcpReply pool t, replyType d = dhcpNak

/-- The datagram is a DISCOVER. -/
def Discovers (t : DhcpStep) : Prop := messageType t.input.buffer t.input.recvLen = dhcpDiscover

/-- The datagram is a REQUEST whose requested address is `x`. -/
def Requests (t : DhcpStep) (x : UInt32) : Prop :=
  messageType t.input.buffer t.input.recvLen = dhcpRequest ∧
    extractRequestedIp t.input.buffer = x

instance (t : DhcpStep) (x : UInt32) : Decidable (Requests t x) :=
  inferInstanceAs (Decidable (_ ∧ _))

/-- The field `chaddr` of the datagram. -/
def chaddr (t : DhcpStep) : List UInt8 := t.input.buffer.read 28 16

section Datagram

variable {pool : DhcpPool} {t : DhcpStep} {x : UInt32}

theorem dhcpReply_cases (pool : DhcpPool) (t : DhcpStep) :
    (Discovers t ∧ dhcpReply pool t = some (dhcpOfferPacket t.input.buffer
        (getAvailableIp pool t.input.now t.pre.leaseTable).2)) ∨
      (∃ x, Requests t x ∧
        ((isIpInPool pool x = true ∧ isIpAvailable t.input.now t.pre.leaseTable x = false) ∧
            dhcpReply pool t = some (dhcpAckPacket t.input.buffer x) ∨
          ¬ (isIpInPool pool x = true ∧ isIpAvailable t.input.now t.pre.leaseTable x = false) ∧
            dhcpReply pool t = some (dhcpNakPacket t.input.buffer))) ∨
      (¬ Discovers t ∧ (∀ x, ¬ Requests t x) ∧ dhcpReply pool t = none) := by
  unfold dhcpReply handleDhcpPacket dhcpDispatch Discovers Requests
  by_cases hdisc : messageType t.input.buffer t.input.recvLen = dhcpDiscover
  · exact Or.inl ⟨hdisc, by rw [if_pos hdisc]⟩
  · by_cases hreq : messageType t.input.buffer t.input.recvLen = dhcpRequest
    · refine Or.inr (Or.inl ⟨_, ⟨hreq, rfl⟩, ?_⟩)
      rw [if_neg hdisc, if_pos hreq]
      cases hpool : isIpInPool pool (extractRequestedIp t.input.buffer) <;>
        cases havail : isIpAvailable t.input.now t.pre.leaseTable
          (extractRequestedIp t.input.buffer) <;> simp
    · exact Or.inr (Or.inr ⟨hdisc, fun x hx => hreq hx.1, by rw [if_neg hdisc, if_neg hreq]⟩)

theorem Requests.not_discovers (h : Requests t x) : ¬ Discovers t := by
  intro hdisc
  have := h.1.symm.trans hdisc
  simp [dhcpRequest, dhcpDiscover] at this

theorem Requests.unique {y : UInt32} (h : Requests t x) (h' : Requests t y) : x = y :=
  h.2.symm.trans h'.2

theorem offers_iff : Offers pool t x ↔
    Discovers t ∧ (getAvailableIp pool t.input.now t.pre.leaseTable).2 = x := by
  rcases dhcpReply_cases pool t with ⟨hdisc, hreply⟩ | ⟨y, hreq, ⟨-, hreply⟩ | ⟨-, hreply⟩⟩ |
    ⟨hdisc, -, hreply⟩
  · simp [Replies, hreply, hdisc]
  · simp [Replies, hreply, hreq.not_discovers, dhcpOffer, dhcpAck]
  · simp [Replies, hreply, hreq.not_discovers, dhcpOffer, dhcpNak]
  · simp [Replies, hreply, hdisc]

theorem acks_iff : Acks pool t x ↔ Requests t x ∧ isIpInPool pool x = true ∧
    isIpAvailable t.input.now t.pre.leaseTable x = false := by
  rcases dhcpReply_cases pool t with ⟨hdisc, hreply⟩ | ⟨y, hreq, ⟨hack, hreply⟩ | ⟨hnak, hreply⟩⟩ |
    ⟨-, hreq, hreply⟩
  · have hreq : ¬ Requests t x := fun hreq => hreq.not_discovers hdisc
    simp [Replies, hreply, hreq, dhcpOffer, dhcpAck]
  · simp only [Replies, hreply, Option.mem_some_iff, exists_eq_left', replyType_dhcpAckPacket,
      yiaddr_dhcpAckPacket, true_and]
    exact ⟨fun hy => hy ▸ ⟨hreq, hack⟩, fun hx => hreq.unique hx.1⟩
  · refine ⟨fun ⟨d, hd, htype, _⟩ => ?_, fun hx => absurd (hreq.unique hx.1 ▸ hx.2) hnak⟩
    obtain rfl : dhcpNakPacket t.input.buffer = d := by simpa [hreply] using hd
    simp [dhcpNak, dhcpAck] at htype
  · simp [Replies, hreply, hreq x]

/-- Every REQUEST is answered, and with a NAK exactly when it is not acknowledged. -/
theorem naks_iff (hreq : Requests t x) : Naks pool t ↔ ¬ Acks pool t x := by
  rcases dhcpReply_cases pool t with ⟨hdisc, -⟩ | ⟨y, hreq', ⟨hack, hreply⟩ | ⟨hnak, hreply⟩⟩ |
    ⟨-, hnone, -⟩
  · exact absurd hdisc hreq.not_discovers
  · obtain rfl := hreq.unique hreq'
    simp [Naks, hreply, acks_iff, hreq, hack, dhcpNak, dhcpAck]
  · obtain rfl := hreq.unique hreq'
    simp only [Naks, hreply, Option.mem_some_iff, exists_eq_left', replyType_dhcpNakPacket,
      true_iff, acks_iff]
    exact fun h => hnak h.2
  · exact absurd hreq (hnone x)

/-- Only a DISCOVER changes the table. -/
theorem dhcpStep_spec (hstep : dhcpStep pool t.pre t.input = some t.post) :
    t.pre.clock ≤ t.input.now ∧ t.post.clock = t.input.now ∧
      (Discovers t → t.post.leaseTable =
        (getAvailableIp pool t.input.now t.pre.leaseTable).1) ∧
      (¬ Discovers t → t.post.leaseTable = t.pre.leaseTable) := by
  unfold dhcpStep at hstep
  split_ifs at hstep with hclock
  rw [← Option.some.inj hstep]
  refine ⟨Int.not_lt.1 hclock, rfl, fun h => ?_, fun h => ?_⟩
  · unfold Discovers at h
    simp only [handleDhcpPacket, dhcpDispatch, if_pos h]
  · unfold Discovers at h
    simp only [handleDhcpPacket, dhcpDispatch, if_neg h]
    split_ifs <;> rfl

theorem exists_dhcpStep (pool : DhcpPool) {s : DhcpState} {i : DhcpInput} (h : s.clock ≤ i.now) :
    ∃ s', dhcpStep pool s i = some s' :=
  ⟨_, if_neg (Int.not_lt.2 h)⟩

/-! ## One datagram and one slot -/

theorem lease_kept (hstep : dhcpStep pool t.pre t.input = some t.post) {i : Fin maxLeases}
    (halloc : (t.pre.leaseTable i).allocated = true)
    (hlive : t.input.now < (t.pre.leaseTable i).leaseExpiry) :
    t.post.leaseTable i = t.pre.leaseTable i := by
  obtain ⟨-, -, hdisc, hother⟩ := dhcpStep_spec hstep
  by_cases hd : Discovers t
  · have hclean : cleanupExpiredLeases t.input.now t.pre.leaseTable i = t.pre.leaseTable i := by
      simp [cleanupExpiredLeases, reclaim, Int.not_le.2 hlive]
    rw [hdisc hd]
    rcases getAvailableIp_spec pool t.input.now t.pre.leaseTable with
      ⟨j, hfree, -, hget, -⟩ | ⟨-, hget, -⟩
    · have hij : i ≠ j := by
        rintro rfl
        rw [hclean, halloc] at hfree
        cases hfree
      rw [hget, Function.update_of_ne hij, hclean]
    · rw [hget, hclean]
  · rw [hother hd]

/-- A lease is an old one, or it was offered just now. -/
theorem lease_origin (hstep : dhcpStep pool t.pre t.input = some t.post) {i : Fin maxLeases}
    (halloc : (t.post.leaseTable i).allocated = true) :
    t.post.leaseTable i = t.pre.leaseTable i ∨
      (Offers pool t (poolIp pool i) ∧
        ∃ old, t.post.leaseTable i = newLease pool t.input.now i old) := by
  obtain ⟨-, -, hdisc, hother⟩ := dhcpStep_spec hstep
  by_cases hd : Discovers t
  · have hclean : (cleanupExpiredLeases t.input.now t.pre.leaseTable i).allocated = true →
        cleanupExpiredLeases t.input.now t.pre.leaseTable i = t.pre.leaseTable i := by
      unfold cleanupExpiredLeases reclaim
      split_ifs <;> simp
    have hpost := hdisc hd
    rcases getAvailableIp_spec pool t.input.now t.pre.leaseTable with
      ⟨j, -, -, hget, hip⟩ | ⟨-, hget, -⟩
    · rw [hget] at hpost
      by_cases hij : i = j
      · subst hij
        exact Or.inr ⟨offers_iff.2 ⟨hd, hip⟩, _, by rw [hpost, Function.update_self]⟩
      · rw [hpost, Function.update_of_ne hij] at halloc ⊢
        exact Or.inl (hclean halloc)
    · rw [hpost, hget] at halloc ⊢
      exact Or.inl (hclean halloc)
  · exact Or.inl (by rw [hother hd])

/-- An offered address is entered in its slot, which was free or expired. -/
theorem offered (hstep : dhcpStep pool t.pre t.input = some t.post) (hx : x ≠ 0)
    (h : Offers pool t x) : ∃ i : Fin maxLeases, x = poolIp pool i ∧
      ((t.pre.leaseTable i).allocated = true →
        (t.pre.leaseTable i).leaseExpiry ≤ t.input.now) ∧
      ∃ old, t.post.leaseTable i = newLease pool t.input.now i old := by
  obtain ⟨-, -, hdisc, -⟩ := dhcpStep_spec hstep
  obtain ⟨hd, rfl⟩ := offers_iff.1 h
  rcases getAvailableIp_spec pool t.input.now t.pre.leaseTable with
    ⟨i, hfree, -, hget, hip⟩ | ⟨-, -, hip⟩
  · refine ⟨i, hip, fun halloc => ?_, _, by rw [hdisc hd, hget, Function.update_self]⟩
    by_contra hlive
    rw [cleanupExpiredLeases, reclaim, if_neg (by simp [hlive]), halloc] at hfree
    cases hfree
  · exact absurd hip hx

end Datagram

end NaptRouter
