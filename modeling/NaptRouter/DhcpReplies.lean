import NaptRouter.DhcpOptions
import NaptRouter.DhcpRuns

/-!
# What the replies say

A reply is read as a client reads it: the options start at 240, pads are skipped. The server puts
its own options at `240 * 4`, behind a gap.

* `replies_convey` — an OFFER and an ACK leave the gap empty, and say what was meant.
* `nak_seen_iff` — a NAK fills the gap with the client's own options. It is read as a NAK exactly
  when the readers come through them unharmed.
-/

namespace NaptRouter

open ByteMemory OptionWalk

/-- A datagram in the buffer of the one who gets it. -/
def received (packet : List UInt8) : Mem := Mem.zero.write 0 packet

/-! ## The frame of a reply -/

section Frame

variable {buffer : Mem} {copied : Nat} {fields : Mem → Mem} {options : List UInt8} {i : Nat}

theorem length_dhcpReplyPacket :
    (dhcpReplyPacket buffer copied fields options).length = 240 * 4 + options.length :=
  Mem.length_read ..

/-- The options of the server stand where it has put them. -/
theorem holds_dhcpReplyPacket :
    Holds (received (dhcpReplyPacket buffer copied fields options)) (240 * 4) options := by
  rw [Holds]
  have hread : (received (dhcpReplyPacket buffer copied fields options)).read (240 * 4)
      options.length = Mem.read _ (240 * 4) options.length :=
    Mem.read_congr fun j hj => Mem.write_read_apply _ _ (by omega)
  rw [hread, Mem.read_write_same]

theorem dhcpReplyPacket_apply (hi : i < 240 * 4) :
    received (dhcpReplyPacket buffer copied fields options) i =
      fields ((Mem.zero.write 0 (buffer.read 0 copied)).write 0 [0x02]) i := by
  apply (Mem.write_read_apply _ _ (by omega)).trans
  exact Mem.write_apply_of_lt _ _ hi

theorem copied_apply (hpos : 0 < i) (hi : i < copied) :
    (Mem.zero.write 0 (buffer.read 0 copied)).write 0 [0x02] i = buffer i := by
  rw [Mem.write_apply_of_ge _ _ (by simpa using Nat.succ_le_of_lt hpos),
    Mem.write_read_apply _ _ hi]

theorem uncopied_apply (hpos : 0 < i) (hi : copied ≤ i) :
    (Mem.zero.write 0 (buffer.read 0 copied)).write 0 [0x02] i = 0 := by
  rw [Mem.write_apply_of_ge _ _ (by simpa using Nat.succ_le_of_lt hpos),
    Mem.write_apply_of_ge _ _ (by rwa [Mem.length_read, Nat.zero_add]), Mem.zero_apply]

end Frame

/-! ## Offers and acknowledgements -/

/-- The options that an OFFER and an ACK are meant to have. -/
def leaseValues (messageType : UInt8) (ip : UInt32) : List (UInt8 × List UInt8) :=
  [(dhcpOptionMessageType, [messageType]), (dhcpOptionRequestedIp, le32 ip),
    (dhcpOptionLeaseTime, le32 (ntohl 18000)),
    (dhcpOptionSubnetMask, le32 (inetAton ⟨255, 255, 255, 0⟩)),
    (dhcpOptionRouter, le32 (inetAton ⟨192, 168, 1, 1⟩)),
    (dhcpOptionDns, le32 (inetAton ⟨8, 8, 8, 8⟩))]

/-- The reply says that `ip` is offered or leased to the client that has sent the request. -/
structure Conveys (request : Mem) (messageType : UInt8) (ip : UInt32) (reply : List UInt8) :
    Prop where
  fits : reply.length ≤ dhcpBufferSize
  op : received reply 0 = 2
  xid : (received reply).read 4 4 = request.read 4 4
  chaddr : (received reply).read 28 16 = request.read 28 16
  cookie : (received reply).read 236 4 = request.read 236 4
  address : yiaddr reply = ip
  /-- As `dhcp.c` reads options, and as one who skips pads does. -/
  yields : ∀ reader, Reader reader →
    options (reader (received reply)) (received reply) reply.length 240 =
      leaseValues messageType ip
  /-- The readers stop at the last byte sent, which is END. -/
  ends : ∀ reader, Reader reader →
    Comes (reader (received reply)) (Ends (received reply) reply.length) 240 (reply.length - 1)
  last : received reply (reply.length - 1) = dhcpEnd

section Lease

variable {fields : Mem → Mem} {request : Mem} {messageType : UInt8} {ip : UInt32}

/-- The options as items. -/
def leaseItems (messageType : UInt8) (ip : UInt32) : List Item :=
  (leaseValues messageType ip).map fun o => .opt o.1 o.2

theorem wellFormed_leaseItems : ∀ item ∈ leaseItems messageType ip, item.WellFormed := by
  have hone : ∀ o ∈ leaseValues messageType ip, o.1 ≠ 0 ∧ o.1 ≠ 255 ∧ o.2.length < 256 := by
    simp only [leaseValues, List.forall_mem_cons, length_le32, List.length_singleton]
    decide
  intro item hitem
  obtain ⟨o, ho, rfl⟩ := List.mem_map.1 hitem
  exact hone o ho

theorem pairedPads_leaseItems : PairedPads (leaseItems messageType ip) :=
  .opt _ _ (.opt _ _ (.opt _ _ (.opt _ _ (.opt _ _ (.opt _ _ .nil)))))

/-- An OFFER and an ACK differ in their type and in the fields they fill in, which are in front of
`chaddr`. -/
theorem conveys_dhcpReplyPacket {reply : List UInt8}
    (hreply : reply = dhcpReplyPacket request 240 fields
      ([dhcpOptionMessageType, 1, messageType] ++ leaseOptions ip))
    (hfields : ∀ m i, i < 16 ∨ 28 ≤ i → fields m i = m i) (hip : yiaddr reply = ip) :
    Conveys request messageType ip reply := by
  have hlen : (encode (leaseItems messageType ip)).length = 33 := rfl
  have hlength : reply.length = 994 := hreply ▸ length_dhcpReplyPacket
  have hlast : 240 + (2 * 360 + (encode (leaseItems messageType ip)).length) =
      reply.length - 1 := by rw [hlength, hlen]
  have hholds : Holds (received reply) (240 * 4) (encode (leaseItems messageType ip) ++ [255]) :=
    hreply ▸ holds_dhcpReplyPacket
  have happly {i : Nat} (hi : i < 240 * 4) (hframe : i < 16 ∨ 28 ≤ i) :
      received reply i = (Mem.zero.write 0 (request.read 0 240)).write 0 [0x02] i := by
    rw [hreply, dhcpReplyPacket_apply hi, hfields _ _ hframe]
  have hcopied {off n : Nat} (hpos : 0 < off) (hoff : off + n ≤ 16 ∨ 28 ≤ off)
      (hle : off + n ≤ 240) : (received reply).read off n = request.read off n := by
    apply Mem.read_congr
    intro i hi
    rw [happly (by omega) (by omega), copied_apply (by omega) (by omega)]
  have hgap (i : Nat) (hi : i < 2 * 360) : received reply (240 + i) = 0 := by
    rw [happly (by omega) (by omega), uncopied_apply (by omega) (by omega)]
  have hwalk (reader : Mem → Nat → Nat) (hreader : Reader reader) :=
    gap_encode hreader pairedPads_leaseItems wellFormed_leaseItems hgap hholds
      (hlast.trans_le (Nat.sub_le reply.length 1))
  exact {
    fits := by rw [hlength]; decide
    op := by
      rw [happly (by omega) (by omega)]
      exact Mem.write_apply_singleton _ 0 _
    xid := hcopied (by omega) (by omega) (by omega)
    chaddr := hcopied (by omega) (by omega) (by omega)
    cookie := hcopied (by omega) (by omega) (by omega)
    address := hip
    yields := fun reader hreader => (hwalk reader hreader).2
    ends := fun reader hreader => hlast ▸ (hwalk reader hreader).1
    last := by
      rw [hlength]
      exact (holds_cons.1 (holds_append.1 hholds).2).1 }

end Lease

/-- **An OFFER and an ACK say what was meant**, whatever the request is. -/
theorem replies_convey (request : Mem) (ip : UInt32) :
    Conveys request dhcpOffer ip (dhcpOfferPacket request ip) ∧
      Conveys request dhcpAck ip (dhcpAckPacket request ip) := by
  constructor
  · refine conveys_dhcpReplyPacket rfl (fun m i hi => ?_) (yiaddr_dhcpOfferPacket request ip)
    rcases hi with hi | hi
    · rw [Mem.write_apply_of_lt _ _ (by omega), Mem.write_apply_of_lt _ _ hi]
    · rw [Mem.write_apply_of_ge _ _ (by simpa using hi),
        Mem.write_apply_of_ge _ _ (by simp; omega)]
  · refine conveys_dhcpReplyPacket rfl (fun m i hi => ?_) (yiaddr_dhcpAckPacket request ip)
    rcases hi with hi | hi
    · rw [Mem.write_apply_of_lt _ _ hi]
    · rw [Mem.write_apply_of_ge _ _ (by simp; omega)]

/-! ## Refusals -/

/-- A reader comes from `p` to `q` without meeting END or a message type. -/
def Passes (reader : Mem → Nat → Nat) (m : Mem) (p q : Nat) : Prop :=
  Comes (reader m) (fun x => m x = dhcpEnd ∨ m x = dhcpOptionMessageType) p q

/-- The client's own options say NAK to a reader: he meets a message type with this value, and
then neither another message type nor the options of the server. -/
def SaysNak (reader : Mem → Nat → Nat) (request : Mem) : Prop :=
  ∃ x, Passes reader request 240 x ∧ x + 3 ≤ 240 * 4 ∧
    Holds request x [dhcpOptionMessageType, 1, dhcpNak] ∧
    ∀ e ≤ 240 * 4, Passes reader request (x + 3) e →
      e ≠ 240 * 4 ∧ request e ≠ dhcpOptionMessageType

/-- The message types that a reader finds in a reply. -/
def messageTypes (reader : Mem → Nat → Nat) (reply : List UInt8) : List (UInt8 × List UInt8) :=
  (options (reader (received reply)) (received reply) reply.length 240).filter
    (·.1 = dhcpOptionMessageType)

/-- The client that has sent the request sees a NAK. -/
structure NakSeen (request : Mem) (reply : List UInt8) : Prop where
  xid : (received reply).read 4 4 = request.read 4 4
  chaddr : (received reply).read 28 16 = request.read 28 16
  seen : ∀ reader, Reader reader →
    messageTypes reader reply = [(dhcpOptionMessageType, [dhcpNak])]

section Nak

variable {buffer : Mem} {reader : Mem → Nat → Nat} {p q : Nat}

theorem dhcpNakPacket_apply (buffer : Mem) {i : Nat} (hpos : 0 < i) (hi : i < 240 * 4) :
    received (dhcpNakPacket buffer) i = buffer i := by
  rw [dhcpNakPacket, dhcpReplyPacket_apply hi, id, copied_apply hpos hi]

theorem length_dhcpNakPacket : (dhcpNakPacket buffer).length = 964 := length_dhcpReplyPacket

theorem holds_dhcpNakPacket : Holds (received (dhcpNakPacket buffer)) (240 * 4)
    (encode [.opt dhcpOptionMessageType [dhcpNak]] ++ [255]) := holds_dhcpReplyPacket

/-- Up to the options of the server, a reader of the reply is a reader of the request. -/
theorem passes_iff (hreader : Reader reader) (hp : 0 < p) (hq : q ≤ 240 * 4) :
    Passes reader (received (dhcpNakPacket buffer)) p q ↔ Passes reader buffer p q := by
  have hbyte {x : Nat} (hpx : p ≤ x) (hx : x < q) :
      received (dhcpNakPacket buffer) x = buffer x :=
    dhcpNakPacket_apply buffer (by omega) (by omega)
  have hlength {m m' : Mem} {x : Nat} (hsame : m' (x + 1) = m (x + 1) ∨ q ≤ x + 1)
      (hle : reader m x ≤ q) : reader m x = x + 1 ∨ m' (x + 1) = m (x + 1) := by
    have := hreader.lt m x
    rcases hsame with hsame | hlast
    · exact Or.inr hsame
    · exact Or.inl (by omega)
  have hinside {x : Nat} (hpx : p ≤ x) :
      received (dhcpNakPacket buffer) (x + 1) = buffer (x + 1) ∨ q ≤ x + 1 := by
    rcases Nat.lt_or_ge (x + 1) q with hlt | hge
    · exact Or.inl (hbyte (by omega) hlt)
    · exact Or.inr hge
  constructor
  · intro h
    apply h.congr (hreader.lt _)
    · intro x hpx hx hgo
      rwa [← hbyte hpx hx]
    · intro x hpx hx _ hle
      exact hreader.congr (hbyte hpx hx).symm (hlength ((hinside hpx).imp_left Eq.symm) hle)
  · intro h
    apply h.congr (hreader.lt _)
    · intro x hpx hx hgo
      rwa [hbyte hpx hx]
    · intro x hpx hx _ hle
      exact hreader.congr (hbyte hpx hx) (hlength (hinside hpx) hle)

/-- The NAK as its receiver has it. -/
abbrev nakReceived (buffer : Mem) : Mem := received (dhcpNakPacket buffer)

/-- The message types that a reader finds from `p` on. -/
def typesFrom (reader : Mem → Nat → Nat) (buffer : Mem) (p : Nat) : List (UInt8 × List UInt8) :=
  (options (reader (nakReceived buffer)) (nakReceived buffer) 964 p).filter
    (·.1 = dhcpOptionMessageType)

theorem typesFrom_server (hreader : Reader reader) :
    typesFrom reader buffer (240 * 4) = [(dhcpOptionMessageType, [dhcpNak])] := by
  have hwf : ∀ item ∈ [Item.opt dhcpOptionMessageType [dhcpNak]], item.WellFormed := by decide
  have hholds : Holds (nakReceived buffer) (240 * 4 + 2 * 0)
      (encode [.opt dhcpOptionMessageType [dhcpNak]] ++ [255]) := holds_dhcpNakPacket
  have hgap := gap_encode hreader (.opt _ _ .nil) hwf (fun i hi => absurd hi (Nat.not_lt_zero i))
    hholds (show 240 * 4 + (2 * 0 + 3) ≤ 964 by omega)
  rw [typesFrom, hgap.2]
  rfl

theorem nakReceived_server (buffer : Mem) :
    nakReceived buffer 960 = dhcpOptionMessageType ∧ nakReceived buffer 961 = 1 ∧
      nakReceived buffer 962 = dhcpNak ∧ nakReceived buffer 963 = dhcpEnd := by
  have hholds : Holds (nakReceived buffer) (240 * 4)
      [dhcpOptionMessageType, 1, dhcpNak, dhcpEnd] := holds_dhcpReplyPacket
  obtain ⟨h960, h⟩ := holds_cons.1 hholds
  obtain ⟨h961, h⟩ := holds_cons.1 h
  obtain ⟨h962, h⟩ := holds_cons.1 h
  exact ⟨h960, h961, h962, (holds_cons.1 h).1⟩

/-- A reader that comes to the middle of the server's options finds no message type there. -/
theorem typesFrom_beyond (hreader : Reader reader) (hp : 240 * 4 < p) :
    typesFrom reader buffer p = [] := by
  obtain ⟨-, h961, h962, h963⟩ := nakReceived_server buffer
  have hone (hcode : nakReceived buffer p ≠ 0 ∧ nakReceived buffer p ≠ dhcpOptionMessageType)
      (hend : ¬ Ends (nakReceived buffer) 964 p) (hnext : 964 ≤ tlvNext (nakReceived buffer) p) :
      typesFrom reader buffer p = [] := by
    have htlv : reader (nakReceived buffer) p = tlvNext (nakReceived buffer) p :=
      hreader.eq_tlvNext hcode.1
    have hpass := filter_options_of_comes (hreader.lt (nakReceived buffer))
      (Comes.single (not_or.2 ⟨hend, hcode.2⟩))
    rw [typesFrom, hpass, htlv, options_end (Or.inr hnext), List.filter_nil]
  by_cases hend : Ends (nakReceived buffer) 964 p
  · rw [typesFrom, options_end hend, List.filter_nil]
  · obtain ⟨hcode, hlt⟩ := ends_iff.1 hend
    obtain rfl | rfl | rfl : p = 961 ∨ p = 962 ∨ p = 963 := by omega
    · have hnext : 964 ≤ tlvNext (nakReceived buffer) 961 := by
        rw [tlvNext, h962]
        decide
      exact hone (by rw [h961]; decide) hend hnext
    · have hnext : 964 ≤ tlvNext (nakReceived buffer) 962 := by
        rw [tlvNext, h963]
        decide
      exact hone (by rw [h962]; decide) hend hnext
    · exact absurd h963 hcode

/-- Where a reader of the client's options stops. -/
def Client (m : Mem) (x : Nat) : Prop :=
  m x = dhcpEnd ∨ m x = dhcpOptionMessageType ∨ 240 * 4 ≤ x

theorem passes_iff_comes (hreader : Reader reader) {m : Mem} (hq : q ≤ 240 * 4) :
    Passes reader m p q ↔ Comes (reader m) (Client m) p q := by
  constructor
  · intro h
    refine h.congr (hreader.lt m) (fun x _ hx hgo hstop => ?_) fun _ _ _ _ _ => rfl
    rcases hstop with hend | htype | hle
    · exact hgo (Or.inl hend)
    · exact hgo (Or.inr htype)
    · omega
  · intro h
    apply h.mono
    intro x hx
    rcases hx with hend | htype
    · exact Or.inl hend
    · exact Or.inr (Or.inl htype)

/-- **Where a reader stops first**: at an END or a message type of the client, or behind them. -/
theorem exists_first_stop (hreader : Reader reader) (buffer : Mem) (p : Nat) :
    ∃ e, Comes (reader (nakReceived buffer)) (Client (nakReceived buffer)) p e ∧
      Client (nakReceived buffer) e ∧ typesFrom reader buffer p = typesFrom reader buffer e := by
  obtain ⟨e, hcomes, hstop⟩ := exists_stop (hreader.lt (nakReceived buffer))
    (fun x (hx : 240 * 4 ≤ x) => (Or.inr (Or.inr hx) : Client (nakReceived buffer) x)) p
  refine ⟨e, hcomes, hstop, filter_options_of_comes (hreader.lt _) (hcomes.mono fun x hx => ?_)⟩
  rcases hx with (hend | hle) | htype
  · exact Or.inl hend
  · exact Or.inr (Or.inr (by omega))
  · exact Or.inr (Or.inl htype)

theorem typesFrom_client (hreader : Reader reader) (hx : p < 240 * 4)
    (htype : nakReceived buffer p = dhcpOptionMessageType) :
    typesFrom reader buffer p = optionAt (nakReceived buffer) p ::
      typesFrom reader buffer (tlvNext (nakReceived buffer) p) := by
  have hend : ¬ Ends (nakReceived buffer) 964 p := ends_iff.2 ⟨by rw [htype]; decide, by omega⟩
  have htlv : reader (nakReceived buffer) p = tlvNext (nakReceived buffer) p :=
    hreader.eq_tlvNext (by rw [htype]; decide)
  rw [typesFrom, filter_options_cons (hreader.lt _) (by decide) hend htype, htlv, typesFrom]

/-- Before the server's options, a reader of the reply comes where one of the request comes. -/
theorem comes_client_iff (hreader : Reader reader) (hp : 0 < p) (hq : q ≤ 240 * 4) :
    Comes (reader (nakReceived buffer)) (Client (nakReceived buffer)) p q ↔
      Passes reader buffer p q :=
  (passes_iff_comes hreader hq).symm.trans (passes_iff hreader hp hq)

theorem typesFrom_eq_nil_iff (hreader : Reader reader) (hp : 0 < p) :
    typesFrom reader buffer p = [] ↔ ∀ e ≤ 240 * 4, Passes reader buffer p e →
      e ≠ 240 * 4 ∧ buffer e ≠ dhcpOptionMessageType := by
  obtain ⟨e, hcomes, hstop, heq⟩ := exists_first_stop hreader buffer p
  have hpe : p ≤ e := hcomes.le (hreader.lt _)
  rw [heq]
  constructor
  · intro hnil q hq hpass
    have hpq : p ≤ q := hpass.le (hreader.lt _)
    have hcomes' := (comes_client_iff hreader hp hq).2 hpass
    constructor
    · rintro rfl
      obtain rfl := hcomes.unique hstop hcomes' (Or.inr (Or.inr le_rfl))
      rw [typesFrom_server hreader] at hnil
      exact List.cons_ne_nil _ _ hnil
    · intro htype
      rcases hq.lt_or_eq with hlt | rfl
      · rw [← dhcpNakPacket_apply buffer (show 0 < q by omega) hlt] at htype
        obtain rfl := hcomes.unique hstop hcomes' (Or.inr (Or.inl htype))
        rw [typesFrom_client hreader hlt htype] at hnil
        exact List.cons_ne_nil _ _ hnil
      · obtain rfl := hcomes.unique hstop hcomes' (Or.inr (Or.inr le_rfl))
        rw [typesFrom_server hreader] at hnil
        exact List.cons_ne_nil _ _ hnil
  · intro hall
    rcases Nat.lt_or_ge (240 * 4) e with hbeyond | hle
    · exact typesFrom_beyond hreader hbeyond
    · obtain ⟨hne, htype⟩ := hall e hle ((comes_client_iff hreader hp hle).1 hcomes)
      have hlt : e < 240 * 4 := by omega
      rw [← dhcpNakPacket_apply buffer (show 0 < e by omega) hlt] at htype
      rcases hstop with hend | htype' | hge
      · rw [typesFrom, options_end (Or.inl hend), List.filter_nil]
      · exact absurd htype' htype
      · omega

theorem optionAt_nak_iff (m : Mem) (x : Nat) :
    optionAt m x = (dhcpOptionMessageType, [dhcpNak]) ↔
      Holds m x [dhcpOptionMessageType, 1, dhcpNak] := by
  rw [optionAt, Prod.mk.injEq, holds_cons, holds_cons]
  refine and_congr_right fun _ => ?_
  constructor
  · intro hvalue
    have hlen := congrArg List.length hvalue
    rw [Mem.length_read] at hlen
    refine ⟨UInt8.toNat_inj.1 hlen, ?_⟩
    rwa [hlen] at hvalue
  · intro hand
    rw [hand.1]
    exact hand.2

theorem holds_nakReceived_iff {x : Nat} {bytes : List UInt8} (hpos : 0 < x)
    (hx : x + bytes.length ≤ 240 * 4) :
    Holds (nakReceived buffer) x bytes ↔ Holds buffer x bytes := by
  have hread : (nakReceived buffer).read x bytes.length = buffer.read x bytes.length :=
    Mem.read_congr fun i hi => dhcpNakPacket_apply buffer (by omega) (by omega)
  rw [Holds, Holds, hread]

theorem tlvNext_of_nak {m : Mem} {x : Nat} (h : Holds m x [dhcpOptionMessageType, 1, dhcpNak]) :
    tlvNext m x = x + 3 := by
  rw [tlvNext, (holds_cons.1 (holds_cons.1 h).2).1]
  rfl

/-- A NAK that starts in front of the server's options ends there: the server's first byte is 53,
and its second is 1. -/
theorem nak_inside {x : Nat} (hx : x < 240 * 4)
    (h : Holds (nakReceived buffer) x [dhcpOptionMessageType, 1, dhcpNak]) : x + 3 ≤ 240 * 4 := by
  obtain ⟨hlen, hvalue⟩ := holds_cons.1 (holds_cons.1 h).2
  have hvalue := (holds_cons.1 hvalue).1
  have h960 := (nakReceived_server buffer).1
  rcases (show x + 3 ≤ 240 * 4 ∨ x = 958 ∨ x = 959 by omega) with hin | rfl | rfl
  · exact hin
  · exact absurd (h960.symm.trans hvalue) (by decide)
  · exact absurd (h960.symm.trans hlen) (by decide)

/-- **What a reader sees from `p` on is a NAK**: the server's, or one of the client's own. -/
theorem typesFrom_eq_nak_iff (hreader : Reader reader) (hp : 0 < p) :
    typesFrom reader buffer p = [(dhcpOptionMessageType, [dhcpNak])] ↔
      Passes reader buffer p (240 * 4) ∨ ∃ x, Passes reader buffer p x ∧ x + 3 ≤ 240 * 4 ∧
        Holds buffer x [dhcpOptionMessageType, 1, dhcpNak] ∧
          typesFrom reader buffer (x + 3) = [] := by
  obtain ⟨e, hcomes, hstop, heq⟩ := exists_first_stop hreader buffer p
  have hpe : p ≤ e := hcomes.le (hreader.lt _)
  rw [heq]
  constructor
  · intro hnak
    -- The first stop is in the client's bytes, at the server's option, or behind it.
    rcases Nat.lt_trichotomy e (240 * 4) with hlt | rfl | hbeyond
    · have hpass := (comes_client_iff hreader hp hlt.le).1 hcomes
      have htype : nakReceived buffer e = dhcpOptionMessageType := by
        rcases hstop with hend | htype | hge
        · rw [typesFrom, options_end (Or.inl hend), List.filter_nil] at hnak
          exact absurd hnak.symm (List.cons_ne_nil _ _)
        · exact htype
        · omega
      rw [typesFrom_client hreader hlt htype, List.cons.injEq, optionAt_nak_iff] at hnak
      obtain ⟨hat, hrest⟩ := hnak
      have hin := nak_inside hlt hat
      rw [tlvNext_of_nak hat] at hrest
      exact Or.inr ⟨e, hpass, hin, (holds_nakReceived_iff (by omega) hin).1 hat, hrest⟩
    · exact Or.inl ((comes_client_iff hreader hp le_rfl).1 hcomes)
    · rw [typesFrom_beyond hreader hbeyond] at hnak
      exact absurd hnak.symm (List.cons_ne_nil _ _)
  · intro hor
    rcases hor with hpass | ⟨x, hpass, hx, hat, hrest⟩
    · obtain rfl := hcomes.unique hstop ((comes_client_iff hreader hp le_rfl).2 hpass)
        (Or.inr (Or.inr le_rfl))
      exact typesFrom_server hreader
    · have hpx : p ≤ x := hpass.le (hreader.lt _)
      have hin : x + [dhcpOptionMessageType, 1, dhcpNak].length ≤ 240 * 4 := hx
      have hat' := (holds_nakReceived_iff (hp.trans_le hpx) hin).2 hat
      have htype := (holds_cons.1 hat').1
      obtain rfl := hcomes.unique hstop ((comes_client_iff hreader hp (by omega)).2 hpass)
        (Or.inr (Or.inl htype))
      rw [typesFrom_client hreader (by omega) htype, (optionAt_nak_iff _ _).2 hat',
        tlvNext_of_nak hat', hrest]

theorem messageTypes_nak_iff (hreader : Reader reader) :
    messageTypes reader (dhcpNakPacket buffer) = [(dhcpOptionMessageType, [dhcpNak])] ↔
      Passes reader buffer 240 (240 * 4) ∨ SaysNak reader buffer := by
  have hfrom : messageTypes reader (dhcpNakPacket buffer) = typesFrom reader buffer 240 := by
    rw [messageTypes, length_dhcpNakPacket, typesFrom]
  rw [hfrom, typesFrom_eq_nak_iff hreader (by omega)]
  refine or_congr_right (exists_congr fun x => and_congr_right fun _ => and_congr_right fun _ => ?_)
  exact and_congr_right fun _ => typesFrom_eq_nil_iff hreader (by omega)

theorem messageType_of_nak {pool : DhcpPool} {now : Int} {leaseTable : LeaseTable} {recvLen : Nat}
    (h : (handleDhcpPacket pool now leaseTable buffer recvLen).2 = some (dhcpNakPacket buffer)) :
    messageType buffer recvLen = dhcpRequest := by
  rw [handleDhcpPacket, dhcpDispatch] at h
  split_ifs at h with hdiscover hrequest
  · have htype := congrArg replyType (Option.some.inj h)
    rw [replyType_dhcpOfferPacket, replyType_dhcpNakPacket] at htype
    exact absurd htype (by decide)
  · exact hrequest
  · exact hrequest

theorem handleDhcpPacket_refused {pool : DhcpPool} {now : Int} {recvLen : Nat}
    (h : messageType buffer recvLen = dhcpRequest) :
    (handleDhcpPacket pool now leaseTableInit buffer recvLen).2 = some (dhcpNakPacket buffer) := by
  have hdiscover : messageType buffer recvLen ≠ dhcpDiscover := by
    rw [h]
    decide
  have havail : isIpAvailable now leaseTableInit (extractRequestedIp buffer) = true := by
    simp [isIpAvailable, leaseTableInit]
  rw [handleDhcpPacket, dhcpDispatch, if_neg hdiscover, if_pos h]
  simp only [havail, Bool.or_true, if_true]

/-- The program's own reader has stopped at the REQUEST. -/
theorem not_saysNak_of_request {recvLen : Nat} (h : messageType buffer recvLen = dhcpRequest) :
    ¬ SaysNak tlvNext buffer := by
  rintro ⟨x, hpass, -, hat, -⟩
  rw [messageType] at h
  cases hfind : findOption buffer recvLen dhcpOptionMessageType with
  | none =>
    rw [hfind] at h
    exact absurd h (show ¬ (0 : UInt8) = dhcpRequest by decide)
  | some q =>
    rw [hfind] at h
    obtain ⟨hcomes, -, htype⟩ := findOption_eq_some_iff.1 hfind
    have hpass' : Passes tlvNext buffer 240 q := hcomes.mono fun y hy => hy.imp_left Or.inl
    obtain rfl := hpass.unique (Or.inr (holds_cons.1 hat).1) hpass' (Or.inr htype)
    have hvalue := (holds_cons.1 (holds_cons.1 (holds_cons.1 hat).2).2).1
    exact absurd (h.symm.trans hvalue) (by decide)

end Nak

/-- **A refused client sees a NAK** exactly when both readers pass its own options up to the
server's: they come to `240 * 4` without an END or a message type; or the one that skips pads sees
a NAK that the client has sent itself. -/
theorem nak_seen_iff {pool : DhcpPool} {now : Int} {leaseTable : LeaseTable} {buffer : Mem}
    {recvLen : Nat}
    (h : (handleDhcpPacket pool now leaseTable buffer recvLen).2 = some (dhcpNakPacket buffer)) :
    NakSeen buffer (dhcpNakPacket buffer) ↔ Passes tlvNext buffer 240 (240 * 4) ∧
      (Passes paddedNext buffer 240 (240 * 4) ∨ SaysNak paddedNext buffer) := by
  have hown : ¬ SaysNak tlvNext buffer := not_saysNak_of_request (messageType_of_nak h)
  have hkept {off n : Nat} (hpos : 0 < off) (hle : off + n ≤ 240 * 4) :
      (received (dhcpNakPacket buffer)).read off n = buffer.read off n :=
    Mem.read_congr fun i hi => dhcpNakPacket_apply buffer (by omega) (by omega)
  constructor
  · intro hseen
    have htlv := (messageTypes_nak_iff (Or.inl rfl)).1 (hseen.seen tlvNext (Or.inl rfl))
    exact ⟨htlv.resolve_right hown,
      (messageTypes_nak_iff (Or.inr rfl)).1 (hseen.seen paddedNext (Or.inr rfl))⟩
  · intro hand
    refine ⟨hkept (by omega) (by omega), hkept (by omega) (by omega), fun reader hreader => ?_⟩
    apply (messageTypes_nak_iff hreader).2
    rcases hreader with rfl | rfl
    · exact Or.inl hand.1
    · exact hand.2

/-- A request whose options are zero up to `240 * 4`. -/
def farRequest : Mem := Mem.zero.write 960 [53, 1, 3, 255]

/-- It is refused, and its client sees that. -/
theorem nak_seen_far : NakSeen farRequest (dhcpNakPacket farRequest) := by
  have hgap (i : Nat) (hi : i < 2 * 360) : farRequest (240 + i) = 0 :=
    Mem.write_apply_of_lt _ _ (by omega)
  have hcomes (reader : Mem → Nat → Nat) (hreader : Reader reader) :
      Comes (reader farRequest) (Halts farRequest 964 dhcpOptionMessageType) 240 960 := by
    have hyields := gap_yields hreader .nil (by simp) hgap rfl
      (show 240 + (2 * 360 + 0) ≤ 964 by omega)
    exact hyields.comes_code (show dhcpOptionMessageType ≠ 0 by decide) (by simp [values])
  have hpass (reader : Mem → Nat → Nat) (hreader : Reader reader) :
      Passes reader farRequest 240 (240 * 4) :=
    (hcomes reader hreader).mono fun x hx => hx.imp_left Or.inl
  have hfind : findOption farRequest 964 dhcpOptionMessageType = some 960 :=
    findOption_eq_some_iff.2 ⟨hcomes tlvNext (Or.inl rfl), not_ends_iff.2 (by decide), by decide⟩
  have htype : messageType farRequest 964 = dhcpRequest := by
    rw [messageType, hfind]
    decide
  have hrefused : (handleDhcpPacket initDhcpPool 0 leaseTableInit farRequest 964).2 =
      some (dhcpNakPacket farRequest) := handleDhcpPacket_refused htype
  exact (nak_seen_iff hrefused).2
    ⟨hpass tlvNext (Or.inl rfl), Or.inl (hpass paddedNext (Or.inr rfl))⟩

/-- Usually the client's own REQUEST comes first. -/
theorem nak_seen_fails :
    (handleDhcpPacket initDhcpPool 0 leaseTableInit (Mem.zero.write 240 [53, 1, 3, 255]) 244).2 =
        some (dhcpNakPacket (Mem.zero.write 240 [53, 1, 3, 255])) ∧
      ¬ NakSeen (Mem.zero.write 240 [53, 1, 3, 255])
        (dhcpNakPacket (Mem.zero.write 240 [53, 1, 3, 255])) := by
  have htype : messageType (Mem.zero.write 240 [53, 1, 3, 255]) 244 = dhcpRequest := by
    decide +kernel
  refine ⟨handleDhcpPacket_refused htype, fun hseen => ?_⟩
  rcases (messageTypes_nak_iff (Or.inl rfl)).1 (hseen.seen tlvNext (Or.inl rfl)) with hpass | hown
  · cases hpass with
    | step hgo _ => exact hgo (Or.inr (by decide))
  · exact not_saysNak_of_request htype hown

end NaptRouter
