import NaptRouter.DhcpStale
import NaptRouter.LeaseCount

/-!
# The loop of `dhcp_server_start`

The server receives every datagram into one buffer, so behind a datagram stands what is left of
earlier, longer ones. `buffer_history` says what that is. Its runs are runs of
`handle_dhcp_packet` (`dhcpRun_of_server`), so what `DhcpRuns.lean` and the modules after it show
of those holds of the server.

A server whose datagrams all settle their own handling answers as if each had come first
(`server_forgets`). Others are answered with bytes of earlier datagrams: `replies_disclose` says
with which.
-/

namespace NaptRouter

open ByteMemory Runs

/-- What `recvfrom` gives to the loop, and when: nothing if it fails. -/
structure Datagram where
  now : Int
  bytes : List UInt8
  fits : bytes.length ≤ dhcpBufferSize

/-- The leases, and the buffer of the loop with what follows it on the stack. -/
structure DhcpServer where
  state : DhcpState
  buffer : Mem

/-- What `handle_dhcp_packet` is called with. -/
def Datagram.input (d : Datagram) (buffer : Mem) : DhcpInput :=
  ⟨d.now, buffer.write 0 d.bytes, d.bytes.length⟩

/-- One round of the loop. -/
def serverStep (pool : DhcpPool) (s : DhcpServer) (d : Datagram) : Option DhcpServer :=
  if d.bytes.length > 0 then
    (dhcpStep pool s.state (d.input s.buffer)).map fun state =>
      { state, buffer := s.buffer.write 0 d.bytes }
  else some s

abbrev ServerStep := Step DhcpServer Datagram

/-- The call of `handle_dhcp_packet` in a round, if there is one, with this buffer. -/
def ServerStep.call (t : ServerStep) (buffer : Mem) : Option DhcpStep :=
  if t.input.bytes.length > 0 then some ⟨t.pre.state, t.input.input buffer, t.post.state⟩ else none

/-- What the server sends in a round. -/
def serverReply (pool : DhcpPool) (t : ServerStep) : Option (List UInt8) :=
  (ServerStep.call t t.pre.buffer).bind (dhcpReply pool)

abbrev ServerRun (pool : DhcpPool) (clock : Int) (buffer : Mem) :=
  Run (serverStep pool) ⟨⟨leaseTableInit, clock⟩, buffer⟩

variable {pool : DhcpPool} {clock : Int} {buffer : Mem} {tr : List ServerStep} {s s' : DhcpServer}
  {d : Datagram}

theorem serverStep_cases (h : serverStep pool s d = some s') :
    (d.bytes.length > 0 ∧ dhcpStep pool s.state (d.input s.buffer) = some s'.state ∧
      s'.buffer = s.buffer.write 0 d.bytes) ∨ (d.bytes = [] ∧ s' = s) := by
  rw [serverStep] at h
  split_ifs at h with hlen
  · obtain ⟨state, hstep, rfl⟩ := Option.map_eq_some_iff.1 h
    exact Or.inl ⟨hlen, hstep, rfl⟩
  · exact Or.inr ⟨List.eq_nil_of_length_eq_zero (Nat.le_zero.1 (Nat.not_lt.1 hlen)),
      (Option.some.inj h).symm⟩

/-- **The loop calls `handle_dhcp_packet`**, and does nothing else to the leases. -/
theorem dhcpRun_of_server (h : ServerRun pool clock buffer tr s) :
    DhcpRun pool clock (tr.filterMap fun t => ServerStep.call t t.pre.buffer) s.state := by
  induction h with
  | nil => exact .nil
  | @snoc tr s s' d _ hstep ih =>
    rw [List.filterMap_append]
    rcases serverStep_cases hstep with ⟨hlen, hcall, -⟩ | ⟨hnil, rfl⟩
    · have hlast : [(⟨s, d, s'⟩ : ServerStep)].filterMap
          (fun t => ServerStep.call t t.pre.buffer) = [⟨s.state, d.input s.buffer, s'.state⟩] := by
        simp [ServerStep.call, hlen]
      rw [hlast]
      exact ih.snoc hcall
    · have hlast : [(⟨s', d, s'⟩ : ServerStep)].filterMap
          (fun t => ServerStep.call t t.pre.buffer) = [] := by
        simp [ServerStep.call, hnil]
      rwa [hlast, List.append_nil]

/-! ## What is in the buffer -/

/-- The byte at an offset of the last of these datagrams that is long enough to have one. -/
def lastByte (buffer : Mem) (tr : List ServerStep) (i : Nat) : UInt8 :=
  ((tr.filterMap fun t => t.input.bytes[i]?).getLast?).getD (buffer i)

theorem lastByte_snoc (buffer : Mem) (tr : List ServerStep) (t : ServerStep) (i : Nat) :
    lastByte buffer (tr ++ [t]) i = t.input.bytes[i]?.getD (lastByte buffer tr i) := by
  rw [lastByte, lastByte, List.filterMap_append]
  cases h : t.input.bytes[i]? <;> simp [h]

/-- **Every byte of the buffer** is from the last datagram that reached so far. -/
theorem buffer_history (h : ServerRun pool clock buffer tr s) (i : Nat) :
    s.buffer i = lastByte buffer tr i := by
  induction h with
  | nil => rfl
  | @snoc tr s s' d _ hstep ih =>
    rw [lastByte_snoc, ← ih]
    rcases serverStep_cases hstep with ⟨-, -, hbuffer⟩ | ⟨hnil, rfl⟩
    · rw [hbuffer, Mem.write_zero_apply]
    · simp [hnil]

theorem buffer_behind (h : ServerRun pool clock buffer tr s) {i : Nat} (hi : dhcpBufferSize ≤ i) :
    s.buffer i = buffer i := by
  induction h with
  | nil => rfl
  | @snoc tr s s' d _ hstep ih =>
    rcases serverStep_cases hstep with ⟨-, -, hbuffer⟩ | ⟨-, rfl⟩
    · rw [hbuffer, ← ih]
      exact Mem.write_apply_of_ge _ _ (by have := d.fits; omega)
    · exact ih

/-! ## Datagrams that settle their own handling -/

/-- With these leases the datagram settles its handling, if there is one. -/
def Datagram.Settled (d : Datagram) (leaseTable : LeaseTable) : Prop :=
  d.bytes.length > 0 →
    NaptRouter.Settled d.now leaseTable (Mem.zero.write 0 d.bytes) d.bytes.length

theorem handle_first (h : ServerRun initDhcpPool clock buffer tr s)
    (hd : d.Settled s.state.leaseTable) (hlen : d.bytes.length > 0) :
    handleDhcpPacket initDhcpPool d.now s.state.leaseTable (s.buffer.write 0 d.bytes)
        d.bytes.length =
      handleDhcpPacket initDhcpPool d.now s.state.leaseTable (buffer.write 0 d.bytes)
        d.bytes.length := by
  have hbytes (m m' : Mem) : AgreeTo d.bytes.length (m.write 0 d.bytes) (m'.write 0 d.bytes) := by
    intro i hi
    rw [Mem.write_zero_apply, Mem.write_zero_apply, List.getElem?_eq_getElem hi]
    rfl
  refine (hd hlen).oblivious d.fits _ _ (hbytes _ _) fun i hi => ?_
  rcases Nat.lt_or_ge i d.bytes.length with hlt | hge
  · exact hbytes _ _ i hlt
  · have hbehind : dhcpBufferSize ≤ i := by
      by_contra hin
      exact hi ⟨hge, Nat.lt_of_not_le hin⟩
    rw [Mem.write_zero_apply, Mem.write_zero_apply, buffer_behind h hbehind]

/-- **The server forgets.** If every datagram settles its own handling, the leases and the replies
are those of a server that gets each datagram into the buffer that it began with. -/
theorem server_forgets (h : ServerRun initDhcpPool clock buffer tr s)
    (hsettled : ∀ t ∈ tr, t.input.Settled t.pre.state.leaseTable) :
    DhcpRun initDhcpPool clock (tr.filterMap fun t => ServerStep.call t buffer) s.state ∧
      ∀ t ∈ tr, serverReply initDhcpPool t =
        (ServerStep.call t buffer).bind (dhcpReply initDhcpPool) := by
  induction h with
  | nil => exact ⟨.nil, fun t ht => by cases ht⟩
  | @snoc tr s s' d hrun hstep ih =>
    obtain ⟨hcalls, hreplies⟩ := ih fun t ht => hsettled t (List.mem_append_left _ ht)
    have hd : d.Settled s.state.leaseTable := hsettled ⟨s, d, s'⟩ (by simp)
    rw [List.filterMap_append]
    rcases serverStep_cases hstep with ⟨hlen, hcall, -⟩ | ⟨hnil, rfl⟩
    · have hfirst := handle_first hrun hd hlen
      have hlast : [(⟨s, d, s'⟩ : ServerStep)].filterMap (fun t => ServerStep.call t buffer) =
          [⟨s.state, d.input buffer, s'.state⟩] := by
        simp [ServerStep.call, hlen]
      rw [hlast]
      refine ⟨hcalls.snoc ?_, fun t ht => ?_⟩
      · rw [← hcall]
        simp only [dhcpStep, Datagram.input, hfirst]
        rfl
      · rcases List.mem_append.1 ht with hold | hnew
        · exact hreplies t hold
        · obtain rfl := List.mem_singleton.1 hnew
          simp only [serverReply, ServerStep.call, if_pos hlen, Option.bind_some, dhcpReply,
            Datagram.input, hfirst]
    · have hlast : [(⟨s', d, s'⟩ : ServerStep)].filterMap (fun t => ServerStep.call t buffer) =
          [] := by
        simp [ServerStep.call, hnil]
      rw [hlast, List.append_nil]
      refine ⟨hcalls, fun t ht => ?_⟩
      rcases List.mem_append.1 ht with hold | hnew
      · exact hreplies t hold
      · obtain rfl := List.mem_singleton.1 hnew
        simp [serverReply, ServerStep.call, hnil]

theorem message_fits {options : List UInt8} (h : options.length ≤ 784) :
    (List.replicate 240 0 ++ options).length ≤ dhcpBufferSize := by
  rw [List.length_append, List.length_replicate]
  exact Nat.add_le_add_left h 240

/-- A datagram with an empty header and these options. -/
def Datagram.message (now : Int) (options : List UInt8) (h : options.length ≤ 784) : Datagram where
  now := now
  bytes := List.replicate 240 0 ++ options
  fits := message_fits h

def shortDiscover (now : Int) : Datagram :=
  .message now [dhcpOptionMessageType, 1, dhcpDiscover, dhcpEnd] (by decide)

theorem Datagram.message_apply (now : Int) {options : List UInt8} (h : options.length ≤ 784)
    (i : Nat) : Mem.zero.write 0 (Datagram.message now options h).bytes (240 + i) =
      options.getD i 0 := by
  have hlen : (List.replicate 240 (0 : UInt8)).length = 240 := List.length_replicate
  rw [Mem.write_zero_apply, Datagram.message, List.getElem?_append_right (by omega), hlen,
    Nat.add_sub_cancel_left, List.getD_eq_getElem?_getD]
  rfl

theorem settled_shortDiscover (now : Int) (leaseTable : LeaseTable) :
    (shortDiscover now).Settled leaseTable := by
  have hbyte (i : Nat) : Mem.zero.write 0 (shortDiscover now).bytes (240 + i) =
      [dhcpOptionMessageType, 1, dhcpDiscover, dhcpEnd].getD i 0 := Datagram.message_apply ..
  intro _ p hcomes _ _
  obtain rfl : p = 240 := by
    cases hcomes with
    | here => rfl
    | step hgo _ => exact absurd (Or.inr (Or.inl (hbyte 0))) hgo
  refine ⟨fun hstale => absurd hstale.1 (by decide : ¬ 244 ≤ 242), fun hrequest => ?_⟩
  exact absurd ((hbyte 2).symm.trans (hrequest (by decide : 242 < 244))) (by decide)

/-- Two DISCOVERs in a buffer that is not empty. -/
theorem server_forgets_two : ∃ tr s, ServerRun initDhcpPool 0 (fun _ => 7) tr s ∧
    tr.map (·.input) = [shortDiscover 0, shortDiscover 1] ∧
    DhcpRun initDhcpPool 0 (tr.filterMap fun t => ServerStep.call t fun _ => 7) s.state := by
  obtain ⟨tr, t, hrun, hinputs, -⟩ := exists_run_snoc (serverStep initDhcpPool)
    ⟨⟨leaseTableInit, 0⟩, fun _ => 7⟩ [shortDiscover 0] (shortDiscover 1) (fun _ _ => true)
    (by decide +kernel)
  refine ⟨tr ++ [t], t.post, hrun, hinputs, (server_forgets hrun fun u hu => ?_).1⟩
  have hinput : u.input ∈ [shortDiscover 0] ++ [shortDiscover 1] :=
    hinputs ▸ List.mem_map_of_mem hu
  rcases List.mem_append.1 hinput with hfirst | hsecond
  · rw [List.mem_singleton.1 hfirst]
    exact settled_shortDiscover 0 _
  · rw [List.mem_singleton.1 hsecond]
    exact settled_shortDiscover 1 _

/-! ## What the replies are made of -/

/-- A reply of this type has the byte of the buffer. It marks itself as a reply; an OFFER and an
ACK are only copied up to the options, and fill in their address, an OFFER `giaddr`, too. -/
def Echoed (type : UInt8) (i : Nat) : Prop :=
  0 < i ∧ i < (if type = dhcpNak then 240 * 4 else 240) ∧
    (type = dhcpNak ∨ (i < 16 ∨ 20 ≤ i) ∧ (type = dhcpOffer → i < 24 ∨ 28 ≤ i))

instance (type : UInt8) (i : Nat) : Decidable (Echoed type i) :=
  inferInstanceAs (Decidable (_ ∧ _ ∧ (_ ∨ (_ ∨ _) ∧ (_ → _))))

/-- The reply of this type to a buffer full of zeros. -/
def blankReply (type : UInt8) (ip : UInt32) : List UInt8 :=
  if type = dhcpOffer then dhcpOfferPacket Mem.zero ip
  else if type = dhcpAck then dhcpAckPacket Mem.zero ip
  else dhcpNakPacket Mem.zero

section Blank

variable {m : Mem} {copied i : Nat} {fields : Mem → Mem} {options : List UInt8}

theorem dhcpReplyPacket_options (hi : 240 * 4 ≤ i) :
    received (dhcpReplyPacket m copied fields options) i =
      received (dhcpReplyPacket Mem.zero copied fields options) i := by
  rcases Nat.lt_or_ge i (240 * 4 + options.length) with hlt | hge
  · obtain ⟨j, rfl⟩ := Nat.exists_eq_add_of_le hi
    have hj : j < options.length := by omega
    have happly (packet : Mem) : received ((packet.write (240 * 4) options).read 0
        (240 * 4 + options.length)) (240 * 4 + j) = options.getD j 0 :=
      (Mem.write_read_apply _ _ hlt).trans (Mem.write_apply_inside _ _ hj)
    exact (happly _).trans (happly _).symm
  · have hzero (m : Mem) : received (dhcpReplyPacket m copied fields options) i = 0 :=
      Mem.write_apply_of_ge _ _ (by rw [length_dhcpReplyPacket]; omega)
    rw [hzero, hzero]

/-- A byte that is copied and not filled in is from the buffer, and no other byte is. -/
theorem dhcpReplyPacket_blank (kept : Prop) [Decidable kept] (hcopied : copied ≤ 240 * 4)
    (hkept : kept → ∀ m, fields m i = m i)
    (hfilled : ¬ kept → ∀ m m', fields m i = fields m' i) :
    received (dhcpReplyPacket m copied fields options) i =
      if 0 < i ∧ i < copied ∧ kept then m i
      else received (dhcpReplyPacket Mem.zero copied fields options) i := by
  rcases Nat.lt_or_ge i (240 * 4) with hlt | hge
  · rw [dhcpReplyPacket_apply hlt, dhcpReplyPacket_apply hlt]
    by_cases hk : kept
    · rw [hkept hk, hkept hk]
      rcases Nat.eq_zero_or_pos i with rfl | hpos
      · rw [if_neg (fun h => Nat.lt_irrefl 0 h.1), Mem.write_apply_singleton,
          Mem.write_apply_singleton]
      · rcases Nat.lt_or_ge i copied with hin | hout
        · rw [if_pos ⟨hpos, hin, hk⟩, copied_apply hpos hin]
        · rw [if_neg (fun h => Nat.not_lt.2 hout h.2.1), uncopied_apply hpos hout,
            uncopied_apply hpos hout]
    · rw [if_neg (fun h => hk h.2.2)]
      exact hfilled hk _ _
  · rw [if_neg (fun h => Nat.not_lt.2 hge (h.2.1.trans_le hcopied))]
    exact dhcpReplyPacket_options hge

theorem blank_dhcpNakPacket (ip : UInt32) : received (dhcpNakPacket m) i =
    if Echoed dhcpNak i then m i else received (blankReply dhcpNak ip) i := by
  refine (dhcpReplyPacket_blank True le_rfl (fun _ _ => rfl) (absurd trivial)).trans ?_
  exact if_congr (by simp [Echoed]) rfl rfl

theorem blank_dhcpAckPacket (ip : UInt32) : received (dhcpAckPacket m ip) i =
    if Echoed dhcpAck i then m i else received (blankReply dhcpAck ip) i := by
  refine (dhcpReplyPacket_blank (i < 16 ∨ 20 ≤ i) (by decide)
    (fun hi m => Mem.write_apply_outside _ _ hi)
    (fun hi m m' => Mem.write_apply_covered _ _ _ hi)).trans ?_
  exact if_congr (by simp [Echoed, dhcpAck, dhcpNak, dhcpOffer]) rfl rfl

theorem blank_dhcpOfferPacket (ip : UInt32) : received (dhcpOfferPacket m ip) i =
    if Echoed dhcpOffer i then m i else received (blankReply dhcpOffer ip) i := by
  refine (dhcpReplyPacket_blank ((i < 16 ∨ 20 ≤ i) ∧ (i < 24 ∨ 28 ≤ i)) (by decide)
    (fun hi m => ?_) (fun hi m m' => ?_)).trans ?_
  · rw [Mem.write_apply_outside _ _ hi.2, Mem.write_apply_outside _ _ hi.1]
  · by_cases hgiaddr : i < 24 ∨ 28 ≤ i
    · have hkeep (m : Mem) : m.write 24 (le32 (inetAton ⟨192, 168, 1, 1⟩)) i = m i :=
        Mem.write_apply_outside _ _ hgiaddr
      rw [hkeep, hkeep]
      exact Mem.write_apply_covered _ _ _ fun hyiaddr => hi ⟨hyiaddr, hgiaddr⟩
    · exact Mem.write_apply_covered _ _ _ hgiaddr
  · exact if_congr (by simp [Echoed, dhcpNak, dhcpOffer]) rfl rfl

theorem blank_dhcpReply {pool : DhcpPool} {t : DhcpStep} {reply : List UInt8}
    (h : dhcpReply pool t = some reply) (i : Nat) :
    received reply i = if Echoed (replyType reply) i then t.input.buffer i
      else received (blankReply (replyType reply) (yiaddr reply)) i := by
  rcases dhcpReply_cases pool t with ⟨-, hreply⟩ | ⟨x, -, ⟨-, hreply⟩ | ⟨-, hreply⟩⟩ |
    ⟨-, -, hreply⟩ <;> rw [hreply] at h
  · obtain rfl := Option.some.inj h
    rw [replyType_dhcpOfferPacket, yiaddr_dhcpOfferPacket]
    exact blank_dhcpOfferPacket _
  · obtain rfl := Option.some.inj h
    rw [replyType_dhcpAckPacket, yiaddr_dhcpAckPacket]
    exact blank_dhcpAckPacket _
  · obtain rfl := Option.some.inj h
    rw [replyType_dhcpNakPacket]
    exact blank_dhcpNakPacket _
  · exact absurd h nofun

end Blank

/-- **What the server discloses.** Every byte that a reply echoes is from the last datagram that
reached so far, be it an earlier one of another client. Its other bytes are the server's own. -/
theorem replies_disclose {before : List ServerStep} {t : ServerStep}
    (h : ServerRun pool clock buffer (before ++ [t]) s) {reply : List UInt8}
    (hreply : serverReply pool t = some reply) (i : Nat) :
    received reply i = if Echoed (replyType reply) i then lastByte buffer (before ++ [t]) i
      else received (blankReply (replyType reply) (yiaddr reply)) i := by
  have hbefore : ServerRun pool clock buffer before t.pre := (Run.cut h).1
  obtain ⟨call, hcall, hreply⟩ := Option.bind_eq_some_iff.1 hreply
  rw [ServerStep.call] at hcall
  split_ifs at hcall with hlen
  obtain rfl := Option.some.inj hcall
  have hbyte : (t.input.input t.pre.buffer).buffer i = lastByte buffer (before ++ [t]) i := by
    rw [lastByte_snoc, ← buffer_history hbefore]
    exact Mem.write_zero_apply _ _ i
  rw [← hbyte]
  exact blank_dhcpReply hreply i

/-- The NAK to a short REQUEST has a byte of the datagram before it. -/
theorem replies_disclose_short : ∃ before t reply,
    ServerRun initDhcpPool 0 Mem.zero (before ++ [t]) t.post ∧
      serverReply initDhcpPool t = some reply ∧ t.input.bytes.length = 244 ∧
      received reply 300 = 77 := by
  obtain ⟨before, t, hrun, -, hlast⟩ := exists_run_snoc (serverStep initDhcpPool)
    ⟨⟨leaseTableInit, 0⟩, Mem.zero⟩ [.message 0 (List.replicate 100 77) (by decide)]
    (.message 1 [dhcpOptionMessageType, 1, dhcpRequest, dhcpEnd] (by decide))
    (fun before t => decide (t.input.bytes.length = 244 ∧
      (∃ reply ∈ serverReply initDhcpPool t, replyType reply = dhcpNak) ∧
      lastByte Mem.zero (before ++ [t]) 300 = 77)) (by decide +kernel)
  obtain ⟨hlen, ⟨reply, hreply, htype⟩, hbyte⟩ := of_decide_eq_true hlast
  refine ⟨before, t, reply, hrun, hreply, hlen, ?_⟩
  rw [replies_disclose hrun hreply, htype, if_pos (by decide), hbyte]

end NaptRouter
