import NaptRouter.Dhcp
import NaptRouter.Lib.OptionWalk

/-!
# The option loops of `dhcp.c`

`handle_dhcp_packet` and `extract_requested_ip` hop over the options of a datagram, each up to a
bound of its own. Both test the byte for END before the bound, and neither looks at how many bytes
of an option are left; and both take a PAD for an option with a length byte.

* `reads_inside_iff` — what the two loops read is in the datagram exactly when they come to END,
  or to all of the option they look for, before it is over.
* `options_parsed` — they read well-formed options as they are meant, as long as pads come in
  pairs.
-/

namespace NaptRouter

open ByteMemory OptionWalk

/-! ## The loop as a walk -/

/-- Where the loop stops: at END or the bound, or at the option. -/
def Halts (buffer : Mem) (limit : Nat) (option : UInt8) (p : Nat) : Prop :=
  Ends buffer limit p ∨ buffer p = option

section Loop

variable {buffer : Mem} {limit p q : Nat} {option : UInt8}

theorem not_ends_iff : ¬ Ends buffer limit p ↔ buffer p ≠ dhcpEnd ∧ p < limit := ends_iff

/-- The loop gives the place where the walk stops, if it is not the end. -/
theorem findOptionLoop_comes (h : Comes (tlvNext buffer) (Halts buffer limit option) p q)
    (hq : Halts buffer limit option q) {fuel : Nat} (hfuel : limit ≤ p + fuel) :
    (Ends buffer limit q → findOptionLoop buffer limit option fuel p = none) ∧
      (¬ Ends buffer limit q → findOptionLoop buffer limit option fuel p = some q) := by
  induction h generalizing fuel with
  | @here p =>
    cases fuel with
    | zero => exact ⟨fun _ => rfl, fun hend => absurd (Or.inr hfuel) hend⟩
    | succ fuel =>
      refine ⟨fun hend => ?_, fun hend => ?_⟩
      · rw [findOptionLoop, if_neg fun hgo => not_ends_iff.2 hgo hend]
      · rw [findOptionLoop, if_pos (not_ends_iff.1 hend), if_pos (hq.resolve_left hend)]
  | @step p q hp _ ih =>
    obtain ⟨hend, hopt⟩ := not_or.1 hp
    have hlt : p < limit := (not_ends_iff.1 hend).2
    obtain ⟨fuel, rfl⟩ : ∃ n, fuel = n + 1 := ⟨fuel - 1, by omega⟩
    rw [findOptionLoop, if_pos (not_ends_iff.1 hend), if_neg hopt]
    exact ih hq (by have := lt_tlvNext buffer p; omega)

theorem exists_halt (buffer : Mem) (limit : Nat) (option : UInt8) (p : Nat) :
    ∃ q, Comes (tlvNext buffer) (Halts buffer limit option) p q ∧ Halts buffer limit option q :=
  exists_stop (lt_tlvNext buffer) (fun _ hx => Or.inl (Or.inr hx)) p

theorem findOption_eq_some_iff : findOption buffer limit option = some q ↔
    Comes (tlvNext buffer) (Halts buffer limit option) 240 q ∧ ¬ Ends buffer limit q ∧
      buffer q = option := by
  obtain ⟨r, hr, hstop⟩ := exists_halt buffer limit option 240
  obtain ⟨hnone, hsome⟩ := findOptionLoop_comes hr hstop (Nat.le_add_left limit 240)
  rw [findOption]
  constructor
  · intro hfind
    have hend : ¬ Ends buffer limit r := by
      intro hend
      rw [hnone hend] at hfind
      cases hfind
    rw [hsome hend] at hfind
    obtain rfl := Option.some.inj hfind
    exact ⟨hr, hend, hstop.resolve_left hend⟩
  · intro hand
    obtain ⟨hq, hend, hopt⟩ := hand
    obtain rfl := hr.unique hstop hq (Or.inr hopt)
    exact hsome hend

theorem findOption_eq_none (h : Comes (tlvNext buffer) (Halts buffer limit option) 240 q)
    (hend : Ends buffer limit q) : findOption buffer limit option = none :=
  (findOptionLoop_comes h (Or.inl hend) (Nat.le_add_left limit 240)).1 hend

end Loop

/-! ## What the loops read -/

/-- The loop with the offsets it reads: the byte of the test, the type and the length of every
option it enters, and `valueLen` value bytes of the one it looks for. -/
def findOptionTraced (buffer : Mem) (limit : Nat) (option : UInt8) (valueLen : Nat) :
    Nat → Nat → Option Nat × List Nat
  | 0, _ => (none, [])
  | fuel + 1, options =>
      if buffer options ≠ dhcpEnd ∧ options < limit then
        if buffer options = option then
          (some options, [options, options, options + 1] ++ List.range' (options + 2) valueLen)
        else
          let (found, reads) := findOptionTraced buffer limit option valueLen fuel
            (options + (2 + (buffer (options + 1)).toNat))
          (found, [options, options, options + 1] ++ reads)
      else (none, [options])

/-- `message_type` after the loop of `handle_dhcp_packet`, and the offsets read. -/
def messageTypeTraced (buffer : Mem) (recvLen : Nat) : UInt8 × List Nat :=
  match findOptionTraced buffer recvLen dhcpOptionMessageType 1 (recvLen + 1) 240 with
  | (some options, reads) => (buffer (options + 2), reads)
  | (none, reads) => (0, reads)

def extractRequestedIpTraced (buffer : Mem) : UInt32 × List Nat :=
  match findOptionTraced buffer dhcpBufferSize dhcpOptionRequestedIp 4 (dhcpBufferSize + 1) 240 with
  | (some options, reads) => (buffer.load32 (options + 2), reads)
  | (none, reads) => (0, reads)

/-- The offsets that the option loops read while a datagram is handled. -/
def optionReads (buffer : Mem) (recvLen : Nat) : List Nat :=
  let (messageType, reads) := messageTypeTraced buffer recvLen
  if messageType = dhcpRequest then reads ++ (extractRequestedIpTraced buffer).2 else reads

section Reads

variable {buffer : Mem} {limit p q : Nat} {option : UInt8}

theorem findOptionTraced_fst (valueLen fuel : Nat) :
    (findOptionTraced buffer limit option valueLen fuel p).1 =
      findOptionLoop buffer limit option fuel p := by
  induction fuel generalizing p with
  | zero => rfl
  | succ fuel ih =>
    rw [findOptionTraced, findOptionLoop]
    split_ifs
    · rfl
    · exact ih
    · rfl

theorem findOptionTraced_find (valueLen : Nat) :
    (findOptionTraced buffer limit option valueLen (limit + 1) 240).1 =
      findOption buffer limit option := by
  rw [findOptionTraced_fst, findOption]
  exact findOptionLoop_fuel buffer limit option (by omega) (by omega)

theorem messageTypeTraced_fst (recvLen : Nat) :
    (messageTypeTraced buffer recvLen).1 = messageType buffer recvLen := by
  rw [messageTypeTraced, messageType,
    ← findOptionTraced_find 1]
  rcases findOptionTraced buffer recvLen dhcpOptionMessageType 1 (recvLen + 1) 240 with
    ⟨_ | options, reads⟩
  · rfl
  · rfl

theorem extractRequestedIpTraced_fst :
    (extractRequestedIpTraced buffer).1 = extractRequestedIp buffer := by
  rw [extractRequestedIpTraced, extractRequestedIp, ← findOptionTraced_find 4]
  rcases findOptionTraced buffer dhcpBufferSize dhcpOptionRequestedIp 4 (dhcpBufferSize + 1) 240
    with ⟨_ | options, reads⟩
  · rfl
  · rfl

/-- A loop reads below `n` when it stops below `n` with all it reads there: each header on the
way lies below the next one. -/
theorem findOptionTraced_reads {valueLen n : Nat}
    (h : Comes (tlvNext buffer) (Halts buffer limit option) p q) (hq : Halts buffer limit option q)
    {fuel : Nat} (hpos : 0 < fuel) (hfuel : limit < p + fuel) :
    (∀ r ∈ (findOptionTraced buffer limit option valueLen fuel p).2, r < n) ↔
      q < n ∧ (Ends buffer limit q ∨ q + (2 + valueLen) ≤ n) := by
  induction h generalizing fuel with
  | @here p =>
    obtain ⟨fuel, rfl⟩ : ∃ k, fuel = k + 1 := ⟨fuel - 1, by omega⟩
    rw [findOptionTraced]
    by_cases hend : Ends buffer limit p
    · rw [if_neg fun hgo => not_ends_iff.2 hgo hend, List.forall_mem_singleton]
      exact (and_iff_left (Or.inl hend)).symm
    · rw [if_pos (not_ends_iff.1 hend), if_pos (hq.resolve_left hend), or_iff_right hend]
      simp only [List.forall_mem_append, List.forall_mem_cons, List.mem_range'_1]
      constructor
      · intro hand
        obtain ⟨⟨hp, -, hlen, -⟩, hvalue⟩ := hand
        refine ⟨hp, ?_⟩
        rcases Nat.eq_zero_or_pos valueLen with hzero | hsome
        · omega
        · -- The last byte of the value is the furthest.
          have := hvalue (p + 2 + (valueLen - 1)) (by omega)
          omega
      · intro hand
        exact ⟨⟨hand.1, hand.1, by omega, by simp⟩, fun r hr => by omega⟩
  | @step p q hp hrest ih =>
    obtain ⟨hend, hopt⟩ := not_or.1 hp
    have hlt : p < limit := (not_ends_iff.1 hend).2
    have hnext := lt_tlvNext buffer p
    have hle : tlvNext buffer p ≤ q := hrest.le (lt_tlvNext buffer)
    obtain ⟨fuel, rfl⟩ : ∃ k, fuel = k + 1 := ⟨fuel - 1, by omega⟩
    have hmore := ih hq (show 0 < fuel by omega) (by omega)
    rw [findOptionTraced, if_pos (not_ends_iff.1 hend), if_neg hopt]
    simp only [List.forall_mem_append, List.forall_mem_cons]
    rw [show p + (2 + (buffer (p + 1)).toNat) = tlvNext buffer p from rfl, hmore]
    constructor
    · intro hand
      exact hand.2
    · intro hand
      have htwo : p + 2 ≤ tlvNext buffer p := by
        rw [tlvNext]
        omega
      exact ⟨⟨by omega, by omega, by omega, by simp⟩, hand⟩

end Reads

/-! ## Inside the datagram -/

/-- The walk over the options comes to END below `len`, or to an option of this type with its
header and `valueLen` value bytes below `len`. -/
def StopsInside (buffer : Mem) (len : Nat) (option : UInt8) (valueLen q : Nat) : Prop :=
  Comes (tlvNext buffer) (fun x => buffer x = dhcpEnd ∨ buffer x = option) 240 q ∧ q < len ∧
    (buffer q = dhcpEnd ∨ buffer q = option ∧ q + (2 + valueLen) ≤ len)

/-- The options of a datagram are complete as far as they are looked at: up to END or the message
type, and in a request up to END or the requested address. -/
def OptionsComplete (buffer : Mem) (recvLen : Nat) : Prop :=
  ∃ p, StopsInside buffer recvLen dhcpOptionMessageType 1 p ∧
    (buffer p ≠ dhcpEnd → buffer (p + 2) = dhcpRequest →
      ∃ q, StopsInside buffer recvLen dhcpOptionRequestedIp 4 q)

section Inside

variable {buffer : Mem} {len limit : Nat} {option : UInt8} {valueLen : Nat}

/-- The bound of a loop does not matter to a walk that stops before it. -/
theorem stopsInside_iff (hlen : len ≤ limit) {q : Nat} :
    StopsInside buffer len option valueLen q ↔
      Comes (tlvNext buffer) (Halts buffer limit option) 240 q ∧ Halts buffer limit option q ∧
        q < len ∧ (Ends buffer limit q ∨ q + (2 + valueLen) ≤ len) := by
  constructor
  · intro hand
    obtain ⟨hcomes, hlt, hstop⟩ := hand
    refine ⟨?_, ?_, hlt, ?_⟩
    · refine hcomes.congr (lt_tlvNext buffer) (fun x _ hx hgo hhalt => hgo ?_) fun _ _ _ _ _ => rfl
      rcases hhalt with (hend | hle) | hopt
      · exact Or.inl hend
      · omega
      · exact Or.inr hopt
    · rcases hstop with hend | ⟨hopt, -⟩
      · exact Or.inl (Or.inl hend)
      · exact Or.inr hopt
    · exact hstop.imp Or.inl And.right
  · intro hand
    obtain ⟨hcomes, hhalt, hlt, hstop⟩ := hand
    refine ⟨hcomes.mono fun x hx => ?_, hlt, ?_⟩
    · exact hx.imp Or.inl id
    · rcases hhalt with (hend | hle) | hopt
      · exact Or.inl hend
      · omega
      · rcases hstop with (hend | hle) | hin
        · exact Or.inl hend
        · omega
        · exact Or.inr ⟨hopt, hin⟩

theorem traced_inside_iff (hlen : len ≤ limit) :
    (∀ r ∈ (findOptionTraced buffer limit option valueLen (limit + 1) 240).2, r < len) ↔
      ∃ q, StopsInside buffer len option valueLen q := by
  obtain ⟨q, hcomes, hhalt⟩ := exists_halt buffer limit option 240
  rw [findOptionTraced_reads hcomes hhalt (Nat.succ_pos limit) (by omega)]
  constructor
  · intro hand
    exact ⟨q, (stopsInside_iff hlen).2 ⟨hcomes, hhalt, hand⟩⟩
  · intro hex
    obtain ⟨r, hr⟩ := hex
    obtain ⟨hcomes', hhalt', hand⟩ := (stopsInside_iff hlen).1 hr
    obtain rfl := hcomes.unique hhalt hcomes' hhalt'
    exact hand

theorem messageType_of_stops {p : Nat}
    (h : StopsInside buffer len dhcpOptionMessageType valueLen p) :
    messageType buffer len = if buffer p = dhcpEnd then 0 else buffer (p + 2) := by
  obtain ⟨hcomes, hhalt, hlt, -⟩ := (stopsInside_iff le_rfl).1 h
  rw [messageType]
  by_cases hend : Ends buffer len p
  · have hcode : buffer p = dhcpEnd := hend.resolve_right (Nat.not_le.2 hlt)
    rw [findOption_eq_none hcomes hend, if_pos hcode]
  · rw [findOption_eq_some_iff.2 ⟨hcomes, hend, hhalt.resolve_left hend⟩,
      if_neg (not_ends_iff.1 hend).1]

theorem messageTypeTraced_snd :
    (messageTypeTraced buffer len).2 =
      (findOptionTraced buffer len dhcpOptionMessageType 1 (len + 1) 240).2 := by
  rw [messageTypeTraced]
  rcases findOptionTraced buffer len dhcpOptionMessageType 1 (len + 1) 240 with ⟨_ | p, reads⟩
  · rfl
  · rfl

theorem extractRequestedIpTraced_snd :
    (extractRequestedIpTraced buffer).2 =
      (findOptionTraced buffer dhcpBufferSize dhcpOptionRequestedIp 4
        (dhcpBufferSize + 1) 240).2 := by
  rw [extractRequestedIpTraced]
  rcases findOptionTraced buffer dhcpBufferSize dhcpOptionRequestedIp 4 (dhcpBufferSize + 1) 240
    with ⟨_ | p, reads⟩
  · rfl
  · rfl

end Inside

/-- **The option loops stay inside the datagram** exactly when its options are complete as far as
the loops look at them. -/
theorem reads_inside_iff (buffer : Mem) {recvLen : Nat} (h : recvLen ≤ dhcpBufferSize) :
    (∀ r ∈ optionReads buffer recvLen, r < recvLen) ↔ OptionsComplete buffer recvLen := by
  have hfirst : (∀ r ∈ (messageTypeTraced buffer recvLen).2, r < recvLen) ↔
      ∃ p, StopsInside buffer recvLen dhcpOptionMessageType 1 p := by
    rw [messageTypeTraced_snd]
    exact traced_inside_iff le_rfl
  have hsecond : (∀ r ∈ (extractRequestedIpTraced buffer).2, r < recvLen) ↔
      ∃ q, StopsInside buffer recvLen dhcpOptionRequestedIp 4 q := by
    rw [extractRequestedIpTraced_snd]
    exact traced_inside_iff h
  have hreads : optionReads buffer recvLen =
      if messageType buffer recvLen = dhcpRequest then
        (messageTypeTraced buffer recvLen).2 ++ (extractRequestedIpTraced buffer).2
      else (messageTypeTraced buffer recvLen).2 := by
    rw [← messageTypeTraced_fst]
    rfl
  have hall : (∀ r ∈ optionReads buffer recvLen, r < recvLen) ↔
      (∃ p, StopsInside buffer recvLen dhcpOptionMessageType 1 p) ∧
        (messageType buffer recvLen = dhcpRequest →
          ∃ q, StopsInside buffer recvLen dhcpOptionRequestedIp 4 q) := by
    rw [hreads, ← hfirst, ← hsecond]
    split_ifs with hrequest
    · rw [List.forall_mem_append, imp_iff_right hrequest]
    · exact (and_iff_left fun heq => absurd heq hrequest).symm
  rw [hall]
  constructor
  · intro hand
    obtain ⟨⟨p, hp⟩, hrequest⟩ := hand
    rw [messageType_of_stops hp] at hrequest
    refine ⟨p, hp, fun hend htype => hrequest ?_⟩
    rw [if_neg hend, htype]
  · intro hex
    obtain ⟨p, hp, hrequest⟩ := hex
    refine ⟨⟨p, hp⟩, ?_⟩
    rw [messageType_of_stops hp]
    intro htype
    by_cases hend : buffer p = dhcpEnd
    · rw [if_pos hend] at htype
      exact absurd htype (by decide)
    · rw [if_neg hend] at htype
      exact hrequest hend htype

/-- A request for `192.168.1.100`, up to its END. -/
theorem reads_inside_request :
    ¬ ∃ r ∈ optionReads (Mem.zero.write 240 [53, 1, 3, 50, 4, 192, 168, 1, 100, 255]) 250,
      250 ≤ r := by
  have hinside := (reads_inside_iff (Mem.zero.write 240 [53, 1, 3, 50, 4, 192, 168, 1, 100, 255])
    (show 250 ≤ dhcpBufferSize by decide)).2 ⟨240, ⟨.here, by decide, Or.inr (by decide)⟩,
      fun _ _ => ⟨243, .step (by decide) .here, by decide, Or.inr (by decide)⟩⟩
  rintro ⟨r, hr, hle⟩
  exact Nat.not_lt.2 hle (hinside r hr)

/-- A request without a requested address and END: the second loop reads on behind it. -/
theorem reads_inside_fails :
    ∃ r ∈ optionReads (Mem.zero.write 240 [53, 1, 3]) 243, ¬ r < 243 := by
  decide +kernel

/-! ## Well-formed options -/

/-- The bytes of a datagram from 240 on are well-formed options: 53 with one value byte and 50 with
four, other options, and pads anywhere, up to END; after END there may be more pads. -/
structure OptionArea (buffer : Mem) (recvLen : Nat) (items : List Item) : Prop where
  wellFormed : ∀ item ∈ items, item.WellFormed
  typeLen : ∀ value, .opt dhcpOptionMessageType value ∈ items → value.length = 1
  ipLen : ∀ value, .opt dhcpOptionRequestedIp value ∈ items → value.length = 4
  bytes : ∃ pads, Holds buffer 240 (encode items ++ dhcpEnd :: List.replicate pads 0) ∧
    recvLen = 240 + ((encode items).length + (1 + pads))

/-- The value of the first option 53. -/
def typeMeant (items : List Item) : UInt8 :=
  match firstValue dhcpOptionMessageType items with
  | some value => value.headD 0
  | none => 0

/-- The word in the value of the first option 50. -/
def ipMeant (items : List Item) : UInt32 :=
  match firstValue dhcpOptionRequestedIp items with
  | some value => (Mem.zero.write 0 value).load32 0
  | none => 0

section Parsed

variable {buffer : Mem} {recvLen limit : Nat} {items : List Item} {option : UInt8}

/-- A search of well-formed options finds the first one of its type. -/
theorem OptionArea.findOption_eq (h : OptionArea buffer recvLen items) (hlimit : recvLen ≤ limit)
    (hpad : option ≠ 0) (hfin : option ≠ dhcpEnd)
    (hpaired : PairedPads (beforeFirst option items)) :
    match firstValue option items with
    | none => findOption buffer limit option = none
    | some value => ∃ q, findOption buffer limit option = some q ∧
        optionAt buffer q = (option, value) := by
  obtain ⟨pads, hbytes, hlen⟩ := h.bytes
  obtain ⟨hitems, htail⟩ := holds_append.1 hbytes
  obtain ⟨q, hcomes, hfirst⟩ := tlv_first hpad hpaired h.wellFormed hitems
    (show 240 + (encode items).length ≤ limit by omega)
  cases hvalue : firstValue option items with
  | none =>
    rw [hvalue] at hfirst
    rw [show q = 240 + (encode items).length from hfirst] at hcomes
    exact findOption_eq_none hcomes (Or.inl (holds_cons.1 htail).1)
  | some value =>
    rw [hvalue] at hfirst
    obtain ⟨hlt, hopt⟩ := hfirst
    have hcode : buffer q = option := congrArg Prod.fst hopt
    have hend : ¬ Ends buffer limit q := not_ends_iff.2 ⟨hcode ▸ hfin, hlt⟩
    exact ⟨q, findOption_eq_some_iff.2 ⟨hcomes, hend, hcode⟩, hopt⟩

theorem optionAt_value {q n : Nat} {value : List UInt8} (h : optionAt buffer q = (option, value))
    (hlen : value.length = n) : value = buffer.read (q + 2) n := by
  have hvalue : buffer.read (q + 2) (buffer (q + 1)).toNat = value := congrArg Prod.snd h
  rw [← hvalue, Mem.length_read] at hlen
  rw [← hvalue, hlen]

theorem OptionArea.messageType_eq (h : OptionArea buffer recvLen items)
    (hpaired : PairedPads (beforeFirst dhcpOptionMessageType items)) :
    messageType buffer recvLen = typeMeant items := by
  have hfind := h.findOption_eq le_rfl (by decide) (by decide) hpaired
  rw [messageType, typeMeant]
  cases hvalue : firstValue dhcpOptionMessageType items with
  | none =>
    rw [hvalue] at hfind
    rw [show findOption buffer recvLen dhcpOptionMessageType = none from hfind]
  | some value =>
    rw [hvalue] at hfind
    obtain ⟨q, hq, hopt⟩ := hfind
    rw [hq, optionAt_value hopt (h.typeLen value (mem_of_firstValue hvalue))]
    rfl

theorem OptionArea.extractRequestedIp_eq (h : OptionArea buffer recvLen items)
    (hle : recvLen ≤ dhcpBufferSize)
    (hpaired : PairedPads (beforeFirst dhcpOptionRequestedIp items)) :
    extractRequestedIp buffer = ipMeant items := by
  have hfind := h.findOption_eq hle (by decide) (by decide) hpaired
  rw [extractRequestedIp, ipMeant]
  cases hvalue : firstValue dhcpOptionRequestedIp items with
  | none =>
    rw [hvalue] at hfind
    rw [show findOption buffer dhcpBufferSize dhcpOptionRequestedIp = none from hfind]
  | some value =>
    rw [hvalue] at hfind
    obtain ⟨q, hq, hopt⟩ := hfind
    have hlen := h.ipLen value (mem_of_firstValue hvalue)
    rw [hq]
    apply load32_congr
    have hwrite := Mem.read_write_same Mem.zero 0 value
    rw [hlen] at hwrite
    rw [hwrite]
    exact (optionAt_value hopt hlen).symm

end Parsed

/-- **Well-formed options are read as they are meant** where the pads before the first option 53,
and before the first option 50, come in pairs: `handle_dhcp_packet` goes by the first message type,
and the requested address is in the first option 50. -/
theorem options_parsed {buffer : Mem} {recvLen : Nat} {items : List Item}
    (h : OptionArea buffer recvLen items) (hle : recvLen ≤ dhcpBufferSize)
    (htype : PairedPads (beforeFirst dhcpOptionMessageType items))
    (hip : PairedPads (beforeFirst dhcpOptionRequestedIp items)) :
    messageType buffer recvLen = typeMeant items ∧ extractRequestedIp buffer = ipMeant items ∧
      ∀ pool now leaseTable, handleDhcpPacket pool now leaseTable buffer recvLen =
        dhcpDispatch pool now leaseTable buffer (typeMeant items) (ipMeant items) := by
  have hmessage := h.messageType_eq htype
  have hextract := h.extractRequestedIp_eq hle hip
  refine ⟨hmessage, hextract, fun pool now leaseTable => ?_⟩
  rw [handleDhcpPacket, hmessage, hextract]

/-- The items of a request with a pair of pads before its options. -/
def pairedItems : List Item :=
  [.pad, .pad, .opt 53 [3], .opt 12 [104, 111, 115, 116], .opt 50 [192, 168, 1, 104]]

/-- The request is read as it is meant. -/
theorem options_parsed_request :
    messageType (Mem.zero.write 240 (encode pairedItems ++ [255])) 258 = dhcpRequest ∧
      extractRequestedIp (Mem.zero.write 240 (encode pairedItems ++ [255])) =
        inetAton ⟨192, 168, 1, 104⟩ := by
  have harea : OptionArea (Mem.zero.write 240 (encode pairedItems ++ [255])) 258 pairedItems :=
    ⟨by simp [pairedItems]; decide, by simp [pairedItems, dhcpOptionMessageType],
      by simp [pairedItems, dhcpOptionRequestedIp], 0, by unfold Holds; decide, by decide⟩
  obtain ⟨hmessage, hextract, -⟩ := options_parsed harea (by decide)
    (.pads .nil) (.pads (.opt 53 [3] (.opt 12 [104, 111, 115, 116] .nil)))
  exact ⟨hmessage, hextract⟩

/-- The items of a DISCOVER behind a single pad. -/
def paddedItems : List Item := [.pad, .opt 53 [1]]

/-- The single pad is taken for an option with 53 value bytes, and no message type is found. -/
theorem options_parsed_fails :
    OptionArea (Mem.zero.write 240 (encode paddedItems ++ [255])) 245 paddedItems ∧
      typeMeant paddedItems = dhcpDiscover ∧
      messageType (Mem.zero.write 240 (encode paddedItems ++ [255])) 245 = 0 :=
  ⟨⟨by simp [paddedItems]; decide, by simp [paddedItems, dhcpOptionMessageType],
    by simp [paddedItems, dhcpOptionRequestedIp], 0, by unfold Holds; decide, by decide⟩,
    by decide, by decide +kernel⟩

end NaptRouter
